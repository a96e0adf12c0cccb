import Ferventio.Lib.Transact
import Ferventio.Registration.Store

/-!
# Writers of registrations

`Upsert`, `Delete` and `DeleteForAccount` of `storage/postgres/postgres_registration.go` statement
by statement. `Upsert` first reads the hash of the stored secret `FOR UPDATE`, and ends in `INSERT …
ON CONFLICT DO UPDATE`. One that has found a row holds its lock, so the hash stays until it ends.
One that has found no row holds nothing: that the row is still missing when it writes depends on the
others, and `FirstAlone` is the condition under which it is.
-/

namespace Ferventio

namespace Registrations

/-! ## The transactions -/

open Transact Postgres Strings

variable {reg : Registration} {iid : String} {writes : Writes String Registration}

/-- The statements. -/
inductive Query
  | hashForUpdate (installationID : String)
  | upsertRow (registration : Registration)
  | hash (installationID : String)
  | deleteRow (installationID secretHash : String)
  | deleteForAccount (userID : String) (installationIDs : List String)

/-- The upsert says whether the row was admitted, a deletion whether there was one. -/
@[reducible] def Query.Ans : Query → Type
  | hashForUpdate _ => Option String
  | upsertRow _ => Bool
  | hash _ => Option String
  | deleteRow _ _ => Bool
  | deleteForAccount _ _ => List String

/-- `SELECT device_secret_hash … WHERE installation_id = $1`. -/
def storedHash (installationID : String) (rows : RegistrationTable) : Option String :=
  (rows.lookup installationID).map (·.deviceSecretHash)

/-- A statement that deletes rows, which it locks. -/
def deletion {β : Type} (keys : RegistrationTable → List String)
    (answer : RegistrationTable → β) : Statement String Registration β where
  locks rows := (keys rows).map .row
  answer := answer
  writes rows := (keys rows).map fun key => (key, none)
  locked := by
    intro rows w hw
    obtain ⟨key, hkey, rfl⟩ := List.mem_map.mp hw
    exact List.mem_map_of_mem hkey

/-- The row that `DELETE … AND device_secret_hash = $2` finds. -/
def matchingKeys (installationID secretHash : String) (rows : RegistrationTable) : List String :=
  if storedHash installationID rows = some secretHash then [installationID] else []

/-- The rows of an account deletion. -/
def accountKeys (userID : String) (installationIDs : List String) (rows : RegistrationTable) :
    List String :=
  rows.entries.filterMap fun e =>
    if (userID != "" && e.2.userID == userID) || installationIDs.contains e.1 then some e.1
    else none

/-- **The meaning of the statements.** -/
def meaning : (query : Query) → Statement String Registration query.Ans
  | .hashForUpdate installationID =>
    { locks := fun rows => (storedHash installationID rows).toList.map fun _ => .row installationID
      answer := storedHash installationID
      writes := fun _ => []
      locked := nofun }
  | .upsertRow registration =>
    { locks := fun _ => [.row registration.installationID]
      answer := fun _ => providers.contains registration.provider
      writes := fun _ =>
        if providers.contains registration.provider then
          [(registration.installationID, some registration)]
        else []
      locked := by
        intro rows w hw
        split_ifs at hw
        · rw [List.mem_singleton.mp hw]
          exact List.mem_singleton_self _
        · cases hw }
  | .hash installationID =>
    { locks := fun _ => []
      answer := storedHash installationID
      writes := fun _ => []
      locked := nofun }
  | .deleteRow installationID secretHash =>
    deletion (matchingKeys installationID secretHash)
      fun rows => storedHash installationID rows == some secretHash
  | .deleteForAccount userID installationIDs =>
    deletion (accountKeys userID installationIDs) (accountKeys userID installationIDs)

/-! ## The methods -/

/-- The methods that write. -/
inductive Task
  | upsert (registration : Registration)
  | delete (installationID deviceSecret : String)
  | deleteForAccount (userID : String) (installationIDs : List String)

/-- Their results. -/
inductive Reply
  | done (result : Result Unit)
  | removed (result : Result (List String))

/-- A call to the database. -/
abbrev Call := TxCall Query Reply

/-- A method. -/
abbrev Code := Prog Call (TxCall.Ans Query.Ans)

/-- The database failed. -/
def failure (operation : String) : Reply := .done (.error (databaseError operation))

/-- `Upsert` from the point where it has read the stored hash. -/
def upsertOn (hashSecret : String → String) (registration : Registration) (tx : Nat)
    (existing : Option String) : Code Reply :=
  if existing.any fun hash => !secureHashEqual hash (hashSecret registration.deviceSecret) then
    .ret (.done (.error .deviceSecretMismatch))
  else
    attempt tx (.upsertRow (sealedRegistration hashSecret registration))
      (failure "upsert registration") fun admitted =>
        if admitted then
          conclude tx (failure "commit registration upsert") (.done (.ok ()))
        else
          .ret (.done (.error
            (fmtDatabase "upsert registration" (some (.plain "check constraint violated")))))

/-- Store a registration of its owner. -/
def upsert (hashSecret : String → String) (registration : Registration) : Code Unit :=
  if trimSpace registration.installationID = "" ∨ registration.deviceSecret = "" then
    .call (.reply (.done (.error .deviceSecretMismatch))) fun _ => .ret ()
  else
    inTransaction (failure "begin registration upsert") fun tx =>
      attempt tx (.hashForUpdate registration.installationID)
        (failure "load registration for upsert") (upsertOn hashSecret registration tx)

/-- Delete a registration of its owner. -/
def delete (hashSecret : String → String) (installationID deviceSecret : String) : Code Reply :=
  autocommit (.hash installationID) (failure "load registration for delete") fun
    | none => .ret (.done (.error .registrationNotFound))
    | some secretHash =>
      if !secureHashEqual secretHash (hashSecret deviceSecret) then
        .ret (.done (.error .deviceSecretMismatch))
      else
        autocommit (.deleteRow installationID secretHash) (failure "delete registration")
          fun deleted =>
            .ret (.done (if deleted then .ok () else .error .registrationNotFound))

/-- Delete by user and by name. -/
def deleteForAccount (userID : String) (installationIDs : List String) : Code Reply :=
  autocommit (.deleteForAccount (trimSpace userID) (compactStrings installationIDs))
    (.removed (.error (databaseError "delete registrations for account")))
    fun removed => .ret (.removed (.ok (removed.insertionSort (· ≤ ·))))

/-- The code of a method. -/
def code (hashSecret : String → String) : Task → Code Unit
  | .upsert registration => upsert hashSecret registration
  | .delete installationID deviceSecret =>
    delete hashSecret installationID deviceSecret >>= fun reply =>
      .call (.reply reply) fun _ => .ret ()
  | .deleteForAccount userID installationIDs =>
    deleteForAccount userID installationIDs >>= fun reply =>
      .call (.reply reply) fun _ => .ret ()

/-- All interleavings of the methods. -/
def system (hashSecret : String → String) :
    System Task Call (TxCall.Ans Query.Ans) (Database String Registration) Fate :=
  transactions meaning (code hashSecret)

/-- **`Upsert` alone** is the function of the store. -/
theorem upsert_alone (H : String → String) (reg : Registration) (t : RegistrationTable) :
    Alone meaning (upsert H reg) t
      (.done (Postgres.upsert H reg t).1, (Postgres.upsert H reg t).2) := by
  rw [upsert, Postgres.upsert]
  split
  · exact alone_reply _
  · refine alone_inTransaction (returnsAlone_attempt ?_)
    show ReturnsAlone meaning (upsertOn H reg 0 (storedHash reg.installationID t)) _ t _
    rw [upsertOn, storedHash, Option.any_map]
    split
    · exact returnsAlone_ret _
    · refine returnsAlone_attempt ?_
      have hans : ∀ rows, (meaning (.upsertRow
          (sealedRegistration H reg))).answer rows = providers.contains reg.provider := fun _ => rfl
      have hwrites : ∀ rows, (meaning (.upsertRow
          (sealedRegistration H reg))).writes rows =
            if providers.contains reg.provider then
              [(reg.installationID, some (sealedRegistration H reg))]
            else [] := fun _ => rfl
      rw [hans]
      cases hprov : providers.contains reg.provider with
      | false => exact returnsAlone_ret _
      | true =>
        refine returnsAlone_conclude fun key => ?_
        rw [Session.view_run, hwrites, hprov]
        rfl

/-! ## What a writer knows -/

open Transact Postgres List

/-- The database. -/
abbrev State := Database String Registration

/-- A condition on steps. -/
abbrev Condition := System.Condition Task Call (TxCall.Ans Query.Ans) State

/-- An event of a task. -/
abbrev TaskEvent := Event Task Call (TxCall.Ans Query.Ans)

/-- The state and the history. -/
abbrev TaskView := View Task Call (TxCall.Ans Query.Ans) State

/-! ## Phases -/

/-- How far an `Upsert` has come; a deletion has one phase. -/
inductive Phase
  | idle
  | failed
  | begun
  | absent (installationID : String)
  | found (installationID secretHash : String)
  | wrote (installationID secretHash : String) (first : Bool)
  | stored (installationID secretHash : String)
  | deleting

namespace Phase

/-- What an answer tells. -/
def learn : Phase → (query : Query) → query.Ans → Phase
  | begun, .hashForUpdate installationID, none => absent installationID
  | begun, .hashForUpdate installationID, some secretHash => found installationID secretHash
  | absent installationID, .upsertRow registration, true =>
    wrote installationID registration.deviceSecretHash true
  | found installationID _, .upsertRow registration, true =>
    wrote installationID registration.deviceSecretHash false
  | _, .upsertRow _, false => failed
  | p, _, _ => p

/-- The phase after a commit. -/
def settle : Phase → Phase
  | wrote installationID secretHash _ => stored installationID secretHash
  | p => p

/-- How phases change. -/
def all : Phases Phase Query.Ans := ⟨begun, failed, learn, settle⟩

/-- The phase after a call. -/
def upsertStep : Phase → (call : Call) → call.Ans Query.Ans → Phase := all.after

/-- The phase after a call of a deletion. -/
def deleteStep : Phase → (call : Call) → call.Ans Query.Ans → Phase
  | _, .beginTx, _ => deleting
  | p, _, _ => p

/-- The phase after a call of a task. -/
def step : Task → Phase → (call : Call) → call.Ans Query.Ans → Phase
  | .upsert _ => upsertStep
  | _ => deleteStep

end Phase

/-- The replies of a phase. -/
def UpsertAnswers : Phase → Reply → Prop
  | .failed, _ => True
  | .idle, reply => reply = .done (.error .deviceSecretMismatch)
  | .found _ _, reply => reply = .done (.error .deviceSecretMismatch)
  | .stored _ _, reply => reply = .done (.ok ())
  | _, _ => False

/-- The replies of a task. -/
def Task.Answers : Task → Phase → Reply → Prop
  | .upsert _, p, reply => UpsertAnswers p reply
  | _, _, _ => True

/-- The calls of a phase. -/
def UpsertAllowed (hashSecret : String → String) (reg : Registration) :
    Phase → Call → Prop
  | .idle, .beginTx => True
  | .begun, .statement _ (.hashForUpdate iid) =>
    iid = reg.installationID
  | .absent iid, .statement _ (.upsertRow row) => row.installationID = iid
  | .found iid secretHash, .statement _ (.upsertRow row) =>
    row.installationID = iid ∧ row.deviceSecretHash = secretHash
  | .wrote iid secretHash _, .commit _ =>
    iid = reg.installationID ∧ secretHash = hashSecret reg.deviceSecret
  | _, .rollback _ => True
  | p, .reply reply => UpsertAnswers p reply
  | _, _ => False

/-- A deletion writes no registration. -/
def DeleteAllowed (p : Phase) (call : Call) : Prop :=
  (∀ tx reg, call ≠ .statement tx (.upsertRow reg)) ∧ (call.tx ≠ none → p = .deleting)

/-- The calls of a task. -/
def Task.Allowed (hashSecret : String → String) : Task → Phase → Call → Prop
  | .upsert reg => UpsertAllowed hashSecret reg
  | _ => DeleteAllowed

/-! ## Assertions -/

/-- What a phase knows. -/
def Assertion : Phase → Session String Registration → RegistrationTable → Prop
  | .begun, sess, _ => sess.writes = []
  | .absent iid, sess, committed =>
    sess.writes = [] ∧ storedHash iid committed = none
  | .found iid secretHash, sess, committed =>
    sess.writes = [] ∧ .row iid ∈ sess.locks ∧ storedHash iid committed = some secretHash
  | .wrote iid secretHash first, sess, committed =>
    .row iid ∈ sess.locks ∧
      (∃ row, sess.writes = [(iid, some row)] ∧
        row.deviceSecretHash = secretHash) ∧
      storedHash iid committed = if first then none else some secretHash
  | .deleting, sess, _ => ∀ w ∈ sess.writes, w.2 = none ∧ .row w.1 ∈ sess.locks
  | _, _, _ => True

/-- An open transaction has found no row of the installation. -/
def First (iid : String) (p : Progress Phase) : Prop :=
  p.running ∧ (p.phase = .absent iid ∨ ∃ secretHash, p.phase = .wrote iid secretHash true)

/-- **The condition.** Only one open `Upsert` finds a registration absent. -/
def FirstAlone : Condition := fun v e =>
  ∀ tx installationID, e.op = .statement tx (.hashForUpdate installationID) →
    v.state.committed.lookup installationID = none →
    ∀ pid, pid ≠ e.pid → ¬First installationID (progress .idle Phase.step v.hist pid)

/-- At most one open transaction has found no row. -/
def Alone (v : TaskView) : Prop :=
  ∀ {iid pid pid'}, First iid (progress .idle Phase.step v.hist pid) →
    First iid (progress .idle Phase.step v.hist pid') → pid = pid'

section Assertions

variable {H : String → String} {t : Task} {p p' : Phase} {tx : Nat}
  {sess sess' : Session String Registration} {committed : RegistrationTable} {query : Query}

theorem writes_deletes (hquery : ∀ reg, query ≠ .upsertRow reg)
    (rows : RegistrationTable) : ∀ w ∈ (meaning query).writes rows, w.2 = none := by
  intro w hw
  cases query with
  | upsertRow reg => exact absurd rfl (hquery reg)
  | hashForUpdate => cases hw
  | hash => cases hw
  | _ =>
    obtain ⟨key, -, rfl⟩ := mem_map.mp hw
    rfl

theorem delete_ran (hok : DeleteAllowed p (.statement tx query)) (h : Assertion p sess committed) :
    Assertion p (sess.run committed (meaning query)) committed := by
  have hp : p = .deleting := hok.2 nofun
  subst hp
  intro w hw
  rcases mem_append.mp hw with hw | hw
  · refine ⟨writes_deletes (fun reg hquery => ?_) _ w hw, ?_⟩
    · exact hok.1 tx reg (by rw [hquery])
    · exact mem_append_left _ ((meaning query).locked _ w hw)
  · exact ⟨(h w hw).1, mem_append_right _ (h w hw).2⟩

theorem run_upsertRow (hwrites : sess.writes = []) (hprov : providers.contains reg.provider) :
    (sess.run committed (meaning (.upsertRow reg))).writes = [(reg.installationID, some reg)] := by
  simp only [Session.run, meaning, hprov, if_true, hwrites, append_nil]

theorem upsert_ran (hok : UpsertAllowed H reg p (.statement tx query))
    (h : Assertion p sess committed) :
    Assertion (p.learn query ((meaning query).answer (sess.view committed)))
      (sess.run committed (meaning query)) committed := by
  cases p with
  | begun =>
    cases query with
    | hashForUpdate iid =>
      have hview := Session.view_of_unwritten h committed
      show Assertion (Phase.learn .begun (.hashForUpdate iid)
        (storedHash iid (sess.view committed))) _ _
      cases hstored : storedHash iid committed with
      | none =>
        rw [hview, hstored]
        exact ⟨h, hstored⟩
      | some =>
        rw [hview, hstored]
        refine ⟨h, ?_, hstored⟩
        simp only [Session.run, meaning, hview, hstored, Option.toList_some, map_cons,
          mem_append, mem_cons, true_or]
    | _ => exact hok.elim
  | absent =>
    cases query with
    | upsertRow row =>
      cases hok
      show Assertion (Phase.learn _ (.upsertRow row) (providers.contains row.provider)) _ _
      cases hprov : providers.contains row.provider with
      | false => trivial
      | true =>
        refine ⟨mem_append_left _ (mem_singleton_self _), ⟨row, ?_, rfl⟩, h.2⟩
        exact run_upsertRow h.1 hprov
    | _ => exact hok.elim
  | found =>
    cases query with
    | upsertRow row =>
      obtain ⟨rfl, rfl⟩ := hok
      show Assertion (Phase.learn _ (.upsertRow row) (providers.contains row.provider)) _ _
      cases hprov : providers.contains row.provider with
      | false => trivial
      | true =>
        refine ⟨mem_append_left _ (mem_singleton_self _), ⟨row, ?_, rfl⟩, h.2.2⟩
        exact run_upsertRow h.1 hprov
    | _ => exact hok.elim
  | _ => exact hok.elim

theorem assertion_ran (hok : t.Allowed H p (.statement tx query)) (h : Assertion p sess committed) :
    Assertion
      (Phase.step t p (.statement tx query) (some ((meaning query).answer (sess.view committed))))
      (sess.run committed (meaning query)) committed := by
  cases t with
  | upsert => exact upsert_ran hok h
  | _ => exact delete_ran hok h

theorem phase_commit (hok : t.Allowed H p (.commit tx)) :
    (∃ iid secretHash first, p = .wrote iid secretHash first) ∨ p = .deleting := by
  cases t with
  | upsert =>
    cases p with
    | wrote iid secretHash first => exact .inl ⟨iid, secretHash, first, rfl⟩
    | _ => exact hok.elim
  | _ =>
    exact .inr (hok.2 nofun)

theorem storedHash_apply_other (h : ∀ w, (iid, w) ∉ writes) (t : RegistrationTable) :
    storedHash iid (writes.apply t) = storedHash iid t := by
  rw [storedHash, storedHash, lookup_apply_of_not_written h]

theorem storedHash_apply_deletes {t : RegistrationTable} (hdeletes : ∀ w ∈ writes, w.2 = none)
    (h : storedHash iid t = none) : storedHash iid (writes.apply t) = none := by
  induction writes with
  | nil => exact h
  | cons entry writes ih =>
    obtain ⟨key, w⟩ := entry
    have hw : w = none := hdeletes (key, w) mem_cons_self
    have hrest := ih fun w' hw' => hdeletes w' (mem_cons_of_mem _ hw')
    rw [storedHash, Option.map_eq_none_iff] at hrest ⊢
    rw [lookup_apply_cons, hw, hrest, ite_self]

/-- **A commit of another writer** leaves the assertion true, unless both found the installation
absent. -/
theorem assertion_stable (hok : t.Allowed H p (.commit tx)) (h : Assertion p sess committed)
    (h' : Assertion p' sess' committed) (hapart : Apart sess sess')
    (hfirst : ∀ iid secretHash, p = .wrote iid secretHash true → p' ≠ .absent iid) :
    Assertion p' sess' (sess.writes.apply committed) := by
  cases p' with
  | absent iid =>
    refine ⟨h'.1, ?_⟩
    rcases phase_commit hok with ⟨key, secretHash, first, rfl⟩ | rfl
    · obtain ⟨-, ⟨row, hwrites, -⟩, hstored⟩ := h
      by_cases hkey : key = iid
      · subst hkey
        cases first with
        | true => exact absurd rfl (hfirst key secretHash rfl)
        | false =>
          rw [h'.2] at hstored
          cases hstored
      · refine (storedHash_apply_other (fun w hw => ?_) committed).trans h'.2
        rw [hwrites, mem_singleton] at hw
        cases hw
        exact hkey rfl
    · exact storedHash_apply_deletes (fun w hw => (h w hw).1) h'.2
  | found =>
    have hother := hapart.not_written h'.2.1
    exact ⟨h'.1, h'.2.1, (storedHash_apply_other hother committed).trans h'.2.2⟩
  | wrote =>
    have hother := hapart.not_written h'.1
    exact ⟨h'.1, h'.2.1, (storedHash_apply_other hother committed).trans h'.2.2⟩
  | _ => exact h'

theorem assertions (H : String → String) :
    Transact.Assertions meaning Phase.idle Phase.step (Task.Allowed H)
      (fun v e => FirstAlone v e ∧ Alone v) Assertion where
  begun := by
    intro t p tx committed _
    cases t with
    | upsert => rfl
    | _ => exact nofun
  ran := assertion_ran
  replied := by
    intro t p reply
    cases t with
    | upsert => cases p <;> rfl
    | _ => rfl
  stable := by
    intro v e tx sess pid sess' hG hop hpid hok hruns h hruns' h' hapart
    refine assertion_stable (hop ▸ hok) h h' hapart ?_
    intro iid secretHash hwrote habsent
    exact hpid (hG.2 ⟨hruns, .inr ⟨secretHash, hwrote⟩⟩ ⟨hruns', .inl habsent⟩)

end Assertions

/-! ## The code -/

section Code

variable {H : String → String} {t : Task} {tx : Nat} {p : Progress Phase}

theorem closing (H : String → String) (reg : Registration) :
    Closing Phase.step (Task.Allowed H) Task.Answers (.upsert reg) where
  rollback p _ := by cases p <;> trivial
  rolled p _ := by cases p <;> rfl
  reply := by
    intro p reply h
    cases p <;> exact h

theorem follows_upsert (reg : Registration) :
    System.Follows (Progress.next Phase.step (.upsert reg))
      (Progress.Allows (Task.Allowed H) (.upsert reg)) (fun _ _ => True)
      (upsert H reg) { phase := .idle } := by
  rw [upsert]
  split
  · exact ⟨⟨by rintro _ ⟨⟩, by rintro ⟨⟩, rfl⟩, fun _ => trivial⟩
  · refine follows_inTransaction (closing H reg) trivial trivial fun tx => ?_
    refine follows_attempt rfl rfl trivial fun existing => ?_
    rw [upsertOn]
    cases existing with
    | none =>
      refine follows_attempt rfl rfl trivial fun admitted => ?_
      cases admitted with
      | false => exact follows_ret rfl trivial
      | true => exact follows_conclude rfl ⟨rfl, rfl⟩ trivial rfl
    | some secretHash =>
      rw [Option.any_some]
      cases hequal : secureHashEqual secretHash (H reg.deviceSecret) with
      | false => exact follows_ret rfl rfl
      | true =>
        have hhash : H reg.deviceSecret = secretHash := by
          rw [secureHashEqual, Bool.and_eq_true, beq_iff_eq] at hequal
          exact hequal.2.symm
        refine follows_attempt rfl ⟨rfl, hhash⟩ trivial fun admitted => ?_
        cases admitted with
        | false => exact follows_ret rfl trivial
        | true => exact follows_conclude rfl ⟨rfl, rfl⟩ trivial rfl

/-- The task deletes. -/
def Task.Deletes (t : Task) : Prop := ∀ reg, t ≠ .upsert reg

theorem Task.Deletes.step (ht : t.Deletes) : Phase.step t = Phase.deleteStep := by
  cases t with
  | upsert reg => exact absurd rfl (ht reg)
  | _ => rfl

theorem Task.Deletes.allowed (ht : t.Deletes) {p : Phase} {call : Call} (h : DeleteAllowed p call) :
    t.Allowed H p call := by
  cases t with
  | upsert reg => exact absurd rfl (ht reg)
  | _ => exact h

/-- The code keeps to its phases. -/
abbrev FollowsDelete (hashSecret : String → String) (t : Task) (body : Code Reply)
    (p : Progress Phase) : Prop :=
  System.Follows (Progress.next Phase.step t) (Progress.Allows (Task.Allowed hashSecret) t)
    (fun _ p => p.running = false) body p

theorem follows_autocommit (ht : t.Deletes) {query : Query} {failed : Reply}
    {rest : query.Ans → Code Reply} (hquery : ∀ reg, query ≠ .upsertRow reg)
    (hp : p.running = false) (hrest : ∀ a p', p'.running = false → FollowsDelete H t (rest a) p') :
    FollowsDelete H t (autocommit query failed rest) p := by
  refine ⟨⟨nofun, fun _ => hp, ht.allowed ⟨nofun, fun h => absurd rfl h⟩⟩, fun a => ?_⟩
  cases a with
  | none => rfl
  | some tx =>
    have hbegun : Phase.step t p.phase .beginTx (some tx) = .deleting := by
      rw [ht.step]
      rfl
    have hstatement : ∀ tx' reg,
        (.statement tx query : Call) ≠ .statement tx' (.upsertRow reg) := by
      intro tx' reg h
      cases h
      exact hquery reg rfl
    refine ⟨⟨?_, nofun, ht.allowed ⟨hstatement, fun _ => hbegun⟩⟩, fun a => ?_⟩
    · rintro tx' ⟨⟩
      rfl
    · cases a with
      | none => rfl
      | some ans =>
        have hran : Phase.step t (Phase.step t p.phase .beginTx (some tx)) (.statement tx query)
            (some ans) = .deleting := by
          rw [hbegun, ht.step]
          rfl
        refine ⟨⟨?_, nofun, ht.allowed ⟨nofun, fun _ => hran⟩⟩, fun ok => ?_⟩
        · rintro tx' ⟨⟩
          rfl
        · cases ok with
          | true => exact hrest ans _ rfl
          | false => rfl

theorem follows_delete (ht : t.Deletes) (iid secret : String) (hp : p.running = false) :
    FollowsDelete H t (delete H iid secret) p := by
  refine follows_autocommit ht nofun hp fun secretHash p hp => ?_
  cases secretHash with
  | none => exact hp
  | some =>
    dsimp only
    split
    · exact hp
    · exact follows_autocommit ht nofun hp fun deleted p hp => hp

theorem follows_deleteForAccount (ht : t.Deletes) (uid : String) (iids : List String)
    (hp : p.running = false) :
    FollowsDelete H t (deleteForAccount uid iids) p :=
  follows_autocommit ht nofun hp fun _ _ hp => hp

theorem follows_code (t : Task) :
    System.Follows (Progress.next Phase.step t) (Progress.Allows (Task.Allowed H) t)
      (fun _ _ => True) (code H t) { phase := .idle } := by
  have hreply : ∀ {t : Task}, t.Deletes → ∀ (reply : Reply) (p : Progress Phase),
      System.Follows (Progress.next Phase.step t) (Progress.Allows (Task.Allowed H) t)
        (fun _ _ => True) (.call (.reply reply) fun _ => .ret ()) p := by
    intro t ht reply p
    exact ⟨⟨nofun, nofun, ht.allowed ⟨nofun, fun h => absurd rfl h⟩⟩, fun _ => trivial⟩
  cases t with
  | upsert reg => exact follows_upsert reg
  | delete iid secret =>
    have ht : (Task.delete iid secret).Deletes := nofun
    exact System.Follows.bind (follows_delete ht iid secret rfl) fun reply p _ => hreply ht reply p
  | deleteForAccount uid iids =>
    have ht : (Task.deleteForAccount uid iids).Deletes := nofun
    exact System.Follows.bind (follows_deleteForAccount ht uid iids rfl)
      fun reply p _ => hreply ht reply p

end Code

end Registrations

end Ferventio
