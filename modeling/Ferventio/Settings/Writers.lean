import Ferventio.Lib.Transact
import Ferventio.Settings.Store

/-!
# Writers of settings

`Put` and `Restore` of `storage/postgres/postgres_settings_sync.go` statement by statement. Both
first take the advisory lock of the user; `lockKey` is its key, for which the code takes a hash. A
writer that holds it is the only one that can change the user's rows, so what it has read stays
current until it commits.
-/

namespace Ferventio

namespace Settings

/-! ## The transactions -/

open Transact Postgres

variable {jsonb : Jsonb} {lockKey : String → Int} {sess : Session (String × Int) SettingsSyncRow}

/-- The statements. -/
inductive Query
  | lockUser (userID : String)
  | current (userID : String)
  | revision (userID : String) (revision : Int)
  | insert (userID : String) (snapshot : SettingsSyncSnapshot)
  | trim (userID : String)

/-- An `INSERT` says whether the key was free. -/
@[reducible] def Query.Ans : Query → Type
  | lockUser _ => Unit
  | current _ => Option SettingsSyncSnapshot
  | revision _ _ => Option SettingsSyncSnapshot
  | insert _ _ => Bool
  | trim _ => Unit

/-- The rows to delete. -/
def staleKeys (userID : String) (rows : SettingsSyncTable) : List (String × Int) :=
  rows.keys.filter (staleRevision userID rows)

/-- **The meaning of the statements.** -/
def meaning (lockKey : String → Int) (jsonb : Jsonb) :
    (query : Query) → Statement (String × Int) SettingsSyncRow query.Ans
  | .lockUser userID =>
    { locks := fun _ => [.advisory (lockKey userID)]
      answer := fun _ => ()
      writes := fun _ => []
      locked := nofun }
  | .current userID =>
    -- `FOR UPDATE` locks the row that is found
    { locks := fun rows => (currentSettings userID rows).toList.map fun current =>
        .row (userID, current.revision)
      answer := currentSettings userID
      writes := fun _ => []
      locked := nofun }
  | .revision userID revision =>
    { locks := fun _ => []
      answer := settingsRevision userID revision
      writes := fun _ => []
      locked := nofun }
  | .insert userID snapshot =>
    { locks := fun _ => [.row (userID, snapshot.revision)]
      answer := fun rows => (rows.lookup (userID, snapshot.revision)).isNone
      writes := fun rows =>
        if (rows.lookup (userID, snapshot.revision)).isNone then
          [((userID, snapshot.revision), some (settingsRow jsonb snapshot))]
        else []
      locked := by
        intro rows w hw
        split_ifs at hw
        · rw [List.mem_singleton.mp hw]
          exact List.mem_singleton_self _
        · cases hw }
  | .trim userID =>
    { locks := fun rows => (staleKeys userID rows).map .row
      answer := fun _ => ()
      writes := fun rows => (staleKeys userID rows).map fun key => (key, none)
      locked := by
        intro rows w hw
        obtain ⟨key, hkey, rfl⟩ := List.mem_map.mp hw
        exact List.mem_map_of_mem hkey }

/-! ## The methods -/

/-- A method; `now` is what its clock shows. -/
inductive Task
  | put (put : SettingsPut) (now : Time)
  | restore (userID installationID : String) (revision : Int) (now : Time)

/-- A call to the database. -/
abbrev Call := TxCall Query SettingsAnswer

/-- A method. -/
abbrev Code := Prog Call (TxCall.Ans Query.Ans)

/-- The database failed. -/
def failure (operation : String) : SettingsAnswer :=
  ({}, some (databaseError operation))

/-- Lock the user. -/
def lockSettingsSyncUser (tx : Nat) (userID : String) (rest : Code SettingsAnswer) :
    Code SettingsAnswer :=
  attempt tx (.lockUser userID) (failure "lock settings sync user") fun _ => rest

/-- Read the latest snapshot. -/
def currentSettingsSyncTx (tx : Nat) (userID : String)
    (rest : Option SettingsSyncSnapshot → Code SettingsAnswer) : Code SettingsAnswer :=
  attempt tx (.current userID) (failure "load current settings snapshot") rest

/-- Insert the next revision, trim the old ones and commit. -/
def write (tx : Nat) (insert trim commit userID : String) (next : SettingsSyncSnapshot) :
    Code SettingsAnswer :=
  attempt tx (.insert userID next) (failure insert) fun free =>
    if free then
      attempt tx (.trim userID) (failure trim) fun _ =>
        conclude tx (failure commit) (next, none)
    else .ret ({}, some (fmtDatabase insert (some (.plain "duplicate key value"))))

/-- `Put` from the point where it has read the current snapshot. -/
def putOn (jsonb : Jsonb) (tx : Nat) (put : SettingsPut) (now : Time)
    (current : Option SettingsSyncSnapshot) : Code SettingsAnswer :=
  if !put.force && put.baseRevision != currentRevision current then
    .ret (current.getD {}, some .settingsSyncConflict)
  else if current.any (·.contentHash == put.contentHash) then
    conclude tx (failure "commit unchanged settings sync") (current.getD {}, none)
  else if !jsonb.valid put.payload then
    .ret ({}, some (.plain "settings payload must contain valid JSON"))
  else
    write tx "insert settings snapshot" "trim settings snapshots" "commit settings sync"
      put.userID (put.next now current)

/-- Write, unless it is outdated. -/
def put (jsonb : Jsonb) (put : SettingsPut) (now : Time) : Code Unit :=
  inTransaction (failure "begin settings sync") fun tx =>
    lockSettingsSyncUser tx put.userID <|
      currentSettingsSyncTx tx put.userID (putOn jsonb tx put now)

/-- `Restore` after its search. -/
def restoreFrom (tx : Nat) (userID installationID : String) (now : Time) :
    Option SettingsSyncSnapshot → Code SettingsAnswer
  | none => .ret ({}, some .settingsSyncRevisionNotFound)
  | some source =>
    currentSettingsSyncTx tx userID fun current =>
      write tx "insert restored settings snapshot" "trim restored settings snapshots"
        "commit restored settings snapshot" userID
        (restoredSnapshot now installationID source current)

/-- Write an old snapshot again. -/
def restore (userID installationID : String) (revision : Int) (now : Time) : Code Unit :=
  inTransaction (failure "begin restore settings") fun tx =>
    lockSettingsSyncUser tx userID <|
      attempt tx (.revision userID revision) (failure "load settings revision")
        (restoreFrom tx userID installationID now)

/-- The code of a method. -/
def code (jsonb : Jsonb) : Task → Code Unit
  | .put p now => put jsonb p now
  | .restore userID installationID revision now => restore userID installationID revision now

/-- All interleavings of the methods. -/
def system (lockKey : String → Int) (jsonb : Jsonb) :
    System Task Call (TxCall.Ans Query.Ans) (Database (String × Int) SettingsSyncRow) Fate :=
  transactions (meaning lockKey jsonb) (code jsonb)

/-! ## What a writer knows -/

open Transact Postgres List

/-! ## Phases -/

/-- How far a writer has come, with what it has read and written. -/
inductive Phase
  | idle
  | failed
  | begun
  | locked (userID : String)
  | read (userID : String) (current : Option SettingsSyncSnapshot)
  | wrote (userID : String) (current : Option SettingsSyncSnapshot) (next : SettingsSyncSnapshot)
  | created (next : SettingsSyncSnapshot)

/-- What an answer tells. -/
def Phase.learn : Phase → (query : Query) → query.Ans → Phase
  | begun, .lockUser userID, _ => locked userID
  | locked userID, .current _, current => read userID current
  | read userID current, .insert _ next, true => wrote userID current next
  | _, .insert _ _, false => failed
  | p, _, _ => p

/-- The phase after a commit. -/
def Phase.settle : Phase → Phase
  | wrote _ _ next => created next
  | p => p

/-- How phases change. -/
def Phase.all : Phases Phase Query.Ans := ⟨begun, failed, learn, settle⟩

/-- The phase after a call. -/
def Phase.step (_ : Task) : Phase → (call : Call) → call.Ans Query.Ans → Phase := all.after

/-- The user of a task. -/
def Task.userID : Task → String
  | put p _ => p.userID
  | restore userID _ _ _ => userID

/-- A `Put` without force is on the current revision. -/
def Task.OnBase : Task → Option SettingsSyncSnapshot → Prop
  | put p _, current => p.force = false → p.baseRevision = currentRevision current
  | restore _ _ _ _, _ => True

/-- What a `Put` answers if it wrote nothing. -/
def unwritten (jsonb : Jsonb) (put : SettingsPut) (current : Option SettingsSyncSnapshot)
    (answer : SettingsAnswer) : Prop :=
  if !put.force && put.baseRevision != currentRevision current then
    answer = (current.getD {}, some .settingsSyncConflict)
  else if current.any (·.contentHash == put.contentHash) then answer = (current.getD {}, none)
  else jsonb.valid put.payload = false

/-- The answers of a phase. -/
def Task.Answers (jsonb : Jsonb) : Task → Phase → SettingsAnswer → Prop
  | _, .failed, _ => True
  | restore _ _ _ _, _, _ => True
  | put p _, .read userID current, answer => p.userID = userID ∧ unwritten jsonb p current answer
  | put _ _, .created next, answer => answer = (next, none)
  | put _ _, _, _ => False

/-- The calls of a phase. -/
def Task.Allowed (jsonb : Jsonb) (t : Task) : Phase → Call → Prop
  | .idle, .beginTx => True
  | .begun, .statement _ (.lockUser userID) => userID = t.userID
  | .locked userID, .statement _ (.current uid') => uid' = userID
  | .locked _, .statement _ (.revision _ _) => True
  | .read userID current, .statement _ (.insert uid' next) =>
    uid' = userID ∧ next.revision = currentRevision current + 1
  | .read _ _, .commit _ => True
  | .wrote userID _ _, .statement _ (.trim uid') => uid' = userID
  | .wrote userID current _, .commit _ => userID = t.userID ∧ t.OnBase current
  | _, .rollback _ => True
  | p, .reply answer => t.Answers jsonb p answer
  | _, _ => False

/-! ## Assertions -/

/-- The revisions of a user that a transaction inserts. -/
def insertedRevisions (userID : String) (writes : Writes (String × Int) SettingsSyncRow) :
    List Int :=
  writes.filterMap fun w => if w.1.1 = userID ∧ w.2.isSome then some w.1.2 else none

/-- A writer has inserted the revision after the current one. -/
structure Wrote (lockKey : String → Int) (userID : String) (current : Option SettingsSyncSnapshot)
    (next : SettingsSyncSnapshot) (sess : Session (String × Int) SettingsSyncRow)
    (committed : SettingsSyncTable) : Prop where
  locked : .advisory (lockKey userID) ∈ sess.locks
  read : currentSettings userID committed = current
  follows : next.revision = currentRevision current + 1
  own : ∀ w ∈ sess.writes, w.1.1 = userID
  created : insertedRevisions userID sess.writes = [next.revision]
  newest : currentRevision (currentSettings userID (sess.view committed)) = next.revision

/-- What a phase knows. -/
def Assertion (lockKey : String → Int) :
    Phase → Session (String × Int) SettingsSyncRow → SettingsSyncTable → Prop
  | .begun, sess, _ => sess.writes = []
  | .locked userID, sess, _ =>
    .advisory (lockKey userID) ∈ sess.locks ∧ sess.writes = []
  | .read userID current, sess, committed =>
    .advisory (lockKey userID) ∈ sess.locks ∧ sess.writes = [] ∧
      currentSettings userID committed = current
  | .wrote userID current next, sess, committed =>
    Wrote lockKey userID current next sess committed
  | _, _, _ => True

section Assertions

variable {userID : String} {current : Option SettingsSyncSnapshot} {next : SettingsSyncSnapshot}
  {committed : SettingsSyncTable}

theorem currentSettings_apply_other {writes : Writes (String × Int) SettingsSyncRow}
    (h : ∀ w ∈ writes, w.1.1 ≠ userID) (t : SettingsSyncTable) :
    currentSettings userID (writes.apply t) = currentSettings userID t := by
  rw [currentSettings, currentSettings]
  refine congrArg List.head? (settingsSnapshots_congr fun revision => ?_)
  exact lookup_apply_of_not_written (fun w hw => h _ hw rfl) t

theorem currentSettings_view_congr {committed' : SettingsSyncTable}
    (h : ∀ revision, committed'.lookup (userID, revision) = committed.lookup (userID, revision)) :
    currentSettings userID (sess.view committed') =
      currentSettings userID (sess.view committed) := by
  rw [currentSettings, currentSettings]
  exact congrArg List.head? (settingsSnapshots_congr fun revision =>
    lookup_apply_congr sess.writes (h revision))

theorem wrote_of_insert (jsonb : Jsonb) (hlocked : .advisory (lockKey userID) ∈ sess.locks)
    (hwrites : sess.writes = []) (hcur : currentSettings userID committed = current)
    (hnext : next.revision = currentRevision current + 1) :
    (meaning lockKey jsonb (.insert userID next)).answer (sess.view committed) ∧
      Wrote lockKey userID current next
        (sess.run committed (meaning lockKey jsonb (.insert userID next))) committed := by
  rw [← hcur] at hnext
  obtain ⟨hnewest, hnone⟩ := newer_of_next hnext
  have hview := Session.view_of_unwritten hwrites committed
  have hrun : (sess.run committed (meaning lockKey jsonb (.insert userID next))).writes =
      [((userID, next.revision), some (settingsRow jsonb next))] := by
    simp only [Session.run, meaning, hview, hwrites, hnone, Option.isNone_none, if_true, append_nil]
  refine ⟨?_, ?_⟩
  · simp only [meaning, hview, hnone, Option.isNone_none]
  · refine ⟨mem_append_right _ hlocked, hcur, hcur ▸ hnext, ?_, ?_, ?_⟩
    · intro w hw
      rw [hrun, mem_singleton] at hw
      rw [hw]
    · rw [hrun, insertedRevisions]
      simp only [filterMap_cons, Option.isSome_some, and_self, if_true, filterMap_nil]
    · rw [Session.view, hrun]
      show currentRevision (currentSettings userID (committed.insert _ _)) = next.revision
      rw [currentSettings, settingsSnapshots_insert hnewest]
      rfl

theorem mem_staleKeys {key : String × Int} {rows : SettingsSyncTable}
    (h : key ∈ staleKeys userID rows) : staleRevision userID rows key :=
  (mem_filter.mp h).2

theorem lookup_deletes_staleKeys (userID : String) (rows : SettingsSyncTable) (key : String × Int) :
    (Writes.apply ((staleKeys userID rows).map fun k => (k, none)) rows).lookup key =
      (trimSettings userID rows).lookup key := by
  rw [lookup_apply_deletes, trimSettings, Table.lookup_select]
  cases hrow : rows.lookup key with
  | none => rw [Option.filter_none, ite_self]
  | some =>
    have hkey : key ∈ rows.keys :=
      Table.mem_keys_iff.mpr (by rw [hrow]; exact Option.some_ne_none _)
    have hmem : key ∈ staleKeys userID rows ↔ staleRevision userID rows key :=
      ⟨mem_staleKeys, fun h => mem_filter.mpr ⟨hkey, h⟩⟩
    rw [Option.filter_some]
    cases hstale : staleRevision userID rows key with
    | true =>
      rw [if_pos (hmem.mpr hstale)]
      rfl
    | false =>
      rw [if_neg fun h => Bool.false_ne_true (hstale.symm.trans (hmem.mp h))]
      rfl

theorem Wrote.trim (h : Wrote lockKey userID current next sess committed) :
    Wrote lockKey userID current next
      (sess.run committed (meaning lockKey jsonb (.trim userID))) committed where
  locked := mem_append_right _ h.locked
  read := h.read
  follows := h.follows
  own := by
    intro w hw
    rcases mem_append.mp hw with hw | hw
    · obtain ⟨key, hkey, rfl⟩ := mem_map.mp hw
      have hstale := mem_staleKeys hkey
      rw [staleRevision, Bool.and_eq_true, beq_iff_eq] at hstale
      exact hstale.1
    · exact h.own w hw
  created := by
    have hdeletes : ∀ keys : List (String × Int),
        insertedRevisions userID (keys.map fun key => (key, none)) = [] := by
      intro keys
      rw [insertedRevisions, filterMap_map, filterMap_eq_nil_iff]
      intro key _
      exact if_neg fun hsome => Bool.false_ne_true hsome.2
    show insertedRevisions userID (_ ++ sess.writes) = _
    rw [insertedRevisions, filterMap_append]
    exact (congrArg (· ++ insertedRevisions userID sess.writes) (hdeletes _)).trans h.created
  newest := by
    rw [Session.view_run, ← h.newest, currentSettings, currentSettings]
    have hsnapshots := settingsSnapshots_congr
      fun revision => lookup_deletes_staleKeys userID (sess.view committed) (userID, revision)
    refine congrArg currentRevision ((congrArg List.head? hsnapshots).trans ?_)
    rw [settingsSnapshots_trim, settingsHistory, List.head?_take, if_neg (Nat.succ_ne_zero _)]

theorem Wrote.stable (h : Wrote lockKey userID current next sess committed)
    {writes : Writes (String × Int) SettingsSyncRow} (hother : ∀ w ∈ writes, w.1.1 ≠ userID) :
    Wrote lockKey userID current next sess (writes.apply committed) where
  locked := h.locked
  read := (currentSettings_apply_other hother committed).trans h.read
  follows := h.follows
  own := h.own
  created := h.created
  newest := by
    rw [← h.newest]
    refine congrArg currentRevision (currentSettings_view_congr fun revision => ?_)
    exact lookup_apply_of_not_written (fun w hw => hother _ hw rfl) committed

theorem assertion_ran {t : Task} {p : Phase} {tx : Nat} {query : Query}
    (hok : t.Allowed jsonb p (.statement tx query)) (h : Assertion lockKey p sess committed) :
    Assertion lockKey (p.learn query ((meaning lockKey jsonb query).answer (sess.view committed)))
      (sess.run committed (meaning lockKey jsonb query)) committed := by
  cases p with
  | begun =>
    cases query with
    | lockUser => exact ⟨mem_append_left _ (mem_singleton_self _), h⟩
    | _ => exact hok.elim
  | locked userID =>
    cases query with
    | current =>
      cases hok
      refine ⟨mem_append_right _ h.1, h.2, ?_⟩
      show currentSettings userID committed = currentSettings userID (sess.view committed)
      rw [Session.view_of_unwritten h.2]
    | revision => exact ⟨h.1, h.2⟩
    | _ => exact hok.elim
  | read =>
    cases query with
    | insert =>
      obtain ⟨rfl, hnext⟩ := hok
      obtain ⟨hfree, hwrote⟩ := wrote_of_insert jsonb h.1 h.2.1 h.2.2 hnext
      rw [hfree]
      exact hwrote
    | _ => exact hok.elim
  | wrote =>
    cases query with
    | trim =>
      cases hok
      exact Wrote.trim h
    | _ => exact hok.elim
  | _ => exact hok.elim

theorem assertion_commit {t : Task} {p : Phase} {tx : Nat}
    (hok : t.Allowed jsonb p (.commit tx)) (h : Assertion lockKey p sess committed) :
    sess.writes = [] ∨
      ∃ userID current next, p = .wrote userID current next ∧ userID = t.userID ∧
        t.OnBase current ∧ Wrote lockKey userID current next sess committed := by
  cases p with
  | read => exact .inl h.2.1
  | wrote userID current next => exact .inr ⟨userID, current, next, rfl, hok.1, hok.2, h⟩
  | _ => exact hok.elim

theorem assertion_stable {t : Task} {p p' : Phase} {tx : Nat}
    {sess' : Session (String × Int) SettingsSyncRow} (hok : t.Allowed jsonb p (.commit tx))
    (h : Assertion lockKey p sess committed) (h' : Assertion lockKey p' sess' committed)
    (hdisjoint : ∀ lock ∈ sess.locks, lock ∉ sess'.locks) :
    Assertion lockKey p' sess' (sess.writes.apply committed) := by
  rcases assertion_commit hok h with hwrites | ⟨userID, current, next, -, -, -, hwrote⟩
  · rw [hwrites]
    exact h'
  · -- two writers of one user would share the advisory lock
    have hother : ∀ {user}, .advisory (lockKey user) ∈ sess'.locks →
        ∀ w ∈ sess.writes, w.1.1 ≠ user := by
      rintro user hlock w hw rfl
      rw [hwrote.own w hw] at hlock
      exact hdisjoint _ hwrote.locked hlock
    cases p' with
    | read =>
      exact ⟨h'.1, h'.2.1, (currentSettings_apply_other (hother h'.1) committed).trans h'.2.2⟩
    | wrote => exact Wrote.stable h' (hother h'.locked)
    | _ => exact h'

theorem assertions (lockKey : String → Int) (jsonb : Jsonb)
    (G : System.Condition Task Call (TxCall.Ans Query.Ans)
      (Database (String × Int) SettingsSyncRow)) :
    Transact.Assertions (meaning lockKey jsonb) Phase.idle Phase.step (Task.Allowed jsonb) G
      (Assertion lockKey) where
  begun _ := rfl
  ran := assertion_ran
  replied := rfl
  stable _ hop _ hok _ h _ h' hapart :=
    assertion_stable (hop ▸ hok) h h' hapart.disjoint

end Assertions

/-! ## The code -/

section Code

variable {t : Task} {tx : Nat} {p : Progress Phase}

theorem answers_failed (ans : SettingsAnswer) : t.Answers jsonb .failed ans := by
  cases t <;> trivial

theorem closing (jsonb : Jsonb) (t : Task) :
    Closing Phase.step (Task.Allowed jsonb) (Task.Answers jsonb) t where
  rollback p _ := by cases p <;> trivial
  rolled p _ := by cases p <;> rfl
  reply := by
    intro p ans h
    cases p <;> exact h

theorem follows_write {insert trim commit userID : String} {current : Option SettingsSyncSnapshot}
    {next : SettingsSyncSnapshot} (htx : p.tx = some tx) (hphase : p.phase = .read userID current)
    (hnext : next.revision = currentRevision current + 1) (huser : userID = t.userID)
    (hbase : t.OnBase current) (hans : t.Answers jsonb (.created next) (next, none)) :
    FollowsPhases Phase.step (Task.Allowed jsonb) (Task.Answers jsonb) t tx
      (write tx insert trim commit userID next) p := by
  obtain ⟨tx', running, phase⟩ := p
  subst hphase
  refine follows_attempt htx ⟨rfl, hnext⟩ (answers_failed _) fun free => ?_
  cases free with
  | true =>
    refine follows_attempt htx rfl (answers_failed _) fun _ => ?_
    exact follows_conclude htx ⟨huser, hbase⟩ (answers_failed _) hans
  | false => exact follows_ret htx (answers_failed _)

theorem follows_put (put : SettingsPut) (now : Time) :
    System.Follows (Progress.next Phase.step (.put put now))
      (Progress.Allows (Task.Allowed jsonb) (.put put now)) (fun _ _ => True)
      (Settings.put jsonb put now) { phase := .idle } := by
  refine follows_inTransaction (closing jsonb _) trivial trivial fun tx => ?_
  refine follows_attempt rfl rfl trivial fun _ => ?_
  refine follows_attempt rfl rfl trivial fun current => ?_
  rw [putOn]
  cases hbase : (!put.force && put.baseRevision != currentRevision current) with
  | true =>
    rw [if_pos rfl]
    refine ⟨rfl, rfl, ?_⟩
    rw [unwritten, if_pos hbase]
  | false =>
    rw [if_neg Bool.false_ne_true]
    cases hhash : current.any (·.contentHash == put.contentHash) with
    | true =>
      rw [if_pos rfl]
      refine follows_conclude rfl trivial trivial ⟨rfl, ?_⟩
      rw [unwritten, if_neg (by rw [hbase]; exact Bool.false_ne_true), if_pos hhash]
    | false =>
      rw [if_neg Bool.false_ne_true]
      cases hvalid : jsonb.valid put.payload with
      | false =>
        refine ⟨rfl, rfl, ?_⟩
        rw [unwritten, if_neg (by rw [hbase]; exact Bool.false_ne_true),
          if_neg (by rw [hhash]; exact Bool.false_ne_true), hvalid]
      | true =>
        refine follows_write rfl rfl rfl rfl ?_ rfl
        intro hforce
        rw [hforce, Bool.not_false, Bool.true_and, bne_eq_false_iff_eq] at hbase
        exact hbase

theorem follows_restore (userID iid : String) (revision : Int) (now : Time) :
    System.Follows (Progress.next Phase.step (.restore userID iid revision now))
      (Progress.Allows (Task.Allowed jsonb) (.restore userID iid revision now))
      (fun _ _ => True) (restore userID iid revision now) { phase := .idle } := by
  refine follows_inTransaction (closing jsonb _) trivial trivial fun tx => ?_
  refine follows_attempt rfl rfl trivial fun _ => ?_
  refine follows_attempt rfl trivial trivial fun source => ?_
  cases source with
  | none => exact ⟨rfl, trivial⟩
  | some =>
    refine follows_attempt rfl rfl trivial fun current => ?_
    exact follows_write rfl rfl rfl rfl trivial trivial

theorem follows_code (t : Task) :
    System.Follows (Progress.next Phase.step t) (Progress.Allows (Task.Allowed jsonb) t)
      (fun _ _ => True) (code jsonb t) { phase := .idle } := by
  cases t with
  | put put now => exact follows_put put now
  | restore userID iid revision now =>
    exact follows_restore userID iid revision now

end Code

/-! ## A writer alone

Without other transactions the methods compute the functions of the settings store. -/

section Alone

variable {t : SettingsSyncTable}

theorem write_alone {insert trim commit userID : String} {next : SettingsSyncSnapshot}
    (h : sess.writes = []) :
    ReturnsAlone (meaning lockKey jsonb) (write 0 insert trim commit userID next) sess t
      (insertSettings jsonb insert userID next t) := by
  have hview := Session.view_of_unwritten h t
  refine returnsAlone_attempt ?_
  have hans : (meaning lockKey jsonb (.insert userID next)).answer (sess.view t) =
      (t.lookup (userID, next.revision)).isNone := by
    rw [hview]
    rfl
  rw [hans, insertSettings]
  cases hrow : t.lookup (userID, next.revision) with
  | some => exact returnsAlone_ret _
  | none =>
    refine returnsAlone_attempt (returnsAlone_conclude fun key => ?_)
    have hins : (sess.run t (meaning lockKey jsonb (.insert userID next))).view t =
        t.insert (userID, next.revision) (settingsRow jsonb next) := by
      rw [Session.view_run, hview]
      simp only [meaning, hrow, Option.isNone_none, if_true]
      rfl
    rw [Session.view_run, hins]
    exact lookup_deletes_staleKeys userID _ key

/-- **`Put` alone** is `putSettings`. -/
theorem put_alone (put : SettingsPut) (now : Time) (t : SettingsSyncTable) :
    Alone (meaning lockKey jsonb) (Settings.put jsonb put now) t (putSettings jsonb now put t) := by
  refine alone_inTransaction (returnsAlone_attempt (returnsAlone_attempt ?_))
  show ReturnsAlone _ (putOn jsonb 0 put now (currentSettings put.userID t)) _ t _
  rw [putOn, putSettings]
  split
  · exact returnsAlone_ret _
  · split
    · exact returnsAlone_conclude fun _ => rfl
    · split
      · exact returnsAlone_ret _
      · exact write_alone rfl

/-- **`Restore` alone** is `restoreSettings`. -/
theorem restore_alone (userID iid : String) (revision : Int) (now : Time) (t : SettingsSyncTable) :
    Alone (meaning lockKey jsonb) (restore userID iid revision now) t
      (restoreSettings jsonb now userID iid revision t) := by
  refine alone_inTransaction (returnsAlone_attempt (returnsAlone_attempt ?_))
  show ReturnsAlone _ (restoreFrom 0 userID iid now (settingsRevision userID revision t)) _ t _
  rw [restoreSettings]
  cases settingsRevision userID revision t with
  | none => exact returnsAlone_ret _
  | some => exact returnsAlone_attempt (write_alone rfl)

end Alone

end Settings

end Ferventio
