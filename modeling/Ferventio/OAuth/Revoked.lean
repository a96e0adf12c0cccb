import Ferventio.Auth.Laws
import Ferventio.OAuth.Lease
import Ferventio.Server.Tasks

/-!
# Revoked credentials

A lease reads a credential, talks to Twitch, and writes the credential back whatever has become of
it in the meantime. A revocation in between is undone. The mutex of the lease does not help, for the
deleting calls do not take it. Where no call deletes a credential that another process is leasing
(`SparesLeased`), a deleted credential never exists again.
-/

namespace Ferventio

open Strings List System

variable {row : AuthHandoffRecord} {hist : List ServerEvent} {known : Option AuthCredential}
  {c : ServerConfiguration} {uid code : String} {w' s w : World} {env : Env} {x : Choice}
  {v : ServerView} {e : ServerEvent}

/-! ## What a lease writes -/

/-- The credential under lease: read, and its mutex not yet released. -/
def readCredential : Option AuthCredential → (call : Call) → call.Ans → Option AuthCredential
  | _, .auth (.getCredential _), .ok credential => some credential
  | _, .env (.unlock (.credential _)), _ => none
  | known, _, _ => known

/-- A process writes only what it has under lease, for the same user, and makes no other call of the
store. -/
def WritesRead : Option AuthCredential → Call → Prop
  | some read, .auth (.putCredential credential) =>
    credential.id = read.id ∧ credential.userID = read.userID
  | some _, .auth _ => False
  | none, .auth (.putCredential _) => False
  | _, _ => True

/-- The effects of a lease. -/
def leaseEffects : List Effect := [.readCredential, .writeCredential]

theorem writesRead_none {call : Call} (h : leaseEffects.contains call.effect = false) :
    WritesRead none call ∧ ∀ ans, readCredential none call ans = none := by
  refine ⟨?_, fun ans => ?_⟩
  · unfold WritesRead
    split
    · trivial
    · rename_i hknown
      cases hknown
    · cases h
    · trivial
  · unfold readCredential
    split
    · cases h
    · rfl
    · rfl

/-- The program writes only what it has under lease, and ends without one. -/
def FollowsRead {α : Type} (p : Handler α) : Prop :=
  Follows readCredential WritesRead (fun _ known => known = none) p none

namespace FollowsRead

variable {α β : Type}

theorem call {call : Call} {f : call.Ans → Handler β}
    (h : leaseEffects.contains call.effect = false) (hf : ∀ ans, FollowsRead (f ans)) :
    FollowsRead (Prog.perform call >>= f) := by
  obtain ⟨hwrites, hnext⟩ := writesRead_none h
  refine .perform_bind hwrites fun ans => ?_
  rw [hnext ans]
  exact hf ans

theorem ret (a : α) : FollowsRead (pure a : Handler α) := rfl

theorem last {call : Call} (h : leaseEffects.contains call.effect = false) :
    FollowsRead (Prog.perform call) :=
  ⟨(writesRead_none h).1, (writesRead_none h).2⟩

theorem bind {p : Handler α} {f : α → Handler β} (hp : FollowsRead p)
    (hf : ∀ a, FollowsRead (f a)) : FollowsRead (p >>= f) := by
  refine Follows.bind hp fun a known hknown => ?_
  rw [hknown]
  exact hf a

theorem within {effects : List Effect} {p : Handler α} (h : Within effects p)
    (heffs : effects.all (fun effect => !leaseEffects.contains effect) = true) :
    FollowsRead p := by
  refine follows_of_only h fun call hcall => writesRead_none ?_
  have hall := all_eq_true.mp heffs call.effect (contains_iff_mem.mp hcall)
  simpa only [Bool.not_eq_true_eq_eq_false] using hall

end FollowsRead

/-- The part of a lease under its mutex. -/
def FollowsLeased {α : Type} (p : Handler α) (known : Option AuthCredential) : Prop :=
  Follows readCredential WritesRead (fun _ _ => True) p known

theorem refreshCredential_followsRead (now : Time) (credential : AuthCredential) :
    FollowsLeased (refreshCredential env now credential) (some credential) := by
  refine .perform_bind trivial fun ans => ?_
  cases ans with
  | error => trivial
  | ok =>
    refine .perform_bind trivial fun ans => ?_
    cases ans with
    | error => trivial
    | ok =>
      dsimp only
      split_ifs
      · trivial
      · refine .perform_bind ⟨rfl, rfl⟩ fun ans => ?_
        cases ans <;> trivial

theorem leaseLocked_followsRead (credID : String) (force : Bool) :
    FollowsLeased (leaseLocked env credID force) none := by
  refine .perform_bind trivial fun ans => ?_
  cases ans with
  | error => trivial
  | ok credential =>
    refine .perform_bind trivial fun now => ?_
    split_ifs
    · exact refreshCredential_followsRead now credential
    · refine .perform_bind trivial fun ans => ?_
      cases ans with
      | error =>
        dsimp only
        split_ifs
        · exact refreshCredential_followsRead now credential
        · trivial
      | ok =>
        dsimp only
        split_ifs
        · trivial
        · refine .perform_bind ⟨rfl, rfl⟩ fun ans => ?_
          cases ans <;> trivial
    · trivial

theorem lease_followsRead (credID : String) (force : Bool) :
    FollowsRead (lease env credID force) := by
  refine .call rfl fun _ => ?_
  refine Follows.bind (leaseLocked_followsRead credID force) fun result known _ => ?_
  refine .perform_bind ?_ fun _ => rfl
  cases known <;> trivial

theorem leaseMobileToken_followsRead (device : DeviceCredentials) (force : Bool) :
    FollowsRead (leaseMobileToken env device force) := by
  unfold leaseMobileToken withAuthBroker
  split
  · dsimp only
    split
    · exact .last rfl
    · refine .call rfl fun ans => ?_
      cases ans with
      | error err => exact .within (writeAuthRecordError_within err) rfl
      | ok =>
        refine .bind (lease_followsRead _ force) fun ans => ?_
        cases ans with
        | error err => exact .within (writeOAuthLeaseError_within err) rfl
        | ok => exact .last rfl
  · exact .last rfl

theorem completeMobileAuth_followsRead (req : MobileAuthCompleteRequest) :
    FollowsRead (completeMobileAuth env req) := by
  unfold completeMobileAuth withAuthBroker
  split
  · split
    · exact .last rfl
    · refine .call rfl fun allowed => ?_
      split
      · exact .last rfl
      · refine .call rfl fun ans => ?_
        cases ans with
        | error err => exact .within (writeAuthRecordError_within err) rfl
        | ok =>
          refine .bind (lease_followsRead _ false) fun ans => ?_
          cases ans with
          | error err => exact .call rfl fun _ => .within (writeOAuthLeaseError_within err) rfl
          | ok =>
            refine .call rfl fun ans => ?_
            cases ans with
            | error =>
              refine .call rfl fun _ => ?_
              split_ifs <;> exact .last rfl
            | ok => exact .last rfl
  · exact .last rfl

theorem moderatedChannelIDs_followsRead (credID : String) :
    FollowsRead (moderatedChannelIDs env credID) := by
  refine .call rfl fun now => .call rfl fun cached => ?_
  cases cached with
  | some => rfl
  | none =>
    refine .bind (lease_followsRead credID false) fun ans => ?_
    cases ans with
    | error => rfl
    | ok =>
      refine .call rfl fun ans => ?_
      cases ans with
      | error => rfl
      | ok => exact .call rfl fun _ => rfl

theorem upsertRegistration_followsRead (iid : String) (reg : Registration) :
    FollowsRead (upsertRegistration env iid reg) := by
  have hsave : ∀ reg : Registration, FollowsRead (saveRegistration reg) := by
    intro reg
    refine .call rfl fun now => .call rfl fun ans => ?_
    cases ans with
    | error =>
      dsimp only
      split_ifs <;> exact .last rfl
    | ok => exact .call rfl fun _ => .last rfl
  unfold upsertRegistration
  split
  · exact .last rfl
  · dsimp only
    split
    · exact .last rfl
    · refine .call rfl fun allowed => ?_
      split
      · exact .last rfl
      · split
        · refine .call rfl fun ans => ?_
          cases ans with
          | error => exact .last rfl
          | ok =>
            refine .bind ?_ fun _ => hsave _
            refine .bind (moderatedChannelIDs_followsRead _) fun ans => ?_
            cases ans with
            | ok => rfl
            | error err =>
              refine .call rfl fun ans => ?_
              cases ans with
              | error => rfl
              | ok =>
                dsimp only
                split_ifs <;> rfl
        · exact hsave _

theorem code_followsRead (env : Env) (t : Task) : FollowsRead (t.code env) := by
  cases t with
  | upsertRegistration iid reg =>
    exact upsertRegistration_followsRead iid reg
  | completeMobileAuth req => exact completeMobileAuth_followsRead req
  | leaseMobileToken device force =>
    exact leaseMobileToken_followsRead device force
  | _ => exact .within (code_within env _) rfl

/-- The credential that a process has read. -/
def leased (hist : List ServerEvent) (pid : Nat) : Option AuthCredential :=
  track none (fun _ => readCredential) hist pid

theorem ensures_writesRead {may : ServerView → Task → Bool} {G : ServerCondition} :
    (server env may).Ensures (started w) G fun v e =>
      G v e ∧ WritesRead (leased v.hist e.pid) e.op := by
  have hcode : ∀ t, Follows readCredential WritesRead (fun _ known => known = none)
      ((server env may).code t) none := code_followsRead env
  exact ensures_follows hcode rfl rfl

/-! ## Identifiers -/

/-- The credentials stored at the start and issued since. -/
def issuedIDs (w : World) : List ServerEvent → List String
  | [] => w.auth.credentials.keys
  | e :: hist =>
    match e.op with
    | .auth (.putCredentialAndHandoff credential _ _) => credential.id :: issuedIDs w hist
    | _ => issuedIDs w hist

/-- The call issues no identifier again. -/
def freshCredential (w : World) (v : ServerView) (e : ServerEvent) : Bool :=
  match e.op with
  | .auth (.putCredentialAndHandoff credential _ _) => !(issuedIDs w v.hist).contains credential.id
  | _ => true

variable {credential : AuthCredential} {call : Call} {id : String}

theorem mem_issuedIDs_cons (h : id ∈ issuedIDs w hist) : id ∈ issuedIDs w (e :: hist) := by
  rw [issuedIDs]
  split
  · exact mem_cons_of_mem _ h
  · exact h

theorem mem_issuedIDs_issue (h : e.op = .auth (.putCredentialAndHandoff credential code row)) :
    credential.id ∈ issuedIDs w (e :: hist) := by
  rw [issuedIDs, h]
  exact mem_cons_self

theorem not_mem_of_freshCredential (h : freshCredential w v e)
    (hop : e.op = .auth (.putCredentialAndHandoff credential code row)) :
    credential.id ∉ issuedIDs w v.hist := by
  unfold freshCredential at h
  rw [hop] at h
  simpa using h

/-! ## Deletions -/

/-- Fresh identifiers, and nothing is deleted that another process has under lease. -/
def SparesLeased (w : World) : ServerRule := fun v e _ s =>
  freshCredential w v e ∧ ∀ pid credential, pid ≠ e.pid →
    leased v.hist pid = some credential → v.state.auth.credentials.lookup credential.id ≠ none →
    s.auth.credentials.lookup credential.id ≠ none

theorem exec_credential {a : call.Ans} (h : exec env call x w = some (a, w'))
    (hc : w'.auth.credentials.lookup id = some credential) :
    w.auth.credentials.lookup id = some credential ∨
      id = credential.id ∧ (call = .auth (.putCredential credential) ∨
        ∃ code row, call = .auth (.putCredentialAndHandoff credential code row)) := by
  rw [exec_auth h] at hc
  cases call with
  | auth =>
    rcases execAuth_credential hc with hc | ⟨hid, rfl | ⟨code, row, rfl⟩⟩
    · exact .inl hc
    · exact .inr ⟨hid, .inl rfl⟩
    · exact .inr ⟨hid, .inr ⟨code, row, rfl⟩⟩
  | _ => exact .inl hc

theorem execAuth_putCredential_keeps {s : AuthDiskState} (hid : s.credentials.lookup id ≠ none) :
    (execAuth env x (.putCredential credential) s).2.credentials.lookup id ≠ none := by
  have hins : (s.credentials.insert credential.id credential).lookup id ≠ none := by
    rw [Table.lookup_insert_eq]
    split_ifs
    · exact Option.some_ne_none _
    · exact hid
  exact execAuth_state (P := fun s' => s'.credentials.lookup id ≠ none) hid (fun _ => hins)
    fun _ => hins

theorem WritesRead.keeps {read : AuthCredential} {a : call.Ans}
    (h : WritesRead (some read) call) (hexec : exec env call x w = some (a, w'))
    (hid : w.auth.credentials.lookup id ≠ none) : w'.auth.credentials.lookup id ≠ none := by
  rw [exec_auth hexec]
  cases call with
  | auth call =>
    cases call with
    | putCredential => exact execAuth_putCredential_keeps hid
    | _ => cases h
  | _ => exact hid

theorem WritesRead.put (h : WritesRead known (.auth (.putCredential credential))) :
    ∃ read, known = some read ∧ credential.id = read.id ∧ credential.userID = read.userID := by
  cases known with
  | none => cases h
  | some read => exact ⟨read, rfl, h⟩

/-! ## The invariant -/

/-- Credentials have their own keys. -/
def CredentialsKeyed (w : World) : Prop :=
  ∀ id credential, w.auth.credentials.lookup id = some credential → credential.id = id

/-- **What a process has under lease is stored**, for the same user. -/
structure Traced (w : World) (v : ServerView) : Prop where
  keyed : CredentialsKeyed v.state
  issued : ∀ {id c}, v.state.auth.credentials.lookup id = some c → id ∈ issuedIDs w v.hist
  leased : ∀ {pid c}, leased v.hist pid = some c →
    ∃ c', v.state.auth.credentials.lookup c.id = some c' ∧ c'.userID = c.userID

theorem exec_readCredential {a : call.Ans}
    (h : exec env call x w = some (a, w')) (hread : readCredential known call a = some credential) :
    known = some credential ∨
      ∃ id, call = .auth (.getCredential id) ∧ w'.auth.credentials.lookup id = some credential := by
  unfold readCredential at hread
  split at hread
  · rename_i id read
    cases hread
    refine .inr ⟨id, rfl, ?_⟩
    obtain ⟨hans, rfl⟩ := Prod.mk.inj (Option.some.inj h)
    exact execAuth_getCredential_state ▸ execAuth_getCredential hans
  · cases hread
  · exact .inl hread

namespace Traced

variable {w : World}

theorem sameUser (hv : Traced w v) (hexec : exec env e.op x v.state = some (e.ans, s))
    (hfresh : freshCredential w v e) (hwrites : WritesRead (Ferventio.leased v.hist e.pid) e.op)
    {c c' : AuthCredential} (hc : v.state.auth.credentials.lookup id = some c)
    (hc' : s.auth.credentials.lookup id = some c') : c'.userID = c.userID := by
  rcases exec_credential hexec hc' with hold | ⟨rfl, hput | ⟨code, row, hissue⟩⟩
  · rw [Option.some.inj (hold.symm.trans hc)]
  · rw [hput] at hwrites
    obtain ⟨read, hread, hid, huser⟩ := hwrites.put
    obtain ⟨c0, hc0, huser0⟩ := hv.leased hread
    rw [← hid, hc] at hc0
    cases hc0
    rw [huser, huser0]
  · exact absurd (hv.issued hc) (not_mem_of_freshCredential hfresh hissue)

theorem gone (hv : Traced w v) (hexec : exec env e.op x v.state = some (e.ans, s))
    (hfresh : freshCredential w v e) (hwrites : WritesRead (Ferventio.leased v.hist e.pid) e.op)
    (hiss : id ∈ issuedIDs w v.hist) (hnone : v.state.auth.credentials.lookup id = none) :
    s.auth.credentials.lookup id = none := by
  refine Option.eq_none_iff_forall_ne_some.mpr fun c hc => ?_
  rcases exec_credential hexec hc with hold | ⟨rfl, hput | ⟨code, row, hissue⟩⟩
  · rw [hnone] at hold
    cases hold
  · rw [hput] at hwrites
    obtain ⟨read, hread, hid, -⟩ := hwrites.put
    obtain ⟨c0, hc0, -⟩ := hv.leased hread
    rw [← hid, hnone] at hc0
    cases hc0
  · exact not_mem_of_freshCredential hfresh hissue hiss

theorem after (hv : Traced w v) (hexec : exec env e.op x v.state = some (e.ans, s))
    (hspares : SparesLeased w v e x s) (hwrites : WritesRead (Ferventio.leased v.hist e.pid) e.op) :
    Traced w (v.after e s) where
  keyed := by
    intro id c hc
    rcases exec_credential hexec hc with hold | ⟨rfl, -⟩
    · exact hv.keyed id c hold
    · rfl
  issued := by
    intro id c hc
    rw [View.after_hist]
    rcases exec_credential hexec hc with hold | ⟨rfl, hput | ⟨code, row, hissue⟩⟩
    · exact mem_issuedIDs_cons (hv.issued hold)
    · rw [hput] at hwrites
      obtain ⟨read, hread, hid, -⟩ := hwrites.put
      obtain ⟨c0, hc0, -⟩ := hv.leased hread
      rw [hid]
      exact mem_issuedIDs_cons (hv.issued hc0)
    · exact mem_issuedIDs_issue hissue
  leased := by
    intro pid c hc
    -- a lease that was there before keeps its credential, whoever makes the call
    have hkept : Ferventio.leased v.hist pid = some c →
        ∃ c', s.auth.credentials.lookup c.id = some c' ∧ c'.userID = c.userID := by
      intro hlease
      obtain ⟨c0, hc0, huser⟩ := hv.leased hlease
      have hbefore : v.state.auth.credentials.lookup c.id ≠ none := by
        rw [hc0]
        exact Option.some_ne_none _
      have hstored : s.auth.credentials.lookup c.id ≠ none := by
        by_cases hpid : pid = e.pid
        · rw [← hpid, hlease] at hwrites
          exact hwrites.keeps hexec hbefore
        · exact hspares.2 pid c hpid hlease hbefore
      obtain ⟨c', hc'⟩ := Option.ne_none_iff_exists'.mp hstored
      exact ⟨c', hc', (hv.sameUser hexec hspares.1 hwrites hc0 hc').trans huser⟩
    rw [View.after_hist] at hc
    by_cases hpid : e.pid = pid
    · subst hpid
      rw [Ferventio.leased, track_self] at hc
      rcases exec_readCredential hexec hc with hlease | ⟨id, hop, hstored⟩
      · exact hkept hlease
      · rcases exec_credential hexec hstored with hold | ⟨-, hput | ⟨code, row, hissue⟩⟩
        · have hid := hv.keyed id c hold
          exact ⟨c, hid ▸ hstored, rfl⟩
        · rw [hop] at hput
          cases hput
        · rw [hop] at hissue
          cases hissue
    · rw [Ferventio.leased, track_other hpid] at hc
      exact hkept hc

end Traced

/-! ## After a revocation -/

/-- The user whose account was revoked. -/
def revokedUser : ServerEvent → Option String
  | ⟨_, _, .auth (.revokeAccount userID _), .ok _⟩ => some (trimSpace userID)
  | _ => none

/-- A credential of the user is issued. -/
def issuesFor (userID : String) : Call → Bool
  | .auth (.putCredentialAndHandoff credential _ _) => credential.userID == userID
  | _ => false

/-- The user has no credential. -/
def NoCredentialOf (uid : String) (w : World) : Prop :=
  ∀ id credential, w.auth.credentials.lookup id = some credential → credential.userID ≠ uid

theorem exec_revokedUser (hexec : exec env e.op x w = some (e.ans, s))
    (h : revokedUser e = some uid) : NoCredentialOf uid s := by
  unfold revokedUser at h
  split at h
  · cases h
    intro id credential hc
    obtain ⟨hans, rfl⟩ := Prod.mk.inj (Option.some.inj hexec)
    exact execAuth_revokeAccount hans hc
  · cases h

theorem Traced.noCredentialOf (hv : Traced w v) (hexec : exec env e.op x v.state = some (e.ans, s))
    (hwrites : WritesRead (Ferventio.leased v.hist e.pid) e.op)
    (hissues : issuesFor uid e.op = false) (hnone : NoCredentialOf uid v.state) :
    NoCredentialOf uid s := by
  intro id c hc
  rcases exec_credential hexec hc with hold | ⟨rfl, hput | ⟨code, row, hissue⟩⟩
  · exact hnone id c hold
  · rw [hput] at hwrites
    obtain ⟨read, hread, -, huser⟩ := hwrites.put
    obtain ⟨c0, hc0, huser0⟩ := hv.leased hread
    rw [huser, ← huser0]
    exact hnone read.id c0 hc0
  · rw [hissue] at hissues
    simpa [issuesFor] using hissues

theorem traced_start (hw : CredentialsKeyed w) : Traced w (started w).toView := by
  refine ⟨hw, fun {id c} hc => ?_, fun {pid c} hc => ?_⟩
  · exact AList.mem_keys.mp (AList.lookup_isSome.mp (Option.isSome_of_eq_some hc))
  · cases hc

section Runs

variable {may : ServerView → Task → Bool}

theorem leases_of_steps {c' : ServerConfiguration}
    (h0 : (server env may).StepsUnder (SparesLeased w) (started w) c)
    (h : (server env may).StepsUnder (SparesLeased w) c c') :
    (server env may).StepsUnder
      (fun v e x s => SparesLeased w v e x s ∧ True ∧ WritesRead (leased v.hist e.pid) e.op) c c' :=
  ensures_writesRead.under (fun _ _ _ _ _ => trivial) h0 h

theorem traced_of_steps (hw : CredentialsKeyed w)
    (h : (server env may).StepsUnder (SparesLeased w) (started w) c) : Traced w c.toView :=
  (leases_of_steps .refl h).view_invariant
    (fun _ _ _ _ hv hexec hR => hv.after hexec hR.1 hR.2.2) (traced_start hw)

/-- **Deletion is final**, where no call deletes a credential that another process is leasing: a
deleted credential is never stored again, nor is one of a revoked account until its user signs in
anew. -/
theorem deleted_credential_stays_deleted {c1 c2 c3 : ServerConfiguration}
    (hw : CredentialsKeyed w) (h1 : (server env may).StepsUnder (SparesLeased w) (started w) c1)
    (h2 : (server env may).StepsUnder (SparesLeased w) c1 c2)
    (h3 : (server env may).StepsUnder (SparesLeased w) c2 c3) :
    (∀ id, c1.state.auth.credentials.lookup id ≠ none →
        c2.state.auth.credentials.lookup id = none →
        c3.state.auth.credentials.lookup id = none) ∧
      ∀ e hist uid, c2.hist = e :: hist → revokedUser e = some uid →
        Since c2.hist c3.hist (fun _ e => issuesFor uid e.op = false) →
        NoCredentialOf uid c3.state := by
  have h12 : (server env may).StepsUnder (SparesLeased w) (started w) c2 := h1.trans h2
  have htraced := traced_of_steps hw h12
  have hsteps := leases_of_steps h12 h3
  refine ⟨fun id hid hnone => ?_, fun e hist uid hhist hrevoked hsince => ?_⟩
  · -- the identifier was issued, so it is not issued again
    have hiss : id ∈ issuedIDs w c2.hist := by
      refine h2.view_invariant (I := fun v => id ∈ issuedIDs w v.hist) ?_ ?_
      · exact fun v e x s hv _ _ => mem_issuedIDs_cons hv
      · obtain ⟨c, hc⟩ := Option.ne_none_iff_exists'.mp hid
        exact (traced_of_steps hw h1).issued hc
    refine (hsteps.view_invariant (I := fun v => Traced w v ∧ id ∈ issuedIDs w v.hist ∧
      v.state.auth.credentials.lookup id = none) ?_ ⟨htraced, hiss, hnone⟩).2.2
    rintro v e x s ⟨hv, hmem, hnone⟩ hexec ⟨hspares, -, hwrites⟩
    exact ⟨hv.after hexec hspares hwrites, mem_issuedIDs_cons hmem,
      hv.gone hexec hspares.1 hwrites hmem hnone⟩
  · have hc2 : NoCredentialOf uid c2.state := by
      refine h12.view_invariant (I := fun v => ∀ e hist uid, v.hist = e :: hist →
        revokedUser e = some uid → NoCredentialOf uid v.state) ?_ ?_ e hist uid hhist
        hrevoked
      · intro v e x s _ hexec _ e' hist uid hhist hrevoked
        cases hhist
        exact exec_revokedUser hexec hrevoked
      · intro e hist uid hhist
        cases hhist
    refine (hsteps.invariant_since (I := fun v => Traced w v ∧ NoCredentialOf uid v.state) ?_
      ⟨htraced, hc2⟩ hsince).2
    rintro v e x s ⟨hv, hnone⟩ hexec ⟨hspares, -, hwrites⟩ hissues
    exact ⟨hv.after hexec hspares hwrites, hv.noCredentialOf hexec hwrites hissues hnone⟩

end Runs

/-! ## Runs that are written out -/

/-- The phone has a session. -/
def phoneSignedIn : World :=
  { signedIn with
    auth :=
      { credentials := AList.insert "fc1_a" viewerCredential ∅
        sessions := AList.insert "#s"
          { credentialID := "fc1_a", installationID := "phone", deviceHash := "#" ++ phoneSecret
            createdAt := 0, expiresAt := 24 * hour } ∅ } }

/-- The phone. -/
def phoneDevice : DeviceCredentials :=
  { token := "s", installationID := "phone", deviceSecret := phoneSecret }

theorem phoneSignedIn_keyed : CredentialsKeyed phoneSignedIn := by
  intro id credential hc
  simp only [phoneSignedIn, Table.lookup_insert_eq] at hc
  split_ifs at hc with hid
  · cases hc
    exact hid.symm
  · cases hc

/-- Fresh identifiers, and no other process has a lease. -/
def leasesAlone (w : World) (v : ServerView) (e : ServerEvent) : Bool :=
  freshCredential w v e && v.hist.all fun e' => e'.pid == e.pid || (leased v.hist e'.pid).isNone

theorem sparesLeased_of_leasesAlone (h : leasesAlone w v e) : SparesLeased w v e x s := by
  simp only [leasesAlone, Bool.and_eq_true, all_eq_true, Bool.or_eq_true, beq_iff_eq,
    Option.isNone_iff_eq_none] at h
  refine ⟨h.1, fun pid credential hpid hlease => ?_⟩
  have hcall : ∀ e' ∈ v.hist, e'.pid ≠ pid := by
    rintro e' he' rfl
    rcases h.2 e' he' with heq | hnone
    · exact absurd heq hpid
    · rw [hlease] at hnone
      cases hnone
  have hnone : leased v.hist pid = none := track_of_no_call hcall
  rw [hlease] at hnone
  cases hnone

/-- A lease up to its write. -/
def leaseUntilPut (pid : Nat) : List (Move Task Choice) :=
  start (.leaseMobileToken phoneDevice true) ++ calls pid 4 {} ++ calls pid 1 newToken ++
    calls pid 1 validToken

/-- What the newest call revoked, and the phone's user. -/
def revokedAndStored (c : ServerConfiguration) : Option String × Option String :=
  (c.hist.head?.bind revokedUser, (c.state.auth.credentials.lookup "fc1_a").map (·.userID))

/-- A lease, the revocation of the account, and another lease. -/
theorem revoked_credential_stays_deleted :
    CredentialsKeyed phoneSignedIn ∧ ∀ backend : Backend, ∃ c2 c3,
    (anyServer backend).StepsUnder (SparesLeased phoneSignedIn)
        (started phoneSignedIn) c2 ∧
      (anyServer backend).StepsUnder (SparesLeased phoneSignedIn) c2 c3 ∧
      c2.hist.length = 18 ∧ c3.hist.length = 20 ∧
      c3.state.auth.credentials.lookup "fc1_a" = none ∧ NoCredentialOf "7" c3.state := by
  refine ⟨phoneSignedIn_keyed, fun backend => ?_⟩
  have hplay : (((anyServer backend).play (leasesAlone phoneSignedIn)
      (leaseUntilPut 0 ++ calls 0 3 {} ++ start (.revokeAllMobileSessions phoneDevice) ++
        calls 1 9 {}) (started phoneSignedIn)).bind fun c2 =>
      ((anyServer backend).play (leasesAlone phoneSignedIn)
        (start (.leaseMobileToken phoneDevice true) ++ calls 2 2 {}) c2).map fun c3 =>
          (revokedAndStored c2, c2.hist.length, c3.hist.length,
            c3.hist.all fun e => !issuesFor "7" e.op)) =
      some ((some "7", none), 18, 20, true) := by
    cases backend <;> decide
  obtain ⟨c2, c3, h2, h3, hres⟩ := play_play hplay
  simp only [revokedAndStored, Prod.mk.injEq, Option.bind_eq_some_iff, Option.map_eq_none_iff,
    all_eq_true] at hres
  obtain ⟨⟨⟨e, hhead, hrevoked⟩, hnone⟩, hlen2, hlen3, hall⟩ := hres
  obtain ⟨hist, hhist⟩ := List.head?_eq_some_iff.mp hhead
  have hspares : ∀ (v : ServerView) (e : ServerEvent) (x : Choice) (s : World),
      exec (.sample backend) e.op x v.state = some (e.ans, s) →
        leasesAlone phoneSignedIn v e → SparesLeased phoneSignedIn v e x s :=
    fun _ _ _ _ _ h => sparesLeased_of_leasesAlone h
  have h2 := StepsUnder.mono hspares h2
  have h3 := StepsUnder.mono hspares h3
  obtain ⟨hdel, haccount⟩ := deleted_credential_stays_deleted phoneSignedIn_keyed .refl h2 h3
  refine ⟨c2, c3, h2, h3, hlen2, hlen3, hdel "fc1_a" (by decide) hnone, ?_⟩
  refine haccount e hist "7" hhist hrevoked fun new e old hc3 _ => ?_
  simpa using hall e (by rw [hc3]; exact mem_append_right _ mem_cons_self)

/-- The account is revoked while a lease has refreshed its credential, which is then stored
again. -/
theorem lease_restores_revoked_credential :
    CredentialsKeyed phoneSignedIn ∧ ∀ backend : Backend, ∃ c2 c3 e hist,
    (anyServer backend).Steps
        (fun v e => freshCredential phoneSignedIn v e = true) (started phoneSignedIn) c2 ∧
      (anyServer backend).Steps
        (fun v e => freshCredential phoneSignedIn v e = true) c2 c3 ∧
      phoneSignedIn.auth.credentials.lookup "fc1_a" ≠ none ∧
      c2.hist = e :: hist ∧ revokedUser e = some "7" ∧
      c2.state.auth.credentials.lookup "fc1_a" = none ∧
      (c3.state.auth.credentials.lookup "fc1_a").map (·.userID) = some "7" ∧
      ∀ e ∈ c3.hist, issuesFor "7" e.op = false := by
  refine ⟨phoneSignedIn_keyed, fun backend => ?_⟩
  have hplay : (((anyServer backend).play (freshCredential phoneSignedIn)
      (start (.revokeAllMobileSessions phoneDevice) ++ calls 0 8 {} ++ leaseUntilPut 1 ++
        calls 0 1 {}) (started phoneSignedIn)).bind fun c2 =>
      ((anyServer backend).play (freshCredential phoneSignedIn)
        (calls 1 1 {}) c2).map fun c3 => (revokedAndStored c2, (revokedAndStored c3).2,
          c3.hist.all fun e => !issuesFor "7" e.op)) =
      some ((some "7", none), some "7", true) := by
    cases backend <;> decide
  obtain ⟨c2, c3, h2, h3, hres⟩ := play_play hplay
  simp only [revokedAndStored, Prod.mk.injEq, Option.bind_eq_some_iff, Option.map_eq_none_iff,
    all_eq_true] at hres
  obtain ⟨⟨⟨e, hhead, hrevoked⟩, hnone⟩, huser, hall⟩ := hres
  obtain ⟨hist, hhist⟩ := List.head?_eq_some_iff.mp hhead
  refine ⟨c2, c3, e, hist, h2, h3, by decide, hhist, hrevoked, hnone, huser, fun e he => ?_⟩
  simpa using hall e he

end Ferventio
