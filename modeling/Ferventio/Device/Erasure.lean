import Ferventio.Device.AccountRevocation

/-!
# An account revocation is complete

What `RevokeAccount` of both stores leaves of a user. The credentials go, with their sessions and
handoffs, and so should the pending logins and handoffs of the installations that the caller names
or that had one of these sessions. But the stores trim the names before they compare them with the
rows, and the rows have the names that the devices sent: a login at a name with white space around
it stays, and signs the account in again.

* **`account_revocation_complete_iff`**: when a revocation is complete.
* **`padded_installation_survives`**: a login that is not reached.
-/

namespace Ferventio

open Prog Strings List Memory

variable {x : Choice} {env : Env}

section Auth

variable {s : AuthDiskState} {uid : String} {named : List String}

instance (s : AuthDiskState) (userID credentialID : String) :
    Decidable (OfUser s userID credentialID) :=
  decidable_of_iff ((s.credentials.lookup credentialID).any (·.userID == userID) = true) <| by
    simp only [Option.any_eq_true, beq_iff_eq, OfUser]

/-- The installations that are named or have a session of the user's. -/
def Affected (uid : String) (named : List String) (s : AuthDiskState) (iid : String) :
    Prop :=
  iid ∈ named ∨ HasSession s uid iid

/-- Nothing of the user is left, nor a login at an affected installation; the answer counts the
rows. -/
structure Erased (uid : String) (named : List String) (s s' : AuthDiskState)
    (result : AccountRevocationResult) : Prop where
  credentials : ∀ {id cred}, s'.credentials.lookup id = some cred →
    cred.userID ≠ uid
  sessions : ∀ {key sess}, s'.sessions.lookup key = some sess →
    ¬OfUser s uid sess.credentialID
  handoffs : ∀ {key handoff}, s'.handoffs.lookup key = some handoff →
    ¬OfUser s uid handoff.credentialID ∧ ¬Affected uid named s handoff.installationID
  pending : ∀ {key r}, s'.pending.lookup key = some r →
    ¬Affected uid named s r.installationID
  removedSessions : result.removedSessions =
    s.sessions.rows.countP fun sess => OfUser s uid sess.credentialID
  removedCredentials : result.removedCredentials =
    s.credentials.rows.countP fun cred => cred.userID = uid

/-- The names that are compared: the trimmed ones, and those of the user's sessions, which
PostgreSQL trims. -/
def Reached (backend : Backend) (uid : String) (named : List String) (s : AuthDiskState)
    (iid : String) : Prop :=
  iid ∈ trimmedTargets named ∨
    match backend with
    | .memory => HasSession s uid iid
    | .postgres => iid ≠ "" ∧
        ∃ target, HasSession s uid target ∧ trimSpace target = iid

/-- The pending logins that are deleted, in the memory store also those at the user's handoffs. -/
def Cleared (backend : Backend) (uid : String) (named : List String) (s : AuthDiskState)
    (iid : String) : Prop :=
  Reached backend uid named s iid ∨ backend = .memory ∧ HasHandoff s uid iid

/-- **Every login at an affected installation is reached.** -/
structure Reaches (backend : Backend) (userID : String) (named : List String) (s : AuthDiskState) :
    Prop where
  handoffs : ∀ {key handoff}, s.handoffs.lookup key = some handoff →
    ¬OfUser s userID handoff.credentialID → Affected userID named s handoff.installationID →
      Reached backend userID named s handoff.installationID
  pending : ∀ {key record}, s.pending.lookup key = some record →
    Affected userID named s record.installationID →
      Cleared backend userID named s record.installationID

/-! ## The stores -/

theorem countP_doomed {credentialIDs : List String}
    (h : ∀ id, id ∈ credentialIDs ↔ OfUser s uid id) :
    (s.sessions.rows.filter (credentialIDs.contains ·.credentialID)).length =
      s.sessions.rows.countP fun sess => OfUser s uid sess.credentialID := by
  rw [countP_eq_length_filter]
  refine congrArg length (filter_congr fun sess _ => ?_)
  rw [Bool.eq_iff_iff, contains_iff_mem, decide_eq_true_iff]
  exact h sess.credentialID

theorem length_credentialIDsOf :
    (credentialIDsOf uid s).length = s.credentials.rows.countP fun cred => cred.userID = uid := by
  unfold credentialIDsOf Table.rows
  induction s.credentials.entries with
  | nil => rfl
  | cons entry entries ih =>
    by_cases huser : entry.2.userID = uid
    · simp [huser, ih]
    · simp [huser, ih]

/-- What a revocation does; `swept` are the handoffs of others that it deletes. -/
structure Revocation (backend : Backend) (uid : String) (named : List String)
    (swept : String → AuthHandoffRecord → Prop) (s s' : AuthDiskState)
    (result : AccountRevocationResult) : Prop where
  logins : Revoked uid swept s s'
  pending : ∀ {key r}, s'.pending.lookup key = some r ↔
    s.pending.lookup key = some r ∧ ¬Cleared backend uid named s r.installationID
  removedSessions : result.removedSessions =
    s.sessions.rows.countP fun sess => OfUser s uid sess.credentialID
  removedCredentials : result.removedCredentials =
    s.credentials.rows.countP fun cred => cred.userID = uid

theorem execAuth_memory (hb : env.backend = .memory) (x : Choice) :
    execAuth env x (.revokeAccount uid named) s = revokeAccount uid named s (x.visits s) := by
  rw [execAuth, hb]
  rfl

theorem execAuth_postgres (hb : env.backend = .postgres) (hfault : x.fault = none) :
    execAuth env x (.revokeAccount uid named) s = Postgres.revokeAccount uid named s := by
  rw [execAuth, hb]
  dsimp only [Postgres.execAuth]
  rw [withFault, hfault]
  rfl

section Stores

variable (huid : UserName uid)

include huid

theorem Memory.revokeAccount_revocation (visits : Visits s) :
    ∃ result, (revokeAccount uid named s visits).1 = .ok result ∧
      Revocation .memory uid named (Swept uid named s visits) s (revokeAccount uid named s visits).2
        result := by
  obtain ⟨-, hrevoked⟩ := revokeAccount_revoked huid named s visits
  rw [revokeAccount, huid.1] at hrevoked ⊢
  dsimp only at hrevoked ⊢
  rw [if_neg huid.2] at hrevoked ⊢
  refine ⟨_, rfl, hrevoked, fun {key r} => ?_, countP_doomed fun _ => mem_credentialIDsOf,
    length_credentialIDsOf⟩
  refine lookup_select_iff.trans (and_congr_right fun _ => ?_)
  rw [Bool.not_eq_true', ← Bool.not_eq_true, contains_iff_mem, mem_revokeHandoffs,
    mem_append, mem_sessionInstallations fun _ => mem_credentialIDsOf]
  refine not_congr (or_congr Iff.rfl ?_)
  rw [eq_self, true_and]
  constructor
  · rintro ⟨⟨key, handoff⟩, hmem, huser, hiid⟩
    exact ⟨key, handoff, visits.mem_handoffs.mp hmem, mem_credentialIDsOf.mp huser, hiid⟩
  · rintro ⟨key, handoff, hget, huser, hiid⟩
    exact ⟨⟨key, handoff⟩, visits.mem_handoffs.mpr hget, mem_credentialIDsOf.mpr huser, hiid⟩

theorem Postgres.revokeAccount_revocation :
    ∃ result, (revokeAccount uid named s).1 = .ok result ∧
      Revocation .postgres uid named
        (fun _ handoff => Reached .postgres uid named s handoff.installationID) s
        (revokeAccount uid named s).2 result := by
  obtain ⟨-, hrevoked⟩ := revokeAccount_revoked huid named s
  rw [revokeAccount, huid.1] at hrevoked ⊢
  dsimp only at hrevoked ⊢
  rw [if_neg huid.2] at hrevoked ⊢
  refine ⟨_, rfl, hrevoked, fun {key r} => ?_, countP_doomed fun _ => mem_credentialIDsOf,
    length_credentialIDsOf⟩
  refine lookup_select_iff.trans (and_congr_right fun _ => ?_)
  rw [Bool.not_eq_true', ← Bool.not_eq_true, contains_sweptInstallations]
  exact not_congr (or_iff_left fun h => Backend.noConfusion h.1).symm

variable (env : Env)

theorem execAuth_revocation (x : Choice) (hfault : x.fault = none) :
    ∃ result swept, (execAuth env x (.revokeAccount uid named) s).1 = .ok result ∧
      (∀ key handoff, Reached env.backend uid named s handoff.installationID →
        swept key handoff) ∧
      Revocation env.backend uid named swept s (execAuth env x (.revokeAccount uid named) s).2
        result := by
  cases hb : env.backend with
  | memory =>
    rw [execAuth_memory hb]
    obtain ⟨result, hok, hrevoke⟩ := revokeAccount_revocation huid (x.visits s)
    exact ⟨result, _, hok, fun _ _ h => or_assoc.mp (.inl h), hrevoke⟩
  | postgres =>
    rw [execAuth_postgres hb hfault]
    obtain ⟨result, hok, hrevoke⟩ := Postgres.revokeAccount_revocation huid
    exact ⟨result, _, hok, fun _ _ h => h, hrevoke⟩

/-- **A handoff of another user that is not reached may stay.** -/
theorem exists_handoff_kept {key : String} {handoff : AuthHandoffRecord}
    (hget : s.handoffs.lookup key = some handoff) (hother : ¬OfUser s uid handoff.credentialID)
    (hreach : ¬Reached env.backend uid named s handoff.installationID) :
    ∃ x result, (execAuth env x (.revokeAccount uid named) s).1 = .ok result ∧
      (execAuth env x (.revokeAccount uid named) s).2.handoffs.lookup key = some handoff := by
  refine ⟨{ visits := .first (· = handoff) }, ?_⟩
  cases hb : env.backend with
  | memory =>
    rw [hb] at hreach
    rw [execAuth_memory hb]
    obtain ⟨result, hok, hrevoke⟩ := revokeAccount_revocation huid (.first (· = handoff) s)
    refine ⟨result, hok, hrevoke.logins.handoffs.mpr ⟨hget, hother, ?_⟩⟩
    rintro (htarget | hsess | ⟨e, hearlier, huser, hiid⟩)
    · exact hreach (.inl htarget)
    · exact hreach (.inr hsess)
    · have hfirst := Visits.earlier_first hearlier (decide_eq_true rfl)
      rw [of_decide_eq_true hfirst] at huser
      exact hother huser
  | postgres =>
    rw [hb] at hreach
    rw [execAuth_postgres hb rfl]
    obtain ⟨result, hok, hrevoke⟩ := Postgres.revokeAccount_revocation huid
    exact ⟨result, hok, hrevoke.logins.handoffs.mpr ⟨hget, hother, hreach⟩⟩

end Stores

end Auth

theorem execAuth_fault_none {uid : String} {named : List String}
    {s : AuthDiskState} {result : AccountRevocationResult}
    (h : (execAuth env x (.revokeAccount uid named) s).1 = .ok result) :
    execAuth env x (.revokeAccount uid named) s =
      execAuth env { x with fault := none } (.revokeAccount uid named) s := by
  cases hb : env.backend with
  | memory => rw [execAuth_memory hb, execAuth_memory hb]
  | postgres =>
    -- a call whose answer is lost does not succeed
    have hfault : x.fault = none := by
      rw [execAuth, hb] at h
      dsimp only [Postgres.execAuth] at h
      rw [withFault] at h
      split at h
      · rename_i hnone
        exact hnone
      · cases h
      · cases h
    rw [execAuth_postgres hb hfault, execAuth_postgres hb rfl]

/-- **When account revocations are complete**: they leave nothing of the user and no login under way
at an affected installation, exactly when each such login is at a name that the store reaches. -/
theorem account_revocation_complete_iff (env : Env) (uid : String) (named : List String)
    (s : AuthDiskState) (htrim : trimSpace uid = uid) (hnamed : uid ≠ "") :
    (∀ x result, (execAuth env x (.revokeAccount uid named) s).1 = .ok result →
        Erased uid named s (execAuth env x (.revokeAccount uid named) s).2 result) ↔
      Reaches env.backend uid named s := by
  constructor
  · intro hall
    refine ⟨fun {key handoff} hget hother haffected => ?_, fun {key r} hget haffected => ?_⟩
    · by_contra hreach
      obtain ⟨x, result, hok, hkept⟩ := exists_handoff_kept ⟨htrim, hnamed⟩ env hget hother hreach
      exact ((hall x result hok).handoffs hkept).2 haffected
    · by_contra hcleared
      obtain ⟨result, swept, hok, -, hrevoke⟩ := execAuth_revocation ⟨htrim, hnamed⟩ env {} rfl
      exact (hall {} result hok).pending (hrevoke.pending.mpr ⟨hget, hcleared⟩) haffected
  · intro hreaches x result hok
    have hanswered := execAuth_fault_none hok
    rw [hanswered] at hok ⊢
    obtain ⟨result', swept, hok', hswept, hrevoke⟩ :=
      execAuth_revocation ⟨htrim, hnamed⟩ env { x with fault := none } rfl
    obtain rfl := Except.ok.inj (hok.symm.trans hok')
    refine ⟨fun hget => (hrevoke.logins.credentials.mp hget).2.1,
      fun hget => (hrevoke.logins.sessions.mp hget).2, fun {key handoff} hget => ?_,
      fun {key r} hget => ?_, hrevoke.removedSessions, hrevoke.removedCredentials⟩
    · obtain ⟨hbefore, hother, hkept⟩ := hrevoke.logins.handoffs.mp hget
      exact ⟨hother, fun haffected =>
        hkept (hswept key handoff (hreaches.handoffs hbefore hother haffected))⟩
    · obtain ⟨hbefore, hkept⟩ := hrevoke.pending.mp hget
      exact fun haffected => hkept (hreaches.pending hbefore haffected)

/-! ## Revocations that are written out -/

/-- A device that signed in, and then began another login. -/
def plainLogin : AuthDiskState where
  credentials := AList.insert "c" viewerCredential ∅
  sessions := AList.insert "token"
    { credentialID := "c", installationID := "phone", deviceHash := "d", createdAt := 0,
      expiresAt := 0 } ∅
  pending := AList.insert "state"
    { installationID := "phone", deviceHash := "d", appCallbackURI := "app", createdAt := 0,
      expiresAt := 0 } ∅

theorem plainLogin_reaches : Reaches .postgres "7" [] plainLogin := by
  refine ⟨fun h => ?_, fun {key r} h _ => .inl (.inr ?_)⟩
  · cases h
  · simp only [plainLogin, Table.lookup_insert_eq] at h
    split_ifs at h <;> cases h
    exact ⟨by decide, "phone", ⟨"token", _, rfl, ⟨_, rfl, rfl⟩, rfl⟩, by decide⟩

theorem plain_login_erased :
    let revoked := execAuth .pg {} (.revokeAccount "7" []) plainLogin
    revoked.1 = .ok ⟨1, 1⟩ ∧ Erased "7" [] plainLogin revoked.2 ⟨1, 1⟩ :=
  have hrevoked : (execAuth .pg {} (.revokeAccount "7" []) plainLogin).1 = .ok ⟨1, 1⟩ := by decide
  ⟨hrevoked, (account_revocation_complete_iff .pg "7" [] plainLogin (by decide)
    (by decide)).mpr plainLogin_reaches {} ⟨1, 1⟩ hrevoked⟩

/-- A device signs in under a padded name, and then begins another login. -/
def beginPadded (env : Env) : Handler Unit := do
  startMobileAuth env ⟨" phone", phoneSecret, "app:"⟩
  twitchOAuthCallback env "fs1_a" "" "code"
  completeMobileAuth env ⟨"fh1_a", "fs1_a", " phone", phoneSecret⟩
  startMobileAuth env ⟨" phone", phoneSecret, "app:"⟩

/-- The device goes on with that login. -/
def finishPadded (env : Env) : Handler Unit := do
  twitchOAuthCallback env "fs1_a" "" "code"
  completeMobileAuth env ⟨"fh1_a", "fs1_a", " phone", phoneSecret⟩

/-- The user has a session at `" phone"` when the account is revoked. The pending login there stays,
and ends with a session of the user. -/
theorem padded_installation_survives :
    ∃ tr w result tr' w', Runs (execStored .pg)
        (beginPadded .pg) {} tr () w ∧
      HasSession w.auth "7" " phone" ∧
      (execAuth .pg {} (.revokeAccount "7" []) w.auth).1 = .ok result ∧
      ((execAuth .pg {} (.revokeAccount "7" []) w.auth).2.pending.lookup
        "#fs1_a").map (·.installationID) = some " phone" ∧
      Runs (execStored .pg) (finishPadded .pg)
        { w with auth := (execAuth .pg {} (.revokeAccount "7" []) w.auth).2 } tr' ()
        w' ∧
      HasSession w'.auth "7" " phone" := by
  have heval : ((Prog.eval (execStored .pg) (beginPadded .pg)
      (replicate 27 loginChoice) {}).bind fun r =>
      let revoked := execAuth .pg {} (.revokeAccount "7" []) r.2.2.auth
      (Prog.eval (execStored .pg) (finishPadded .pg)
        (replicate 17 loginChoice) { r.2.2 with auth := revoked.2 }).map fun r' =>
      ((r.2.2.auth.sessions.lookup "#fsv1_a").map fun sess =>
          (sess.installationID, (r.2.2.auth.credentials.lookup sess.credentialID).map
            (·.userID)), revoked.1, (revoked.2.pending.lookup "#fs1_a").map (·.installationID),
        (r'.2.2.auth.sessions.lookup "#fsv1_a").map fun sess =>
          (sess.installationID, (r'.2.2.auth.credentials.lookup sess.credentialID).map
            (·.userID)))) =
      some (some (" phone", some "7"), .ok ⟨1, 1⟩, some " phone", some (" phone", some "7")) := rfl
  have hsession : ∀ {s : AuthDiskState}, ((s.sessions.lookup "#fsv1_a").map fun sess =>
      (sess.installationID, (s.credentials.lookup sess.credentialID).map (·.userID))) =
      some (" phone", some "7") → HasSession s "7" " phone" := by
    intro s h
    obtain ⟨sess, hget, h⟩ := Option.map_eq_some_iff.mp h
    obtain ⟨hinst, huser⟩ := Prod.mk.inj h
    obtain ⟨cred, hcred, huser⟩ := Option.map_eq_some_iff.mp huser
    exact ⟨"#fsv1_a", sess, hget, ⟨cred, hcred, huser⟩, hinst⟩
  obtain ⟨⟨tr, _, w⟩, hbegin, heval⟩ := Option.bind_eq_some_iff.mp heval
  obtain ⟨⟨tr', _, w'⟩, hfinish, heval⟩ := Option.map_eq_some_iff.mp heval
  simp only [Prod.mk.injEq] at heval
  obtain ⟨hbefore, hrevoked, hpend, hafter⟩ := heval
  exact ⟨tr, w, _, tr', w', eval_runs hbegin, hsession hbefore, hrevoked, hpend,
    eval_runs hfinish, hsession hafter⟩

end Ferventio
