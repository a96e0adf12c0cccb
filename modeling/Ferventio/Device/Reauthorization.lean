import Ferventio.Auth.LiveSession
import Ferventio.Device.SelfRevocation

/-!
# Signing in again

A signed-in device may sign in again, and `completeMobileAuth` may fail on the way. The session that
the device has stays as it is. The in-memory store deletes it before it looks whether there is
room for a new one; but a store that has kept to its maximum then has room.

* **`failed_reauthorization_keeps_session`**: a failed request leaves session and credential.
-/

namespace Ferventio

open Prog Strings List

variable {call : AuthCall} {req : MobileAuthCompleteRequest} {id key : String} {env : Env}
  {x : Choice} {s : AuthDiskState} {w w' : World} {sess : AuthSessionRecord}

/-- Credentials have their own keys. -/
def KeyedByID (s : AuthDiskState) : Prop :=
  s.credentials.Forall fun id cred => cred.id = id

theorem execAuth_keyedByID (h : KeyedByID s) : KeyedByID (execAuth env x call s).2 := by
  intro id cred hcred
  rcases execAuth_credential hcred with hold | ⟨hid, -⟩
  · exact h id cred hold
  · exact hid.symm

theorem AuthReached.keyedByID {may : AuthCall → Prop} (h : AuthReached env may s) :
    KeyedByID s := by
  induction h with
  | start => exact .empty
  | call x _ _ ih => exact execAuth_keyedByID ih
  | reorder _ hsame ih => exact hsame.credentials.forall ih

/-! ## A refused session -/

/-- The errors of `CreateSession` that are no failures. -/
def sessionRefusals : List GoError := [.authNotFound, .authDeviceMismatch, .authCapacity]

section CreateSession

variable {H : String → String} {now : Time} {random : Option String}
  {credID secret : String} {ttl : Duration} {err : GoError}
  (h : s.sessions.lookup key = some sess)
include h

theorem Memory.createSession_refused_keepsSession (hroom : s.sessions.count ≤ maxAuthSessions)
    (herr : (Memory.createSession H now random credID sess.installationID
      secret ttl s).1 = .error err) (hrefused : err ∈ sessionRefusals) :
    KeepsSession key sess s (Memory.createSession H now random credID
      sess.installationID secret ttl s).2 := by
  simp only [createSession] at herr ⊢
  split_ifs at herr ⊢ with _ _ hfull
  · exact .refl h
  · exact .refl h
  · -- the device's own sess makes room
    have hfewer := Table.count_select_lt (p := fun _ existing => !(now > existing.expiresAt ||
      existing.installationID == sess.installationID)) h (by simp)
    omega
  · split at herr
    · cases herr
      simp [sessionRefusals, randomTokenError] at hrefused
    · cases herr

theorem Postgres.createSession_refused_keepsSession
    (herr : (Postgres.createSession H now random credID sess.installationID
      secret ttl s).1 = .error err) :
    KeepsSession key sess s (Postgres.createSession H now random credID
      sess.installationID secret ttl s).2 := by
  simp only [createSession] at herr ⊢
  split_ifs at herr ⊢
  · exact .refl h
  · exact .refl h
  · exact .refl h
  · split at herr
    · exact .refl h
    · split_ifs at herr ⊢
      exact .refl h

/-- **A refused session leaves the one that the device has.** -/
theorem createSession_refused_keepsSession (hsound : SessionsSound s)
    (herr : (execAuth env x (.createSession credID sess.installationID secret ttl)
      s).1 = .error err) (hrefused : err ∈ sessionRefusals) :
    KeepsSession key sess s
      (execAuth env x (.createSession credID sess.installationID secret ttl) s).2 := by
  have hanswered : (execAuth env x (.createSession credID sess.installationID secret
      ttl) s).1 ≠ Postgres.failedAuth (.createSession credID sess.installationID secret ttl) := by
    rw [herr]
    intro heq
    cases heq
    simp [sessionRefusals, Postgres.databaseError, Postgres.fmtDatabase] at hrefused
  rcases execAuth_answered hanswered with heq | heq
  · rw [heq] at herr ⊢
    exact Memory.createSession_refused_keepsSession h hsound.indexed.bounded herr hrefused
  · rw [heq] at herr ⊢
    exact Postgres.createSession_refused_keepsSession h herr

end CreateSession

/-! ## The request -/

/-- The device has its session, and its credential satisfies `R`. -/
structure Standing (key : String) (sess : AuthSessionRecord)
    (R : Option AuthCredential → Prop) (s : AuthDiskState) : Prop where
  sound : SessionsSound s
  keyed : KeyedByID s
  kept : s.sessions.lookup key = some sess
  credential : R (s.credentials.lookup sess.credentialID)

section Standing

variable {R : Option AuthCredential → Prop}

section Standing

variable (h : Standing key sess R s)

include h

theorem Standing.keeps (hkeeps : KeepsSession key sess s (execAuth env x call s).2) :
    Standing key sess R (execAuth env x call s).2 := by
  refine ⟨execAuth_sessionsSound h.sound, execAuth_keyedByID h.keyed, hkeeps.kept, ?_⟩
  rw [hkeeps.credential]
  exact h.credential

theorem Standing.getCredential : Standing key sess R (execAuth env x (.getCredential id) s).2 := by
  rw [execAuth_getCredential_state]
  exact h

theorem Standing.consumeHandoff {code iid secret state : String} :
    Standing key sess R (execAuth env x (.consumeHandoff code iid secret state) s).2 := by
  have hmemory : KeepsSession key sess s (Memory.consumeHandoff env.hashSecret x.now code
      iid secret state s).2 := by
    simp only [Memory.consumeHandoff]
    split
    · exact .refl h.kept
    · split_ifs <;> exact ⟨h.kept, rfl⟩
  exact h.keeps (execAuth_state (.refl h.kept) (fun _ => hmemory) fun _ => hmemory)

theorem Standing.deleteCredentialIfUnused :
    Standing key sess R (execAuth env x (.deleteCredentialIfUnused id) s).2 :=
  h.keeps (execAuth_state (.refl h.kept) (fun _ => (KeepsSession.refl h.kept).drop id)
    fun _ => (KeepsSession.refl h.kept).drop id)

theorem Standing.putCredential {cred : AuthCredential}
    (hR : cred.id = sess.credentialID → R (some cred)) :
    Standing key sess R (execAuth env x (.putCredential cred) s).2 := by
  by_cases hid : cred.id = sess.credentialID
  · refine ⟨execAuth_sessionsSound h.sound, execAuth_keyedByID h.keyed, ?_, ?_⟩
    · exact execAuth_state (P := fun s' => s'.sessions.lookup key = some sess) h.kept
        (fun _ => h.kept) fun _ => h.kept
    · have hput : R ((s.credentials.insert cred.id cred).lookup sess.credentialID) := by
        rw [Table.lookup_insert_eq, if_pos hid.symm]
        exact hR hid
      exact execAuth_state (P := fun s' => R (s'.credentials.lookup sess.credentialID))
        h.credential (fun _ => hput) fun _ => hput
  · exact h.keeps (execAuth_state (.refl h.kept) (fun _ => keepsSession_put h.kept hid)
      fun _ => keepsSession_put h.kept hid)

end Standing

/-- A lease writes only the credential that it was asked for. -/
def LeaseCall (cid : String) : Call → Prop
  | .auth (.getCredential id) => id = cid
  | .auth (.putCredential cred) => cred.id = cid
  | .auth _ => False
  | _ => True

/-- A credential is read under its own key. -/
def KeyedAnswer : (call : Call) → call.Ans → Prop
  | .auth (.getCredential id), .ok cred => cred.id = id
  | _, _ => True

theorem refreshCredential_only (env : Env) (now : Time) (cred : AuthCredential) :
    (refreshCredential env now cred).Only (LeaseCall cred.id) KeyedAnswer := by
  refine .perform_bind trivial fun ans _ => ?_
  cases ans with
  | error => trivial
  | ok =>
    refine .perform_bind trivial fun ans _ => ?_
    cases ans with
    | error => trivial
    | ok =>
      dsimp only
      split_ifs
      · trivial
      · refine .perform_bind rfl fun ans _ => ?_
        cases ans <;> trivial

theorem lease_only (env : Env) (credID : String) (force : Bool) :
    (lease env credID force).Only (LeaseCall credID) KeyedAnswer := by
  refine .perform_bind trivial fun _ _ => .bind (.perform_bind rfl fun ans hans => ?_)
    fun _ => .perform_bind trivial fun _ _ => trivial
  cases ans with
  | error => trivial
  | ok cred =>
    obtain rfl : cred.id = credID := hans
    refine .perform_bind trivial fun now _ => ?_
    split_ifs
    · exact refreshCredential_only env now cred
    · refine .perform_bind trivial fun ans _ => ?_
      cases ans with
      | error =>
        dsimp only
        split_ifs
        · exact refreshCredential_only env now cred
        · trivial
      | ok =>
        dsimp only
        split_ifs
        · trivial
        · refine .perform_bind rfl fun ans _ => ?_
          cases ans <;> trivial
    · trivial

variable {tr : Trace}

theorem Standing.lease {credID : String} {force : Bool} {ans : Result AuthCredential}
    (h : Standing key sess R w.auth) (hR : credID = sess.credentialID → ∀ cred, R (some cred))
    (hrun : Runs (exec env) (lease env credID force) w tr ans w') :
    Standing key sess R w'.auth := by
  refine (hrun.only (I := fun w => Standing key sess R w.auth) (lease_only env credID force) ?_ h).2
  intro call x w b w' hw hcall hexec
  have hauth := exec_auth hexec
  cases call with
  | auth call =>
    have hb : b = (execAuth env x call w.auth).1 := (congrArg Prod.fst (Option.some.inj hexec)).symm
    cases call with
    | getCredential id =>
      rw [hauth]
      refine ⟨?_, hw.getCredential⟩
      cases b with
      | error => trivial
      | ok cred => exact hw.keyed id cred (execAuth_getCredential hb.symm)
    | putCredential cred =>
      rw [hauth]
      refine ⟨trivial, hw.putCredential fun hid => hR ?_ cred⟩
      exact Eq.trans (Eq.symm hcall) hid
    | _ => exact absurd hcall id
  | _ =>
    refine ⟨trivial, ?_⟩
    rw [hauth]
    exact hw

theorem Standing.answer {p : Handler Unit}
    (h : Standing key sess R w.auth) (hp : Within [.answer] p)
    (hrun : Runs (exec env) p w tr () w') : Standing key sess R w'.auth := by
  refine (hrun.only (I := fun w => Standing key sess R w.auth) hp ?_ h).2
  intro call x w b w' hw hcall hexec
  refine ⟨trivial, ?_⟩
  have hsame : authAfter env x w.auth call = w.auth := by
    cases call with
    | auth call => cases call <;> cases hcall
    | _ => rfl
  rw [exec_auth hexec, hsame]
  exact hw

/-- Why no session was opened. -/
def sessionFailures (tr : Trace) : List GoError :=
  tr.filterMap fun
    | ⟨.auth (.createSession _ _ _ _), .error err⟩ => some err
    | _ => none

theorem Standing.completeHandoff {handoff : AuthHandoffRecord} (h : Standing key sess R w.auth)
    (hiid : sess.installationID = req.installationID)
    (hR : handoff.credentialID = sess.credentialID → ∀ cred, R (some cred))
    (hrun : Runs (exec env) (completeHandoff env req handoff) w tr () w') (h200 : 200 ∉ answers tr)
    (hrefused : sessionFailures tr ⊆ sessionRefusals) :
    Standing key sess R w'.auth := by
  obtain ⟨tr1, tr2, leased, w1, rfl, hlease, hrun1⟩ := hrun.of_bind
  have h1 := h.lease hR hlease
  cases leased with
  | error err =>
    obtain ⟨x, dropped, w2, tr3, hexec, rfl, hrun2⟩ := hrun1.of_perform
    have h2 : Standing key sess R w2.auth := by
      rw [exec_auth hexec]
      exact h1.deleteCredentialIfUnused
    exact h2.answer (writeOAuthLeaseError_within err) hrun2
  | ok =>
    obtain ⟨x, opened, w2, tr3, hexec, rfl, hrun2⟩ := hrun1.of_perform
    cases opened with
    | ok =>
      -- an opened sess is answered by 200
      obtain ⟨x', u, w3, tr4, -, rfl, -⟩ := hrun2.of_call
      refine absurd ?_ h200
      refine mem_filterMap.mpr ⟨⟨.env (.respond 200 ""), u⟩, ?_, rfl⟩
      exact mem_append_right tr1 (mem_cons_of_mem _ mem_cons_self)
    | error err =>
      have hcreate : (execAuth env x (.createSession handoff.credentialID req.installationID
          req.deviceSecret env.cfg.authSessionTTL) w1.auth).1 = .error err :=
        congrArg Prod.fst (Option.some.inj hexec)
      have hlist : err ∈ sessionRefusals :=
        hrefused (mem_filterMap.mpr ⟨_, mem_append_right tr1 mem_cons_self, rfl⟩)
      have h2 : Standing key sess R w2.auth := by
        rw [exec_auth hexec]
        rw [← hiid] at hcreate ⊢
        exact h1.keeps (createSession_refused_keepsSession h1.kept h1.sound hcreate hlist)
      obtain ⟨x', dropped, w3, tr4, hexec', rfl, hrun3⟩ := hrun2.of_perform
      have h3 : Standing key sess R w3.auth := by
        rw [exec_auth hexec']
        exact h2.deleteCredentialIfUnused
      refine h3.answer ?_ hrun3
      split_ifs
      · exact .last rfl
      · exact .last rfl

theorem Standing.completeMobileAuth (h : Standing key sess R w.auth)
    (hiid : sess.installationID = req.installationID)
    (hR : ∀ k handoff, w.auth.handoffs.lookup k = some handoff →
      handoff.credentialID = sess.credentialID → ∀ cred, R (some cred))
    (hrun : Runs (exec env) (completeMobileAuth env req) w tr () w')
    (h200 : 200 ∉ answers tr) (hrefused : sessionFailures tr ⊆ sessionRefusals) :
    Standing key sess R w'.auth := by
  unfold Ferventio.completeMobileAuth withAuthBroker at hrun
  split at hrun
  · split at hrun
    · exact h.answer (.last rfl) hrun
    · obtain ⟨x, allowed, w1, tr1, hexec, rfl, hrun1⟩ := hrun.of_perform
      have hw1 : w1.auth = w.auth := exec_auth hexec
      rw [← hw1] at h hR
      split at hrun1
      · exact h.answer (.last rfl) hrun1
      · obtain ⟨x', consumed, w2, tr2, hexec', rfl, hrun2⟩ := hrun1.of_perform
        have hcons := congrArg Prod.fst (Option.some.inj hexec')
        have h2 : Standing key sess R w2.auth := by
          rw [exec_auth hexec']
          exact h.consumeHandoff
        cases consumed with
        | error err => exact h2.answer (writeAuthRecordError_within err) hrun2
        | ok handoff =>
          have hredeem := execAuth_consumeHandoff hcons
          exact h2.completeHandoff hiid (hR _ handoff hredeem.stored) hrun2 h200 hrefused
  · exact h.answer (.last rfl) hrun

end Standing

/-- **A failed re-authorization keeps the session** of the requesting installation, in either store.
Only the credential of the presented handoff may change. Anything may fail but `CreateSession`. -/
theorem failed_reauthorization_keeps_session {request : MobileAuthCompleteRequest} {tr : Trace}
    {token : String} (hreach : AuthReached env (fun _ => True) w.auth)
    (hsess : w.auth.sessions.lookup (env.hashSecret token) = some sess)
    (hinst : sess.installationID = request.installationID)
    (hrun : Runs (exec env) (completeMobileAuth env request) w tr () w') (h200 : 200 ∉ answers tr)
    (hrefused : sessionFailures tr ⊆ sessionRefusals) :
    w'.auth.sessions.lookup (env.hashSecret token) = some sess ∧
      w'.auth.credentials.lookup sess.credentialID ≠ none ∧
      ((∀ k handoff, w.auth.handoffs.lookup k = some handoff →
          handoff.credentialID ≠ sess.credentialID) →
        w'.auth.credentials.lookup sess.credentialID =
          w.auth.credentials.lookup sess.credentialID) ∧
      ∀ x secret ttl,
        secureHashEqual sess.deviceHash (env.hashSecret secret) →
        x.now ≤ sess.expiresAt → x.fault = none →
        ∃ expiresAt, (execAuth env x
          (.resolveSession token sess.installationID secret ttl) w'.auth).1 =
            .ok { sess with expiresAt := expiresAt } := by
  have hsound := hreach.sessionsSound
  have hstanding : ∀ R : Option AuthCredential → Prop,
      R (w.auth.credentials.lookup sess.credentialID) →
      Standing (env.hashSecret token) sess R w.auth :=
    fun R hR => ⟨hsound, hreach.keyedByID, hsess, hR⟩
  have hkept := (hstanding (· ≠ none) (hsound.backed _ _ hsess)).completeMobileAuth hinst
    (fun _ _ _ _ cred => Option.some_ne_none cred) hrun h200 hrefused
  refine ⟨hkept.kept, hkept.credential, fun hother => ?_, fun x secret ttl hbound hlive hfault =>
    execAuth_resolveSession_ok hkept.kept hlive hbound hfault⟩
  have hsame := (hstanding (· = w.auth.credentials.lookup sess.credentialID)
    rfl).completeMobileAuth hinst
    (fun k handoff hk heq => absurd heq (hother k handoff hk)) hrun h200 hrefused
  exact hsame.credential

/-- A phone with a session and the handoff of a new credential. -/
def signingInAgain (backend : Backend) : World :=
  let credential : AuthCredential :=
    { id := "old", clientID := "client", userID := "7", accessToken := "access",
      refreshToken := "refresh", accessExpiresAt := 0, lastValidatedAt := 0 }
  let handoff : AuthHandoffRecord :=
    { credentialID := "old", installationID := "phone", deviceHash := "#" ++ phoneSecret,
      appCallbackURI := "app:", stateHash := "#state", createdAt := 0, expiresAt := hour }
  let issued := (execAuth (.sample backend) {}
    (.putCredentialAndHandoff credential "first" handoff) {}).2
  let opened := (execAuth (.sample backend) { token := some "token" }
    (.createSession "old" "phone" phoneSecret hour) issued).2
  { auth := (execAuth (.sample backend) {} (.putCredentialAndHandoff { credential with id := "new" }
      "code" { handoff with credentialID := "new" }) opened).2 }

/-- A failed login leaves the phone signed in. -/
def PhoneKeepsSession (backend : Backend) : Prop :=
  ∃ tr w', Runs (exec (.sample backend))
      (completeMobileAuth (.sample backend) ⟨"code", "state", "phone", phoneSecret⟩)
      (signingInAgain backend) tr () w' ∧ answers tr = [502] ∧
    w'.auth.sessions.lookup "#fsv1_token" =
        (signingInAgain backend).auth.sessions.lookup "#fsv1_token" ∧
    w'.auth.credentials.lookup "old" ≠ none

theorem unanswered_refresh_keeps_session :
    PhoneKeepsSession .memory ∧ PhoneKeepsSession .postgres := by
  have hkeeps : ∀ backend, PhoneKeepsSession backend := by
    intro backend
    have heval : (Prog.eval (exec (.sample backend))
        (completeMobileAuth (.sample backend) ⟨"code", "state", "phone", phoneSecret⟩)
        [{}, {}, {}, {}, {}, { failure := some (.plain "timeout") }, {}, {}, {}]
        (signingInAgain backend)).map (fun r => (answers r.1, sessionFailures r.1)) =
        some ([502], []) := by
      cases backend <;> decide
    obtain ⟨⟨tr, u, w'⟩, hres, htrace⟩ := Option.map_eq_some_iff.mp heval
    obtain ⟨hanswers, hfailures⟩ := Prod.mk.injEq .. ▸ htrace
    have hreach : AuthReached (.sample backend) (fun _ => True) (signingInAgain backend).auth :=
      .call {} (.call _ (.call {} .start trivial) trivial) trivial
    have hsess : (signingInAgain backend).auth.sessions.lookup
        ((Env.sample backend).hashSecret "fsv1_token") = some
          { credentialID := "old", installationID := "phone", deviceHash := "#" ++ phoneSecret,
            createdAt := 1, expiresAt := 1 + hour } := by
      cases backend <;> rfl
    have hkept := failed_reauthorization_keeps_session hreach hsess rfl
      (eval_runs hres) (by rw [hanswers]; decide)
      (by rw [hfailures]; exact nil_subset _)
    exact ⟨tr, w', eval_runs hres, hanswers, hkept.1.trans hsess.symm, hkept.2.1⟩
  exact ⟨hkeeps .memory, hkeeps .postgres⟩

end Ferventio
