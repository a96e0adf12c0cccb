import Ferventio.Auth.LiveSession
import Ferventio.Device.SelfRevocation

/-!
# The identifiers of an issued session

`completeMobileAuth` stores the installation and the secret of its request as they are; the handlers
that use the session trim their headers. So a session that was issued for identifiers with white
space around them is found by none of them.

* **`issued_session_usable_iff`**: when the session can be used.
-/

namespace Ferventio

open Prog Strings Table List

variable {s : AuthDiskState} {x : Choice} {ttl : Duration}

/-- The session that a request is made in. -/
def authorizeMobileSession (env : Env) (device : DeviceCredentials) :
    Handler (Option AuthSessionRecord) := do
  let installationID := trimSpace device.installationID
  let deviceSecret := trimSpace device.deviceSecret
  if device.token = "" ∨ installationID = "" ∨ deviceSecret = "" then
    respond 401 "missing backend session credentials"
    return none
  else
    match ← authStore (.resolveSession device.token installationID deviceSecret
        env.cfg.authSessionTTL) with
    | .error err =>
      writeAuthRecordError err
      return none
    | .ok session => return some session

/-! ## Issuing a session -/

/-- The tokens of the sessions that were opened. -/
def issued (tr : Trace) : List String :=
  tr.filterMap fun
    | ⟨.auth (.createSession _ _ _ _), .ok (token, _)⟩ => some token
    | _ => none

/-- The session is still there; only its expiry may be renewed. -/
def Stays (env : Env) (now : Time) (device : DeviceCredentials) (s : AuthDiskState) : Prop :=
  ∃ sess, s.sessions.lookup (env.hashSecret device.token) = some sess ∧
    now ≤ sess.expiresAt ∧ sess.installationID = device.installationID ∧
      sess.deviceHash = env.hashSecret device.deviceSecret

section Issue

variable {env : Env} {req : MobileAuthCompleteRequest} {w w' : World}
  {tr : Trace} {k : String}

theorem issued_of_within {α : Type} {p : Handler α} {a : α} {effects : List Effect}
    (hp : Within effects p) (hrun : Runs (exec env) p w tr a w')
    (heffs : effects.contains .openSession = false) : issued tr = [] := by
  have hcalls := (hrun.only (I := fun _ => True) hp (fun _ _ _ _ _ _ _ _ => ⟨trivial, trivial⟩)
    trivial).1
  rw [issued, filterMap_eq_nil_iff]
  rintro ⟨call, ans⟩ hmade
  have heff := hcalls _ hmade
  split
  · rename_i heq
    cases heq
    rw [show Call.effect _ = Effect.openSession from rfl, heffs] at heff
    cases heff
  · rfl

theorem randomToken_ne_empty {random : Option String} {token : String}
    (h : randomToken "fsv1_" random = some token) : token ≠ "" := by
  obtain ⟨text, -, rfl⟩ := Option.map_eq_some_iff.mp h
  intro hempty
  have hlist := congrArg String.toList hempty
  simp at hlist

theorem createSession_held {credID iid secret : String} {expiresAt : Time}
    (h : (execAuth env x (.createSession credID iid secret ttl) s).1 = .ok (k, expiresAt)) :
    k ≠ "" ∧ (0 ≤ ttl → Stays env x.now ⟨k, iid, secret⟩
      (execAuth env x (.createSession credID iid secret ttl) s).2) := by
  let sess : AuthSessionRecord :=
    { credentialID := credID, installationID := iid, deviceHash := env.hashSecret secret
      createdAt := x.now, expiresAt := x.now + ttl }
  have hlive (httl : 0 ≤ ttl) : x.now ≤ sess.expiresAt := Int.le_add_of_nonneg_right httl
  rcases execAuth_answered (by rw [h]; rintro ⟨⟩) with heq | heq
  · rw [heq] at h ⊢
    simp only [Memory.execAuth, Memory.createSession] at h ⊢
    split_ifs at h ⊢
    split at h
    · cases h
    · rename_i htoken
      cases h
      refine ⟨randomToken_ne_empty htoken, fun httl => ⟨sess, ?_, hlive httl, rfl, rfl⟩⟩
      refine (KeepsSession.cleanup (.refl ?_) (hlive httl)).kept
      exact (lookup_insert_eq ..).trans (if_pos rfl)
  · rw [heq] at h ⊢
    simp only [Postgres.answerAuth, Postgres.createSession] at h ⊢
    split_ifs at h ⊢
    split at h
    · cases h
    · rename_i htoken
      split_ifs at h with hduplicate
      cases h
      rw [if_neg hduplicate]
      refine ⟨randomToken_ne_empty htoken, fun httl => ⟨sess, ?_, hlive httl, rfl, rfl⟩⟩
      refine (KeepsSession.orphans (.refl ?_)).kept
      exact (lookup_insert_eq ..).trans (if_pos rfl)

theorem completeMobileAuth_issued
    (hrun : Runs (exec env) (completeMobileAuth env req) w tr () w') (hk : k ∈ issued tr) :
    env.cfg.authEnabled ∧
      validateMobileDevice req.installationID req.deviceSecret = .ok () ∧
      ∃ x credID s expiresAt, (execAuth env x (.createSession credID
          req.installationID req.deviceSecret env.cfg.authSessionTTL) s) =
        (.ok (k, expiresAt), w'.auth) := by
  have hnone {p : Handler Unit} {w : World} {tr : Trace}
      (hp : Within [.answer] p) (hrun : Runs (exec env) p w tr () w') : k ∉ issued tr := by
    rw [issued_of_within hp hrun rfl]
    exact not_mem_nil
  unfold completeMobileAuth withAuthBroker at hrun
  split at hrun
  case isFalse => exact (hnone (.last rfl) hrun hk).elim
  case isTrue hon =>
  refine ⟨hon, ?_⟩
  split at hrun
  case h_1 => exact (hnone (.last rfl) hrun hk).elim
  case h_2 hvalid =>
  refine ⟨hvalid, ?_⟩
  obtain ⟨x1, allowed, w1, tr1, -, rfl, hrun1⟩ := hrun.of_perform
  replace hk : k ∈ issued tr1 := hk
  split at hrun1
  case isTrue => exact (hnone (.last rfl) hrun1 hk).elim
  obtain ⟨x2, consumed, w2, tr2, -, rfl, hrun2⟩ := hrun1.of_perform
  replace hk : k ∈ issued tr2 := hk
  cases consumed with
  | error err => exact (hnone (writeAuthRecordError_within err) hrun2 hk).elim
  | ok handoff =>
    obtain ⟨tr3, tr4, leased, w3, rfl, hlease, hrun3⟩ := hrun2.of_bind
    rw [issued, filterMap_append, mem_append, ← issued, ← issued,
      issued_of_within (lease_within env _ false) hlease rfl] at hk
    replace hk := hk.resolve_left not_mem_nil
    cases leased with
    | error err =>
      obtain ⟨x4, dropped, w4, tr5, -, rfl, hrun4⟩ := hrun3.of_perform
      exact (hnone (writeOAuthLeaseError_within err) hrun4 hk).elim
    | ok =>
      obtain ⟨x4, opened, w4, tr5, hexec, rfl, hrun4⟩ := hrun3.of_perform
      cases opened with
      | error err =>
        obtain ⟨x5, dropped, w5, tr6, -, rfl, hrun5⟩ := hrun4.of_perform
        split_ifs at hrun5
        · exact (hnone (.last rfl) hrun5 hk).elim
        · exact (hnone (.last rfl) hrun5 hk).elim
      | ok sess =>
        obtain ⟨x5, sent, w5, tr6, hans, rfl, hrun5⟩ := hrun4.of_perform
        obtain ⟨rfl, -, rfl⟩ := hrun5.of_ret
        obtain rfl : k = sess.1 := by simpa [issued] using hk
        have hauth : w'.auth = w4.auth := exec_auth hans
        obtain ⟨hok, hstored⟩ := Prod.mk.inj (Option.some.inj hexec)
        refine ⟨x4, handoff.credentialID, w3.auth, sess.2, Prod.ext hok ?_⟩
        rw [hauth, ← hstored]

theorem complete_of_valid (hk : k ≠ "")
    (hvalid : validateMobileDevice req.installationID req.deviceSecret = .ok ()) :
    DeviceCredentials.Complete ⟨k, req.installationID, req.deviceSecret⟩ := by
  unfold validateMobileDevice at hvalid
  dsimp only at hvalid
  split_ifs at hvalid with hiid hsecret
  refine ⟨hk, fun h => hiid (.inl h), fun h => hsecret (.inl ?_)⟩
  rw [h]
  decide

end Issue

/-! ## Using a session -/

/-- The identifiers are the same after trimming. -/
def DeviceCredentials.Trimmed (env : Env) (device : DeviceCredentials) : Prop :=
  device.installationID = trimSpace device.installationID ∧
    secureHashEqual (env.hashSecret device.deviceSecret)
      (env.hashSecret (trimSpace device.deviceSecret))

/-- The tokens that were accepted. -/
def resolved (tr : Trace) : List String :=
  tr.filterMap fun
    | ⟨.auth (.resolveSession token _ _ _), .ok _⟩ => some token
    | _ => none

section Use

variable {env : Env} {now : Time} {device : DeviceCredentials} {w w' : World}
  {tr : Trace}

theorem Stays.live_iff (h : Stays env now device s) :
    Live env now device s ↔ device.Trimmed env := by
  obtain ⟨sess, hsess, hcur, hiid, hdev⟩ := h
  constructor
  · rintro ⟨sess', hsess', -, hiid', hdev'⟩
    rw [hsess] at hsess'
    cases hsess'
    rw [hiid] at hiid'
    rw [hdev] at hdev'
    exact ⟨hiid', hdev'⟩
  · rintro ⟨hiid', hdev'⟩
    refine ⟨sess, hsess, hcur, hiid.trans hiid', ?_⟩
    rw [hdev]
    exact hdev'

theorem Stays.resolve {ans : Result AuthSessionRecord} (h : Stays env now device w.auth)
    (hcall : execAt env now (.auth (.resolveSession device.token (trimSpace device.installationID)
      (trimSpace device.deviceSecret) ttl)) x w = some (ans, w')) :
    (device.Trimmed env ∧ ∃ sess, ans = .ok sess) ∨
      (¬device.Trimmed env ∧ ans = .error .authDeviceMismatch) := by
  obtain ⟨rfl, hstored⟩ := execStored_of_execAt hcall
  obtain ⟨hfault, rfl, rfl⟩ := execStored_auth hstored
  rw [execAuth_resolveSession_eq hfault, ← h.live_iff]
  obtain ⟨sess, hsess, hcur, -⟩ := h
  rcases resolveSession_cases device ttl w.auth with ⟨hnone, -⟩ |
    ⟨sess', hsess', hexp, -⟩ | ⟨hlive, -, hr⟩ | ⟨hlive, sess, hr, -⟩
  · rw [hnone] at hsess
    cases hsess
  · rw [hsess'] at hsess
    cases hsess
    exact absurd hexp (Int.not_lt.mpr hcur)
  · exact .inr ⟨hlive, congrArg Prod.fst hr⟩
  · exact .inl ⟨hlive, sess, hr⟩

theorem execAuth_deleteSession_eq (hfault : x.fault = none)
    (token iid secret : String) (s : AuthDiskState) :
    execAuth env x (.deleteSession token iid secret) s =
      Memory.deleteSession env.hashSecret token iid secret s := by
  unfold execAuth
  cases env.backend with
  | memory => rfl
  | postgres =>
    dsimp only [Postgres.execAuth]
    rw [withFault, hfault]
    rfl

theorem Stays.authorize {sess : Option AuthSessionRecord} (h : Stays env now device w.auth)
    (hcomp : device.Complete)
    (hrun : Runs (execAt env now) (authorizeMobileSession env device) w tr sess w') :
    sess.isSome ↔ device.Trimmed env := by
  rw [authorizeMobileSession, if_neg hcomp.present] at hrun
  obtain ⟨x, ans, w1, tr1, hcall, rfl, hrest⟩ := hrun.of_perform
  rcases h.resolve hcall with ⟨htrim, found, rfl⟩ | ⟨htrim, rfl⟩
  · obtain ⟨-, rfl, -⟩ := hrest.of_ret
    exact iff_of_true rfl htrim
  · obtain ⟨tr2, tr3, -, w2, -, -, hnone⟩ := hrest.of_bind
    obtain ⟨-, rfl, -⟩ := hnone.of_ret
    exact iff_of_false nofun htrim

theorem Stays.delete (h : Stays env now device w.auth) (hon : env.cfg.authEnabled)
    (hcomp : device.Complete)
    (hrun : Runs (execAt env now) (deleteMobileSession env device) w tr () w') :
    w'.auth.sessions.lookup (env.hashSecret device.token) = none ↔ device.Trimmed env := by
  rw [deleteMobileSession, withAuthBroker, if_pos hon, if_neg hcomp.token] at hrun
  obtain ⟨x, ans, w1, tr1, hcall, rfl, hrest⟩ := hrun.of_perform
  obtain ⟨rfl, hstored⟩ := execStored_of_execAt hcall
  obtain ⟨hfault, rfl, rfl⟩ := execStored_auth hstored
  have hrest := hrest.mono fun _ _ _ r h => (execStored_of_execAt (a := r.1) h).2
  obtain ⟨sess, hsess, hcur, hiid, hdev⟩ := h
  rw [execAuth_deleteSession_eq hfault, Memory.deleteSession] at hrest
  simp only [hsess, hiid, hdev] at hrest
  split_ifs at hrest with hmis
  · obtain ⟨-, -, -, hauth⟩ := runs_respond hrest
    refine iff_of_false ?_ ?_
    · rw [hauth, hsess]
      rintro ⟨⟩
    · rintro ⟨hsame, hhash⟩
      rcases hmis with hother | hother
      · exact hother hsame
      · rw [hhash] at hother
        cases hother
  · obtain ⟨-, -, -, hauth⟩ := runs_respond hrest
    rw [not_or, not_ne_iff, Bool.not_eq_true, Bool.not_eq_false'] at hmis
    rw [hauth]
    exact iff_of_true lookup_dropIfUnused_erase hmis

theorem Stays.revoke (h : Stays env now device w.auth) (hon : env.cfg.authEnabled)
    (hcomp : device.Complete)
    (hrun : Runs (execAt env now) (revokeMobileDevice env device) w tr () w') :
    device.token ∈ resolved tr ↔ device.Trimmed env := by
  rw [revokeMobileDevice, withAuthBroker, if_pos hon] at hrun
  dsimp only at hrun
  rw [if_neg hcomp.present] at hrun
  obtain ⟨x, ans, w1, tr1, hcall, rfl, hrest⟩ := hrun.of_perform
  rcases h.resolve hcall with ⟨htrim, found, rfl⟩ | ⟨htrim, rfl⟩
  · exact iff_of_true mem_cons_self htrim
  · obtain ⟨x1, sent, w2, tr2, -, rfl, hrest1⟩ := hrest.of_perform
    obtain ⟨rfl, -, -⟩ := hrest1.of_ret
    exact iff_of_false not_mem_nil htrim

end Use

/-- **An issued session can be used when its identifiers have no white space around them.** -/
theorem issued_session_usable_iff (env : Env) (request : MobileAuthCompleteRequest) {w w' : World}
    {tr : Trace} (k : String) (hrun : Runs (exec env) (completeMobileAuth env request) w tr () w')
    (hiss : k ∈ issued tr) :
    let device : DeviceCredentials := ⟨k, request.installationID, request.deviceSecret⟩
    (0 ≤ env.cfg.authSessionTTL → ∃ now, Stays env now device w'.auth) ∧
    ∀ now w1, Stays env now device w1.auth →
      (∀ tr1 sess w2,
        Runs (execAt env now) (authorizeMobileSession env device) w1 tr1 sess w2 →
          (sess.isSome ↔ device.Trimmed env)) ∧
      (∀ tr1 w2, Runs (execAt env now) (deleteMobileSession env device) w1 tr1 () w2 →
        (w2.auth.sessions.lookup (env.hashSecret k) = none ↔ device.Trimmed env)) ∧
      ∀ tr1 w2, Runs (execAt env now) (revokeMobileDevice env device) w1 tr1 () w2 →
        (k ∈ resolved tr1 ↔ device.Trimmed env) := by
  obtain ⟨hon, hvalid, x, cid, s, expiresAt, hnew⟩ := completeMobileAuth_issued hrun hiss
  obtain ⟨hk, hstays⟩ := createSession_held (congrArg Prod.fst hnew)
  have hcomp := complete_of_valid hk hvalid
  refine ⟨fun httl => ⟨x.now, ?_⟩, fun now w1 hheld => ⟨?_, ?_, ?_⟩⟩
  · have hheld := hstays httl
    rwa [hnew] at hheld
  · exact fun tr1 sess w2 hrun1 => hheld.authorize hcomp hrun1
  · exact fun tr1 w2 hrun1 => hheld.delete hon hcomp hrun1
  · exact fun tr1 w2 hrun1 => hheld.revoke hon hcomp hrun1

/-- The app has a handoff. -/
def signingIn (installationID deviceSecret : String) : World :=
  { auth := (execAuth .pg {} (.putCredentialAndHandoff
      { id := "id", clientID := "client", userID := "7", accessToken := "access"
        refreshToken := "refresh", accessExpiresAt := 24 * hour, lastValidatedAt := 0 } "code"
      { credentialID := "id", installationID, deviceHash := "#" ++ deviceSecret
        appCallbackURI := "app:", stateHash := "#state", createdAt := 0
        expiresAt := hour }) {}).2 }

/-- The phone signs in, and its session is accepted as long as it is held. -/
theorem phone_session_usable :
    ∃ tr w, Runs (exec .pg) (completeMobileAuth .pg
        ⟨"code", "state", "phone", phoneSecret⟩) (signingIn "phone" phoneSecret) tr () w ∧
      (∃ now, Stays .pg now ⟨"fsv1_a", "phone", phoneSecret⟩ w.auth) ∧
      ∀ now w1 tr1 sess w2, Stays .pg now ⟨"fsv1_a", "phone", phoneSecret⟩ w1.auth →
        Runs (execAt .pg now) (authorizeMobileSession .pg
          ⟨"fsv1_a", "phone", phoneSecret⟩) w1 tr1 sess w2 → sess.isSome := by
  have heval : (Prog.eval (exec .pg) (completeMobileAuth .pg
      ⟨"code", "state", "phone", phoneSecret⟩) (List.replicate 30 loginChoice)
      (signingIn "phone" phoneSecret)).map (fun r => issued r.1) = some ["fsv1_a"] := by decide
  obtain ⟨⟨tr, _, w⟩, hrun, hiss⟩ := Option.map_eq_some_iff.mp heval
  have huse := issued_session_usable_iff .pg _ "fsv1_a" (eval_runs hrun)
    (by simp [hiss])
  refine ⟨tr, w, eval_runs hrun, huse.1 (by decide), fun now w1 tr1 sess w2 hheld hrun1 => ?_⟩
  exact ((huse.2 now w1 hheld).1 tr1 sess w2 hrun1).2 ⟨by decide, by decide⟩

/-- A phone that signs in, uses its session and ends it. -/
def signInAndOut (installationID deviceSecret : String) : Handler (Option AuthSessionRecord) := do
  completeMobileAuth .pg ⟨"code", "state", installationID, deviceSecret⟩
  let session ← authorizeMobileSession .pg ⟨"fsv1_a", installationID, deviceSecret⟩
  deleteMobileSession .pg ⟨"fsv1_a", installationID, deviceSecret⟩
  return session

/-- The session of an installation with a space after its name is refused, and stays. -/
theorem untrimmed_session_unusable :
    (Prog.eval (execAt .pg 1) (signInAndOut "phone " phoneSecret)
      (List.replicate 30 loginChoice) (signingIn "phone " phoneSecret)).map (fun r =>
        (issued r.1, answers r.1, r.2.1.isSome, (r.2.2.auth.sessions.lookup "#fsv1_a").isSome)) =
      some (["fsv1_a"], [200, 403, 403], false, true) := by
  decide

end Ferventio
