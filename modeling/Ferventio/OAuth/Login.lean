import Ferventio.Auth.References
import Ferventio.OAuth.Revoked

/-!
# Concurrent logins

The app completes a login by trading its handoff for a session: the handoff is consumed, the
credential is leased, and the session is created. In between nothing refers to the credential, and
a sweep by any other login or revocation deletes it: the handoff is spent and there is no session.

* **`login_ends_with_session`**: where nobody else sweeps in between (`LoginsApart`), and nothing
  else is refused (`Granted`).
* **`login_sweeps_other_login`**: a login that ends without.
-/

namespace Ferventio

open Table System

variable {cred : AuthCredential} {hist : List ServerEvent} {code id credID key : String}
  {cfg : ServerConfig} {call : Call} {a : call.Ans} {row : AuthHandoffRecord} {ttl : Duration}
  {err : GoError} {pid : Nat} {env : Env} {x : Choice} {v : ServerView} {e : ServerEvent}
  {s w : World}

/-! ## How far a login has come -/

/-- How far a login has come. -/
inductive LoginPhase
  /-- no handoff was asked for -/
  | idle
  /-- the rate limiter refused, or the handoff -/
  | refused
  /-- the handoff of the credential was consumed; the lease may have read the credential -/
  | redeemed (credentialID : String) (read : Option AuthCredential)
  /-- Twitch refused or did not answer, or the database failed, or the session was refused for
  another reason than a missing credential -/
  | excused (credentialID : String)
  /-- the session was created -/
  | opened (credentialID : String)
  /-- the credential was missing -/
  | lost (credentialID : String)
deriving DecidableEq

namespace LoginPhase

/-- The credential that a login is for. -/
def ticket : LoginPhase → Option String
  | idle => none
  | refused => none
  | redeemed credentialID _ => some credentialID
  | excused credentialID => some credentialID
  | opened credentialID => some credentialID
  | lost credentialID => some credentialID

/-- Between the handoff and the session. -/
def inProgress : LoginPhase → Bool
  | redeemed _ _ => true
  | _ => false

/-- Nothing that the login does changes its phase any more. -/
def isOver : LoginPhase → Bool
  | idle => false
  | redeemed _ _ => false
  | _ => true

/-- The login ended for another reason than a missing credential. -/
def turnedDown : LoginPhase → Bool
  | refused => true
  | excused _ => true
  | _ => false

/-- A missing credential is no excuse, any other failure is. -/
def failed (credentialID : String) (err : GoError) : LoginPhase :=
  if err = .authNotFound then .lost credentialID else .excused credentialID

/-- What an answer means for the login. -/
def next (cfg : ServerConfig) : LoginPhase → (call : Call) → call.Ans → LoginPhase
  | idle, .env (.takeRateLimit _ _), false => refused
  | idle, .auth (.consumeHandoff _ _ _ _), .error _ => refused
  | idle, .auth (.consumeHandoff _ _ _ _), .ok handoff => redeemed handoff.credentialID none
  | redeemed id _, .auth (.getCredential _), .ok credential => redeemed id (some credential)
  | redeemed id _, .auth (.getCredential _), .error err => failed id err
  | redeemed id _, .twitch (.requestToken _), .error _ => excused id
  | redeemed id _, .twitch (.validate _), .error _ => excused id
  | redeemed id (some credential), .twitch (.validate _), .ok validation =>
    if validationMatches cfg credential validation then redeemed id (some credential)
    else excused id
  | redeemed id _, .auth (.putCredential _), .error _ => excused id
  | redeemed id _, .auth (.createSession _ _ _ _), .ok _ => opened id
  | redeemed id _, .auth (.createSession _ _ _ _), .error err => failed id err
  | phase, _, _ => phase

/-- The calls of a login in a phase. -/
def Allows (phase : LoginPhase) : Call → Prop
  | .auth (.consumeHandoff _ _ _ _) => phase = .idle
  | .auth (.createSession id _ _ _) => phase.ticket = some id
  | .auth (.deleteCredentialIfUnused id) => phase.ticket = some id ∧ phase.inProgress = false
  | .auth (.getCredential id) => phase.inProgress → phase.ticket = some id
  | call => phase.inProgress → call.effect = .writeCredential ∨ call.effect = .other

end LoginPhase

/-- The effects that only a login has. -/
def loginEffects : List Effect := [.redeem, .openSession, .dropCredential]

/-- The program makes the calls of a login in `phase`. -/
def FollowsLogin (env : Env) {α : Type} (post : α → LoginPhase → Prop) (p : Handler α)
    (phase : LoginPhase) : Prop :=
  Follows (LoginPhase.next env.cfg) LoginPhase.Allows post p phase

variable {phase : LoginPhase} {w' : World}

theorem isOver_of_ticket (hticket : phase.ticket = some id) (hprog : phase.inProgress = false) :
    phase.isOver := by
  cases phase with
  | idle => cases hticket
  | redeemed => cases hprog
  | _ => rfl

theorem inProgress_of_isOver (h : phase.isOver) : phase.inProgress = false := by
  cases phase with
  | redeemed => cases h
  | _ => rfl

theorem inProgress_of_ticket_none (h : phase.ticket = none) : phase.inProgress = false := by
  cases phase with
  | redeemed => cases h
  | _ => rfl

theorem allows_unticketed (hticket : phase.ticket = none)
    (h : loginEffects.contains call.effect = false) :
    phase.Allows call ∧ ∀ a, (phase.next cfg call a).ticket = none := by
  refine ⟨?_, fun a => ?_⟩
  · have hprog := inProgress_of_ticket_none hticket
    unfold LoginPhase.Allows
    split
    · cases h
    · cases h
    · cases h
    · intro hopen
      rw [hprog] at hopen
      cases hopen
    · intro hopen
      rw [hprog] at hopen
      cases hopen
  · unfold LoginPhase.next
    split
    · rfl
    · cases h
    · cases h
    all_goals first | exact hticket | cases hticket

theorem next_over (h : phase.isOver) (call : Call) (a : call.Ans) :
    phase.next cfg call a = phase := by
  cases phase with
  | idle => cases h
  | redeemed => cases h
  | _ => rfl

theorem next_settled (hticket : phase.ticket = some id) (hprog : phase.inProgress = false)
    (call : Call) (a : call.Ans) : phase.next cfg call a = phase :=
  next_over (isOver_of_ticket hticket hprog) call a

theorem next_unlock (phase : LoginPhase) (mutex : Mutex) (a : Unit) :
    phase.next cfg (.env (.unlock mutex)) a = phase := by
  cases phase <;> rfl

namespace FollowsLogin

variable {α β : Type} {phase : LoginPhase}

/-- The effects of a lease and of an answer. -/
def leaseOrAnswer : List Effect := [.readCredential, .writeCredential, .answer, .other]

theorem unticketed {effects : List Effect} {p : Handler α} (h : Within effects p)
    (heffs : effects.all (fun effect => !loginEffects.contains effect) = true)
    (hticket : phase.ticket = none) :
    FollowsLogin env (fun _ phase => phase.ticket = none) p phase := by
  refine follows_of_stable h (fun phase call hphase hcall => ?_) hticket
  have hall := List.all_eq_true.mp heffs call.effect (List.contains_iff_mem.mp hcall)
  exact allows_unticketed hphase (by simpa only [Bool.not_eq_true_eq_eq_false] using hall)

theorem settled {p : Handler α} (h : Within leaseOrAnswer p) (hover : phase.isOver) :
    FollowsLogin env (fun _ phase' => phase' = phase) p phase := by
  refine follows_of_only h fun call hcall => ⟨?_, next_over hover call⟩
  have hprog := inProgress_of_isOver hover
  unfold LoginPhase.Allows
  split
  · cases hcall
  · cases hcall
  · cases hcall
  · intro h
    rw [hprog] at h
    cases h
  · intro h
    rw [hprog] at h
    cases h

end FollowsLogin

/-- After a lease the login has its ticket, and is over if the lease failed. -/
def Leased (id : String) (result : Result AuthCredential) (phase : LoginPhase) : Prop :=
  phase.ticket = some id ∧ ∀ err, result = .error err → phase.isOver

theorem Leased.of_settled {result : Result AuthCredential}
    (hticket : phase.ticket = some id) (hover : phase.isOver) :
    Leased id result phase :=
  ⟨hticket, fun _ _ => hover⟩

theorem leased_ok (hticket : phase.ticket = some id) : Leased id (.ok cred) phase :=
  ⟨hticket, fun _ h => by cases h⟩

theorem failed_ticket (id : String) (err : GoError) :
    (LoginPhase.failed id err).ticket = some id := by
  unfold LoginPhase.failed
  split_ifs <;> rfl

theorem failed_isOver (id : String) (err : GoError) : (LoginPhase.failed id err).isOver := by
  unfold LoginPhase.failed
  split_ifs <;> rfl

theorem refreshCredential_followsLogin (now : Time) (id : String) (cred : AuthCredential) :
    FollowsLogin env (Leased id) (refreshCredential env now cred) (.redeemed id (some cred)) := by
  refine .perform_bind (fun _ => .inr rfl) fun ans => ?_
  cases ans with
  | error => exact .of_settled rfl rfl
  | ok =>
    refine .perform_bind (fun _ => .inr rfl) fun ans => ?_
    cases ans with
    | error => exact .of_settled rfl rfl
    | ok validation =>
      simp only [LoginPhase.next]
      by_cases hmatch : validationMatches env.cfg cred validation
      · simp only [hmatch, Bool.not_true, Bool.false_eq_true, if_false, if_true]
        refine .perform_bind (fun _ => .inl rfl) fun ans => ?_
        cases ans with
        | error => exact .of_settled rfl rfl
        | ok => exact leased_ok rfl
      · simp only [hmatch, Bool.not_false, if_true]
        exact .of_settled rfl rfl

theorem leaseLocked_followsLogin (id : String) (force : Bool) :
    FollowsLogin env (Leased id) (leaseLocked env id force) (.redeemed id none) := by
  refine .perform_bind (fun _ => rfl) fun ans => ?_
  cases ans with
  | error err => exact .of_settled (failed_ticket id err) (failed_isOver id err)
  | ok cred =>
    refine .perform_bind (fun _ => .inr rfl) fun now => ?_
    split_ifs
    · exact refreshCredential_followsLogin now id cred
    · refine .perform_bind (fun _ => .inr rfl) fun ans => ?_
      cases ans with
      | error =>
        dsimp only
        split_ifs
        · -- the validation failed already, so whatever the refresh does is excused
          have hover : (LoginPhase.excused id).isOver := rfl
          refine Follows.mono (FollowsLogin.settled
            ((refreshCredential_within env now cred).mono (by decide)) hover) ?_
          rintro result phase rfl
          exact .of_settled rfl rfl
        · exact .of_settled rfl rfl
      | ok validation =>
        simp only [LoginPhase.next]
        by_cases hmatch : validationMatches env.cfg cred validation
        · simp only [hmatch, Bool.not_true, Bool.false_eq_true, if_false, if_true]
          refine .perform_bind (fun _ => .inl rfl) fun ans => ?_
          cases ans with
          | error => exact .of_settled rfl rfl
          | ok => exact leased_ok rfl
        · simp only [hmatch, Bool.not_false, if_true]
          exact .of_settled rfl rfl
    · exact leased_ok rfl

theorem lease_followsLogin (id : String) (force : Bool) :
    FollowsLogin env (Leased id) (lease env id force) (.redeemed id none) := by
  refine .perform_bind (fun _ => .inr rfl) fun _ => ?_
  refine Follows.bind (leaseLocked_followsLogin id force) fun result phase hphase => ?_
  refine .perform_bind (fun _ => .inr rfl) fun a => ?_
  rw [next_unlock]
  exact hphase

theorem answers_followsLogin {p : Handler Unit} (h : Within [.answer] p) (hover : phase.isOver) :
    FollowsLogin env (fun _ phase => phase.isOver = true) p phase := by
  refine Follows.mono (FollowsLogin.settled (h.mono (by decide)) hover) ?_
  rintro _ phase rfl
  exact hover

theorem next_createSession (cfg : ServerConfig) (hticket : phase.ticket = some id)
    (credID iid secret : String) (ttl : Duration) (a : Result (String × Time)) :
    (phase.next cfg (.auth (.createSession credID iid secret ttl)) a).ticket =
        some id ∧
      (phase.next cfg (.auth (.createSession credID iid secret ttl)) a).isOver := by
  cases phase with
  | idle => cases hticket
  | refused => cases hticket
  | redeemed =>
    cases hticket
    cases a with
    | error err => exact ⟨failed_ticket _ err, failed_isOver _ err⟩
    | ok => exact ⟨rfl, rfl⟩
  | _ => exact ⟨hticket, rfl⟩

theorem completeHandoff_followsLogin (req : MobileAuthCompleteRequest)
    (handoff : AuthHandoffRecord) :
    FollowsLogin env (fun _ phase => phase.isOver = true) (completeHandoff env req handoff)
      (.redeemed handoff.credentialID none) := by
  refine Follows.bind (lease_followsLogin handoff.credentialID false) ?_
  rintro result phase ⟨hticket, herror⟩
  cases result with
  | error err =>
    have hover := herror err rfl
    refine .perform_bind ⟨hticket, inProgress_of_isOver hover⟩ fun ans => ?_
    rw [next_over hover]
    exact answers_followsLogin (writeOAuthLeaseError_within err) hover
  | ok =>
    refine .perform_bind hticket fun ans => ?_
    obtain ⟨hticket', hover⟩ := next_createSession env.cfg hticket
      handoff.credentialID req.installationID req.deviceSecret env.cfg.authSessionTTL ans
    cases ans with
    | error =>
      refine .perform_bind ⟨hticket', inProgress_of_isOver hover⟩ fun ans => ?_
      rw [next_over hover]
      refine answers_followsLogin ?_ hover
      split_ifs <;> exact .last rfl
    | ok => exact answers_followsLogin (.last rfl) hover

/-- A login in progress ends over, and after the rate limiter not idle. -/
def Task.EndsIn (env : Env) : Task → LoginPhase → Prop
  | .completeMobileAuth request, phase => phase.inProgress = false ∧
      (env.cfg.authEnabled →
        validateMobileDevice request.installationID request.deviceSecret = .ok () →
        phase.isOver)
  | _, phase => phase.inProgress = false

theorem completeMobileAuth_followsLogin (req : MobileAuthCompleteRequest) :
    FollowsLogin env (fun _ => (Task.completeMobileAuth req).EndsIn env)
      (completeMobileAuth env req) .idle := by
  have hresp : ∀ status text, Within [.answer] (respond status text) := fun _ _ => .last rfl
  have hends : ∀ (p : Handler Unit) (phase : LoginPhase),
      FollowsLogin env (fun _ phase => phase.isOver = true) p phase →
      FollowsLogin env (fun _ => (Task.completeMobileAuth req).EndsIn env) p phase :=
    fun _ _ h => Follows.mono h fun _ _ hover =>
      ⟨inProgress_of_isOver hover, fun _ _ => hover⟩
  unfold completeMobileAuth withAuthBroker
  split
  · split
    · rename_i err hinvalid
      refine Follows.mono (FollowsLogin.unticketed (hresp _ _) rfl rfl)
        fun _ phase hticket => ⟨inProgress_of_ticket_none hticket, fun _ hvalid => ?_⟩
      rw [hinvalid] at hvalid
      cases hvalid
    · refine .perform_bind (fun h => by cases h) fun allowed => ?_
      cases allowed with
      | false => exact hends _ _ (answers_followsLogin (.last rfl) rfl)
      | true =>
        refine .perform_bind rfl fun ans => hends _ _ ?_
        cases ans with
        | error err => exact answers_followsLogin (writeAuthRecordError_within err) rfl
        | ok handoff => exact completeHandoff_followsLogin req handoff
  · rename_i hdisabled
    exact Follows.mono (FollowsLogin.unticketed (hresp _ _) rfl rfl)
      fun _ phase hticket => ⟨inProgress_of_ticket_none hticket, fun hon =>
        absurd hon hdisabled⟩

theorem code_followsLogin (env : Env) (t : Task) :
    FollowsLogin env (fun _ => t.EndsIn env) (t.code env) .idle := by
  cases t with
  | completeMobileAuth req => exact completeMobileAuth_followsLogin req
  | _ =>
    exact Follows.mono (FollowsLogin.unticketed (code_within env _) rfl rfl)
      fun _ _ hticket => inProgress_of_ticket_none hticket

/-- The phase of a process. -/
def loginPhase (cfg : ServerConfig) (hist : List ServerEvent) (pid : Nat) : LoginPhase :=
  track .idle (fun _ => LoginPhase.next cfg) hist pid

theorem loginPhase_self :
    loginPhase cfg (e :: hist) e.pid = (loginPhase cfg hist e.pid).next cfg e.op e.ans :=
  track_self e hist

theorem loginPhase_other
    (h : e.pid ≠ pid) : loginPhase cfg (e :: hist) pid = loginPhase cfg hist pid :=
  track_other h hist

theorem ensures_allows {may : ServerView → Task → Bool} {G : ServerCondition} :
    (server env may).Ensures (started w) G fun v e =>
      G v e ∧ (loginPhase env.cfg v.hist e.pid).Allows e.op := by
  have hcode : ∀ t, Follows (LoginPhase.next env.cfg) LoginPhase.Allows
      (fun _ => Task.EndsIn env t) ((server env may).code t) .idle :=
    code_followsLogin env
  exact ensures_follows hcode rfl rfl

/-! ## Changes of the phase -/

/-- The handoff that a call consumed. -/
def redeemedHandoff : (call : Call) → call.Ans → Option AuthHandoffRecord
  | .auth (.consumeHandoff _ _ _ _), .ok record => some record
  | _, _ => none

/-- The credential that a call did not find. -/
def missingCredential : (call : Call) → call.Ans → Option String
  | .auth (.getCredential id), .error .authNotFound => some id
  | .auth (.createSession id _ _ _), .error .authNotFound => some id
  | _, _ => none

theorem next_createSession_of_eq {iid secret : String}
    (hcall : call = .auth (.createSession credID iid secret ttl))
    (hticket : phase.ticket = some id) : (phase.next cfg call a).inProgress = false := by
  subst hcall
  exact inProgress_of_isOver (next_createSession cfg hticket credID iid secret ttl a).2

section Next

variable {phase : LoginPhase}

theorem next_ticket (h : (phase.next cfg call a).ticket = some id) :
    phase.ticket = some id ∨ ∃ row, redeemedHandoff call a = some row ∧ row.credentialID = id := by
  unfold LoginPhase.next at h
  split at h
  · cases h
  · cases h
  · rename_i handoff
    cases h
    exact .inr ⟨handoff, rfl, rfl⟩
  · exact .inl h
  · rw [failed_ticket] at h
    exact .inl h
  · exact .inl h
  · exact .inl h
  · split_ifs at h <;> exact .inl h
  · exact .inl h
  · exact .inl h
  · rw [failed_ticket] at h
    exact .inl h
  · exact .inl h

theorem failed_eq_lost {id' : String} (h : LoginPhase.failed id err = .lost id') :
    err = .authNotFound := by
  unfold LoginPhase.failed at h
  split_ifs at h with herr
  exact herr

theorem next_lost (h : phase.next cfg call a = .lost id) :
    phase = .lost id ∨ phase.inProgress ∧ (missingCredential call a).isSome := by
  unfold LoginPhase.next at h
  split at h
  · cases h
  · cases h
  · cases h
  · cases h
  · rw [failed_eq_lost h]
    exact .inr ⟨rfl, rfl⟩
  · cases h
  · cases h
  · split_ifs at h
  · cases h
  · cases h
  · rw [failed_eq_lost h]
    exact .inr ⟨rfl, rfl⟩
  · exact .inl h

end Next

theorem exec_auth_answer {call : AuthCall} {a : call.Ans}
    (h : exec env (.auth call) x w = some (a, w')) : (execAuth env x call w.auth).1 = a :=
  congrArg Prod.fst (Option.some.inj h)

theorem exec_redeemedHandoff (h : exec env call x w = some (a, w'))
    (hrow : redeemedHandoff call a = some row) :
    call.effect = .redeem ∧ ∃ key, w.auth.handoffs.lookup key = some row ∧
      w'.auth.handoffs.lookup key = none := by
  unfold redeemedHandoff at hrow
  split at hrow
  · cases hrow
    obtain ⟨hans, rfl⟩ := Prod.mk.inj (Option.some.inj h)
    have hredeem := execAuth_consumeHandoff hans
    exact ⟨rfl, _, hredeem.stored, hredeem.deleted⟩
  · cases hrow

theorem exec_missingCredential
    (h : exec env call x w = some (a, w')) (hid : missingCredential call a = some id) :
    w.auth.credentials.lookup id = none := by
  unfold missingCredential at hid
  split at hid
  · cases hid
    exact execAuth_getCredential_notFound (exec_auth_answer h)
  · cases hid
    exact execAuth_createSession_notFound (exec_auth_answer h)
  · cases hid

theorem LoginPhase.Allows.missing (h : phase.Allows call) (hprog : phase.inProgress)
    (hid : missingCredential call a = some id) : phase.ticket = some id := by
  unfold missingCredential at hid
  split at hid
  · cases hid
    exact h hprog
  · cases hid
    exact h
  · cases hid

theorem LoginPhase.Allows.sweeps {call : AuthCall} {backend : Backend}
    (h : phase.Allows (.auth call)) (hprog : phase.inProgress) :
    call.sweeps backend = false ∨ ∃ id iid secret ttl, call = .createSession id iid secret ttl := by
  have hother : ∀ {effect : Effect}, effect = .writeCredential ∨ effect = .other →
      effect ≠ .pend ∧ effect ≠ .handOff ∧ effect ≠ .issueCredential ∧ effect ≠ .revoke := by
    rintro effect (rfl | rfl) <;> decide
  cases call with
  | createSession => exact .inr ⟨_, _, _, _, rfl⟩
  | putPending => exact absurd rfl (hother (h hprog)).1
  | putHandoff => exact absurd rfl (hother (h hprog)).2.1
  | putCredentialAndHandoff =>
    exact absurd rfl (hother (h hprog)).2.2.1
  | revokeInstallation =>
    exact absurd rfl (hother (h hprog)).2.2.2
  | revokeAccount => exact absurd rfl (hother (h hprog)).2.2.2
  | _ => exact .inl rfl

/-! ## Who owns a credential -/

/-- A handoff, or the login that consumed it. -/
inductive Owner
  | handoff (key : String)
  | login (pid : Nat)

/-- The owner refers to the credential. -/
def Owns (cfg : ServerConfig) (v : ServerView) (id : String) : Owner → Prop
  | .handoff key => ∃ r, v.state.auth.handoffs.lookup key = some r ∧
      r.credentialID = id
  | .login pid => (loginPhase cfg v.hist pid).ticket = some id

theorem ne_putHandoff {t : Task} (h : t.effects.contains call.effect)
    (code : String) (row : AuthHandoffRecord) : call ≠ .auth (.putHandoff code row) := by
  rintro rfl
  cases t <;> cases h

theorem exec_handoff (h : exec env call x w = some (a, w'))
    (hcall : ∀ code row, call ≠ .auth (.putHandoff code row))
    (hr : w'.auth.handoffs.lookup key = some row) :
    w.auth.handoffs.lookup key = some row ∨
      ∃ cred code, call = .auth (.putCredentialAndHandoff cred code row) ∧
        key = env.hashSecret code ∧ row.credentialID = cred.id := by
  rw [exec_auth h] at hr
  cases call with
  | auth =>
    rcases execAuth_handoff (fun code row hc => hcall code row (by rw [hc])) hr with
      hr | ⟨cred, code, rfl, hkey, hid⟩
    · exact .inl hr
    · exact .inr ⟨cred, code, rfl, hkey, hid⟩
  | _ => exact .inl hr

theorem exec_session {row : AuthSessionRecord} (h : exec env call x w = some (a, w'))
    (hr : w'.auth.sessions.lookup key = some row) :
    (∃ key0 row0, w.auth.sessions.lookup key0 = some row0 ∧
        row0.credentialID = row.credentialID ∧
        row0.installationID = row.installationID ∧ row0.deviceHash = row.deviceHash) ∨
      ∃ secret ttl, call =
          .auth (.createSession row.credentialID row.installationID secret ttl) ∧
        row.deviceHash = env.hashSecret secret := by
  rw [exec_auth h] at hr
  cases call with
  | auth =>
    rcases execAuth_session hr with hr | ⟨secret, ttl, rfl, hdev⟩
    · exact .inl hr
    · exact .inr ⟨secret, ttl, rfl, hdev⟩
  | _ => exact .inl ⟨key, row, hr, rfl, rfl, rfl⟩

/-- **How ownership changes.** An owner was one before, or the credential was issued with its
handoff, or the handoff was consumed. -/
theorem Owns.after {o : Owner} (hexec : exec env e.op x v.state = some (e.ans, s))
    (hwithin : e.task.effects.contains e.op.effect) (h : Owns env.cfg (v.after e s) id o) :
    Owns env.cfg v id o ∨
      (∃ cred code row, e.op = .auth (.putCredentialAndHandoff cred code row) ∧
        id = cred.id ∧ o = .handoff (env.hashSecret code)) ∨
      e.op.effect = .redeem ∧ o = .login e.pid ∧ ∃ key, Owns env.cfg v id (.handoff key) ∧
        ¬ Owns env.cfg (v.after e s) id (.handoff key) := by
  cases o with
  | handoff =>
    obtain ⟨row, hrow, hid⟩ := h
    rcases exec_handoff hexec (ne_putHandoff hwithin) hrow with
      hold | ⟨cred, code, hop, hkey, hcred⟩
    · exact .inl ⟨row, hold, hid⟩
    · exact .inr (.inl ⟨cred, code, row, hop, hid ▸ hcred, congrArg _ hkey⟩)
  | login pid =>
    by_cases hpid : e.pid = pid
    · subst hpid
      rw [Owns, View.after_hist, loginPhase_self] at h
      rcases next_ticket h with hold | ⟨row, hredeem, hid⟩
      · exact .inl hold
      · obtain ⟨heff, key, hbefore, hafter⟩ := exec_redeemedHandoff hexec hredeem
        refine .inr (.inr ⟨heff, rfl, key, ⟨row, hbefore, hid⟩, ?_⟩)
        rintro ⟨row', hrow', -⟩
        rw [View.after_state, hafter] at hrow'
        cases hrow'
    · rw [Owns, View.after_hist, loginPhase_other hpid] at h
      exact .inl h

/-! ## The invariant -/

/-- **A credential has one owner**, and no session while it has one. -/
structure Ticketed (cfg : ServerConfig) (w : World) (v : ServerView) : Prop where
  backed : Backed v.state.auth
  unique : ∀ {id o o'}, Owns cfg v id o → Owns cfg v id o' → o = o'
  issued : ∀ {id o}, Owns cfg v id o → id ∈ issuedIDs w v.hist
  sessionIssued : ∀ {key r}, v.state.auth.sessions.lookup key = some r →
    r.credentialID ∈ issuedIDs w v.hist
  sessions : ∀ {key r o}, v.state.auth.sessions.lookup key = some r →
    Owns cfg v r.credentialID o →
    ∃ pid, o = .login pid ∧ (loginPhase cfg v.hist pid).inProgress = false
  stored : ∀ {pid id}, (loginPhase cfg v.hist pid).inProgress →
    (loginPhase cfg v.hist pid).ticket = some id → v.state.auth.credentials.lookup id ≠ none
  found : ∀ {pid id}, loginPhase cfg v.hist pid ≠ .lost id

/-- Fresh identifiers, and nobody sweeps while another login is between its handoff and its
session. -/
def LoginsApart (env : Env) (w : World) : ServerCondition := fun v e =>
  freshCredential w v e ∧ ∀ pid call, pid ≠ e.pid →
    (loginPhase env.cfg v.hist pid).inProgress → e.op = .auth call →
    call.sweeps env.backend = false

namespace Ticketed

theorem not_issue (hfresh : freshCredential w v e) (hid : id ∈ issuedIDs w v.hist)
    (hop : e.op = .auth (.putCredentialAndHandoff cred code row)) : id ≠ cred.id := by
  rintro rfl
  exact not_mem_of_freshCredential hfresh hop hid

theorem unique_after (hv : Ticketed env.cfg w v) (hexec : exec env e.op x v.state = some (e.ans, s))
    (hwithin : e.task.effects.contains e.op.effect) (hfresh : freshCredential w v e) {o o' : Owner}
    (ho : Owns env.cfg (v.after e s) id o) (ho' : Owns env.cfg (v.after e s) id o') : o = o' := by
  rcases ho.after hexec hwithin with hold | ⟨cred, code, row, hop, hid, rfl⟩ |
    ⟨heff, rfl, key, hkey, hgone⟩
  · rcases ho'.after hexec hwithin with hold' | ⟨cred, code, row, hop, hid, rfl⟩ |
      ⟨heff, rfl, key, hkey, hgone⟩
    · exact hv.unique hold hold'
    · exact absurd hid (not_issue hfresh (hv.issued hold) hop)
    · -- the handoff that was consumed is no owner any more
      rw [hv.unique hold hkey] at ho
      exact absurd ho hgone
  · rcases ho'.after hexec hwithin with hold' | ⟨_, _, _, hop', _, rfl⟩ | ⟨heff, -, -⟩
    · exact absurd hid (not_issue hfresh (hv.issued hold') hop)
    · rw [hop] at hop'
      cases hop'
      rfl
    · rw [hop] at heff
      cases heff
  · rcases ho'.after hexec hwithin with hold' | ⟨_, _, _, hop', _, rfl⟩ | ⟨-, rfl, -⟩
    · rw [hv.unique hold' hkey] at ho'
      exact absurd ho' hgone
    · rw [hop'] at heff
      cases heff
    · rfl

theorem issued_after (hv : Ticketed env.cfg w v) (hexec : exec env e.op x v.state = some (e.ans, s))
    (hwithin : e.task.effects.contains e.op.effect) {o : Owner}
    (ho : Owns env.cfg (v.after e s) id o) : id ∈ issuedIDs w (e :: v.hist) := by
  rcases ho.after hexec hwithin with hold | ⟨cred, code, row, hop, rfl, -⟩ |
    ⟨-, -, key, hkey, -⟩
  · exact mem_issuedIDs_cons (hv.issued hold)
  · exact mem_issuedIDs_issue hop
  · exact mem_issuedIDs_cons (hv.issued hkey)

theorem settled_after {cfg : ServerConfig} (hticket : (loginPhase cfg v.hist pid).ticket = some id)
    (hprog : (loginPhase cfg v.hist pid).inProgress = false) :
    loginPhase cfg (e :: v.hist) pid = loginPhase cfg v.hist pid := by
  by_cases hpid : e.pid = pid
  · subst hpid
    rw [loginPhase_self]
    exact next_settled hticket hprog e.op e.ans
  · exact loginPhase_other hpid

variable (hv : Ticketed env.cfg w v)

include hv

theorem sessions_after (hexec : exec env e.op x v.state = some (e.ans, s))
    (hwithin : e.task.effects.contains e.op.effect) (hfresh : freshCredential w v e)
    (hmay : (loginPhase env.cfg v.hist e.pid).Allows e.op) {row : AuthSessionRecord} {o : Owner}
    (hrow : s.auth.sessions.lookup key = some row)
    (ho : Owns env.cfg (v.after e s) row.credentialID o) :
    ∃ pid, o = .login pid ∧ (loginPhase env.cfg (e :: v.hist) pid).inProgress = false := by
  rcases exec_session hexec hrow with ⟨key0, row0, hrow0, hid, -⟩ |
    ⟨secret, ttl, hop, -⟩
  · rw [← hid] at ho
    rcases ho.after hexec hwithin with hold | ⟨cred, code, handoff, hop, hissue, -⟩ |
      ⟨-, -, key', hkey', -⟩
    · obtain ⟨pid, rfl, hprog⟩ := hv.sessions hrow0 hold
      rw [← settled_after hold hprog] at hprog
      exact ⟨pid, rfl, hprog⟩
    · exact absurd hissue (not_issue hfresh (hv.sessionIssued hrow0) hop)
    · obtain ⟨pid, hpid, -⟩ := hv.sessions hrow0 hkey'
      cases hpid
  · -- the process that opened the session is the owner, and its login is over
    rw [hop] at hmay
    have hown : Owns env.cfg v row.credentialID (.login e.pid) := hmay
    rcases ho.after hexec hwithin with hold | ⟨_, _, _, hop', -, -⟩ | ⟨heff, -, -⟩
    · refine ⟨e.pid, hv.unique hold hown, ?_⟩
      rw [loginPhase_self]
      exact next_createSession_of_eq hop hown
    · rw [hop] at hop'
      cases hop'
    · rw [hop] at heff
      cases heff

theorem sessionIssued_after (hexec : exec env e.op x v.state = some (e.ans, s))
    (hmay : (loginPhase env.cfg v.hist e.pid).Allows e.op) {row : AuthSessionRecord}
    (hrow : s.auth.sessions.lookup key = some row) :
    row.credentialID ∈ issuedIDs w (e :: v.hist) := by
  rcases exec_session hexec hrow with ⟨key0, row0, hrow0, hid, -⟩ |
    ⟨secret, ttl, hop, -⟩
  · rw [← hid]
    exact mem_issuedIDs_cons (hv.sessionIssued hrow0)
  · rw [hop] at hmay
    have hown : Owns env.cfg v row.credentialID (.login e.pid) := hmay
    exact mem_issuedIDs_cons (hv.issued hown)

theorem keeps (hexec : exec env e.op x v.state = some (e.ans, s))
    {o : Owner} (ho : Owns env.cfg v id o)
    (hopen : ∀ pid, o = .login pid → (loginPhase env.cfg v.hist pid).inProgress)
    (hsweeps : ∀ call, e.op = .auth call → call.sweeps env.backend = false)
    (hdrop : e.op ≠ .auth (.deleteCredentialIfUnused id))
    (hid : v.state.auth.credentials.lookup id ≠ none) : s.auth.credentials.lookup id ≠ none := by
  rw [exec_auth hexec]
  cases hop : e.op with
  | auth call =>
    refine execAuth_keeps_credential (hsweeps call hop) (fun hcall => hdrop (by rw [hop, hcall]))
      (fun key row hrow hrid => ?_) hid
    rw [← hrid] at ho
    obtain ⟨pid, rfl, hover⟩ := hv.sessions hrow ho
    rw [hopen pid rfl] at hover
    cases hover
  | _ => exact hid

theorem stored_after (hexec : exec env e.op x v.state = some (e.ans, s))
    (hapart : LoginsApart env w v e) (hmay : (loginPhase env.cfg v.hist e.pid).Allows e.op)
    (hprog : (loginPhase env.cfg (e :: v.hist) pid).inProgress)
    (hticket : (loginPhase env.cfg (e :: v.hist) pid).ticket = some id) :
    s.auth.credentials.lookup id ≠ none := by
  by_cases hpid : e.pid = pid
  · subst hpid
    rw [loginPhase_self] at hprog hticket
    rcases next_ticket hticket with hold | ⟨row, hredeem, rfl⟩
    · have hopen : (loginPhase env.cfg v.hist e.pid).inProgress := by
        by_contra hover
        rw [next_settled hold (Bool.eq_false_iff.mpr hover)] at hprog
        exact hover hprog
      refine hv.keeps hexec (o := .login e.pid) hold ?_ ?_ ?_ (hv.stored hopen hold)
      · rintro pid ⟨⟩
        exact hopen
      · intro call hop
        rw [hop] at hmay
        rcases hmay.sweeps hopen with hsweeps | ⟨id', iid, secret, ttl, rfl⟩
        · exact hsweeps
        · rw [(next_createSession_of_eq hop hold)] at hprog
          cases hprog
      · intro hop
        rw [hop] at hmay
        exact absurd hopen (Bool.eq_false_iff.mp hmay.2)
    · obtain ⟨heff, key, hbefore, -⟩ := exec_redeemedHandoff hexec hredeem
      refine hv.keeps hexec (o := .handoff key) ⟨row, hbefore, rfl⟩ ?_ ?_ ?_
        (hv.backed key row hbefore)
      · rintro pid ⟨⟩
      · intro call hop
        rw [hop] at heff
        cases call <;> first | rfl | cases heff
      · intro hop
        rw [hop] at heff
        cases heff
  · rw [loginPhase_other hpid] at hprog hticket
    refine hv.keeps hexec (o := .login pid) hticket ?_ ?_ ?_ (hv.stored hprog hticket)
    · rintro pid ⟨⟩
      exact hprog
    · intro call hop
      exact hapart.2 pid call (Ne.symm hpid) hprog hop
    · intro hop
      rw [hop] at hmay
      have hown : Owns env.cfg v id (.login e.pid) := hmay.1
      have hown' : Owns env.cfg v id (.login pid) := hticket
      exact hpid (Owner.login.inj (hv.unique hown hown'))

theorem found_after (hexec : exec env e.op x v.state = some (e.ans, s))
    (hmay : (loginPhase env.cfg v.hist e.pid).Allows e.op) :
    loginPhase env.cfg (e :: v.hist) pid ≠ .lost id := by
  intro hlost
  by_cases hpid : e.pid = pid
  · subst hpid
    rw [loginPhase_self] at hlost
    rcases next_lost hlost with hold | ⟨hprog, hmiss⟩
    · exact hv.found hold
    · obtain ⟨id', hid'⟩ := Option.isSome_iff_exists.mp hmiss
      exact hv.stored hprog (hmay.missing hprog hid') (exec_missingCredential hexec hid')
  · rw [loginPhase_other hpid] at hlost
    exact hv.found hlost

theorem after (hexec : exec env e.op x v.state = some (e.ans, s))
    (hwithin : e.task.effects.contains e.op.effect) (hapart : LoginsApart env w v e)
    (hmay : (loginPhase env.cfg v.hist e.pid).Allows e.op) :
    Ticketed env.cfg w (v.after e s) where
  backed := by
    rw [View.after_state, exec_auth hexec]
    cases hop : e.op with
    | auth =>
      refine execAuth_backed hv.backed fun code row hcall => ?_
      exact ne_putHandoff hwithin code row (by rw [hop, hcall])
    | _ => exact hv.backed
  unique := hv.unique_after hexec hwithin hapart.1
  issued := hv.issued_after hexec hwithin
  sessionIssued := hv.sessionIssued_after hexec hmay
  sessions := hv.sessions_after hexec hwithin hapart.1 hmay
  stored := hv.stored_after hexec hapart hmay
  found := hv.found_after hexec hmay

end Ticketed

/-! ## Logins -/

/-- At the start handoffs and sessions have credentials, and a credential has one handoff, or
sessions. -/
structure LoginsOpening (s : AuthDiskState) : Prop where
  backed : Backed s
  once : ∀ {key key' r r'}, s.handoffs.lookup key = some r →
    s.handoffs.lookup key' = some r' → r.credentialID = r'.credentialID → key = key'
  sessionBacked : ∀ {key r}, s.sessions.lookup key = some r →
    s.credentials.lookup r.credentialID ≠ none
  apart : ∀ {key key' sess r}, s.sessions.lookup key = some sess →
    s.handoffs.lookup key' = some r → sess.credentialID ≠ r.credentialID

theorem LoginsOpening.ticketed (hw : LoginsOpening w.auth) : Ticketed cfg w (started w).toView := by
  have hkeys : ∀ {id}, w.auth.credentials.lookup id ≠ none → id ∈ issuedIDs w [] := by
    intro id hid
    obtain ⟨c, hc⟩ := Option.ne_none_iff_exists'.mp hid
    exact AList.mem_keys.mp (AList.lookup_isSome.mp (Option.isSome_of_eq_some hc))
  -- no process holds a ticket yet
  have howns : ∀ {id o}, Owns cfg (started w).toView id o → ∃ key row, o = .handoff key ∧
      w.auth.handoffs.lookup key = some row ∧ row.credentialID = id := by
    rintro id (key | pid) ho
    · obtain ⟨row, hrow, hid⟩ := ho
      exact ⟨key, row, rfl, hrow, hid⟩
    · cases ho
  refine ⟨hw.backed, ?_, ?_, ?_, ?_, ?_, ?_⟩
  · intro id o o' ho ho'
    obtain ⟨key, row, rfl, hrow, hid⟩ := howns ho
    obtain ⟨key', row', rfl, hrow', hid'⟩ := howns ho'
    rw [hw.once hrow hrow' (hid.trans hid'.symm)]
  · intro id o ho
    obtain ⟨key, row, rfl, hrow, rfl⟩ := howns ho
    exact hkeys (hw.backed key row hrow)
  · intro key row hrow
    exact hkeys (hw.sessionBacked hrow)
  · intro key row o hrow ho
    obtain ⟨key', row', rfl, hrow', hid⟩ := howns ho
    exact absurd hid.symm (hw.apart hrow hrow')
  · intro pid id hprog
    cases hprog
  · intro pid id hlost
    cases hlost

/-! ### What a login needs -/

/-- The handoff is stored for the device and the state, in time. -/
def validHandoff (env : Env) (now : Time) (code installationID deviceSecret state : String)
    (s : AuthDiskState) : Bool :=
  (s.handoffs.lookup (env.hashSecret code)).any fun record =>
    decide (now ≤ record.expiresAt) && record.installationID == installationID &&
      secureHashEqual record.deviceHash (env.hashSecret deviceSecret) &&
      secureHashEqual record.stateHash (env.hashSecret state)

/-- No live session under another secret, room for one more, and a new random token. -/
def mayOpen (env : Env) (x : Choice) (installationID deviceSecret : String) (s : AuthDiskState) :
    Bool :=
  (s.sessions.rows.all fun session => session.installationID != installationID ||
      decide (x.now > session.expiresAt) ||
      secureHashEqual session.deviceHash (env.hashSecret deviceSecret)) &&
    decide ((s.sessions.select fun _ session => !(x.now > session.expiresAt ||
      session.installationID == installationID)).count < maxAuthSessions) &&
    (randomToken "fsv1_" x.token).any fun token => (s.sessions.lookup (env.hashSecret token)).isNone

/-- **Nothing but a missing credential stands in the way of a login**: the database answers, the
rate limiter admits the request, the handoff is valid, Twitch confirms the account, and a session
may be created. -/
def granted (env : Env) (v : ServerView) (e : ServerEvent) (x : Choice) : Bool :=
  x.fault.isNone && match e with
    | ⟨_, _, .env (.takeRateLimit _ _), allowed⟩ => allowed
    | ⟨_, _, .auth (.consumeHandoff code installationID deviceSecret state), _⟩ =>
      validHandoff env x.now code installationID deviceSecret state v.state.auth
    | ⟨_, _, .twitch (.requestToken _), .error _⟩ => false
    | ⟨_, _, .twitch (.validate _), .error _⟩ => false
    | ⟨pid, _, .twitch (.validate _), .ok validation⟩ =>
      match loginPhase env.cfg v.hist pid with
      | .redeemed _ (some read) => validationMatches env.cfg read validation
      | _ => true
    | ⟨_, _, .auth (.createSession _ installationID deviceSecret _), _⟩ =>
      mayOpen env x installationID deviceSecret v.state.auth
    | _ => true

section Granted

variable {iid secret : String} {s : AuthDiskState}

section MayOpen

variable (h : mayOpen env x iid secret s)

include h

theorem not_foreign_of_mayOpen
    {sess : AuthSessionRecord} (hsess : s.sessions.lookup key = some sess)
    (hiid : sess.installationID = iid) (hlive : x.now ≤ sess.expiresAt) :
    secureHashEqual sess.deviceHash (env.hashSecret secret) := by
  simp only [mayOpen, Bool.and_eq_true, List.all_eq_true] at h
  have hsession := h.1.1 sess (mem_rows_of_lookup hsess)
  have hcur : ¬x.now > sess.expiresAt := not_lt.mpr hlive
  simpa [hiid, hcur] using hsession

theorem limit_of_mayOpen :
    (s.sessions.select fun _ sess => !(x.now > sess.expiresAt ||
      sess.installationID == iid)).count < maxAuthSessions := by
  simp only [mayOpen, Bool.and_eq_true] at h
  exact of_decide_eq_true h.1.2

theorem token_of_mayOpen :
    ∃ token, randomToken "fsv1_" x.token = some token ∧
      s.sessions.lookup (env.hashSecret token) = none := by
  simp only [mayOpen, Bool.and_eq_true, Option.any_eq_true, Option.isNone_iff_eq_none] at h
  exact h.2

theorem Memory.createSession_error
    (herr : (createSession env.hashSecret x.now x.token credID iid secret ttl s).1 = .error err) :
    err = .authNotFound := by
  obtain ⟨token, htoken, -⟩ := token_of_mayOpen h
  simp only [createSession, htoken] at herr
  split_ifs at herr with hmiss hforeign hlimit
  · cases herr
    rfl
  · obtain ⟨sess, hsess, hmis⟩ := List.any_eq_true.mp hforeign
    obtain ⟨key, hkey⟩ := mem_rows_iff.mp hsess
    simp only [Bool.and_eq_true, beq_iff_eq, Bool.not_eq_true', decide_eq_false_iff_not,
      not_lt] at hmis
    rw [not_foreign_of_mayOpen h hkey hmis.1.1 hmis.1.2] at hmis
    cases hmis.2
  · exact absurd hlimit (not_le.mpr (limit_of_mayOpen h))

theorem Postgres.createSession_error
    (herr : (createSession env.hashSecret x.now x.token credID iid secret ttl s).1 = .error err) :
    err = .authNotFound := by
  obtain ⟨token, htoken, hnew⟩ := token_of_mayOpen h
  have hown : ∀ {key sess}, s.sessions.lookup key = some sess → ¬sess.expiresAt < x.now →
      sess.installationID = iid → sess.deviceHash = env.hashSecret secret :=
    fun hsess hlive hiid =>
      eq_of_secureHashEqual (by simp [not_foreign_of_mayOpen h hsess hiid (not_lt.mp hlive)])
  simp only [createSession, htoken] at herr
  split_ifs at herr with hmiss hforeign hlimit hduplicate
  · cases herr
    rfl
  · obtain ⟨sess, hsess, hmis⟩ := List.any_eq_true.mp hforeign
    obtain ⟨key, hkey⟩ := mem_rows_iff.mp hsess
    rw [lookup_select, Option.filter_eq_some_iff] at hkey
    simp only [Bool.and_eq_true, beq_iff_eq, Bool.not_eq_true', decide_eq_false_iff_not,
      not_lt] at hmis hkey
    rw [not_foreign_of_mayOpen h hkey.1 hmis.1 hkey.2] at hmis
    cases hmis.2
  · -- the sessions that are left are those of the other installations
    refine absurd (Nat.lt_of_le_of_lt (count_le_of_lookup ?_) (limit_of_mayOpen h))
      (not_lt.mpr hlimit)
    intro key sess hsess
    simp only [lookup_select, Option.filter_eq_some_iff, Bool.not_eq_true',
      decide_eq_false_iff_not, Bool.and_eq_false_iff, beq_eq_false_iff_ne] at hsess
    obtain ⟨⟨hlookup, hlive⟩, hother⟩ := hsess
    have hiid : sess.installationID ≠ iid := by
      intro hiid
      rcases hother with hother | hother
      · exact hother hiid
      · exact hother (hown hlookup hlive hiid)
    rw [lookup_select, hlookup, Option.filter_some, if_pos (by simp [hiid, hlive])]
    exact Option.some_ne_none sess
  · simp [lookup_select, hnew] at hduplicate

end MayOpen

variable (hfault : x.fault = none)

include hfault

theorem execAuth_createSession_error (h : mayOpen env x iid secret s)
    (herr : (execAuth env x (.createSession credID iid secret ttl) s).1 = .error err) :
    err = .authNotFound := by
  rcases execAuth_unfaulted env hfault (.createSession credID iid secret ttl) s with heq | heq
  · rw [heq] at herr
    exact Memory.createSession_error h herr
  · rw [heq] at herr
    exact Postgres.createSession_error h herr

theorem execAuth_consumeHandoff_valid {state : String}
    (h : validHandoff env x.now code iid secret state s) :
    ∃ r, (execAuth env x (.consumeHandoff code iid secret state) s).1 = .ok r := by
  simp only [validHandoff, Option.any_eq_true, Bool.and_eq_true, decide_eq_true_iff,
    beq_iff_eq] at h
  obtain ⟨r, hlookup, ⟨⟨hcur, hiid⟩, hdev⟩, hstate⟩ := h
  have hcons : (Memory.consumeHandoff env.hashSecret x.now code iid secret state s).1 = .ok r := by
    simp only [Memory.consumeHandoff, hlookup]
    rw [if_neg (not_lt.mpr hcur), if_neg (by simp [hiid, hdev]), if_neg (by simp [hstate])]
  refine ⟨r, ?_⟩
  rcases execAuth_unfaulted env hfault (.consumeHandoff code iid secret state) s with heq | heq
  · rw [heq]
    exact hcons
  · rw [heq]
    exact hcons

theorem execAuth_getCredential_error
    (h : (execAuth env x (.getCredential id) s).1 = .error err) : err = .authNotFound := by
  have hget : Memory.getCredential id s = .error err := by
    rcases execAuth_unfaulted env hfault (.getCredential id) s with heq | heq
    · rw [heq] at h
      exact h
    · rw [heq] at h
      exact h
  unfold Memory.getCredential at hget
  split at hget <;> cases hget
  rfl

theorem execAuth_putCredential_ok (cred : AuthCredential) :
    (execAuth env x (.putCredential cred) s).1 = .ok () := by
  rcases execAuth_unfaulted env hfault (.putCredential cred) s with heq | heq
  · rw [heq]
    rfl
  · rw [heq]
    rfl

end Granted

/-- **A call that is granted turns nobody down.** -/
theorem turnedDown_after (h : granted env v e x) (hexec : exec env e.op x v.state = some (e.ans, s))
    (hphase : (loginPhase env.cfg v.hist e.pid).turnedDown = false) :
    (loginPhase env.cfg (e :: v.hist) e.pid).turnedDown = false := by
  obtain ⟨hfault, hgrant⟩ := Bool.and_eq_true_iff.mp h
  rw [Option.isNone_iff_eq_none] at hfault
  rw [loginPhase_self]
  obtain ⟨pid, task, call, ans⟩ := e
  dsimp only at hexec hphase hgrant ⊢
  generalize hp : loginPhase env.cfg v.hist pid = phase at hphase hgrant ⊢
  unfold LoginPhase.next
  split
  · cases hgrant
  · obtain ⟨r, hok⟩ := execAuth_consumeHandoff_valid hfault hgrant
    cases hok.symm.trans (exec_auth_answer hexec)
  · rfl
  · rfl
  · rw [execAuth_getCredential_error hfault (exec_auth_answer hexec)]
    rfl
  · cases hgrant
  · cases hgrant
  · dsimp only at hgrant
    rw [hp] at hgrant
    rw [if_pos hgrant]
    rfl
  · cases (execAuth_putCredential_ok hfault _).symm.trans (exec_auth_answer hexec)
  · rfl
  · rw [execAuth_createSession_error hfault hgrant (exec_auth_answer hexec)]
    rfl
  · exact hphase

/-- Logins are kept apart, and the calls of `pid` are granted. -/
def LoginGranted (env : Env) (w : World) (pid : Nat) : ServerRule := fun v e x _ =>
  LoginsApart env w v e ∧ (e.pid = pid → granted env v e x)

/-- **Logins do not destroy each other**, where nobody sweeps between another login's handoff and
its session: a credential stays stored until then, and a login of a valid device whose calls are
granted ends with a session. -/
theorem login_ends_with_session {may : ServerView → Task → Bool} {c : ServerConfiguration}
    {request : MobileAuthCompleteRequest} (hw : LoginsOpening w.auth) (hon : env.cfg.authEnabled)
    (hdev : validateMobileDevice request.installationID request.deviceSecret = .ok ())
    (h : (server env may).StepsUnder (LoginGranted env w pid) (started w) c) :
    (∀ pid id read, loginPhase env.cfg c.hist pid = .redeemed id read →
        c.state.auth.credentials.lookup id ≠ none) ∧
      (c.procs[pid]? = some ⟨.completeMobileAuth request, .ret ()⟩ →
        ∃ id, loginPhase env.cfg c.hist pid = .opened id) := by
  have hsteps : (server env may).Steps (LoginsApart env w) (started w) c :=
    StepsUnder.mono (fun _ _ _ _ _ h => h.1) h
  have hens : (server env may).Ensures (started w) (LoginsApart env w) fun v e =>
      (LoginsApart env w v e ∧ e.task.effects.contains e.op.effect) ∧
        (loginPhase env.cfg v.hist e.pid).Allows e.op :=
    ensures_within.trans ensures_allows
  have hc : Ticketed env.cfg w c.toView := by
    refine (hens.steps .refl hsteps).view_invariant ?_ hw.ticketed
    rintro v e x s hv hexec ⟨⟨hapart, hwithin⟩, hmay⟩
    exact hv.after hexec hwithin hapart hmay
  refine ⟨fun pid id read hphase => ?_, fun hproc => ?_⟩
  · exact hc.stored (by rw [hphase]; rfl) (by rw [hphase]; rfl)
  · have hcode : ∀ t, Follows (LoginPhase.next env.cfg) LoginPhase.Allows
        (fun _ => Task.EndsIn env t) ((server env may).code t) .idle :=
      code_followsLogin env
    have hends : (Task.completeMobileAuth request).EndsIn env (loginPhase env.cfg c.hist pid) :=
      hsteps.finished hcode rfl rfl hproc
    have hover := hends.2 hon hdev
    have hup : (loginPhase env.cfg c.hist pid).turnedDown = false := by
      refine h.view_invariant (I := fun v => (loginPhase env.cfg v.hist pid).turnedDown = false)
        (fun v e x s hv hexec hR => ?_) rfl
      by_cases hpid : e.pid = pid
      · subst hpid
        exact turnedDown_after (hR.2 rfl) hexec hv
      · rw [View.after_hist, loginPhase_other hpid]
        exact hv
    cases hphase : loginPhase env.cfg c.hist pid with
    | opened id => exact ⟨id, rfl⟩
    | lost => exact absurd hphase hc.found
    | idle =>
      rw [hphase] at hover
      cases hover
    | redeemed =>
      rw [hphase] at hover
      cases hover
    | refused =>
      rw [hphase] at hup
      cases hup
    | excused =>
      rw [hphase] at hup
      cases hup

/-! ## Runs that are written out -/

/-- Fresh identifiers, and sweeps only while no other login is in progress. -/
def sweepsAlone (env : Env) (w : World) (v : ServerView) (e : ServerEvent) : Bool :=
  freshCredential w v e &&
    match e.op with
    | .auth call => !call.sweeps env.backend ||
        v.hist.all fun e' => e'.pid == e.pid || !(loginPhase env.cfg v.hist e'.pid).inProgress
    | _ => true

theorem loginsApart_of_sweepsAlone (h : sweepsAlone env w v e) : LoginsApart env w v e := by
  obtain ⟨hfresh, halone⟩ := Bool.and_eq_true_iff.mp h
  refine ⟨hfresh, fun pid call hpid hprog hop => ?_⟩
  simp only [hop, Bool.or_eq_true, Bool.not_eq_true', List.all_eq_true, beq_iff_eq] at halone
  rcases halone with hsweeps | hall
  · exact hsweeps
  · have hcall : ∀ e' ∈ v.hist, e'.pid ≠ pid := by
      rintro e' he' rfl
      rcases hall e' he' with heq | hover
      · exact hpid heq
      · rw [hprog] at hover
        cases hover
    have hidle : loginPhase env.cfg v.hist pid = .idle := track_of_no_call hcall
    rw [hidle] at hprog
    cases hprog

/-- Two devices with a credential and a handoff each. -/
def twoHandoffs : World :=
  { auth :=
      { credentials := AList.insert "fc1_a" { viewerCredential with accessExpiresAt := 24 * hour }
          (AList.insert "fc1_b"
            { viewerCredential with id := "fc1_b", userID := "8", accessExpiresAt := 24 * hour } ∅)
        handoffs := AList.insert "#a"
          { credentialID := "fc1_a", installationID := "phone", deviceHash := "#" ++ phoneSecret
            appCallbackURI := "app", stateHash := "#state", createdAt := 0, expiresAt := hour }
          (AList.insert "#b"
            { credentialID := "fc1_b", installationID := "tablet", deviceHash := "#" ++ phoneSecret
              appCallbackURI := "app", stateHash := "#state", createdAt := 0, expiresAt := hour }
            ∅) } }

/-- The phone completes a login. -/
def phoneLogin : MobileAuthCompleteRequest :=
  { code := "a", state := "state", installationID := "phone", deviceSecret := phoneSecret }

/-- The tablet completes a login. -/
def tabletLogin : MobileAuthCompleteRequest :=
  { code := "b", state := "state", installationID := "tablet", deviceSecret := phoneSecret }

/-- Where two logins end. -/
def loginOutcome (env : Env) (c : ServerConfiguration) :
    LoginPhase × LoginPhase × Option (Nat × Nat) :=
  (loginPhase env.cfg c.hist 0, loginPhase env.cfg c.hist 1,
    c.hist.head?.bind fun e => match e.op with
      | .env (.respond status _) => some (e.pid, status)
      | _ => none)

theorem twoHandoffs_opening : LoginsOpening twoHandoffs.auth := by
  have hhandoffs : ∀ {key row}, twoHandoffs.auth.handoffs.lookup key = some row →
      key = "#a" ∧ row.credentialID = "fc1_a" ∨ key = "#b" ∧ row.credentialID = "fc1_b" := by
    intro key row hrow
    simp only [twoHandoffs, lookup_insert_eq] at hrow
    split_ifs at hrow with ha hb
    · cases hrow
      exact .inl ⟨ha, rfl⟩
    · cases hrow
      exact .inr ⟨hb, rfl⟩
    · cases hrow
  refine ⟨fun key row hrow => ?_, fun {key key' row row'} hrow hrow' hid => ?_,
    fun {key row} hrow => ?_, fun {key key' sess row} hsess => ?_⟩
  · rcases hhandoffs hrow with ⟨-, hid⟩ | ⟨-, hid⟩
    · rw [hid]
      decide
    · rw [hid]
      decide
  · rcases hhandoffs hrow with ⟨rfl, ha⟩ | ⟨rfl, hb⟩
    · rcases hhandoffs hrow' with ⟨rfl, -⟩ | ⟨rfl, hb⟩
      · rfl
      · rw [ha, hb] at hid
        exact absurd hid (by decide)
    · rcases hhandoffs hrow' with ⟨rfl, ha⟩ | ⟨rfl, -⟩
      · rw [ha, hb] at hid
        exact absurd hid (by decide)
      · rfl
  · cases hrow
  · cases hsess

/-- The request of a login that has ended. -/
def endedLogin : Proc Task Call Call.Ans → Option MobileAuthCompleteRequest
  | ⟨.completeMobileAuth request, .ret _⟩ => some request
  | _ => none

theorem endedLogin_iff {p : Proc Task Call Call.Ans} {req : MobileAuthCompleteRequest}
    (h : endedLogin p = some req) : p = ⟨.completeMobileAuth req, .ret ()⟩ := by
  unfold endedLogin at h
  split at h
  · cases h
    rfl
  · cases h

/-- The tablet's login runs to its end before the phone's handoff is consumed. -/
theorem logins_one_after_another : LoginsOpening twoHandoffs.auth ∧ ∀ backend : Backend, ∃ c,
    (anyServer backend).StepsUnder (LoginGranted (.sample backend) twoHandoffs 1)
        (started twoHandoffs) c ∧
      loginPhase (Env.sample backend).cfg c.hist 0 = .redeemed "fc1_a" none ∧
      c.procs[1]? = some ⟨.completeMobileAuth tabletLogin, .ret ()⟩ ∧
      c.state.auth.credentials.lookup "fc1_a" ≠ none ∧
      ∃ id, loginPhase (Env.sample backend).cfg c.hist 1 = .opened id := by
  refine ⟨twoHandoffs_opening, fun backend => ?_⟩
  have hplay : ((anyServer backend).playUnder
      (fun v e x _ => sweepsAlone (.sample backend) twoHandoffs v e &&
        (e.pid != 1 || granted (.sample backend) v e x))
      (start (.completeMobileAuth phoneLogin) ++ calls 0 1 {} ++
        start (.completeMobileAuth tabletLogin) ++ calls 1 8 {} ++ calls 0 1 {})
      (started twoHandoffs)).map (fun c => (loginOutcome (.sample backend) c,
        c.procs[1]?.bind endedLogin)) =
        some ((.redeemed "fc1_a" none, .opened "fc1_b", none), some tabletLogin) := by
    cases backend <;> decide
  obtain ⟨c, hrun, hres⟩ := Option.map_eq_some_iff.mp hplay
  simp only [loginOutcome, Prod.mk.injEq, Option.bind_eq_some_iff] at hres
  obtain ⟨⟨hphase, -, -⟩, p, hp, hended⟩ := hres
  rw [endedLogin_iff hended] at hp
  have hsteps : (anyServer backend).StepsUnder
      (LoginGranted (.sample backend) twoHandoffs 1) (started twoHandoffs) c := by
    refine StepsUnder.mono (fun v e x s _ h => ?_) (playUnder_steps hrun)
    obtain ⟨hapart, hgrant⟩ := Bool.and_eq_true_iff.mp h
    refine ⟨loginsApart_of_sweepsAlone hapart, fun hpid => ?_⟩
    rw [hpid] at hgrant
    exact hgrant
  have hdev : validateMobileDevice tabletLogin.installationID tabletLogin.deviceSecret = .ok () :=
    by decide
  obtain ⟨hstored, hends⟩ := login_ends_with_session twoHandoffs_opening rfl hdev hsteps
  exact ⟨c, hsteps, hphase, hp, hstored 0 "fc1_a" none hphase, hends hp⟩

/-- The tablet's login ends between the phone's handoff and its session, and the phone's fails. -/
theorem login_sweeps_other_login : LoginsOpening twoHandoffs.auth ∧ ∀ backend : Backend, ∃ c,
    (anyServer backend).StepsUnder (fun v e x _ =>
        (freshCredential twoHandoffs v e && granted (.sample backend) v e x) = true)
        (started twoHandoffs) c ∧
      loginOutcome (.sample backend) c = (.lost "fc1_a", .opened "fc1_b", some (0, 401)) ∧
      c.state.auth.credentials.lookup "fc1_a" = none := by
  refine ⟨twoHandoffs_opening, fun backend => ?_⟩
  have hplay : ((anyServer backend).playUnder
      (fun v e x _ => freshCredential twoHandoffs v e && granted (.sample backend) v e x)
      (start (.completeMobileAuth phoneLogin) ++ calls 0 2 {} ++
        start (.completeMobileAuth tabletLogin) ++ calls 1 8 {} ++ calls 0 5 {})
      (started twoHandoffs)).map (fun c => (loginOutcome (.sample backend) c,
        c.state.auth.credentials.lookup "fc1_a")) =
        some ((.lost "fc1_a", .opened "fc1_b", some (0, 401)), none) := by
    cases backend <;> decide
  obtain ⟨c, hrun, hres⟩ := Option.map_eq_some_iff.mp hplay
  obtain ⟨houtcome, hgone⟩ := Prod.mk.inj hres
  exact ⟨c, playUnder_steps hrun, houtcome, hgone⟩

end Ferventio
