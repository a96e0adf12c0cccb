import Ferventio.Auth.LiveSession
import Ferventio.Lib.OneTime
import Ferventio.OAuth.Login

/-!
# Where sessions come from

A login passes through three requests: `startMobileAuth` stores a pending login under a state, the
callback of the browser consumes it and stores a credential with a handoff code, and
`completeMobileAuth` consumes the handoff and opens the session. Pending logins and handoffs are
one-time records, under hashes of random tokens.

* **`session_provenance`**: every session goes back to one login of its device.
-/

namespace Ferventio

open Strings List System

variable {call : Call} {ttl : Duration} {pid : Nat} {row pending : PendingAuthRecord}
  {c : ServerConfiguration} {made : Sigma Call.Ans}
  {state credentialID installationID deviceSecret code : String} {may : ServerView → Task → Bool}
  {old : List ServerEvent} {w : World} {e : ServerEvent} {handoff : AuthHandoffRecord}
  {effect : Effect} {G : ServerCondition} {env : Env} {tr : Trace} {t : Task}

/-! ## What a request has done before it writes -/

/-- No call has the effect. -/
def Without (effect : Effect) (tr : Trace) : Prop :=
  ∀ made ∈ tr, made.1.effect ≠ effect

/-- The request starts a login of its device, under a state it was given. -/
def MayPend (env : Env) (t : Task) (tr : Trace) (state : String) (r : PendingAuthRecord) : Prop :=
  ∃ request, t = .startMobileAuth request ∧ ⟨.env (.randomToken "fs1_" 32), .ok state⟩ ∈ tr ∧
    r.installationID = request.installationID ∧
    r.deviceHash = env.hashSecret request.deviceSecret

/-- The callback for a login that it consumed; the handoff is for the same device and state. -/
def MayIssue (env : Env) (t : Task) (tr : Trace) (code : String) (r : AuthHandoffRecord) : Prop :=
  ∃ state denied twitchCode pending, t = .twitchOAuthCallback state denied twitchCode ∧
    ⟨.auth (.consumePending (trimSpace state)), .ok pending⟩ ∈ tr ∧
    ⟨.env (.randomToken "fh1_" 32), .ok code⟩ ∈ tr ∧
    r.installationID = pending.installationID ∧ r.deviceHash = pending.deviceHash ∧
    r.stateHash = env.hashSecret (trimSpace state)

/-- The request completes a login whose handoff it has consumed. -/
def MayOpen (t : Task) (tr : Trace) (credentialID installationID deviceSecret : String) : Prop :=
  ∃ request handoff, t = .completeMobileAuth request ∧
    ⟨.auth (.consumeHandoff (trimSpace request.code) request.installationID request.deviceSecret
      request.state), .ok handoff⟩ ∈ tr ∧
    credentialID = handoff.credentialID ∧ installationID = request.installationID ∧
    deviceSecret = request.deviceSecret

/-- What a request that has made the calls `tr` may write. -/
def SignInAllows (env : Env) (t : Task) (tr : Trace) : Call → Prop
  | .auth (.putPending state r) => MayPend env t tr state r ∧ Without .pend tr
  | .auth (.putHandoff _ _) => False
  | .auth (.putCredentialAndHandoff cred code r) =>
    r.credentialID = cred.id ∧ MayIssue env t tr code r ∧ Without .issueCredential tr
  | .auth (.createSession credentialID installationID deviceSecret _) =>
    MayOpen t tr credentialID installationID deviceSecret ∧ Without .openSession tr
  | _ => True

/-- The effects of a login. -/
def signInEffects : List Effect := [.pend, .handOff, .issueCredential, .openSession]

theorem signInAllows_of_effect (h : signInEffects.contains call.effect = false) :
    SignInAllows env t tr call := by
  unfold SignInAllows
  split
  · cases h
  · cases h
  · cases h
  · cases h
  · trivial

/-- The code of a task, as far as `SignInAllows` restricts it. -/
def FollowsSignIn (env : Env) (t : Task) {α : Type} (post : α → Trace → Prop)
    (p : Handler α) (tr : Trace) : Prop :=
  Follows remember (SignInAllows env t) post p tr

theorem Without.append {more : Trace} (h : Without effect tr)
    (hmore : Without effect more) : Without effect (tr ++ more) := by
  intro made hmade
  rcases mem_append.mp hmade with hmade | hmade
  · exact h made hmade
  · exact hmore made hmade

theorem Without.remember (h : Without effect tr)
    (hcall : (call.effect == effect) = false) (a : call.Ans) :
    Without effect (remember tr call a) := by
  refine h.append fun made hmade => ?_
  rw [mem_singleton.mp hmade]
  exact ne_of_beq_false hcall

theorem followsSignIn_of_within {effects : List Effect} {α : Type} {p : Handler α}
    (h : Within effects p)
    (heffs : effects.all (fun effect => !signInEffects.contains effect) = true) :
    FollowsSignIn env t
      (fun _ tr' => ∃ more, tr' = tr ++ more ∧
        ∀ effect, effects.contains effect = false → Without effect more) p tr := by
  refine (follows_returns tr h fun tr call hcall => signInAllows_of_effect ?_).mono ?_
  · have hall := all_eq_true.mp heffs call.effect (contains_iff_mem.mp hcall)
    simpa only [Bool.not_eq_true_eq_eq_false] using hall
  · rintro a tr' ⟨more, rfl, hreturns⟩
    refine ⟨more, rfl, fun effect heff made hmade hmatch => ?_⟩
    have hcall := hreturns.only h made hmade
    rw [hmatch, heff] at hcall
    cases hcall

theorem answers_followsSignIn {p : Handler Unit} (h : Within [.answer] p) :
    FollowsSignIn env t (fun _ _ => True) p tr :=
  (followsSignIn_of_within h rfl).mono fun _ _ _ => trivial

theorem mem_remember (h : made ∈ tr) (call : Call) (a : call.Ans) : made ∈ remember tr call a :=
  mem_append_left _ h

theorem mem_remember_self (call : Call) (a : call.Ans) : ⟨call, a⟩ ∈ remember tr call a :=
  mem_append_right _ mem_cons_self

theorem startMobileAuth_followsSignIn (req : MobileAuthStartRequest) :
    FollowsSignIn env (.startMobileAuth req) (fun _ _ => True) (startMobileAuth env req) [] := by
  unfold startMobileAuth withAuthBroker
  split
  · split
    · exact answers_followsSignIn (.last rfl)
    · refine .perform_bind trivial fun allowed => ?_
      split
      · exact answers_followsSignIn (.last rfl)
      · split
        · exact answers_followsSignIn (.last rfl)
        · refine .perform_bind trivial fun ans => ?_
          cases ans with
          | error => exact answers_followsSignIn (.last rfl)
          | ok =>
            refine .perform_bind trivial fun now => ?_
            refine .perform_bind ⟨⟨req, rfl, ?_, rfl, rfl⟩, ?_⟩ fun ans => ?_
            · exact mem_remember (mem_remember_self _ _) _ _
            · have hstart : Without .pend [] := fun made hmade => absurd hmade not_mem_nil
              exact ((hstart.remember rfl _).remember rfl _).remember rfl _
            · cases ans with
              | error =>
                dsimp only
                split_ifs <;> exact answers_followsSignIn (.last rfl)
              | ok => exact answers_followsSignIn (.last rfl)
  · exact answers_followsSignIn (.last rfl)

theorem twitchOAuthCallback_followsSignIn (state denied code : String) :
    FollowsSignIn env (.twitchOAuthCallback state denied code) (fun _ _ => True)
      (twitchOAuthCallback env state denied code) [] := by
  unfold twitchOAuthCallback withAuthBroker
  split
  · dsimp only
    split
    · exact answers_followsSignIn (.last rfl)
    · refine .perform_bind trivial fun ans => ?_
      cases ans with
      | error => exact answers_followsSignIn (.last rfl)
      | ok pending =>
        dsimp only
        split
        · exact answers_followsSignIn (.last rfl)
        · split
          · exact answers_followsSignIn (.last rfl)
          · refine Follows.bind (followsSignIn_of_within (exchangeCode_within env _) rfl) ?_
            rintro ans tr' ⟨more, rfl, hmore⟩
            cases ans with
            | error => exact answers_followsSignIn (.last rfl)
            | ok =>
              refine .perform_bind trivial fun ans => ?_
              cases ans with
              | error => exact answers_followsSignIn (.last rfl)
              | ok =>
                refine .perform_bind trivial fun now => ?_
                refine .perform_bind
                  ⟨rfl, ⟨state, denied, code, pending, rfl, ?_, ?_, rfl, rfl, rfl⟩, ?_⟩
                  fun ans => ?_
                · refine mem_remember (mem_remember (mem_append_left _ ?_) _ _) _ _
                  exact mem_remember_self _ _
                · exact mem_remember (mem_remember_self _ _) _ _
                · have hstart : Without .issueCredential [] :=
                    fun made hmade => absurd hmade not_mem_nil
                  exact (((hstart.remember rfl _).append (hmore _ rfl)).remember rfl _).remember
                    rfl _
                · cases ans with
                  | error => exact answers_followsSignIn (.last rfl)
                  | ok => exact answers_followsSignIn (.last rfl)
  · exact answers_followsSignIn (.last rfl)

theorem completeMobileAuth_followsSignIn (req : MobileAuthCompleteRequest) :
    FollowsSignIn env (.completeMobileAuth req) (fun _ _ => True)
      (completeMobileAuth env req) [] := by
  unfold completeMobileAuth withAuthBroker
  split
  · split
    · exact answers_followsSignIn (.last rfl)
    · refine .perform_bind trivial fun allowed => ?_
      split
      · exact answers_followsSignIn (.last rfl)
      · refine .perform_bind trivial fun ans => ?_
        cases ans with
        | error err => exact answers_followsSignIn (writeAuthRecordError_within err)
        | ok handoff =>
          refine Follows.bind
            (followsSignIn_of_within (lease_within env handoff.credentialID false) rfl) ?_
          rintro ans tr' ⟨more, rfl, hmore⟩
          cases ans with
          | error err =>
            exact .perform_bind trivial fun _ =>
              answers_followsSignIn (writeOAuthLeaseError_within err)
          | ok =>
            refine .perform_bind ⟨⟨req, handoff, rfl, ?_, rfl, rfl, rfl⟩, ?_⟩ fun ans => ?_
            · exact mem_append_left _ (mem_remember_self _ _)
            · have hstart : Without .openSession [] := fun made hmade => absurd hmade not_mem_nil
              exact ((hstart.remember rfl _).remember rfl _).append (hmore _ rfl)
            · cases ans with
              | error =>
                refine .perform_bind trivial fun _ => ?_
                split_ifs <;> exact answers_followsSignIn (.last rfl)
              | ok => exact answers_followsSignIn (.last rfl)
  · exact answers_followsSignIn (.last rfl)

theorem code_followsSignIn (env : Env) (t : Task) :
    FollowsSignIn env t (fun _ _ => True) (t.code env) [] := by
  cases t with
  | startMobileAuth req => exact startMobileAuth_followsSignIn req
  | twitchOAuthCallback state denied code =>
    exact twitchOAuthCallback_followsSignIn state denied code
  | completeMobileAuth req => exact completeMobileAuth_followsSignIn req
  | _ => exact (followsSignIn_of_within (code_within env _) rfl).mono fun _ _ _ => trivial

/-! ## The three kinds of one-time secrets -/

/-- The token that was drawn. -/
def randomTokenOf : (call : Call) → call.Ans → Option String
  | .env (.randomToken _ _), .ok token => some token
  | _, _ => none

/-- The token of an event. -/
def tokenOf (e : ServerEvent) : Option String := randomTokenOf e.op e.ans

/-- The random token was not returned before. -/
def freshToken (v : ServerView) (e : ServerEvent) : Bool :=
  match tokenOf e with
  | some token => v.hist.all fun e' => tokenOf e' != some token
  | none => true

/-- The login that a call stores. -/
def pendedLogin : Call → Option (String × PendingAuthRecord)
  | .auth (.putPending state record) => some (state, record)
  | _ => none

/-- The login that a call takes. -/
def consumedLogin : (call : Call) → call.Ans → Option (String × PendingAuthRecord)
  | .auth (.consumePending state), .ok record => some (state, record)
  | _, _ => none

/-- The handoff that a call stores. -/
def issuedHandoff : Call → Option (String × AuthHandoffRecord)
  | .auth (.putCredentialAndHandoff _ code record) => some (code, record)
  | _ => none

/-- The handoff that a call consumed, with its code. -/
def consumedHandoff : (call : Call) → call.Ans → Option (String × AuthHandoffRecord)
  | .auth (.consumeHandoff code _ _ _), .ok record => some (code, record)
  | _, _ => none

/-- The call opens a session. -/
def opensSession : Call → Bool
  | .auth (.createSession _ _ _ _) => true
  | _ => false

/-- Pending logins are taken once. -/
def pendingLogins (env : Env) :
    OneTime Task Call Call.Ans World String PendingAuthRecord where
  stored w state := w.auth.pending.lookup (env.hashSecret state)
  put e := pendedLogin e.op
  take e := consumedLogin e.op e.ans

/-- Handoffs are taken once. -/
def loginHandoffs (env : Env) :
    OneTime Task Call Call.Ans World String AuthHandoffRecord where
  stored w code := w.auth.handoffs.lookup (env.hashSecret code)
  put e := issuedHandoff e.op
  take e := consumedHandoff e.op e.ans

section Store

variable {call : Call} {a : call.Ans} {x : Choice} {w' : World}

theorem eq_of_pendedLogin
    (h : pendedLogin call = some (state, row)) : call = .auth (.putPending state row) := by
  unfold pendedLogin at h
  split at h
  · cases h
    rfl
  · cases h

theorem eq_of_issuedHandoff {row : AuthHandoffRecord} (h : issuedHandoff call = some (code, row)) :
    ∃ cred, call = .auth (.putCredentialAndHandoff cred code row) := by
  unfold issuedHandoff at h
  split at h
  · cases h
    exact ⟨_, rfl⟩
  · cases h

theorem eq_of_opensSession (h : opensSession call) :
    ∃ credentialID installationID deviceSecret ttl,
      call = .auth (.createSession credentialID installationID deviceSecret ttl) := by
  unfold opensSession at h
  split at h
  · exact ⟨_, _, _, _, rfl⟩
  · cases h

theorem exec_consumedLogin
    (h : exec env call x w = some (a, w')) (hcons : consumedLogin call a = some (state, row)) :
    w.auth.pending.lookup (env.hashSecret state) = some row ∧ x.now ≤ row.expiresAt ∧
      w'.auth.pending.lookup (env.hashSecret state) = none := by
  unfold consumedLogin at hcons
  split at hcons
  · cases hcons
    obtain ⟨hans, rfl⟩ := Prod.mk.inj (Option.some.inj h)
    exact execAuth_consumePending hans
  · cases hcons

theorem exec_consumedHandoff {row : AuthHandoffRecord} (h : exec env call x w = some (a, w'))
    (hcons : consumedHandoff call a = some (code, row)) :
    ∃ installationID deviceSecret state,
      call = .auth (.consumeHandoff code installationID deviceSecret state) ∧
        Redeemed env code installationID deviceSecret state row x.now w.auth w'.auth := by
  unfold consumedHandoff at hcons
  split at hcons
  · cases hcons
    obtain ⟨hans, rfl⟩ := Prod.mk.inj (Option.some.inj h)
    exact ⟨_, _, _, rfl, execAuth_consumeHandoff hans⟩
  · cases hcons

end Store

theorem pendingLogins_kept (hinj : Function.Injective env.hashSecret) :
    (pendingLogins env).Kept (server env may) G where
  stored := by
    intro v e x s state row hexec _ hrow
    have hauth : exec env e.op x v.state = some (e.ans, s) := hexec
    have hget : s.auth.pending.lookup (env.hashSecret state) = some row := hrow
    rw [exec_auth hauth] at hget
    show v.state.auth.pending.lookup (env.hashSecret state) = some row ∨
      pendedLogin e.op = some (state, row)
    generalize e.op = op at hget
    cases op with
    | auth =>
      rcases execAuth_pending hget with hget | ⟨state', rfl, hkey⟩
      · exact .inl hget
      · rw [hinj hkey]
        exact .inr rfl
    | _ => exact .inl hget
  taken := by
    intro v e x s state row hexec _ htake
    obtain ⟨hstored, -, hdel⟩ := exec_consumedLogin hexec htake
    exact ⟨hstored, hdel⟩

theorem loginHandoffs_kept (hinj : Function.Injective env.hashSecret)
    (hG : ∀ v e, G v e → ∀ code row, e.op ≠ .auth (.putHandoff code row)) :
    (loginHandoffs env).Kept (server env may) G where
  stored := by
    intro v e x s code row hexec hcall hrow
    have hget : s.auth.handoffs.lookup (env.hashSecret code) = some row := hrow
    rcases exec_handoff hexec (hG v e hcall) hget with hget | ⟨cred, code', hop, hkey, -⟩
    · exact .inl hget
    · refine .inr ?_
      show issuedHandoff e.op = some (code, row)
      rw [hop, hinj hkey]
      rfl
  taken := by
    intro v e x s code row hexec _ htake
    obtain ⟨_, _, _, -, hredeemed⟩ := exec_consumedHandoff hexec htake
    exact ⟨hredeemed.stored, hredeemed.deleted⟩

/-! ## What happens once -/

/-- No token was returned twice, and every call was allowed by the earlier ones of its request. -/
structure SignInHistory (env : Env) (hist : List ServerEvent) : Prop where
  tokens : Once tokenOf hist
  allowed : ∀ {e old}, e :: old <:+ hist → SignInAllows env e.task (trace old e.pid) e.op

namespace SignInHistory

variable {hist : List ServerEvent}

theorem of_steps
    (h : (server env may).Steps (fun v e => freshToken v e = true ∧
      SignInAllows env e.task (trace v.hist e.pid) e.op) (started w) c) :
    SignInHistory env c.hist where
  tokens := by
    have h0 : Once tokenOf (started w).hist := List.Pairwise.nil
    refine h.view_invariant (I := fun v => Once tokenOf v.hist) ?_ h0
    rintro v e x s hv - ⟨hfresh, -⟩
    refine once_cons.mpr ⟨fun e' he' token htoken => ?_, hv⟩
    unfold freshToken at hfresh
    rw [htoken] at hfresh
    exact bne_iff_ne.mp (all_eq_true.mp hfresh e' he')
  allowed := by
    rintro e old ⟨new, hhist⟩
    have hsince : Since [] c.hist fun old e =>
        SignInAllows env e.task (trace old e.pid) e.op :=
      h.since fun v e x s _ hG => hG.2
    exact hsince new e old hhist.symm (nil_suffix)

theorem effect_ne (h : Without effect (trace old pid))
    (he : e ∈ old) (hpid : e.pid = pid) : e.op.effect ≠ effect := by
  subst hpid
  exact h _ (mem_trace he)

theorem exists_token {start token : String} {size : Nat}
    (h : ⟨.env (.randomToken start size), .ok token⟩ ∈ trace old pid) :
    ∃ e' old', e' :: old' <:+ old ∧ e'.pid = pid ∧ tokenOf e' = some token := by
  obtain ⟨⟨pid', task, op, ans⟩, old', hsuf, hpid, hmade⟩ := exists_of_mem_trace h
  cases hmade
  exact ⟨_, old', hsuf, hpid, rfl⟩

theorem states (h : SignInHistory env hist) : Once (pendingLogins env).putKey hist := by
  refine h.tokens.of_token fun e old state hsuf hkey => ?_
  obtain ⟨row, hput⟩ := OneTime.put_of_putKey hkey
  have hok := h.allowed hsuf
  rw [eq_of_pendedLogin hput] at hok
  obtain ⟨⟨req, -, htoken, -, -⟩, hfirst⟩ := hok
  refine ⟨exists_token htoken, fun e' he' hpid => ?_⟩
  rw [Option.eq_none_iff_forall_ne_some]
  intro state' hkey'
  obtain ⟨row', hput'⟩ := OneTime.put_of_putKey hkey'
  exact effect_ne hfirst he' hpid (congrArg Call.effect (eq_of_pendedLogin hput'))

theorem codes (h : SignInHistory env hist) : Once (loginHandoffs env).putKey hist := by
  refine h.tokens.of_token fun e old code hsuf hkey => ?_
  obtain ⟨row, hput⟩ := OneTime.put_of_putKey hkey
  obtain ⟨cred, hop⟩ := eq_of_issuedHandoff hput
  have hok := h.allowed hsuf
  rw [hop] at hok
  obtain ⟨-, ⟨_, _, _, _, -, -, htoken, -, -, -⟩, hfirst⟩ := hok
  refine ⟨exists_token htoken, fun e' he' hpid => ?_⟩
  rw [Option.eq_none_iff_forall_ne_some]
  intro code' hkey'
  obtain ⟨row', hput'⟩ := OneTime.put_of_putKey hkey'
  obtain ⟨cred', hop'⟩ := eq_of_issuedHandoff hput'
  exact effect_ne hfirst he' hpid (congrArg Call.effect hop')

theorem callbacks (h : SignInHistory env hist) :
    Once (fun e => if (issuedHandoff e.op).isSome then some e.pid else none) hist := by
  refine Once.of_first fun e old hsuf hissues e' he' hpid => ?_
  obtain ⟨⟨code, row⟩, hiss⟩ := Option.isSome_iff_exists.mp hissues
  obtain ⟨cred, hop⟩ := eq_of_issuedHandoff hiss
  have hok := h.allowed hsuf
  rw [hop] at hok
  rw [Bool.eq_false_iff]
  intro hissues'
  obtain ⟨⟨code', row'⟩, hiss'⟩ := Option.isSome_iff_exists.mp hissues'
  obtain ⟨cred', hop'⟩ := eq_of_issuedHandoff hiss'
  exact effect_ne hok.2.2 he' hpid (congrArg Call.effect hop')

theorem completions (h : SignInHistory env hist) :
    Once (fun e => if opensSession e.op then some e.pid else none) hist := by
  refine Once.of_first fun e old hsuf hopens e' he' hpid => ?_
  obtain ⟨credentialID, installationID, deviceSecret, ttl, hop⟩ := eq_of_opensSession hopens
  have hok := h.allowed hsuf
  rw [hop] at hok
  rw [Bool.eq_false_iff]
  intro hopens'
  obtain ⟨_, _, _, _, hop'⟩ := eq_of_opensSession hopens'
  exact effect_ne hok.2 he' hpid (congrArg Call.effect hop')

end SignInHistory

/-! ## The calls of a login -/

section Provenance

variable {c : ServerConfiguration}

/-- The call `e`, after the calls `old`, was made by the deadline. -/
def MadeBy (env : Env) (may : ServerView → Task → Bool) (w : World) (c : ServerConfiguration)
    (e : ServerEvent) (old : List ServerEvent) (deadline : Time) : Prop :=
  ∃ c1 c2 x s, (server env may).Steps (fun v e => freshToken v e = true) (started w) c1 ∧
    (server env may).Step (fun v e => freshToken v e = true) c1 c2 ∧
    (server env may).Steps (fun v e => freshToken v e = true) c2 c ∧
    c1.hist = old ∧ c2.toView = c1.toView.after e s ∧
    exec env e.op x c1.state = some (e.ans, s) ∧ x.now ≤ deadline

/-- The calls that lead to a session, and what they passed on. -/
structure SignIn where
  start : ServerEvent
  beforeStart : List ServerEvent
  consume : ServerEvent
  beforeConsume : List ServerEvent
  issue : ServerEvent
  beforeIssue : List ServerEvent
  redeem : ServerEvent
  beforeRedeem : List ServerEvent
  state : String
  pending : PendingAuthRecord
  credential : AuthCredential
  code : String
  handoff : AuthHandoffRecord

/-- **The session goes back to this login**: one `startMobileAuth` of the device stored the state,
one callback consumed it in time and stored the credential, and one `completeMobileAuth` of the
device presented the state and the callback's code in time. -/
structure SignIn.Opens (env : Env) (may : ServerView → Task → Bool) (w : World)
    (c : ServerConfiguration) (l : SignIn) (opened : ServerEvent) (before : List ServerEvent)
    (credentialID installationID deviceSecret : String) : Prop where
  startTask : ∃ uri, l.start.task = .startMobileAuth ⟨installationID, deviceSecret, uri⟩
  starts : l.start.op = .auth (.putPending l.state l.pending)
  callbackTask : ∃ state denied twitchCode,
    l.consume.task = .twitchOAuthCallback state denied twitchCode ∧ trimSpace state = l.state
  consumes : (⟨l.consume.op, l.consume.ans⟩ : Sigma Call.Ans) =
    ⟨.auth (.consumePending l.state), .ok l.pending⟩
  consumesInTime : MadeBy env may w c l.consume l.beforeConsume l.pending.expiresAt
  sameCallback : l.issue.pid = l.consume.pid
  issues : l.issue.op = .auth (.putCredentialAndHandoff l.credential l.code l.handoff)
  credential : l.credential.id = credentialID
  completeTask : ∃ request, l.redeem.task = .completeMobileAuth request ∧
    request.installationID = installationID ∧ request.deviceSecret = deviceSecret ∧
    request.state = l.state ∧ trimSpace request.code = l.code
  redeems : (⟨l.redeem.op, l.redeem.ans⟩ : Sigma Call.Ans) =
    ⟨.auth (.consumeHandoff l.code installationID deviceSecret l.state), .ok l.handoff⟩
  redeemsInTime : MadeBy env may w c l.redeem l.beforeRedeem l.handoff.expiresAt
  sameCompletion : opened.pid = l.redeem.pid
  opens : ∃ ttl, opened.op = .auth (.createSession credentialID installationID deviceSecret ttl)
  startFirst : l.start :: l.beforeStart <:+ l.beforeConsume
  consumeSecond : l.consume :: l.beforeConsume <:+ l.beforeIssue
  issueThird : l.issue :: l.beforeIssue <:+ l.beforeRedeem
  redeemFourth : l.redeem :: l.beforeRedeem <:+ before

/-- Nobody is signed in. -/
structure SignedOut (w : World) : Prop where
  pending : w.auth.pending = ∅
  handoffs : w.auth.handoffs = ∅
  sessions : w.auth.sessions = ∅

/-- What is known of a run that starts signed out. -/
structure Accounted (env : Env) (c : ServerConfiguration) : Prop where
  history : SignInHistory env c.hist
  pending : (pendingLogins env).Ledger c.toView
  handoffs : (loginHandoffs env).Ledger c.toView

theorem accounted (hinj : Function.Injective env.hashSecret) (hw : SignedOut w)
    (h : (server env may).Steps (fun v e => freshToken v e = true) (started w) c) :
    Accounted env c := by
  have hens : (server env may).Ensures (started w) (fun v e => freshToken v e = true) fun v e =>
      freshToken v e ∧ SignInAllows env e.task (trace v.hist e.pid) e.op :=
    ensures_trace (code_followsSignIn env) rfl rfl
  have hsteps := hens.steps .refl h
  have hhistory := SignInHistory.of_steps hsteps
  refine ⟨hhistory, ?_, ?_⟩
  · refine (pendingLogins_kept hinj).ledger rfl (fun state => ?_) hsteps hhistory.states
    show w.auth.pending.lookup (env.hashSecret state) = none
    rw [hw.pending]
    rfl
  · refine (loginHandoffs_kept hinj ?_).ledger rfl (fun code => ?_) hsteps hhistory.codes
    · rintro v e ⟨-, hok⟩ code row hop
      rw [hop] at hok
      exact hok
    · show w.auth.handoffs.lookup (env.hashSecret code) = none
      rw [hw.handoffs]
      rfl

theorem madeBy_of_exec {e : ServerEvent} {old : List ServerEvent} {deadline : Time}
    (h : (server env may).Steps (fun v e => freshToken v e = true) (started w) c)
    (hsuf : e :: old <:+ c.hist)
    (hdeadline : ∀ x w' s, exec env e.op x w' = some (e.ans, s) → x.now ≤ deadline) :
    MadeBy env may w c e old deadline := by
  obtain ⟨c1, c2, x, s, hbefore, hstep, hafter, hhist, hview, hexec, -⟩ :=
    h.moment hsuf (nil_suffix)
  exact ⟨c1, c2, x, s, hbefore, hstep, hafter, hhist, hview, hexec, hdeadline x c1.state s hexec⟩

section Steps

variable {state : String}

theorem takes_handoff (env : Env)
    (h : (⟨.auth (.consumeHandoff code installationID deviceSecret state), .ok handoff⟩ :
      Sigma Call.Ans) = ⟨e.op, e.ans⟩) : (loginHandoffs env).take e = some (code, handoff) := by
  obtain ⟨pid, task, op, ans⟩ := e
  cases h
  rfl

theorem takes_login (env : Env)
    (h : (⟨.auth (.consumePending state), .ok pending⟩ : Sigma Call.Ans) = ⟨e.op, e.ans⟩) :
    (pendingLogins env).take e = some (state, pending) := by
  obtain ⟨pid, task, op, ans⟩ := e
  cases h
  rfl

theorem redeemed_of_exec {x : Choice} {w' : World}
    (h : (⟨.auth (.consumeHandoff code installationID deviceSecret state), .ok handoff⟩ :
      Sigma Call.Ans) = ⟨e.op, e.ans⟩) (hexec : exec env e.op x w = some (e.ans, w')) :
    Redeemed env code installationID deviceSecret state handoff x.now w.auth w'.auth := by
  obtain ⟨_, _, _, hcall, hredeemed⟩ := exec_consumedHandoff hexec (takes_handoff env h)
  cases (congrArg Sigma.fst h).trans hcall
  exact hredeemed

theorem exists_made (h : (server env may).Steps (fun v e => freshToken v e = true) (started w) c)
    (he : e :: old <:+ c.hist) (hmade : made ∈ trace old e.pid) :
    ∃ e' old', e' :: old' <:+ old ∧ e'.pid = e.pid ∧ e'.task = e.task ∧ made = ⟨e'.op, e'.ans⟩ := by
  obtain ⟨e', old', hsuf, hpid, hmade⟩ := exists_of_mem_trace hmade
  have hmem : e' ∈ c.hist := (hsuf.trans ((suffix_cons e old).trans he)).subset mem_cons_self
  exact ⟨e', old', hsuf, hpid, h.task_eq rfl hmem (he.subset mem_cons_self) hpid, hmade⟩

/-- **The first step back**: a handoff was redeemed. -/
theorem exists_redeem (h : (server env may).Steps (fun v e => freshToken v e = true) (started w) c)
    (hc : Accounted env c) (he : e :: old <:+ c.hist)
    (hop : e.op = .auth (.createSession credentialID installationID deviceSecret ttl)) :
    ∃ code state handoff redeem beforeRedeem, redeem :: beforeRedeem <:+ old ∧
      redeem.pid = e.pid ∧ credentialID = handoff.credentialID ∧
      (∃ req, redeem.task = .completeMobileAuth req ∧
        req.installationID = installationID ∧ req.deviceSecret = deviceSecret ∧
        req.state = state ∧ trimSpace req.code = code) ∧
      (⟨.auth (.consumeHandoff code installationID deviceSecret state), .ok handoff⟩ :
        Sigma Call.Ans) = ⟨redeem.op, redeem.ans⟩ := by
  have hok := hc.history.allowed he
  rw [hop] at hok
  obtain ⟨⟨req, handoff, htask, hredeemed, hcred, rfl, rfl⟩, -⟩ := hok
  obtain ⟨redeem, beforeRedeem, hredeem, hpid, hsame, hredeems⟩ := exists_made h he hredeemed
  exact ⟨_, _, handoff, redeem, beforeRedeem, hredeem, hpid, hcred,
    ⟨req, hsame.trans htask, rfl, rfl, rfl, rfl⟩, hredeems⟩

/-- **The second step back**: the handoff was issued by a callback, which had consumed a pending
login. -/
theorem exists_issue (hinj : Function.Injective env.hashSecret)
    (h : (server env may).Steps (fun v e => freshToken v e = true) (started w) c)
    (hc : Accounted env c) (he : e :: old <:+ c.hist)
    (hredeems : (⟨.auth (.consumeHandoff code installationID deviceSecret state), .ok handoff⟩ :
      Sigma Call.Ans) = ⟨e.op, e.ans⟩) :
    ∃ cred pending issue beforeIssue consume beforeConsume,
      issue :: beforeIssue <:+ old ∧ consume :: beforeConsume <:+ beforeIssue ∧
      issue.pid = consume.pid ∧ cred.id = handoff.credentialID ∧
      issue.op = .auth (.putCredentialAndHandoff cred code handoff) ∧
      (∃ raw denied twitchCode, consume.task = .twitchOAuthCallback raw denied twitchCode ∧
        trimSpace raw = state) ∧
      (⟨.auth (.consumePending state), .ok pending⟩ : Sigma Call.Ans) =
        ⟨consume.op, consume.ans⟩ ∧
      pending.installationID = installationID ∧
      pending.deviceHash = env.hashSecret deviceSecret := by
  obtain ⟨issue, beforeIssue, hissue, hput⟩ := hc.handoffs.origin he (takes_handoff env hredeems)
  obtain ⟨cred, hissues⟩ := eq_of_issuedHandoff hput
  have hissueHist := hissue.trans ((suffix_cons e old).trans he)
  have hok := hc.history.allowed hissueHist
  rw [hissues] at hok
  obtain ⟨hcred, ⟨raw, denied, twitchCode, pending, htask, hcons, -, hiid, hdev, hstate⟩, -⟩ := hok
  obtain ⟨consume, beforeConsume, hconsume, hpid, hsame, hconsumes⟩ :=
    exists_made h hissueHist hcons
  -- the handoff carries the device and the state of the completion that redeemed it
  obtain ⟨_, _, x, s, -, -, -, -, -, hexec, -⟩ := h.moment he nil_suffix
  have hredeemed := redeemed_of_exec hredeems hexec
  have hsameState : trimSpace raw = state := hinj (hstate.symm.trans hredeemed.state)
  exact ⟨cred, pending, issue, beforeIssue, consume, beforeConsume, hissue, hconsume,
    hpid.symm, hcred.symm, hissues, ⟨raw, denied, twitchCode, hsame.trans htask, hsameState⟩,
    hsameState ▸ hconsumes, hiid.symm.trans hredeemed.installation,
    hdev.symm.trans hredeemed.device⟩

/-- **The third step back**: the pending login was stored by a start of its device. -/
theorem exists_start
    (hinj : Function.Injective env.hashSecret) (hc : Accounted env c) (he : e :: old <:+ c.hist)
    (hconsumes : (⟨.auth (.consumePending state), .ok pending⟩ : Sigma Call.Ans) =
      ⟨e.op, e.ans⟩) (hdev : pending.deviceHash = env.hashSecret deviceSecret) :
    ∃ start beforeStart uri, start :: beforeStart <:+ old ∧
      start.task = .startMobileAuth ⟨pending.installationID, deviceSecret, uri⟩ ∧
      start.op = .auth (.putPending state pending) := by
  obtain ⟨start, beforeStart, hstart, hput⟩ := hc.pending.origin he (takes_login env hconsumes)
  have hstarts := eq_of_pendedLogin hput
  have hok := hc.history.allowed (hstart.trans ((suffix_cons e old).trans he))
  rw [hstarts] at hok
  obtain ⟨⟨⟨installationID, secret, uri⟩, htask, -, hiid, hsecret⟩, -⟩ := hok
  have hsame : secret = deviceSecret := hinj (hsecret.symm.trans hdev)
  refine ⟨start, beforeStart, uri, hstart, ?_, hstarts⟩
  rw [htask, hiid, hsame]

theorem exists_signIn (hinj : Function.Injective env.hashSecret)
    (h : (server env may).Steps (fun v e => freshToken v e = true) (started w) c)
    (hc : Accounted env c) (he : e :: old <:+ c.hist)
    (hop : e.op = .auth (.createSession credentialID installationID deviceSecret ttl)) :
    ∃ l : SignIn, l.Opens env may w c e old credentialID installationID deviceSecret := by
  obtain ⟨code, state, handoff, redeem, beforeRedeem, hredeem, hpid, hcred, hcompletion,
    hredeems⟩ := exists_redeem h hc he hop
  have hredeemHist := hredeem.trans ((suffix_cons e old).trans he)
  obtain ⟨cred, pending, issue, beforeIssue, consume, beforeConsume, hissue, hconsume,
    hpid', hcred', hissues, hcb, hconsumes, rfl, hdev⟩ :=
    exists_issue hinj h hc hredeemHist hredeems
  have hconsumeHist := hconsume.trans ((suffix_cons issue beforeIssue).trans
    (hissue.trans ((suffix_cons redeem beforeRedeem).trans hredeemHist)))
  obtain ⟨start, beforeStart, uri, hstart, hstartTask, hstarts⟩ :=
    exists_start hinj hc hconsumeHist hconsumes hdev
  refine ⟨⟨start, beforeStart, consume, beforeConsume, issue, beforeIssue, redeem, beforeRedeem,
    state, pending, cred, code, handoff⟩, ?_⟩
  exact
    { startTask := ⟨uri, hstartTask⟩
      starts := hstarts
      callbackTask := hcb
      consumes := hconsumes.symm
      consumesInTime := madeBy_of_exec h hconsumeHist fun x w' s hexec =>
        (exec_consumedLogin hexec (takes_login env hconsumes)).2.1
      sameCallback := hpid'
      issues := hissues
      credential := hcred'.trans hcred.symm
      completeTask := hcompletion
      redeems := hredeems.symm
      redeemsInTime := madeBy_of_exec h hredeemHist fun x w' s hexec =>
        (redeemed_of_exec hredeems hexec).inTime
      sameCompletion := hpid.symm
      opens := ⟨ttl, hop⟩
      startFirst := hstart
      consumeSecond := hconsume
      issueThird := hissue
      redeemFourth := hredeem }

end Steps

section Unique

variable {l l' : SignIn} {opened opened' : ServerEvent} {before before' : List ServerEvent}
  {cid' iid' secret' : String}

namespace SignIn.Opens

variable (hl : l.Opens env may w c opened before credentialID installationID deviceSecret)
  (hopen : opened :: before <:+ c.hist)

include hl hopen

theorem redeem_suffix : l.redeem :: l.beforeRedeem <:+ c.hist :=
  hl.redeemFourth.trans ((suffix_cons opened before).trans hopen)

theorem issue_suffix : l.issue :: l.beforeIssue <:+ c.hist :=
  hl.issueThird.trans ((suffix_cons _ _).trans (hl.redeem_suffix hopen))

theorem consume_suffix : l.consume :: l.beforeConsume <:+ c.hist :=
  hl.consumeSecond.trans ((suffix_cons _ _).trans (hl.issue_suffix hopen))

omit hopen in
theorem takeKey_consume : (pendingLogins env).takeKey l.consume = some l.state :=
  OneTime.takeKey_of_take (takes_login env hl.consumes.symm)

omit hopen in
theorem takeKey_redeem : (loginHandoffs env).takeKey l.redeem = some l.code :=
  OneTime.takeKey_of_take (takes_handoff env hl.redeems.symm)

variable (hl' : l'.Opens env may w c opened' before' cid' iid' secret')
  (hopen' : opened' :: before' <:+ c.hist) (hc : Accounted env c)

include hl' hopen' hc

theorem callback_of_state (hstate : l.state = l'.state) : l.consume.pid = l'.consume.pid := by
  have hsame := hc.pending.once.eq (hl.consume_suffix hopen) (hl'.consume_suffix hopen')
    hl.takeKey_consume (hstate ▸ hl'.takeKey_consume)
  rw [(List.cons.inj hsame).1]

theorem code_of_callback (hcb : l.consume.pid = l'.consume.pid) : l.code = l'.code := by
  have hmark : ∀ {l : SignIn}, l.issue.op =
      .auth (.putCredentialAndHandoff l.credential l.code l.handoff) →
      (if (issuedHandoff l.issue.op).isSome then some l.issue.pid else none) =
        some l.issue.pid := by
    intro l hissues
    rw [hissues]
    rfl
  have hpid : l'.issue.pid = l.issue.pid := by
    rw [hl.sameCallback, hl'.sameCallback, hcb]
  have hsame := hc.history.callbacks.eq (hl.issue_suffix hopen) (hl'.issue_suffix hopen')
    (hmark hl.issues) (hpid ▸ hmark hl'.issues)
  have hop : l.issue.op = l'.issue.op := by rw [(List.cons.inj hsame).1]
  rw [hl.issues, hl'.issues] at hop
  exact (AuthCall.putCredentialAndHandoff.inj (Call.auth.inj hop)).2.1

theorem opened_of_code (hcode : l.code = l'.code) : opened :: before = opened' :: before' := by
  have hmark : ∀ {opened : ServerEvent} {credentialID installationID deviceSecret : String},
      (∃ ttl, opened.op = .auth (.createSession credentialID installationID deviceSecret ttl)) →
      (if opensSession opened.op then some opened.pid else none) = some opened.pid := by
    rintro opened credentialID installationID deviceSecret ⟨ttl, hop⟩
    rw [hop]
    rfl
  have hsame := hc.handoffs.once.eq (hl.redeem_suffix hopen) (hl'.redeem_suffix hopen')
    hl.takeKey_redeem (hcode ▸ hl'.takeKey_redeem)
  have hpid : opened'.pid = opened.pid := by
    rw [hl.sameCompletion, hl'.sameCompletion, (List.cons.inj hsame).1]
  exact hc.history.completions.eq hopen hopen' (hmark hl.opens) (hpid ▸ hmark hl'.opens)

end SignIn.Opens

end Unique

theorem exists_opened (hw : w.auth.sessions = ∅) (h : (server env may).Steps G (started w) c)
    {key : String} {row : AuthSessionRecord} (hrow : c.state.auth.sessions.lookup key = some row) :
    ∃ opened before deviceSecret ttl, opened :: before <:+ c.hist ∧
      opened.op = .auth (.createSession row.credentialID row.installationID deviceSecret ttl) ∧
      row.deviceHash = env.hashSecret deviceSecret := by
  refine h.view_invariant (I := fun v => ∀ key row,
    v.state.auth.sessions.lookup key = some row → ∃ opened before deviceSecret ttl,
      opened :: before <:+ v.hist ∧ opened.op =
        .auth (.createSession row.credentialID row.installationID deviceSecret ttl) ∧
      row.deviceHash = env.hashSecret deviceSecret) ?_ ?_ key row hrow
  · intro v e x s hv hexec _ key row hrow
    rcases exec_session hexec hrow with
      ⟨key0, row0, hrow0, hcred, hiid, hdev⟩ |
      ⟨deviceSecret, ttl, hop, hdev⟩
    · rw [← hcred, ← hiid, ← hdev]
      obtain ⟨opened, before, deviceSecret, ttl, hsuf, hrest⟩ := hv key0 row0 hrow0
      exact ⟨opened, before, deviceSecret, ttl, hsuf.trans (suffix_cons e _), hrest⟩
    · exact ⟨e, v.hist, deviceSecret, ttl, suffix_rfl, hop, hdev⟩
  · intro key row hrow
    have hnone : (started w).state.auth.sessions = ∅ := hw
    rw [hnone] at hrow
    cases hrow

/-- **Every session has one origin.** With a collision-free hash and fresh random tokens, a session
was created by a call `CreateSession`, which goes back to one login of its device; and two logins
with the same state, code or callback lead to one call. -/
theorem session_provenance (hinj : Function.Injective env.hashSecret) (hw : SignedOut w)
    (h : (server env may).Steps (fun v e => freshToken v e = true) (started w) c) :
    (∀ key r, c.state.auth.sessions.lookup key = some r →
      ∃ opened before deviceSecret ttl, opened :: before <:+ c.hist ∧ opened.op =
          .auth (.createSession r.credentialID r.installationID deviceSecret ttl) ∧
        r.deviceHash = env.hashSecret deviceSecret) ∧
    (∀ opened before credentialID installationID deviceSecret ttl, opened :: before <:+ c.hist →
      opened.op = .auth (.createSession credentialID installationID deviceSecret ttl) →
      ∃ l : SignIn, l.Opens env may w c opened before credentialID installationID deviceSecret) ∧
    (∀ (l l' : SignIn) opened before opened' before' credentialID installationID deviceSecret
        cid' iid' secret',
      opened :: before <:+ c.hist → opened' :: before' <:+ c.hist →
      l.Opens env may w c opened before credentialID installationID deviceSecret →
      l'.Opens env may w c opened' before' cid' iid' secret' →
      l.state = l'.state ∨ l.code = l'.code ∨ l.consume.pid = l'.consume.pid →
      opened :: before = opened' :: before') := by
  have hc := accounted hinj hw h
  refine ⟨fun key r => exists_opened hw.sessions h, ?_, ?_⟩
  · intro opened before credentialID installationID deviceSecret ttl hopen hop
    exact exists_signIn hinj h hc hopen hop
  · intro l l' opened before opened' before' _ _ _ _ _ _ hopen hopen' hl hl' hsame
    have hcode : l.code = l'.code := by
      rcases hsame with hstate | hcode | hcb
      · exact hl.code_of_callback hopen hl' hopen' hc
          (hl.callback_of_state hopen hl' hopen' hc hstate)
      · exact hcode
      · exact hl.code_of_callback hopen hl' hopen' hc hcb
    exact hl.opened_of_code hopen hl' hopen' hc hcode

end Provenance

/-- Twitch grants and confirms. -/
def twitchAgrees : Choice :=
  { tokenResponse := { accessToken := "a", refreshToken := "r", expiresIn := 14400 }
    validation := { clientID := "client", userID := "7", login := "seven", expiresIn := 14400 } }

/-- The latest session. -/
def newestOpened (c : ServerConfiguration) : Option (String × String × String) :=
  match c.hist with
  | ⟨_, _, .auth (.createSession credentialID installationID deviceSecret _), _⟩ :: _ =>
    some (credentialID, installationID, deviceSecret)
  | _ => none

theorem newestOpened_eq {installationID deviceSecret : String}
    (h : newestOpened c = some (credentialID, installationID, deviceSecret)) :
    ∃ opened before ttl, c.hist = opened :: before ∧
      opened.op = .auth (.createSession credentialID installationID deviceSecret ttl) := by
  unfold newestOpened at h
  split at h
  · rename_i hhist
    cases h
    exact ⟨_, _, _, hhist, rfl⟩
  · cases h

/-- A phone starts a login, returns from the browser and completes it. -/
theorem phone_login_traced : SignedOut {} ∧ ∀ backend : Backend,
    Function.Injective (Env.sample backend).hashSecret ∧ ∃ c opened before ttl,
      (anyServer backend).Steps (fun v e => freshToken v e = true)
        (started {}) c ∧
      c.hist = opened :: before ∧
      opened.op = .auth (.createSession "fc1_" "phone" phoneSecret ttl) ∧
      ∃ l : SignIn, l.Opens (.sample backend) (fun _ _ => true) {} c opened before "fc1_" "phone"
        phoneSecret := by
  refine ⟨⟨rfl, rfl, rfl⟩, fun backend => ⟨sample_hashSecret_injective backend, ?_⟩⟩
  have hplay : ((anyServer backend).play freshToken
      (start (.startMobileAuth ⟨"phone", phoneSecret, "app:"⟩) ++ calls 0 5 {} ++
        start (.twitchOAuthCallback "fs1_" "" "code") ++ calls 1 9 twitchAgrees ++
        start (.completeMobileAuth ⟨"fh1_", "fs1_", "phone", phoneSecret⟩) ++
        calls 2 7 twitchAgrees) (started {})).map newestOpened =
      some (some ("fc1_", "phone", phoneSecret)) := by
    cases backend <;> decide
  obtain ⟨c, hrun, hres⟩ := play_map hplay
  obtain ⟨opened, before, ttl, hhist, hop⟩ := newestOpened_eq hres
  exact ⟨c, opened, before, ttl, hrun, hhist, hop,
    (session_provenance (sample_hashSecret_injective backend) ⟨rfl, rfl, rfl⟩ hrun).2.1 opened
      before _ _ _ ttl (hhist ▸ suffix_rfl) hop⟩

end Ferventio
