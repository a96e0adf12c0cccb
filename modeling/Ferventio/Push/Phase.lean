import Ferventio.Server.Tasks

/-!
# Where a flush is

A flush holds the installation's mutex, reads the registration, fetches a batch, and works the batch
off record by record. `flushPhase` reads the state of a process off the calls it has made, `Allowed`
says which calls each state admits, and **`ensures_allowed`** says that every call of every run of
the server is admitted. From here on nothing has to look at the code of a flush again.
-/

namespace Ferventio

open System

/-- Where a flush is. -/
inductive FlushPhase
  | outside
  | locked (installationID : String)
  | fetching (installationID : String) (registration : Registration)
  | sending (installationID : String) (registration : Registration)
      (records : List DeliveryRecord)
  | sent (installationID : String) (registration : Registration) (record : DeliveryRecord)
      (records : List DeliveryRecord)
  | acking (installationID : String) (registration : Registration) (record : DeliveryRecord)
      (records : List DeliveryRecord)
  | failed (installationID : String) (record : DeliveryRecord) (failure : GoError)
  | finished (installationID : String)

namespace FlushPhase

/-- The phase after a call. -/
def next : FlushPhase → (call : Call) → call.Ans → FlushPhase
  | .outside, .env (.lock (.flush installationID)), _ => .locked installationID
  | .locked installationID, .registration (.get _), .ok registration =>
    .fetching installationID registration
  | .locked installationID, .registration (.get _), .error _ => .finished installationID
  | .fetching installationID registration, .delivery (.pendingForInstallation _ _ _), records =>
    .sending installationID registration records
  | .sending installationID registration (record :: records), .hub (.send _ _), .ok _ =>
    .sent installationID registration record records
  | .sending installationID _ (record :: _), .hub (.send _ _), .error err =>
    if err.is .registrationNotFound then .finished installationID
    else .failed installationID record err
  | .sending installationID registration (record :: records), .env (.sendPush _ _), .ok _ =>
    .sent installationID registration record records
  | .sending installationID _ (record :: _), .env (.sendPush _ _), .error err =>
    .failed installationID record err
  | .sent installationID registration record records, .delivery (.markSent _ _), _ =>
    if registration.provider = "embedded_socket" then .sending installationID registration records
    else .acking installationID registration record records
  | .acking installationID registration _ records, .delivery (.ack _ _ _), _ =>
    .sending installationID registration records
  | .failed installationID _ _, .delivery (.markFailed _ _ _), _ => .finished installationID
  | _, .env (.unlock (.flush _)), _ => .outside
  | phase, _, _ => phase

end FlushPhase

/-- What a process does apart from flushing. -/
def Apart (env : Env) (t : Task) : Call → Prop
  | .delivery (.ack iid eid _) => t = .readAck iid eid
  | .delivery (.ackThrough _ eid _) =>
    ∃ connectionID message, t = .connect connectionID message ∧ eid = message.lastEventID
  | .delivery (.enqueue r) =>
    ∃ deliveryID now reg note,
      r = deliveryFor deliveryID now reg note ∧
        ∀ reg' notification', t = .deliver reg' notification' → reg = reg'
  | .registration (.upsert reg) =>
    ∃ iid request, t = .upsertRegistration iid request ∧
      reg.installationID = iid ∧
      reg.provider = (normalizeRegistration env request).provider
  | call => call.effect ≠ .flush

/-- **The calls that each state admits.** -/
inductive Allowed (env : Env) (t : Task) : FlushPhase → Call → Prop
  | apart {call : Call} (h : Apart env t call) : Allowed env t .outside call
  | lock (iid : String) :
      Allowed env t .outside (.env (.lock (.flush iid)))
  | get (iid : String) :
      Allowed env t (.locked iid) (.registration (.get iid))
  | fetchClock (iid : String) (reg : Registration) :
      Allowed env t (.fetching iid reg) (.env .now)
  | fetch (iid : String) (reg : Registration) (now : Time) :
      Allowed env t (.fetching iid reg) (.delivery (.pendingForInstallation iid 100 now))
  | send (iid : String) {reg : Registration} (r : DeliveryRecord)
      (records : List DeliveryRecord) (h : reg.provider = "embedded_socket") :
      Allowed env t (.sending iid reg (r :: records)) (.hub (.send iid (notificationMessage r)))
  | push (iid : String) {reg : Registration} (r : DeliveryRecord)
      (records : List DeliveryRecord) (h : reg.provider ≠ "embedded_socket") :
      Allowed env t (.sending iid reg (r :: records)) (.env (.sendPush reg (deliveryPayload r)))
  | sentClock (iid : String) (reg : Registration) (r : DeliveryRecord)
      (records : List DeliveryRecord) :
      Allowed env t (.sent iid reg r records) (.env .now)
  | markSent (iid : String) (reg : Registration) (r : DeliveryRecord)
      (records : List DeliveryRecord) (sentAt : Time) :
      Allowed env t (.sent iid reg r records) (.delivery (.markSent r.id sentAt))
  | ack (iid : String) (reg : Registration) (r : DeliveryRecord)
      (records : List DeliveryRecord) (ackedAt : Time) :
      Allowed env t (.acking iid reg r records)
        (.delivery (.ack reg.installationID r.eventID ackedAt))
  | failedClock (iid : String) (r : DeliveryRecord) (failure : GoError) :
      Allowed env t (.failed iid r failure) (.env .now)
  | markFailed (iid : String) (r : DeliveryRecord) (failure : GoError)
      (failedAt : Time) :
      Allowed env t (.failed iid r failure) (.delivery (.markFailed r.id failure failedAt))
  | release (iid : String) (reg : Registration) :
      Allowed env t (.sending iid reg []) (.env (.unlock (.flush iid)))
  | giveUp (iid : String) :
      Allowed env t (.finished iid) (.env (.unlock (.flush iid)))

namespace Allowed

variable {env : Env} {t : Task} {phase : FlushPhase} {call : Call}

theorem ack_inv {iid eid : String} {ackedAt : Time} (h : Allowed env t phase call)
    (hcall : call = .delivery (.ack iid eid ackedAt)) :
    phase = .outside ∧ t = .readAck iid eid ∨
      ∃ flushed reg row rows,
        phase = .acking flushed reg row rows ∧ reg.installationID = iid ∧ row.eventID = eid := by
  cases h with
  | apart hapart =>
    subst hcall
    exact .inl ⟨rfl, hapart⟩
  | ack flushed reg row rows =>
    cases hcall
    exact .inr ⟨flushed, reg, row, rows, rfl, rfl, rfl⟩
  | _ => cases hcall

theorem markSent_inv {id : String} {sentAt : Time} (h : Allowed env t phase call)
    (hcall : call = .delivery (.markSent id sentAt)) :
    ∃ iid reg row rows, phase = .sent iid reg row rows ∧ row.id = id := by
  cases h with
  | apart hapart =>
    subst hcall
    exact absurd rfl hapart
  | markSent iid reg row rows =>
    cases hcall
    exact ⟨iid, reg, row, rows, rfl, rfl⟩
  | _ => cases hcall

theorem apart_inv (h : Allowed env t phase call)
    (hcall : [Effect.enqueue, .ackThrough, .register].contains call.effect) :
    phase = .outside ∧ Apart env t call := by
  cases h with
  | apart hapart => exact ⟨rfl, hapart⟩
  | _ => cases hcall

end Allowed

section Follows

variable {env : Env} {t : Task} {α β : Type}

/-- The program makes admitted calls and ends as `post` says. -/
def FollowsPhase (env : Env) (t : Task) (post : FlushPhase → Prop) (p : Handler α)
    (phase : FlushPhase) : Prop :=
  Follows FlushPhase.next (Allowed env t) (fun _ => post) p phase

namespace FollowsPhase

variable {post mid : FlushPhase → Prop} {phase : FlushPhase}

theorem call {call : Call} {f : call.Ans → Handler β} (hcall : Allowed env t phase call)
    (hf : ∀ ans, FollowsPhase env t post (f ans) (phase.next call ans)) :
    FollowsPhase env t post (Prog.perform call >>= f) phase :=
  .perform_bind hcall hf

theorem bind {p : Handler α} {f : α → Handler β} (hp : FollowsPhase env t mid p phase)
    (hf : ∀ a phase', mid phase' → FollowsPhase env t post (f a) phase') :
    FollowsPhase env t post (p >>= f) phase :=
  Follows.bind hp hf

end FollowsPhase

/-! ## A flush -/

theorem flushRecords_follows (iid : String) (reg : Registration) (rows : List DeliveryRecord) :
    FollowsPhase env t (fun phase => phase = .sending iid reg [] ∨ phase = .finished iid)
      (flushRecords iid reg rows)
      (.sending iid reg rows) := by
  induction rows with
  | nil => exact .inl rfl
  | cons row rows ih =>
    rw [flushRecords]
    split_ifs with hprov
    · refine .call (.send iid row rows hprov) fun ans => ?_
      cases ans with
      | error =>
        simp only [FlushPhase.next]
        split_ifs
        · exact .inr rfl
        · exact .call (.failedClock _ _ _) fun failedAt =>
            .call (.markFailed _ _ _ failedAt) fun _ => .inr rfl
      | ok =>
        refine .call (.sentClock _ _ _ _) fun sentAt =>
          .call (.markSent _ _ _ _ sentAt) fun _ => ?_
        simp only [FlushPhase.next, if_pos hprov]
        exact ih
    · refine .call (.push iid row rows hprov) fun ans => ?_
      cases ans with
      | error =>
        exact .call (.failedClock _ _ _) fun failedAt =>
          .call (.markFailed _ _ _ failedAt) fun _ => .inr rfl
      | ok =>
        refine .call (.sentClock _ _ _ _) fun sentAt =>
          .call (.markSent _ _ _ _ sentAt) fun _ => ?_
        simp only [FlushPhase.next, if_neg hprov]
        exact .call (.ack _ _ _ _ sentAt) fun _ => ih

theorem flushLocked_follows (iid : String) :
    FollowsPhase env t (fun phase => (∃ reg, phase = .sending iid reg []) ∨ phase = .finished iid)
      (flushLocked iid) (.locked iid) := by
  refine .call (.get iid) fun ans => ?_
  cases ans with
  | error => exact .inr rfl
  | ok reg =>
    refine .call (.fetchClock _ _) fun now => .call (.fetch _ _ now) fun rows => ?_
    refine Follows.mono (flushRecords_follows iid reg rows) ?_
    rintro - phase (rfl | rfl)
    · exact .inl ⟨reg, rfl⟩
    · exact .inr rfl

theorem flushPending_follows (iid : String) :
    FollowsPhase env t (fun phase => phase = .outside) (flushPending iid) .outside := by
  refine .call (.lock iid) fun _ =>
    .bind (flushLocked_follows iid) fun _ phase hphase => ?_
  rcases hphase with ⟨reg, rfl⟩ | rfl
  · exact .call (.release iid reg) fun _ => rfl
  · exact .call (.giveUp iid) fun _ => rfl

/-! ## Everything else -/

theorem Apart.effect_ne {call : Call} (h : Apart env t call) : call.effect ≠ .flush := by
  unfold Apart at h
  split at h
  · exact Effect.noConfusion
  · exact Effect.noConfusion
  · exact Effect.noConfusion
  · exact Effect.noConfusion
  · exact h

theorem apart_of_effect {call : Call}
    (h : [Effect.flush, .ack, .ackThrough, .enqueue, .register].contains call.effect = false) :
    Apart env t call := by
  unfold Apart
  split
  · exact Bool.noConfusion h
  · exact Bool.noConfusion h
  · exact Bool.noConfusion h
  · exact Bool.noConfusion h
  · intro hflush
    rw [hflush] at h
    exact Bool.noConfusion h

theorem next_outside {call : Call} (h : call.effect ≠ .flush) (ans : call.Ans) :
    FlushPhase.next .outside call ans = .outside := by
  unfold FlushPhase.next
  split <;> first | rfl | contradiction

theorem follows_apart {p : Handler α} (h : p.Only (Apart env t) fun _ _ => True) :
    FollowsPhase env t (fun phase => phase = .outside) p .outside :=
  follows_of_only h fun _ hcall => ⟨.apart hcall, next_outside hcall.effect_ne⟩

theorem follows_within {effects : List Effect} {p : Handler α} (h : Within effects p)
    (heffs : ∀ effect ∈ effects,
      [Effect.flush, .ack, .ackThrough, .enqueue, .register].contains effect = false) :
    FollowsPhase env t (fun phase => phase = .outside) p .outside :=
  follows_apart (Prog.Only.mono (fun call hcall =>
    apart_of_effect (heffs call.effect (List.contains_iff_mem.mp hcall))) h)

namespace FollowsPhase

variable {post : FlushPhase → Prop}

theorem plain {call : Call} {f : call.Ans → Handler β}
    (hcall : [Effect.flush, .ack, .ackThrough, .enqueue, .register].contains call.effect = false)
    (hf : ∀ ans, FollowsPhase env t post (f ans) .outside) :
    FollowsPhase env t post (Prog.perform call >>= f) .outside := by
  have hapart : Apart env t call := apart_of_effect hcall
  refine .call (.apart hapart) fun ans => ?_
  rw [next_outside hapart.effect_ne]
  exact hf ans

theorem answer (status : Nat) (text : String) :
    FollowsPhase env t (fun phase => phase = .outside) (respond status text) .outside :=
  plain rfl fun _ => rfl

end FollowsPhase

theorem deliverToRegistration_follows {reg : Registration}
    (hreg : ∀ reg' notification', t = .deliver reg' notification' → reg = reg')
    (note : Notification) :
    FollowsPhase env t (fun phase => phase = .outside)
      (deliverToRegistration reg note) .outside := by
  have henqueue : ∀ now note, FollowsPhase env t (fun phase => phase = .outside)
      (enqueueAndFlush now reg note) .outside := by
    intro now note
    refine .plain rfl fun ans => ?_
    cases ans with
    | error => rfl
    | ok deliveryID =>
      refine .call (.apart ⟨deliveryID, now, reg, note, rfl, hreg⟩) fun ans => ?_
      cases ans with
      | error => rfl
      | ok =>
        refine .bind (flushPending_follows reg.installationID) fun _ phase hphase => ?_
        exact hphase
  refine .plain rfl fun now => ?_
  split_ifs
  · refine .plain rfl fun ans => ?_
    cases ans with
    | error => rfl
    | ok => exact henqueue _ _
  · exact henqueue _ _

section Reg

variable (ht : ∀ reg' notification', t ≠ .deliver reg' notification')

include ht

theorem adminPush_follows {iid : String} {note : Notification} :
    FollowsPhase env t (fun phase => phase = .outside) (adminPush iid note)
      .outside := by
  refine .plain rfl fun ans => ?_
  cases ans with
  | error =>
    dsimp only
    split_ifs <;> exact .answer _ _
  | ok =>
    dsimp only
    split
    · exact .answer _ _
    · refine .bind (deliverToRegistration_follows (fun r n h => absurd h (ht r n)) _)
        fun ans phase hphase => ?_
      rw [hphase]
      cases ans <;> exact .answer _ _

theorem selfTest_follows {iid secret : String} :
    FollowsPhase env t (fun phase => phase = .outside) (selfTest iid secret)
      .outside := by
  refine .plain rfl fun ans => ?_
  cases ans with
  | error =>
    dsimp only
    split_ifs <;> exact .answer _ _
  | ok =>
    refine .plain rfl fun now =>
      .bind (deliverToRegistration_follows (fun r n h => absurd h (ht r n)) _)
        fun ans phase hphase => ?_
    rw [hphase]
    cases ans <;> exact .answer _ _

theorem routeToAll_follows (mid subscriptionType : String) (event : EventPayload) :
    FollowsPhase env t (fun phase => phase = .outside)
      (routeToAll env mid subscriptionType event) .outside := by
  have heach : ∀ regs, FollowsPhase env t (fun phase => phase = .outside)
      (routeToEach env mid subscriptionType event regs) .outside := by
    intro regs
    induction regs with
    | nil => rfl
    | cons reg regs ih =>
      refine .plain rfl fun now => ?_
      split
      · exact ih
      · refine .bind (deliverToRegistration_follows (fun r n h => absurd h (ht r n)) _)
          fun ans phase hphase => ?_
        rw [hphase]
        cases ans with
        | ok => exact ih
        | error => exact .bind ih fun _ _ hphase => hphase
  exact .plain rfl fun regs => .bind (heach regs) fun _ _ hphase => hphase

theorem handleQueuedEventSub_follows (mid : String) (envelope : EventSubEnvelope) :
    FollowsPhase env t (fun phase => phase = .outside)
      (handleQueuedEventSub env mid envelope) .outside := by
  have hupd : ∀ cid, FollowsPhase env t (fun phase => phase = .outside)
      (processChannelUpdate env mid envelope cid) .outside := by
    intro cid
    refine .plain rfl fun ans => ?_
    cases ans with
    | error => rfl
    | ok =>
      dsimp only
      split_ifs
      · refine .plain rfl fun now => .plain rfl fun ans => ?_
        cases ans <;> rfl
      · rfl
      · refine .bind (routeToAll_follows ht _ _ _) fun ans phase hphase => ?_
        rw [hphase]
        cases ans with
        | error => rfl
        | ok =>
          refine .plain rfl fun now => .plain rfl fun ans => ?_
          cases ans <;> rfl
  have hproc : FollowsPhase env t (fun phase => phase = .outside)
      (processEventSubNotification env mid envelope) .outside := by
    unfold processEventSubNotification
    split_ifs
    · refine .plain rfl fun _ => .bind (hupd _) fun _ phase hphase => ?_
      rw [hphase]
      exact .plain rfl fun _ => rfl
    · exact routeToAll_follows ht _ _ _
  refine .bind hproc fun result phase hphase => ?_
  rw [hphase]
  refine .plain rfl fun _ => .plain rfl fun now => ?_
  cases result <;> exact .plain rfl fun _ => rfl

end Reg

theorem authenticatePushSocket_follows {connectionID : String} {message : SocketClientMessage} :
    FollowsPhase env (.connect connectionID message) (fun phase => phase = .outside)
      (authenticatePushSocket message) .outside := by
  unfold authenticatePushSocket
  split
  · rfl
  · split
    · rfl
    · refine .plain rfl fun allowed => ?_
      split
      · rfl
      · refine .plain rfl fun ans => ?_
        cases ans with
        | error => rfl
        | ok =>
          dsimp only
          split_ifs
          · rfl
          · exact .plain rfl fun now =>
              .call (.apart ⟨connectionID, message, rfl, rfl⟩) fun _ => rfl
          · rfl

theorem connectPushSocket_follows (connectionID : String) (message : SocketClientMessage) :
    FollowsPhase env (.connect connectionID message) (fun phase => phase = .outside)
      (connectPushSocket connectionID message) .outside := by
  refine .bind authenticatePushSocket_follows fun ans phase hphase => ?_
  rw [hphase]
  cases ans with
  | error => rfl
  | ok reg =>
    refine .plain rfl fun _ => .plain rfl fun ans => ?_
    cases ans with
    | error => exact .plain rfl fun _ => rfl
    | ok => exact flushPending_follows reg.installationID

theorem heartbeatPushSocket_follows (iid connectionID : String) :
    FollowsPhase env t (fun phase => phase = .outside)
      (heartbeatPushSocket iid connectionID) .outside := by
  refine .plain rfl fun ans => ?_
  cases ans with
  | error => exact .plain rfl fun _ => rfl
  | ok => exact flushPending_follows iid

theorem readAck_follows (iid eid : String) :
    FollowsPhase env (.readAck iid eid) (fun phase => phase = .outside)
      (readAck iid eid) .outside := by
  unfold readAck
  split_ifs
  · exact .plain rfl fun now => .call (.apart rfl) fun _ => rfl
  · rfl

theorem saveRegistration_follows {iid : String} {req reg : Registration}
    (hid : reg.installationID = iid)
    (hprov : reg.provider = (normalizeRegistration env req).provider) :
    FollowsPhase env (.upsertRegistration iid req) (fun phase => phase = .outside)
      (saveRegistration reg) .outside := by
  refine .plain rfl fun now =>
    .call (.apart ⟨iid, req, rfl, hid, hprov⟩) fun ans => ?_
  cases ans with
  | error =>
    dsimp only
    split_ifs <;> exact .answer _ _
  | ok => exact .plain rfl fun _ => .plain rfl fun _ => rfl

theorem verifiedModeratorChannels_follows (cred : AuthCredential) (reg : Registration) :
    FollowsPhase env t (fun phase => phase = .outside)
      (verifiedModeratorChannels env cred reg) .outside := by
  refine .bind (follows_within (moderatedChannelIDs_within env cred.id) (by decide))
    fun ans phase hphase => ?_
  rw [hphase]
  cases ans with
  | ok => rfl
  | error err =>
    refine .plain rfl fun ans => ?_
    cases ans with
    | error => rfl
    | ok =>
      dsimp only
      split_ifs <;> rfl

theorem upsertRegistration_follows (iid : String) (req : Registration) :
    FollowsPhase env (.upsertRegistration iid req) (fun phase => phase = .outside)
      (upsertRegistration env iid req) .outside := by
  unfold upsertRegistration
  split
  · exact .answer _ _
  · rename_i hid
    have hid : req.installationID = iid := not_not.mp hid
    dsimp only
    split
    · exact .answer _ _
    · refine .plain rfl fun allowed => ?_
      split
      · exact .answer _ _
      · split
        · refine .plain rfl fun ans => ?_
          cases ans with
          | error => exact .answer _ _
          | ok cred =>
            refine .bind (verifiedModeratorChannels_follows cred _) fun channels phase hphase => ?_
            rw [hphase]
            exact saveRegistration_follows hid rfl
        · exact saveRegistration_follows hid rfl

end Follows

/-! ## The server -/

theorem code_follows (env : Env) (t : Task) :
    FollowsPhase env t (fun phase => phase = .outside) (t.code env) .outside := by
  cases t with
  | flush iid => exact flushPending_follows iid
  | deliver reg note =>
    exact .bind (deliverToRegistration_follows (fun _ _ h => (Task.deliver.inj h).1) note)
      fun _ _ hphase => hphase
  | adminPush => exact adminPush_follows fun _ _ => Task.noConfusion
  | selfTest => exact selfTest_follows fun _ _ => Task.noConfusion
  | event mid envelope =>
    exact handleQueuedEventSub_follows (fun _ _ => Task.noConfusion) mid envelope
  | connect connectionID message => exact connectPushSocket_follows connectionID message
  | heartbeat iid connectionID =>
    exact heartbeatPushSocket_follows iid connectionID
  | readAck iid eid => exact readAck_follows iid eid
  | upsertRegistration iid reg =>
    exact upsertRegistration_follows iid reg
  | cleanup => exact .plain rfl fun _ => .plain rfl fun _ => rfl
  | disconnect => exact .plain rfl fun _ => rfl
  | deleteRegistration iid secret =>
    exact follows_within (deleteRegistration_within iid secret) (by decide)
  | startMobileAuth req => exact follows_within (startMobileAuth_within env req) (by decide)
  | twitchOAuthCallback state denied code =>
    exact follows_within (twitchOAuthCallback_within env state denied code) (by decide)
  | completeMobileAuth req =>
    exact follows_within (completeMobileAuth_within env req) (by decide)
  | leaseMobileToken device force =>
    exact follows_within (leaseMobileToken_within env device force) (by decide)
  | deleteMobileSession device =>
    exact follows_within (deleteMobileSession_within env device) (by decide)
  | revokeMobileDevice device =>
    exact follows_within (revokeMobileDevice_within env device) (by decide)
  | revokeAllMobileSessions device =>
    exact follows_within (revokeAllMobileSessions_within env device) (by decide)

/-- The phase of a process. -/
def flushPhase (hist : List ServerEvent) (pid : Nat) : FlushPhase :=
  track .outside (fun _ => FlushPhase.next) hist pid

/-- The phase of its process admits the call. -/
abbrev Admitted (env : Env) (v : ServerView) (e : ServerEvent) : Prop :=
  Allowed env e.task (flushPhase v.hist e.pid) e.op

theorem flushPhase_self (e : ServerEvent) (hist : List ServerEvent) :
    flushPhase (e :: hist) e.pid = (flushPhase hist e.pid).next e.op e.ans :=
  track_self e hist

theorem flushPhase_other {e : ServerEvent} {pid : Nat} (h : e.pid ≠ pid)
    (hist : List ServerEvent) : flushPhase (e :: hist) pid = flushPhase hist pid :=
  track_other h hist

theorem ensures_allowed {env : Env} {may : ServerView → Task → Bool} {G : ServerCondition}
    {w : World} : (server env may).Ensures (started w) G fun v e =>
      G v e ∧ Admitted env v e := by
  have hcode : ∀ t, Follows FlushPhase.next (Allowed env t) (fun _ _ => True)
      ((server env may).code t) .outside :=
    fun t => Follows.mono (code_follows env t) fun _ _ _ => trivial
  exact ensures_follows hcode rfl rfl

end Ferventio
