import Ferventio.Device.Handlers
import Ferventio.EventSub.Worker
import Ferventio.Server.World

/-!
# The server

Everything the server runs on its own goroutine, as one task: the HTTP handlers, the parts of a
socket's handler, the EventSub worker, and the flushes and the cleanup of the delivery worker's
tick. A run of `server` is any interleaving of any number of tasks; `may` limits what the
environment starts. `Call.effect` sorts the calls by what the other tasks notice of them, and
**`code_within`** says that the code of a task makes no call outside `Task.effects`.
-/

namespace Ferventio

/-- What runs on its own. `deliver` is a call of `deliverToRegistration` for a registration that was
read before. -/
inductive Task
  | flush (installationID : String)
  | cleanup
  | deliver (registration : Registration) (notification : Notification)
  | adminPush (installationID : String) (notification : Notification)
  | selfTest (installationID deviceSecret : String)
  | event (messageID : String) (envelope : EventSubEnvelope)
  | connect (connectionID : String) (message : SocketClientMessage)
  | heartbeat (installationID connectionID : String)
  | readAck (installationID eventID : String)
  | disconnect (installationID connectionID : String)
  | upsertRegistration (installationID : String) (registration : Registration)
  | deleteRegistration (installationID deviceSecret : String)
  | startMobileAuth (request : MobileAuthStartRequest)
  | twitchOAuthCallback (state denied code : String)
  | completeMobileAuth (request : MobileAuthCompleteRequest)
  | leaseMobileToken (device : DeviceCredentials) (forceRefresh : Bool)
  | deleteMobileSession (device : DeviceCredentials)
  | revokeMobileDevice (device : DeviceCredentials)
  | revokeAllMobileSessions (device : DeviceCredentials)

/-- The code of a task. -/
def Task.code (env : Env) : Task → Handler Unit
  | flush installationID => flushPending installationID
  | cleanup => runCleanup
  | deliver registration notification => do
    let _ ← deliverToRegistration registration notification
    pure ()
  | adminPush installationID notification => Ferventio.adminPush installationID notification
  | selfTest installationID deviceSecret => Ferventio.selfTest installationID deviceSecret
  | event messageID envelope => handleQueuedEventSub env messageID envelope
  | connect connectionID message => connectPushSocket connectionID message
  | heartbeat installationID connectionID => heartbeatPushSocket installationID connectionID
  | readAck installationID eventID => Ferventio.readAck installationID eventID
  | disconnect installationID connectionID => disconnectPushSocket installationID connectionID
  | upsertRegistration installationID registration =>
    Ferventio.upsertRegistration env installationID registration
  | deleteRegistration installationID deviceSecret =>
    Ferventio.deleteRegistration installationID deviceSecret
  | startMobileAuth request => Ferventio.startMobileAuth env request
  | twitchOAuthCallback state denied code => Ferventio.twitchOAuthCallback env state denied code
  | completeMobileAuth request => Ferventio.completeMobileAuth env request
  | leaseMobileToken device forceRefresh => Ferventio.leaseMobileToken env device forceRefresh
  | deleteMobileSession device => Ferventio.deleteMobileSession env device
  | revokeMobileDevice device => Ferventio.revokeMobileDevice env device
  | revokeAllMobileSessions device => Ferventio.revokeAllMobileSessions env device

/-- A call with its answer. -/
abbrev ServerEvent := Event Task Call Call.Ans

/-- The world and the history. -/
abbrev ServerView := View Task Call Call.Ans World

/-- The server between two calls. -/
abbrev ServerConfiguration := Config Task Call Call.Ans World

/-- A condition on calls. -/
abbrev ServerCondition := System.Condition Task Call Call.Ans World

/-- A rule that also sees the choice and the world after the call. -/
abbrev ServerRule := System.Rule Task Call Call.Ans World Choice

/-- **The server**, with the tasks that `may` admits. -/
def server (env : Env) (may : ServerView → Task → Bool) :
    System Task Call Call.Ans World Choice where
  exec := exec env
  code := Task.code env
  may := may

/-- A server that may start any task. -/
abbrev anyServer (backend : Backend) := server (.sample backend) fun _ _ => true

/-- The server starts. -/
def started (w : World) : ServerConfiguration := ⟨⟨w, []⟩, []⟩

/-! ## Schedules that are written out -/

/-- A task starts. -/
def start (t : Task) : List (System.Move Task Choice) := [.spawn t]

/-- A process makes calls. -/
def calls (pid n : Nat) (x : Choice) : List (System.Move Task Choice) :=
  List.replicate n (.call pid x)

/-- The phone's secret. -/
def phoneSecret : String := "0123456789abcdef0123456789abcdef"

/-- A registration. -/
def phone : Registration :=
  { installationID := "phone"
    deviceSecretHash := "#" ++ phoneSecret
    provider := "embedded_socket"
    platform := "android"
    userID := "7" }

/-- It is stored and connected. -/
def phoneOnline : World :=
  { registrations := AList.insert "phone" phone ∅
    connections := AList.insert "phone" ⟨"socket", true⟩ ∅ }

/-! ## Which calls a task makes -/

/-- What a call is to the other tasks. -/
inductive Effect
  | listRegistrations
  | register
  | unregister
  | enqueue
  | flush
  | ack
  | ackThrough
  | dequeue
  | readCredential
  | writeCredential
  | issueCredential
  | redeem
  | openSession
  | checkSession
  | useSession
  | revoke
  | dropCredential
  | pend
  | handOff
  | release
  | complete
  | channelState
  | answer
  | other
deriving DecidableEq

/-- The effect of a call; `flush` is that of the calls only a flush makes. -/
def Call.effect : Call → Effect
  | .registration .list => .listRegistrations
  | .registration (.upsert _) => .register
  | .registration (.delete _ _) => .unregister
  | .registration (.deleteForAccount _ _) => .unregister
  | .delivery (.enqueue _) => .enqueue
  | .delivery (.markSent _ _) => .flush
  | .delivery (.markFailed _ _ _) => .flush
  | .delivery (.ack _ _ _) => .ack
  | .delivery (.ackThrough _ _ _) => .ackThrough
  | .delivery (.deleteForInstallation _) => .dequeue
  | .delivery (.completeEventSub _ _) => .complete
  | .delivery (.channelStateChanges _ _ _) => .channelState
  | .delivery (.saveChannelState _ _ _ _) => .channelState
  | .auth (.getCredential _) => .readCredential
  | .auth (.putCredential _) => .writeCredential
  | .auth (.putCredentialAndHandoff _ _ _) => .issueCredential
  | .auth (.consumeHandoff _ _ _ _) => .redeem
  | .auth (.createSession _ _ _ _) => .openSession
  | .auth (.credentialForInstallation _ _) => .checkSession
  | .auth (.resolveSession _ _ _ _) => .useSession
  | .auth (.deleteSession _ _ _) => .useSession
  | .auth (.revokeInstallation _ _) => .revoke
  | .auth (.revokeAccount _ _) => .revoke
  | .auth (.deleteCredentialIfUnused _) => .dropCredential
  | .auth (.putPending _ _) => .pend
  | .auth (.putHandoff _ _) => .handOff
  | .hub (.send _ _) => .flush
  | .env (.sendPush _ _) => .flush
  | .env (.lock (.flush _)) => .flush
  | .env (.unlock (.flush _)) => .flush
  | .env (.lock (.channelState _)) => .channelState
  | .env (.unlock (.channelState _)) => .channelState
  | .env (.releaseEventSub _) => .release
  | .env (.respond _ _) => .answer
  | _ => .other

/-- The effects of revoking an account. -/
abbrev accountEffects : List Effect :=
  [.listRegistrations, .unregister, .dequeue, .revoke, .answer, .other]

/-- The effects of a task. -/
def Task.effects : Task → List Effect
  | flush _ => [.flush, .ack, .other]
  | cleanup => [.other]
  | deliver _ _ => [.enqueue, .flush, .ack, .other]
  | adminPush _ _ => [.enqueue, .flush, .ack, .answer, .other]
  | selfTest _ _ => [.enqueue, .flush, .ack, .answer, .other]
  | event _ _ =>
    [.listRegistrations, .enqueue, .flush, .ack, .release, .complete, .channelState, .other]
  | connect _ _ => [.ackThrough, .flush, .ack, .other]
  | heartbeat _ _ => [.flush, .ack, .other]
  | readAck _ _ => [.ack, .other]
  | disconnect _ _ => [.other]
  | upsertRegistration _ _ =>
    [.checkSession, .register, .readCredential, .writeCredential, .answer, .other]
  | deleteRegistration _ _ => [.unregister, .answer, .other]
  | startMobileAuth _ => [.pend, .answer, .other]
  | twitchOAuthCallback _ _ _ => [.issueCredential, .answer, .other]
  | completeMobileAuth _ =>
    [.redeem, .readCredential, .writeCredential, .openSession, .dropCredential, .answer, .other]
  | leaseMobileToken _ _ => [.useSession, .readCredential, .writeCredential, .answer, .other]
  | deleteMobileSession _ => [.useSession, .answer, .other]
  | revokeMobileDevice _ => [.useSession, .unregister, .dequeue, .revoke, .answer, .other]
  | revokeAllMobileSessions _ => accountEffects

/-- The code has only these effects. -/
def Within (effects : List Effect) {α : Type} (p : Handler α) : Prop :=
  p.Only (fun call => effects.contains call.effect = true) fun _ _ => True

namespace Within

variable {effects effects' : List Effect} {α β : Type}

theorem call {call : Call} {f : call.Ans → Handler β}
    (hcall : effects.contains call.effect) (hf : ∀ ans, Within effects (f ans)) :
    Within effects (Prog.perform call >>= f) :=
  Prog.Only.perform_bind hcall fun ans _ => hf ans

theorem last {call : Call} (hcall : effects.contains call.effect) :
    Within effects (Prog.perform call) :=
  ⟨hcall, fun _ _ => trivial⟩

theorem bind {p : Handler α} {f : α → Handler β} (hp : Within effects p)
    (hf : ∀ a, Within effects (f a)) : Within effects (p >>= f) :=
  Prog.Only.bind hp hf

theorem result {p : Handler (Result α)} {f : Result α → Handler β} (hp : Within effects p)
    (herror : ∀ err, Within effects (f (.error err))) (hok : ∀ a, Within effects (f (.ok a))) :
    Within effects (p >>= f) :=
  hp.bind fun ans => ans.rec herror hok

theorem mono {p : Handler α} (h : Within effects p) (hsub : effects ⊆ effects') :
    Within effects' p :=
  Prog.Only.mono
    (fun _ hcall => List.contains_iff_mem.mpr (hsub (List.contains_iff_mem.mp hcall))) h

end Within

/-! ## The delivery code -/

section Delivery

theorem flushRecords_within (iid : String) (reg : Registration) (rows : List DeliveryRecord) :
    Within [.flush, .ack, .other] (flushRecords iid reg rows) := by
  induction rows with
  | nil => trivial
  | cons row rows ih =>
    rw [flushRecords]
    split_ifs
    · refine .call rfl fun ans => ?_
      cases ans with
      | error =>
        dsimp only
        split_ifs
        · trivial
        · exact .call rfl fun _ => .call rfl fun _ => trivial
      | ok => exact .call rfl fun _ => .call rfl fun _ => ih
    · refine .result (.last rfl) (fun _ => .call rfl fun _ => .call rfl fun _ => trivial)
        fun _ => ?_
      exact .call rfl fun _ => .call rfl fun _ => .call rfl fun _ => ih

theorem flushPending_within (iid : String) : Within [.flush, .ack, .other] (flushPending iid) := by
  refine .call rfl fun _ => .bind (.call rfl fun ans => ?_) fun _ => .call rfl fun _ => trivial
  cases ans with
  | error => trivial
  | ok =>
    exact .call rfl fun _ => .call rfl fun rows => flushRecords_within _ _ rows

theorem enqueueAndFlush_within (now : Time) (reg : Registration) (note : Notification) :
    Within [.enqueue, .flush, .ack, .other] (enqueueAndFlush now reg note) := by
  refine .result (.last rfl) (fun _ => trivial) fun _ => ?_
  refine .result (.last rfl) (fun _ => trivial) fun _ => ?_
  exact ((flushPending_within _).mono (by decide)).bind fun _ => trivial

theorem deliverToRegistration_within (reg : Registration) (note : Notification) :
    Within [.enqueue, .flush, .ack, .other] (deliverToRegistration reg note) := by
  refine .call rfl fun now => ?_
  split_ifs
  · refine .result (.last rfl) (fun _ => trivial) fun _ => ?_
    exact enqueueAndFlush_within _ _ _
  · exact enqueueAndFlush_within _ _ _

theorem adminPush_within (iid : String) (note : Notification) :
    Within [.enqueue, .flush, .ack, .answer, .other] (adminPush iid note) := by
  refine .call rfl fun ans => ?_
  cases ans with
  | error =>
    dsimp only
    split_ifs <;> exact .last rfl
  | ok =>
    dsimp only
    split
    · exact .last rfl
    · refine ((deliverToRegistration_within _ _).mono (by decide)).bind fun ans => ?_
      cases ans <;> exact .last rfl

theorem selfTest_within (iid secret : String) :
    Within [.enqueue, .flush, .ack, .answer, .other] (selfTest iid secret) := by
  refine .call rfl fun ans => ?_
  cases ans with
  | error =>
    dsimp only
    split_ifs <;> exact .last rfl
  | ok =>
    refine .call rfl fun now =>
      ((deliverToRegistration_within _ _).mono (by decide)).bind fun ans => ?_
    cases ans <;> exact .last rfl

theorem connectPushSocket_within (connectionID : String) (message : SocketClientMessage) :
    Within [.ackThrough, .flush, .ack, .other] (connectPushSocket connectionID message) := by
  have hauth : Within [.ackThrough, .flush, .ack, .other] (authenticatePushSocket message) := by
    unfold authenticatePushSocket
    split
    · trivial
    · split
      · trivial
      · refine .call rfl fun allowed => ?_
        split
        · trivial
        · refine .result (.last rfl) (fun _ => trivial) fun _ => ?_
          dsimp only
          split_ifs
          · trivial
          · exact .call rfl fun _ => .call rfl fun _ => trivial
          · trivial
  refine hauth.result (fun _ => trivial) fun _ => ?_
  refine .call rfl fun _ => .result (.last rfl) (fun _ => .call rfl fun _ => trivial) fun _ => ?_
  exact (flushPending_within _).mono (by decide)

theorem heartbeatPushSocket_within (iid connectionID : String) :
    Within [.flush, .ack, .other] (heartbeatPushSocket iid connectionID) := by
  refine .result (.last rfl) (fun _ => .call rfl fun _ => trivial) fun _ => ?_
  exact flushPending_within _

theorem readAck_within (iid eid : String) : Within [.ack, .other] (readAck iid eid) := by
  unfold readAck
  split_ifs
  · exact .call rfl fun _ => .call rfl fun _ => trivial
  · trivial

end Delivery

/-! ## The EventSub worker -/

variable (env : Env)

theorem routeToEach_within (mid subscriptionType : String) (event : EventPayload)
    (regs : List Registration) :
    Within [.enqueue, .flush, .ack, .other] (routeToEach env mid subscriptionType event regs) := by
  induction regs with
  | nil => trivial
  | cons reg regs ih =>
    refine .call rfl fun now => ?_
    split
    · exact ih
    · refine (deliverToRegistration_within _ _).bind fun ans => ?_
      cases ans with
      | ok => exact ih
      | error => exact ih.bind fun _ => trivial

theorem routeToAll_within (mid subscriptionType : String) (event : EventPayload) :
    Within [.listRegistrations, .enqueue, .flush, .ack, .other]
      (routeToAll env mid subscriptionType event) :=
  .call rfl fun regs =>
    ((routeToEach_within env mid subscriptionType event regs).mono (by decide)).bind
      fun _ => trivial

theorem processChannelUpdate_within (mid : String) (envelope : EventSubEnvelope) (cid : String) :
    Within [.listRegistrations, .enqueue, .flush, .ack, .channelState, .other]
      (processChannelUpdate env mid envelope cid) := by
  refine .result (.last rfl) (fun _ => trivial) fun _ => ?_
  dsimp only
  split_ifs
  · refine .call rfl fun _ => .call rfl fun ans => ?_
    cases ans <;> trivial
  · trivial
  · refine ((routeToAll_within env mid _ _).mono (by decide)).result (fun _ => trivial) fun _ => ?_
    refine .call rfl fun _ => .call rfl fun ans => ?_
    cases ans <;> trivial

theorem processEventSubNotification_within (mid : String) (envelope : EventSubEnvelope) :
    Within [.listRegistrations, .enqueue, .flush, .ack, .channelState, .other]
      (processEventSubNotification env mid envelope) := by
  unfold processEventSubNotification
  split_ifs
  · exact .call rfl fun _ => (processChannelUpdate_within env mid envelope _).bind
      fun _ => .call rfl fun _ => trivial
  · exact (routeToAll_within env mid _ _).mono (by decide)

theorem handleQueuedEventSub_within (mid : String) (envelope : EventSubEnvelope) :
    Within [.listRegistrations, .enqueue, .flush, .ack, .release, .complete, .channelState, .other]
      (handleQueuedEventSub env mid envelope) := by
  have hproc := processEventSubNotification_within env mid envelope
  refine (hproc.mono (by decide)).bind fun result => .call rfl fun _ => .call rfl fun _ => ?_
  cases result <;> exact .call rfl fun _ => trivial

/-! ## Twitch credentials -/

theorem refreshCredential_within (now : Time) (cred : AuthCredential) :
    Within [.readCredential, .writeCredential, .other] (refreshCredential env now cred) := by
  refine .result (.last rfl) (fun _ => trivial) fun _ => ?_
  refine .result (.last rfl) (fun _ => trivial) fun _ => ?_
  dsimp only
  split_ifs
  · trivial
  · refine .call rfl fun ans => ?_
    cases ans <;> trivial

theorem lease_within (credID : String) (force : Bool) :
    Within [.readCredential, .writeCredential, .other] (lease env credID force) := by
  refine .call rfl fun _ => .bind (.call rfl fun ans => ?_) fun _ => .call rfl fun _ => trivial
  cases ans with
  | error => trivial
  | ok cred =>
    refine .call rfl fun now => ?_
    split_ifs
    · exact refreshCredential_within env now cred
    · refine .call rfl fun ans => ?_
      cases ans with
      | error =>
        dsimp only
        split_ifs
        · exact refreshCredential_within env now cred
        · trivial
      | ok =>
        dsimp only
        split_ifs
        · trivial
        · refine .call rfl fun ans => ?_
          cases ans <;> trivial
    · trivial

theorem moderatedChannelIDs_within (credID : String) :
    Within [.readCredential, .writeCredential, .other] (moderatedChannelIDs env credID) := by
  refine .call rfl fun now => .call rfl fun cached => ?_
  cases cached with
  | some => trivial
  | none =>
    refine (lease_within env credID false).result (fun _ => trivial) fun _ => ?_
    refine .result (.last rfl) (fun _ => trivial) fun _ => ?_
    exact .call rfl fun _ => trivial

theorem exchangeCode_within (code : String) : Within [.other] (exchangeCode env code) := by
  refine .result (.last rfl) (fun _ => trivial) fun _ => ?_
  refine .result (.last rfl) (fun _ => trivial) fun _ => ?_
  dsimp only
  split
  · trivial
  · split
    · trivial
    · refine .result (.last rfl) (fun _ => trivial) fun _ => ?_
      exact .call rfl fun _ => trivial

/-! ## Registrations -/

theorem upsertRegistration_within (iid : String) (reg : Registration) :
    Within [.checkSession, .register, .readCredential, .writeCredential, .answer, .other]
      (upsertRegistration env iid reg) := by
  have hsave : ∀ reg : Registration,
      Within [.checkSession, .register, .readCredential, .writeCredential, .answer, .other]
        (saveRegistration reg) := by
    intro reg
    refine .call rfl fun now => .call rfl fun ans => ?_
    cases ans with
    | error =>
      dsimp only
      split_ifs <;> exact .last rfl
    | ok => exact .call rfl fun _ => .last rfl
  unfold upsertRegistration
  split
  · exact .last rfl
  · dsimp only
    split
    · exact .last rfl
    · refine .call rfl fun allowed => ?_
      split
      · exact .last rfl
      · split
        · refine .result (.last rfl) (fun _ => .last rfl) fun _ => ?_
          refine .bind ?_ fun _ => hsave _
          refine ((moderatedChannelIDs_within env _).mono (by decide)).bind fun ans => ?_
          cases ans with
          | ok => trivial
          | error =>
            refine .result (.last rfl) (fun _ => trivial) fun _ => ?_
            dsimp only
            split_ifs <;> trivial
        · exact hsave _

theorem deleteRegistration_within (iid secret : String) :
    Within [.unregister, .answer, .other] (deleteRegistration iid secret) := by
  refine .call rfl fun ans => ?_
  cases ans with
  | error =>
    dsimp only
    split_ifs <;> exact .last rfl
  | ok => exact .call rfl fun _ => .call rfl fun _ => .last rfl

/-! ## Signing in and out -/

section Device

variable {effects : List Effect}

theorem withAuthBroker_within {env : Env} {handler : Handler Unit}
    (hans : effects.contains .answer) (h : Within effects handler) :
    Within effects (withAuthBroker env handler) := by
  unfold withAuthBroker
  split_ifs
  · exact h
  · exact .last hans

theorem writeAuthRecordError_within (err : GoError) :
    Within [.answer] (writeAuthRecordError err) := by
  unfold writeAuthRecordError
  split_ifs <;> exact .last rfl

theorem writeOAuthLeaseError_within (err : GoError) :
    Within [.answer] (writeOAuthLeaseError err) := by
  unfold writeOAuthLeaseError
  split_ifs <;> exact .last rfl

theorem startMobileAuth_within (req : MobileAuthStartRequest) :
    Within [.pend, .answer, .other] (startMobileAuth env req) := by
  refine withAuthBroker_within rfl ?_
  split
  · exact .last rfl
  · refine .call rfl fun allowed => ?_
    split
    · exact .last rfl
    · split
      · exact .last rfl
      · refine .result (.last rfl) (fun _ => .last rfl) fun _ => ?_
        refine .call rfl fun now => .call rfl fun ans => ?_
        cases ans with
        | error =>
          dsimp only
          split_ifs <;> exact .last rfl
        | ok => exact .last rfl

theorem twitchOAuthCallback_within (state denied code : String) :
    Within [.issueCredential, .answer, .other] (twitchOAuthCallback env state denied code) := by
  refine withAuthBroker_within rfl ?_
  dsimp only
  split
  · exact .last rfl
  · refine .result (.last rfl) (fun _ => .last rfl) fun _ => ?_
    dsimp only
    split
    · exact .last rfl
    · split
      · exact .last rfl
      · refine ((exchangeCode_within env _).mono (by decide)).result (fun _ => .last rfl)
          fun _ => ?_
        refine .result (.last rfl) (fun _ => .last rfl) fun _ => ?_
        refine .call rfl fun now => .call rfl fun ans => ?_
        cases ans <;> exact .last rfl

theorem completeMobileAuth_within (req : MobileAuthCompleteRequest) :
    Within [.redeem, .readCredential, .writeCredential, .openSession, .dropCredential, .answer,
      .other] (completeMobileAuth env req) := by
  refine withAuthBroker_within rfl ?_
  split
  · exact .last rfl
  · refine .call rfl fun allowed => ?_
    split
    · exact .last rfl
    · refine .result (.last rfl) (fun err => (writeAuthRecordError_within err).mono (by decide))
        fun _ => ?_
      refine ((lease_within env _ false).mono (by decide)).result
        (fun err => .call rfl fun _ => (writeOAuthLeaseError_within err).mono (by decide))
        fun _ => ?_
      refine .call rfl fun ans => ?_
      cases ans with
      | error =>
        refine .call rfl fun _ => ?_
        split_ifs <;> exact .last rfl
      | ok => exact .last rfl

theorem leaseMobileToken_within (device : DeviceCredentials) (force : Bool) :
    Within [.useSession, .readCredential, .writeCredential, .answer, .other]
      (leaseMobileToken env device force) := by
  refine withAuthBroker_within rfl ?_
  dsimp only
  split
  · exact .last rfl
  · refine .result (.last rfl) (fun err => (writeAuthRecordError_within err).mono (by decide))
      fun _ => ?_
    refine ((lease_within env _ force).mono (by decide)).result
        (fun err => (writeOAuthLeaseError_within err).mono (by decide))
      fun _ => ?_
    exact .last rfl

theorem deleteMobileSession_within (device : DeviceCredentials) :
    Within [.useSession, .answer, .other] (deleteMobileSession env device) := by
  refine withAuthBroker_within rfl ?_
  split
  · exact .last rfl
  · refine .call rfl fun ans => ?_
    cases ans with
    | error =>
      dsimp only
      split_ifs <;> exact .last rfl
    | ok => exact .last rfl

theorem revokeDevice_within (iid secret : String) :
    Within [.unregister, .dequeue, .revoke, .answer, .other] (revokeDevice iid secret) := by
  refine .call rfl fun deleted => ?_
  dsimp only
  split
  · split_ifs <;> exact .last rfl
  · refine .result (.last rfl) (fun _ => .last rfl) fun _ => ?_
    refine .call rfl fun ans => ?_
    cases ans with
    | error =>
      dsimp only
      split_ifs <;> exact .last rfl
    | ok => exact .call rfl fun _ => .call rfl fun _ => .last rfl

theorem revokeStaleDevice_within (iid secret : String) :
    Within [.unregister, .dequeue, .revoke, .answer, .other] (revokeStaleDevice iid secret) := by
  refine .call rfl fun ans => ?_
  cases ans with
  | error =>
    dsimp only
    split_ifs <;> exact .last rfl
  | ok => exact revokeDevice_within iid secret

theorem revokeMobileDevice_within (device : DeviceCredentials) :
    Within [.useSession, .unregister, .dequeue, .revoke, .answer, .other]
      (revokeMobileDevice env device) := by
  have hstale : ∀ iid secret : String,
      Within [.useSession, .unregister, .dequeue, .revoke, .answer, .other]
        (revokeStaleDevice iid secret) :=
    fun iid secret =>
      (revokeStaleDevice_within iid secret).mono (by decide)
  refine withAuthBroker_within rfl ?_
  dsimp only
  split
  · exact .last rfl
  · refine .call rfl fun ans => ?_
    cases ans with
    | ok => exact (revokeDevice_within _ _).mono (by decide)
    | error =>
      dsimp only
      split
      · exact .last rfl
      · split
        · refine .call rfl fun ans => ?_
          cases ans with
          | ok bound => cases bound with
            | true => exact .last rfl
            | false => exact hstale _ _
          | error =>
            dsimp only
            split
            · exact .last rfl
            · split
              · exact .last rfl
              · exact hstale _ _
        · split
          · exact hstale _ _
          · exact .last rfl

theorem revokeAccountSessions_within (iid uid : String) :
    Within accountEffects (revokeAccountSessions env iid uid) := by
  have htoks : ∀ credentials : List AuthCredential,
      Within accountEffects (revokeAccessTokens env credentials) := by
    intro credentials
    induction credentials with
    | nil => trivial
    | cons cred credentials ih =>
      refine .bind ?_ fun _ => ih
      exact .call rfl fun _ => .call rfl fun _ => .call rfl fun _ => trivial
  have hqueues : ∀ iids : List String, Within accountEffects (deleteDeliveriesOf iids) := by
    intro iids
    induction iids with
    | nil => trivial
    | cons iid iids ih =>
      refine .result (.last rfl) (fun _ => trivial) fun _ => ?_
      exact ih
  have hclose : ∀ iids : List String, Within accountEffects (closeSockets iids) := by
    intro iids
    induction iids with
    | nil => trivial
    | cons iid iids ih => exact .call rfl fun _ => ih
  refine .call rfl fun targets => ?_
  dsimp only
  split
  · exact .last rfl
  · refine .call rfl fun regs => (htoks _).bind fun _ => .result (.last rfl) (fun _ => .last rfl)
      fun _ => ?_
    refine (hqueues _).result (fun _ => .last rfl) fun _ => ?_
    refine .result (.last rfl) (fun _ => .last rfl) fun _ => ?_
    exact (hclose _).bind fun _ => .call rfl fun _ => .last rfl

theorem revokeNamedAccount_within (iid uid : String) :
    Within accountEffects (revokeNamedAccount env iid uid) := by
  unfold revokeNamedAccount
  split
  · exact .last rfl
  · exact revokeAccountSessions_within env iid uid

theorem revokeStaleAccount_within (iid secret : String) :
    Within accountEffects (revokeStaleAccount env iid secret) := by
  refine .call rfl fun ans => ?_
  cases ans with
  | error =>
    dsimp only
    split_ifs <;> exact .last rfl
  | ok => exact revokeNamedAccount_within env iid _

theorem revokeAllMobileSessions_within (device : DeviceCredentials) :
    Within accountEffects (revokeAllMobileSessions env device) := by
  refine withAuthBroker_within rfl ?_
  dsimp only
  split
  · exact .last rfl
  · refine .call rfl fun ans => ?_
    cases ans with
    | ok => exact revokeNamedAccount_within env _ _
    | error =>
      dsimp only
      split
      · exact .last rfl
      · split
        · refine .call rfl fun ans => ?_
          cases ans with
          | ok bound => cases bound with
            | true => exact .last rfl
            | false => exact revokeStaleAccount_within env _ _
          | error =>
            dsimp only
            split
            · exact .last rfl
            · split
              · exact .last rfl
              · exact revokeStaleAccount_within env _ _
        · exact .last rfl

end Device

theorem code_within (t : Task) : Within t.effects (t.code env) := by
  cases t with
  | flush iid => exact flushPending_within iid
  | cleanup => exact .call rfl fun _ => .call rfl fun _ => trivial
  | deliver reg note =>
    exact (deliverToRegistration_within reg note).bind fun _ => trivial
  | adminPush iid note => exact adminPush_within iid note
  | selfTest iid secret => exact selfTest_within iid secret
  | event mid envelope => exact handleQueuedEventSub_within env mid envelope
  | connect connectionID message => exact connectPushSocket_within connectionID message
  | heartbeat iid connectionID =>
    exact heartbeatPushSocket_within iid connectionID
  | readAck iid eid => exact readAck_within iid eid
  | disconnect => exact .call rfl fun _ => trivial
  | upsertRegistration iid reg =>
    exact upsertRegistration_within env iid reg
  | deleteRegistration iid secret =>
    exact deleteRegistration_within iid secret
  | startMobileAuth req => exact startMobileAuth_within env req
  | twitchOAuthCallback state denied code => exact twitchOAuthCallback_within env state denied code
  | completeMobileAuth req => exact completeMobileAuth_within env req
  | leaseMobileToken device force => exact leaseMobileToken_within env device force
  | deleteMobileSession device => exact deleteMobileSession_within env device
  | revokeMobileDevice device => exact revokeMobileDevice_within env device
  | revokeAllMobileSessions device => exact revokeAllMobileSessions_within env device

theorem ensures_within {env : Env} {may : ServerView → Task → Bool} {G : ServerCondition}
    {w : World} : (server env may).Ensures (started w) G fun v e =>
      G v e ∧ e.task.effects.contains e.op.effect := by
  have hcode : ∀ t, System.Follows (fun (_ : Unit) _ _ => ())
      (fun _ call => t.effects.contains call.effect = true) (fun _ _ => True)
      ((server env may).code t) () :=
    fun t => System.Follows.mono
      (System.follows_of_only (code_within env t) fun _ hcall => ⟨hcall, fun _ => rfl⟩)
      fun _ _ _ => trivial
  exact System.ensures_follows hcode rfl rfl

end Ferventio
