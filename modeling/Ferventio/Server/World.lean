import Ferventio.Server.Calls

/-!
# The world and the meaning of the calls

* **`World`**: the three stores, the hub's connections, the held mutexes, the server's caches and,
  on Twitch's side, the refresh tokens it accepts and the registered EventSub subscriptions.
* **`exec`**: what each call answers and does. Only taking a mutex that is held blocks.
-/

namespace Ferventio

/-- The two stores. -/
inductive Backend
  | memory
  | postgres
deriving DecidableEq

/-- A database call is refused, or committed with the answer lost. -/
inductive Fault
  | refused
  | answerLost
deriving DecidableEq

/-- The environment's part in one call. -/
structure Choice where
  now : Time := 1
  fault : Option Fault := none
  token : Option String := some ""
  allowed : Bool := true
  failure : Option GoError := none
  tokenResponse : TwitchTokenResponse := {}
  validation : TwitchValidationResponse := {}
  channels : List String := []
  visits : (s : AuthDiskState) → Memory.Visits s := Memory.Visits.stored

/-- A closed connection stays attached until it is detached. -/
structure Connection where
  connectionID : String
  isOpen : Bool := true
deriving DecidableEq

/-- The state of the server. -/
structure World where
  registrations : RegistrationTable := ∅
  deliveries : DeliveryDiskState := {}
  auth : AuthDiskState := {}
  connections : Table String Connection := ∅
  locked : List Mutex := []
  moderatedCache : Table String (List String × Time) := ∅
  eventInFlight : List String := []
  reconcileRequested : Bool := false
  refreshTokens : List String := []
  subscriptions : List EventSubSubscription := []

/-- The settings that the modelled code reads. -/
structure ServerConfig where
  twitchClientID : String := ""
  twitchClientSecret : String := ""
  authEnabled : Bool := true
  authScopes : List String := []
  authAccessRefreshAhead : Duration := 0
  authSessionTTL : Duration := 0
  authHandoffTTL : Duration := 0
  authStateTTL : Duration := 0
  eventSubSecret : String := ""
  eventSubCallbackURL : String := ""
  senderConfigured : Bool := true

/-- What is fixed: the backend, the settings, and functions of the Go libraries that are left
open. -/
structure Env where
  backend : Backend
  cfg : ServerConfig
  hashSecret : String → String
  toLower : String → String
  equalFold : String → String → Bool
  publicHTTPSURL : String → Bool
  validateAppCallbackURI : String → Result Unit
  lockStripe : String → Nat

/-- A server whose library functions compute. -/
def Env.sample (backend : Backend) : Env :=
  { backend
    cfg :=
      { twitchClientID := "client"
        twitchClientSecret := "secret"
        authAccessRefreshAhead := 5 * minute
        authSessionTTL := 720 * hour
        authHandoffTTL := 5 * minute
        authStateTTL := 10 * minute
        eventSubSecret := "secret"
        eventSubCallbackURL := "https://push/eventsub" }
    hashSecret := fun secret => "#" ++ secret
    toLower := id
    equalFold := fun a b => a == b
    publicHTTPSURL := fun _ => true
    validateAppCallbackURI := fun _ => .ok ()
    lockStripe := String.length }

/-- With the PostgreSQL stores. -/
abbrev Env.pg : Env := .sample .postgres

/-- With the in-memory stores. -/
abbrev Env.mem : Env := .sample .memory

/-- `eventSubManager.enabled`. -/
def ServerConfig.eventSubEnabled (cfg : ServerConfig) : Bool :=
  cfg.eventSubSecret != "" && cfg.eventSubCallbackURL != "" && cfg.twitchClientID != "" &&
    cfg.twitchClientSecret != ""

/-! ## Repositories -/

/-- A PostgreSQL call under a fault; `failed` is the answer for it. -/
def withFault {α σ : Type} (x : Choice) (failed : α) (s : σ) (r : α × σ) : α × σ :=
  match x.fault with
  | none => r
  | some .refused => (failed, s)
  | some .answerLost => (failed, r.2)

namespace Memory

/-- The memory store of the registrations. -/
def execRegistration (H : String → String) :
    (call : RegistrationCall) → RegistrationTable → call.Ans × RegistrationTable
  | .upsert registration, t => upsert H registration t
  | .list, t => (list t, t)
  | .get installationID, t => (get installationID t, t)
  | .authenticate installationID deviceSecret, t =>
    (authenticate H installationID deviceSecret t, t)
  | .delete installationID deviceSecret, t => delete H installationID deviceSecret t
  | .deleteForAccount userID installationIDs, t => deleteForAccount userID installationIDs t

/-- The memory store of the queues. -/
def execDelivery (x : Choice) :
    (call : DeliveryCall) → DeliveryDiskState → call.Ans × DeliveryDiskState
  | .enqueue record, s => enqueue x.now record s
  | .pendingForInstallation installationID limit now, s =>
    (pendingForInstallation installationID limit now s, s)
  | .markSent id sentAt, s => markSent id sentAt s
  | .markFailed id failure failedAt, s => markFailed id failure failedAt s
  | .ackThrough installationID eventID ackedAt, s => ackThrough installationID eventID ackedAt s
  | .ack installationID eventID ackedAt, s => ack installationID eventID ackedAt s
  | .deleteForInstallation installationID, s => deleteForInstallation installationID s
  | .enqueueEventSub messageID envelope now, s => enqueueEventSub messageID envelope now s
  | .pendingEventSub limit now, s => (pendingEventSub limit now s, s)
  | .completeEventSub messageID completedAt, s => completeEventSub messageID completedAt s
  | .markEventSubFailed messageID failure failedAt, s =>
    markEventSubFailed messageID failure failedAt s
  | .retryEventSub messageID now, s => retryEventSub messageID now s
  | .channelStateChanges channelID title categoryName, s =>
    (channelStateChanges channelID title categoryName s, s)
  | .saveChannelState channelID title categoryName now, s =>
    saveChannelState channelID title categoryName now s
  | .cleanup now, s => cleanup now s

/-- The memory store of the logins. -/
def execAuth (H : String → String) (x : Choice) :
    (call : AuthCall) → AuthDiskState → call.Ans × AuthDiskState
  | .putPending state record, s => putPending H x.now state record s
  | .getPending state, s => (getPending H x.now state s, s)
  | .consumePending state, s => consumePending H x.now state s
  | .putHandoff code record, s => putHandoff H x.now code record s
  | .consumeHandoff code installationID deviceSecret state, s =>
    consumeHandoff H x.now code installationID deviceSecret state s
  | .putCredential credential, s => putCredential credential s
  | .putCredentialAndHandoff credential code record, s =>
    putCredentialAndHandoff H x.now credential code record s
  | .getCredential id, s => (getCredential id s, s)
  | .credentialForInstallation installationID deviceSecret, s =>
    (credentialForInstallation H x.now installationID deviceSecret s (x.visits s), s)
  | .createSession credentialID installationID deviceSecret ttl, s =>
    createSession H x.now x.token credentialID installationID deviceSecret ttl s
  | .resolveSession token installationID deviceSecret renewTTL, s =>
    resolveSession H x.now token installationID deviceSecret renewTTL s
  | .sessionAccount token installationID deviceSecret, s =>
    (sessionAccount H x.now token installationID deviceSecret s, s)
  | .deleteSession token installationID deviceSecret, s =>
    deleteSession H token installationID deviceSecret s
  | .installationBinding installationID deviceSecret, s =>
    (installationBinding H installationID deviceSecret s, s)
  | .revokeInstallation installationID deviceSecret, s =>
    revokeInstallation H installationID deviceSecret s (x.visits s)
  | .accountRevocationTargets userID, s => (accountRevocationTargets userID s, s)
  | .revokeAccount userID extraInstallationIDs, s =>
    revokeAccount userID extraInstallationIDs s (x.visits s)
  | .deleteCredentialIfUnused credentialID, s => deleteCredentialIfUnused credentialID s

end Memory

namespace Postgres

/-- The answer when the database fails. -/
def failedRegistration : (call : RegistrationCall) → call.Ans
  | .upsert _ => .error (databaseError "upsert registration")
  | .list => []
  | .get _ => .error (databaseError "get registration")
  | .authenticate _ _ => .error (databaseError "authenticate registration")
  | .delete _ _ => .error (databaseError "delete registration")
  | .deleteForAccount _ _ => .error (databaseError "delete registrations for account")

/-- The answer when it does not. -/
def answerRegistration (H : String → String) :
    (call : RegistrationCall) → RegistrationTable → call.Ans × RegistrationTable
  | .upsert registration, t => upsert H registration t
  | .list, t => (list t, t)
  | .get installationID, t => (get installationID t, t)
  | .authenticate installationID deviceSecret, t =>
    (authenticate H installationID deviceSecret t, t)
  | .delete installationID deviceSecret, t => delete H installationID deviceSecret t
  | .deleteForAccount userID installationIDs, t => deleteForAccount userID installationIDs t

/-- The database of the registrations. -/
def execRegistration (H : String → String) (x : Choice) (call : RegistrationCall)
    (t : RegistrationTable) : call.Ans × RegistrationTable :=
  withFault x (failedRegistration call) t (answerRegistration H call t)

/-- The answer when the database fails. -/
def failedDelivery : (call : DeliveryCall) → call.Ans
  | .enqueue _ => .error (databaseError "insert delivery")
  | .pendingForInstallation _ _ _ => []
  | .markSent _ _ => .error (databaseError "mark delivery sent")
  | .markFailed _ _ _ => .error (databaseError "mark delivery failed")
  | .ackThrough _ _ _ => .error (databaseError "ack deliveries through event")
  | .ack _ _ _ => .error (databaseError "ack delivery")
  | .deleteForInstallation _ => .error (databaseError "delete installation deliveries")
  | .enqueueEventSub _ _ _ => .error (databaseError "insert EventSub inbox record")
  | .pendingEventSub _ _ => []
  | .completeEventSub _ _ => .error (databaseError "delete completed EventSub inbox record")
  | .markEventSubFailed _ _ _ => .error (databaseError "mark EventSub inbox failed")
  | .retryEventSub _ _ => .error (databaseError "retry EventSub inbox record")
  | .channelStateChanges _ _ _ => .error (databaseError "load channel notification state")
  | .saveChannelState _ _ _ _ => .error (databaseError "save channel notification state")
  | .cleanup _ => .error (databaseError "expire deliveries")

/-- The answer when it does not. -/
def answerDelivery (x : Choice) :
    (call : DeliveryCall) → DeliveryDiskState → call.Ans × DeliveryDiskState
  | .enqueue record, s => enqueue x.now record s
  | .pendingForInstallation installationID limit now, s =>
    (pendingForInstallation installationID limit now s, s)
  | .markSent id sentAt, s => markSent id sentAt s
  | .markFailed id failure failedAt, s => markFailed id failure failedAt s
  | .ackThrough installationID eventID ackedAt, s => ackThrough installationID eventID ackedAt s
  | .ack installationID eventID ackedAt, s => ack installationID eventID ackedAt s
  | .deleteForInstallation installationID, s => deleteForInstallation installationID s
  | .enqueueEventSub messageID envelope now, s => enqueueEventSub messageID envelope now s
  | .pendingEventSub limit now, s => (pendingEventSub limit now s, s)
  | .completeEventSub messageID completedAt, s => completeEventSub messageID completedAt s
  | .markEventSubFailed messageID failure failedAt, s =>
    markEventSubFailed messageID failure failedAt s
  | .retryEventSub messageID now, s => retryEventSub messageID now s
  | .channelStateChanges channelID title categoryName, s =>
    (channelStateChanges channelID title categoryName s, s)
  | .saveChannelState channelID title categoryName now, s =>
    saveChannelState channelID title categoryName now s
  | .cleanup now, s => cleanup now s

/-- The database of the queues. -/
def execDelivery (x : Choice) (call : DeliveryCall) (s : DeliveryDiskState) :
    call.Ans × DeliveryDiskState :=
  withFault x (failedDelivery call) s (answerDelivery x call s)

/-- The answer when the database fails. -/
def failedAuth : (call : AuthCall) → call.Ans
  | .putPending _ _ => .error (databaseError "insert pending auth")
  | .getPending _ => .error (databaseError "get pending auth")
  | .consumePending _ => .error (databaseError "consume pending auth")
  | .putHandoff _ _ => .error (databaseError "insert auth handoff")
  | .consumeHandoff _ _ _ _ => .error (databaseError "load auth handoff")
  | .putCredential _ => .error (databaseError "upsert auth credential")
  | .putCredentialAndHandoff _ _ _ =>
    .error (databaseError "begin credential and handoff transaction")
  | .getCredential _ => .error (databaseError "scan auth credential")
  | .credentialForInstallation _ _ => .error (databaseError "scan auth credential")
  | .createSession _ _ _ _ => .error (databaseError "begin create auth session")
  | .resolveSession _ _ _ _ => .error (databaseError "load auth session")
  | .sessionAccount _ _ _ => .error (databaseError "resolve session account")
  | .deleteSession _ _ _ => .error (databaseError "delete auth session")
  | .installationBinding _ _ => .error (databaseError "load installation auth binding")
  | .revokeInstallation _ _ => .error (databaseError "begin revoke installation")
  | .accountRevocationTargets _ => .error (databaseError "load account credentials")
  | .revokeAccount _ _ => .error (databaseError "begin account revocation")
  | .deleteCredentialIfUnused _ => .error (databaseError "delete unused auth credential")

/-- The answer when it does not. -/
def answerAuth (H : String → String) (x : Choice) :
    (call : AuthCall) → AuthDiskState → call.Ans × AuthDiskState
  | .putPending state record, s => putPending H x.now state record s
  | .getPending state, s => (getPending H x.now state s, s)
  | .consumePending state, s => consumePending H x.now state s
  | .putHandoff code record, s => putHandoff H x.now code record s
  | .consumeHandoff code installationID deviceSecret state, s =>
    consumeHandoff H x.now code installationID deviceSecret state s
  | .putCredential credential, s => putCredential credential s
  | .putCredentialAndHandoff credential code record, s =>
    putCredentialAndHandoff H x.now credential code record s
  | .getCredential id, s => (getCredential id s, s)
  | .credentialForInstallation installationID deviceSecret, s =>
    (credentialForInstallation H x.now installationID deviceSecret s, s)
  | .createSession credentialID installationID deviceSecret ttl, s =>
    createSession H x.now x.token credentialID installationID deviceSecret ttl s
  | .resolveSession token installationID deviceSecret renewTTL, s =>
    resolveSession H x.now token installationID deviceSecret renewTTL s
  | .sessionAccount token installationID deviceSecret, s =>
    (sessionAccount H x.now token installationID deviceSecret s, s)
  | .deleteSession token installationID deviceSecret, s =>
    deleteSession H token installationID deviceSecret s
  | .installationBinding installationID deviceSecret, s =>
    (installationBinding H installationID deviceSecret s, s)
  | .revokeInstallation installationID deviceSecret, s =>
    revokeInstallation H installationID deviceSecret s
  | .accountRevocationTargets userID, s => (accountRevocationTargets userID s, s)
  | .revokeAccount userID extraInstallationIDs, s => revokeAccount userID extraInstallationIDs s
  | .deleteCredentialIfUnused credentialID, s => deleteCredentialIfUnused credentialID s

/-- The database of the logins. -/
def execAuth (H : String → String) (x : Choice) (call : AuthCall) (s : AuthDiskState) :
    call.Ans × AuthDiskState :=
  withFault x (failedAuth call) s (answerAuth H x call s)

end Postgres

/-- The configured store. -/
def execRegistration (env : Env) (x : Choice) (call : RegistrationCall) (t : RegistrationTable) :
    call.Ans × RegistrationTable :=
  match env.backend with
  | .memory => Memory.execRegistration env.hashSecret call t
  | .postgres => Postgres.execRegistration env.hashSecret x call t

/-- The configured store. -/
def execDelivery (env : Env) (x : Choice) (call : DeliveryCall) (s : DeliveryDiskState) :
    call.Ans × DeliveryDiskState :=
  match env.backend with
  | .memory => Memory.execDelivery x call s
  | .postgres => Postgres.execDelivery x call s

/-- The configured store. -/
def execAuth (env : Env) (x : Choice) (call : AuthCall) (s : AuthDiskState) :
    call.Ans × AuthDiskState :=
  match env.backend with
  | .memory => Memory.execAuth env.hashSecret x call s
  | .postgres => Postgres.execAuth env.hashSecret x call s

/-! ## The hub -/

/-- `net.ErrClosed`, the error of a write to a closed connection. -/
def errClosed : GoError := .plain "use of closed network connection"

/-- The sockets. -/
def execHub (x : Choice) : (call : HubCall) → Table String Connection →
    call.Ans × Table String Connection
  | .attach installationID connectionID, t => ((), t.insert installationID ⟨connectionID, true⟩)
  | .detach installationID connectionID, t =>
    if (t.lookup installationID).any (·.connectionID == connectionID) then
      ((), t.erase installationID)
    else ((), t)
  | .send installationID _, t =>
    match t.lookup installationID with
    | none => (.error .registrationNotFound, t)
    | some connection =>
      if !connection.isOpen then (.error errClosed, t)
      else
        match x.failure with
        | some err => (.error err, t.insert installationID { connection with isOpen := false })
        | none => (.ok (), t)
  | .sendOn installationID connectionID _, t =>
    match t.lookup installationID with
    | none => (.error errClosed, t)
    | some connection =>
      if connection.connectionID ≠ connectionID ∨ !connection.isOpen then (.error errClosed, t)
      else
        match x.failure with
        | some err => (.error err, t)
        | none => (.ok (), t)
  | .close installationID, t =>
    match t.lookup installationID with
    | none => ((), t)
    | some connection => ((), t.insert installationID { connection with isOpen := false })

/-! ## Twitch -/

/-- A refresh token that is accepted is exchanged, and then accepted no more. A failed request
changes nothing. -/
def requestToken (x : Choice) (grant : TokenGrant) (accepted : List String) :
    Result TwitchTokenResponse × List String :=
  match x.failure with
  | some err => (.error err, accepted)
  | none =>
    let token := x.tokenResponse
    if token.accessToken = "" ∨ token.refreshToken = "" ∨ token.expiresIn ≤ 0 then
      (.error (.plain "Twitch returned incomplete OAuth tokens"), accepted)
    else
      match grant with
      | .authorizationCode _ => (.ok token, token.refreshToken :: accepted)
      | .refreshToken old =>
        if accepted.contains old then (.ok token, token.refreshToken :: accepted.filter (· != old))
        else (.error .oauthRevoked, accepted)

/-- Twitch validates a token. -/
def validate (x : Choice) : Result TwitchValidationResponse :=
  match x.failure with
  | some err => .error err
  | none =>
    let validation := x.validation
    if validation.clientID = "" ∨ validation.userID = "" ∨ validation.login = "" ∨
        validation.expiresIn ≤ 0 then
      .error (.plain "Twitch returned incomplete validation data")
    else .ok validation

/-- Twitch. -/
def execTwitch (x : Choice) : (call : TwitchCall) → World → call.Ans × World
  | .requestToken grant, w =>
    let r := requestToken x grant w.refreshTokens
    (r.1, { w with refreshTokens := r.2 })
  | .validate _, w => (validate x, w)
  | .revokeAccessToken _, w =>
    (match x.failure with | some err => .error err | none => .ok (), w)
  | .moderatedChannels _ _, w =>
    (match x.failure with | some err => .error err | none => .ok x.channels, w)
  | .listSubscriptions, w =>
    (match x.failure with | some err => .error err | none => .ok w.subscriptions, w)
  | .createSubscription spec, w =>
    match x.failure with
    | some err => (.error err, w)
    | none =>
      let subscription : EventSubSubscription :=
        { id := x.token.getD "", status := "webhook_callback_verification_pending",
          type := spec.type, version := spec.version, condition := spec.condition,
          callback := spec.callback }
      (.ok (), { w with subscriptions := w.subscriptions ++ [subscription] })
  | .deleteSubscription id, w =>
    match x.failure with
    | some err => (.error err, w)
    | none => (.ok (), { w with subscriptions := w.subscriptions.filter (·.id != id) })

/-! ## The rest of the environment -/

/-- Clock, random source, mutexes and the rest. -/
def execEnv (env : Env) (x : Choice) : (call : EnvCall) → World → Option (call.Ans × World)
  | .now, w => some (x.now, w)
  | .randomToken start _, w =>
    match randomToken start x.token with
    | none => some (.error randomTokenError, w)
    | some token => some (.ok token, w)
  | .lock mutex, w =>
    if mutex ∈ w.locked then none else some ((), { w with locked := mutex :: w.locked })
  | .unlock mutex, w => some ((), { w with locked := w.locked.erase mutex })
  | .takeRateLimit _ _, w => some (x.allowed, w)
  | .sendPush _ _, w =>
    if !env.cfg.senderConfigured then some (.error (.plain "push sender is not configured"), w)
    else
      match x.failure with
      | some err => some (.error err, w)
      | none => some (.ok (), w)
  | .cachedModeratedChannels credentialID now, w =>
    match w.moderatedCache.lookup credentialID with
    | none => some (none, w)
    | some (ids, expiresAt) => some (if now < expiresAt then some ids else none, w)
  | .cacheModeratedChannels credentialID ids expiresAt, w =>
    some ((), { w with moderatedCache := w.moderatedCache.insert credentialID (ids, expiresAt) })
  | .releaseEventSub messageID, w =>
    some ((), { w with eventInFlight := w.eventInFlight.filter (· != messageID) })
  | .requestEventSubReconcile, w =>
    some ((), if env.cfg.eventSubEnabled then { w with reconcileRequested := true } else w)
  | .respond _ _, w => some ((), w)

/-- **The meaning of a call.** -/
def exec (env : Env) : (call : Call) → Choice → World → Option (call.Ans × World)
  | .registration call, x, w =>
    let r := execRegistration env x call w.registrations
    some (r.1, { w with registrations := r.2 })
  | .delivery call, x, w =>
    let r := execDelivery env x call w.deliveries
    some (r.1, { w with deliveries := r.2 })
  | .auth call, x, w =>
    let r := execAuth env x call w.auth
    some (r.1, { w with auth := r.2 })
  | .hub call, x, w =>
    let r := execHub x call w.connections
    some (r.1, { w with connections := r.2 })
  | .twitch call, x, w => some (execTwitch x call w)
  | .env call, x, w => execEnv env x call w

/-! ## All methods of the delivery repository -/

/-- The methods of the store. -/
inductive DeliveryOperation
  | call (call : DeliveryCall)
  | listDeliveries (limit : Int)
  | listEventSubInbox (limit : Int)
  | hasSeenEventSub (messageID : String) (now : Time) (ttl : Duration)
  | seenEventSub (messageID : String) (now : Time) (ttl : Duration)
  | forgetEventSub (messageID : String)
  | updateChannelState (channelID title categoryName : String) (now : Time)

namespace DeliveryOperation

/-- The answers. -/
@[reducible] def Ans : DeliveryOperation → Type
  | call c => c.Ans
  | listDeliveries _ => List DeliveryRecord
  | listEventSubInbox _ => List EventSubInboxRecord
  | hasSeenEventSub _ _ _ => Bool
  | seenEventSub _ _ _ => Result Bool
  | forgetEventSub _ => Result Unit
  | updateChannelState _ _ _ _ => Result ChannelChanges

/-- The time that a method is given, or reads. -/
def time (x : Choice) : DeliveryOperation → Time
  | call (.pendingForInstallation _ _ now) => now
  | call (.markSent _ sentAt) => sentAt
  | call (.markFailed _ _ failedAt) => failedAt
  | call (.ackThrough _ _ ackedAt) => ackedAt
  | call (.ack _ _ ackedAt) => ackedAt
  | call (.enqueueEventSub _ _ now) => now
  | call (.pendingEventSub _ now) => now
  | call (.completeEventSub _ completedAt) => completedAt
  | call (.markEventSubFailed _ _ failedAt) => failedAt
  | call (.retryEventSub _ now) => now
  | call (.saveChannelState _ _ _ now) => now
  | call (.cleanup now) => now
  | hasSeenEventSub _ now _ => now
  | seenEventSub _ now _ => now
  | updateChannelState _ _ _ now => now
  | _ => x.now

end DeliveryOperation

/-- The methods of the memory store. -/
def Memory.operate (x : Choice) :
    (op : DeliveryOperation) → DeliveryDiskState → op.Ans × DeliveryDiskState
  | .call c, s => execDelivery x c s
  | .listDeliveries limit, s => (listDeliveries limit s, s)
  | .listEventSubInbox limit, s => (listEventSubInbox limit s, s)
  | .hasSeenEventSub messageID now ttl, s => hasSeenEventSub messageID now ttl s
  | .seenEventSub messageID now ttl, s => seenEventSub messageID now ttl s
  | .forgetEventSub messageID, s => forgetEventSub messageID s
  | .updateChannelState channelID title categoryName now, s =>
    updateChannelState channelID title categoryName now s

/-- The methods of the database. -/
def Postgres.operate (x : Choice) :
    (op : DeliveryOperation) → DeliveryDiskState → op.Ans × DeliveryDiskState
  | .call c, s => answerDelivery x c s
  | .listDeliveries limit, s => (listDeliveries limit s, s)
  | .listEventSubInbox limit, s => (listEventSubInbox limit s, s)
  | .hasSeenEventSub messageID now ttl, s => hasSeenEventSub messageID now ttl s
  | .seenEventSub messageID now ttl, s => seenEventSub messageID now ttl s
  | .forgetEventSub messageID, s => forgetEventSub messageID s
  | .updateChannelState channelID title categoryName now, s =>
    updateChannelState channelID title categoryName now s

/-! ## Which call touches which part of the world -/

variable {env : Env} {call : Call} {x : Choice} {w w' : World} {a : call.Ans}

/-- The registrations after a call. -/
def registrationsAfter (env : Env) (x : Choice) (t : RegistrationTable) : Call → RegistrationTable
  | .registration call => (execRegistration env x call t).2
  | _ => t

/-- The queues after a call. -/
def deliveriesAfter (env : Env) (x : Choice) (s : DeliveryDiskState) : Call → DeliveryDiskState
  | .delivery call => (execDelivery env x call s).2
  | _ => s

/-- The logins after a call. -/
def authAfter (env : Env) (x : Choice) (s : AuthDiskState) : Call → AuthDiskState
  | .auth call => (execAuth env x call s).2
  | _ => s

/-- The reserved messages after a call. -/
def eventInFlightAfter (ids : List String) : Call → List String
  | .env (.releaseEventSub messageID) => ids.filter (· != messageID)
  | _ => ids

theorem execTwitch_stores (x : Choice) (call : TwitchCall) (w : World) :
    (execTwitch x call w).2.registrations = w.registrations ∧
      (execTwitch x call w).2.deliveries = w.deliveries ∧
      (execTwitch x call w).2.auth = w.auth ∧
      (execTwitch x call w).2.eventInFlight = w.eventInFlight := by
  cases call with
  | createSubscription =>
    simp only [execTwitch]
    split <;> exact ⟨rfl, rfl, rfl, rfl⟩
  | deleteSubscription =>
    simp only [execTwitch]
    split <;> exact ⟨rfl, rfl, rfl, rfl⟩
  | _ => exact ⟨rfl, rfl, rfl, rfl⟩

theorem execEnv_stores {call : EnvCall} {a : call.Ans} (h : execEnv env x call w = some (a, w')) :
    w'.registrations = w.registrations ∧ w'.deliveries = w.deliveries ∧ w'.auth = w.auth ∧
      w'.eventInFlight = eventInFlightAfter w.eventInFlight (.env call) := by
  cases call with
  | randomToken =>
    simp only [execEnv] at h
    split at h <;> cases h <;> exact ⟨rfl, rfl, rfl, rfl⟩
  | lock =>
    simp only [execEnv] at h
    split at h <;> cases h
    exact ⟨rfl, rfl, rfl, rfl⟩
  | sendPush =>
    simp only [execEnv] at h
    split at h
    · cases h
      exact ⟨rfl, rfl, rfl, rfl⟩
    · split at h <;> cases h <;> exact ⟨rfl, rfl, rfl, rfl⟩
  | cachedModeratedChannels =>
    simp only [execEnv] at h
    split at h <;> cases h <;> exact ⟨rfl, rfl, rfl, rfl⟩
  | requestEventSubReconcile =>
    simp only [execEnv] at h
    cases h
    split <;> exact ⟨rfl, rfl, rfl, rfl⟩
  | _ =>
    cases h
    exact ⟨rfl, rfl, rfl, rfl⟩

section Exec

variable (h : exec env call x w = some (a, w'))

include h

theorem exec_stores :
    w'.registrations = registrationsAfter env x w.registrations call ∧
      w'.deliveries = deliveriesAfter env x w.deliveries call ∧
      w'.auth = authAfter env x w.auth call ∧
      w'.eventInFlight = eventInFlightAfter w.eventInFlight call := by
  cases call with
  | twitch call =>
    have hw' : w' = (execTwitch x call w).2 := (congrArg Prod.snd (Option.some.inj h)).symm
    rw [hw']
    exact execTwitch_stores x call w
  | env => exact execEnv_stores h
  | _ =>
    cases h
    exact ⟨rfl, rfl, rfl, rfl⟩

theorem exec_registrations : w'.registrations = registrationsAfter env x w.registrations call :=
  (exec_stores h).1

theorem exec_deliveries : w'.deliveries = deliveriesAfter env x w.deliveries call :=
  (exec_stores h).2.1

theorem exec_auth : w'.auth = authAfter env x w.auth call :=
  (exec_stores h).2.2.1

theorem exec_eventInFlight : w'.eventInFlight = eventInFlightAfter w.eventInFlight call :=
  (exec_stores h).2.2.2

end Exec

/-! ## Calls while storage succeeds -/

/-- The meaning of the calls while storage succeeds. -/
def execStored (env : Env) (call : Call) (x : Choice) (w : World) : Option (call.Ans × World) :=
  if x.fault = none then exec env call x w else none

theorem exec_of_execStored (h : execStored env call x w = some (a, w')) :
    x.fault = none ∧ exec env call x w = some (a, w') := by
  unfold execStored at h
  split_ifs at h with hfault
  exact ⟨hfault, h⟩

theorem execStored_auth {call : AuthCall} {a : call.Ans}
    (h : execStored env (.auth call) x w = some (a, w')) :
    x.fault = none ∧ a = (execAuth env x call w.auth).1 ∧
      w' = { w with auth := (execAuth env x call w.auth).2 } := by
  obtain ⟨hfault, h⟩ := exec_of_execStored h
  cases h
  exact ⟨hfault, rfl, rfl⟩

theorem execStored_registration {call : RegistrationCall} {a : call.Ans}
    (h : execStored env (.registration call) x w = some (a, w')) :
    x.fault = none ∧ a = (execRegistration env x call w.registrations).1 ∧
      w' = { w with registrations := (execRegistration env x call w.registrations).2 } := by
  obtain ⟨hfault, h⟩ := exec_of_execStored h
  cases h
  exact ⟨hfault, rfl, rfl⟩

theorem execStored_delivery {call : DeliveryCall} {a : call.Ans}
    (h : execStored env (.delivery call) x w = some (a, w')) :
    x.fault = none ∧ a = (execDelivery env x call w.deliveries).1 ∧
      w' = { w with deliveries := (execDelivery env x call w.deliveries).2 } := by
  obtain ⟨hfault, h⟩ := exec_of_execStored h
  cases h
  exact ⟨hfault, rfl, rfl⟩

end Ferventio
