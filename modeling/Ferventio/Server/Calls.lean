import Ferventio.Auth.Postgres
import Ferventio.Lib.Interleave

/-!
# The calls of the server

Everything a handler does to the world outside its own goroutine is a call: one method of a
repository, one request to Twitch, one write to a socket, a clock reading, a random token, taking
or releasing a lock, the HTTP answer. A call is atomic. A PostgreSQL call may fail: refused, with no
effect, or answered by an error although its transaction was committed. The listing methods of that
backend answer a failure with an empty list.
-/

namespace Ferventio

/-! ## Twitch -/

/-- A token of Twitch. -/
structure TwitchTokenResponse where
  accessToken : String := ""
  refreshToken : String := ""
  expiresIn : Int := 0
deriving DecidableEq

/-- What Twitch says of a token. -/
structure TwitchValidationResponse where
  clientID : String := ""
  userID : String := ""
  login : String := ""
  scopes : List String := []
  expiresIn : Int := 0
deriving DecidableEq

/-- A subscription to create. -/
structure EventSubSubscriptionSpec where
  type : String
  version : String
  condition : List (String × String)
  callback : String
  secret : String
deriving DecidableEq

/-- A subscription at Twitch. -/
structure EventSubSubscription where
  id : String
  status : String
  type : String
  version : String
  condition : List (String × String)
  callback : String
deriving DecidableEq

/-- What a token request presents. -/
inductive TokenGrant
  | refreshToken (token : String)
  | authorizationCode (code : String)
deriving DecidableEq

/-! ## The socket protocol -/

/-- The messages to an app. -/
inductive SocketMessageType
  | notification
  | authenticated
  | heartbeat
  | error
deriving DecidableEq

/-- A message to an app. -/
structure SocketServerMessage where
  type : SocketMessageType
  eventID : String := ""
  payload : Option Notification := none
  message : String := ""
  connectionID : String := ""
deriving DecidableEq

/-! ## Calls -/

/-- The methods of the registrations. -/
inductive RegistrationCall
  | upsert (registration : Registration)
  | list
  | get (installationID : String)
  | authenticate (installationID deviceSecret : String)
  | delete (installationID deviceSecret : String)
  | deleteForAccount (userID : String) (installationIDs : List String)

/-- The answers. -/
@[reducible] def RegistrationCall.Ans : RegistrationCall → Type
  | upsert _ => Result Unit
  | list => List Registration
  | get _ => Result Registration
  | authenticate _ _ => Result Registration
  | delete _ _ => Result Unit
  | deleteForAccount _ _ => Result (List String)

/-- The methods of the queues. -/
inductive DeliveryCall
  | enqueue (record : DeliveryRecord)
  | pendingForInstallation (installationID : String) (limit : Int) (now : Time)
  | markSent (id : String) (sentAt : Time)
  | markFailed (id : String) (failure : GoError) (failedAt : Time)
  | ackThrough (installationID eventID : String) (ackedAt : Time)
  | ack (installationID eventID : String) (ackedAt : Time)
  | deleteForInstallation (installationID : String)
  | enqueueEventSub (messageID : String) (envelope : EventSubEnvelope) (now : Time)
  | pendingEventSub (limit : Int) (now : Time)
  | completeEventSub (messageID : String) (completedAt : Time)
  | markEventSubFailed (messageID : String) (failure : GoError) (failedAt : Time)
  | retryEventSub (messageID : String) (now : Time)
  | channelStateChanges (channelID title categoryName : String)
  | saveChannelState (channelID title categoryName : String) (now : Time)
  | cleanup (now : Time)

/-- The answers. -/
@[reducible] def DeliveryCall.Ans : DeliveryCall → Type
  | enqueue _ => Result (DeliveryRecord × Bool)
  | pendingForInstallation _ _ _ => List DeliveryRecord
  | markSent _ _ => Result Unit
  | markFailed _ _ _ => Result Unit
  | ackThrough _ _ _ => Result Unit
  | ack _ _ _ => Result Unit
  | deleteForInstallation _ => Result Nat
  | enqueueEventSub _ _ _ => Result (Option EventSubInboxRecord × Bool)
  | pendingEventSub _ _ => List EventSubInboxRecord
  | completeEventSub _ _ => Result Unit
  | markEventSubFailed _ _ _ => Result Unit
  | retryEventSub _ _ => Result Unit
  | channelStateChanges _ _ _ => Result ChannelChanges
  | saveChannelState _ _ _ _ => Result Unit
  | cleanup _ => Result Unit

/-- The methods of the logins. -/
inductive AuthCall
  | putPending (state : String) (record : PendingAuthRecord)
  | getPending (state : String)
  | consumePending (state : String)
  | putHandoff (code : String) (record : AuthHandoffRecord)
  | consumeHandoff (code installationID deviceSecret state : String)
  | putCredential (credential : AuthCredential)
  | putCredentialAndHandoff (credential : AuthCredential) (code : String)
      (record : AuthHandoffRecord)
  | getCredential (id : String)
  | credentialForInstallation (installationID deviceSecret : String)
  | createSession (credentialID installationID deviceSecret : String) (ttl : Duration)
  | resolveSession (token installationID deviceSecret : String) (renewTTL : Duration)
  | sessionAccount (token installationID deviceSecret : String)
  | deleteSession (token installationID deviceSecret : String)
  | installationBinding (installationID deviceSecret : String)
  | revokeInstallation (installationID deviceSecret : String)
  | accountRevocationTargets (userID : String)
  | revokeAccount (userID : String) (extraInstallationIDs : List String)
  | deleteCredentialIfUnused (credentialID : String)

/-- The answers. -/
@[reducible] def AuthCall.Ans : AuthCall → Type
  | putPending _ _ => Result Unit
  | getPending _ => Result PendingAuthRecord
  | consumePending _ => Result PendingAuthRecord
  | putHandoff _ _ => Result Unit
  | consumeHandoff _ _ _ _ => Result AuthHandoffRecord
  | putCredential _ => Result Unit
  | putCredentialAndHandoff _ _ _ => Result Unit
  | getCredential _ => Result AuthCredential
  | credentialForInstallation _ _ => Result AuthCredential
  | createSession _ _ _ _ => Result (String × Time)
  | resolveSession _ _ _ _ => Result AuthSessionRecord
  | sessionAccount _ _ _ => Result (String × Bool)
  | deleteSession _ _ _ => Result Unit
  | installationBinding _ _ => Result Bool
  | revokeInstallation _ _ => Result Nat
  | accountRevocationTargets _ => Result AccountRevocationTargets
  | revokeAccount _ _ => Result AccountRevocationResult
  | deleteCredentialIfUnused _ => Result Unit

/-- The connections of the push hub. -/
inductive HubCall
  | attach (installationID connectionID : String)
  | detach (installationID connectionID : String)
  | send (installationID : String) (message : SocketServerMessage)
  | sendOn (installationID connectionID : String) (message : SocketServerMessage)
  | close (installationID : String)

/-- The answers. -/
@[reducible] def HubCall.Ans : HubCall → Type
  | attach _ _ => Unit
  | detach _ _ => Unit
  | send _ _ => Result Unit
  | sendOn _ _ _ => Result Unit
  | close _ => Unit

/-- The requests to Twitch. -/
inductive TwitchCall
  | requestToken (grant : TokenGrant)
  | validate (accessToken : String)
  | revokeAccessToken (accessToken : String)
  | moderatedChannels (userID accessToken : String)
  | listSubscriptions
  | createSubscription (spec : EventSubSubscriptionSpec)
  | deleteSubscription (id : String)

/-- The answers. -/
@[reducible] def TwitchCall.Ans : TwitchCall → Type
  | requestToken _ => Result TwitchTokenResponse
  | validate _ => Result TwitchValidationResponse
  | revokeAccessToken _ => Result Unit
  | moderatedChannels _ _ => Result (List String)
  | listSubscriptions => Result (List EventSubSubscription)
  | createSubscription _ => Result Unit
  | deleteSubscription _ => Result Unit

/-- One per installation, one per channel, and stripes for credentials. -/
inductive Mutex
  | flush (installationID : String)
  | channelState (channelID : String)
  | credential (stripe : Nat)
deriving DecidableEq

/-- What else a handler uses. -/
inductive EnvCall
  | now
  | randomToken (start : String) (size : Nat)
  | lock (mutex : Mutex)
  | unlock (mutex : Mutex)
  | takeRateLimit (installationID deviceSecret : String)
  | sendPush (registration : Registration) (payload : Notification)
  | cachedModeratedChannels (credentialID : String) (now : Time)
  | cacheModeratedChannels (credentialID : String) (ids : List String) (expiresAt : Time)
  | releaseEventSub (messageID : String)
  | requestEventSubReconcile
  | respond (status : Nat) (text : String)

/-- The answers. -/
@[reducible] def EnvCall.Ans : EnvCall → Type
  | now => Time
  | randomToken _ _ => Result String
  | lock _ => Unit
  | unlock _ => Unit
  | takeRateLimit _ _ => Bool
  | sendPush _ _ => Result Unit
  | cachedModeratedChannels _ _ => Option (List String)
  | cacheModeratedChannels _ _ _ => Unit
  | releaseEventSub _ => Unit
  | requestEventSubReconcile => Unit
  | respond _ _ => Unit

/-- All calls of a handler. -/
inductive Call
  | registration (call : RegistrationCall)
  | delivery (call : DeliveryCall)
  | auth (call : AuthCall)
  | hub (call : HubCall)
  | twitch (call : TwitchCall)
  | env (call : EnvCall)

/-- The answers. -/
@[reducible] def Call.Ans : Call → Type
  | registration call => call.Ans
  | delivery call => call.Ans
  | auth call => call.Ans
  | hub call => call.Ans
  | twitch call => call.Ans
  | env call => call.Ans

/-- A handler, or a part of one. -/
abbrev Handler := Prog Call Call.Ans

/-- The calls of a handler, with their answers. -/
abbrev Trace := List (Sigma Call.Ans)

/-- Call the registrations. -/
def store (call : RegistrationCall) : Handler call.Ans := Prog.perform (Call.registration call)
/-- Call the queues. -/
def deliveries (call : DeliveryCall) : Handler call.Ans := Prog.perform (Call.delivery call)
/-- Call the logins. -/
def authStore (call : AuthCall) : Handler call.Ans := Prog.perform (Call.auth call)
/-- Call the sockets. -/
def hub (call : HubCall) : Handler call.Ans := Prog.perform (Call.hub call)
/-- Call Twitch. -/
def twitch (call : TwitchCall) : Handler call.Ans := Prog.perform (Call.twitch call)
/-- Call the rest. -/
def host (call : EnvCall) : Handler call.Ans := Prog.perform (Call.env call)

/-- The HTTP answer; `text` is the message of an error. -/
def respond (status : Nat) (text : String) : Handler Unit := host (.respond status text)

end Ferventio
