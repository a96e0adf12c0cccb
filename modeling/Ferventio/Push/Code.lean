import Ferventio.Server.World

/-!
# Queueing and flushing notifications

`application/delivery_dispatch.go` and `application/push_socket.go`: a notification is written to
the installation's queue and the queue is flushed, over the installation's socket when its
registration asks for that, and through the push sender otherwise. The socket's handler is cut
into connecting, one heartbeat, one acknowledgement, and disconnecting. Audit records and log lines
are left out.
-/

namespace Ferventio

open Strings

/-! ## Flushing -/

/-- The notification as it is handed over. -/
def deliveryPayload (record : DeliveryRecord) : Notification :=
  { record.notification with eventID := record.eventID }

/-- The message that carries a record to a socket. -/
def notificationMessage (record : DeliveryRecord) : SocketServerMessage :=
  { type := .notification, eventID := record.eventID, payload := some (deliveryPayload record) }

/-- The loop of `flushPending` over the fetched records. -/
def flushRecords (installationID : String) (registration : Registration) :
    List DeliveryRecord → Handler Unit
  | [] => pure ()
  | record :: records => do
    if registration.provider = "embedded_socket" then
      match ← hub (.send installationID (notificationMessage record)) with
      | .error err =>
        if err.is .registrationNotFound then pure ()
        else
          let failedAt ← host .now
          let _ ← deliveries (.markFailed record.id err failedAt)
          pure ()
      | .ok () =>
        let sentAt ← host .now
        let _ ← deliveries (.markSent record.id sentAt)
        flushRecords installationID registration records
    else
      match ← host (.sendPush registration (deliveryPayload record)) with
      | .error err =>
        let failedAt ← host .now
        let _ ← deliveries (.markFailed record.id err failedAt)
        pure ()
      | .ok () =>
        let sentAt ← host .now
        let _ ← deliveries (.markSent record.id sentAt)
        let _ ← deliveries (.ack registration.installationID record.eventID sentAt)
        flushRecords installationID registration records

/-- `flushPending` inside the mutex. -/
def flushLocked (installationID : String) : Handler Unit := do
  match ← store (.get installationID) with
  | .error _ => pure ()
  | .ok registration =>
    let now ← host .now
    let records ← deliveries (.pendingForInstallation installationID 100 now)
    flushRecords installationID registration records

/-- Push what is due, under the mutex. -/
def flushPending (installationID : String) : Handler Unit := do
  let _ ← host (.lock (.flush installationID))
  flushLocked installationID
  let _ ← host (.unlock (.flush installationID))
  pure ()

/-! ## Queueing -/

/-- How long a notification is of use. -/
def notificationTTL (eventType : String) : Duration :=
  if eventType = "title_change" ∨ eventType = "game_change" then 30 * minute
  else if eventType = "stream_online" then 2 * hour
  else 24 * hour

/-- An identifier, a type and a creation time. -/
def notificationDefaults (eventID : String) (now : Time) (notification : Notification) :
    Notification :=
  { notification with
    eventID := eventID
    type := if notification.type = "" then "generic" else notification.type
    createdAtEpochMillis :=
      if notification.createdAtEpochMillis = 0 then unixMilli now
      else notification.createdAtEpochMillis }

/-- The record that `deliverToRegistration` enqueues. -/
def deliveryFor (deliveryID : String) (now : Time) (registration : Registration)
    (notification : Notification) : DeliveryRecord :=
  { id := deliveryID
    eventID := notification.eventID
    installationID := registration.installationID
    notification := notification
    status := .pending
    availableAt := now
    expiresAt := now + notificationTTL notification.type
    createdAt := now }

/-- `deliverToRegistration` with an identifier. -/
def enqueueAndFlush (now : Time) (registration : Registration) (notification : Notification) :
    Handler (Result Unit) := do
  match ← host (.randomToken "pd_" 18) with
  | .error err => pure (.error (.wrapped "create delivery id" err))
  | .ok deliveryID =>
    match ← deliveries (.enqueue (deliveryFor deliveryID now registration notification)) with
    | .error err => pure (.error (.wrapped "enqueue notification" err))
    | .ok _ =>
      flushPending registration.installationID
      pure (.ok ())

/-- Queue a notification, and flush. -/
def deliverToRegistration (registration : Registration) (notification : Notification) :
    Handler (Result Unit) := do
  let now ← host .now
  if notification.eventID = "" then
    match ← host (.randomToken "pe_" 18) with
    | .error err => pure (.error (.wrapped "create event id" err))
    | .ok eventID =>
      enqueueAndFlush now registration (notificationDefaults eventID now notification)
  else
    enqueueAndFlush now registration (notificationDefaults notification.eventID now notification)

/-- `adminPush` with the token and the decoded notification. -/
def adminPush (installationID : String) (notification : Notification) : Handler Unit := do
  match ← store (.get installationID) with
  | .error err =>
    if err.is .registrationNotFound then respond 404 "registration not found"
    else respond 500 "registration lookup failed"
  | .ok registration =>
    if trimSpace notification.body = "" then respond 400 "body is required"
    else
      let title := if notification.title = "" then "Ferventio" else notification.title
      match ← deliverToRegistration registration { notification with title } with
      | .error err => respond 502 err.text
      | .ok () => respond 202 ""

/-- Push a test notification. -/
def selfTest (installationID deviceSecret : String) : Handler Unit := do
  match ← store (.authenticate installationID deviceSecret) with
  | .error err =>
    if err.is .registrationNotFound then respond 404 "registration not found"
    else if err.is .deviceSecretMismatch then respond 403 "device secret mismatch"
    else respond 500 "registration lookup failed"
  | .ok registration =>
    let now : Time ← host .now
    match ← deliverToRegistration registration
        { title := "Ferventio"
          body := "Тестовое push-уведомление работает"
          messageID := "self-test-" ++ toString (now - unixEpoch) } with
    | .error _ => respond 502 "push delivery failed"
    | .ok () => respond 202 ""

/-- The cleanup at the end of a worker's tick. -/
def runCleanup : Handler Unit := do
  let now ← host .now
  let _ ← deliveries (.cleanup now)
  pure ()

/-! ## The socket -/

/-- A message of an app. -/
structure SocketClientMessage where
  type : String
  protocolVersion : Int := 0
  installationID : String := ""
  deviceSecret : String := ""
  lastEventID : String := ""
  eventID : String := ""
deriving DecidableEq

/-- The identifiers have their lengths. -/
def validateMobileDevice (installationID deviceSecret : String) : Result Unit :=
  let installationID := trimSpace installationID
  let deviceSecret := trimSpace deviceSecret
  if installationID = "" ∨ installationID.utf8ByteSize > 128 then
    .error (.plain "invalid installationId")
  else if deviceSecret.utf8ByteSize < 32 ∨ deviceSecret.utf8ByteSize > 256 then
    .error (.plain "invalid deviceSecret")
  else .ok ()

/-- Check the first message of a socket. -/
def validatePushSocketAuthentication (message : SocketClientMessage) : Result Unit :=
  if message.type ≠ "authenticate" then .error (.plain "unsupported push protocol")
  else
    let protocolVersion := if message.protocolVersion = 0 then 1 else message.protocolVersion
    if protocolVersion ≠ 1 then .error (.plain "unsupported push protocol") else .ok ()

/-- Who opens the socket. -/
def authenticatePushSocket (message : SocketClientMessage) : Handler (Result Registration) := do
  match validatePushSocketAuthentication message with
  | .error err => pure (.error err)
  | .ok () =>
    match validateMobileDevice message.installationID message.deviceSecret with
    | .error _ => pure (.error (.plain "push authentication failed"))
    | .ok () =>
      if !(← host (.takeRateLimit message.installationID message.deviceSecret)) then
        pure (.error (.plain "push authentication rate limited"))
      else
        match ← store (.authenticate message.installationID message.deviceSecret) with
        | .error _ => pure (.error (.plain "push authentication failed"))
        | .ok registration =>
          if registration.provider ≠ "embedded_socket" then
            pure (.error (.plain "push authentication failed"))
          else
            if message.lastEventID ≠ "" then
              let now ← host .now
              let _ ← deliveries (.ackThrough registration.installationID message.lastEventID now)
              pure (.ok registration)
            else pure (.ok registration)

/-- `pushSocket` up to the end of its first flush. -/
def connectPushSocket (connectionID : String) (message : SocketClientMessage) : Handler Unit := do
  match ← authenticatePushSocket message with
  | .error _ => pure ()
  | .ok registration =>
    let installationID := registration.installationID
    let _ ← hub (.attach installationID connectionID)
    match ← hub (.sendOn installationID connectionID { type := .authenticated, connectionID }) with
    | .error _ =>
      let _ ← hub (.detach installationID connectionID)
      pure ()
    | .ok () => flushPending installationID

/-- One tick of the heartbeat. -/
def heartbeatPushSocket (installationID connectionID : String) : Handler Unit := do
  match ← hub (.sendOn installationID connectionID { type := .heartbeat }) with
  | .error _ =>
    let _ ← hub (.detach installationID connectionID)
    pure ()
  | .ok () => flushPending installationID

/-- The reader goroutine on a message of type `ack`. -/
def readAck (installationID eventID : String) : Handler Unit := do
  if eventID ≠ "" then
    let now ← host .now
    let _ ← deliveries (.ack installationID eventID now)
    pure ()
  else pure ()

/-- A socket was closed. -/
def disconnectPushSocket (installationID connectionID : String) : Handler Unit := do
  let _ ← hub (.detach installationID connectionID)
  pure ()

end Ferventio
