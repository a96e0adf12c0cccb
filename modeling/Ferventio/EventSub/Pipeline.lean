import Ferventio.Server.Tasks

/-!
# The EventSub pipeline

Messages go from the inbox to the workers through `eventQueue`. A scheduler, that is the webhook,
the chat socket, the inbox drainer or an administrator's retry, reserves the message in
`eventInFlight`, and then sends it or gives the reservation back when the queue is full. A worker
receives a message, processes it, releases it and then completes it or marks it failed, also after
a panic. The code is that of `application/eventsub.go`, `server.go` and `user_chat_eventsub.go`.
-/

namespace Ferventio

namespace Pipeline

open Strings

/-- An event in the queue. -/
structure QueuedEventSub where
  messageID : String
  envelope : EventSubEnvelope

/-! ## Calls -/

/-- A call of the server, on the reservations or the queue, a panic, or the mark that
`processEventSubNotification` has returned. -/
inductive Call
  | server (call : Ferventio.Call)
  | reserveEventSub (messageID : String)
  | send (queued : QueuedEventSub)
  | receive
  | panics
  | returned (messageID : String) (ok : Bool)

/-- The answers. -/
@[reducible] def Call.Ans : Call → Type
  | server call => call.Ans
  | reserveEventSub _ => Bool
  | send _ => Bool
  | receive => QueuedEventSub
  | panics => Bool
  | returned _ _ => Unit

/-- A program of the pipeline. -/
abbrev Code := Prog Call Call.Ans

/-- The world and the queue. -/
structure State where
  world : World := {}
  eventQueue : List QueuedEventSub := []

/-- The receivers that wait, and a panic. -/
structure Choice extends Ferventio.Choice where
  waiting : Nat := 0
  panicked : Bool := false

/-- **The meaning of a call.** A receiver waits for an event; a sender does not wait for room. -/
def exec (env : Env) (capacity : Nat) : (call : Call) → Choice → State → Option (call.Ans × State)
  | .server call, x, s =>
    (Ferventio.exec env call x.toChoice s.world).map fun r => (r.1, { s with world := r.2 })
  | .reserveEventSub messageID, _, s =>
    if messageID ∈ s.world.eventInFlight then some (false, s)
    else some (true,
      { s with world := { s.world with eventInFlight := messageID :: s.world.eventInFlight } })
  | .send queued, x, s =>
    if s.eventQueue.length < capacity + x.waiting then
      some (true, { s with eventQueue := s.eventQueue ++ [queued] })
    else some (false, s)
  | .receive, _, s =>
    match s.eventQueue with
    | [] => none
    | queued :: rest => some (queued, { s with eventQueue := rest })
  | .panics, x, s => some (x.panicked, s)
  | .returned _ _, _, s => some ((), s)

/-! ## Schedulers -/

/-- Read the clock. -/
def now : Code Time := Prog.perform (Call.server (.env .now))

/-- Call the store. -/
def deliveries (call : DeliveryCall) : Code call.Ans := Prog.perform (Call.server (.delivery call))

/-- Release a message. -/
def releaseEventSub (messageID : String) : Code Unit :=
  Prog.perform (Call.server (.env (.releaseEventSub messageID)))

/-- Answer the request. -/
def respond (status : Nat) (text : String) : Code Unit :=
  Prog.perform (Call.server (.env (.respond status text)))

/-- Put a message into the queue. -/
def scheduleEventSub (record : EventSubInboxRecord) : Code Bool :=
  if record.messageID = "" ∨ record.status ≠ .pending then pure false
  else do
    if !(← Prog.perform (Call.reserveEventSub record.messageID)) then pure false
    else if ← Prog.perform (Call.send ⟨record.messageID, record.envelope⟩) then pure true
    else
      let _ ← releaseEventSub record.messageID
      pure false

/-- `EnqueueEventSub` has returned a record to be scheduled. -/
def schedulePending (record : Option EventSubInboxRecord) : Code Unit :=
  match record with
  | none => pure ()
  | some record => do
    if record.messageID ≠ "" ∧ record.status = .pending then
      let _ ← scheduleEventSub record
      pure ()
    else pure ()

/-- The notification case of `eventSubWebhook`. -/
def webhookNotification (messageID : String) (envelope : EventSubEnvelope) : Code Unit := do
  let now ← now
  match ← deliveries (.enqueueEventSub messageID envelope now) with
  | .error _ => respond 503 "EventSub inbox is unavailable"
  | .ok (record, _) =>
    let _ ← schedulePending record
    respond 204 ""

/-- A message of a chat socket. -/
structure UserChatMessage where
  messageID : String
  subscriptionType : String
  subscriptionVersion : String
  subscription : EventSubSubscriptionInfo
  event : EventPayload

/-- Its envelope. -/
def UserChatMessage.envelope (message : UserChatMessage) : EventSubEnvelope where
  subscription := { message.subscription with
    type := firstNonBlank [message.subscription.type, message.subscriptionType]
    version := firstNonBlank [message.subscription.version, message.subscriptionVersion] }
  event := message.event

/-- The id under which a chat message is enqueued. -/
@[irreducible] def UserChatMessage.inboxID (message : UserChatMessage) : String :=
  let messageID := trimSpace (stringValue message.event "message_id")
  if messageID ≠ "" then "chat:" ++ messageID else "ws:" ++ trimSpace message.messageID

/-- Store it, and schedule it. -/
def enqueueUserChatEvent (message : UserChatMessage) : Code (Result Unit) := do
  if message.inboxID = "ws:" then
    pure (.error (.plain "user chat EventSub message ID is missing"))
  else
    let now ← now
    match ← deliveries (.enqueueEventSub message.inboxID message.envelope now) with
    | .error err => pure (.error (.wrapped "persist user chat EventSub event" err))
    | .ok (record, _) =>
      let _ ← schedulePending record
      pure (.ok ())

/-- The loop of the drainer over the pending records. -/
def scheduleEach : List EventSubInboxRecord → Code Unit
  | [] => pure ()
  | record :: records => do
    let _ ← scheduleEventSub record
    scheduleEach records

/-- One pass of `runEventSubInboxDrainer`. -/
def drain : Code Unit := do
  let now ← now
  let records ← deliveries (.pendingEventSub 512 now)
  scheduleEach records

/-- Retry a message by hand. -/
@[irreducible] def adminRetryEventSubInbox (messageID : String) : Code Unit := do
  let messageID := trimSpace messageID
  if messageID = "" then respond 400 "message id is required"
  else
    let now1 ← now
    match ← deliveries (.retryEventSub messageID now1) with
    | .error err =>
      if err.is .registrationNotFound then respond 404 "EventSub inbox item not found"
      else respond 500 "EventSub inbox item was not updated"
    | .ok () =>
      let now2 ← now
      let records ← deliveries (.pendingEventSub 1000 now2)
      match records.find? (·.messageID == messageID) with
      | none => respond 202 "queued"
      | some record =>
        let _ ← scheduleEventSub record
        respond 202 "queued"

/-! ## Workers -/

/-- Release the mutexes. -/
def unlockAll : List Mutex → Code Unit
  | [] => pure ()
  | mutex :: held => .call (.server (.env (.unlock mutex))) fun _ => unlockAll held

/-- The mutexes held after a call. -/
def heldAfter (held : List Mutex) : Ferventio.Call → List Mutex
  | .env (.lock mutex) => mutex :: held
  | .env (.unlock mutex) => held.erase mutex
  | _ => held

/-- A handler that may panic before every call. -/
def protect {α : Type} : List Mutex → Handler α → Code (Option α)
  | _, .ret a => .ret (some a)
  | held, .call call k =>
    .call .panics fun panicked =>
      if panicked then unlockAll held >>= fun _ => .ret none
      else .call (.server call) fun a => protect (heldAfter held call) (k a)

/-- The error with which a worker goes on. -/
def processError : Option (Result Unit) → Option GoError
  | none => some (.plain "panic")
  | some (.error err) => some err
  | some (.ok ()) => none

/-- Process an event, and note the result. -/
def handleQueuedEventSub (env : Env) (queued : QueuedEventSub) : Code Unit := do
  let processErr := processError
    (← protect [] (processEventSubNotification env queued.messageID queued.envelope))
  let _ ← Prog.perform (Call.returned queued.messageID processErr.isNone)
  let _ ← releaseEventSub queued.messageID
  let now ← now
  match processErr with
  | some err =>
    let _ ← deliveries (.markEventSubFailed queued.messageID err now)
    pure ()
  | none =>
    let _ ← deliveries (.completeEventSub queued.messageID now)
    pure ()

/-- One round of `runEventSubWorker`. -/
def worker (env : Env) : Code Unit := do
  let queued ← Prog.perform Call.receive
  handleQueuedEventSub env queued

/-! ## The system -/

/-- The code of a handler among the calls of the pipeline. -/
def lift {α : Type} : Handler α → Code α
  | .ret a => .ret a
  | .call call k => .call (.server call) fun a => lift (k a)

/-- The server's task for a queued message; the workers are modelled here. -/
def handlesEvent : Ferventio.Task → Bool
  | .event _ _ => true
  | _ => false

/-- The processes. -/
inductive Task
  | webhook (messageID : String) (envelope : EventSubEnvelope)
  | chat (message : UserChatMessage)
  | drainer
  | adminRetry (messageID : String)
  | worker
  | other (task : Ferventio.Task) (h : handlesEvent task = false)

/-- Their code. -/
def code (env : Env) : Task → Code Unit
  | .webhook messageID envelope => webhookNotification messageID envelope
  | .chat message => enqueueUserChatEvent message >>= fun _ => pure ()
  | .drainer => drain
  | .adminRetry messageID => adminRetryEventSubInbox messageID
  | .worker => worker env
  | .other task _ => lift (task.code env)

/-- The pipeline with a channel of some capacity. -/
def system (env : Env) (capacity : Nat) : System Task Call Call.Ans State Choice where
  exec := exec env capacity
  code := code env
  may _ _ := true

/-- The server starts. -/
def start (world : World) : Config Task Call Call.Ans State where
  state := { world := { world with eventInFlight := [] } }
  hist := []
  procs := []

end Pipeline

end Ferventio
