import Ferventio.EventSub.Routing
import Ferventio.Push.Code

/-!
# The EventSub worker

`handleQueuedEventSub` and `processEventSubNotification` of `application/eventsub.go`: one message
of the inbox is routed to the registrations, and is then completed or marked failed. A
`channel.update` is compared with the channel's stored state first, under the channel's mutex.
Audit records and log lines are left out.
-/

namespace Ferventio

/-- The loop over the registrations, with its errors. -/
def routeToEach (env : Env) (messageID subscriptionType : String) (event : EventPayload) :
    List Registration → Handler (List GoError)
  | [] => pure []
  | registration :: registrations => do
    let now ← host .now
    match eventNotificationForRegistration env now messageID subscriptionType event
        registration with
    | none => routeToEach env messageID subscriptionType event registrations
    | some notification =>
      match ← deliverToRegistration registration notification with
      | .ok () => routeToEach env messageID subscriptionType event registrations
      | .error err =>
        let errs ← routeToEach env messageID subscriptionType event registrations
        pure (.wrapped registration.installationID err :: errs)

variable (env : Env)

/-- From the listing to the joined errors. -/
def routeToAll (messageID subscriptionType : String) (event : EventPayload) :
    Handler (Result Unit) := do
  let registrations ← store .list
  let errs ← routeToEach env messageID subscriptionType event registrations
  pure (joinErrors errs)

/-- The event says what changed. -/
def withChanges (changes : ChannelChanges) (event : EventPayload) : EventPayload :=
  ("_ferventio_game_changed", .bool changes.gameChanged) ::
    ("_ferventio_title_changed", .bool changes.titleChanged) :: event

/-- A channel update, while the channel's mutex is held. -/
def processChannelUpdate (messageID : String) (envelope : EventSubEnvelope)
    (channelID : String) : Handler (Result Unit) := do
  let title := stringValue envelope.event "title"
  let category := stringValue envelope.event "category_name"
  match ← deliveries (.channelStateChanges channelID title category) with
  | .error err => pure (.error (.wrapped "inspect channel notification state" err))
  | .ok changes =>
    if changes.initialized then
      let now ← host .now
      match ← deliveries (.saveChannelState channelID title category now) with
      | .error err => pure (.error (.wrapped "initialize channel notification state" err))
      | .ok () => pure (.ok ())
    else if !changes.titleChanged && !changes.gameChanged then pure (.ok ())
    else
      match ← routeToAll env messageID envelope.subscription.type
          (withChanges changes envelope.event) with
      | .error err => pure (.error err)
      | .ok () =>
        let now ← host .now
        match ← deliveries (.saveChannelState channelID title category now) with
        | .error err => pure (.error (.wrapped "save channel notification state" err))
        | .ok () => pure (.ok ())

/-- Route an event. -/
def processEventSubNotification (messageID : String) (envelope : EventSubEnvelope) :
    Handler (Result Unit) := do
  if envelope.subscription.type = "channel.update" then
    let channelID := stringValue envelope.event "broadcaster_user_id"
    let _ ← host (.lock (.channelState channelID))
    let result ← processChannelUpdate env messageID envelope channelID
    let _ ← host (.unlock (.channelState channelID))
    pure result
  else routeToAll env messageID envelope.subscription.type envelope.event

/-- Process a message, and note the result. -/
def handleQueuedEventSub (messageID : String) (envelope : EventSubEnvelope) :
    Handler Unit := do
  let result ← processEventSubNotification env messageID envelope
  let _ ← host (.releaseEventSub messageID)
  let now ← host .now
  match result with
  | .error err =>
    let _ ← deliveries (.markEventSubFailed messageID err now)
    pure ()
  | .ok () =>
    let _ ← deliveries (.completeEventSub messageID now)
    pure ()

/-! ## Which calls an attempt makes -/

/-- The calls of an attempt; the times that it writes pass `T`. -/
def RoutingCall (T : Time → Prop) : Call → Prop
  | .registration .list => True
  | .registration (.get _) => True
  | .delivery (.enqueue r) => T r.createdAt
  | .delivery (.pendingForInstallation _ _ _) => True
  | .delivery (.markSent _ _) => True
  | .delivery (.markFailed _ _ _) => True
  | .delivery (.ack _ _ ackedAt) => T ackedAt
  | .delivery (.channelStateChanges _ _ _) => True
  | .delivery (.saveChannelState _ _ _ _) => True
  | .hub (.send _ _) => True
  | .env .now => True
  | .env (.randomToken _ _) => True
  | .env (.lock _) => True
  | .env (.unlock _) => True
  | .env (.sendPush _ _) => True
  | _ => False

/-- The clock reads a time in `T`. -/
def ReadIn (T : Time → Prop) : (call : Call) → call.Ans → Prop
  | .env .now, t => T t
  | _, _ => True

/-- The calls of an attempt, while clock readings pass `T`. -/
def Routes (T : Time → Prop) {α : Type} (p : Handler α) : Prop :=
  p.Only (RoutingCall T) (ReadIn T)

section Routes

variable {env : Env} {T : Time → Prop}

theorem flushRecords_routes (iid : String) (reg : Registration) (rows : List DeliveryRecord) :
    Routes T (flushRecords iid reg rows) := by
  induction rows with
  | nil => trivial
  | cons row rows ih =>
    rw [flushRecords]
    split
    · refine .perform_bind trivial fun ans _ => ?_
      split
      · split
        · trivial
        · exact .perform_bind trivial fun _ _ => .perform_bind trivial fun _ _ => trivial
      · exact .perform_bind trivial fun _ _ => .perform_bind trivial fun _ _ => ih
    · refine .perform_bind trivial fun ans _ => ?_
      split
      · exact .perform_bind trivial fun _ _ => .perform_bind trivial fun _ _ => trivial
      · refine .perform_bind trivial fun sentAt hsentAt => .perform_bind trivial fun _ _ => ?_
        exact .perform_bind hsentAt fun _ _ => ih

theorem flushPending_routes (iid : String) : Routes T (flushPending iid) := by
  refine .perform_bind trivial fun _ _ => Prog.Only.bind ?_ fun _ => ?_
  · refine .perform_bind trivial fun ans _ => ?_
    split
    · trivial
    · refine .perform_bind trivial fun _ _ => .perform_bind trivial fun rows _ => ?_
      exact flushRecords_routes _ _ rows
  · exact .perform_bind trivial fun _ _ => trivial

theorem enqueueAndFlush_routes {now : Time} (hnow : T now) (reg : Registration)
    (note : Notification) : Routes T (enqueueAndFlush now reg note) := by
  refine .perform_bind trivial fun ans _ => ?_
  split
  · trivial
  · refine .perform_bind hnow fun ans _ => ?_
    split
    · trivial
    · exact (flushPending_routes _).bind fun _ => trivial

theorem deliverToRegistration_routes (reg : Registration) (note : Notification) :
    Routes T (deliverToRegistration reg note) := by
  refine .perform_bind trivial fun now hnow => ?_
  split
  · refine .perform_bind trivial fun ans _ => ?_
    split
    · trivial
    · exact enqueueAndFlush_routes hnow _ _
  · exact enqueueAndFlush_routes hnow _ _

theorem routeToEach_routes (mid subscriptionType : String) (event : EventPayload)
    (regs : List Registration) :
    Routes T (routeToEach env mid subscriptionType event regs) := by
  induction regs with
  | nil => trivial
  | cons reg regs ih =>
    refine .perform_bind trivial fun now _ => ?_
    split
    · exact ih
    · refine (deliverToRegistration_routes _ _).bind fun ans => ?_
      split
      · exact ih
      · exact ih.bind fun _ => trivial

theorem routeToAll_routes (mid subscriptionType : String) (event : EventPayload) :
    Routes T (routeToAll env mid subscriptionType event) :=
  .perform_bind trivial fun regs _ =>
    (routeToEach_routes _ _ _ regs).bind fun _ => trivial

theorem processChannelUpdate_routes (mid : String) (envelope : EventSubEnvelope)
    (cid : String) : Routes T (processChannelUpdate env mid envelope cid) := by
  refine .perform_bind trivial fun ans _ => ?_
  split
  · trivial
  · split
    · refine .perform_bind trivial fun _ _ => .perform_bind trivial fun _ _ => ?_
      split <;> trivial
    · split
      · trivial
      · refine (routeToAll_routes _ _ _).bind fun ans => ?_
        split
        · trivial
        · refine .perform_bind trivial fun _ _ => .perform_bind trivial fun _ _ => ?_
          split <;> trivial

theorem processEventSubNotification_routes (mid : String) (envelope : EventSubEnvelope) :
    Routes T (processEventSubNotification env mid envelope) := by
  unfold processEventSubNotification
  split
  · refine .perform_bind trivial fun _ _ => (processChannelUpdate_routes _ _ _).bind fun _ => ?_
    exact .perform_bind trivial fun _ _ => trivial
  · exact routeToAll_routes _ _ _

end Routes

end Ferventio
