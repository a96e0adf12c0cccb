import Ferventio.Delivery.Memory

/-!
# The PostgreSQL delivery store

`storage/postgres/postgres_delivery.go` on the tables `deliveries`, `eventsub_seen`,
`eventsub_inbox` and `channel_notification_states`, each keyed by its primary key. Every method is
one statement or one transaction: a function from the tables to its answer and the new tables. This
is the behaviour when the database answers. A row of `deliveries` has no column for the
notification's own event identifier, so a record that is read back carries the empty one.
-/

namespace Ferventio

namespace Postgres

open Strings

/-- `fmt.Errorf("%s: %w", operation, err)`, an error for a nil `err` too. -/
def fmtDatabase (operation : String) : Option GoError → GoError
  | some err => .wrapped operation err
  | none => .plain (operation ++ ": %!w(<nil>)")

/-- The error of a call that the database does not answer. -/
def databaseError (operation : String) : GoError :=
  fmtDatabase operation (some (.plain "database unavailable"))

/-- A limit out of range is replaced. -/
def normalizeLimit (limit fallback maximum : Int) : Int :=
  if limit ≤ 0 ∨ limit > maximum then fallback else limit

/-- `LEAST(64, power(2, GREATEST(attempt_count, 0))::int)`; the cast fails from the 31st power
on. -/
def retryInterval (attemptCount : Nat) : Option Duration :=
  if attemptCount < 31 then some (min 64 (2 ^ attemptCount) * second) else none

/-- An interval that PostgreSQL cannot hold. -/
def outOfRange : GoError := .plain "integer out of range"

/-! ## Cleaning up -/

/-- The row is old enough to be deleted. -/
def staleDelivery (now : Time) (record : DeliveryRecord) : Bool :=
  (record.status == .acked && record.ackedAt != 0 && record.ackedAt < now - retention) ||
    (record.status == .dead && record.createdAt < now - retention)

/-- Expire deliveries, and delete the stale ones. -/
def cleanupDeliveriesTx (now : Time) (t : Table String DeliveryRecord) :
    Table String DeliveryRecord :=
  (t.amend fun _ => expireDelivery now).select fun _ record => !staleDelivery now record

/-- Clean up the whole store. -/
def cleanup (now : Time) (s : DeliveryDiskState) : Result Unit × DeliveryDiskState :=
  (.ok (), { s with
    records := cleanupDeliveriesTx now s.records
    eventSubInbox := (s.eventSubInbox.amend fun _ => expireInbox now).select
      fun _ record => !(record.status == .dead && record.receivedAt < now - retention)
    seen := s.seen.select fun _ seenAt => !(seenAt < now - 24 * hour) })

/-! ## Notifications -/

/-- The row that `INSERT INTO deliveries` writes. -/
def deliveryRow (record : DeliveryRecord) : DeliveryRecord :=
  { record with
    notification := { record.notification with eventID := "" }
    sentAt := 0
    ackedAt := 0 }

/-- Queue a delivery, once for an event and an installation. -/
def enqueue (now : Time) (record : DeliveryRecord) (s : DeliveryDiskState) :
    Result (DeliveryRecord × Bool) × DeliveryDiskState :=
  if trimSpace record.id = "" ∨ trimSpace record.eventID = "" ∨
      trimSpace record.installationID = "" then
    (.error (.plain "delivery id, event id, and installation id are required"), s)
  else
    let record := deliveryDefaults now record
    let records := cleanupDeliveriesTx now s.records
    if records.count ≥ maxDeliveryRecords then (.error (.plain "delivery queue is full"), s)
    else
      match records.rows.find? fun existing =>
          existing.installationID == record.installationID &&
            existing.eventID == record.eventID with
      | some existing => (.ok (existing, false), { s with records })
      | none =>
        if (records.lookup record.id).isSome then
          (.error (fmtDatabase "insert delivery" (some (.plain "duplicate key value"))), s)
        else
          let inserted := deliveryRow record
          (.ok (inserted, true), { s with records := records.insert record.id inserted })

/-- The latest deliveries. -/
def listDeliveries (limit : Int) (s : DeliveryDiskState) : List DeliveryRecord :=
  let limit := normalizeLimit limit 200 1000
  (s.records.rows.insertionSort fun a b => deliveryOrder b a).take limit.toNat

/-- The deliveries that are due. -/
def pendingForInstallation (installationID : String) (limit : Int) (now : Time)
    (s : DeliveryDiskState) : List DeliveryRecord :=
  let limit := normalizeLimit limit 100 1000
  let result := s.records.rows.filter fun record =>
    record.installationID == installationID &&
      (record.status == .pending || record.status == .sent) &&
      record.availableAt ≤ now && record.expiresAt > now
  (result.insertionSort deliveryOrder).take limit.toNat

/-- Note that a delivery was sent. -/
def markSent (id : String) (sentAt : Time) (s : DeliveryDiskState) :
    Result Unit × DeliveryDiskState :=
  match s.records.lookup id with
  | none => (.error .registrationNotFound, s)
  | some record =>
    match retryInterval record.attemptCount with
    | none => (.error (fmtDatabase "mark delivery sent" (some outOfRange)), s)
    | some interval =>
      let record := { record with
        status := .sent
        attemptCount := record.attemptCount + 1
        sentAt := sentAt
        lastError := ""
        availableAt := sentAt + interval }
      (.ok (), { s with records := s.records.insert id record })

/-- The row after a failed attempt. The cast does not fail below 8 attempts. -/
def failedRow (message : String) (failedAt : Time) (r : DeliveryRecord) : DeliveryRecord :=
  let gaveUp : Prop := r.attemptCount + 1 ≥ 8 ∨ failedAt ≥ r.expiresAt
  { r with
    attemptCount := r.attemptCount + 1
    lastError := message
    status := if gaveUp then .dead else .pending
    availableAt := if gaveUp then r.availableAt
      else failedAt + min 64 (2 ^ r.attemptCount) * second }

/-- Note that a delivery failed. -/
def markFailed (id : String) (failure : GoError) (failedAt : Time) :
    DeliveryDiskState → Result Unit × DeliveryDiskState :=
  rewriteRecord id (failedRow failure.text failedAt)

/-- Acknowledge an event and all before it. -/
def ackThrough (installationID eventID : String) (ackedAt : Time) (s : DeliveryDiskState) :
    Result Unit × DeliveryDiskState :=
  match s.records.rows.find? fun record =>
      record.installationID == installationID && record.eventID == eventID with
  | none => (.error .registrationNotFound, s)
  | some target =>
    let records := s.records.amend fun _ record =>
      if record.installationID = installationID ∧ record.createdAt ≤ target.createdAt then
        acknowledge ackedAt record
      else record
    (.ok (), { s with records })

/-- Acknowledge one event. -/
def ack : String → String → Time → DeliveryDiskState → Result Unit × DeliveryDiskState :=
  Memory.ack

/-- Delete the queue of an installation. -/
def deleteForInstallation : String → DeliveryDiskState → Result Nat × DeliveryDiskState :=
  Memory.deleteForInstallation

/-! ## The EventSub inbox -/

/-- Store a message unless it was seen. -/
def enqueueEventSub (messageID : String) (envelope : EventSubEnvelope) (now : Time)
    (s : DeliveryDiskState) : Result (Option EventSubInboxRecord × Bool) × DeliveryDiskState :=
  let messageID := trimSpace messageID
  if messageID = "" then (.error (.plain "EventSub message id is required"), s)
  else
    let s := { s with seen := s.seen.select fun _ seenAt => !(seenAt < now - 24 * hour) }
    if (s.seen.lookup messageID).isSome then (.ok (none, false), s)
    else
      match s.eventSubInbox.lookup messageID with
      | some existing => (.ok (some existing, false), s)
      | none =>
        let record := newMessage messageID envelope now
        (.ok (some record, true),
          { s with eventSubInbox := s.eventSubInbox.insert messageID record })

/-- The messages that are due. -/
def pendingEventSub (limit : Int) (now : Time) (s : DeliveryDiskState) :
    List EventSubInboxRecord :=
  let limit := normalizeLimit limit 200 1000
  let result := s.eventSubInbox.rows.filter fun record =>
    record.status == .pending && record.availableAt ≤ now && record.expiresAt > now
  (result.insertionSort inboxOrder).take limit.toNat

/-- The latest messages. -/
def listEventSubInbox (limit : Int) (s : DeliveryDiskState) : List EventSubInboxRecord :=
  let limit := normalizeLimit limit 200 1000
  (s.eventSubInbox.rows.insertionSort fun a b => inboxOrder b a).take limit.toNat

/-- Move a message from the inbox to the seen ones. -/
def completeEventSub (messageID : String) (completedAt : Time) (s : DeliveryDiskState) :
    Result Unit × DeliveryDiskState :=
  if (s.eventSubInbox.lookup messageID).isNone ∧ (s.seen.lookup messageID).isNone then
    (.error .registrationNotFound, s)
  else
    (.ok (), { s with
      eventSubInbox := s.eventSubInbox.erase messageID
      seen := s.seen.insert messageID completedAt })

/-- The row after a failed attempt. -/
def failedInboxRow (message : String) (failedAt : Time) (r : EventSubInboxRecord) :
    EventSubInboxRecord :=
  let gaveUp : Prop := r.attemptCount + 1 ≥ 8 ∨ failedAt ≥ r.expiresAt
  { r with
    attemptCount := r.attemptCount + 1
    lastAttemptAt := failedAt
    lastError := message
    status := if gaveUp then .dead else .pending
    availableAt := if gaveUp then r.availableAt
      else failedAt + min 64 (2 ^ r.attemptCount) * second }

/-- Note that an attempt failed. -/
def markEventSubFailed (messageID : String) (failure : GoError) (failedAt : Time) :
    DeliveryDiskState → Result Unit × DeliveryDiskState :=
  rewriteMessage messageID (failedInboxRow failure.text failedAt)

/-- Give a message new attempts. -/
def retryEventSub (messageID : String) (now : Time) :
    DeliveryDiskState → Result Unit × DeliveryDiskState :=
  rewriteMessage messageID (retriedMessage now)

/-- Whether a message was seen lately. -/
def hasSeenEventSub (messageID : String) (now : Time) (ttl : Duration) (s : DeliveryDiskState) :
    Bool × DeliveryDiskState :=
  let seen := s.seen.select fun _ seenAt => !(seenAt < now - ttl)
  ((seen.lookup messageID).isSome, { s with seen })

/-- The same, and remember it. -/
def seenEventSub (messageID : String) (now : Time) (ttl : Duration) (s : DeliveryDiskState) :
    Result Bool × DeliveryDiskState :=
  let seen := s.seen.select fun _ seenAt => !(seenAt < now - ttl)
  if (seen.lookup messageID).isSome then (.ok true, { s with seen })
  else (.ok false, { s with seen := seen.insert messageID now })

/-- The nil error is wrapped: the method never answers nil. -/
def forgetEventSub (messageID : String) (s : DeliveryDiskState) :
    Result Unit × DeliveryDiskState :=
  (.error (fmtDatabase "forget EventSub message" none),
    { s with seen := s.seen.erase messageID })

/-! ## Channel states -/

/-- Compare a channel with its stored state. -/
def channelStateChanges (channelID title categoryName : String) (s : DeliveryDiskState) :
    Result ChannelChanges :=
  if trimSpace channelID = "" then .error (.plain "channel id is required")
  else .ok (comparedState channelID title categoryName s)

/-- The row is written, but the nil error is wrapped: the method never answers nil. -/
def saveChannelState (channelID title categoryName : String) (now : Time)
    (s : DeliveryDiskState) : Result Unit × DeliveryDiskState :=
  if trimSpace channelID = "" then (.error (.plain "channel id is required"), s)
  else (.error (fmtDatabase "save channel notification state" none), { s with
    channelStates := s.channelStates.insert channelID ⟨title, categoryName, now⟩ })

/-- Compare and store. -/
def updateChannelState (channelID title categoryName : String) (now : Time)
    (s : DeliveryDiskState) : Result ChannelChanges × DeliveryDiskState :=
  if trimSpace channelID = "" then (.error (.plain "channel id is required"), s)
  else
    (.ok (comparedState channelID title categoryName s), { s with
      channelStates := s.channelStates.insert channelID ⟨title, categoryName, now⟩ })

end Postgres

end Ferventio
