import Mathlib.Data.List.Sort
import Ferventio.Domain
import Ferventio.Lib.Strings

/-!
# The in-memory delivery store

`storage/memory/delivery_store.go`: the queue of notifications per installation, the inbox of
EventSub messages with its table of seen message identifiers, and the last known state of each
channel. Every method is one function from the state, under its lock, to its answer and the new
state. `persistLocked` always succeeds and is left out. Go iterates over a map, and sorts records
with equal keys, in an unspecified order; here it is the order of the table.
-/

namespace Ferventio

/-! ## What both delivery stores share -/

/-- How long finished records are kept. -/
def retention : Duration := 7 * 24 * hour

/-- The values for fields left unset. -/
def deliveryDefaults (now : Time) (record : DeliveryRecord) : DeliveryRecord :=
  { record with
    status := if record.status = .unset then .pending else record.status
    createdAt := if record.createdAt = 0 then now else record.createdAt
    availableAt := if record.availableAt = 0 then now else record.availableAt
    expiresAt := if record.expiresAt = 0 then now + 24 * hour else record.expiresAt }

/-- The record is acknowledged. -/
def acknowledge (ackedAt : Time) (record : DeliveryRecord) : DeliveryRecord :=
  { record with status := .acked, ackedAt := ackedAt, lastError := "" }

/-- Older deliveries come first. -/
def deliveryOrder (a b : DeliveryRecord) : Prop :=
  a.createdAt < b.createdAt ∨ a.createdAt = b.createdAt ∧ a.id ≤ b.id

instance : DecidableRel deliveryOrder := fun a b =>
  inferInstanceAs (Decidable (a.createdAt < b.createdAt ∨ a.createdAt = b.createdAt ∧ a.id ≤ b.id))

/-- Older messages come first. -/
def inboxOrder (a b : EventSubInboxRecord) : Prop :=
  a.receivedAt < b.receivedAt ∨ a.receivedAt = b.receivedAt ∧ a.messageID ≤ b.messageID

instance : DecidableRel inboxOrder := fun a b =>
  inferInstanceAs (Decidable
    (a.receivedAt < b.receivedAt ∨ a.receivedAt = b.receivedAt ∧ a.messageID ≤ b.messageID))

/-- What differs from the stored state. -/
structure ChannelChanges where
  titleChanged : Bool := false
  gameChanged : Bool := false
  initialized : Bool := false
deriving DecidableEq

/-- A record past its expiry that was not acknowledged is dead. -/
def expireDelivery (now : Time) (record : DeliveryRecord) : DeliveryRecord :=
  if record.expiresAt ≤ now ∧ record.status ≠ .acked then { record with status := .dead }
  else record

/-- A message past its expiry is dead. -/
def expireInbox (now : Time) (record : EventSubInboxRecord) : EventSubInboxRecord :=
  if record.expiresAt ≤ now ∧ record.status ≠ .dead then
    { record with
      status := .dead
      lastError := "EventSub inbox item expired before processing" }
  else record

/-- The inbox record of a message that is received now. -/
def newMessage (messageID : String) (envelope : EventSubEnvelope) (now : Time) :
    EventSubInboxRecord :=
  { messageID, envelope, status := .pending, availableAt := now,
    expiresAt := now + 24 * hour, receivedAt := now }

/-- A message that an administrator has reset. -/
def retriedMessage (now : Time) (record : EventSubInboxRecord) : EventSubInboxRecord :=
  { record with
    status := .pending
    attemptCount := 0
    availableAt := now
    expiresAt := now + 24 * hour
    lastError := "" }

/-- Write a stored record anew. -/
def rewriteRecord (id : String) (rewrite : DeliveryRecord → DeliveryRecord)
    (s : DeliveryDiskState) : Result Unit × DeliveryDiskState :=
  match s.records.lookup id with
  | none => (.error .registrationNotFound, s)
  | some record => (.ok (), { s with records := s.records.insert id (rewrite record) })

/-- Write a stored message anew. -/
def rewriteMessage (messageID : String) (rewrite : EventSubInboxRecord → EventSubInboxRecord)
    (s : DeliveryDiskState) : Result Unit × DeliveryDiskState :=
  match s.eventSubInbox.lookup messageID with
  | none => (.error .registrationNotFound, s)
  | some record =>
    (.ok (), { s with eventSubInbox := s.eventSubInbox.insert messageID (rewrite record) })

/-- The title and category of a channel beside the stored ones. -/
def comparedState (channelID title categoryName : String) (s : DeliveryDiskState) :
    ChannelChanges :=
  match s.channelStates.lookup channelID with
  | none => { initialized := true }
  | some previous =>
    { titleChanged := previous.title != title
      gameChanged := previous.categoryName != categoryName }

namespace Memory

open Strings

/-- The delay doubles, up to 64 seconds. -/
def retryDelay (attempt : Nat) : Duration :=
  let attempt := if attempt < 1 then 1 else attempt
  2 ^ min (attempt - 1) 6 * second

/-! ## Cleaning up -/

/-- A finished record that has been kept long enough. -/
def staleDelivery (now : Time) (record : DeliveryRecord) : Bool :=
  (record.status == .acked && record.ackedAt != 0 && now - record.ackedAt > retention) ||
    (record.status == .dead && now - record.createdAt > retention)

/-- The message is dead and old. -/
def staleInbox (now : Time) (record : EventSubInboxRecord) : Bool :=
  record.status == .dead && now - record.receivedAt > retention

/-- Delete keys in order until at most `limit` are left. -/
def trimKeys {α : Type} (limit : Nat) : List String → Table String α → Table String α
  | [], t => t
  | key :: keys, t => if t.count ≤ limit then t else trimKeys limit keys (t.erase key)

/-- The delivery is acknowledged or dead. -/
def completed (record : DeliveryRecord) : Bool :=
  record.status == .acked || record.status == .dead

/-- Delete the oldest completed deliveries. -/
def trimCompletedDeliveriesLocked (limit : Nat) (t : Table String DeliveryRecord) :
    Table String DeliveryRecord :=
  let records := (t.rows.filter completed).insertionSort fun a b => a.createdAt ≤ b.createdAt
  trimKeys limit (records.map (·.id)) t

/-- Delete the oldest dead messages. -/
def trimDeadEventSubInboxLocked (limit : Nat) (t : Table String EventSubInboxRecord) :
    Table String EventSubInboxRecord :=
  let records := (t.rows.filter (·.status == .dead)).insertionSort
    fun a b => a.receivedAt ≤ b.receivedAt
  trimKeys limit (records.map (·.messageID)) t

/-- Forget the messages seen long ago. -/
def cleanupSeenLocked (now : Time) (ttl : Duration) (seen : Table String Time) :
    Table String Time :=
  seen.select fun _ timestamp => !(now - timestamp > ttl)

/-- Expire deliveries, and delete the stale ones. -/
def cleanupRecords (now : Time) (t : Table String DeliveryRecord) : Table String DeliveryRecord :=
  (t.amend fun _ => expireDelivery now).select fun _ record => !staleDelivery now record

/-- Clean up the whole store. -/
def cleanupLocked (now : Time) (s : DeliveryDiskState) : DeliveryDiskState :=
  let records := cleanupRecords now s.records
  let inbox := (s.eventSubInbox.amend fun _ => expireInbox now).select
    fun _ record => !staleInbox now record
  { s with
    records :=
      if records.count > maxDeliveryRecords then
        trimCompletedDeliveriesLocked maxDeliveryRecords records
      else records
    seen := cleanupSeenLocked now (24 * hour) s.seen
    eventSubInbox :=
      if inbox.count > maxEventSubInboxRecords then
        trimDeadEventSubInboxLocked maxEventSubInboxRecords inbox
      else inbox }

/-- `Cleanup`, without the lock. -/
def cleanup (now : Time) (s : DeliveryDiskState) : Result Unit × DeliveryDiskState :=
  (.ok (), cleanupLocked now s)

/-! ## Notifications -/

/-- Queue a delivery, once for an event and an installation. -/
def enqueue (now : Time) (record : DeliveryRecord) (s : DeliveryDiskState) :
    Result (DeliveryRecord × Bool) × DeliveryDiskState :=
  let s := cleanupLocked now s
  match s.records.rows.find? fun existing =>
      existing.installationID == record.installationID && existing.eventID == record.eventID with
  | some existing => (.ok (existing, false), s)
  | none =>
    if record.id = "" ∨ record.eventID = "" ∨ record.installationID = "" then
      (.error (.plain "delivery id, event id, and installation id are required"), s)
    else
      let record := deliveryDefaults now record
      let s :=
        if s.records.count ≥ maxDeliveryRecords then
          { s with records := trimCompletedDeliveriesLocked (maxDeliveryRecords - 1) s.records }
        else s
      if s.records.count ≥ maxDeliveryRecords then
        (.error (.plain "delivery queue is full"), s)
      else (.ok (record, true), { s with records := s.records.insert record.id record })

/-- The latest deliveries. -/
def listDeliveries (limit : Int) (s : DeliveryDiskState) : List DeliveryRecord :=
  let limit := if limit ≤ 0 ∨ limit > 1000 then 200 else limit
  (s.records.rows.insertionSort fun a b => deliveryOrder b a).take limit.toNat

/-- The deliveries that are due. -/
def pendingForInstallation (installationID : String) (limit : Int) (now : Time)
    (s : DeliveryDiskState) : List DeliveryRecord :=
  let limit := if limit ≤ 0 then 100 else limit
  let result := s.records.rows.filter fun record =>
    !(record.installationID != installationID || record.status == .acked ||
        record.status == .dead) &&
      !(now < record.availableAt || record.expiresAt ≤ now)
  (result.insertionSort deliveryOrder).take limit.toNat

/-- The record was sent, and is due again later. -/
def sentRecord (sentAt : Time) (record : DeliveryRecord) : DeliveryRecord :=
  { record with
    status := .sent
    attemptCount := record.attemptCount + 1
    sentAt := sentAt
    lastError := ""
    availableAt := sentAt + retryDelay (record.attemptCount + 1) }

/-- Note that a delivery was sent. -/
def markSent (id : String) (sentAt : Time) : DeliveryDiskState → Result Unit × DeliveryDiskState :=
  rewriteRecord id (sentRecord sentAt)

/-- The record after a failed attempt. -/
def failedRecord (failure : GoError) (failedAt : Time) (record : DeliveryRecord) :
    DeliveryRecord :=
  let record := { record with
    attemptCount := record.attemptCount + 1
    lastError := failure.text }
  if record.attemptCount ≥ 8 ∨ record.expiresAt ≤ failedAt then { record with status := .dead }
  else { record with
    status := .pending
    availableAt := failedAt + retryDelay record.attemptCount }

/-- Note that a delivery failed. -/
def markFailed (id : String) (failure : GoError) (failedAt : Time) :
    DeliveryDiskState → Result Unit × DeliveryDiskState :=
  rewriteRecord id (failedRecord failure failedAt)

/-- Acknowledge an event and all before it. -/
def ackThrough (installationID eventID : String) (ackedAt : Time) (s : DeliveryDiskState) :
    Result Unit × DeliveryDiskState :=
  let target := match s.records.rows.find? fun record =>
      record.installationID == installationID && record.eventID == eventID with
    | some record => record.createdAt
    | none => 0
  let records := s.records.amend fun _ record =>
    if record.installationID ≠ installationID ∨ record.createdAt > target then record
    else acknowledge ackedAt record
  if target = 0 then (.error .registrationNotFound, s)
  else (.ok (), { s with records })

/-- Acknowledge one event. -/
def ack (installationID eventID : String) (ackedAt : Time) (s : DeliveryDiskState) :
    Result Unit × DeliveryDiskState :=
  let found := s.records.rows.any fun record =>
    record.installationID == installationID && record.eventID == eventID
  let records := s.records.amend fun _ record =>
    if record.installationID = installationID ∧ record.eventID = eventID then
      acknowledge ackedAt record
    else record
  if found then (.ok (), { s with records }) else (.error .registrationNotFound, s)

/-- Delete the queue of an installation. -/
def deleteForInstallation (installationID : String) (s : DeliveryDiskState) :
    Result Nat × DeliveryDiskState :=
  let removed := (s.records.rows.filter (·.installationID == installationID)).length
  let records := s.records.select fun _ record => record.installationID != installationID
  (.ok removed, { s with records })

/-! ## The EventSub inbox -/

/-- Remember a message; the oldest makes room. -/
def addSeenEventSubLocked (messageID : String) (now : Time) (seen : Table String Time) :
    Table String Time :=
  if seen.count ≥ maxSeenEventRecords then
    let oldest := seen.entries.foldl
      (fun (acc : String × Time) e => if acc.1 = "" ∨ e.2 < acc.2 then (e.1, e.2) else acc) ("", 0)
    (seen.erase oldest.1).insert messageID now
  else seen.insert messageID now

/-- Store a message unless it was seen. -/
def enqueueEventSub (messageID : String) (envelope : EventSubEnvelope) (now : Time)
    (s : DeliveryDiskState) : Result (Option EventSubInboxRecord × Bool) × DeliveryDiskState :=
  let messageID := trimSpace messageID
  if messageID = "" then (.error (.plain "EventSub message id is required"), s)
  else
    let s := { s with seen := cleanupSeenLocked now (24 * hour) s.seen }
    if (s.seen.lookup messageID).isSome then (.ok (none, false), s)
    else
      match s.eventSubInbox.lookup messageID with
      | some existing => (.ok (some existing, false), s)
      | none =>
        let s :=
          if s.eventSubInbox.count ≥ maxEventSubInboxRecords then
            { s with eventSubInbox :=
              trimDeadEventSubInboxLocked (maxEventSubInboxRecords - 1) s.eventSubInbox }
          else s
        if s.eventSubInbox.count ≥ maxEventSubInboxRecords then
          (.error (.plain "EventSub inbox is full"), s)
        else
          let record := newMessage messageID envelope now
          (.ok (some record, true),
            { s with eventSubInbox := s.eventSubInbox.insert messageID record })

/-- The messages that are due. -/
def pendingEventSub (limit : Int) (now : Time) (s : DeliveryDiskState) :
    List EventSubInboxRecord :=
  let limit := if limit ≤ 0 ∨ limit > 1000 then 200 else limit
  let result := s.eventSubInbox.rows.filter fun record =>
    !(record.status != .pending || now < record.availableAt || record.expiresAt ≤ now)
  (result.insertionSort inboxOrder).take limit.toNat

/-- The latest messages. -/
def listEventSubInbox (limit : Int) (s : DeliveryDiskState) : List EventSubInboxRecord :=
  let limit := if limit ≤ 0 ∨ limit > 1000 then 200 else limit
  (s.eventSubInbox.rows.insertionSort fun a b => inboxOrder b a).take limit.toNat

/-- Move a message from the inbox to the seen ones. -/
def completeEventSub (messageID : String) (completedAt : Time) (s : DeliveryDiskState) :
    Result Unit × DeliveryDiskState :=
  match s.eventSubInbox.lookup messageID with
  | none =>
    if (s.seen.lookup messageID).isSome then (.ok (), s)
    else (.error .registrationNotFound, s)
  | some _ =>
    (.ok (), { s with
      eventSubInbox := s.eventSubInbox.erase messageID
      seen := addSeenEventSubLocked messageID completedAt s.seen })

/-- The message after a failed attempt. -/
def failedMessage (failure : GoError) (failedAt : Time) (record : EventSubInboxRecord) :
    EventSubInboxRecord :=
  let record := { record with
    attemptCount := record.attemptCount + 1
    lastAttemptAt := failedAt
    lastError := failure.text }
  if record.attemptCount ≥ 8 ∨ record.expiresAt ≤ failedAt then { record with status := .dead }
  else { record with
    status := .pending
    availableAt := failedAt + retryDelay record.attemptCount }

/-- Note that an attempt failed. -/
def markEventSubFailed (messageID : String) (failure : GoError) (failedAt : Time) :
    DeliveryDiskState → Result Unit × DeliveryDiskState :=
  rewriteMessage messageID (failedMessage failure failedAt)

/-- Give a message new attempts. -/
def retryEventSub (messageID : String) (now : Time) :
    DeliveryDiskState → Result Unit × DeliveryDiskState :=
  rewriteMessage messageID (retriedMessage now)

/-- Whether a message was seen lately. -/
def hasSeenEventSub (messageID : String) (now : Time) (ttl : Duration) (s : DeliveryDiskState) :
    Bool × DeliveryDiskState :=
  let seen := cleanupSeenLocked now ttl s.seen
  ((seen.lookup messageID).isSome, { s with seen })

/-- The same, and remember it. -/
def seenEventSub (messageID : String) (now : Time) (ttl : Duration) (s : DeliveryDiskState) :
    Result Bool × DeliveryDiskState :=
  let seen := cleanupSeenLocked now ttl s.seen
  if (seen.lookup messageID).isSome then (.ok true, { s with seen })
  else (.ok false, { s with seen := addSeenEventSubLocked messageID now seen })

/-- Forget a message. -/
def forgetEventSub (messageID : String) (s : DeliveryDiskState) :
    Result Unit × DeliveryDiskState :=
  (.ok (), { s with seen := s.seen.erase messageID })

/-! ## Channel states -/

/-- Compare a channel with its stored state. -/
def channelStateChanges (channelID title categoryName : String) (s : DeliveryDiskState) :
    Result ChannelChanges :=
  if channelID = "" then .error (.plain "channel id is required")
  else .ok (comparedState channelID title categoryName s)

/-- Store the state of a channel. -/
def saveChannelState (channelID title categoryName : String) (now : Time)
    (s : DeliveryDiskState) : Result Unit × DeliveryDiskState :=
  if channelID = "" then (.error (.plain "channel id is required"), s)
  else (.ok (), { s with
    channelStates := s.channelStates.insert channelID ⟨title, categoryName, now⟩ })

/-- Compare and store. -/
def updateChannelState (channelID title categoryName : String) (now : Time)
    (s : DeliveryDiskState) : Result ChannelChanges × DeliveryDiskState :=
  match channelStateChanges channelID title categoryName s with
  | .error err => (.error err, s)
  | .ok changes =>
    match saveChannelState channelID title categoryName now s with
    | (.error err, s) => (.error err, s)
    | (.ok (), s) => (.ok changes, s)

end Memory

end Ferventio
