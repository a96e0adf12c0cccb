import Ferventio.Delivery.Laws
import Ferventio.Server.World

/-!
# Pending work is kept

The in-memory store deletes records while it makes room: old ones when it cleans up, finished ones
when a table is full. What is still to be delivered or processed is never among them
(**`pending_work_kept`**).
-/

namespace Ferventio

open Table

variable {t : Table String DeliveryRecord} {α : Type}

/-- The delivery is not done. -/
def LiveDelivery (now : Time) (record : DeliveryRecord) : Prop :=
  (record.status = .pending ∨ record.status = .sent) ∧ now < record.expiresAt

/-- The message is not done. -/
def LiveMessage (now : Time) (record : EventSubInboxRecord) : Prop :=
  record.status = .pending ∧ now < record.expiresAt

namespace DeliveryOperation

/-- The operation is about the delivery. -/
def addresses (id : String) : DeliveryOperation → Bool
  | call (.enqueue record) => record.id == id
  | call (.markSent id' _) => id' == id
  | call (.markFailed id' _ _) => id' == id
  | _ => false

/-- The operation is about the message. -/
def addressesMessage (messageID : String) : DeliveryOperation → Bool
  | call (.markEventSubFailed id _ _) => id == messageID
  | call (.retryEventSub id _) => id == messageID
  | _ => false

/-- It acknowledges, completes or deletes. -/
def finishes : DeliveryOperation → Bool
  | call (.deleteForInstallation _) => true
  | call (.completeEventSub _ _) => true
  | call (.ack _ _ _) => true
  | call (.ackThrough _ _ _) => true
  | _ => false

/-- The parts that an operation writes. -/
def writes : DeliveryOperation → List DeliveryPart
  | call c => c.writes
  | listDeliveries _ | listEventSubInbox _ => []
  | hasSeenEventSub _ _ _ | seenEventSub _ _ _ | forgetEventSub _ => [.seen]
  | updateChannelState _ _ _ _ => [.channelStates]

end DeliveryOperation

namespace Memory

open Strings

variable {s : DeliveryDiskState} {now : Time} {id mid : String} {record : DeliveryRecord}
  {released added : Prop}

/-- The operation is an enqueue that the store accepts. -/
inductive Stores (x : Choice) : DeliveryOperation → DeliveryDiskState → Prop
  | delivery {record : DeliveryRecord} {s : DeliveryDiskState} {answer : DeliveryRecord × Bool}
      (h : (enqueue x.now record s).1 = .ok answer) : Stores x (.call (.enqueue record)) s
  | message {mid : String} {envelope : EventSubEnvelope} {now : Time} {s : DeliveryDiskState}
      {answer : Option EventSubInboxRecord × Bool}
      (h : (enqueueEventSub mid envelope now s).1 = .ok answer) :
      Stores x (.call (.enqueueEventSub mid envelope now)) s

/-! ## Trimming -/

theorem trimKeys_keeps {limit : Nat} {keys : List String} {t : Table String α}
    {key : String} (h : key ∉ keys) : (trimKeys limit keys t).lookup key = t.lookup key := by
  induction keys generalizing t with
  | nil => rfl
  | cons first keys ih =>
    obtain ⟨hfirst, hkeys⟩ := List.ne_and_not_mem_of_not_mem_cons h
    rw [trimKeys]
    split_ifs
    · rfl
    · rw [ih hkeys, lookup_erase_eq, if_neg hfirst]

theorem trimmed_fate {name : α → String} {test : α → Bool} {order : α → α → Prop}
    [DecidableRel order] (limit : Nat) {t : Table String α} (key : String)
    (hnamed : t.Forall fun k v => name v = k) :
    Table.Fate name (fun v => test v = true) False key (t.lookup key)
      ((trimKeys limit (((t.rows.filter test).insertionSort order).map name) t).lookup key) := by
  by_cases hkey : key ∈ ((t.rows.filter test).insertionSort order).map name
  · obtain ⟨row, hrow, hname⟩ := List.mem_map.mp hkey
    rw [List.mem_insertionSort, List.mem_filter, mem_rows_iff] at hrow
    obtain ⟨⟨key', hget⟩, htest⟩ := hrow
    have hkeys : key' = key := (hnamed key' row hget).symm.trans hname
    rw [hkeys] at hget
    rw [hget]
    cases hafter : (trimKeys limit (((t.rows.filter test).insertionSort order).map name) t).lookup
      key with
    | none => exact .remove htest
    | some row' =>
      have hsame : some row = some row' := hget.symm.trans (trimKeys_lookup hafter)
      rw [hsame]
      exact .keep
  · rw [trimKeys_keeps hkey]
    exact .keep

theorem operate_framed (x : Choice) (op : DeliveryOperation) (s : DeliveryDiskState) :
    Framed op.writes s (operate x op s).2 := by
  cases op with
  | call c => exact execDelivery_framed x c s
  | hasSeenEventSub => exact .ofSeen
  | seenEventSub =>
    simp only [operate, seenEventSub]
    split_ifs <;> exact .ofSeen
  | forgetEventSub => exact .ofSeen
  | updateChannelState =>
    simp only [operate, updateChannelState, channelStateChanges, saveChannelState]
    split_ifs
    · exact .refl
    · split <;> exact .ofChannelStates
  | _ => exact .refl

/-! ## Deliveries -/

/-- Deliveries have their own keys. -/
abbrev DeliveriesNamed (t : Table String DeliveryRecord) : Prop :=
  t.Forall fun id record => record.id = id

/-- The delivery is done or expired. -/
def spent (now : Time) (record : DeliveryRecord) : Prop :=
  completed record ∨ record.expiresAt ≤ now

theorem not_spent_of_live (h : LiveDelivery now record) : ¬ spent now record := by
  rintro (hdone | hexp)
  · rw [completed] at hdone
    rcases h.1 with hstatus | hstatus <;> rw [hstatus] at hdone <;> cases hdone
  · exact absurd hexp (Int.not_le.mpr h.2)

/-- What an operation may make of the delivery; a spent one is released. -/
abbrev DeliveryFate (now : Time) (released added : Prop) (id : String) :
    Option DeliveryRecord → Option DeliveryRecord → Prop :=
  Table.Fate (·.id) (fun record => spent now record ∨ released) added id

theorem expireDelivery_id (now : Time) (record : DeliveryRecord) :
    (expireDelivery now record).id = record.id := by
  unfold expireDelivery
  split_ifs <;> rfl

theorem completed_of_stale (h : staleDelivery now record) : completed record := by
  rw [staleDelivery, Bool.or_eq_true] at h
  rw [completed, Bool.or_eq_true]
  rcases h with hacked | hdead
  · rw [Bool.and_eq_true, Bool.and_eq_true] at hacked
    exact .inl hacked.1.1
  · rw [Bool.and_eq_true] at hdead
    exact .inr hdead.1

theorem cleanupRecords_fate (now : Time) (t : Table String DeliveryRecord) (id : String) :
    DeliveryFate now released added id (t.lookup id) ((cleanupRecords now t).lookup id) := by
  rw [cleanupRecords, lookup_select, lookup_amend]
  cases t.lookup id with
  | none => exact .keep
  | some r =>
    rw [Option.map_some, Option.filter_some]
    by_cases hexp : r.expiresAt ≤ now
    · split_ifs
      · exact .rewrite (.inl (.inr hexp)) (expireDelivery_id now r)
      · exact .remove (.inl (.inr hexp))
    · have hkeep : expireDelivery now r = r := if_neg fun h => hexp h.1
      rw [hkeep]
      split_ifs with hstale
      · exact .keep
      · rw [Bool.not_eq_true', Bool.not_eq_false] at hstale
        exact .remove (.inl (.inl (completed_of_stale hstale)))

theorem trimCompletedDeliveries_fate (now : Time) (limit : Nat)
    (hnamed : DeliveriesNamed t) (id : String) :
    DeliveryFate now released added id (t.lookup id)
      ((trimCompletedDeliveriesLocked limit t).lookup id) :=
  (trimmed_fate limit id hnamed).mono (fun _ h => .inl (.inl h)) False.elim

theorem cleanupLocked_delivery (now : Time) (hnamed : DeliveriesNamed s.records) (id : String) :
    DeliveryFate now released added id (s.records.lookup id)
      ((cleanupLocked now s).records.lookup id) := by
  have hclean : ∀ id, DeliveryFate now released False id (s.records.lookup id)
      ((cleanupRecords now s.records).lookup id) := cleanupRecords_fate now s.records
  rw [cleanupLocked]
  dsimp only
  split
  · have hnamed' : DeliveriesNamed (cleanupRecords now s.records) :=
      fun id r hr => (hclean id).named (hnamed id) r hr
    exact (hclean id).trans (trimCompletedDeliveries_fate now _ hnamed' id)
  · exact cleanupRecords_fate now s.records id

theorem enqueue_delivery (now : Time) (record : DeliveryRecord) (hnamed : DeliveriesNamed s.records)
    (id : String) :
    DeliveryFate now released (record.id = id ∧ ∃ ans, (enqueue now record s).1 = .ok ans) id
      (s.records.lookup id) ((enqueue now record s).2.records.lookup id) := by
  have hclean : ∀ id, DeliveryFate now released False id (s.records.lookup id)
      ((cleanupLocked now s).records.lookup id) := cleanupLocked_delivery now hnamed
  have hnamed' : DeliveriesNamed (cleanupLocked now s).records :=
    fun id r hr => (hclean id).named (hnamed id) r hr
  have htrim : DeliveryFate now released False id (s.records.lookup id)
      ((trimCompletedDeliveriesLocked (maxDeliveryRecords - 1)
        (cleanupLocked now s).records).lookup id) :=
    (hclean id).trans (trimCompletedDeliveries_fate now _ hnamed' id)
  have hins : ∀ {t : Table String DeliveryRecord} {added : Prop}, added →
      DeliveryFate now released False id (s.records.lookup id) (t.lookup id) →
      DeliveryFate now released (record.id = id ∧ added) id (s.records.lookup id)
        ((t.insert record.id (deliveryDefaults now record)).lookup id) := by
    intro t added hadded hfate
    rw [lookup_insert_eq]
    split_ifs with hid
    · exact .add ⟨hid.symm, hadded⟩ hid.symm
    · exact hfate.mono (fun _ h => h) False.elim
  simp only [enqueue]
  split
  · exact cleanupLocked_delivery now hnamed id
  · split_ifs
    · exact cleanupLocked_delivery now hnamed id
    · exact htrim.mono (fun _ h => h) False.elim
    · exact hins ⟨_, rfl⟩ htrim
    · exact hins ⟨_, rfl⟩ (hclean id)

theorem rewritten_delivery {r r' : DeliveryRecord} {id' : String}
    (hrel : id' = id → released) (hr : t.lookup id' = some r) (hname : r'.id = r.id) :
    DeliveryFate now released added id (t.lookup id) ((t.insert id' r').lookup id) := by
  rw [lookup_insert_eq]
  split_ifs with hid
  · rw [hid, hr]
    exact .rewrite (.inr (hrel hid.symm)) hname
  · exact .keep

theorem amended_delivery {f : DeliveryRecord → DeliveryRecord}
    (hrel : released) (hname : ∀ r, (f r).id = r.id) :
    DeliveryFate now released added id (t.lookup id) ((t.amend fun _ => f).lookup id) := by
  rw [lookup_amend]
  cases t.lookup id with
  | none => exact .keep
  | some r => exact .rewrite (.inr hrel) (hname r)

theorem operate_delivery (x : Choice) (op : DeliveryOperation)
    (hnamed : DeliveriesNamed s.records) (id : String) :
    DeliveryFate (op.time x) (op.finishes ∨ op.addresses id) (op.addresses id ∧ Stores x op s) id
      (s.records.lookup id) ((operate x op s).2.records.lookup id) := by
  have hframe := operate_framed x op s
  cases op with
  | call c =>
    cases c with
    | enqueue record =>
      refine (enqueue_delivery x.now record hnamed id).mono (fun _ h => h) ?_
      rintro ⟨hid, ans, hans⟩
      exact ⟨beq_iff_eq.mpr hid, .delivery hans⟩
    | cleanup now => exact cleanupLocked_delivery now hnamed id
    | markSent id' sentAt =>
      simp only [operate, execDelivery, markSent, rewriteRecord]
      split
      · exact .keep
      · rename_i r hr
        exact rewritten_delivery (fun h => .inr (beq_iff_eq.mpr h)) hr rfl
    | markFailed id' failure failedAt =>
      simp only [operate, execDelivery, markFailed, rewriteRecord]
      split
      · exact .keep
      · rename_i r hr
        refine rewritten_delivery (fun h => .inr (beq_iff_eq.mpr h)) hr ?_
        simp only [failedRecord]
        split_ifs <;> rfl
    | ackThrough =>
      simp only [operate, execDelivery, ackThrough]
      split_ifs
      · exact .keep
      · refine amended_delivery (.inl rfl) fun r => ?_
        split_ifs <;> rfl
    | ack =>
      simp only [operate, execDelivery, ack]
      split_ifs
      · refine amended_delivery (.inl rfl) fun r => ?_
        split_ifs <;> rfl
      · exact .keep
    | deleteForInstallation =>
      simp only [operate, execDelivery, deleteForInstallation, lookup_select]
      cases s.records.lookup id with
      | none => exact .keep
      | some =>
        rw [Option.filter_some]
        split_ifs
        · exact .keep
        · exact .remove (.inr (.inl rfl))
    | _ =>
      rw [hframe.records rfl]
      exact .keep
  | _ =>
    rw [hframe.records rfl]
    exact .keep

/-! ## Messages -/

/-- Messages have their own keys. -/
abbrev MessagesNamed (t : Table String EventSubInboxRecord) : Prop :=
  t.Forall fun mid message => message.messageID = mid

/-- The message is dead or expired. -/
def spentMessage (now : Time) (message : EventSubInboxRecord) : Prop :=
  (message.status == .dead) ∨ message.expiresAt ≤ now

theorem not_spentMessage_of_live {message : EventSubInboxRecord} (h : LiveMessage now message) :
    ¬ spentMessage now message := by
  rintro (hdead | hexp)
  · rw [h.1] at hdead
    cases hdead
  · exact absurd hexp (Int.not_le.mpr h.2)

/-- What an operation may make of the message; a spent one is released. -/
abbrev MessageFate (now : Time) (released added : Prop) (mid : String) :
    Option EventSubInboxRecord → Option EventSubInboxRecord → Prop :=
  Table.Fate (·.messageID) (fun message => spentMessage now message ∨ released) added mid

theorem expireInbox_messageID (now : Time) (message : EventSubInboxRecord) :
    (expireInbox now message).messageID = message.messageID := by
  unfold expireInbox
  split_ifs <;> rfl

theorem agedInbox_fate (now : Time) (t : Table String EventSubInboxRecord) (mid : String) :
    MessageFate now released added mid (t.lookup mid)
      (((t.amend fun _ => expireInbox now).select fun _ message =>
        !staleInbox now message).lookup mid) := by
  rw [lookup_select, lookup_amend]
  cases t.lookup mid with
  | none => exact .keep
  | some r =>
    rw [Option.map_some, Option.filter_some]
    by_cases hexp : r.expiresAt ≤ now
    · split_ifs
      · exact .rewrite (.inl (.inr hexp)) (expireInbox_messageID now r)
      · exact .remove (.inl (.inr hexp))
    · have hkeep : expireInbox now r = r := if_neg fun h => hexp h.1
      rw [hkeep]
      split_ifs with hstale
      · exact .keep
      · rw [Bool.not_eq_true', Bool.not_eq_false, staleInbox, Bool.and_eq_true] at hstale
        exact .remove (.inl (.inl hstale.1))

theorem trimDeadEventSubInbox_fate (now : Time) (limit : Nat)
    {t : Table String EventSubInboxRecord} (hnamed : MessagesNamed t) (mid : String) :
    MessageFate now released added mid (t.lookup mid)
      ((trimDeadEventSubInboxLocked limit t).lookup mid) :=
  (trimmed_fate limit mid hnamed).mono (fun _ h => .inl (.inl h)) False.elim

theorem cleanupLocked_message (now : Time) (hnamed : MessagesNamed s.eventSubInbox) (mid : String) :
    MessageFate now released added mid (s.eventSubInbox.lookup mid)
      ((cleanupLocked now s).eventSubInbox.lookup mid) := by
  have haged : ∀ mid, MessageFate now released False mid
      (s.eventSubInbox.lookup mid) (((s.eventSubInbox.amend fun _ => expireInbox now).select
        fun _ message => !staleInbox now message).lookup mid) :=
    agedInbox_fate now s.eventSubInbox
  rw [cleanupLocked]
  dsimp only
  split
  · have hnamed' : MessagesNamed ((s.eventSubInbox.amend fun _ => expireInbox now).select
        fun _ message => !staleInbox now message) :=
      fun id r hr => (haged id).named (hnamed id) r hr
    exact (haged mid).trans (trimDeadEventSubInbox_fate now _ hnamed' mid)
  · exact agedInbox_fate now s.eventSubInbox mid

theorem enqueue_eventSubInbox (now : Time) (record : DeliveryRecord) (s : DeliveryDiskState) :
    (enqueue now record s).2.eventSubInbox = (cleanupLocked now s).eventSubInbox := by
  simp only [enqueue]
  split
  · rfl
  · split_ifs <;> rfl

theorem enqueueEventSub_message (id : String) (envelope : EventSubEnvelope) (now : Time)
    (hnamed : MessagesNamed s.eventSubInbox) (mid : String) :
    MessageFate now released (s.eventSubInbox.lookup mid = none ∧
        ∃ ans, (enqueueEventSub id envelope now s).1 = .ok ans)
      mid (s.eventSubInbox.lookup mid)
      ((enqueueEventSub id envelope now s).2.eventSubInbox.lookup mid) := by
  have htrim : ∀ {added : Prop}, MessageFate now released added mid
      (s.eventSubInbox.lookup mid) ((trimDeadEventSubInboxLocked
        (maxEventSubInboxRecords - 1) s.eventSubInbox).lookup mid) :=
    trimDeadEventSubInbox_fate now _ hnamed mid
  have hins : ∀ {t : Table String EventSubInboxRecord} {added : Prop} {message},
      s.eventSubInbox.lookup (trimSpace id) = none → added → message.messageID = trimSpace id →
      MessageFate now released False mid (s.eventSubInbox.lookup mid)
        (t.lookup mid) →
      MessageFate now released (s.eventSubInbox.lookup mid = none ∧ added) mid
        (s.eventSubInbox.lookup mid)
        ((t.insert (trimSpace id) message).lookup mid) := by
    intro t added message hnone hadded hname hfate
    rw [lookup_insert_eq]
    split_ifs with hid
    · exact .add ⟨hid ▸ hnone, hadded⟩ (hname.trans hid.symm)
    · exact hfate.mono (fun _ h => h) False.elim
  simp only [enqueueEventSub]
  split
  · exact .keep
  · split
    · exact .keep
    · split
      · exact .keep
      · rename_i hnone
        split_ifs
        · exact htrim
        · exact hins hnone ⟨_, rfl⟩ rfl htrim
        · exact hins hnone ⟨_, rfl⟩ rfl .keep

theorem rewritten_message {r r' : EventSubInboxRecord} {id : String}
    {t : Table String EventSubInboxRecord} (hrel : id = mid → released)
    (hr : t.lookup id = some r) (hname : r'.messageID = r.messageID) :
    MessageFate now released added mid (t.lookup mid) ((t.insert id r').lookup mid) := by
  rw [lookup_insert_eq]
  split_ifs with hid
  · rw [hid, hr]
    exact .rewrite (.inr (hrel hid.symm)) hname
  · exact .keep

theorem operate_message (x : Choice) (op : DeliveryOperation)
    (hnamed : MessagesNamed s.eventSubInbox) (mid : String) :
    MessageFate (op.time x) (op.finishes ∨ op.addressesMessage mid)
      (s.eventSubInbox.lookup mid = none ∧ Stores x op s) mid
      (s.eventSubInbox.lookup mid) ((operate x op s).2.eventSubInbox.lookup mid) := by
  have hframe := operate_framed x op s
  cases op with
  | call c =>
    cases c with
    | enqueue =>
      rw [operate, execDelivery, enqueue_eventSubInbox]
      exact cleanupLocked_message x.now hnamed mid
    | cleanup now => exact cleanupLocked_message now hnamed mid
    | enqueueEventSub id envelope now =>
      refine (enqueueEventSub_message id envelope now hnamed mid).mono (fun _ h => h) ?_
      rintro ⟨hnone, ans, hans⟩
      exact ⟨hnone, .message hans⟩
    | markEventSubFailed id failure failedAt =>
      simp only [operate, execDelivery, markEventSubFailed, rewriteMessage]
      split
      · exact .keep
      · rename_i r hr
        refine rewritten_message (fun h => .inr (beq_iff_eq.mpr h)) hr ?_
        simp only [failedMessage]
        split_ifs <;> rfl
    | retryEventSub id now =>
      simp only [operate, execDelivery, retryEventSub, rewriteMessage]
      split
      · exact .keep
      · rename_i r hr
        exact rewritten_message (fun h => .inr (beq_iff_eq.mpr h)) hr rfl
    | completeEventSub =>
      simp only [operate, execDelivery, completeEventSub]
      split
      · split_ifs <;> exact .keep
      · rw [lookup_erase_eq]
        split_ifs with hid
        · cases s.eventSubInbox.lookup mid with
          | none => exact .keep
          | some => exact .remove (.inr (.inl rfl))
        · exact .keep
    | _ =>
      rw [hframe.inbox rfl]
      exact .keep
  | _ =>
    rw [hframe.inbox rfl]
    exact .keep

/-! ## Reachable states -/

/-- The tables have the same rows, in whatever order. -/
structure SameRows (s t : DeliveryDiskState) : Prop where
  records : s.records.Same t.records
  seen : s.seen.Same t.seen
  eventSubInbox : s.eventSubInbox.Same t.eventSubInbox
  channelStates : s.channelStates.Same t.channelStates

/-- The states that operations lead to, whatever order the maps are walked in. -/
inductive StoreReached : DeliveryDiskState → Prop
  | empty : StoreReached {}
  | step {s : DeliveryDiskState} (x : Choice) (op : DeliveryOperation) (h : StoreReached s) :
      StoreReached (operate x op s).2
  | reorder {s t : DeliveryDiskState} (h : StoreReached s) (hsame : SameRows s t) : StoreReached t

theorem StoreReached.named (h : StoreReached s) :
    DeliveriesNamed s.records ∧ MessagesNamed s.eventSubInbox := by
  induction h with
  | empty => exact ⟨Table.Forall.empty, Table.Forall.empty⟩
  | step x op _ ih =>
    exact ⟨fun id r hr => (operate_delivery x op ih.1 id).named (ih.1 id) r hr,
      fun id r hr => (operate_message x op ih.2 id).named (ih.2 id) r hr⟩
  | reorder _ hsame ih => exact ⟨hsame.records.forall ih.1, hsame.eventSubInbox.forall ih.2⟩

/-- `t` has no new identifier. -/
structure NothingNew (s t : DeliveryDiskState) : Prop where
  deliveries : ∀ id, (t.records.lookup id).isSome → (s.records.lookup id).isSome
  messages : ∀ mid, (t.eventSubInbox.lookup mid).isSome →
    (s.eventSubInbox.lookup mid).isSome

theorem operate_nothingNew (x : Choice) (op : DeliveryOperation) (h : StoreReached s)
    (hstores : ¬ Stores x op s) : NothingNew s (operate x op s).2 := by
  obtain ⟨hdels, hmessages⟩ := h.named
  constructor
  · intro id
    exact (operate_delivery x op hdels id).isSome fun hadded => hstores hadded.2
  · intro mid
    exact (operate_message x op hmessages mid).isSome fun hadded => hstores hadded.2

/-- **Pending work is never dropped.** An operation that does not finish work leaves every live
record that it does not address, and an enqueue that fails stores nothing new. -/
theorem pending_work_kept (h : StoreReached s) (x : Choice) :
    (∀ op : DeliveryOperation, op.finishes = false →
      (∀ id r, op.addresses id = false → s.records.lookup id = some r →
        LiveDelivery (op.time x) r → (operate x op s).2.records.lookup id = some r) ∧
      ∀ mid r, op.addressesMessage mid = false →
        s.eventSubInbox.lookup mid = some r → LiveMessage (op.time x) r →
        (operate x op s).2.eventSubInbox.lookup mid = some r) ∧
    (∀ record err, (enqueue x.now record s).1 = .error err →
      NothingNew s (enqueue x.now record s).2) ∧
    ∀ mid envelope now err, (enqueueEventSub mid envelope now s).1 = .error err →
      NothingNew s (enqueueEventSub mid envelope now s).2 := by
  obtain ⟨hdels, hmessages⟩ := h.named
  refine ⟨fun op hfinishes => ⟨fun id r haddresses hr hlive => ?_,
    fun mid r haddresses hr hlive => ?_⟩, fun record err herr => ?_,
    fun mid envelope now err herr => ?_⟩
  · have hfate := operate_delivery x op hdels id
    rw [hr] at hfate
    refine hfate.kept ?_ fun hadded => ?_
    · rintro (hspent | hfinished | haddressed)
      · exact not_spent_of_live hlive hspent
      · rw [hfinishes] at hfinished
        cases hfinished
      · rw [haddresses] at haddressed
        cases haddressed
    · rw [haddresses] at hadded
      cases hadded.1
  · have hfate := operate_message x op hmessages mid
    rw [hr] at hfate
    refine hfate.kept ?_ fun hadded => ?_
    · rintro (hspent | hfinished | haddressed)
      · exact not_spentMessage_of_live hlive hspent
      · rw [hfinishes] at hfinished
        cases hfinished
      · rw [haddresses] at haddressed
        cases haddressed
    · cases hadded.1
  · refine operate_nothingNew x (.call (.enqueue record)) h fun hstores => ?_
    cases hstores with
    | delivery hanswer =>
      rw [herr] at hanswer
      cases hanswer
  · refine operate_nothingNew x (.call (.enqueueEventSub mid envelope now)) h fun hstores => ?_
    cases hstores with
    | message hanswer =>
      rw [herr] at hanswer
      cases hanswer

/-- One delivery waits. -/
def oneWaiting : DeliveryDiskState :=
  (operate { now := 1 } (.call (.enqueue
    { id := "d", eventID := "e", installationID := "phone", notification := {} })) {}).2

theorem oneWaiting_kept : ∃ r, oneWaiting.records.lookup "d" = some r ∧ LiveDelivery 2 r ∧
    (operate { now := 2 } (.call (.cleanup 2)) oneWaiting).2.records.lookup "d" = some r := by
  refine ⟨_, rfl, ⟨.inl rfl, by decide⟩, ?_⟩
  exact ((pending_work_kept (.step _ _ .empty) { now := 2 }).1 (.call (.cleanup 2)) rfl).1 "d" _ rfl
    rfl ⟨.inl rfl, by decide⟩

end Memory

end Ferventio
