import Ferventio.Server.World

/-!
# What a delivery call does to a record

Both delivery stores, with or without a database fault, do the same few things to a stored record.
`Touch` lists them once, and **`execDelivery_touch`** says that there is nothing else. Every
invariant of the queue is derived from this statement. `DeliveryCall.writes` lists the tables of
each call, and **`execDelivery_framed`** and **`answerDelivery_framed`** say that the others stay.
-/

namespace Ferventio

open Table List

variable {key mid id : String} {σ α : Type} {r' r record : DeliveryRecord} {now : Time}
  {s : DeliveryDiskState} {x : Choice} {rewrite : DeliveryRecord → DeliveryRecord}
  {t : Table String DeliveryRecord}

/-- The identity of a record: whose it is and for which event. -/
def SameDelivery (r r' : DeliveryRecord) : Prop :=
  r'.installationID = r.installationID ∧ r'.eventID = r.eventID

/-- **The ways in which a call changes a record** from `r` to `r'`. -/
inductive Touch (s : DeliveryDiskState) :
    DeliveryCall → String → DeliveryRecord → DeliveryRecord → Prop
  | keep {call : DeliveryCall} {id : String} {r : DeliveryRecord} : Touch s call id r r
  | expire {call : DeliveryCall} {id : String} {r : DeliveryRecord} (h : r.status ≠ .acked) :
      Touch s call id r { r with status := .dead }
  | sent {id : String} {r : DeliveryRecord} {sentAt availableAt : Time} :
      Touch s (.markSent id sentAt) id r
        { r with
          status := .sent
          attemptCount := r.attemptCount + 1
          sentAt := sentAt
          lastError := ""
          availableAt := availableAt }
  | failed {id : String} {r : DeliveryRecord} {failure : GoError} {failedAt availableAt : Time}
      {status : DeliveryStatus} (h : status = .dead ∨ status = .pending) :
      Touch s (.markFailed id failure failedAt) id r
        { r with
          status := status
          attemptCount := r.attemptCount + 1
          lastError := failure.text
          availableAt := availableAt }
  | ack {id iid eid : String} {r : DeliveryRecord} {ackedAt : Time}
      (hi : r.installationID = iid) (he : r.eventID = eid) :
      Touch s (.ack iid eid ackedAt) id r (acknowledge ackedAt r)
  | ackThrough {id iid eid : String} {r target : DeliveryRecord} {ackedAt : Time}
      (htarget : target ∈ s.records.rows) (hti : target.installationID = iid)
      (hte : target.eventID = eid) (hi : r.installationID = iid)
      (hle : r.createdAt ≤ target.createdAt) :
      Touch s (.ackThrough iid eid ackedAt) id r (acknowledge ackedAt r)

namespace Touch

variable {call : DeliveryCall}

variable (h : Touch s call id r r')

include h

theorem id_eq : r'.id = r.id := by
  cases h <;> rfl

theorem installationID_eq : r'.installationID = r.installationID := by
  cases h <;> rfl

theorem eventID_eq : r'.eventID = r.eventID := by
  cases h <;> rfl

theorem notification_eq : r'.notification = r.notification := by
  cases h <;> rfl

theorem createdAt_eq : r'.createdAt = r.createdAt := by
  cases h <;> rfl

theorem same : SameDelivery r r' :=
  ⟨h.installationID_eq, h.eventID_eq⟩

theorem of_acked (hacked : r'.status = .acked) :
    r.status = .acked ∨ (∃ ackedAt, call = .ack r.installationID r.eventID ackedAt) ∨
      ∃ eid ackedAt, call = .ackThrough r.installationID eid ackedAt := by
  cases h with
  | keep => exact .inl hacked
  | failed hstatus =>
    rcases hstatus with rfl | rfl <;> cases hacked
  | ack hi he =>
    subst hi he
    exact .inr (.inl ⟨_, rfl⟩)
  | ackThrough htarget hti hte hi =>
    subst hi
    exact .inr (.inr ⟨_, _, rfl⟩)
  | _ => cases hacked

theorem acked (hacked : r.status = .acked) (hsent : ∀ sentAt, call ≠ .markSent id sentAt)
    (hfail : ∀ failure failedAt, call ≠ .markFailed id failure failedAt) :
    r'.status = .acked := by
  cases h with
  | keep => exact hacked
  | expire hne => exact absurd hacked hne
  | sent => exact absurd rfl (hsent _)
  | failed => exact absurd rfl (hfail _ _)
  | _ => rfl

end Touch

/-- The row that `enqueue` writes. -/
def storedRow (env : Env) (now : Time) (record : DeliveryRecord) : DeliveryRecord :=
  match env.backend with
  | .memory => deliveryDefaults now record
  | .postgres => Postgres.deliveryRow (deliveryDefaults now record)

theorem storedRow_id (env : Env) (now : Time) (r : DeliveryRecord) :
    (storedRow env now r).id = r.id := by
  unfold storedRow
  cases env.backend <;> rfl

theorem storedRow_installationID (env : Env) (now : Time) (r : DeliveryRecord) :
    (storedRow env now r).installationID = r.installationID := by
  unfold storedRow
  cases env.backend <;> rfl

theorem storedRow_eventID (env : Env) (now : Time) (r : DeliveryRecord) :
    (storedRow env now r).eventID = r.eventID := by
  unfold storedRow
  cases env.backend <;> rfl

/-! ## What a call leaves alone -/

/-- The tables of the store. -/
inductive DeliveryPart
  | records
  | inbox
  | seen
  | channelStates
deriving DecidableEq

/-- The tables that a call may write, in one of the stores. -/
def DeliveryCall.writes : DeliveryCall → List DeliveryPart
  | enqueue _ | cleanup _ => [.records, .inbox, .seen]
  | markSent _ _ | markFailed _ _ _ | ackThrough _ _ _ | ack _ _ _ | deleteForInstallation _ =>
    [.records]
  | enqueueEventSub _ _ _ | completeEventSub _ _ => [.inbox, .seen]
  | markEventSubFailed _ _ _ | retryEventSub _ _ => [.inbox]
  | saveChannelState _ _ _ _ => [.channelStates]
  | pendingForInstallation _ _ _ | pendingEventSub _ _ | channelStateChanges _ _ _ => []

/-- Only the written tables differ. -/
structure Framed (written : List DeliveryPart) (s s' : DeliveryDiskState) : Prop where
  records : written.contains .records = false → s'.records = s.records
  inbox : written.contains .inbox = false → s'.eventSubInbox = s.eventSubInbox
  seen : written.contains .seen = false → s'.seen = s.seen
  channelStates : written.contains .channelStates = false → s'.channelStates = s.channelStates

namespace Framed

variable {written : List DeliveryPart} {s' : DeliveryDiskState}

theorem refl : Framed written s s := ⟨fun _ => rfl, fun _ => rfl, fun _ => rfl, fun _ => rfl⟩

theorem ofQueue (hstates : s'.channelStates = s.channelStates) :
    Framed [.records, .inbox, .seen] s s' :=
  ⟨fun h => absurd h (by decide), fun h => absurd h (by decide), fun h => absurd h (by decide),
    fun _ => hstates⟩

theorem ofRecords {records : Table String DeliveryRecord} :
    Framed [.records] s { s with records } :=
  ⟨fun h => absurd h (by decide), fun _ => rfl, fun _ => rfl, fun _ => rfl⟩

theorem ofMessages (hrows : s'.records = s.records)
    (hstates : s'.channelStates = s.channelStates) : Framed [.inbox, .seen] s s' :=
  ⟨fun _ => hrows, fun h => absurd h (by decide), fun h => absurd h (by decide), fun _ => hstates⟩

theorem ofInbox {eventSubInbox : Table String EventSubInboxRecord} :
    Framed [.inbox] s { s with eventSubInbox } :=
  ⟨fun _ => rfl, fun h => absurd h (by decide), fun _ => rfl, fun _ => rfl⟩

theorem ofSeen {seen : Table String Time} : Framed [.seen] s { s with seen } :=
  ⟨fun _ => rfl, fun _ => rfl, fun h => absurd h (by decide), fun _ => rfl⟩

theorem ofChannelStates {channelStates : Table String ChannelNotificationState} :
    Framed [.channelStates] s { s with channelStates } :=
  ⟨fun _ => rfl, fun _ => rfl, fun _ => rfl, fun h => absurd h (by decide)⟩

end Framed

/-! ## Rewritten rows -/

section Rewritten

theorem expireDelivery_touch (now : Time) (call : DeliveryCall) (r : DeliveryRecord) :
    Touch s call id r (expireDelivery now r) := by
  unfold expireDelivery
  split_ifs with h
  · exact .expire h.2
  · exact .keep

theorem rewriteRecord_framed : Framed [.records] s (rewriteRecord id rewrite s).2 := by
  rw [rewriteRecord]
  split
  · exact .refl
  · exact .ofRecords

theorem rewriteRecord_lookup (h : (rewriteRecord key rewrite s).2.records.lookup id = some r') :
    s.records.lookup id = some r' ∨
      id = key ∧ ∃ r, s.records.lookup id = some r ∧ r' = rewrite r := by
  rw [rewriteRecord] at h
  split at h
  · exact .inl h
  · rename_i r hr
    rw [lookup_insert_eq] at h
    split_ifs at h with hid
    · cases h
      exact .inr ⟨hid, r, hid ▸ hr, rfl⟩
    · exact .inl h

theorem rewriteRecord_touch {call : DeliveryCall}
    (h : (rewriteRecord key rewrite s).2.records.lookup id = some r')
    (htouch : ∀ r, id = key → Touch s call id r (rewrite r)) :
    ∃ r, s.records.lookup id = some r ∧ Touch s call id r r' := by
  rcases rewriteRecord_lookup h with hold | ⟨hid, r, hr, rfl⟩
  · exact ⟨r', hold, .keep⟩
  · exact ⟨r, hr, htouch r hid⟩

variable {messageID : String} {rewrite : EventSubInboxRecord → EventSubInboxRecord}

theorem rewriteMessage_framed : Framed [.inbox] s (rewriteMessage messageID rewrite s).2 := by
  rw [rewriteMessage]
  split
  · exact .refl
  · exact .ofInbox

theorem rewriteMessage_cases (messageID : String)
    (rewrite : EventSubInboxRecord → EventSubInboxRecord) (s : DeliveryDiskState) (mid : String) :
    (rewriteMessage messageID rewrite s).2.eventSubInbox.lookup mid = s.eventSubInbox.lookup mid ∨
      mid = messageID ∧ ∃ r, s.eventSubInbox.lookup mid = some r ∧
        (rewriteMessage messageID rewrite s).2.eventSubInbox.lookup mid = some (rewrite r) := by
  rw [rewriteMessage]
  split
  · exact .inl rfl
  · rename_i r hr
    dsimp only
    rw [lookup_insert_eq]
    split_ifs with hid
    · exact .inr ⟨hid, r, hid ▸ hr, rfl⟩
    · exact .inl rfl

theorem rewriteMessage_isSome (mid : String) :
    ((rewriteMessage messageID rewrite s).2.eventSubInbox.lookup mid).isSome =
      (s.eventSubInbox.lookup mid).isSome := by
  rcases rewriteMessage_cases messageID rewrite s mid with h | ⟨-, r, hr, h⟩
  · rw [h]
  · rw [h, hr]
    rfl

theorem rewriteMessage_absent (h : s.eventSubInbox.lookup mid = none) :
    (rewriteMessage messageID rewrite s).2.eventSubInbox.lookup mid = none := by
  rw [← Option.not_isSome_iff_eq_none, rewriteMessage_isSome, h]
  exact Bool.false_ne_true

end Rewritten

/-! ## The in-memory store -/

namespace Memory

theorem trimKeys_lookup {limit : Nat} {keys : List String} {t : Table String α} {v : α}
    (h : (trimKeys limit keys t).lookup id = some v) : t.lookup id = some v := by
  induction keys generalizing t with
  | nil => exact h
  | cons key keys ih =>
    rw [trimKeys] at h
    split_ifs at h
    · exact h
    · have herase := ih h
      rw [lookup_erase_eq] at herase
      split_ifs at herase
      exact herase

theorem cleanupRecords_lookup (h : (cleanupRecords now t).lookup id = some r') :
    ∃ r, t.lookup id = some r ∧ r' = expireDelivery now r := by
  rw [cleanupRecords, lookup_select_amend] at h
  obtain ⟨⟨r, hr, rfl⟩, -⟩ := h
  exact ⟨r, hr, rfl⟩

theorem cleanupLocked_lookup (h : (cleanupLocked now s).records.lookup id = some r') :
    ∃ r, s.records.lookup id = some r ∧ r' = expireDelivery now r := by
  simp only [cleanupLocked] at h
  split_ifs at h
  · exact cleanupRecords_lookup (trimKeys_lookup h)
  · exact cleanupRecords_lookup h

theorem enqueue_records (now : Time) (record : DeliveryRecord) (s : DeliveryDiskState) :
    ∃ t : Table String DeliveryRecord,
      (∀ id r, t.lookup id = some r → (cleanupLocked now s).records.lookup id = some r) ∧
      ((enqueue now record s).2.records = t ∨
        (enqueue now record s).2.records = t.insert record.id (deliveryDefaults now record) ∧
          ∀ r ∈ (cleanupLocked now s).records.rows, ¬ SameDelivery record r) := by
  simp only [enqueue]
  split
  · exact ⟨_, fun _ _ h => h, .inl rfl⟩
  · rename_i hfind
    have hnone : ∀ r ∈ (cleanupLocked now s).records.rows, ¬ SameDelivery record r := by
      intro r hr hsame
      have hmatch := find?_eq_none.mp hfind r hr
      simp only [Bool.and_eq_true, beq_iff_eq] at hmatch
      exact hmatch hsame
    split_ifs
    · exact ⟨_, fun _ _ h => h, .inl rfl⟩
    · exact ⟨_, fun _ _ h => trimKeys_lookup h, .inl rfl⟩
    · exact ⟨_, fun _ _ h => trimKeys_lookup h, .inr ⟨rfl, hnone⟩⟩
    · exact ⟨_, fun _ _ h => h, .inr ⟨rfl, hnone⟩⟩

theorem enqueue_lookup (h : (enqueue now record s).2.records.lookup id = some r') :
    (∃ r, s.records.lookup id = some r ∧ r' = expireDelivery now r) ∨
      id = record.id ∧ r' = deliveryDefaults now record ∧
        ∀ id2 r2, (enqueue now record s).2.records.lookup id2 = some r2 →
          SameDelivery record r2 → id2 = record.id := by
  obtain ⟨t, ht, hrows | ⟨hrows, hnone⟩⟩ := enqueue_records now record s
  · rw [hrows] at h
    exact .inl (cleanupLocked_lookup (ht id r' h))
  · rw [hrows, lookup_insert_eq] at h
    split_ifs at h with hid
    · cases h
      refine .inr ⟨hid, rfl, fun id2 r2 h2 hsame => ?_⟩
      rw [hrows, lookup_insert_eq] at h2
      split_ifs at h2 with hid2
      · exact hid2
      · exact absurd hsame (hnone r2 (mem_rows_of_lookup (ht id2 r2 h2)))
    · exact .inl (cleanupLocked_lookup (ht id r' h))

section Ack

variable {iid eid : String} {ackedAt : Time}

theorem ack_framed : Framed [.records] s (ack iid eid ackedAt s).2 := by
  rw [ack]
  split_ifs
  · exact .ofRecords
  · exact .refl

theorem ack_touch (h : (ack iid eid ackedAt s).2.records.lookup id = some r') :
    ∃ r, s.records.lookup id = some r ∧ Touch s (.ack iid eid ackedAt) id r r' := by
  simp only [ack] at h
  split_ifs at h
  · rw [lookup_amend, Option.map_eq_some_iff] at h
    obtain ⟨r, hr, rfl⟩ := h
    refine ⟨r, hr, ?_⟩
    split_ifs with hmatch
    · exact .ack hmatch.1 hmatch.2
    · exact .keep
  · exact ⟨r', h, .keep⟩

theorem deleteForInstallation_lookup
    (h : (deleteForInstallation iid s).2.records.lookup id = some r') :
    s.records.lookup id = some r' := by
  rw [deleteForInstallation, lookup_select, Option.filter_eq_some_iff] at h
  exact h.1

end Ack

theorem failedRecord_touch (failure : GoError) (failedAt : Time) (r : DeliveryRecord) :
    Touch s (.markFailed id failure failedAt) id r (failedRecord failure failedAt r) := by
  unfold failedRecord
  dsimp only
  split_ifs
  · exact .failed (.inl rfl)
  · exact .failed (.inr rfl)

theorem execDelivery_framed (x : Choice) (call : DeliveryCall) (s : DeliveryDiskState) :
    Framed call.writes s (execDelivery x call s).2 := by
  cases call with
  | enqueue =>
    refine .ofQueue ?_
    simp only [execDelivery, enqueue]
    split
    · rfl
    · split_ifs <;> rfl
  | cleanup => exact .ofQueue rfl
  | markSent => exact rewriteRecord_framed
  | markFailed => exact rewriteRecord_framed
  | ackThrough =>
    simp only [execDelivery, ackThrough]
    split_ifs
    · exact .refl
    · exact .ofRecords
  | ack => exact ack_framed
  | deleteForInstallation => exact .ofRecords
  | enqueueEventSub =>
    simp only [execDelivery, enqueueEventSub]
    split
    · exact .refl
    split
    · exact .ofMessages rfl rfl
    split
    · exact .ofMessages rfl rfl
    · split_ifs <;> exact .ofMessages rfl rfl
  | completeEventSub =>
    simp only [execDelivery, completeEventSub]
    split
    · split_ifs <;> exact .refl
    · exact .ofMessages rfl rfl
  | markEventSubFailed => exact rewriteMessage_framed
  | retryEventSub => exact rewriteMessage_framed
  | saveChannelState =>
    simp only [execDelivery, saveChannelState]
    split_ifs
    · exact .refl
    · exact .ofChannelStates
  | _ => exact .refl

theorem execDelivery_touch {call : DeliveryCall}
    (h : (execDelivery x call s).2.records.lookup id = some r') :
    (∃ r, s.records.lookup id = some r ∧ Touch s call id r r') ∨
      ∃ record, call = .enqueue record ∧ id = record.id ∧ r' = deliveryDefaults x.now record ∧
        ∀ id2 r2, (execDelivery x call s).2.records.lookup id2 = some r2 →
          SameDelivery record r2 → id2 = record.id := by
  have hframe := execDelivery_framed x call s
  cases call with
  | enqueue record =>
    rcases enqueue_lookup h with ⟨r, hr, rfl⟩ | ⟨hid, rfl, huniq⟩
    · exact .inl ⟨r, hr, expireDelivery_touch x.now _ r⟩
    · exact .inr ⟨record, rfl, hid, rfl, huniq⟩
  | cleanup now =>
    obtain ⟨r, hr, rfl⟩ := cleanupLocked_lookup h
    exact .inl ⟨r, hr, expireDelivery_touch now _ r⟩
  | markSent sentID sentAt =>
    refine .inl (rewriteRecord_touch h fun r hid => ?_)
    subst hid
    exact .sent
  | markFailed failedID failure failedAt =>
    refine .inl (rewriteRecord_touch h fun r hid => ?_)
    subst hid
    exact failedRecord_touch failure failedAt r
  | ackThrough iid eid ackedAt =>
    simp only [execDelivery, ackThrough] at h
    split_ifs at h with htarget
    · exact .inl ⟨r', h, .keep⟩
    · rw [lookup_amend, Option.map_eq_some_iff] at h
      obtain ⟨r, hr, rfl⟩ := h
      refine .inl ⟨r, hr, ?_⟩
      split at htarget
      · rename_i target hfind
        have hmatch := find?_some hfind
        simp only [Bool.and_eq_true, beq_iff_eq] at hmatch
        split_ifs with hskip
        · exact .keep
        · push Not at hskip
          exact .ackThrough (mem_of_find?_eq_some hfind) hmatch.1 hmatch.2 hskip.1 hskip.2
      · exact absurd rfl htarget
  | ack => exact .inl (ack_touch h)
  | deleteForInstallation => exact .inl ⟨r', deleteForInstallation_lookup h, .keep⟩
  | _ => exact .inl ⟨r', hframe.records rfl ▸ h, .keep⟩

end Memory

/-! ## The PostgreSQL store -/

namespace Postgres

theorem cleanupDeliveriesTx_lookup (h : (cleanupDeliveriesTx now t).lookup id = some r') :
    ∃ r, t.lookup id = some r ∧ r' = expireDelivery now r := by
  rw [cleanupDeliveriesTx, lookup_select_amend] at h
  obtain ⟨⟨r, hr, rfl⟩, -⟩ := h
  exact ⟨r, hr, rfl⟩

theorem enqueue_records (now : Time) (record : DeliveryRecord) (s : DeliveryDiskState) :
    (enqueue now record s).2.records = s.records ∨
      (enqueue now record s).2.records = cleanupDeliveriesTx now s.records ∨
      (enqueue now record s).2.records = (cleanupDeliveriesTx now s.records).insert record.id
          (deliveryRow (deliveryDefaults now record)) ∧
        ∀ r ∈ (cleanupDeliveriesTx now s.records).rows, ¬ SameDelivery record r := by
  simp only [enqueue]
  split
  · exact .inl rfl
  · split
    · exact .inl rfl
    · split
      · exact .inr (.inl rfl)
      · rename_i hfind
        split
        · exact .inl rfl
        · refine .inr (.inr ⟨rfl, fun r hr hsame => ?_⟩)
          have hmatch := find?_eq_none.mp hfind r hr
          simp only [Bool.and_eq_true, beq_iff_eq] at hmatch
          exact hmatch hsame

theorem enqueue_lookup (h : (enqueue now record s).2.records.lookup id = some r') :
    s.records.lookup id = some r' ∨
      (∃ r, s.records.lookup id = some r ∧ r' = expireDelivery now r) ∨
      id = record.id ∧ r' = deliveryRow (deliveryDefaults now record) ∧
        ∀ id2 r2, (enqueue now record s).2.records.lookup id2 = some r2 →
          SameDelivery record r2 → id2 = record.id := by
  rcases enqueue_records now record s with hrows | hrows | ⟨hrows, hnone⟩
  · rw [hrows] at h
    exact .inl h
  · rw [hrows] at h
    exact .inr (.inl (cleanupDeliveriesTx_lookup h))
  · rw [hrows, lookup_insert_eq] at h
    split_ifs at h with hid
    · cases h
      refine .inr (.inr ⟨hid, rfl, fun id2 r2 h2 hsame => ?_⟩)
      rw [hrows, lookup_insert_eq] at h2
      split_ifs at h2 with hid2
      · exact hid2
      · exact absurd hsame (hnone r2 (mem_rows_of_lookup h2))
    · exact .inr (.inl (cleanupDeliveriesTx_lookup h))

theorem failedRow_touch (failure : GoError) (failedAt : Time) (r : DeliveryRecord) :
    Touch s (.markFailed id failure failedAt) id r (failedRow failure.text failedAt r) := by
  refine .failed ?_
  split_ifs
  · exact .inl rfl
  · exact .inr rfl

theorem enqueue_inbox (now : Time) (r : DeliveryRecord) (s : DeliveryDiskState) :
    (enqueue now r s).2.eventSubInbox = s.eventSubInbox ∧
      (enqueue now r s).2.channelStates = s.channelStates := by
  simp only [enqueue]
  split
  · exact ⟨rfl, rfl⟩
  split
  · exact ⟨rfl, rfl⟩
  split
  · exact ⟨rfl, rfl⟩
  · split <;> exact ⟨rfl, rfl⟩

theorem answerDelivery_framed (x : Choice) (call : DeliveryCall) (s : DeliveryDiskState) :
    Framed call.writes s (answerDelivery x call s).2 := by
  cases call with
  | enqueue r => exact .ofQueue (enqueue_inbox x.now r s).2
  | cleanup => exact .ofQueue rfl
  | markSent =>
    simp only [answerDelivery, markSent]
    split
    · exact .refl
    split
    · exact .refl
    · exact .ofRecords
  | markFailed => exact rewriteRecord_framed
  | ackThrough =>
    simp only [answerDelivery, ackThrough]
    split
    · exact .refl
    · exact .ofRecords
  | ack => exact Memory.ack_framed
  | deleteForInstallation => exact .ofRecords
  | enqueueEventSub =>
    simp only [answerDelivery, enqueueEventSub]
    split
    · exact .refl
    split
    · exact .ofMessages rfl rfl
    · split <;> exact .ofMessages rfl rfl
  | completeEventSub =>
    simp only [answerDelivery, completeEventSub]
    split_ifs
    · exact .refl
    · exact .ofMessages rfl rfl
  | markEventSubFailed => exact rewriteMessage_framed
  | retryEventSub => exact rewriteMessage_framed
  | saveChannelState =>
    simp only [answerDelivery, saveChannelState]
    split_ifs
    · exact .refl
    · exact .ofChannelStates
  | _ => exact .refl

theorem answerDelivery_touch {call : DeliveryCall}
    (h : (answerDelivery x call s).2.records.lookup id = some r') :
    (∃ r, s.records.lookup id = some r ∧ Touch s call id r r') ∨
      ∃ record, call = .enqueue record ∧ id = record.id ∧
        r' = deliveryRow (deliveryDefaults x.now record) ∧
        ∀ id2 r2, (answerDelivery x call s).2.records.lookup id2 = some r2 →
          SameDelivery record r2 → id2 = record.id := by
  have hframe := answerDelivery_framed x call s
  cases call with
  | enqueue record =>
    rcases enqueue_lookup h with h | ⟨r, hr, rfl⟩ | ⟨hid, rfl, huniq⟩
    · exact .inl ⟨r', h, .keep⟩
    · exact .inl ⟨r, hr, expireDelivery_touch x.now _ r⟩
    · exact .inr ⟨record, rfl, hid, rfl, huniq⟩
  | cleanup now =>
    obtain ⟨r, hr, rfl⟩ := cleanupDeliveriesTx_lookup h
    exact .inl ⟨r, hr, expireDelivery_touch now _ r⟩
  | markSent sentID sentAt =>
    simp only [answerDelivery, markSent] at h
    split at h
    · exact .inl ⟨r', h, .keep⟩
    · rename_i r hr
      split at h
      · exact .inl ⟨r', h, .keep⟩
      · rw [lookup_insert_eq] at h
        split_ifs at h with hid
        · cases h
          subst hid
          exact .inl ⟨r, hr, .sent⟩
        · exact .inl ⟨r', h, .keep⟩
  | markFailed failedID failure failedAt =>
    refine .inl (rewriteRecord_touch h fun r hid => ?_)
    subst hid
    exact failedRow_touch failure failedAt r
  | ackThrough iid eid ackedAt =>
    simp only [answerDelivery, ackThrough] at h
    split at h
    · exact .inl ⟨r', h, .keep⟩
    · rename_i target hfind
      have hmatch := find?_some hfind
      simp only [Bool.and_eq_true, beq_iff_eq] at hmatch
      rw [lookup_amend, Option.map_eq_some_iff] at h
      obtain ⟨r, hr, rfl⟩ := h
      refine .inl ⟨r, hr, ?_⟩
      split_ifs with hle
      · exact .ackThrough (mem_of_find?_eq_some hfind) hmatch.1 hmatch.2 hle.1 hle.2
      · exact .keep
  | ack => exact .inl (Memory.ack_touch h)
  | deleteForInstallation => exact .inl ⟨r', Memory.deleteForInstallation_lookup h, .keep⟩
  | _ => exact .inl ⟨r', hframe.records rfl ▸ h, .keep⟩

/-! ### What a call leaves in place -/

theorem cleanupDeliveriesTx_keeps
    (h : t.lookup id = some r) (hstale : staleDelivery now (expireDelivery now r) = false) :
    (cleanupDeliveriesTx now t).lookup id = some (expireDelivery now r) := by
  rw [cleanupDeliveriesTx, lookup_select, lookup_amend, h]
  simp [hstale]

theorem expireDelivery_same (now : Time) (r : DeliveryRecord) :
    SameDelivery r (expireDelivery now r) := by
  unfold expireDelivery
  split_ifs <;> exact ⟨rfl, rfl⟩

theorem enqueue_keeps (h : s.records.lookup id = some r)
    (hstale : staleDelivery now (expireDelivery now r) = false) :
    ∃ r', (enqueue now record s).2.records.lookup id = some r' ∧ SameDelivery r r' := by
  have hkept := cleanupDeliveriesTx_keeps h hstale
  have hsame := expireDelivery_same now r
  simp only [enqueue]
  split
  · exact ⟨r, h, rfl, rfl⟩
  · split
    · exact ⟨r, h, rfl, rfl⟩
    · split
      · exact ⟨_, hkept, hsame⟩
      · split
        · exact ⟨r, h, rfl, rfl⟩
        · rename_i hfree
          refine ⟨_, ?_, hsame⟩
          rw [lookup_insert_eq, if_neg]
          · exact hkept
          · -- the new record takes a key that is free
            rintro rfl
            exact hfree (Option.isSome_of_eq_some hkept)

theorem answerDelivery_keeps {call : DeliveryCall} (h : s.records.lookup id = some r)
    (hdelete : ∀ iid, call ≠ .deleteForInstallation iid)
    (hstale : ∀ now, now = x.now ∨ call = .cleanup now →
      staleDelivery now (expireDelivery now r) = false) :
    ∃ r', (answerDelivery x call s).2.records.lookup id = some r' ∧ SameDelivery r r' := by
  have hwrite : ∀ key row row', s.records.lookup key = some row → SameDelivery row row' →
      ∃ r', (s.records.insert key row').lookup id = some r' ∧ SameDelivery r r' := by
    intro key row row' hrow hsame
    rw [lookup_insert_eq]
    split_ifs with hid
    · subst hid
      rw [h] at hrow
      cases hrow
      exact ⟨row', rfl, hsame⟩
    · exact ⟨r, h, rfl, rfl⟩
  have hamend : ∀ f : String → DeliveryRecord → DeliveryRecord, SameDelivery r (f id r) →
      ∃ r', (s.records.amend f).lookup id = some r' ∧ SameDelivery r r' := by
    intro f hsame
    rw [lookup_amend, h]
    exact ⟨_, rfl, hsame⟩
  have hframe := answerDelivery_framed x call s
  cases call with
  | enqueue => exact enqueue_keeps h (hstale x.now (.inl rfl))
  | deleteForInstallation iid => exact absurd rfl (hdelete iid)
  | cleanup now =>
    exact ⟨_, cleanupDeliveriesTx_keeps h (hstale now (.inr rfl)), expireDelivery_same now r⟩
  | markSent sentID sentAt =>
    simp only [answerDelivery, markSent]
    split
    · exact ⟨r, h, rfl, rfl⟩
    · rename_i row hrow
      split
      · exact ⟨r, h, rfl, rfl⟩
      · exact hwrite _ row _ hrow ⟨rfl, rfl⟩
  | markFailed failedID failure failedAt =>
    simp only [answerDelivery, markFailed, rewriteRecord]
    split
    · exact ⟨r, h, rfl, rfl⟩
    · rename_i row hrow
      exact hwrite _ row _ hrow ⟨rfl, rfl⟩
  | ackThrough =>
    simp only [answerDelivery, ackThrough]
    split
    · exact ⟨r, h, rfl, rfl⟩
    · refine hamend _ ?_
      split_ifs <;> exact ⟨rfl, rfl⟩
  | ack =>
    simp only [answerDelivery, ack, Memory.ack]
    split
    · refine hamend _ ?_
      split_ifs <;> exact ⟨rfl, rfl⟩
    · exact ⟨r, h, rfl, rfl⟩
  | _ => exact ⟨r, (hframe.records rfl).symm ▸ h, rfl, rfl⟩

theorem enqueue_ok {ans : DeliveryRecord × Bool} (h : (enqueue now record s).1 = .ok ans) :
    ∃ id r, (enqueue now record s).2.records.lookup id = some r ∧ SameDelivery record r := by
  simp only [enqueue] at h ⊢
  split at h
  · cases h
  · rename_i hid
    rw [if_neg hid]
    split at h
    · cases h
    · rename_i hfull
      rw [if_neg hfull]
      split at h
      · rename_i existing hfind
        have hmatch := find?_some hfind
        simp only [Bool.and_eq_true, beq_iff_eq] at hmatch
        obtain ⟨id, hget⟩ := mem_rows_iff.mp (mem_of_find?_eq_some hfind)
        exact ⟨id, existing, hget, hmatch⟩
      · split at h
        · cases h
        · rename_i hfree
          rw [if_neg hfree]
          refine ⟨record.id, _, AList.lookup_insert _, ?_⟩
          exact ⟨rfl, rfl⟩

theorem answerDelivery_inbox {call : DeliveryCall}
    (hcomp : ∀ completedAt, call ≠ .completeEventSub mid completedAt)
    (hcleanup : ∀ now, call ≠ .cleanup now) (h : (s.eventSubInbox.lookup mid).isSome) :
    ((answerDelivery x call s).2.eventSubInbox.lookup mid).isSome := by
  have hins : ∀ key row, ((s.eventSubInbox.insert key row).lookup mid).isSome := by
    intro key row
    rw [lookup_insert_eq]
    split_ifs
    · rfl
    · exact h
  have hframe := answerDelivery_framed x call s
  cases call with
  | enqueue r =>
    rw [answerDelivery, (enqueue_inbox x.now r s).1]
    exact h
  | cleanup now => exact absurd rfl (hcleanup now)
  | enqueueEventSub =>
    simp only [answerDelivery, enqueueEventSub]
    split
    · exact h
    · split
      · exact h
      · split
        · exact h
        · exact hins _ _
  | completeEventSub completed completedAt =>
    have hne : mid ≠ completed := fun heq => hcomp completedAt (by rw [heq])
    simp only [answerDelivery, completeEventSub]
    split
    · exact h
    · rw [lookup_erase_eq, if_neg hne]
      exact h
  | markEventSubFailed => exact (rewriteMessage_isSome mid).trans h
  | retryEventSub => exact (rewriteMessage_isSome mid).trans h
  | _ => exact (hframe.inbox rfl).symm ▸ h

end Postgres

/-! ## Either store -/

theorem withFault_snd (x : Choice) (failed : α) (s : σ) (r : α × σ) :
    (withFault x failed s r).2 = s ∨ (withFault x failed s r).2 = r.2 := by
  unfold withFault
  split
  · exact .inr rfl
  · exact .inl rfl
  · exact .inr rfl

theorem withFault_fst (x : Choice) (failed : α) (s : σ) (r : α × σ) :
    (withFault x failed s r).1 = failed ∨ (withFault x failed s r) = r := by
  unfold withFault
  split
  · exact .inr rfl
  · exact .inl rfl
  · exact .inl rfl

theorem execDelivery_snd (env : Env) (x : Choice) (call : DeliveryCall) (s : DeliveryDiskState) :
    (execDelivery env x call s).2 = s ∨
      (execDelivery env x call s).2 = (Memory.execDelivery x call s).2 ∨
      (execDelivery env x call s).2 = (Postgres.answerDelivery x call s).2 := by
  unfold execDelivery
  cases env.backend with
  | memory => exact .inr (.inl rfl)
  | postgres => exact (withFault_snd x _ s (Postgres.answerDelivery x call s)).imp id .inr

/-- **Nothing else happens to a record**: it was stored before and was touched, or the call enqueued
it. -/
theorem execDelivery_touch {env : Env} {call : DeliveryCall} {s : DeliveryDiskState} {id : String}
    {r' : DeliveryRecord} (h : (execDelivery env x call s).2.records.lookup id = some r') :
    (∃ r, s.records.lookup id = some r ∧ Touch s call id r r') ∨
      ∃ record, call = .enqueue record ∧ id = record.id ∧ r' = storedRow env x.now record ∧
        ∀ id2 r2, (execDelivery env x call s).2.records.lookup id2 = some r2 →
          SameDelivery record r2 → id2 = record.id := by
  unfold execDelivery at h ⊢
  unfold storedRow
  cases hb : env.backend with
  | memory =>
    rw [hb] at h
    exact Memory.execDelivery_touch h
  | postgres =>
    rw [hb] at h
    dsimp only [Postgres.execDelivery] at h ⊢
    rcases withFault_snd x (Postgres.failedDelivery call) s (Postgres.answerDelivery x call s) with
      hs | hs
    · rw [hs] at h
      exact .inl ⟨r', h, .keep⟩
    · rw [hs] at h ⊢
      exact Postgres.answerDelivery_touch h

end Ferventio
