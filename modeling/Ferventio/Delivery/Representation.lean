import Ferventio.Delivery.Capacity
import Ferventio.Delivery.Retention

/-!
# The representation of the delivery store

The maps of the in-memory delivery store under any sequence of its operations, with any arguments.
Go walks a map in an order of its own each time, so a run may reorder the rows of a table at any
point (`StoreReached.reorder`).

* **`delivery_store_invariant`**: it holds in every state that is reached.
-/

namespace Ferventio

open Strings Table List

namespace Memory

variable {envelope : EventSubEnvelope} {r r' : EventSubInboxRecord} {id mid : String}
  {s t : DeliveryDiskState} {x : Choice} {op : DeliveryOperation} {now : Time}

/-! ## Messages -/

/-- **The ways in which an operation changes a message.** -/
inductive MessageTouch (x : Choice) (op : DeliveryOperation) (mid : String)
    (r : EventSubInboxRecord) : EventSubInboxRecord → Prop
  | keep : MessageTouch x op mid r r
  | expire (h : r.expiresAt ≤ op.time x) (hlive : r.status ≠ .dead) :
      MessageTouch x op mid r { r with
        status := .dead
        lastError := "EventSub inbox item expired before processing" }
  | failed {failure : GoError} {failedAt : Time}
      (h : op = .call (.markEventSubFailed mid failure failedAt)) :
      MessageTouch x op mid r (failedMessage failure failedAt r)
  | retried {now : Time} (h : op = .call (.retryEventSub mid now)) :
      MessageTouch x op mid r (retriedMessage now r)

/-- The operation enqueued the message. -/
def Enqueued (s : DeliveryDiskState) (op : DeliveryOperation) (mid : String)
    (r' : EventSubInboxRecord) : Prop :=
  s.eventSubInbox.lookup mid = none ∧ mid ≠ "" ∧
    ∃ id envelope now, op = .call (.enqueueEventSub id envelope now) ∧ trimSpace id = mid ∧
      r' = newMessage mid envelope now

theorem expireInbox_touch (h : op.time x = now) : MessageTouch x op mid r (expireInbox now r) := by
  unfold expireInbox
  by_cases hexp : r.expiresAt ≤ now ∧ r.status ≠ .dead
  · rw [if_pos hexp]
    exact .expire (h ▸ hexp.1) hexp.2
  · rw [if_neg hexp]
    exact .keep

theorem cleanupLocked_messageTouch (h : op.time x = now)
    (hr' : (cleanupLocked now s).eventSubInbox.lookup mid = some r') :
    ∃ r, s.eventSubInbox.lookup mid = some r ∧ MessageTouch x op mid r r' := by
  have haged : ((s.eventSubInbox.amend fun _ => expireInbox now).select
      fun _ row => !staleInbox now row).lookup mid = some r' := by
    simp only [cleanupLocked] at hr'
    split at hr'
    · exact trimKeys_lookup hr'
    · exact hr'
  obtain ⟨⟨r, hr, rfl⟩, -⟩ := lookup_select_amend.mp haged
  exact ⟨r, hr, expireInbox_touch h⟩

theorem enqueueEventSub_messageTouch
    (hr' : (enqueueEventSub id envelope now s).2.eventSubInbox.lookup mid = some r') :
    s.eventSubInbox.lookup mid = some r' ∨
      Enqueued s (.call (.enqueueEventSub id envelope now)) mid r' := by
  have hins : ∀ {u : Table String EventSubInboxRecord}, trimSpace id ≠ "" →
      s.eventSubInbox.lookup (trimSpace id) = none →
      (∀ {r}, u.lookup mid = some r → s.eventSubInbox.lookup mid = some r) →
      (u.insert (trimSpace id) (newMessage (trimSpace id) envelope now)).lookup mid =
        some r' →
      s.eventSubInbox.lookup mid = some r' ∨
        Enqueued s (.call (.enqueueEventSub id envelope now)) mid r' := by
    intro u hid hnone hold hget
    rw [lookup_insert_eq] at hget
    split_ifs at hget with hkey
    · cases hget
      subst hkey
      exact .inr ⟨hnone, hid, id, envelope, now, rfl, rfl, rfl⟩
    · exact .inl (hold hget)
  simp only [enqueueEventSub] at hr'
  split at hr'
  · exact .inl hr'
  rename_i hblank
  split at hr'
  · exact .inl hr'
  · split at hr'
    · exact .inl hr'
    · rename_i hnone
      split_ifs at hr'
      · exact .inl (trimKeys_lookup hr')
      · exact hins hblank hnone trimKeys_lookup hr'
      · exact hins hblank hnone (fun hr => hr) hr'

theorem rewritten_messageTouch {rewrite : EventSubInboxRecord → EventSubInboxRecord}
    (htouch : ∀ r, mid = id → MessageTouch x op mid r (rewrite r))
    (hr' : (rewriteMessage id rewrite s).2.eventSubInbox.lookup mid = some r') :
    ∃ r, s.eventSubInbox.lookup mid = some r ∧ MessageTouch x op mid r r' := by
  rcases rewriteMessage_cases id rewrite s mid with h | ⟨hid, r, hr, h⟩
  · exact ⟨r', h.symm.trans hr', .keep⟩
  · cases h.symm.trans hr'
    exact ⟨r, hr, htouch r hid⟩

/-- **What an operation makes of the inbox**: a message was there before and was touched, or was
enqueued. -/
theorem operate_messageTouch (hr' : (operate x op s).2.eventSubInbox.lookup mid = some r') :
    (∃ r, s.eventSubInbox.lookup mid = some r ∧ MessageTouch x op mid r r') ∨
      Enqueued s op mid r' := by
  have hframe := operate_framed x op s
  cases op with
  | call c =>
    cases c with
    | enqueue =>
      rw [operate, execDelivery, enqueue_eventSubInbox] at hr'
      exact .inl (cleanupLocked_messageTouch rfl hr')
    | cleanup => exact .inl (cleanupLocked_messageTouch rfl hr')
    | enqueueEventSub =>
      rw [operate, execDelivery] at hr'
      rcases enqueueEventSub_messageTouch hr' with hold | hnew
      · exact .inl ⟨r', hold, .keep⟩
      · exact .inr hnew
    | markEventSubFailed id failure failedAt =>
      exact .inl (rewritten_messageTouch (fun _ hid => .failed (hid ▸ rfl)) hr')
    | retryEventSub id now =>
      exact .inl (rewritten_messageTouch (fun _ hid => .retried (hid ▸ rfl)) hr')
    | completeEventSub =>
      simp only [operate, execDelivery, completeEventSub] at hr'
      split at hr'
      · split_ifs at hr' <;> exact .inl ⟨r', hr', .keep⟩
      · rw [lookup_erase_eq] at hr'
        split_ifs at hr'
        exact .inl ⟨r', hr', .keep⟩
    | _ => exact .inl ⟨r', hframe.inbox rfl ▸ hr', .keep⟩
  | _ => exact .inl ⟨r', hframe.inbox rfl ▸ hr', .keep⟩

/-- Messages have their own trimmed keys. -/
abbrev MessagesTrimmed (t : Table String EventSubInboxRecord) : Prop :=
  t.Forall fun mid r =>
    r.messageID = mid ∧ trimSpace mid = mid ∧ mid ≠ ""

theorem MessageTouch.messageID_eq
    (h : MessageTouch x op mid r r') : r'.messageID = r.messageID := by
  cases h with
  | failed =>
    unfold failedMessage
    dsimp only
    split_ifs <;> rfl
  | _ => rfl

theorem operate_messagesTrimmed (h : MessagesTrimmed s.eventSubInbox) :
    MessagesTrimmed (operate x op s).2.eventSubInbox := by
  intro mid r' hr'
  rcases operate_messageTouch hr' with ⟨r, hr, htouch⟩ | ⟨-, hblank, id, envelope, now, -, hid, rfl⟩
  · obtain ⟨hname, htrimmed⟩ := h mid r hr
    exact ⟨htouch.messageID_eq.trans hname, htrimmed⟩
  · refine ⟨rfl, ?_, hblank⟩
    rw [← hid, trimSpace_trimSpace]

/-! ## Bounds -/

theorem operate_messages_count_le
    (h : ∀ id envelope now, op ≠ .call (.enqueueEventSub id envelope now)) :
    (operate x op s).2.eventSubInbox.count ≤ s.eventSubInbox.count := by
  refine count_le_of_lookup fun mid r' hr' => ?_
  rcases operate_messageTouch hr' with ⟨r, hr, -⟩ | ⟨-, -, id, envelope, now, hop, -⟩
  · rw [hr]
    exact Option.some_ne_none r
  · exact absurd hop (h id envelope now)

theorem enqueueEventSub_count_le (h : s.eventSubInbox.count ≤ maxEventSubInboxRecords) :
    (enqueueEventSub id envelope now s).2.eventSubInbox.count ≤ maxEventSubInboxRecords := by
  have htrim : (trimDeadEventSubInboxLocked (maxEventSubInboxRecords - 1) s.eventSubInbox).count ≤
      s.eventSubInbox.count := by
    refine count_le_of_lookup fun mid r hr => ?_
    rw [trimKeys_lookup hr]
    exact Option.some_ne_none r
  have hins : ∀ {u : Table String EventSubInboxRecord} (v : EventSubInboxRecord),
      ¬u.count ≥ maxEventSubInboxRecords →
      Table.count (u.insert (trimSpace id) v) ≤ maxEventSubInboxRecords := by
    intro u v hroom
    have hle := count_insert_le u (trimSpace id) v
    omega
  simp only [enqueueEventSub]
  split
  · exact h
  split
  · exact h
  split
  · exact h
  · split_ifs with hfull hstill
    · exact htrim.trans h
    · exact hins _ hstill
    · exact hins _ hfull

theorem oldest_mem (l : List (Row String Time)) (acc : String × Time) :
    (l.foldl (fun (acc : String × Time) e =>
      if acc.1 = "" ∨ e.2 < acc.2 then (e.1, e.2) else acc) acc).1 ∈ acc.1 :: l.map Sigma.fst := by
  induction l generalizing acc with
  | nil => exact mem_cons_self
  | cons e l ih =>
    rw [foldl_cons, map_cons]
    by_cases hnext : acc.1 = "" ∨ e.2 < acc.2
    · rw [if_pos hnext]
      exact mem_cons_of_mem _ (ih (e.1, e.2))
    · rw [if_neg hnext]
      rcases mem_cons.mp (ih acc) with hacc | hlater
      · exact mem_cons.mpr (.inl hacc)
      · exact mem_cons_of_mem _ (mem_cons_of_mem _ hlater)

theorem addSeenEventSubLocked_count_le {seen : Table String Time}
    (h : seen.count ≤ maxSeenEventRecords) :
    (addSeenEventSubLocked mid now seen).count ≤ maxSeenEventRecords := by
  unfold addSeenEventSubLocked
  by_cases hfull : seen.count ≥ maxSeenEventRecords
  · rw [if_pos hfull]
    dsimp only
    -- the first entry replaces the empty key, whatever it is
    obtain ⟨key, hkey, hfound⟩ : ∃ key, (seen.entries.foldl (fun (acc : String × Time) e =>
        if acc.1 = "" ∨ e.2 < acc.2 then (e.1, e.2) else acc) ("", 0)).1 = key ∧
          seen.lookup key ≠ none := by
      refine ⟨_, rfl, mem_keys_iff.mp ?_⟩
      have hentries : seen.entries.length = maxSeenEventRecords := le_antisymm h hfull
      cases hlist : seen.entries with
      | nil =>
        rw [hlist] at hentries
        cases hentries
      | cons e l =>
        have hmem := oldest_mem l (e.1, e.2)
        simp only [AList.keys, List.keys, hlist, foldl_cons, true_or, if_true]
        exact hmem
    rw [hkey]
    have herase := count_erase hfound
    have hle := count_insert_le (seen.erase key) mid now
    omega
  · rw [if_neg hfull]
    have hle := count_insert_le seen mid now
    omega

theorem cleanupSeenLocked_count_le (now : Time) (ttl : Duration) (seen : Table String Time) :
    (cleanupSeenLocked now ttl seen).count ≤ seen.count :=
  count_select_le _ seen

theorem enqueue_seen (now : Time) (row : DeliveryRecord) (s : DeliveryDiskState) :
    (enqueue now row s).2.seen = cleanupSeenLocked now (24 * hour) s.seen := by
  simp only [enqueue]
  split
  · rfl
  · split_ifs <;> rfl

theorem operate_seen_count_le (h : s.seen.count ≤ maxSeenEventRecords) :
    (operate x op s).2.seen.count ≤ maxSeenEventRecords := by
  have hclean : ∀ now ttl, (cleanupSeenLocked now ttl s.seen).count ≤ maxSeenEventRecords :=
    fun now ttl => (cleanupSeenLocked_count_le now ttl s.seen).trans h
  have hframe := operate_framed x op s
  cases op with
  | call c =>
    cases c with
    | enqueue =>
      rw [operate, execDelivery, enqueue_seen]
      exact hclean _ _
    | cleanup => exact hclean _ _
    | enqueueEventSub =>
      simp only [operate, execDelivery, enqueueEventSub]
      split
      · exact h
      split
      · exact hclean _ _
      split
      · exact hclean _ _
      · split_ifs <;> exact hclean _ _
    | completeEventSub =>
      simp only [operate, execDelivery, completeEventSub]
      split
      · split_ifs <;> exact h
      · exact addSeenEventSubLocked_count_le h
    | _ => exact (hframe.seen rfl).symm ▸ h
  | hasSeenEventSub => exact hclean _ _
  | seenEventSub =>
    simp only [operate, seenEventSub]
    split_ifs
    · exact hclean _ _
    · exact addSeenEventSubLocked_count_le (hclean _ _)
  | forgetEventSub =>
    refine le_trans (count_le_of_lookup fun key seenAt hkey => ?_) h
    simp only [operate, forgetEventSub, lookup_erase_eq] at hkey
    split_ifs at hkey
    rw [hkey]
    exact Option.some_ne_none seenAt
  | _ => exact (hframe.seen rfl).symm ▸ h

/-! ## The invariant -/

/-- **The representation invariant** of the memory store. -/
structure DeliveryInvariant (s : DeliveryDiskState) : Prop where
  deliveries : Consistent s.records
  messages : MessagesTrimmed s.eventSubInbox
  deliveries_le : s.records.count ≤ maxDeliveryRecords
  messages_le : s.eventSubInbox.count ≤ maxEventSubInboxRecords
  seen_le : s.seen.count ≤ maxSeenEventRecords

theorem operate_records (h : ∀ c, op ≠ .call c) : (operate x op s).2.records = s.records := by
  have hframe := operate_framed x op s
  cases op with
  | call c => exact absurd rfl (h c)
  | _ => exact hframe.records rfl

theorem DeliveryInvariant.after (h : DeliveryInvariant s) :
    DeliveryInvariant (operate x op s).2 where
  deliveries := by
    by_cases hcall : ∃ c, op = .call c
    · obtain ⟨c, rfl⟩ := hcall
      have hafter : Consistent (Ferventio.execDelivery .mem x c s).2.records :=
        execDelivery_consistent c h.deliveries
      exact hafter
    · rw [operate_records fun c hc => hcall ⟨c, hc⟩]
      exact h.deliveries
  messages := operate_messagesTrimmed h.messages
  deliveries_le := by
    by_cases hcall : ∃ c, op = .call c
    · obtain ⟨c, rfl⟩ := hcall
      exact execDelivery_bounded Env.mem rfl c h.deliveries_le
    · rw [operate_records fun c hc => hcall ⟨c, hc⟩]
      exact h.deliveries_le
  messages_le := by
    by_cases hop : ∃ id envelope now, op = .call (.enqueueEventSub id envelope now)
    · obtain ⟨id, envelope, now, rfl⟩ := hop
      rw [operate, execDelivery]
      exact enqueueEventSub_count_le h.messages_le
    · refine (operate_messages_count_le fun id envelope now heq => ?_).trans h.messages_le
      exact hop ⟨id, envelope, now, heq⟩
  seen_le := operate_seen_count_le h.seen_le

theorem DeliveryInvariant.reordered (h : DeliveryInvariant s) (hsame : SameRows s t) :
    DeliveryInvariant t where
  deliveries :=
    { keyed := fun hr => h.deliveries.keyed ((hsame.records _).trans hr)
      unique := fun h1 h2 => h.deliveries.unique ((hsame.records _).trans h1)
        ((hsame.records _).trans h2) }
  messages := hsame.eventSubInbox.forall h.messages
  deliveries_le := hsame.records.symm.count_le.trans h.deliveries_le
  messages_le := hsame.eventSubInbox.symm.count_le.trans h.messages_le
  seen_le := hsame.seen.symm.count_le.trans h.seen_le

/-- **The delivery store is represented as it should be**, after any operations. -/
theorem delivery_store_invariant (h : StoreReached s) : DeliveryInvariant s := by
  induction h with
  | empty =>
    exact ⟨Consistent.empty, Table.Forall.empty, Nat.zero_le _, Nat.zero_le _, Nat.zero_le _⟩
  | step x op _ ih => exact ih.after
  | reorder _ hsame ih => exact ih.reordered hsame

/-- One delivery and one message. -/
def queuedOnce : DeliveryDiskState :=
  (operate {} (.seenEventSub "raid" 1 hour)
    (operate {} (.call (.enqueueEventSub " live " {} 1))
      (operate {} (.call (.enqueue
        { id := "d", eventID := "e", installationID := "phone", notification := {} })) {}).2).2).2

theorem queuedOnce_invariant :
    queuedOnce.records.count = 1 ∧ queuedOnce.seen.count = 1 ∧
      (queuedOnce.eventSubInbox.lookup "live").isSome ∧ DeliveryInvariant queuedOnce := by
  refine ⟨by decide, by decide, by decide, ?_⟩
  exact delivery_store_invariant (.step _ _ (.step _ _ (.step _ _ .empty)))

end Memory

end Ferventio
