import Ferventio.Delivery.Laws

/-!
# The tables of the delivery store

Every call keeps a queue **`Consistent`**. Only `EnqueueEventSub` adds a message to the inbox, and
none that was processed in the last 24 hours (**`execDelivery_absent`**). Only `SaveChannelState`
changes a channel's state, and it may do so although it answers an error: the PostgreSQL method
always does.
-/

namespace Ferventio

variable {envelope : EventSubEnvelope} {id iid : String} {t : Table String DeliveryRecord}
  {now : Time} {x : Choice} {env : Env} {call : DeliveryCall} {s : DeliveryDiskState}

section Queue

open List

/-! ## Consistency -/

/-- Records have their own keys, and no event is queued twice. -/
structure Consistent (t : Table String DeliveryRecord) : Prop where
  keyed : ∀ {id r}, t.lookup id = some r → r.id = id
  unique : ∀ {id1 id2 r1 r2}, t.lookup id1 = some r1 → t.lookup id2 = some r2 →
    SameDelivery r1 r2 → id1 = id2

theorem Consistent.empty : Consistent ∅ where
  keyed h := by cases h
  unique h := by cases h

theorem execDelivery_consistent (call : DeliveryCall) (h : Consistent s.records) :
    Consistent (execDelivery env x call s).2.records where
  keyed := by
    intro id r hr
    rcases execDelivery_touch hr with ⟨r0, hr0, htouch⟩ | ⟨row, -, hid, rfl, -⟩
    · exact htouch.id_eq.trans (h.keyed hr0)
    · rw [storedRow_id, hid]
  unique := by
    intro id1 id2 r1 r2 h1 h2 hsame
    rcases execDelivery_touch h1 with ⟨r1', h1', htouch1⟩ | ⟨row, -, hid, rfl, huniq⟩
    · rcases execDelivery_touch h2 with ⟨r2', h2', htouch2⟩ | ⟨row, -, hid, rfl, huniq⟩
      · refine h.unique h1' h2' ⟨?_, ?_⟩
        · rw [← htouch1.installationID_eq, ← htouch2.installationID_eq, hsame.1]
        · rw [← htouch1.eventID_eq, ← htouch2.eventID_eq, hsame.2]
      · rw [hid]
        refine huniq id1 r1 h1 ⟨?_, ?_⟩
        · rw [← hsame.1, storedRow_installationID]
        · rw [← hsame.2, storedRow_eventID]
    · rw [hid]
      refine (huniq id2 r2 h2 ⟨?_, ?_⟩).symm
      · rw [hsame.1, storedRow_installationID]
      · rw [hsame.2, storedRow_eventID]

theorem Consistent.pairwise (h : Consistent t) : t.rows.Pairwise fun a b => ¬ SameDelivery a b := by
  have hentries : t.entries.Pairwise fun a b => ¬ SameDelivery a.2 b.2 := by
    refine (nodupKeys_iff_pairwise.mp t.nodupKeys).imp_of_mem ?_
    rintro ⟨id1, r1⟩ ⟨id2, r2⟩ h1 h2 hne hsame
    exact hne (h.unique (Table.mem_entries_iff.mp h1) (Table.mem_entries_iff.mp h2) hsame)
  exact pairwise_map.mpr hentries

/-! ## Batches -/

/-- Records that a flush may fetch. -/
structure Batch (iid : String) (t : Table String DeliveryRecord)
    (records : List DeliveryRecord) : Prop where
  stored : ∀ r ∈ records, ∃ id, t.lookup id = some r
  own : ∀ r ∈ records, r.installationID = iid
  live : ∀ r ∈ records, r.status ≠ .acked ∧ r.status ≠ .dead
  subperm : records.Subperm t.rows

theorem Batch.nil (iid : String) (t : Table String DeliveryRecord) : Batch iid t [] where
  stored _ h := by cases h
  own _ h := by cases h
  live _ h := by cases h
  subperm := nil_subperm

theorem Batch.of_query {p : DeliveryRecord → Bool} (n : Nat)
    (hp : ∀ r, p r → r.installationID = iid ∧ r.status ≠ .acked ∧ r.status ≠ .dead) :
    Batch iid t (((t.rows.filter p).insertionSort deliveryOrder).take n) := by
  have hmem : ∀ r ∈ ((t.rows.filter p).insertionSort deliveryOrder).take n, r ∈ t.rows ∧ p r := by
    intro r hr
    exact mem_filter.mp ((mem_insertionSort _).mp (mem_of_mem_take hr))
  exact
    { stored := fun r hr => Table.mem_rows_iff.mp (hmem r hr).1
      own := fun r hr => (hp r (hmem r hr).2).1
      live := fun r hr => (hp r (hmem r hr).2).2
      subperm := (take_sublist _ _).subperm.trans
        ((perm_insertionSort _ _).subperm.trans filter_sublist.subperm) }

theorem execDelivery_pending (iid : String) (limit : Int) (now : Time) :
    Batch iid s.records (execDelivery env x (.pendingForInstallation iid limit now) s).1 := by
  unfold execDelivery
  cases env.backend with
  | memory =>
    refine Batch.of_query _ fun r hr => ?_
    simp only [Bool.and_eq_true, Bool.not_eq_true', Bool.or_eq_false_iff, bne_eq_false_iff_eq,
      beq_eq_false_iff_ne] at hr
    exact ⟨hr.1.1.1, hr.1.1.2, hr.1.2⟩
  | postgres =>
    simp only [Postgres.execDelivery]
    rcases withFault_fst x (Postgres.failedDelivery (.pendingForInstallation iid limit now)) s
      (Postgres.answerDelivery x (.pendingForInstallation iid limit now) s) with hf | hf
    · rw [hf]
      exact Batch.nil _ _
    · rw [hf]
      refine Batch.of_query _ fun r hr => ?_
      simp only [Bool.and_eq_true, Bool.or_eq_true, beq_iff_eq] at hr
      obtain ⟨⟨⟨hid, hstatus⟩, -⟩, -⟩ := hr
      refine ⟨hid, ?_⟩
      rcases hstatus with hstatus | hstatus <;> rw [hstatus] <;> exact ⟨nofun, nofun⟩

theorem execDelivery_pending_state (iid : String) (limit : Int) (now : Time) :
    (execDelivery env x (.pendingForInstallation iid limit now) s).2 = s := by
  unfold execDelivery
  cases env.backend with
  | memory => rfl
  | postgres =>
    rcases withFault_snd x (Postgres.failedDelivery (.pendingForInstallation iid limit now)) s
      (Postgres.answerDelivery x (.pendingForInstallation iid limit now) s) with hs | hs
    · exact hs
    · exact hs

theorem Batch.distinct {rows : List DeliveryRecord} (h : Batch iid t rows) (ht : Consistent t) :
    rows.Pairwise fun a b => a.eventID ≠ b.eventID := by
  have hpairwise : rows.Pairwise fun a b => ¬ SameDelivery a b := by
    obtain ⟨l, hperm, hsub⟩ := h.subperm
    refine (hperm.pairwise_iff ?_).mp (ht.pairwise.sublist hsub)
    intro a b hne hsame
    exact hne ⟨hsame.1.symm, hsame.2.symm⟩
  refine hpairwise.imp_of_mem fun ha hb hne heq => hne ⟨?_, heq.symm⟩
  rw [h.own _ ha, h.own _ hb]

end Queue

/-! ## The inbox -/

section Inbox

open Strings Table

/-- The message was processed in the last 24 hours. -/
def Remembered (now : Time) (mid : String) (s : DeliveryDiskState) : Prop :=
  ∃ seenAt, s.seen.lookup mid = some seenAt ∧ now - 24 * hour ≤ seenAt

/-- The call enqueues the message only if it is remembered. -/
def Spares (mid : String) (call : DeliveryCall) (s : DeliveryDiskState) : Prop :=
  ∀ id envelope now, call = .enqueueEventSub id envelope now → trimSpace id = mid →
    Remembered now mid s

variable {mid : String}

namespace Memory

theorem trimKeys_absent {α : Type} {limit : Nat} {keys : List String} {t : Table String α}
    (h : t.lookup mid = none) : (trimKeys limit keys t).lookup mid = none := by
  cases htrim : (trimKeys limit keys t).lookup mid with
  | none => rfl
  | some =>
    rw [trimKeys_lookup htrim] at h
    cases h

theorem cleanupLocked_absent (h : s.eventSubInbox.lookup mid = none) :
    (cleanupLocked now s).eventSubInbox.lookup mid = none := by
  have hkept : ((s.eventSubInbox.amend fun _ => expireInbox now).select
      fun _ r => !staleInbox now r).lookup mid = none := by
    rw [lookup_select, lookup_amend, h]
    rfl
  rw [cleanupLocked]
  dsimp only
  split
  · exact trimKeys_absent hkept
  · exact hkept

theorem enqueue_absent {r : DeliveryRecord} (h : s.eventSubInbox.lookup mid = none) :
    (enqueue now r s).2.eventSubInbox.lookup mid = none := by
  have hclean : (cleanupLocked now s).eventSubInbox.lookup mid = none := cleanupLocked_absent h
  rw [enqueue]
  dsimp only
  split
  · exact hclean
  · split
    · exact hclean
    · split_ifs <;> exact hclean

theorem enqueueEventSub_absent (h : s.eventSubInbox.lookup mid = none)
    (hseen : trimSpace id = mid → Remembered now mid s) :
    (enqueueEventSub id envelope now s).2.eventSubInbox.lookup mid = none := by
  rw [enqueueEventSub]
  dsimp only
  split
  · exact h
  split
  · exact h
  rename_i hunseen
  have hother : mid ≠ trimSpace id := by
    intro heq
    obtain ⟨seenAt, hget, hrecent⟩ := hseen heq.symm
    refine hunseen ?_
    have hkept : ¬now - seenAt > 24 * hour := Int.not_lt.mpr (Int.sub_le_of_sub_le hrecent)
    rw [cleanupSeenLocked, lookup_select, ← heq, hget, Option.filter_some, decide_eq_false hkept]
    rfl
  have hins : ∀ {t : Table String EventSubInboxRecord} row, t.lookup mid = none →
      (t.insert (trimSpace id) row).lookup mid = none := by
    intro t row ht
    rw [lookup_insert_eq, if_neg hother, ht]
  split
  · exact h
  · split_ifs
    · exact trimKeys_absent h
    · exact hins _ (trimKeys_absent h)
    · exact hins _ h

theorem execDelivery_absent (hspares : Spares mid call s) (h : s.eventSubInbox.lookup mid = none) :
    (execDelivery x call s).2.eventSubInbox.lookup mid = none := by
  have hframe := execDelivery_framed x call s
  cases call with
  | enqueue => exact enqueue_absent h
  | enqueueEventSub id envelope now =>
    exact enqueueEventSub_absent h (hspares id envelope now rfl)
  | completeEventSub =>
    simp only [execDelivery, completeEventSub]
    split
    · split_ifs <;> exact h
    · rw [lookup_erase_eq, h, ite_self]
  | markEventSubFailed => exact rewriteMessage_absent h
  | retryEventSub => exact rewriteMessage_absent h
  | cleanup => exact cleanupLocked_absent h
  | _ => exact (hframe.inbox rfl).symm ▸ h

end Memory

namespace Postgres

theorem enqueueEventSub_absent (h : s.eventSubInbox.lookup mid = none)
    (hseen : trimSpace id = mid → Remembered now mid s) :
    (enqueueEventSub id envelope now s).2.eventSubInbox.lookup mid = none := by
  rw [enqueueEventSub]
  dsimp only
  split
  · exact h
  split
  · exact h
  rename_i hunseen
  have hother : mid ≠ trimSpace id := by
    intro heq
    obtain ⟨seenAt, hget, hrecent⟩ := hseen heq.symm
    refine hunseen ?_
    have hkept : ¬seenAt < now - 24 * hour := Int.not_lt.mpr hrecent
    rw [lookup_select, ← heq, hget, Option.filter_some, decide_eq_false hkept]
    rfl
  split
  · exact h
  · rw [lookup_insert_eq, if_neg hother]
    exact h

theorem answerDelivery_absent (hspares : Spares mid call s)
    (h : s.eventSubInbox.lookup mid = none) :
    (answerDelivery x call s).2.eventSubInbox.lookup mid = none := by
  have hframe := answerDelivery_framed x call s
  cases call with
  | enqueue r =>
    rw [answerDelivery, (enqueue_inbox x.now r s).1]
    exact h
  | enqueueEventSub id envelope now =>
    exact enqueueEventSub_absent h (hspares id envelope now rfl)
  | completeEventSub =>
    simp only [answerDelivery, completeEventSub]
    split
    · exact h
    · rw [lookup_erase_eq, h, ite_self]
  | markEventSubFailed => exact rewriteMessage_absent h
  | retryEventSub => exact rewriteMessage_absent h
  | cleanup =>
    simp only [answerDelivery, cleanup]
    rw [lookup_select, lookup_amend, h]
    rfl
  | _ => exact (hframe.inbox rfl).symm ▸ h

end Postgres

/-- **A message stays out of the inbox** unless it is enqueued after the store has forgotten it. -/
theorem execDelivery_absent (hspares : Spares mid call s) (h : s.eventSubInbox.lookup mid = none) :
    (execDelivery env x call s).2.eventSubInbox.lookup mid = none := by
  rcases execDelivery_snd env x call s with hs | hs | hs
  · rw [hs]
    exact h
  · rw [hs]
    exact Memory.execDelivery_absent hspares h
  · rw [hs]
    exact Postgres.answerDelivery_absent hspares h

theorem completeEventSub_absent {completedAt : Time}
    (h : (execDelivery env x (.completeEventSub mid completedAt) s).1 = .ok ()) :
    (execDelivery env x (.completeEventSub mid completedAt) s).2.eventSubInbox.lookup
      mid = none := by
  rw [execDelivery] at h ⊢
  split at h
  · simp only [Memory.execDelivery, Memory.completeEventSub] at h ⊢
    split at h
    · rename_i hnone
      split_ifs at h ⊢
      exact hnone
    · rw [lookup_erase_eq, if_pos rfl]
  · rw [Postgres.execDelivery] at h ⊢
    rcases withFault_fst x (Postgres.failedDelivery (.completeEventSub mid completedAt)) s
      (Postgres.answerDelivery x (.completeEventSub mid completedAt) s) with hfail | hdone
    · rw [hfail] at h
      cases h
    · rw [hdone] at h ⊢
      simp only [Postgres.answerDelivery, Postgres.completeEventSub] at h ⊢
      split at h
      · cases h
      · rename_i hfound
        rw [if_neg hfound, lookup_erase_eq, if_pos rfl]

end Inbox

/-! ## The states of the channels -/

/-- Nothing changed. -/
def ChannelChanges.unchanged (changes : ChannelChanges) : Bool :=
  !changes.initialized && !changes.titleChanged && !changes.gameChanged

/-- The stored state of the channel. -/
def StoredState (channelID title categoryName : String) (s : DeliveryDiskState) : Prop :=
  ∃ state, s.channelStates.lookup channelID = some state ∧ state.title = title ∧
    state.categoryName = categoryName

variable {s' : DeliveryDiskState}

/-- Only a save writes a channel's state. -/
def ChannelStatesAfter (call : DeliveryCall) (s s' : DeliveryDiskState) : Prop :=
  s'.channelStates = s.channelStates ∨
    ∃ channelID title categoryName now,
      call = .saveChannelState channelID title categoryName now ∧
        s'.channelStates = s.channelStates.insert channelID ⟨title, categoryName, now⟩

/-! ## Either store -/

section Either

variable {cid title categoryName : String}

/-- **Only a save** changes the state of a channel, and only of the channel that it names. -/
theorem execDelivery_channelStates (env : Env) (x : Choice) (call : DeliveryCall)
    (s : DeliveryDiskState) : ChannelStatesAfter call s (execDelivery env x call s).2 := by
  by_cases hwrites : call.writes.contains .channelStates = false
  · rcases execDelivery_snd env x call s with hs | hs | hs
    · exact .inl (by rw [hs])
    · exact .inl (by rw [hs, (Memory.execDelivery_framed x call s).channelStates hwrites])
    · exact .inl (by rw [hs, (Postgres.answerDelivery_framed x call s).channelStates hwrites])
  · obtain ⟨cid, title, categoryName, now, rfl⟩ : ∃ cid title categoryName now,
        call = .saveChannelState cid title categoryName now := by
      cases call with
      | saveChannelState => exact ⟨_, _, _, _, rfl⟩
      | _ => exact absurd rfl hwrites
    rcases execDelivery_snd env x (.saveChannelState cid title categoryName now) s with
      hs | hs | hs
    · exact .inl (by rw [hs])
    all_goals
      rw [hs]
      simp only [Memory.execDelivery, Memory.saveChannelState, Postgres.answerDelivery,
        Postgres.saveChannelState]
      split_ifs
      · exact .inl rfl
      · exact .inr ⟨cid, title, categoryName, now, rfl, rfl⟩

theorem channelStateChanges_unchanged {changes : ChannelChanges}
    (h : (execDelivery env x (.channelStateChanges cid title categoryName) s).1 = .ok changes)
    (hunchanged : changes.unchanged) : StoredState cid title categoryName s := by
  have hcmp : ∀ {ans : Result ChannelChanges}, ans = .ok changes →
      ans = .ok (comparedState cid title categoryName s) →
      StoredState cid title categoryName s := by
    intro ans hok hans
    rw [hok, comparedState] at hans
    cases hprevious : s.channelStates.lookup cid with
    | none =>
      rw [hprevious] at hans
      cases hans
      cases hunchanged
    | some previous =>
      rw [hprevious] at hans
      cases hans
      simp only [ChannelChanges.unchanged, Bool.not_false, Bool.true_and, Bool.and_eq_true,
        Bool.not_eq_true', bne_eq_false_iff_eq] at hunchanged
      exact ⟨previous, hprevious, hunchanged.1, hunchanged.2⟩
  unfold execDelivery at h
  split at h
  · simp only [Memory.execDelivery, Memory.channelStateChanges] at h
    split_ifs at h
    exact hcmp h rfl
  · unfold Postgres.execDelivery at h
    rcases withFault_fst x (Postgres.failedDelivery (.channelStateChanges cid title
      categoryName)) s (Postgres.answerDelivery x _ s) with hfail | hanswered
    · rw [hfail] at h
      cases h
    · rw [hanswered] at h
      simp only [Postgres.answerDelivery, Postgres.channelStateChanges] at h
      split_ifs at h
      exact hcmp h rfl

theorem saveChannelState_saved
    (h : (execDelivery env x (.saveChannelState cid title categoryName now) s).1 = .ok ()) :
    StoredState cid title categoryName
      (execDelivery env x (.saveChannelState cid title categoryName now) s).2 := by
  unfold execDelivery at h ⊢
  split at h
  · simp only [Memory.execDelivery, Memory.saveChannelState] at h ⊢
    split_ifs at h ⊢
    refine ⟨⟨title, categoryName, now⟩, ?_, rfl, rfl⟩
    rw [Table.lookup_insert_eq, if_pos rfl]
  · exfalso
    unfold Postgres.execDelivery at h
    rcases withFault_fst x (Postgres.failedDelivery (.saveChannelState cid title categoryName
      now)) s (Postgres.answerDelivery x _ s) with hfail | hanswered
    · rw [hfail] at h
      cases h
    · -- the nil error of the statement is wrapped, so that this method never answers nil
      rw [hanswered] at h
      simp only [Postgres.answerDelivery, Postgres.saveChannelState] at h
      split_ifs at h

theorem StoredState.kept (h : StoredState cid title categoryName s)
    (hafter : ChannelStatesAfter call s s')
    (hsave : ∀ title' categoryName' now,
      call = .saveChannelState cid title' categoryName' now →
        title' = title ∧ categoryName' = categoryName) :
    StoredState cid title categoryName s' := by
  rcases hafter with hsame | ⟨cid', title', categoryName', now, hcall, hsaved⟩
  · rw [StoredState, hsame]
    exact h
  · rw [StoredState, hsaved]
    by_cases hcid : cid = cid'
    · subst hcid
      obtain ⟨rfl, rfl⟩ := hsave title' categoryName' now hcall
      exact ⟨⟨title', categoryName', now⟩, by rw [Table.lookup_insert_eq, if_pos rfl], rfl, rfl⟩
    · rw [Table.lookup_insert_eq, if_neg hcid]
      exact h

end Either

end Ferventio
