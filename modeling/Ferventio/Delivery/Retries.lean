import Ferventio.Delivery.Representation

/-!
# Retries

A failed attempt is made again after a delay that doubles, until the eighth one; the inbox and the
queue of notifications follow the same discipline. Eight operations move a record's status, its
counter and its two deadlines, and a failure may be reported late, after a cleanup or after an
administrator has reset the record.

* **`retry_discipline`**: the counters, the delays, and what is handed out.
-/

namespace Ferventio

open Strings List

variable {r' : EventSubInboxRecord} {limit : Int}

/-- A record is enqueued with no attempts. -/
def DeliveryOperation.EnqueuesFresh : DeliveryOperation → Prop
  | .call (.enqueue r) => r.attemptCount = 0
  | _ => True

namespace Memory

variable {s t : DeliveryDiskState} {x : Choice} {op : DeliveryOperation} {now : Time}
  {id mid : String} {failures : String → Nat}

/-- The message is in the inbox and not dead. -/
def awaits (messageID : String) (s : DeliveryDiskState) : Bool :=
  (s.eventSubInbox.lookup messageID).any fun r => r.status != .dead

/-- The failures of each message since it was enqueued or reset. -/
def failuresAfter (x : Choice) (op : DeliveryOperation) (s : DeliveryDiskState)
    (failures : String → Nat) (messageID : String) : Nat :=
  match op with
  | .call (.markEventSubFailed id _ _) =>
    if id = messageID ∧ awaits messageID s then failures messageID + 1 else failures messageID
  | .call (.retryEventSub id _) => if id = messageID then 0 else failures messageID
  | .call (.enqueueEventSub _ _ _) =>
    if s.eventSubInbox.lookup messageID = none ∧
        (operate x op s).2.eventSubInbox.lookup messageID ≠ none then 0
    else failures messageID
  | _ => failures messageID

/-- Runs with the failures of the messages and the last time; `allowed` restricts the operations. -/
inductive RetryRun (allowed : DeliveryOperation → Prop) :
    DeliveryDiskState → (String → Nat) → Time → Prop
  | empty {now : Time} : RetryRun allowed {} (fun _ => 0) now
  | step {s : DeliveryDiskState} {failures : String → Nat} {now : Time} (x : Choice)
      (op : DeliveryOperation) (h : RetryRun allowed s failures now) (hallowed : allowed op)
      (htime : now ≤ op.time x) :
      RetryRun allowed (operate x op s).2 (failuresAfter x op s failures) (op.time x)
  | reorder {s t : DeliveryDiskState} {failures : String → Nat} {now : Time}
      (h : RetryRun allowed s failures now) (hsame : SameRows s t) : RetryRun allowed t failures now

/-! ## Delays -/

theorem retryDelay_of_le {k : Nat} (h1 : 1 ≤ k) (h7 : k ≤ 7) :
    retryDelay k = 2 ^ (k - 1) * second := by
  have hatt : ¬k < 1 := by omega
  have hexponent : min (k - 1) 6 = k - 1 := by omega
  unfold retryDelay
  simp only [if_neg hatt, hexponent]

variable {failure : GoError} {failedAt : Time} {r : EventSubInboxRecord}

theorem failedRecord_pending {r : DeliveryRecord}
    (h : (failedRecord failure failedAt r).status = .pending) :
    1 ≤ (failedRecord failure failedAt r).attemptCount ∧
      (failedRecord failure failedAt r).attemptCount ≤ 7 ∧
      (failedRecord failure failedAt r).availableAt =
        failedAt + 2 ^ ((failedRecord failure failedAt r).attemptCount - 1) * second := by
  unfold failedRecord at h ⊢
  dsimp only at h ⊢
  split_ifs at h ⊢ with hdead
  have hcount : r.attemptCount + 1 ≤ 7 := by omega
  refine ⟨by simp, hcount, ?_⟩
  rw [retryDelay_of_le (by omega) hcount]

theorem failedMessage_pending (h : (failedMessage failure failedAt r).status = .pending) :
    1 ≤ (failedMessage failure failedAt r).attemptCount ∧
      (failedMessage failure failedAt r).attemptCount ≤ 7 ∧
      (failedMessage failure failedAt r).availableAt =
        failedAt + 2 ^ ((failedMessage failure failedAt r).attemptCount - 1) * second := by
  unfold failedMessage at h ⊢
  dsimp only at h ⊢
  split_ifs at h ⊢ with hdead
  have hcount : r.attemptCount + 1 ≤ 7 := by omega
  refine ⟨by simp, hcount, ?_⟩
  rw [retryDelay_of_le (by omega) hcount]

theorem failedMessage_attemptCount (failure : GoError) (failedAt : Time) (r : EventSubInboxRecord) :
    (failedMessage failure failedAt r).attemptCount = r.attemptCount + 1 := by
  unfold failedMessage
  dsimp only
  split_ifs <;> rfl

theorem markFailed_lookup {r' : DeliveryRecord}
    (h : (markFailed id failure failedAt s).2.records.lookup id = some r') :
    ∃ r, s.records.lookup id = some r ∧ r' = failedRecord failure failedAt r := by
  unfold markFailed rewriteRecord at h
  cases hr : s.records.lookup id with
  | none =>
    simp only [hr] at h
    cases h
  | some r =>
    simp only [hr, AList.lookup_insert] at h
    exact ⟨r, rfl, (Option.some.inj h).symm⟩

theorem markEventSubFailed_lookup
    (h : (markEventSubFailed mid failure failedAt s).2.eventSubInbox.lookup mid = some r') :
    ∃ r, s.eventSubInbox.lookup mid = some r ∧ r' = failedMessage failure failedAt r := by
  unfold markEventSubFailed rewriteMessage at h
  cases hr : s.eventSubInbox.lookup mid with
  | none =>
    simp only [hr] at h
    cases h
  | some r =>
    simp only [hr, AList.lookup_insert] at h
    exact ⟨r, rfl, (Option.some.inj h).symm⟩

/-! ## The invariant -/

/-- Counters, failures and dead messages agree. -/
structure RetryCounted (s : DeliveryDiskState) (failures : String → Nat) (now : Time) : Prop where
  messages : s.eventSubInbox.Forall fun mid r =>
    failures mid ≤ r.attemptCount ∧ (r.status = .pending → r.attemptCount ≤ 7)
  failures : ∀ mid, failures mid ≤ 8
  dead : s.eventSubInbox.Forall fun _ r =>
    r.status = .dead → 8 ≤ r.attemptCount ∨ r.expiresAt ≤ now

theorem operate_pending_deliveries (hfresh : op.EnqueuesFresh)
    (h : s.records.Forall fun _ r => r.status = .pending → r.attemptCount ≤ 7) :
    (operate x op s).2.records.Forall fun _ r => r.status = .pending → r.attemptCount ≤ 7 := by
  intro id r' hr' hpend
  by_cases hcall : ∃ c, op = .call c
  · obtain ⟨c, rfl⟩ := hcall
    rcases execDelivery_touch hr' with ⟨r, hr, htouch⟩ | ⟨row, rfl, -, rfl, -⟩
    · cases htouch with
      | keep => exact h id _ hr hpend
      | failed =>
        obtain ⟨r0, -, hfail⟩ := markFailed_lookup hr'
        rw [hfail] at hpend ⊢
        exact (failedRecord_pending hpend).2.1
      | _ => cases hpend
    · have hzero : row.attemptCount = 0 := hfresh
      exact hzero.le.trans (Nat.zero_le 7)
  · rw [operate_records fun c hc => hcall ⟨c, hc⟩] at hr'
    exact h id r' hr' hpend

theorem failuresAfter_failed (hr : s.eventSubInbox.lookup mid = some r) :
    failuresAfter x (.call (.markEventSubFailed mid failure failedAt)) s failures mid =
      if r.status = .dead then failures mid else failures mid + 1 := by
  simp only [failuresAfter, awaits, hr, Option.any_some, true_and, bne_iff_ne, ne_eq]
  by_cases hdead : r.status = .dead
  · simp [hdead]
  · simp [hdead]

theorem failuresAfter_le
    (h : ∀ failure failedAt, op ≠ .call (.markEventSubFailed mid failure failedAt)) :
    failuresAfter x op s failures mid ≤ failures mid := by
  unfold failuresAfter
  split
  · rename_i id failure failedAt
    have hid : ¬(id = mid ∧ awaits mid s) := by
      rintro ⟨rfl, -⟩
      exact h failure failedAt rfl
    rw [if_neg hid]
  · split_ifs <;> omega
  · split_ifs <;> omega
  · exact le_rfl

theorem failuresAfter_enqueued (h : Enqueued s op mid r')
    (hr' : (operate x op s).2.eventSubInbox.lookup mid = some r') :
    failuresAfter x op s failures mid = 0 := by
  obtain ⟨hnone, -, id, envelope, now, rfl, -, -⟩ := h
  have hfound : (operate x (.call (.enqueueEventSub id envelope now)) s).2.eventSubInbox.lookup
      mid ≠ none := by
    rw [hr']
    exact Option.some_ne_none r'
  simp only [failuresAfter]
  rw [if_pos ⟨hnone, hfound⟩]

theorem status_eq_pending (h : r.status ≠ .dead) : r.status = .pending := by
  cases hstatus : r.status with
  | pending => rfl
  | dead => exact absurd hstatus h

namespace RetryCounted

variable (h : RetryCounted s failures now)
include h

theorem messages_after :
    (operate x op s).2.eventSubInbox.Forall fun mid r =>
      failuresAfter x op s failures mid ≤ r.attemptCount ∧
        (r.status = .pending → r.attemptCount ≤ 7) := by
  intro mid r' hr'
  by_cases hfail : ∃ failure failedAt, op = .call (.markEventSubFailed mid failure failedAt)
  · obtain ⟨failure, failedAt, rfl⟩ := hfail
    obtain ⟨r, hr, rfl⟩ := markEventSubFailed_lookup hr'
    have hcount := (h.messages mid r hr).1
    refine ⟨?_, fun hpend => (failedMessage_pending hpend).2.1⟩
    rw [failuresAfter_failed hr, failedMessage_attemptCount]
    split_ifs <;> omega
  · have hle : failuresAfter x op s failures mid ≤ failures mid :=
      failuresAfter_le fun failure failedAt hop => hfail ⟨failure, failedAt, hop⟩
    rcases operate_messageTouch hr' with ⟨r, hr, htouch⟩ | hnew
    · obtain ⟨hcount, hpend⟩ := h.messages mid r hr
      cases htouch with
      | keep => exact ⟨hle.trans hcount, hpend⟩
      | expire => exact ⟨hle.trans hcount, fun hstatus => by cases hstatus⟩
      | failed hop => exact absurd ⟨_, _, hop⟩ hfail
      | retried hop =>
        subst hop
        simp [failuresAfter, retriedMessage]
    · rw [failuresAfter_enqueued hnew hr']
      obtain ⟨-, -, id, envelope, now, -, -, rfl⟩ := hnew
      exact ⟨Nat.zero_le _, fun _ => Nat.zero_le 7⟩

theorem failures_after (mid : String) : failuresAfter x op s failures mid ≤ 8 := by
  have hle := h.failures mid
  by_cases hfail : ∃ failure failedAt, op = .call (.markEventSubFailed mid failure failedAt)
  · obtain ⟨failure, failedAt, rfl⟩ := hfail
    cases hr : s.eventSubInbox.lookup mid with
    | none => simpa [failuresAfter, awaits, hr] using hle
    | some r =>
      obtain ⟨hcount, hpend⟩ := h.messages mid r hr
      rw [failuresAfter_failed hr]
      split_ifs with hdead
      · exact hle
      · have hseven := hpend (status_eq_pending hdead)
        omega
  · refine (failuresAfter_le fun failure failedAt hop => ?_).trans hle
    exact hfail ⟨failure, failedAt, hop⟩

theorem dead_kept {r : EventSubInboxRecord} (hr : s.eventSubInbox.lookup mid = some r)
    (hdead : r.status = .dead) (htime : now ≤ op.time x)
    (hreset : ∀ now, op ≠ .call (.retryEventSub mid now))
    (hr' : (operate x op s).2.eventSubInbox.lookup mid = some r') : r'.status = .dead := by
  rcases operate_messageTouch hr' with ⟨r0, hr0, htouch⟩ | ⟨hnone, -⟩
  · rw [hr] at hr0
    cases hr0
    cases htouch with
    | keep => exact hdead
    | expire => rfl
    | @failed failure failedAt hop =>
      subst hop
      have hgaveUp : r.attemptCount + 1 ≥ 8 ∨ r.expiresAt ≤ failedAt := by
        rcases h.dead mid r hr hdead with hcount | hexp
        · exact .inl (by omega)
        · exact .inr (hexp.trans htime)
      unfold failedMessage
      dsimp only
      rw [if_pos hgaveUp]
    | retried hop => exact absurd hop (hreset _)
  · rw [hr] at hnone
    cases hnone

theorem dead_after (htime : now ≤ op.time x) :
    (operate x op s).2.eventSubInbox.Forall fun _ r =>
      r.status = .dead → 8 ≤ r.attemptCount ∨ r.expiresAt ≤ op.time x := by
  intro mid r' hr' hdead
  rcases operate_messageTouch hr' with ⟨r, hr, htouch⟩ | ⟨-, -, id, envelope, now, -, -, rfl⟩
  · cases htouch with
    | keep => exact (h.dead mid _ hr hdead).imp id fun hexp => hexp.trans htime
    | expire hexp => exact .inr hexp
    | failed hop =>
      subst hop
      unfold failedMessage at hdead ⊢
      dsimp only [DeliveryOperation.time] at hdead ⊢
      split_ifs at hdead ⊢ with hgaveUp
      exact hgaveUp
    | retried => cases hdead
  · cases hdead

theorem after (htime : now ≤ op.time x) :
    RetryCounted (operate x op s).2 (failuresAfter x op s failures) (op.time x) where
  messages := h.messages_after
  failures := h.failures_after
  dead := h.dead_after htime

theorem reordered (hsame : SameRows s t) : RetryCounted t failures now where
  messages := hsame.eventSubInbox.forall h.messages
  failures := h.failures
  dead := hsame.eventSubInbox.forall h.dead

end RetryCounted

theorem RetryRun.counted {allowed : DeliveryOperation → Prop}
    (h : RetryRun allowed s failures now) :
    RetryCounted s failures now := by
  induction h with
  | empty => exact ⟨Table.Forall.empty, fun _ => Nat.zero_le 8, Table.Forall.empty⟩
  | step x op _ _ htime ih => exact ih.after htime
  | reorder _ hsame ih => exact ih.reordered hsame

theorem RetryRun.pending_deliveries (h : RetryRun DeliveryOperation.EnqueuesFresh s failures now) :
    s.records.Forall fun _ r => r.status = .pending → r.attemptCount ≤ 7 := by
  induction h with
  | empty => exact Table.Forall.empty
  | step x op _ hfresh _ ih => exact operate_pending_deliveries hfresh ih
  | reorder _ hsame ih => exact hsame.records.forall ih

/-! ## The discipline -/

theorem mem_pendingForInstallation {iid : String} {r : DeliveryRecord}
    (h : r ∈ pendingForInstallation iid limit now s) :
    r.availableAt ≤ now ∧ now < r.expiresAt ∧ r.status ≠ .dead := by
  have hfilter := (mem_insertionSort _).mp (mem_of_mem_take h)
  have htest := (mem_filter.mp hfilter).2
  simp only [Bool.and_eq_true, Bool.not_eq_true', Bool.or_eq_false_iff, bne_eq_false_iff_eq,
    beq_eq_false_iff_ne, decide_eq_false_iff_not, not_lt, not_le] at htest
  exact ⟨htest.2.1, htest.2.2, htest.1.2⟩

theorem mem_pendingEventSub (h : r ∈ pendingEventSub limit now s) :
    r.availableAt ≤ now ∧ now < r.expiresAt ∧ r.status ≠ .dead := by
  have hfilter := (mem_insertionSort _).mp (mem_of_mem_take h)
  have htest := (mem_filter.mp hfilter).2
  simp only [Bool.not_eq_true', Bool.or_eq_false_iff, bne_eq_false_iff_eq, decide_eq_false_iff_not,
    not_lt, not_le] at htest
  refine ⟨htest.1.2, htest.2, ?_⟩
  rw [htest.1.1]
  nofun

/-- **The retry discipline** of a state. -/
structure RetryDiscipline (s : DeliveryDiskState) (failures : String → Nat) : Prop where
  delivery_attempts : ∀ id r, s.records.lookup id = some r → r.status = .pending →
    r.attemptCount ≤ 7
  message_attempts : ∀ mid r, s.eventSubInbox.lookup mid = some r →
    r.status = .pending → r.attemptCount ≤ 7
  delivery_delay : ∀ id failure t r, (markFailed id failure t s).2.records.lookup id = some r →
    r.status = .pending →
    1 ≤ r.attemptCount ∧ r.attemptCount ≤ 7 ∧ r.availableAt = t + 2 ^ (r.attemptCount - 1) * second
  message_delay : ∀ mid failure t r,
    (markEventSubFailed mid failure t s).2.eventSubInbox.lookup mid = some r →
    r.status = .pending →
    1 ≤ r.attemptCount ∧ r.attemptCount ≤ 7 ∧ r.availableAt = t + 2 ^ (r.attemptCount - 1) * second
  pending_deliveries : ∀ iid limit now,
    ∀ r ∈ pendingForInstallation iid limit now s,
      r.availableAt ≤ now ∧ now < r.expiresAt ∧ r.status ≠ .dead
  pending_messages : ∀ limit now, ∀ r ∈ pendingEventSub limit now s,
    r.availableAt ≤ now ∧ now < r.expiresAt ∧ r.status ≠ .dead
  failures_le : ∀ mid, failures mid ≤ 8

/-- **Every run keeps to the retry discipline.** -/
theorem retry_discipline (h : RetryRun DeliveryOperation.EnqueuesFresh s failures now) :
    RetryDiscipline s failures where
  delivery_attempts := h.pending_deliveries
  message_attempts mid r hr := (h.counted.messages mid r hr).2
  delivery_delay id failure t r hr hpend := by
    obtain ⟨r0, -, rfl⟩ := markFailed_lookup hr
    exact failedRecord_pending hpend
  message_delay mid failure t r hr hpend := by
    obtain ⟨r0, -, rfl⟩ := markEventSubFailed_lookup hr
    exact failedMessage_pending hpend
  pending_deliveries _ _ _ _ hr := mem_pendingForInstallation hr
  pending_messages _ _ _ hr := mem_pendingEventSub hr
  failures_le := h.counted.failures

/-- **A dead message is final.** No late failure revives it; only a reset does. -/
theorem dead_message_final (h : RetryRun (fun _ => True) s failures now)
    (hr : s.eventSubInbox.lookup mid = some r) (hdead : r.status = .dead)
    (htime : now ≤ op.time x) (hreset : ∀ now, op ≠ .call (.retryEventSub mid now))
    (hr' : (operate x op s).2.eventSubInbox.lookup mid = some r') : r'.status = .dead :=
  h.counted.dead_kept hr hdead htime hreset hr'

/-- The first attempt fails after the message has expired, and then another does. -/
theorem late_failure_stays_dead :
    ∃ r, (operate {} (.call (.markEventSubFailed "live" (.plain "timeout") (1001 * hour)))
      (operate {} (.call (.markEventSubFailed "live" (.plain "timeout") (1000 * hour)))
        (operate {} (.call (.enqueueEventSub "live" {} 1)) {}).2).2).2.eventSubInbox.lookup "live" =
        some r ∧ r.status = .dead := by
  have hstart : RetryRun (fun _ => True) {} (fun _ => 0) 0 := .empty
  have henq := hstart.step {} (.call (.enqueueEventSub "live" {} 1)) trivial (by decide)
  have hfail := henq.step {}
    (.call (.markEventSubFailed "live" (.plain "timeout") (1000 * hour))) trivial (by decide)
  exact ⟨_, rfl, @dead_message_final _ _ {}
    (.call (.markEventSubFailed "live" (.plain "timeout") (1001 * hour))) _ "live" _ _ hfail
    rfl rfl (by decide) (fun _ => by simp) rfl⟩

/-- A message after one failed attempt. -/
def failedOnce : DeliveryDiskState :=
  (operate {} (.call (.markEventSubFailed "live" (.plain "timeout") 5))
    (operate {} (.call (.enqueueEventSub "live" {} 1)) {}).2).2

theorem failedOnce_disciplined :
    ∃ failures, failures "live" = 1 ∧ (failedOnce.eventSubInbox.lookup "live").isSome ∧
      RetryDiscipline failedOnce failures := by
  have hstart : RetryRun DeliveryOperation.EnqueuesFresh {} (fun _ => 0) 0 := .empty
  have henq := hstart.step {} (.call (.enqueueEventSub "live" {} 1)) trivial (by decide)
  have hfail := henq.step {} (.call (.markEventSubFailed "live" (.plain "timeout") 5))
    trivial (by decide)
  exact ⟨_, by decide, by decide, retry_discipline hfail⟩

end Memory

end Ferventio
