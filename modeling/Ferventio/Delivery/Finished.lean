import Ferventio.Delivery.Laws
import Ferventio.Server.World
import Mathlib.Tactic.Linarith

/-!
# How long finished deliveries are kept

A cleanup deletes the deliveries that were acknowledged more than seven days ago, and the dead ones
that were created more than seven days ago. Each further acknowledgement overwrites the time of the
last, so a client that reconnects keeps its records (**`reconnects_keep_delivery`**).

* **`finished_deliveries_deleted`**: what a cleanup leaves when none does.
-/

namespace Ferventio

open Postgres

/-! ## Runs -/

/-- The time of an acknowledgement. -/
def ackTime : DeliveryCall → Option Time
  | .ack _ _ ackedAt => some ackedAt
  | .ackThrough _ _ ackedAt => some ackedAt
  | _ => none

/-- The call added the record. -/
def adds (id : String) : (call : DeliveryCall) → call.Ans → Bool
  | .enqueue record, .ok (_, true) => record.id == id
  | _, _ => false

/-- When each record was acknowledged first, after a call. -/
def firstAckedAfter (env : Env) (x : Choice) (call : DeliveryCall) (s : DeliveryDiskState)
    (firstAcked : String → Option Time) (id : String) : Option Time :=
  let answer := execDelivery env x call s
  match s.records.lookup id, answer.2.records.lookup id with
  | some record, some record' =>
    if adds id call answer.1 then none
    else
      (firstAcked id).or <|
        (ackTime call).filter fun ackedAt => record' = acknowledge ackedAt record
  | _, _ => none

/-- The call acknowledges the record. -/
inductive Acknowledges (s : DeliveryDiskState) : DeliveryCall → DeliveryRecord → Prop
  | ack {record : DeliveryRecord} {ackedAt : Time} :
      Acknowledges s (.ack record.installationID record.eventID ackedAt) record
  | ackThrough {record target : DeliveryRecord} {ackedAt : Time} (htarget : target ∈ s.records.rows)
      (hinst : target.installationID = record.installationID)
      (hle : record.createdAt ≤ target.createdAt) :
      Acknowledges s (.ackThrough record.installationID target.eventID ackedAt) record

/-- A record is enqueued after its creation, and expires within a day. -/
def Dated (x : Choice) : DeliveryCall → Prop
  | .enqueue record =>
    (deliveryDefaults x.now record).createdAt ≤ x.now ∧
      (deliveryDefaults x.now record).expiresAt ≤
        (deliveryDefaults x.now record).createdAt + 24 * hour
  | _ => True

/-- No record is acknowledged at a later time than the first. -/
def KeepsFirst (s : DeliveryDiskState) (firstAcked : String → Option Time) (call : DeliveryCall) :
    Prop :=
  ∀ id record first ackedAt, s.records.lookup id = some record → firstAcked id = some first →
    Acknowledges s call record → ackTime call = some ackedAt → ackedAt = first

/-- Runs with the time of the last call; `allowed` restricts the calls. -/
inductive DeliveryRun (env : Env)
    (allowed : DeliveryDiskState → (String → Option Time) → DeliveryCall → Prop) :
    DeliveryDiskState → (String → Option Time) → Time → Prop
  | empty {now : Time} (h : 0 < now) : DeliveryRun env allowed {} (fun _ => none) now
  | call {s : DeliveryDiskState} {firstAcked : String → Option Time} {now : Time}
      (h : DeliveryRun env allowed s firstAcked now) (x : Choice) (call : DeliveryCall)
      (hfault : x.fault = none) (htime : now ≤ (DeliveryOperation.call call).time x)
      (hdated : Dated x call) (hallowed : allowed s firstAcked call) :
      DeliveryRun env allowed (execDelivery env x call s).2
        (firstAckedAfter env x call s firstAcked) ((DeliveryOperation.call call).time x)

/-! ## What an enqueue adds -/

section Added

variable {s : DeliveryDiskState} {now : Time} {record r' : DeliveryRecord} {id : String}

theorem Memory.enqueue_lookup_old (h : ∀ row, (Memory.enqueue now record s).1 ≠ .ok (row, true))
    (hr : (Memory.enqueue now record s).2.records.lookup id = some r') :
    ∃ r, s.records.lookup id = some r ∧ r' = expireDelivery now r := by
  simp only [Memory.enqueue] at h hr
  split at hr
  · exact Memory.cleanupLocked_lookup hr
  · rename_i hfind
    rw [hfind] at h
    split_ifs at hr h
    · exact Memory.cleanupLocked_lookup hr
    · exact Memory.cleanupLocked_lookup (Memory.trimKeys_lookup hr)
    · exact absurd rfl (h _)
    · exact absurd rfl (h _)

theorem Postgres.enqueue_lookup_old (h : ∀ row, (enqueue now record s).1 ≠ .ok (row, true))
    (hr : (enqueue now record s).2.records.lookup id = some r') :
    ∃ r, s.records.lookup id = some r ∧ (r' = r ∨ r' = expireDelivery now r) := by
  simp only [enqueue] at h hr
  split at hr
  · exact ⟨r', hr, .inl rfl⟩
  rename_i hnamed
  rw [if_neg hnamed] at h
  split at hr
  · exact ⟨r', hr, .inl rfl⟩
  rename_i hroom
  rw [if_neg hroom] at h
  split at hr
  · obtain ⟨r, hget, hexp⟩ := cleanupDeliveriesTx_lookup hr
    exact ⟨r, hget, .inr hexp⟩
  rename_i hfind
  rw [hfind] at h
  split at hr
  · exact ⟨r', hr, .inl rfl⟩
  rename_i hfresh
  simp only [if_neg hfresh] at h
  exact absurd rfl (h _)

end Added

section Step

variable {env : Env} {x : Choice} {s : DeliveryDiskState} {call : DeliveryCall} {id : String}
  {r r' : DeliveryRecord}

variable (env s call) in
theorem execDelivery_answers (hfault : x.fault = none) :
    execDelivery env x call s = Memory.execDelivery x call s ∨
      execDelivery env x call s = answerDelivery x call s := by
  unfold execDelivery
  cases env.backend with
  | memory => exact .inl rfl
  | postgres =>
    refine .inr ?_
    simp only [Postgres.execDelivery, withFault, hfault]

theorem touched_of_not_adds (hfault : x.fault = none)
    (hr : (execDelivery env x call s).2.records.lookup id = some r')
    (hadds : adds id call (execDelivery env x call s).1 = false) :
    ∃ r, s.records.lookup id = some r ∧ Touch s call id r r' := by
  rcases execDelivery_touch hr with htouch | ⟨record, rfl, rfl, -⟩
  · exact htouch
  · -- an enqueue that adds nothing leaves old records
    have hnot : ∀ row, (execDelivery env x (.enqueue record) s).1 ≠ .ok (row, true) := by
      intro row hrow
      rw [hrow, adds, beq_self_eq_true] at hadds
      cases hadds
    rcases execDelivery_answers env s (.enqueue record) hfault with heq | heq
    · rw [heq] at hr hnot
      obtain ⟨r, hget, rfl⟩ := Memory.enqueue_lookup_old hnot hr
      exact ⟨r, hget, expireDelivery_touch x.now _ r⟩
    · rw [heq] at hr hnot
      obtain ⟨r, hget, rfl | rfl⟩ := enqueue_lookup_old hnot hr
      · exact ⟨r', hget, .keep⟩
      · exact ⟨r, hget, expireDelivery_touch x.now _ r⟩

theorem Touch.expiresAt_eq (h : Touch s call id r r') : r'.expiresAt = r.expiresAt := by
  cases h <;> rfl

theorem Touch.acked_cases (h : Touch s call id r r') (hacked : r'.status = .acked) :
    r' = r ∨ Acknowledges s call r ∧ ∃ ackedAt, ackTime call = some ackedAt ∧
      r' = acknowledge ackedAt r := by
  cases h with
  | keep => exact .inl rfl
  | failed hstatus => rcases hstatus with rfl | rfl <;> cases hacked
  | ack hi he =>
    subst hi he
    exact .inr ⟨.ack, _, rfl, rfl⟩
  | ackThrough htarget hti hte hi hle =>
    subst hi hte
    exact .inr ⟨.ackThrough htarget hti hle, _, rfl, rfl⟩
  | _ => cases hacked

/-! ## What a run keeps -/

/-- Records expire within a day, and carry their first acknowledgement. -/
structure Aged (s : DeliveryDiskState) (firstAcked : String → Option Time) (now : Time) : Prop where
  now_pos : 0 < now
  dated : ∀ {id record}, s.records.lookup id = some record →
    record.createdAt ≤ now ∧ record.expiresAt ≤ record.createdAt + 24 * hour
  acked : ∀ {id record first}, s.records.lookup id = some record → firstAcked id = some first →
    0 < first ∧ record.createdAt ≤ first ∧ (record.status = .acked → record.ackedAt = first)

theorem storedRow_dated (h : Dated x (.enqueue r)) :
    (storedRow env x.now r).createdAt ≤ x.now ∧
      (storedRow env x.now r).expiresAt ≤ (storedRow env x.now r).createdAt + 24 * hour := by
  unfold storedRow
  cases env.backend with
  | memory => exact h
  | postgres => exact h

variable {firstAcked : String → Option Time} {now : Time}

theorem firstAckedAfter_some {first : Time}
    (h : firstAckedAfter env x call s firstAcked id = some first)
    (hr' : (execDelivery env x call s).2.records.lookup id = some r') :
    adds id call (execDelivery env x call s).1 = false ∧
      ∃ r, s.records.lookup id = some r ∧ (firstAcked id = some first ∨
        firstAcked id = none ∧ ackTime call = some first ∧ r' = acknowledge first r) := by
  unfold firstAckedAfter at h
  dsimp only at h
  rw [hr'] at h
  split at h
  · rename_i r r'' hr hr''
    cases hr''
    split_ifs at h with hadds
    rw [Bool.not_eq_true] at hadds
    refine ⟨hadds, r, hr, ?_⟩
    rcases Option.or_eq_some_iff.mp h with hfirst | ⟨hnone, hack⟩
    · exact .inl hfirst
    · rw [Option.filter_eq_some_iff, decide_eq_true_iff] at hack
      exact .inr ⟨hnone, hack⟩
  · cases h

theorem Aged.after (h : Aged s firstAcked now) (hfault : x.fault = none)
    (htime : now ≤ (DeliveryOperation.call call).time x) (hdated : Dated x call)
    (hkeeps : KeepsFirst s firstAcked call) :
    Aged (execDelivery env x call s).2 (firstAckedAfter env x call s firstAcked)
      ((DeliveryOperation.call call).time x) where
  now_pos := h.now_pos.trans_le htime
  dated := by
    intro id r' hr'
    rcases execDelivery_touch hr' with ⟨r, hr, htouch⟩ | ⟨record, rfl, -, rfl, -⟩
    · rw [htouch.createdAt_eq, htouch.expiresAt_eq]
      exact ⟨(h.dated hr).1.trans htime, (h.dated hr).2⟩
    · exact storedRow_dated hdated
  acked := by
    intro id r' first hr' hfirst
    obtain ⟨hadds, r, hr, hcases⟩ := firstAckedAfter_some hfirst hr'
    obtain ⟨r0, hr0, htouch⟩ := touched_of_not_adds hfault hr' hadds
    cases hr.symm.trans hr0
    rcases hcases with hbefore | ⟨-, hack, rfl⟩
    · obtain ⟨hpos, hnew, hacked⟩ := h.acked hr hbefore
      refine ⟨hpos, ?_, fun hstatus => ?_⟩
      · rw [htouch.createdAt_eq]
        exact hnew
      · rcases htouch.acked_cases hstatus with rfl | ⟨hacks, ackedAt, hackedAt, rfl⟩
        · exact hacked hstatus
        · exact hkeeps id r first ackedAt hr hbefore hacks hackedAt
    · -- the first acknowledgement
      have hnow : now ≤ first := by
        cases call with
        | ack =>
          cases hack
          exact htime
        | ackThrough =>
          cases hack
          exact htime
        | _ => cases hack
      exact ⟨h.now_pos.trans_le hnow, (h.dated hr).1.trans hnow, fun _ => rfl⟩

theorem DeliveryRun.aged (h : DeliveryRun env KeepsFirst s firstAcked now) :
    Aged s firstAcked now := by
  induction h with
  | empty hnow =>
    refine ⟨hnow, ?_, ?_⟩
    · intro id record hget
      cases hget
    · intro id record first hget hfirst
      cases hfirst
  | call _ x call hfault htime hdated hok ih => exact ih.after hfault htime hdated hok

/-! ## What a cleanup leaves -/

/-- A finished record is kept for the retention time. -/
structure Kept (t : Time) (record : DeliveryRecord) : Prop where
  acked : record.status = .acked → record.ackedAt ≠ 0 → t - record.ackedAt ≤ retention
  dead : record.status = .dead → t - record.createdAt ≤ retention
  live : record.status ≠ .acked → record.status ≠ .dead → t < record.expiresAt

variable {t : Time}

theorem expireDelivery_live (hacked : (expireDelivery t r).status ≠ .acked)
    (hdead : (expireDelivery t r).status ≠ .dead) :
    t < (expireDelivery t r).expiresAt := by
  unfold expireDelivery at hacked hdead ⊢
  split_ifs at hacked hdead ⊢ with hexp
  · exact absurd rfl hdead
  · exact not_le.mp fun hle => hexp ⟨hle, hacked⟩

theorem Memory.kept_of_not_stale (h : Memory.staleDelivery t (expireDelivery t r) = false) :
    Kept t (expireDelivery t r) := by
  rw [Memory.staleDelivery, Bool.or_eq_false_iff] at h
  refine ⟨fun hacked hdate => ?_, fun hdead => ?_, expireDelivery_live⟩
  · simpa [hacked, hdate] using h.1
  · simpa [hdead] using h.2

theorem Postgres.kept_of_not_stale (h : staleDelivery t (expireDelivery t r) = false) :
    Kept t (expireDelivery t r) := by
  rw [staleDelivery, Bool.or_eq_false_iff] at h
  refine ⟨fun hacked hdate => ?_, fun hdead => ?_, expireDelivery_live⟩
  · have hrecent : t - retention ≤ (expireDelivery t r).ackedAt := by
      simpa [hacked, hdate] using h.1
    linarith
  · have hrecent : t - retention ≤ (expireDelivery t r).createdAt := by
      simpa [hdead] using h.2
    linarith

theorem cleanup_kept (hfault : x.fault = none)
    (hr' : (execDelivery env x (.cleanup t) s).2.records.lookup id = some r') : Kept t r' := by
  rcases execDelivery_answers env s (.cleanup t) hfault with heq | heq
  · rw [heq] at hr'
    have hclean : (Memory.cleanupRecords t s.records).lookup id = some r' := by
      change (Memory.cleanupLocked t s).records.lookup id = some r' at hr'
      simp only [Memory.cleanupLocked] at hr'
      split_ifs at hr'
      · exact Memory.trimKeys_lookup hr'
      · exact hr'
    rw [Memory.cleanupRecords, Table.lookup_select_amend] at hclean
    obtain ⟨⟨r, -, rfl⟩, hstale⟩ := hclean
    exact Memory.kept_of_not_stale (Bool.not_eq_true' _ ▸ hstale)
  · rw [heq] at hr'
    change (cleanupDeliveriesTx t s.records).lookup id = some r' at hr'
    rw [cleanupDeliveriesTx, Table.lookup_select_amend] at hr'
    obtain ⟨⟨r, -, rfl⟩, hstale⟩ := hr'
    exact kept_of_not_stale (Bool.not_eq_true' _ ▸ hstale)

variable (env x s firstAcked) in
/-- A cleanup leaves no delivery that was finished more than seven days ago. -/
def FinishedDeleted (t : Time) : Prop :=
  ∀ id record, (execDelivery env x (.cleanup t) s).2.records.lookup id = some record →
    (∀ first, firstAckedAfter env x (.cleanup t) s firstAcked id = some first →
      t - first ≤ retention) ∧
    (record.status = .dead → t - record.createdAt ≤ retention)

/-- **Finished deliveries are deleted after seven days** where no acknowledgement of a record comes
later than the first. -/
theorem finished_deliveries_deleted (h : DeliveryRun env KeepsFirst s firstAcked now) {t : Time}
    (hfault : x.fault = none) (htime : now ≤ t) : FinishedDeleted env x s firstAcked t := by
  intro id r' hr'
  have hkept := cleanup_kept hfault hr'
  refine ⟨?_, hkept.dead⟩
  intro first hfirst
  have hkeeps : KeepsFirst s firstAcked (.cleanup t) := by
    intro id record first ackedAt _ _ _ hack
    cases hack
  have haged : Aged (execDelivery env x (.cleanup t) s).2
      (firstAckedAfter env x (.cleanup t) s firstAcked) t :=
    h.aged.after hfault htime trivial hkeeps
  obtain ⟨hpos, hnew, hacked⟩ := haged.acked hr' hfirst
  by_cases hstatus : r'.status = .acked
  · rw [← hacked hstatus]
    refine hkept.acked hstatus ?_
    rw [hacked hstatus]
    exact hpos.ne'
  by_cases hdead : r'.status = .dead
  · have hage := hkept.dead hdead
    linarith
  · -- a record that is neither acknowledged nor dead is not a day old
    have hlive := hkept.live hstatus hdead
    have hexpires := (haged.dated hr').2
    have hday : t - first ≤ 24 * hour := by linarith
    exact hday.trans (by decide)

end Step

/-! ## A client that reconnects -/

/-- A delivery to the phone. -/
def polledRecord : DeliveryRecord :=
  { id := "delivery", eventID := "raid", installationID := "phone", notification := {} }

/-- The store after its acknowledgement. -/
def polledStore (backend : Backend) : DeliveryDiskState :=
  (execDelivery (Env.sample backend) {} (.ack "phone" "raid" 2)
    (execDelivery (Env.sample backend) {} (.enqueue polledRecord) {}).2).2

/-- When it was acknowledged. -/
def polledFirstAcked (backend : Backend) : String → Option Time :=
  firstAckedAfter (Env.sample backend) {} (.ack "phone" "raid" 2)
    (execDelivery (Env.sample backend) {} (.enqueue polledRecord) {}).2
    (firstAckedAfter (Env.sample backend) {} (.enqueue polledRecord) {} fun _ => none)

theorem polledStore_run {allowed : DeliveryDiskState → (String → Option Time) → DeliveryCall → Prop}
    (backend : Backend) (henqueue : allowed {} (fun _ => none) (.enqueue polledRecord))
    (hack : allowed (execDelivery (Env.sample backend) {} (.enqueue polledRecord) {}).2
      (firstAckedAfter (Env.sample backend) {} (.enqueue polledRecord) {} fun _ => none)
      (.ack "phone" "raid" 2)) :
    DeliveryRun (Env.sample backend) allowed (polledStore backend) (polledFirstAcked backend)
      2 := by
  have hempty : DeliveryRun (Env.sample backend) allowed {} (fun _ => none) 1 := .empty (by decide)
  have hdated : Dated {} (.enqueue polledRecord) := ⟨by decide, by decide⟩
  have henq := hempty.call {} (.enqueue polledRecord) rfl (by decide) hdated henqueue
  exact henq.call {} (.ack "phone" "raid" 2) rfl (by decide) trivial hack

theorem polledStore_keepsFirst (backend : Backend) :
    DeliveryRun (Env.sample backend) KeepsFirst (polledStore backend) (polledFirstAcked backend)
      2 := by
  refine polledStore_run backend ?_ ?_
  · intro id record first ackedAt hget
    cases hget
  · intro id record first ackedAt hget hfirst
    unfold firstAckedAfter at hfirst
    cases hfirst

/-- The record is gone eight days after its only acknowledgement. -/
theorem polled_delivery_deleted :
    polledFirstAcked .postgres "delivery" = some 2 ∧
      FinishedDeleted Env.pg {} (polledStore .postgres) (polledFirstAcked .postgres)
        (2 + 8 * 24 * hour) :=
  ⟨by decide, finished_deliveries_deleted (polledStore_keepsFirst .postgres) rfl (by decide)⟩

/-- It is acknowledged again after four days, and there after eight. -/
def KeptByReconnect (backend : Backend) : Prop :=
  ∃ s firstAcked, DeliveryRun (Env.sample backend) (fun _ _ _ => True) s firstAcked
    (2 + 4 * 24 * hour) ∧ ¬ FinishedDeleted (Env.sample backend) {} s firstAcked (2 + 8 * 24 * hour)

theorem keptByReconnect (backend : Backend) : KeptByReconnect backend := by
  have hpolled : DeliveryRun (Env.sample backend) (fun _ _ _ => True) (polledStore backend)
      (polledFirstAcked backend) 2 :=
    polledStore_run backend trivial trivial
  have hagain := hpolled.call {} (.ack "phone" "raid" (2 + 4 * 24 * hour)) rfl (by decide) trivial
    trivial
  refine ⟨_, _, hagain, ?_⟩
  intro hdel
  have hkept : ∃ record, (execDelivery (Env.sample backend) {} (.cleanup (2 + 8 * 24 * hour))
      (execDelivery (Env.sample backend) {} (.ack "phone" "raid" (2 + 4 * 24 * hour))
        (polledStore backend)).2).2.records.lookup "delivery" = some record := by
    rw [← Option.isSome_iff_exists]
    cases backend <;> decide
  obtain ⟨record, hrec⟩ := hkept
  have hage := (hdel "delivery" record hrec).1 2 (by cases backend <;> decide)
  exact absurd hage (by decide)

/-- **A record is kept by acknowledging it again**, in both stores. -/
theorem reconnects_keep_delivery : KeptByReconnect .memory ∧ KeptByReconnect .postgres :=
  ⟨keptByReconnect .memory, keptByReconnect .postgres⟩

end Ferventio
