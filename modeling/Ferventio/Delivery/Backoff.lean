import Mathlib.Algebra.Order.Ring.Int
import Mathlib.Tactic.Positivity
import Ferventio.Delivery.Laws

/-!
# The backoff of the PostgreSQL store

The SQL statements compute the time of the next attempt with the cast to a 32-bit integer inside the
cap of 64. `RetryDelay` of `helpers.go` caps the exponent and has nothing that can fail.

* **`sql_backoff_eq_iff`**: the two are the same up to the count 30.
-/

namespace Ferventio

namespace Postgres

/-! ## The expression -/

/-- `power(2, n)` in double precision is exact until it overflows. -/
def power2 (n : Nat) : Option Int := if n < 1024 then some (2 ^ n) else none

/-- The cast `::int`. -/
def castInt (value : Int) : Option Int :=
  if -2 ^ 31 ≤ value ∧ value < 2 ^ 31 then some value else none

/-- `LEAST(64, power(2, GREATEST(attempt_count, 0))::int)`. -/
def backoffSeconds (attemptCount : Int) : Option Int :=
  ((power2 (max attemptCount 0).toNat).bind castInt).map (min 64)

/-- The delay doubles up to 64 seconds. -/
def retryDelay (attempt : Int) : Duration :=
  let attempt := if attempt < 1 then 1 else attempt
  2 ^ (min (attempt - 1) 6).toNat * second

theorem castInt_power2 (n : Nat) :
    (power2 n).bind castInt = if n < 31 then some (2 ^ n) else none := by
  have hcast : ((2 : Int) ^ n < 2 ^ 31) ↔ n < 31 := by
    have hnat : 2 ^ n < 2 ^ 31 ↔ n < 31 := Nat.pow_lt_pow_iff_right (by omega)
    exact_mod_cast hnat
  have hpos : (0 : Int) < 2 ^ n := by positivity
  unfold power2
  by_cases h : n < 31
  · have hsmall := hcast.mpr h
    rw [if_pos h, if_pos (by omega), Option.bind_some, castInt, if_pos (by omega)]
  · rw [if_neg h]
    by_cases hfinite : n < 1024
    · rw [if_pos hfinite, Option.bind_some, castInt, if_neg]
      rintro ⟨-, hlt⟩
      exact h (hcast.mp hlt)
    · rw [if_neg hfinite, Option.bind_none]

theorem retryInterval_eq (n : Nat) :
    retryInterval n = (backoffSeconds n).map fun value => value * second := by
  have hcount : (max (n : Int) 0).toNat = n := by omega
  rw [retryInterval, backoffSeconds, hcount, castInt_power2]
  by_cases h : n < 31
  · simp [h]
  · simp [h]

/-- The Go code caps the exponent, the SQL code the power. -/
theorem retryDelay_succ (n : Nat) : retryDelay (n + 1) = min (2 ^ n) 64 * second := by
  have hatt : ¬((n : Int) + 1 < 1) := by omega
  have hexponent : (min ((n : Int) + 1 - 1) 6).toNat = min n 6 := by omega
  unfold retryDelay
  simp only [if_neg hatt, hexponent]
  congr 1
  have hbase : (1 : Int) ≤ 2 := by omega
  by_cases h : n ≤ 6
  · have hpow : (2 : Int) ^ n ≤ 64 := pow_le_pow_right₀ (n := 6) hbase h
    rw [min_eq_left h, min_eq_left hpow]
  · have hlarge : 6 ≤ n := by omega
    have hpow : (64 : Int) ≤ 2 ^ n := pow_le_pow_right₀ (m := 6) hbase hlarge
    rw [min_eq_right hlarge, min_eq_right hpow]
    rfl

theorem retryDelay_eq_memory (n : Nat) : retryDelay n = Memory.retryDelay n := by
  unfold retryDelay Memory.retryDelay
  by_cases h : n < 1
  · have hzero : n = 0 := by omega
    subst hzero
    rfl
  · have hint : ¬((n : Int) < 1) := by omega
    have hexponent : (min ((n : Int) - 1) 6).toNat = min (n - 1) 6 := by omega
    simp only [if_neg h, if_neg hint, hexponent]

/-- **The SQL backoff is the Go backoff** for the counts up to 30, and fails above them. -/
theorem sql_backoff_eq_iff (n : Nat) :
    (∃ value, backoffSeconds n = some value ∧ value * second = retryDelay (n + 1) ∧
      value = min (2 ^ n) 64) ↔ n ≤ 30 := by
  have hcount : (max (n : Int) 0).toNat = n := by omega
  rw [backoffSeconds, hcount, castInt_power2]
  by_cases h : n < 31
  · rw [if_pos h, retryDelay_succ]
    refine iff_of_true ⟨min 64 (2 ^ n), rfl, ?_, min_comm _ _⟩ (by omega)
    rw [min_comm]
  · rw [if_neg h]
    refine iff_of_false ?_ (by omega)
    rintro ⟨value, hvalue, -⟩
    cases hvalue

/-! ## A delivery that is sent again and again -/

variable {s : DeliveryDiskState} {id : String} {r : DeliveryRecord}

/-- The store after a delivery was sent at each time. -/
def resent (id : String) (times : List Time) (s : DeliveryDiskState) : DeliveryDiskState :=
  times.foldl (fun s sentAt => (markSent id sentAt s).2) s

theorem markSent_counts (h : s.records.lookup id = some r) (hcount : r.attemptCount < 31)
    (sentAt : Time) :
    (markSent id sentAt s).1 = .ok () ∧ ∃ r', (markSent id sentAt s).2.records.lookup id = some r' ∧
      r'.attemptCount = r.attemptCount + 1 ∧ r'.status = .sent ∧
      r'.availableAt = sentAt + retryDelay (r.attemptCount + 1) := by
  have hinterval : retryInterval r.attemptCount = some (retryDelay (r.attemptCount + 1)) := by
    rw [retryInterval, if_pos hcount, retryDelay_succ, min_comm]
  unfold markSent
  simp only [h, hinterval]
  exact ⟨trivial, _, AList.lookup_insert _, rfl, rfl, rfl⟩

/-- **Above it, `MarkSent` fails** and leaves the row as it is. -/
theorem markSent_stuck (h : s.records.lookup id = some r) (hcount : 31 ≤ r.attemptCount)
    (sentAt : Time) :
    markSent id sentAt s = (.error (fmtDatabase "mark delivery sent" (some outOfRange)), s) := by
  have hinterval : retryInterval r.attemptCount = none := by
    rw [retryInterval, if_neg (by omega)]
  unfold markSent
  simp only [h, hinterval]

theorem resent_attemptCount (times : List Time) (h : s.records.lookup id = some r)
    (hcount : r.attemptCount ≤ 31) :
    ∃ r', (resent id times s).records.lookup id = some r' ∧
      r'.attemptCount = min 31 (r.attemptCount + times.length) := by
  induction times generalizing s r with
  | nil => exact ⟨r, h, by simp only [List.length_nil]; omega⟩
  | cons sentAt times ih =>
    simp only [resent, List.foldl_cons, List.length_cons] at ih ⊢
    by_cases hlast : r.attemptCount < 31
    · obtain ⟨-, r1, hr1, hcount1, -⟩ := markSent_counts h hlast sentAt
      obtain ⟨r', hr', hcount'⟩ := ih hr1 (by omega)
      exact ⟨r', hr', by omega⟩
    · rw [markSent_stuck h (by omega)]
      obtain ⟨r', hr', hcount'⟩ := ih h hcount
      exact ⟨r', hr', by omega⟩

/-- One delivery waits. -/
def enqueuedOnce : DeliveryDiskState :=
  (enqueue 1 { id := "d", eventID := "live", installationID := "phone", notification := {} } {}).2

/-- A delivery is sent every 64 seconds and not acknowledged: the 32nd `MarkSent` is refused. -/
theorem unacked_delivery_refused :
    ∃ s r, s = resent "d" ((List.range 31).map fun n => 1 + 64 * second * (n + 1)) enqueuedOnce ∧
      s.records.lookup "d" = some r ∧ r.attemptCount = 31 ∧ backoffSeconds 31 = none ∧
      retryDelay 32 = 64 * second ∧
      markSent "d" (1 + 64 * second * 32) s =
        (.error (fmtDatabase "mark delivery sent" (some outOfRange)), s) := by
  obtain ⟨r0, hr0, hcount0⟩ : ∃ r, enqueuedOnce.records.lookup "d" = some r ∧ r.attemptCount = 0 :=
    ⟨_, rfl, rfl⟩
  obtain ⟨r, hr, hcount⟩ := resent_attemptCount
    ((List.range 31).map fun n => 1 + 64 * second * ((n : Int) + 1)) hr0 (by omega)
  have hcount31 : r.attemptCount = 31 := by
    rw [hcount, hcount0]
    rfl
  exact ⟨_, r, rfl, hr, hcount31, by decide, by decide, markSent_stuck hr hcount31.ge _⟩

end Postgres

end Ferventio
