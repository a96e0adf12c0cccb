import Mathlib.Algebra.Order.Field.Basic
import Mathlib.Tactic.Linarith
import Mathlib.Tactic.Ring

/-!
# Token buckets

A bucket holds at most `burst` tokens and is refilled at `rate`. A request takes a token if there is
one. The level is only computed when a request comes, from the level and the time of the last one.

* **`grants_le`**: a window of length `b - a` grants at most `burst + rate * (b - a)` requests.
-/

namespace TokenBucket

open List

variable {K : Type} [Field K] [LinearOrder K]

/-- The level at the time of the last request. -/
structure State (K : Type) where
  level : K
  time : K

/-- The level at a time. -/
def refill (burst rate : K) (s : State K) (t : K) : K := min burst (s.level + rate * (t - s.time))

/-- A request at time `t`. -/
def take (burst rate : K) (s : State K) (t : K) : Bool × State K :=
  let level := refill burst rate s t
  if 1 ≤ level then (true, ⟨level - 1, t⟩) else (false, ⟨level, t⟩)

/-- The requests granted from `a` to `b`. -/
def grants (burst rate a b : K) : State K → List K → Nat
  | _, [] => 0
  | s, t :: times =>
    let (granted, s') := take burst rate s t
    (if granted ∧ a ≤ t ∧ t ≤ b then 1 else 0) + grants burst rate a b s' times

variable {burst rate a b : K} {s : State K} {t : K} {times : List K}

theorem refill_le_burst : refill burst rate s t ≤ burst := min_le_left _ _

theorem refill_self (h : s.level ≤ burst) : refill burst rate s s.time = s.level := by
  rw [refill, sub_self, mul_zero, add_zero, min_eq_right h]

theorem take_time : (take burst rate s t).2.time = t := by
  unfold take
  dsimp only
  split_ifs
  · rfl
  · rfl

theorem take_level : (take burst rate s t).2.level =
    refill burst rate s t - if (take burst rate s t).1 then 1 else 0 := by
  unfold take
  by_cases h : 1 ≤ refill burst rate s t
  · simp [h]
  · simp [h]

theorem take_granted : (take burst rate s t).1 ↔ 1 ≤ refill burst rate s t := by
  unfold take
  dsimp only
  split_ifs with h
  · simp [h]
  · simp [h]

theorem grants_cons : grants burst rate a b s (t :: times) =
    (if (take burst rate s t).1 ∧ a ≤ t ∧ t ≤ b then 1 else 0) +
      grants burst rate a b (take burst rate s t).2 times := rfl

theorem grants_eq_zero (hsort : (t :: times).Pairwise (· ≤ ·)) (hlate : b < t) :
    grants burst rate a b s (t :: times) = 0 := by
  have hall : ∀ t' ∈ t :: times, b < t' := by
    intro t' ht'
    rcases mem_cons.mp ht' with rfl | ht'
    · exact hlate
    · exact hlate.trans_le ((pairwise_cons.mp hsort).1 t' ht')
  clear hsort
  generalize t :: times = times at hall
  induction times generalizing s with
  | nil => rfl
  | cons t times ih =>
    have hout : ¬t ≤ b := not_le.mpr (hall t mem_cons_self)
    rw [grants_cons, if_neg fun hin => hout hin.2.2,
      ih fun t' ht' => hall t' (mem_cons_of_mem _ ht')]

section Ordered

variable [IsStrictOrderedRing K]

theorem refill_nonneg (hburst : 0 ≤ burst) (hrate : 0 ≤ rate) (hlevel : 0 ≤ s.level)
    (ht : s.time ≤ t) : 0 ≤ refill burst rate s t := by
  have hgain : 0 ≤ rate * (t - s.time) := mul_nonneg hrate (sub_nonneg.mpr ht)
  exact le_min hburst (add_nonneg hlevel hgain)

theorem take_level_nonneg (hburst : 0 ≤ burst) (hrate : 0 ≤ rate) (hlevel : 0 ≤ s.level)
    (ht : s.time ≤ t) : 0 ≤ (take burst rate s t).2.level := by
  have hrefill := refill_nonneg hburst hrate hlevel ht
  rw [take_level]
  by_cases hgrant : (take burst rate s t).1
  · rw [if_pos hgrant]
    linarith [take_granted.mp hgrant]
  · rw [if_neg hgrant]
    linarith

theorem grants_le_level (hburst : 0 ≤ burst) (hrate : 0 ≤ rate) (hlevel : 0 ≤ s.level)
    (hsort : (s.time :: times).Pairwise (· ≤ ·)) (hb : s.time ≤ b) :
    (grants burst rate a b s times : K) ≤ s.level + rate * (b - s.time) := by
  induction times generalizing s with
  | nil =>
    have hflow : 0 ≤ rate * (b - s.time) := mul_nonneg hrate (sub_nonneg.mpr hb)
    simpa [grants] using add_nonneg hlevel hflow
  | cons t times ih =>
    obtain ⟨hfirst, hrest⟩ := pairwise_cons.mp hsort
    have ht : s.time ≤ t := hfirst t mem_cons_self
    by_cases htb : t ≤ b
    · have hle := ih (take_level_nonneg hburst hrate hlevel ht) (by rw [take_time]; exact hrest)
        (by rw [take_time]; exact htb)
      rw [take_time, take_level] at hle
      have hrefill : refill burst rate s t ≤ s.level + rate * (t - s.time) := min_le_right _ _
      have hflow : rate * (t - s.time) + rate * (b - t) = rate * (b - s.time) := by ring
      have hcount : ((if (take burst rate s t).1 ∧ a ≤ t ∧ t ≤ b then 1 else 0 : Nat) : K) ≤
          if (take burst rate s t).1 then 1 else 0 := by
        by_cases hgrant : (take burst rate s t).1
        · rw [if_pos hgrant]
          split_ifs
          · simp
          · simp
        · rw [if_neg fun hin => hgrant hin.1, if_neg hgrant, Nat.cast_zero]
      rw [grants_cons, Nat.cast_add]
      linarith
    · -- the window is over
      have hflow : 0 ≤ rate * (b - s.time) := mul_nonneg hrate (sub_nonneg.mpr hb)
      rw [grants_eq_zero hrest (not_le.mp htb), Nat.cast_zero]
      exact add_nonneg hlevel hflow

theorem grants_le (hburst : 0 ≤ burst) (hrate : 0 ≤ rate) (hlevel : 0 ≤ s.level)
    (hsort : (s.time :: times).Pairwise (· ≤ ·)) (hab : a ≤ b) :
    (grants burst rate a b s times : K) ≤ burst + rate * (b - a) := by
  have hwin : 0 ≤ rate * (b - a) := mul_nonneg hrate (sub_nonneg.mpr hab)
  induction times generalizing s with
  | nil => simpa [grants] using add_nonneg hburst hwin
  | cons t times ih =>
    obtain ⟨hfirst, hrest⟩ := pairwise_cons.mp hsort
    have ht : s.time ≤ t := hfirst t mem_cons_self
    by_cases hat : a ≤ t
    · by_cases htb : t ≤ b
      · -- the first request in the window finds at most a full bucket
        have hfull : grants burst rate a b s (t :: times) =
            grants burst rate a b ⟨refill burst rate s t, t⟩ (t :: times) := by
          have hsame : take burst rate ⟨refill burst rate s t, t⟩ t = take burst rate s t := by
            unfold take
            rw [refill_self (s := ⟨refill burst rate s t, t⟩) refill_le_burst]
          rw [grants_cons, grants_cons, hsame]
        have hle := grants_le_level (a := a) (s := ⟨refill burst rate s t, t⟩) hburst hrate
          (refill_nonneg hburst hrate hlevel ht)
          (pairwise_cons.mpr ⟨by simpa using (pairwise_cons.mp hrest).1, hrest⟩) htb
        have hlevel' : refill burst rate s t ≤ burst := refill_le_burst
        have hshorter : rate * (b - t) ≤ rate * (b - a) :=
          mul_le_mul_of_nonneg_left (by linarith) hrate
        rw [hfull]
        linarith
      · rw [grants_eq_zero hrest (not_le.mp htb), Nat.cast_zero]
        exact add_nonneg hburst hwin
    · rw [grants_cons, if_neg fun hin => hat hin.2.1, zero_add]
      exact ih (take_level_nonneg hburst hrate hlevel ht) (by rw [take_time]; exact hrest)

theorem grants_instant {n m : Nat} (ha : a ≤ t) (hb : t ≤ b) (hm : (m : K) ≤ burst) :
    grants burst rate a b ⟨m, t⟩ (List.replicate n t) = min n m := by
  induction n generalizing m with
  | zero => simp [grants]
  | succ n ih =>
    have hrefill : refill burst rate ⟨(m : K), t⟩ t = m := refill_self (s := ⟨(m : K), t⟩) hm
    rw [replicate_succ, grants_cons]
    cases m with
    | zero =>
      have hdenied : take burst rate ⟨((0 : Nat) : K), t⟩ t = (false, ⟨((0 : Nat) : K), t⟩) := by
        unfold take
        rw [hrefill]
        simp
      rw [hdenied, ih hm]
      simp
    | succ m =>
      have hgrant : take burst rate ⟨((m + 1 : Nat) : K), t⟩ t = (true, ⟨(m : K), t⟩) := by
        unfold take
        rw [hrefill]
        simp
      have hm' : (m : K) ≤ burst := le_trans (by push_cast; linarith) hm
      rw [hgrant, ih hm']
      simp [ha, hb]
      omega

end Ordered

end TokenBucket
