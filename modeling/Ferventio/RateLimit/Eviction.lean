import Ferventio.RateLimit.Limiter

/-!
# The limiter at its capacity

A limiter that is full makes room before it looks up the bucket of the key that it is asked for. It
deletes the bucket seen least recently, which may be the one of that very key: a client that was
blocked then starts again with a full bucket.

* **`limiter_capacity_iff`**: when a call of any run decides on the bucket that is stored.
-/

namespace Ferventio

open Table List

variable {idleTTL : Duration} {maxKeys : Int} {key k : String} {now : Time} {l : RateLimiter}

/-- The order is one in which Go may walk a map. -/
def Walks (order : Buckets → List BucketEntry) : Prop :=
  ∀ buckets, (order buckets).Perm buckets.entries

/-! ## The oldest bucket -/

theorem oldestKey_cases {entries : List BucketEntry} (hkeys : ∀ e ∈ entries, e.1 ≠ "")
    (hkey : key ≠ "") (oldest : Time) :
    (oldestKey entries key oldest = key ∧ ∀ e ∈ entries, oldest ≤ e.2.lastSeen) ∨
      ∃ e ∈ entries, oldestKey entries key oldest = e.1 ∧ e.2.lastSeen < oldest ∧
        ∀ e' ∈ entries, e.2.lastSeen ≤ e'.2.lastSeen := by
  induction entries generalizing key oldest with
  | nil => exact .inl ⟨rfl, nofun⟩
  | cons entry entries ih =>
    obtain ⟨hentry, hrest⟩ := forall_mem_cons.mp hkeys
    simp only [forall_mem_cons, oldestKey, hkey, false_or]
    by_cases hlt : entry.2.lastSeen < oldest
    · rw [if_pos hlt]
      refine .inr ?_
      rcases ih hrest hentry entry.2.lastSeen with ⟨heq, hmin⟩ | ⟨e, he, heq, hless, hmin⟩
      · exact ⟨entry, mem_cons_self, heq, hlt, le_rfl, hmin⟩
      · exact ⟨e, mem_cons_of_mem _ he, heq, hless.trans hlt, hless.le, hmin⟩
    · rw [if_neg hlt]
      rcases ih hrest hkey oldest with ⟨heq, hmin⟩ | ⟨e, he, heq, hless, hmin⟩
      · exact .inl ⟨heq, not_lt.mp hlt, hmin⟩
      · exact .inr ⟨e, mem_cons_of_mem _ he, heq, hless, hless.le.trans (not_lt.mp hlt), hmin⟩

theorem oldestKey_cons {entry : BucketEntry} {entries : List BucketEntry}
    (hkeys : ∀ e ∈ entry :: entries, e.1 ≠ "") :
    (∃ e ∈ entry :: entries, oldestKey (entry :: entries) "" 0 = e.1 ∧
        ∀ e' ∈ entry :: entries, e.2.lastSeen ≤ e'.2.lastSeen) ∧
      ((∀ e ∈ entries, entry.2.lastSeen ≤ e.2.lastSeen) →
        oldestKey (entry :: entries) "" 0 = entry.1) := by
  obtain ⟨hentry, hrest⟩ := forall_mem_cons.mp hkeys
  simp only [forall_mem_cons, oldestKey, true_or, if_true]
  rcases oldestKey_cases hrest hentry entry.2.lastSeen with ⟨heq, hmin⟩ | ⟨e, he, heq, hless, hmin⟩
  · exact ⟨⟨entry, mem_cons_self, heq, le_rfl, hmin⟩, fun _ => heq⟩
  · exact ⟨⟨e, mem_cons_of_mem _ he, heq, hless.le, hmin⟩,
      fun h => absurd hless (not_lt.mpr (h e he))⟩

/-! ## Making room -/

section Order

variable {order : Buckets → List BucketEntry} {buckets : Buckets} {maxKeys : Int}

theorem evictOldest_full (hwalks : Walks order) (hfull : (buckets.count : Int) = maxKeys)
    (hpos : 0 < maxKeys) (hkeys : ∀ e ∈ buckets.entries, e.1 ≠ "") :
    ∃ e ∈ buckets.entries, oldestKey (order buckets) "" 0 = e.1 ∧
      (∀ e' ∈ buckets.entries, e.2.lastSeen ≤ e'.2.lastSeen) ∧
      evictOldest order maxKeys buckets.count buckets = buckets.erase e.1 := by
  have hperm := hwalks buckets
  obtain ⟨fuel, hfuel⟩ : ∃ fuel, buckets.count = fuel + 1 := ⟨buckets.count - 1, by omega⟩
  cases hentries : order buckets with
  | nil =>
    rw [hentries] at hperm
    have hnone : buckets.count = 0 := hperm.symm.length_eq
    omega
  | cons =>
    rw [hentries] at hperm
    obtain ⟨⟨e, he, heq, hmin⟩, -⟩ := oldestKey_cons fun e he => hkeys e (hperm.mem_iff.mp he)
    have hmem : e ∈ buckets.entries := hperm.mem_iff.mp he
    have hstored : buckets.lookup e.1 ≠ none := by
      rw [mem_entries_iff.mp hmem]
      exact Option.some_ne_none e.2
    have hcount := count_erase hstored
    refine ⟨e, hmem, heq, fun e' he' => hmin e' (hperm.mem_iff.mpr he'), ?_⟩
    have hroom : (Table.count (buckets.erase e.1) : Int) < maxKeys := by omega
    rw [hfuel, evictOldest, if_neg (by omega), hentries, heq]
    dsimp only
    rw [if_neg (hkeys e hmem), evictOldest_of_room hroom]

namespace RateLimiter

/-- What every limiter of the server keeps. -/
structure Held (l : RateLimiter) : Prop where
  maxKeys_pos : 0 < l.maxKeys
  count_le : (l.buckets.count : Int) ≤ l.maxKeys
  keys : ∀ k, l.buckets.lookup k ≠ none → k ≠ ""

/-- The buckets that are not idle. -/
def live (l : RateLimiter) (now : Time) : Buckets :=
  l.buckets.select fun _ bucket => !l.idleAt now bucket

theorem Held.live_keys (h : l.Held) : ∀ e ∈ (l.live now).entries, e.1 ≠ "" := by
  intro e he
  refine h.keys e.1 ?_
  rw [mem_entries_iff.mp (mem_of_mem_filter he)]
  exact Option.some_ne_none e.2

theorem Held.live_count_le (h : l.Held) : ((l.live now).count : Int) ≤ l.maxKeys :=
  le_trans (by exact_mod_cast count_select_le _ l.buckets) h.count_le

variable (now) in
theorem counted_cases (h : l.Held) (hwalks : Walks order) :
    (l.counted order now).buckets = l.buckets ∧ (l.buckets.count : Int) < l.maxKeys ∨
      (l.counted order now).buckets = l.live now ∧ ((l.live now).count : Int) < l.maxKeys ∨
      ((l.live now).count : Int) = l.maxKeys ∧
        ∃ e ∈ (l.live now).entries, oldestKey (order (l.live now)) "" 0 = e.1 ∧
          (∀ e' ∈ (l.live now).entries, e.2.lastSeen ≤ e'.2.lastSeen) ∧
          (l.counted order now).buckets = (l.live now).erase e.1 := by
  unfold counted
  dsimp only
  by_cases hdue : (l.operations + 1) % 2 ^ 64 % 256 = 0 ∨ l.maxKeys ≤ l.buckets.count
  · rw [if_pos hdue]
    by_cases hroom : ((l.live now).count : Int) < l.maxKeys
    · exact .inr (.inl ⟨evictOldest_of_room hroom _, hroom⟩)
    · have hfull := le_antisymm h.live_count_le (not_lt.mp hroom)
      exact .inr (.inr ⟨hfull, evictOldest_full hwalks hfull h.maxKeys_pos h.live_keys⟩)
  · rw [if_neg hdue]
    rw [not_or, not_le] at hdue
    exact .inl ⟨rfl, hdue.2⟩

variable (now) in
theorem Held.counted (h : l.Held) (hwalks : Walks order) :
    ((l.counted order now).buckets.count : Int) < l.maxKeys ∧
      ∀ k, (l.counted order now).buckets.lookup k ≠ none → l.buckets.lookup k ≠ none := by
  have hlive : ∀ k, (l.live now).lookup k ≠ none → l.buckets.lookup k ≠ none := by
    intro k hk hnone
    rw [live, lookup_select, hnone] at hk
    exact hk rfl
  rcases counted_cases now h hwalks with ⟨heq, hroom⟩ | ⟨heq, hroom⟩ | ⟨hfull, e, he, -, -, heq⟩
  · rw [heq]
    exact ⟨hroom, fun k hk => hk⟩
  · rw [heq]
    exact ⟨hroom, hlive⟩
  · have hcount := count_erase (t := l.live now) (k := e.1)
      (by rw [mem_entries_iff.mp he]; exact Option.some_ne_none e.2)
    rw [heq]
    refine ⟨by omega, fun k hk => hlive k ?_⟩
    rw [lookup_erase_eq] at hk
    split_ifs at hk
    · exact absurd rfl hk
    · exact hk

theorem bucketKey_ne_empty (pol : RateLimitPolicy) (key : String) : bucketKey pol key ≠ "" := by
  intro h
  have hlist := congrArg String.toList h
  simp [bucketKey] at hlist

theorem Held.take (h : l.Held) (hwalks : Walks order) (pol : RateLimitPolicy) (key : String) :
    (l.take order pol key now).2.Held := by
  by_cases hon : pol.Enabled
  · obtain ⟨hroom, hkept⟩ := h.counted now hwalks
    rw [take_enabled hon]
    have hmax : (l.counted order now).maxKeys = l.maxKeys := counted_fields.1
    refine ⟨hmax ▸ h.maxKeys_pos, ?_, fun k hk => ?_⟩
    · have hle := count_insert_le (l.counted order now).buckets (bucketKey pol key)
        (decideBucket pol now (refreshed pol now
          ((l.counted order now).buckets.lookup (bucketKey pol key)))).2
      dsimp only
      omega
    · rw [lookup_insert_eq] at hk
      split_ifs at hk with hkey
      · exact hkey ▸ bucketKey_ne_empty pol key
      · exact h.keys k (hkept k hk)
  · rw [take_disabled hon]
    exact h

end RateLimiter

end Order

theorem newRateLimiter_held (maxKeys : Int) (idleTTL : Duration) :
    (newRateLimiter maxKeys idleTTL).Held where
  maxKeys_pos := by
    unfold newRateLimiter
    dsimp only
    split_ifs <;> omega
  count_le := by
    unfold newRateLimiter
    dsimp only
    show (0 : Int) ≤ _
    split_ifs <;> omega
  keys := fun _ hk => absurd rfl hk

/-! ## Runs -/

/-- The states that calls lead to; the clock does not go back, and maps are walked in any order. -/
inductive LimiterRun (maxKeys : Int) (idleTTL : Duration) : RateLimiter → Time → Prop
  | new (now : Time) : LimiterRun maxKeys idleTTL (newRateLimiter maxKeys idleTTL) now
  | take {l : RateLimiter} {now now' : Time} {order : Buckets → List BucketEntry}
      (h : LimiterRun maxKeys idleTTL l now) (hnow : now ≤ now') (hwalks : Walks order)
      (policy : RateLimitPolicy) (key : String) :
      LimiterRun maxKeys idleTTL (l.take order policy key now').2 now'

theorem LimiterRun.held (h : LimiterRun maxKeys idleTTL l now) :
    l.Held ∧ l.maxKeys = (newRateLimiter maxKeys idleTTL).maxKeys := by
  induction h with
  | new now => exact ⟨newRateLimiter_held maxKeys idleTTL, rfl⟩
  | @take l _ now' order _ _ hwalks pol key ih =>
    refine ⟨ih.1.take hwalks pol key, ?_⟩
    by_cases hon : pol.Enabled
    · rw [RateLimiter.take_enabled hon]
      exact RateLimiter.counted_fields.1.trans ih.2
    · rw [RateLimiter.take_disabled hon]
      exact ih.2

/-! ## The key that is asked for -/

namespace RateLimiter

variable {stored : RateLimitBucket}

/-- A call finds the stored bucket and decides on it, in every order. -/
def Spares (l : RateLimiter) (policy : RateLimitPolicy) (key : String) (now : Time)
    (stored : RateLimitBucket) : Prop :=
  ∀ order, Walks order →
    (l.counted order now).buckets.lookup (bucketKey policy key) = some stored ∧
      (l.take order policy key now).1 =
        (decideBucket policy now (refreshed policy now (some stored))).1

/-- The cleanup finds room, or another bucket that is older. -/
def RoomOrOlder (l : RateLimiter) (now : Time) (k : String) (stored : RateLimitBucket) : Prop :=
  ((l.live now).count : Int) < l.maxKeys ∨
    ∃ k' bucket, k' ≠ k ∧ (l.live now).lookup k' = some bucket ∧ bucket.lastSeen < stored.lastSeen

theorem live_lookup (hstored : l.buckets.lookup k = some stored)
    (hseen : now - l.idleTTL ≤ stored.lastSeen) : (l.live now).lookup k = some stored := by
  have hbusy : l.idleAt now stored = false := decide_eq_false (not_lt.mpr hseen)
  rw [live, lookup_select, hstored, Option.filter_some, hbusy]
  rfl

theorem exists_walks_first {buckets : Buckets} (h : buckets.lookup k = some stored) :
    ∃ order, Walks order ∧ ∃ rest, order buckets = ⟨k, stored⟩ :: rest := by
  classical
  have hmem : (⟨k, stored⟩ : BucketEntry) ∈ buckets.entries := mem_entries_iff.mpr h
  refine ⟨fun b => if b = buckets then ⟨k, stored⟩ :: buckets.entries.erase ⟨k, stored⟩
    else b.entries, fun b => ?_, _, if_pos rfl⟩
  dsimp only
  by_cases hb : b = buckets
  · rw [if_pos hb, hb]
    exact (perm_cons_erase hmem).symm
  · rw [if_neg hb]

theorem counted_lookup_iff (h : l.Held) (hstored : l.buckets.lookup k = some stored)
    (hseen : now - l.idleTTL ≤ stored.lastSeen) :
    (∀ order, Walks order → (l.counted order now).buckets.lookup k = some stored) ↔
      l.RoomOrOlder now k stored := by
  have hlive := live_lookup hstored hseen
  constructor
  · intro hspares
    by_contra hnot
    obtain ⟨hnoroom, hnoolder⟩ := not_or.mp hnot
    obtain ⟨order, hwalks, rest, hfirst⟩ := exists_walks_first hlive
    have hkept := hspares order hwalks
    rcases counted_cases now h hwalks with
      ⟨-, hroom⟩ | ⟨-, hroom⟩ | ⟨-, e, -, holdest, -, heq⟩
    · refine hnoroom (lt_of_le_of_lt ?_ hroom)
      exact_mod_cast count_select_le _ l.buckets
    · exact hnoroom hroom
    · -- the walk starts with the key, and nothing is older
      have hperm := hwalks (l.live now)
      rw [hfirst] at hperm holdest
      have hkeys : ∀ e ∈ ⟨k, stored⟩ :: rest, e.1 ≠ "" :=
        fun e he => h.live_keys e (hperm.mem_iff.mp he)
      have hmin : ∀ e ∈ rest, stored.lastSeen ≤ e.2.lastSeen := by
        intro e he
        by_contra hlt
        have hmem := mem_entries_iff.mp (hperm.mem_iff.mp (mem_cons_of_mem _ he))
        refine hnoolder ⟨e.1, e.2, ?_, hmem, not_le.mp hlt⟩
        rintro hk
        rw [hk, hlive] at hmem
        exact hlt (le_of_eq (congrArg RateLimitBucket.lastSeen (Option.some.inj hmem)))
      rw [(oldestKey_cons hkeys).2 hmin] at holdest
      rw [heq, ← holdest, lookup_erase_eq, if_pos rfl] at hkept
      cases hkept
  · rintro hcond order hwalks
    rcases counted_cases now h hwalks with
      ⟨heq, -⟩ | ⟨heq, -⟩ | ⟨hfull, e, he, -, hmin, heq⟩
    · rw [heq]
      exact hstored
    · rw [heq]
      exact hlive
    · rcases hcond with hroom | ⟨k', bucket, -, hk', holder⟩
      · omega
      · rw [heq, lookup_erase_eq, if_neg, hlive]
        rintro rfl
        have hsame := mem_entries_iff.mp he
        rw [hlive] at hsame
        have hle := hmin ⟨k', bucket⟩ (mem_entries_iff.mpr hk')
        rw [← Option.some.inj hsame] at hle
        exact absurd holder (not_lt.mpr hle)

theorem spares_iff {policy : RateLimitPolicy} (h : l.Held)
    (hon : policy.Enabled) (hstored : l.buckets.lookup (bucketKey policy key) = some stored)
    (hseen : now - l.idleTTL ≤ stored.lastSeen) :
    l.Spares policy key now stored ↔ l.RoomOrOlder now (bucketKey policy key) stored := by
  rw [← counted_lookup_iff h hstored hseen]
  refine forall₂_congr fun order _ => and_iff_left_of_imp fun hfound => ?_
  rw [take_enabled hon, hfound]

end RateLimiter

/-- **The limiter at capacity.** No call leaves more than `maxKeys` buckets. A bucket that was seen
within `idleTTL` is decided on exactly if the cleanup finds room without it. -/
theorem limiter_capacity_iff (hrun : LimiterRun maxKeys idleTTL l now) :
    (l.buckets.count : Int) ≤ (newRateLimiter maxKeys idleTTL).maxKeys ∧
      ∀ (policy : RateLimitPolicy) (key : String) (now' : Time) (stored : RateLimitBucket),
        policy.Enabled → now ≤ now' → l.buckets.lookup (bucketKey policy key) = some stored →
        now' - l.idleTTL ≤ stored.lastSeen →
          (l.Spares policy key now' stored ↔ l.RoomOrOlder now' (bucketKey policy key) stored) := by
  obtain ⟨hheld, hmax⟩ := hrun.held
  refine ⟨hmax ▸ hheld.count_le, fun policy key now' stored hon _ hstored hseen => ?_⟩
  exact RateLimiter.spares_iff hheld hon hstored hseen

/-- A strict limit. -/
def onePerMinute : RateLimitPolicy := ⟨"installation", 1, 1⟩

/-- A full limiter. -/
def twoKeys : RateLimiter :=
  let l := (newRateLimiter 2 0).take (·.entries) onePerMinute "phone" second
  (l.2.take (·.entries) onePerMinute "tablet" (2 * second)).2

theorem twoKeys_run : LimiterRun 2 0 twoKeys (2 * second) :=
  .take (.take (.new second) le_rfl (fun _ => .refl _) _ _) (by decide) (fun _ => .refl _) _ _

theorem twoKeys_within_capacity :
    LimiterRun 2 0 twoKeys (2 * second) ∧ (twoKeys.buckets.count : Int) ≤ 2 :=
  ⟨twoKeys_run, (limiter_capacity_iff twoKeys_run).1⟩

/-- The phone's bucket is the oldest: the next request evicts it and is allowed. -/
theorem full_limiter_forgets :
    LimiterRun 2 0 twoKeys (2 * second) ∧
      twoKeys.buckets.lookup (bucketKey onePerMinute "phone") = some ⟨0, second, second, 0⟩ ∧
      (decideBucket onePerMinute (3 * second)
        (refreshed onePerMinute (3 * second) (some ⟨0, second, second, 0⟩))).1.allowed = false ∧
      (twoKeys.take (·.entries) onePerMinute "phone" (3 * second)).1.allowed = true := by
  refine ⟨twoKeys_run, ?_, ?_, ?_⟩
  · decide +kernel
  · decide +kernel
  · decide +kernel

end Ferventio
