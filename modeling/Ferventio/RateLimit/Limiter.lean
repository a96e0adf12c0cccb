import Mathlib.Data.Rat.Floor
import Ferventio.Lib.TokenBucket
import Ferventio.RateLimit.Config

/-!
# The rate limiter

`rateLimiter` of `rate_limit.go`: token buckets by policy and key, refilled when they are used, with
exact token counts in place of `float64`. Every 256th operation deletes the buckets that have been
idle for longer than `idleTTL`, and a key without a bucket starts with a full one.
-/

namespace Ferventio

open Strings

/-! ## The code -/

/-- What a call decides. -/
structure RateLimitDecision where
  allowed : Bool := false
  retryAfter : Duration := 0
  limit : Int := 0
  remaining : Int := 0
  audit : Bool := false
deriving DecidableEq

/-- The tokens of a key. -/
structure RateLimitBucket where
  tokens : ℚ
  updatedAt : Time
  lastSeen : Time
  lastBlockedAudit : Time := 0
deriving DecidableEq

/-- The map of buckets. -/
abbrev Buckets := Table String RateLimitBucket

/-- A key and its bucket. -/
abbrev BucketEntry := Row String RateLimitBucket

/-- The limiter. -/
structure RateLimiter where
  buckets : Buckets := ∅
  maxKeys : Int
  idleTTL : Duration
  operations : Nat := 0

/-- How often a block is logged. -/
def rateLimitAuditInterval : Duration := minute

/-- A new limiter, with defaults. -/
def newRateLimiter (maxKeys : Int) (idleTTL : Duration) : RateLimiter where
  maxKeys := if maxKeys ≤ 0 then 50000 else maxKeys
  idleTTL := if idleTTL ≤ 0 then 30 * minute else idleTTL

/-- The bucket seen least recently, in the order of the walk. -/
def oldestKey : List BucketEntry → String → Time → String
  | [], key, _ => key
  | ⟨key', bucket⟩ :: rest, key, oldest =>
    if key = "" ∨ bucket.lastSeen < oldest then oldestKey rest key' bucket.lastSeen
    else oldestKey rest key oldest

section Order

-- the order in which Go walks a map
variable (order : Buckets → List BucketEntry)

/-- The loop that makes room, once for each bucket at most. -/
def evictOldest (maxKeys : Int) : Nat → Buckets → Buckets
  | 0, buckets => buckets
  | fuel + 1, buckets =>
    if (buckets.count : Int) < maxKeys then buckets
    else
      let key := oldestKey (order buckets) "" 0
      if key = "" then buckets else evictOldest maxKeys fuel (buckets.erase key)

/-- Delete idle buckets, then the oldest. -/
def RateLimiter.cleanupLocked (l : RateLimiter) (now : Time) : RateLimiter :=
  let cutoff := now - l.idleTTL
  let buckets := l.buckets.select fun _ bucket => !(bucket.lastSeen < cutoff)
  { l with buckets := evictOldest order l.maxKeys buckets.count buckets }

/-- The key of a bucket. -/
def bucketKey (policy : RateLimitPolicy) (key : String) : String :=
  let key := trimSpace key
  policy.name ++ "\x00" ++ if key = "" then "unknown" else key

/-- Tokens for a second. -/
def RateLimitPolicy.ratePerSecond (policy : RateLimitPolicy) : ℚ := policy.perMinute / 60

/-- `Seconds`. -/
def seconds (d : Duration) : ℚ := d / second

/-- The bucket before a token is taken. -/
def refreshed (policy : RateLimitPolicy) (now : Time) : Option RateLimitBucket → RateLimitBucket
  | none => { tokens := policy.burst, updatedAt := now, lastSeen := now }
  | some bucket =>
    if bucket.updatedAt < now then
      { bucket with
        tokens := min policy.burst
          (bucket.tokens + seconds (now - bucket.updatedAt) * policy.ratePerSecond)
        updatedAt := now
        lastSeen := now }
    else { bucket with lastSeen := now }

/-- The decision on a refreshed bucket, and the bucket after it. -/
def decideBucket (policy : RateLimitPolicy) (now : Time) (bucket : RateLimitBucket) :
    RateLimitDecision × RateLimitBucket :=
  if 1 ≤ bucket.tokens then
    ({ allowed := true, limit := policy.perMinute, remaining := ⌊bucket.tokens - 1⌋ },
      { bucket with tokens := bucket.tokens - 1 })
  else
    let missing := 1 - bucket.tokens
    let retryAfter := ⌈missing / policy.ratePerSecond * second⌉
    let audit := bucket.lastBlockedAudit = 0 ∨
      rateLimitAuditInterval ≤ now - bucket.lastBlockedAudit
    ({ limit := policy.perMinute, retryAfter := max retryAfter second, audit },
      { bucket with lastBlockedAudit := if audit then now else bucket.lastBlockedAudit })

/-- After the operation is counted, with 64 bits, and a cleanup that is due. -/
def RateLimiter.counted (l : RateLimiter) (now : Time) : RateLimiter :=
  let l := { l with operations := (l.operations + 1) % 2 ^ 64 }
  if l.operations % 256 = 0 ∨ l.maxKeys ≤ l.buckets.count then l.cleanupLocked order now else l

/-- `take` of a limiter; a server without one allows everything. -/
def RateLimiter.take (policy : RateLimitPolicy) (key : String) (now : Time) (l : RateLimiter) :
    RateLimitDecision × RateLimiter :=
  if policy.perMinute ≤ 0 ∨ policy.burst ≤ 0 then ({ allowed := true }, l)
  else
    let l := l.counted order now
    let key := bucketKey policy key
    let (decision, bucket) := decideBucket policy now (refreshed policy now (l.buckets.lookup key))
    (decision, { l with buckets := l.buckets.insert key bucket })

end Order

/-! ## One key -/

/-- The tokens that flow in, for each nanosecond. -/
def RateLimitPolicy.rate (policy : RateLimitPolicy) : ℚ := policy.perMinute / 60 / second

theorem seconds_mul_ratePerSecond (pol : RateLimitPolicy) (d : Duration) :
    seconds d * pol.ratePerSecond = pol.rate * d := by
  unfold seconds RateLimitPolicy.ratePerSecond RateLimitPolicy.rate
  ring

/-- The limit is in force. -/
structure RateLimitPolicy.Enabled (policy : RateLimitPolicy) : Prop where
  perMinute : 0 < policy.perMinute
  burst : 0 < policy.burst

theorem RateLimitPolicy.Enabled.rate_nonneg {pol : RateLimitPolicy} (h : pol.Enabled) :
    0 ≤ pol.rate := by
  have hperMinute : (0 : ℚ) < pol.perMinute := by exact_mod_cast h.perMinute
  unfold RateLimitPolicy.rate second
  positivity

/-- From `now` on the row holds the tokens of the bucket `s`. -/
structure Simulates (policy : RateLimitPolicy) (now : Time) (row : Option RateLimitBucket)
    (s : TokenBucket.State ℚ) : Prop where
  tokens : ∀ t, now ≤ t →
    (refreshed policy t row).tokens = TokenBucket.refill (policy.burst : ℚ) policy.rate s t
  row : ∀ {bucket}, row = some bucket →
    0 ≤ bucket.tokens ∧ bucket.updatedAt = bucket.lastSeen ∧ bucket.lastSeen ≤ now

namespace Simulates

variable {pol : RateLimitPolicy} {now t : Time} {row : Option RateLimitBucket}
  {s : TokenBucket.State ℚ}

theorem mono (h : Simulates pol now row s) (ht : now ≤ t) : Simulates pol t row s where
  tokens t' ht' := h.tokens t' (ht.trans ht')
  row hrow := ⟨(h.row hrow).1, (h.row hrow).2.1, (h.row hrow).2.2.trans ht⟩

theorem full (hon : pol.Enabled) (now : Time) : Simulates pol now none ⟨pol.burst, now⟩ where
  tokens t ht := by
    have hflow : 0 ≤ pol.rate * ((t : ℚ) - now) := by
      have hlater : (now : ℚ) ≤ t := by exact_mod_cast ht
      exact mul_nonneg hon.rate_nonneg (sub_nonneg.mpr hlater)
    have hfull : (pol.burst : ℚ) ≤ pol.burst + pol.rate * ((t : ℚ) - now) := by linarith
    exact (min_eq_left hfull).symm
  row hrow := by cases hrow

theorem refreshed_times (h : Simulates pol now row s) :
    (refreshed pol now row).updatedAt = now ∧ (refreshed pol now row).lastSeen = now := by
  cases row with
  | none => exact ⟨rfl, rfl⟩
  | some bucket =>
    obtain ⟨-, hsame, hle⟩ := h.row rfl
    simp only [refreshed]
    split_ifs with hlater
    · exact ⟨rfl, rfl⟩
    · have heq : bucket.updatedAt = now := le_antisymm (hsame.le.trans hle) (not_lt.mp hlater)
      exact ⟨heq, rfl⟩

theorem stored {bucket : RateLimitBucket} (hnonneg : 0 ≤ bucket.tokens)
    (hburst : bucket.tokens ≤ pol.burst) (hupd : bucket.updatedAt = now)
    (hseen : bucket.lastSeen = now) : Simulates pol now (some bucket) ⟨bucket.tokens, now⟩ where
  tokens t ht := by
    simp only [refreshed]
    split_ifs with hlater
    · simp only [seconds_mul_ratePerSecond, hupd]
      push_cast
      rfl
    · have heq : t = now := le_antisymm (hupd ▸ not_lt.mp hlater) ht
      rw [heq]
      exact (TokenBucket.refill_self (s := ⟨bucket.tokens, (now : ℚ)⟩) hburst).symm
  row hrow := by
    cases hrow
    exact ⟨hnonneg, hupd.trans hseen.symm, hseen.le⟩

/-- **A request** is decided as by the token bucket, and leaves its tokens. -/
theorem decided (hon : pol.Enabled) (h : Simulates pol now row s) (hlevel : 0 ≤ s.level)
    (htime : s.time ≤ now) :
    (decideBucket pol now (refreshed pol now row)).1.allowed =
        (TokenBucket.take (pol.burst : ℚ) pol.rate s now).1 ∧
      Simulates pol now (some (decideBucket pol now (refreshed pol now row)).2)
        (TokenBucket.take (pol.burst : ℚ) pol.rate s now).2 := by
  have htoks := h.tokens now le_rfl
  obtain ⟨hupd, hseen⟩ := h.refreshed_times
  have hburst : (0 : ℚ) ≤ pol.burst := by exact_mod_cast hon.burst.le
  have hnonneg := TokenBucket.refill_nonneg hburst hon.rate_nonneg hlevel htime
  have hle : (refreshed pol now row).tokens ≤ pol.burst := by
    rw [htoks]
    exact TokenBucket.refill_le_burst
  rw [← htoks] at hnonneg
  unfold decideBucket TokenBucket.take
  dsimp only
  rw [← htoks]
  by_cases hgrant : 1 ≤ (refreshed pol now row).tokens
  · rw [if_pos hgrant, if_pos hgrant]
    refine ⟨rfl, stored ?_ ?_ hupd hseen⟩
    · exact sub_nonneg.mpr hgrant
    · exact (sub_le_self _ zero_le_one).trans hle
  · rw [if_neg hgrant, if_neg hgrant]
    exact ⟨rfl, stored hnonneg hle hupd hseen⟩

/-- Deleting a bucket that would be full is harmless. -/
theorem cleaned (hon : pol.Enabled) (h : Simulates pol now row s) (ht : now ≤ t)
    {idle : RateLimitBucket → Bool}
    (hidle : ∀ bucket, row = some bucket → idle bucket →
      (pol.burst : ℚ) ≤ pol.rate * (t - bucket.lastSeen)) :
    Simulates pol t (row.filter fun bucket => !idle bucket) s := by
  cases row with
  | none => exact h.mono ht
  | some bucket =>
    by_cases hdel : idle bucket
    · have hfull := hidle bucket rfl hdel
      obtain ⟨hnonneg, hsame, -⟩ := h.row rfl
      have hburst : (0 : ℚ) < pol.burst := by exact_mod_cast hon.burst
      rw [Option.filter_some, hdel, Bool.not_true, if_neg Bool.false_ne_true]
      refine ⟨fun t' ht' => ?_, fun hrow => by cases hrow⟩
      have hlater : (bucket.lastSeen : ℚ) < t := by
        by_contra hnot
        have hnegative : pol.rate * ((t : ℚ) - bucket.lastSeen) ≤ 0 :=
          mul_nonpos_of_nonneg_of_nonpos hon.rate_nonneg (by linarith [not_lt.mp hnot])
        linarith
      have hcast : (t : ℚ) ≤ t' := by exact_mod_cast ht'
      have hflow : pol.rate * ((t : ℚ) - bucket.lastSeen) ≤
          pol.rate * ((t' : ℚ) - bucket.lastSeen) :=
        mul_le_mul_of_nonneg_left (by linarith) hon.rate_nonneg
      have hseen : bucket.lastSeen < t' := by exact_mod_cast hlater.trans_le hcast
      rw [← h.tokens t' (ht.trans ht')]
      simp only [refreshed, hsame, if_pos hseen, seconds_mul_ratePerSecond]
      push_cast
      exact (min_eq_left (by linarith)).symm
    · rw [Bool.not_eq_true] at hdel
      rw [Option.filter_some, hdel, Bool.not_false, if_pos rfl]
      exact h.mono ht

end Simulates

/-! ## The limiter -/

section Order

variable {order : Buckets → List BucketEntry}

theorem evictOldest_of_room {maxKeys : Int} {buckets : Buckets}
    (h : (buckets.count : Int) < maxKeys)
    (fuel : Nat) : evictOldest order maxKeys fuel buckets = buckets := by
  cases fuel with
  | zero => rfl
  | succ => rw [evictOldest, if_pos h]

namespace RateLimiter

variable {l : RateLimiter} {now : Time} {k : String}

/-- The bucket is idle. -/
def idleAt (l : RateLimiter) (now : Time) (bucket : RateLimitBucket) : Bool :=
  bucket.lastSeen < now - l.idleTTL

theorem counted_lookup (hroom : (l.buckets.count : Int) < l.maxKeys) :
    (l.counted order now).buckets.lookup k =
      if (l.operations + 1) % 2 ^ 64 % 256 = 0 then
        (l.buckets.lookup k).filter fun bucket => !l.idleAt now bucket
      else l.buckets.lookup k := by
  have hselected : ∀ p : String → RateLimitBucket → Bool,
      ((l.buckets.select p).count : Int) < l.maxKeys := by
    intro p
    have hle : ((l.buckets.select p).count : Int) ≤ l.buckets.count := by
      exact_mod_cast Table.count_select_le p l.buckets
    exact hle.trans_lt hroom
  unfold counted
  dsimp only
  by_cases hdue : (l.operations + 1) % 2 ^ 64 % 256 = 0
  · rw [if_pos (.inl hdue), if_pos hdue]
    unfold cleanupLocked
    dsimp only
    rw [evictOldest_of_room (hselected _), Table.lookup_select]
    rfl
  · rw [if_neg (not_or.mpr ⟨hdue, not_le.mpr hroom⟩), if_neg hdue]

theorem counted_fields : (l.counted order now).maxKeys = l.maxKeys ∧
    (l.counted order now).idleTTL = l.idleTTL ∧
    (l.counted order now).operations = (l.operations + 1) % 2 ^ 64 := by
  unfold counted
  dsimp only
  split_ifs
  · exact ⟨rfl, rfl, rfl⟩
  · exact ⟨rfl, rfl, rfl⟩

theorem counted_keys (hroom : (l.buckets.count : Int) < l.maxKeys)
    (h : (l.counted order now).buckets.lookup k ≠ none) : l.buckets.lookup k ≠ none := by
  rw [counted_lookup hroom] at h
  intro hnone
  rw [hnone, Option.filter_none, ite_self] at h
  exact h rfl

theorem take_disabled {pol : RateLimitPolicy} (h : ¬pol.Enabled) (key : String) :
    l.take order pol key now = ({ allowed := true }, l) := by
  unfold RateLimiter.take
  rw [if_pos]
  by_contra hnot
  rw [not_or, not_le, not_le] at hnot
  exact h ⟨hnot.1, hnot.2⟩

theorem take_enabled {pol : RateLimitPolicy} (h : pol.Enabled) (key : String) :
    l.take order pol key now =
      let decided := decideBucket pol now
        (refreshed pol now ((l.counted order now).buckets.lookup (bucketKey pol key)))
      (decided.1, { l.counted order now with
        buckets := (l.counted order now).buckets.insert (bucketKey pol key) decided.2 }) := by
  unfold RateLimiter.take
  rw [if_neg]
  rw [not_or, not_le, not_le]
  exact ⟨h.perMinute, h.burst⟩

end RateLimiter

end Order

end Ferventio
