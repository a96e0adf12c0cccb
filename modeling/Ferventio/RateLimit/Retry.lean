import Ferventio.RateLimit.Limiter

/-!
# The advertised retry time

A blocked request is told how many seconds to wait: `enforceRateLimit` of `rate_limit.go` rounds the
time up for the header `Retry-After`, `authenticatePushSocket` of `push_socket.go` rounds it to the
nearest second for the text of its error.

* **`advertised_wait_iff`**: when both times are long enough.
-/

namespace Ferventio

/-! ## The code -/

/-- `Round`. -/
def Duration.round (d m : Duration) : Duration :=
  if m ≤ 0 then d
  else
    let r := Int.tmod d m
    if d < 0 then if -r + -r < m then d - r else d - m - r
    else if r + r < m then d - r else d + m - r

/-- The seconds in the header of `enforceRateLimit`. -/
def headerRetrySeconds (retryAfter : Duration) : Int :=
  let retrySeconds := ⌈seconds retryAfter⌉
  if retrySeconds < 1 then 1 else retrySeconds

/-- The seconds in the error of `authenticatePushSocket`. -/
def socketRetrySeconds (retryAfter : Duration) : Int :=
  let retrySeconds := ⌊seconds (Duration.round retryAfter second)⌋
  if retrySeconds < 1 then 1 else retrySeconds

/-! ## When a blocked bucket has a token -/

section Bucket

variable {policy : RateLimitPolicy} {bucket : RateLimitBucket}

/-- The nanoseconds in which the missing part of a token flows in. -/
def missingTime (policy : RateLimitPolicy) (bucket : RateLimitBucket) : Int :=
  ⌈(1 - bucket.tokens) / policy.ratePerSecond * second⌉

theorem decideBucket_allowed_iff {now : Time} :
    (decideBucket policy now bucket).1.allowed ↔ 1 ≤ bucket.tokens := by
  unfold decideBucket
  split_ifs with h
  · simp [h]
  · simp [h]

theorem allowed_later_iff (hon : policy.Enabled) (hblock : bucket.tokens < 1) (t : Time) :
    (decideBucket policy t (refreshed policy t (some bucket))).1.allowed ↔
      missingTime policy bucket ≤ t - bucket.updatedAt := by
  have hrate : 0 < policy.ratePerSecond := by
    have hperMinute : (0 : ℚ) < policy.perMinute := by exact_mod_cast hon.perMinute
    unfold RateLimitPolicy.ratePerSecond
    positivity
  have hsec : (0 : ℚ) < second := by norm_num [second]
  have hmiss : 0 < 1 - bucket.tokens := sub_pos.mpr hblock
  have hburst : (1 : ℚ) ≤ policy.burst := by exact_mod_cast hon.burst
  rw [decideBucket_allowed_iff, missingTime, Int.ceil_le]
  simp only [refreshed]
  by_cases hlater : bucket.updatedAt < t
  · have hflow : seconds (t - bucket.updatedAt) * policy.ratePerSecond =
        (t - bucket.updatedAt : Int) / second * policy.ratePerSecond := rfl
    rw [if_pos hlater, le_min_iff, and_iff_right hburst, hflow, ← sub_le_iff_le_add',
      ← div_le_iff₀ hrate, le_div_iff₀ hsec]
  · have hpositive : 0 < (1 - bucket.tokens) / policy.ratePerSecond * second := by positivity
    have hearly : ((t - bucket.updatedAt : Int) : ℚ) ≤ 0 := by
      exact_mod_cast sub_nonpos.mpr (not_lt.mp hlater)
    rw [if_neg hlater]
    exact ⟨fun h => absurd h (not_le.mpr hblock),
      fun h => absurd (hpositive.trans_le h) (not_lt.mpr hearly)⟩

end Bucket

/-! ## Waiting -/

section Wait

variable {order : Buckets → List BucketEntry} {l : RateLimiter}
  {policy : RateLimitPolicy} {key : String} {now : Time}

/-- The bucket on which a call decides. -/
def RateLimiter.decidesOn (order : Buckets → List BucketEntry)
    (l : RateLimiter) (policy : RateLimitPolicy) (key : String) (now : Time) : RateLimitBucket :=
  refreshed policy now ((l.counted order now).buckets.lookup (bucketKey policy key))

/-- **The wait is long enough:** a call at least `wait` seconds later is allowed, by any limiter
that has kept the bucket. -/
def WaitSuffices (order : Buckets → List BucketEntry)
    (l : RateLimiter) (policy : RateLimitPolicy) (key : String) (now : Time) (wait : Int) : Prop :=
  ∀ order' (l' : RateLimiter) (t : Time),
    (l'.counted order' t).buckets.lookup (bucketKey policy key) =
      (l.take order policy key now).2.buckets.lookup (bucketKey policy key) →
    now + wait * second ≤ t → (l'.take order' policy key t).1.allowed

theorem take_blocked (hon : policy.Enabled)
    (hblock : (l.take order policy key now).1.allowed = false) :
    (l.decidesOn order policy key now).tokens < 1 ∧
      (l.take order policy key now).1.retryAfter =
        max (missingTime policy (l.decidesOn order policy key now)) second ∧
      ∃ audited, (l.take order policy key now).2.buckets.lookup (bucketKey policy key) =
        some { l.decidesOn order policy key now with lastBlockedAudit := audited } := by
  have htoks : ¬1 ≤ (l.decidesOn order policy key now).tokens := by
    intro h
    rw [RateLimiter.take_enabled hon] at hblock
    exact absurd (decideBucket_allowed_iff.mpr h) (by rw [RateLimiter.decidesOn, hblock]; decide)
  refine ⟨not_le.mp htoks, ?_⟩
  rw [RateLimiter.take_enabled hon]
  unfold RateLimiter.decidesOn at htoks ⊢
  dsimp only
  rw [AList.lookup_insert, decideBucket, if_neg htoks]
  exact ⟨rfl, _, rfl⟩

/-- **How long a blocked client has to wait.** -/
theorem waitSuffices_iff (hon : policy.Enabled)
    (hblock : (l.take order policy key now).1.allowed = false) (wait : Int) :
    WaitSuffices order l policy key now wait ↔
      missingTime policy (l.decidesOn order policy key now) +
        ((l.decidesOn order policy key now).updatedAt - now) ≤ wait * second := by
  obtain ⟨htoks, -, audited, hleft⟩ := take_blocked hon hblock
  generalize hbucket : ({ l.decidesOn order policy key now with
    lastBlockedAudit := audited } : RateLimitBucket) = bucket at hleft
  have hsame : bucket.tokens = (l.decidesOn order policy key now).tokens ∧
      bucket.updatedAt = (l.decidesOn order policy key now).updatedAt := by
    rw [← hbucket]
    exact ⟨rfl, rfl⟩
  have hmiss : missingTime policy (l.decidesOn order policy key now) =
      missingTime policy bucket := by
    rw [missingTime, missingTime, hsame.1]
  have hlater := allowed_later_iff hon (hsame.1 ▸ htoks)
  rw [hmiss, ← hsame.2]
  constructor
  · intro h
    -- another limiter that has nothing but this bucket
    have hroom : (Table.count (AList.insert (bucketKey policy key) bucket ∅ : Buckets) : Int) < 2 :=
      (Int.ofNat_le.mpr (Table.count_insert_le ∅ (bucketKey policy key) bucket)).trans_lt
        (by decide)
    have hkept : ((RateLimiter.mk (AList.insert (bucketKey policy key) bucket ∅) 2 0 0).counted
        (fun b => b.entries) (now + wait * second)).buckets.lookup (bucketKey policy key) =
          some bucket := by
      have hnotDue : ¬(0 + 1) % 2 ^ 64 % 256 = 0 := by decide
      rw [RateLimiter.counted_lookup hroom, if_neg hnotDue, AList.lookup_insert]
    have hok := h (fun b => b.entries) _ (now + wait * second) (hkept.trans hleft.symm) le_rfl
    rw [RateLimiter.take_enabled hon] at hok
    dsimp only at hok
    rw [hkept, hlater] at hok
    have hle : (missingTime policy bucket : Int) ≤ now + wait * second - bucket.updatedAt := hok
    omega
  · intro h order' l' t hrow ht
    rw [RateLimiter.take_enabled hon]
    dsimp only
    rw [hrow, hleft, hlater]
    linarith

/-! ## The two roundings -/

theorem le_headerRetrySeconds (d : Duration) : d ≤ headerRetrySeconds d * second := by
  have hsec : (0 : ℚ) < second := by norm_num [second]
  have hceil : d ≤ ⌈seconds d⌉ * second := by
    have hle : (d : ℚ) / second ≤ ⌈seconds d⌉ := Int.le_ceil _
    generalize ⌈seconds d⌉ = n at hle ⊢
    rw [div_le_iff₀ hsec] at hle
    exact_mod_cast hle
  unfold headerRetrySeconds
  dsimp only
  split_ifs with hsmall
  · refine hceil.trans (mul_le_mul_of_nonneg_right hsmall.le ?_)
    decide
  · exact hceil

theorem socketRetrySeconds_eq {d : Duration} (hd : second ≤ d) :
    socketRetrySeconds d = if 2 * (d % second) < second then d / second else d / second + 1 := by
  have hsec : (0 : Int) < second := by decide
  have hpos : (0 : Int) ≤ d := hsec.le.trans hd
  have hone : 1 ≤ d / second := Int.le_ediv_of_mul_le hsec (by linarith)
  have hdiv : second * (d / second) + d % second = d := Int.mul_ediv_add_emod d second
  have hfloor : ∀ n : Int, ⌊seconds (n * second)⌋ = n := by
    intro n
    have hne : (second : ℚ) ≠ 0 := by norm_num [second]
    rw [seconds, Int.cast_mul, mul_div_cancel_right₀ _ hne, Int.floor_intCast]
  have hround : Duration.round d second =
      (if 2 * (d % second) < second then d / second else d / second + 1) * second := by
    rw [Duration.round, if_neg (not_le.mpr hsec)]
    dsimp only
    rw [if_neg (not_lt.mpr hpos), Int.tmod_eq_emod_of_nonneg hpos, ← two_mul]
    split_ifs
    · linarith
    · linarith
  unfold socketRetrySeconds
  dsimp only
  rw [hround, hfloor, if_neg]
  split_ifs
  · exact not_lt.mpr hone
  · exact not_lt.mpr (hone.trans (le_add_of_nonneg_right zero_le_one))

theorem le_rounded_iff {d missing lag : Int} (hd : d = max missing 1000000000) (hlag : 0 ≤ lag) :
    missing + lag ≤ (if 2 * (d % 1000000000) < 1000000000 then d / 1000000000
        else d / 1000000000 + 1) * 1000000000 ↔
      missing + lag ≤ 1000000000 ∨ missing % 1000000000 = 0 ∧ lag = 0 ∨
        1000000000 ≤ 2 * (missing % 1000000000) ∧ missing % 1000000000 + lag ≤ 1000000000 := by
  split_ifs <;> omega

theorem rounded_le {d n : Int} (hd : d ≤ n * 1000000000) :
    (if 2 * (d % 1000000000) < 1000000000 then d / 1000000000 else d / 1000000000 + 1) *
      1000000000 ≤ n * 1000000000 := by
  split_ifs <;> omega

theorem decidesOn_lag : 0 ≤ (l.decidesOn order policy key now).updatedAt - now := by
  unfold RateLimiter.decidesOn refreshed
  split
  · exact (sub_self now).ge
  · split_ifs with hlater
    · exact (sub_self now).ge
    · exact sub_nonneg.mpr (not_lt.mp hlater)

/-- **When the advertised times are long enough.** The missing part of a token flows in within a
second; or its time is a whole number of seconds, and the clock is not behind the bucket; or the
fraction of its last second is at least a half, and the clock's lag fits into the rest. The header's
time always is, with a clock that is not behind. -/
theorem advertised_wait_iff (hon : policy.Enabled)
    (hblock : (l.take order policy key now).1.allowed = false) :
    let bucket := l.decidesOn order policy key now
    let missing := missingTime policy bucket
    let lag := bucket.updatedAt - now
    (WaitSuffices order l policy key now
          (headerRetrySeconds (l.take order policy key now).1.retryAfter) ∧
        WaitSuffices order l policy key now
          (socketRetrySeconds (l.take order policy key now).1.retryAfter) ↔
      missing + lag ≤ second ∨ missing % second = 0 ∧ lag = 0 ∨
        second ≤ 2 * (missing % second) ∧ missing % second + lag ≤ second) ∧
      (lag = 0 → WaitSuffices order l policy key now
        (headerRetrySeconds (l.take order policy key now).1.retryAfter)) := by
  obtain ⟨-, hretry, -⟩ := take_blocked hon hblock
  have hlag : 0 ≤ (l.decidesOn order policy key now).updatedAt - now := decidesOn_lag
  dsimp only
  rw [waitSuffices_iff hon hblock, waitSuffices_iff hon hblock]
  generalize (l.take order policy key now).1.retryAfter = d at hretry ⊢
  generalize missingTime policy (l.decidesOn order policy key now) = missing at hretry ⊢
  generalize (l.decidesOn order policy key now).updatedAt - now = lag at hlag ⊢
  have hheader := le_headerRetrySeconds d
  have hd : second ≤ d := hretry ▸ le_max_right _ _
  have hmiss : missing ≤ d := hretry ▸ le_max_left _ _
  rw [socketRetrySeconds_eq hd]
  constructor
  · rw [and_iff_right_of_imp fun h => h.trans (rounded_le hheader)]
    exact le_rounded_iff hretry hlag
  · rintro rfl
    rw [add_zero]
    exact hmiss.trans hheader

end Wait

/-! ## Forty-two requests a minute -/

/-- A limit. -/
def fortyTwo : RateLimitPolicy := ⟨"installation", 42, 1⟩

/-- Its bucket is empty. -/
def drained : RateLimiter :=
  ((newRateLimiter 2 0).take (·.entries) fortyTwo "phone" second).2

/-- The header's two seconds are enough. -/
theorem drained_header_suffices :
    (drained.take (·.entries) fortyTwo "phone" second).1.allowed = false ∧
      WaitSuffices (·.entries) drained fortyTwo "phone" second
        (headerRetrySeconds (drained.take (·.entries) fortyTwo "phone" second).1.retryAfter) := by
  have hblock : (drained.take (·.entries) fortyTwo "phone" second).1.allowed = false := by
    decide +kernel
  refine ⟨hblock, (advertised_wait_iff ⟨?_, ?_⟩ hblock).2 ?_⟩
  · decide
  · decide
  · decide +kernel

/-- The socket says one second for 1.43. -/
theorem socket_wait_too_short :
    let blocked := drained.take (·.entries) fortyTwo "phone" second
    blocked.1.allowed = false ∧ blocked.1.retryAfter = 1428571429 ∧
      headerRetrySeconds blocked.1.retryAfter = 2 ∧ socketRetrySeconds blocked.1.retryAfter = 1 ∧
        (blocked.2.take (·.entries) fortyTwo "phone" (second + 1 * second)).1.allowed = false := by
  decide +kernel

end Ferventio
