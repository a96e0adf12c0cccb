import Ferventio.RateLimit.Limiter

/-!
# The rate limit in a window of time

In a run of the limiter, the calls for one bucket are decided as by a token bucket, as long as the
cleanup deletes the bucket only when it would be full. It does so exactly when the idle time is long
enough for an empty bucket to fill up; otherwise a key that pauses gets a second burst too early.

* **`rate_window_bound_iff`**: when no window grants more than the burst and the rate.
* **`idle_bucket_restarts`**: an idle time that is too short.
-/

namespace Ferventio

open Table List

variable {idleTTL : Duration} {pol : RateLimitPolicy} {now : Time} {keys : List String}
  {l : RateLimiter}

/-! ## Runs -/

/-- A call of the limiter. -/
structure RateLimitTake where
  policy : RateLimitPolicy
  key : String
  now : Time

/-- Its bucket. -/
def RateLimitTake.bucketKey (e : RateLimitTake) : String := Ferventio.bucketKey e.policy e.key

section Runs

variable (order : Buckets → List BucketEntry)

/-- The calls allowed in a window. -/
def allowedIn (k : String) (a b : Time) : RateLimiter → List RateLimitTake → Nat
  | _, [] => 0
  | l, e :: takes =>
    let (decision, l') := l.take order e.policy e.key e.now
    (if e.bucketKey = k ∧ decision.allowed ∧ a ≤ e.now ∧ e.now ≤ b then 1 else 0) +
      allowedIn k a b l' takes

/-- The limiter after calls. -/
def afterTakes : RateLimiter → List RateLimitTake → RateLimiter
  | l, [] => l
  | l, e :: takes => afterTakes (l.take order e.policy e.key e.now).2 takes

theorem allowedIn_append (k : String) (a b : Time) (l : RateLimiter)
    (takes takes' : List RateLimitTake) :
    allowedIn order k a b l (takes ++ takes') =
      allowedIn order k a b l takes + allowedIn order k a b (afterTakes order l takes) takes' := by
  induction takes generalizing l with
  | nil => exact (Nat.zero_add _).symm
  | cons e takes ih =>
    rw [cons_append, allowedIn, allowedIn, afterTakes]
    dsimp only
    rw [ih, Nat.add_assoc]

end Runs

/-! ## One bucket in a run -/

section Bucket

variable {order : Buckets → List BucketEntry} {k : String}
  {e : RateLimitTake} {takes : List RateLimitTake} {a b : Time} {s : TokenBucket.State ℚ}

/-- Fewer keys than there is room for, and one policy for `k`. -/
structure Fits (policy : RateLimitPolicy) (k : String) (keys : List String) (l : RateLimiter)
    (takes : List RateLimitTake) : Prop where
  bounded : (keys.dedup.length : Int) < l.maxKeys
  stored : ∀ key, l.buckets.lookup key ≠ none → key ∈ keys
  taken : ∀ e ∈ takes, e.bucketKey ∈ keys
  policy : ∀ e ∈ takes, e.bucketKey = k → e.policy = policy

theorem Fits.fewer (h : Fits pol k keys l takes) {takes' : List RateLimitTake}
    (hsub : takes' ⊆ takes) : Fits pol k keys l takes' :=
  ⟨h.bounded, h.stored, fun e he => h.taken e (hsub he), fun e he => h.policy e (hsub he)⟩

theorem Fits.room (h : Fits pol k keys l takes) : (l.buckets.count : Int) < l.maxKeys := by
  have hcount : (l.buckets.count : Int) ≤ keys.dedup.length := by
    exact_mod_cast count_le_dedup h.stored
  exact hcount.trans_lt h.bounded

theorem take_fields (l : RateLimiter) (e : RateLimitTake) :
    (l.take order e.policy e.key e.now).2.maxKeys = l.maxKeys ∧
      (l.take order e.policy e.key e.now).2.idleTTL = l.idleTTL := by
  by_cases hon : e.policy.Enabled
  · rw [RateLimiter.take_enabled hon]
    exact ⟨RateLimiter.counted_fields.1, RateLimiter.counted_fields.2.1⟩
  · rw [RateLimiter.take_disabled hon]
    exact ⟨rfl, rfl⟩

theorem Fits.after (h : Fits pol k keys l (e :: takes)) :
    Fits pol k keys (l.take order e.policy e.key e.now).2 takes where
  bounded := by
    rw [(take_fields l e).1]
    exact h.bounded
  stored := by
    intro key hkey
    by_cases hon : e.policy.Enabled
    · rw [RateLimiter.take_enabled hon] at hkey
      dsimp only at hkey
      rw [lookup_insert_eq] at hkey
      split_ifs at hkey with hsame
      · rw [hsame]
        exact h.taken e mem_cons_self
      · exact h.stored key (RateLimiter.counted_keys h.room hkey)
    · rw [RateLimiter.take_disabled hon] at hkey
      exact h.stored key hkey
  taken e' he' := h.taken e' (mem_cons_of_mem _ he')
  policy e' he' := h.policy e' (mem_cons_of_mem _ he')

variable (takes) in
theorem allowedIn_cons_self (hon : pol.Enabled) (hk : e.bucketKey = k) (hpolicy : e.policy = pol)
    (hsim : Simulates pol e.now ((l.counted order e.now).buckets.lookup k) s)
    (hlevel : 0 ≤ s.level) (htime : s.time ≤ e.now) :
    allowedIn order k a b l (e :: takes) =
        (if (TokenBucket.take (pol.burst : ℚ) pol.rate s e.now).1 ∧
            (a : ℚ) ≤ e.now ∧ (e.now : ℚ) ≤ b then 1 else 0) +
          allowedIn order k a b (l.take order e.policy e.key e.now).2 takes ∧
      Simulates pol e.now ((l.take order e.policy e.key e.now).2.buckets.lookup k)
        (TokenBucket.take (pol.burst : ℚ) pol.rate s e.now).2 := by
  obtain ⟨hok, hafter⟩ := hsim.decided hon hlevel htime
  subst hpolicy
  have hkey : bucketKey e.policy e.key = k := hk
  constructor
  · rw [allowedIn]
    dsimp only
    rw [RateLimiter.take_enabled hon, hkey]
    dsimp only
    rw [hok]
    simp only [hk, true_and, Int.cast_le]
  · rw [RateLimiter.take_enabled hon, hkey]
    dsimp only
    rw [lookup_insert_eq, if_pos rfl]
    exact hafter

theorem allowedIn_cons_other (hk : e.bucketKey ≠ k) :
    allowedIn order k a b l (e :: takes) =
      allowedIn order k a b (l.take order e.policy e.key e.now).2 takes := by
  rw [allowedIn]
  dsimp only
  rw [if_neg fun h => hk h.1, Nat.zero_add]

theorem take_lookup_other (hon : e.policy.Enabled) (hk : e.bucketKey ≠ k) :
    (l.take order e.policy e.key e.now).2.buckets.lookup k =
      (l.counted order e.now).buckets.lookup k := by
  rw [RateLimiter.take_enabled hon]
  dsimp only
  rw [lookup_insert_eq, if_neg]
  exact fun h => hk h.symm

/-- A bucket fills up before it is deleted. -/
def IdleFull (policy : RateLimitPolicy) (idleTTL : Duration) : Prop :=
  60 * second * policy.burst ≤ policy.perMinute * (idleTTL + 1)

theorem IdleFull.covers {bucket : RateLimitBucket} (h : IdleFull pol l.idleTTL)
    (hon : pol.Enabled) (hidle : l.idleAt now bucket) :
    (pol.burst : ℚ) ≤ pol.rate * (now - bucket.lastSeen) := by
  have hidle' : bucket.lastSeen < now - l.idleTTL := of_decide_eq_true hidle
  have hlong : l.idleTTL + 1 ≤ now - bucket.lastSeen := by
    have hstep := Int.add_one_le_of_lt hidle'
    linarith
  have hcast : ((l.idleTTL + 1 : Int) : ℚ) ≤ now - bucket.lastSeen := by exact_mod_cast hlong
  have hfull : (pol.burst : ℚ) ≤ pol.rate * ((l.idleTTL + 1 : Int) : ℚ) := by
    have hq : (60 * second * pol.burst : ℚ) ≤ pol.perMinute * ((l.idleTTL + 1 : Int) : ℚ) := by
      exact_mod_cast h
    have hpos : (0 : ℚ) < 60 * second := by norm_num [second]
    unfold RateLimitPolicy.rate
    rw [div_div, div_mul_eq_mul_div, le_div_iff₀ hpos, mul_comm]
    exact hq
  exact hfull.trans (mul_le_mul_of_nonneg_left hcast hon.rate_nonneg)

/-- No cleanup deletes the bucket before it is full: it fills up in time, or all calls are made at
one instant. -/
def KeepsCredit (policy : RateLimitPolicy) (idleTTL : Duration) (now : Time)
    (row : Option RateLimitBucket) (takes : List RateLimitTake) : Prop :=
  IdleFull policy idleTTL ∨
    0 ≤ idleTTL ∧ (∀ e ∈ takes, e.now = now) ∧ ∀ bucket, row = some bucket → bucket.lastSeen = now

variable (order) in
theorem Simulates.counted (hon : pol.Enabled) (hroom : (l.buckets.count : Int) < l.maxKeys)
    (hcredit : KeepsCredit pol l.idleTTL now (l.buckets.lookup k) (e :: takes))
    (hsim : Simulates pol now (l.buckets.lookup k) s) (hnow : now ≤ e.now) :
    Simulates pol e.now ((l.counted order e.now).buckets.lookup k) s := by
  rw [RateLimiter.counted_lookup hroom]
  split_ifs
  · refine hsim.cleaned hon hnow fun bucket hbucket hidle => ?_
    rcases hcredit with hfull | ⟨hidleTTL, hinstant, hseen⟩
    · exact hfull.covers hon hidle
    · have hidle' : bucket.lastSeen < e.now - l.idleTTL := of_decide_eq_true hidle
      rw [hseen bucket hbucket, hinstant e mem_cons_self] at hidle'
      linarith
  · exact hsim.mono hnow

theorem lastSeen_decided (pol : RateLimitPolicy) (now : Time) (row : Option RateLimitBucket) :
    (decideBucket pol now (refreshed pol now row)).2.lastSeen = now := by
  have hfresh : (refreshed pol now row).lastSeen = now := by
    cases row with
    | none => rfl
    | some =>
      simp only [refreshed]
      split_ifs
      · rfl
      · rfl
  unfold decideBucket
  split_ifs
  · exact hfresh
  · exact hfresh

variable (order) in
theorem KeepsCredit.after (h : KeepsCredit pol l.idleTTL now (l.buckets.lookup k) (e :: takes))
    (hroom : (l.buckets.count : Int) < l.maxKeys) :
    KeepsCredit pol (l.take order e.policy e.key e.now).2.idleTTL e.now
      ((l.take order e.policy e.key e.now).2.buckets.lookup k) takes := by
  rw [(take_fields l e).2]
  rcases h with hfull | ⟨hidleTTL, hinstant, hseen⟩
  · exact .inl hfull
  · have hnow : e.now = now := hinstant e mem_cons_self
    refine .inr ⟨hidleTTL, fun e' he' => ?_, fun bucket hbucket => ?_⟩
    · rw [hinstant e' (mem_cons_of_mem _ he'), hnow]
    · by_cases hon : e.policy.Enabled
      · rw [RateLimiter.take_enabled hon] at hbucket
        dsimp only at hbucket
        rw [lookup_insert_eq] at hbucket
        split_ifs at hbucket
        · cases hbucket
          exact lastSeen_decided _ _ _
        · rw [RateLimiter.counted_lookup hroom] at hbucket
          rw [hnow]
          split_ifs at hbucket
          · exact hseen bucket (Option.filter_eq_some_iff.mp hbucket).1
          · exact hseen bucket hbucket
      · rw [RateLimiter.take_disabled hon] at hbucket
        rw [hnow]
        exact hseen bucket hbucket

/-- The times of the calls on a key. -/
def timesOf (k : String) (takes : List RateLimitTake) : List ℚ :=
  (takes.filter (·.bucketKey = k)).map fun e => (e.now : ℚ)

variable (order) in
/-- **A run of the limiter** allows for a bucket what the token bucket grants. -/
theorem allowedIn_eq_grants (hon : pol.Enabled) (hfits : Fits pol k keys l takes)
    (hcredit : KeepsCredit pol l.idleTTL now (l.buckets.lookup k) takes)
    (hsim : Simulates pol now (l.buckets.lookup k) s) (hlevel : 0 ≤ s.level)
    (htime : s.time ≤ now) (hsort : (now :: takes.map (·.now)).Pairwise (· ≤ ·)) :
    allowedIn order k a b l takes =
      TokenBucket.grants (pol.burst : ℚ) pol.rate a b s (timesOf k takes) := by
  induction takes generalizing l now s with
  | nil => rfl
  | cons e takes ih =>
    rw [map_cons, pairwise_cons] at hsort
    have hnow : now ≤ e.now := hsort.1 e.now mem_cons_self
    have hcast : (now : ℚ) ≤ e.now := by exact_mod_cast hnow
    have hcounted := hsim.counted order hon hfits.room hcredit hnow
    have hcredit' := hcredit.after order hfits.room
    by_cases hk : e.bucketKey = k
    · have hpolicy := hfits.policy e mem_cons_self hk
      obtain ⟨hcount, hsim'⟩ := allowedIn_cons_self takes (a := a) (b := b) hon hk
        hpolicy hcounted hlevel (htime.trans hcast)
      have hburst : (0 : ℚ) ≤ pol.burst := by exact_mod_cast hon.burst.le
      have hlevel' := TokenBucket.take_level_nonneg hburst hon.rate_nonneg hlevel
        (htime.trans hcast)
      have hrest := ih hfits.after hcredit' hsim' hlevel' TokenBucket.take_time.le hsort.2
      rw [hcount, hrest]
      simp only [timesOf, filter_cons, hk, decide_true, if_true, map_cons, TokenBucket.grants_cons]
    · have hsim' : Simulates pol e.now
          ((l.take order e.policy e.key e.now).2.buckets.lookup k) s := by
        by_cases hother : e.policy.Enabled
        · rw [take_lookup_other hother hk]
          exact hcounted
        · rw [RateLimiter.take_disabled hother]
          exact hsim.mono hnow
      rw [allowedIn_cons_other hk, ih hfits.after hcredit' hsim' hlevel (htime.trans hcast) hsort.2]
      simp only [timesOf, filter_cons, hk, decide_false, Bool.false_eq_true, if_false]

end Bucket

/-! ## The bound -/

section Bound

variable (order : Buckets → List BucketEntry)

/-- A window from `a` to `b` allows at most the burst and what flows in, while there is room for all
keys. -/
def WindowBound (config : LoadedRateLimitConfig) (policy : RateLimitPolicy) : Prop :=
  ∀ (takes : List RateLimitTake) (k : String) (a b : Time),
    (takes.map (·.now)).Pairwise (· ≤ ·) →
    ((takes.map (·.bucketKey)).dedup.length : Int) < config.maxKeys →
    (∀ e ∈ takes, e.bucketKey = k → e.policy = policy) → a ≤ b →
    (allowedIn order k a b (newRateLimiter config.maxKeys config.idleTTL) takes : ℚ) ≤
      policy.burst + policy.perMinute * seconds (b - a) / 60

variable {order} {config : LoadedRateLimitConfig}

theorem newRateLimiter_fields (hbdd : config.Bounded) :
    newRateLimiter config.maxKeys config.idleTTL =
      { maxKeys := config.maxKeys, idleTTL := config.idleTTL } := by
  have hkeys : ¬config.maxKeys ≤ 0 := by
    have hle := hbdd.maxKeys.1
    linarith
  have hidle : ¬config.idleTTL ≤ 0 := by
    have hle := hbdd.idleTTL.1
    have hminute : 0 < minute := by decide
    exact not_le.mpr (hminute.trans_le hle)
  rw [newRateLimiter, if_neg hkeys, if_neg hidle]

theorem rate_mul_eq (pol : RateLimitPolicy) (a b : Time) :
    pol.rate * ((b : ℚ) - a) = pol.perMinute * seconds (b - a) / 60 := by
  unfold RateLimitPolicy.rate seconds
  push_cast
  ring

theorem fits_new {takes : List RateLimitTake} {k : String} (hbdd : config.Bounded)
    (hkeys : ((takes.map (·.bucketKey)).dedup.length : Int) < config.maxKeys)
    (hpolicy : ∀ e ∈ takes, e.bucketKey = k → e.policy = pol) :
    Fits pol k (takes.map (·.bucketKey)) (newRateLimiter config.maxKeys config.idleTTL)
      takes := by
  rw [newRateLimiter_fields hbdd]
  refine ⟨hkeys, fun key hkey => ?_, fun e he => mem_map_of_mem he, hpolicy⟩
  exact absurd (lookup_empty key) hkey

theorem windowBound_of_idleFull (hbdd : config.Bounded) (hon : pol.Enabled)
    (hfull : IdleFull pol config.idleTTL) : WindowBound order config pol := by
  intro takes k a b hsort hkeys hpolicy hab
  have hburst : (0 : ℚ) ≤ pol.burst := by exact_mod_cast hon.burst.le
  -- the token bucket starts full at the time of the first call
  obtain ⟨start, hstart⟩ : ∃ start, (start :: takes.map (·.now)).Pairwise (· ≤ ·) := by
    cases takes with
    | nil => exact ⟨0, pairwise_singleton _ _⟩
    | cons e =>
      refine ⟨e.now, pairwise_cons.mpr ⟨fun t ht => ?_, hsort⟩⟩
      rcases mem_cons.mp ht with rfl | ht
      · exact le_rfl
      · exact (pairwise_cons.mp hsort).1 t ht
  have hnew := newRateLimiter_fields hbdd
  have hrun := allowedIn_eq_grants order (a := a) (b := b) hon
    (fits_new hbdd hkeys hpolicy) (s := ⟨pol.burst, start⟩)
    (by rw [hnew]; exact .inl hfull)
    (by rw [hnew]; exact Simulates.full hon start) hburst le_rfl hstart
  have htimes : ((start : ℚ) :: timesOf k takes).Pairwise (· ≤ ·) := by
    have hsub : (start :: (takes.filter (·.bucketKey = k)).map (·.now)).Pairwise (· ≤ ·) :=
      hstart.sublist ((filter_sublist.map _).cons_cons _)
    have hcast := hsub.map (fun t : Time => (t : ℚ)) (fun _ _ h => Int.cast_le.mpr h)
    simpa [timesOf, Function.comp_def] using hcast
  have hle := TokenBucket.grants_le (s := ⟨(pol.burst : ℚ), (start : ℚ)⟩) hburst
    hon.rate_nonneg hburst htimes (Int.cast_le.mpr hab)
  rw [hrun, ← rate_mul_eq]
  exact hle

/-! ## A short idle time -/

/-- Calls at one time. -/
def callsAt (policy : RateLimitPolicy) (n : Nat) (now : Time) : List RateLimitTake :=
  List.replicate n ⟨policy, "", now⟩

theorem timesOf_callsAt (pol : RateLimitPolicy) (n : Nat) (now : Time) :
    timesOf (bucketKey pol "") (callsAt pol n now) = List.replicate n (now : ℚ) := by
  simp [timesOf, callsAt, RateLimitTake.bucketKey]

variable {n : Nat}

theorem afterTakes_callsAt_succ (l : RateLimiter) (n : Nat) :
    afterTakes order l (callsAt pol (n + 1) now) =
      afterTakes order (l.take order pol "" now).2 (callsAt pol n now) := rfl

variable (order) in
theorem afterTakes_callsAt (hon : pol.Enabled)
    (hfits : Fits pol (bucketKey pol "") keys l (callsAt pol (n + 1) now)) :
    let l' := afterTakes order l (callsAt pol (n + 1) now)
    l'.operations = (l.operations + (n + 1)) % 2 ^ 64 ∧ l'.idleTTL = l.idleTTL ∧
      Fits pol (bucketKey pol "") keys l' [] ∧
      ∃ bucket, l'.buckets.lookup (bucketKey pol "") = some bucket ∧ bucket.lastSeen = now := by
  induction n generalizing l with
  | zero =>
    have hafter : Fits pol (bucketKey pol "") keys (l.take order pol "" now).2 [] :=
      hfits.after (e := ⟨pol, "", now⟩)
    refine ⟨?_, (take_fields l ⟨pol, "", now⟩).2, hafter, ?_⟩
    · show (l.take order pol "" now).2.operations = _
      rw [RateLimiter.take_enabled hon]
      exact RateLimiter.counted_fields.2.2
    · show ∃ bucket, (l.take order pol "" now).2.buckets.lookup _ = some bucket ∧ _
      rw [RateLimiter.take_enabled hon]
      dsimp only
      rw [lookup_insert_eq, if_pos rfl]
      exact ⟨_, rfl, lastSeen_decided _ _ _⟩
  | succ n ih =>
    have hafter : Fits pol (bucketKey pol "") keys (l.take order pol "" now).2
        (callsAt pol (n + 1) now) := hfits.after (e := ⟨pol, "", now⟩)
    have hcounted : (l.take order pol "" now).2.operations = (l.operations + 1) % 2 ^ 64 := by
      rw [RateLimiter.take_enabled hon]
      exact RateLimiter.counted_fields.2.2
    obtain ⟨hoperations, hidle, hfits', hbucket⟩ := ih hafter
    rw [afterTakes_callsAt_succ]
    refine ⟨?_, hidle.trans (take_fields l ⟨pol, "", now⟩).2, hfits', hbucket⟩
    rw [hoperations, hcounted, Nat.mod_add_mod]
    congr 1
    omega

theorem allowedIn_callsAt_full {a b : Time} (hon : pol.Enabled)
    (hfits : Fits pol (bucketKey pol "") keys l (callsAt pol n now)) (hidle : 0 ≤ l.idleTTL)
    (hgone : (l.counted order now).buckets.lookup (bucketKey pol "") = none) (ha : a ≤ now)
    (hb : now ≤ b) :
    allowedIn order (bucketKey pol "") a b l (callsAt pol n now) = min n pol.burst.toNat := by
  have hburst : ((pol.burst.toNat : Nat) : ℚ) = pol.burst := by
    exact_mod_cast Int.toNat_of_nonneg hon.burst.le
  have hinstant : TokenBucket.grants (pol.burst : ℚ) pol.rate a b ⟨pol.burst, now⟩
      (List.replicate n (now : ℚ)) = min n pol.burst.toNat := by
    rw [← hburst]
    exact TokenBucket.grants_instant (Int.cast_le.mpr ha) (Int.cast_le.mpr hb) le_rfl
  cases n with
  | zero => simp [callsAt, allowedIn]
  | succ n =>
    have hnonneg : (0 : ℚ) ≤ pol.burst := by exact_mod_cast hon.burst.le
    have hfull : Simulates pol now
        ((l.counted order now).buckets.lookup (bucketKey pol "")) ⟨pol.burst, now⟩ := by
      rw [hgone]
      exact Simulates.full hon now
    obtain ⟨hcount, hsim⟩ := allowedIn_cons_self (callsAt pol n now) (e := ⟨pol, "", now⟩)
      (a := a) (b := b) hon rfl rfl hfull hnonneg le_rfl
    have hafter : Fits pol (bucketKey pol "") keys (l.take order pol "" now).2
        (callsAt pol n now) := hfits.after (e := ⟨pol, "", now⟩)
    have hlevel := TokenBucket.take_level_nonneg (s := ⟨(pol.burst : ℚ), (now : ℚ)⟩) hnonneg
      hon.rate_nonneg hnonneg (le_refl (now : ℚ))
    have hsame : ∀ e ∈ callsAt pol n now, e.now = now := by
      intro e he
      rw [(mem_replicate.mp he).2]
    have hcredit : KeepsCredit pol (l.take order pol "" now).2.idleTTL now
        ((l.take order pol "" now).2.buckets.lookup (bucketKey pol ""))
        (callsAt pol n now) := by
      refine .inr ⟨?_, hsame, fun bucket hbucket => ?_⟩
      · rw [(take_fields l ⟨pol, "", now⟩).2]
        exact hidle
      · rw [RateLimiter.take_enabled hon] at hbucket
        dsimp only at hbucket
        rw [lookup_insert_eq, if_pos rfl] at hbucket
        cases hbucket
        exact lastSeen_decided _ _ _
    have hsort : (now :: (callsAt pol n now).map (·.now)).Pairwise (· ≤ ·) := by
      rw [callsAt, map_replicate, ← replicate_succ]
      exact pairwise_replicate.mpr (.inr le_rfl)
    have hrest := allowedIn_eq_grants order (a := a) (b := b) hon hafter hcredit hsim hlevel
      TokenBucket.take_time.le hsort
    rw [timesOf_callsAt] at hrest
    rw [← hinstant, replicate_succ, TokenBucket.grants_cons, ← hrest]
    exact hcount

/-- A burst, calls until a cleanup is due, and another burst. -/
def twoBursts (policy : RateLimitPolicy) (idleTTL : Duration) : List RateLimitTake :=
  callsAt policy (256 * policy.burst.toNat + 254 + 1) 0 ++
    callsAt policy policy.burst.toNat (idleTTL + 1)

theorem twoBursts_bucketKey :
    ∀ e ∈ twoBursts pol idleTTL, e.bucketKey = bucketKey pol "" ∧ e.policy = pol := by
  intro e he
  rcases mem_append.mp he with he | he
  · rw [(mem_replicate.mp he).2]
    exact ⟨rfl, rfl⟩
  · rw [(mem_replicate.mp he).2]
    exact ⟨rfl, rfl⟩

theorem twoBursts_keys : ((twoBursts pol idleTTL).map (·.bucketKey)).dedup.length ≤ 1 := by
  have hsub : ((twoBursts pol idleTTL).map (·.bucketKey)).dedup ⊆ [bucketKey pol ""] := by
    intro key hkey
    obtain ⟨e, he, rfl⟩ := mem_map.mp (mem_dedup.mp hkey)
    rw [(twoBursts_bucketKey e he).1]
    exact mem_singleton_self _
  exact (subperm_of_subset (nodup_dedup _) hsub).length_le

theorem twoBursts_sorted (hidle : 0 ≤ idleTTL) :
    ((twoBursts pol idleTTL).map (·.now)).Pairwise (· ≤ ·) := by
  simp only [twoBursts, callsAt, map_append, map_replicate]
  refine pairwise_append.mpr ⟨pairwise_replicate.mpr (.inr le_rfl),
    pairwise_replicate.mpr (.inr le_rfl), fun t ht t' ht' => ?_⟩
  rw [(mem_replicate.mp ht).2, (mem_replicate.mp ht').2]
  exact hidle.trans (le_add_of_nonneg_right zero_le_one)

theorem LoadedRateLimitConfig.Bounded.idleTTL_nonneg (hbdd : config.Bounded) :
    0 ≤ config.idleTTL := by
  have hminute : 0 ≤ minute := by decide
  exact hminute.trans hbdd.idleTTL.1

theorem twoBursts_room (hbdd : config.Bounded) :
    (((twoBursts pol config.idleTTL).map (·.bucketKey)).dedup.length : Int) <
      config.maxKeys := by
  have hone : (((twoBursts pol config.idleTTL).map (·.bucketKey)).dedup.length : Int) ≤ 1 := by
    exact_mod_cast twoBursts_keys
  have hmany := hbdd.maxKeys.1
  linarith

variable (order) in
theorem twoBursts_gone (hbdd : config.Bounded) (hon : pol.Enabled)
    (hfits : Fits pol (bucketKey pol "") keys (newRateLimiter config.maxKeys config.idleTTL)
      (callsAt pol (256 * pol.burst.toNat + 254 + 1) 0)) :
    let l := afterTakes order (newRateLimiter config.maxKeys config.idleTTL)
      (callsAt pol (256 * pol.burst.toNat + 254 + 1) 0)
    (l.counted order (config.idleTTL + 1)).buckets.lookup (bucketKey pol "") = none ∧
      l.idleTTL = config.idleTTL ∧ Fits pol (bucketKey pol "") keys l [] := by
  obtain ⟨hoperations, hidleTTL, hfits', bucket, hbucket, hseen⟩ :=
    afterTakes_callsAt order hon hfits
  have hnew := newRateLimiter_fields hbdd
  have hidle : (newRateLimiter config.maxKeys config.idleTTL).idleTTL = config.idleTTL := by
    rw [hnew]
  have hstart : (newRateLimiter config.maxKeys config.idleTTL).operations = 0 := by
    rw [hnew]
  rw [hidle] at hidleTTL
  rw [hstart] at hoperations
  refine ⟨?_, hidleTTL, hfits'⟩
  rw [RateLimiter.counted_lookup hfits'.room, if_pos, hbucket, Option.filter_some, if_neg]
  · simp [RateLimiter.idleAt, hseen, hidleTTL]
  · rw [hoperations]
    omega

theorem allowedIn_twoBursts (hbdd : config.Bounded) (hon : pol.Enabled) :
    allowedIn order (bucketKey pol "") 0 (config.idleTTL + 1)
      (newRateLimiter config.maxKeys config.idleTTL) (twoBursts pol config.idleTTL) =
        pol.burst.toNat + pol.burst.toNat := by
  have hidle := hbdd.idleTTL_nonneg
  have hend : (0 : Time) ≤ config.idleTTL + 1 := hidle.trans (le_add_of_nonneg_right zero_le_one)
  have hfits : Fits pol (bucketKey pol "") _ _ (twoBursts pol config.idleTTL) :=
    fits_new hbdd (twoBursts_room hbdd) fun e he _ => (twoBursts_bucketKey e he).2
  have hfirst := hfits.fewer (subset_append_left _ _)
  obtain ⟨hgone, hidleTTL, hfits'⟩ := twoBursts_gone order hbdd hon hfirst
  have hsec := hfits.fewer (subset_append_right _ _)
  have hnew : (newRateLimiter config.maxKeys config.idleTTL).idleTTL = config.idleTTL := by
    rw [newRateLimiter_fields hbdd]
  have hempty : ((newRateLimiter config.maxKeys config.idleTTL).counted order 0).buckets.lookup
      (bucketKey pol "") = none := by
    rw [RateLimiter.counted_lookup hfirst.room, newRateLimiter, lookup_empty,
      Option.filter_none, ite_self]
  rw [twoBursts, allowedIn_append,
    allowedIn_callsAt_full hon hfirst (hidle.trans_eq hnew.symm) hempty le_rfl hend,
    allowedIn_callsAt_full hon ⟨hfits'.bounded, hfits'.stored, hsec.taken, hsec.policy⟩
      (hidle.trans_eq hidleTTL.symm) hgone hend le_rfl, Nat.min_self, Nat.min_eq_right]
  omega

theorem idleFull_of_windowBound (hbdd : config.Bounded) (hon : pol.Enabled)
    (h : WindowBound order config pol) : IdleFull pol config.idleTTL := by
  have hidle := hbdd.idleTTL_nonneg
  have hle := h (twoBursts pol config.idleTTL) (bucketKey pol "") 0 (config.idleTTL + 1)
    (twoBursts_sorted hidle) (twoBursts_room hbdd) (fun e he _ => (twoBursts_bucketKey e he).2)
    (hidle.trans (le_add_of_nonneg_right zero_le_one))
  rw [allowedIn_twoBursts hbdd hon] at hle
  have hburst : ((pol.burst.toNat : Nat) : ℚ) = pol.burst := by
    exact_mod_cast Int.toNat_of_nonneg hon.burst.le
  have hflow : (pol.burst : ℚ) ≤ pol.perMinute * (config.idleTTL + 1) / second / 60 := by
    rw [Nat.cast_add, hburst, seconds, sub_zero] at hle
    push_cast at hle
    have heq : (pol.perMinute : ℚ) * ((config.idleTTL + 1) / second) / 60 =
        pol.perMinute * (config.idleTTL + 1) / second / 60 := by ring
    linarith
  have hpos : (0 : ℚ) < second * 60 := by norm_num [second]
  rw [div_div, le_div_iff₀ hpos] at hflow
  have hq : (60 * second * pol.burst : ℚ) ≤ pol.perMinute * (config.idleTTL + 1) := by
    linarith
  unfold IdleFull
  exact_mod_cast hq

end Bound

/-- **The window bound holds** exactly when an empty bucket fills up within the idle time after
which it is deleted. -/
theorem rate_window_bound_iff (order : Buckets → List BucketEntry) (source : ConfigSource)
    (config : LoadedRateLimitConfig) (hload : loadRateLimitConfig source = .ok config)
    (policy : RateLimitPolicy) (hpolicy : policy ∈ config.policies) :
    WindowBound order config policy ↔
      60 * second * policy.burst ≤ policy.perMinute * (config.idleTTL + 1) := by
  have hbdd := loadRateLimitConfig_bounds hload
  have hon : policy.Enabled := ⟨(hbdd.perMinute policy hpolicy).1, (hbdd.burst policy hpolicy).1⟩
  constructor
  · exact fun h => idleFull_of_windowBound hbdd hon h
  · exact fun h => windowBound_of_idleFull hbdd hon h

/-- The general limits, and an idle time of one minute. -/
def sourceWith (perMinute burst : String) : ConfigSource where
  value name :=
    if name = "RATE_LIMIT_GENERAL_PER_MINUTE" then perMinute
    else if name = "RATE_LIMIT_GENERAL_BURST" then burst
    else if name = "RATE_LIMIT_IDLE_TTL" then "1m"
    else ""
  parseDuration text := if text = "1m" then some minute else none

/-- A configuration. -/
def configWith (perMinute burst : Int) : LoadedRateLimitConfig where
  disabled := false
  trustedProxyCIDRs := []
  generalPerMinute := perMinute
  generalBurst := burst
  authPerMinute := 60
  authBurst := 15
  installationPerMinute := 120
  installationBurst := 30
  adminPerMinute := 120
  adminBurst := 30
  maxKeys := 50000
  idleTTL := minute

theorem sixty_a_minute_bounded :
    loadRateLimitConfig (sourceWith "60" "60") = .ok (configWith 60 60) ∧
      WindowBound (fun buckets => buckets.entries) (configWith 60 60) ⟨"general_ip", 60, 60⟩ :=
  ⟨rfl, (rate_window_bound_iff _ (sourceWith "60" "60") (configWith 60 60) rfl
    ⟨"general_ip", 60, 60⟩ (by decide)).mpr (by decide)⟩

/-- Four requests are allowed within a minute and a nanosecond. -/
theorem idle_bucket_restarts :
    loadRateLimitConfig (sourceWith "1" "2") = .ok (configWith 1 2) ∧
      ¬WindowBound (fun buckets => buckets.entries) (configWith 1 2) ⟨"general_ip", 1, 2⟩ := by
  have hload : loadRateLimitConfig (sourceWith "1" "2") = .ok (configWith 1 2) := rfl
  refine ⟨hload, fun h => ?_⟩
  have hfull := idleFull_of_windowBound (loadRateLimitConfig_bounds hload) ⟨by decide, by decide⟩ h
  revert hfull
  unfold IdleFull
  decide

end Ferventio
