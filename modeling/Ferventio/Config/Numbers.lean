import Ferventio.RateLimit.Config

/-!
# Numbers in the configuration

`LoadConfig` parses numbers with 64 bits. It narrows the sizes of the connection pool to 32 bits
before it checks them, and a duration without a unit is multiplied to nanoseconds with 64 bits, so
a number that is too large may become another one.

* **`configured_numbers_iff`**: which numbers are used as they are written.
-/

namespace Ferventio

open Strings

/-! ## The code -/

namespace ConfigSource

variable (source : ConfigSource)

/-- A count from the environment. -/
def nonNegativeInt (name : String) (fallback : Int) : Result Int :=
  let value := trimSpace (source.value name)
  if value = "" then .ok fallback
  else
    match atoi value with
    | some parsed =>
      if parsed < 0 then .error (.plain (name ++ " must be a non-negative integer")) else .ok parsed
    | none => .error (.plain (name ++ " must be a non-negative integer"))

/-- A duration from the environment, or the fallback. -/
def duration (name : String) (fallback : Duration) : Duration :=
  let value := trimSpace (source.value name)
  if value = "" then fallback
  else
    match (source.parseDuration value).filter (0 < ·), (atoi value).filter (0 < ·) with
    | some parsed, _ => parsed
    | none, some seconds => durationSeconds seconds
    | none, none => fallback

end ConfigSource

/-- The numbers of the configuration. -/
structure LoadedConfig where
  rateLimits : LoadedRateLimitConfig
  databaseMaxConns : Int
  databaseMinConns : Int
  databaseMaxConnLifetime : Duration
  databaseMaxConnIdleTime : Duration
  databaseConnectTimeout : Duration
  authSessionTTL : Duration
  authStateTTL : Duration
  authHandoffTTL : Duration
  authLeaseTTL : Duration
  authAccessRefreshAhead : Duration

/-- The conversion to `int32`. -/
def int32 (n : Int) : Int := Int.bmod n (2 ^ 32)

/-- `LoadConfig`; `checks` are those that follow. -/
def loadConfig (checks : LoadedConfig → Result Unit) (source : ConfigSource) :
    Result LoadedConfig := do
  let rateLimits ← loadRateLimitConfig source
  let databaseMaxConns ← source.positiveInt "DATABASE_MAX_CONNS" 20
  let databaseMinConns ← source.nonNegativeInt "DATABASE_MIN_CONNS" 2
  let _ ← source.boolean "DATABASE_MIGRATE" true
  let _ ← source.boolean "FIREBASE_ENABLED" false
  let cfg : LoadedConfig :=
    { rateLimits
      databaseMaxConns := int32 databaseMaxConns
      databaseMinConns := int32 databaseMinConns
      databaseMaxConnLifetime := source.duration "DATABASE_MAX_CONN_LIFETIME" (30 * minute)
      databaseMaxConnIdleTime := source.duration "DATABASE_MAX_CONN_IDLE_TIME" (5 * minute)
      databaseConnectTimeout := source.duration "DATABASE_CONNECT_TIMEOUT" (10 * second)
      authSessionTTL := source.duration "AUTH_SESSION_TTL" (365 * 24 * hour)
      authStateTTL := source.duration "AUTH_STATE_TTL" (10 * minute)
      authHandoffTTL := source.duration "AUTH_HANDOFF_TTL" (2 * minute)
      authLeaseTTL := source.duration "AUTH_LEASE_TTL" (60 * second)
      authAccessRefreshAhead := source.duration "AUTH_ACCESS_REFRESH_AHEAD" (2 * hour) }
  if cfg.databaseMaxConns < 1 ∨ cfg.databaseMaxConns > 500 then
    throw (.plain "DATABASE_MAX_CONNS must be between 1 and 500")
  if cfg.databaseMinConns < 0 ∨ cfg.databaseMinConns > cfg.databaseMaxConns then
    throw (.plain "DATABASE_MIN_CONNS must be between 0 and DATABASE_MAX_CONNS")
  if cfg.databaseConnectTimeout ≤ 0 ∨ cfg.databaseConnectTimeout > minute then
    throw (.plain "DATABASE_CONNECT_TIMEOUT must be greater than zero and not exceed 1m")
  checks cfg
  return cfg

/-! ## Decimal integers -/

/-- The number that a text writes, of any size. -/
def decimal (s : String) : Option Int :=
  match s.toList with
  | '-' :: digits => (natural digits).map fun n : Nat => -n
  | '+' :: digits => (natural digits).map Int.ofNat
  | digits => (natural digits).map Int.ofNat
where
  natural (digits : List Char) : Option Nat := if digits = [] then none else numeral 10 digits

theorem atoi_eq (s : String) : atoi s = (decimal s).filter fun n => -2 ^ 63 ≤ n ∧ n < 2 ^ 63 := by
  have hread : ∀ (digits : List Char) (f : Nat → Int),
      (if digits = [] then none else (numeral 10 digits).bind fun n =>
        if -2 ^ 63 ≤ f n ∧ f n < 2 ^ 63 then some (f n) else none) =
      ((decimal.natural digits).map f).filter fun n => -2 ^ 63 ≤ n ∧ n < 2 ^ 63 := by
    intro digits f
    unfold decimal.natural
    split_ifs
    · rfl
    · cases numeral 10 digits with
      | none => rfl
      | some n =>
        simp only [Option.bind_some, Option.map_some, Option.filter_some, decide_eq_true_eq]
  unfold atoi decimal
  generalize s.toList = text
  rcases text with _ | ⟨c, digits⟩
  · rfl
  by_cases hminus : c = '-'
  · subst hminus
    exact hread digits fun n => -n
  by_cases hplus : c = '+'
  · subst hplus
    exact hread digits Int.ofNat
  · have h := hread (c :: digits) Int.ofNat
    simpa [hminus, hplus] using h

section Numbers

variable {source : ConfigSource} {name : String} {n : Int}

/-- The setting is the decimal integer `n`. -/
def ConfigSource.Sets (source : ConfigSource) (name : String) (n : Int) : Prop :=
  decimal (trimSpace (source.value name)) = some n

/-- `time.ParseDuration` asks for a unit. -/
def ConfigSource.NeedsUnit (source : ConfigSource) : Prop :=
  ∀ text n, decimal text = some n → 0 < n → source.parseDuration text = none

theorem ConfigSource.Sets.ne_empty (h : source.Sets name n) :
    trimSpace (source.value name) ≠ "" := by
  intro hempty
  rw [ConfigSource.Sets, hempty] at h
  cases h

theorem int32_eq_iff (hn : 0 ≤ n) : int32 n = n ↔ n < 2 ^ 31 := by
  unfold int32
  rw [Int.bmod_def]
  split_ifs <;> omega

theorem durationSeconds_eq_iff (hn : 0 < n) :
    durationSeconds n = n * second ↔ n * second < 2 ^ 63 := by
  have hwrap : ∀ d : Int, 0 < d → (Int.bmod d (2 ^ 64) = d ↔ d < 2 ^ 63) := by
    intro d hd
    rw [Int.bmod_def]
    split_ifs <;> omega
  exact hwrap _ (Int.mul_pos hn (by decide))

theorem ConfigSource.Sets.atoi (h : source.Sets name n) :
    Strings.atoi (trimSpace (source.value name)) =
      if -2 ^ 63 ≤ n ∧ n < 2 ^ 63 then some n else none := by
  rw [atoi_eq, h, Option.filter_some]
  simp only [decide_eq_true_eq]

theorem positiveInt_of_sets (h : source.Sets name n) {fallback m : Int}
    (hread : source.positiveInt name fallback = .ok m) : m = n ∧ 0 < n := by
  unfold ConfigSource.positiveInt at hread
  dsimp only at hread
  rw [if_neg h.ne_empty, h.atoi] at hread
  split at hread
  · rename_i parsed hparsed
    split_ifs at hread hparsed with hpos
    cases hparsed
    cases hread
    exact ⟨rfl, not_le.mp hpos⟩
  · cases hread

theorem nonNegativeInt_of_sets (h : source.Sets name n) {fallback m : Int}
    (hread : source.nonNegativeInt name fallback = .ok m) : m = n ∧ 0 ≤ n := by
  unfold ConfigSource.nonNegativeInt at hread
  dsimp only at hread
  rw [if_neg h.ne_empty, h.atoi] at hread
  split at hread
  · rename_i parsed hparsed
    split_ifs at hread hparsed with hneg
    cases hparsed
    cases hread
    exact ⟨rfl, not_lt.mp hneg⟩
  · cases hread

theorem loadConfig_conns {checks : LoadedConfig → Result Unit} {cfg : LoadedConfig}
    (h : loadConfig checks source = .ok cfg) :
    ∃ maxConns minConns, source.positiveInt "DATABASE_MAX_CONNS" 20 = .ok maxConns ∧
      source.nonNegativeInt "DATABASE_MIN_CONNS" 2 = .ok minConns ∧
      cfg.databaseMaxConns = int32 maxConns ∧ cfg.databaseMinConns = int32 minConns ∧
      (1 ≤ cfg.databaseMaxConns ∧ cfg.databaseMaxConns ≤ 500) ∧
      0 ≤ cfg.databaseMinConns ∧ cfg.databaseMinConns ≤ cfg.databaseMaxConns := by
  unfold loadConfig at h
  obtain ⟨rateLimits, -, h⟩ := result_bind_eq_ok.mp h
  obtain ⟨maxConns, hmax, h⟩ := result_bind_eq_ok.mp h
  obtain ⟨minConns, hmin, h⟩ := result_bind_eq_ok.mp h
  obtain ⟨migrate, -, h⟩ := result_bind_eq_ok.mp h
  obtain ⟨firebase, -, h⟩ := result_bind_eq_ok.mp h
  dsimp only at h
  split at h
  · cases h
  rename_i hmaxRange
  split at h
  · cases h
  rename_i hminRange
  split at h
  · cases h
  obtain ⟨⟨⟩, -, h⟩ := result_bind_eq_ok.mp h
  cases h
  simp only [not_or, not_lt] at hmaxRange hminRange
  exact ⟨maxConns, minConns, hmax, hmin, rfl, rfl, hmaxRange, hminRange⟩

/-- **Which numbers are used as they are written.** The size of the pool, if and only if it fits
into 32 bits; a duration without a unit, if and only if its nanoseconds fit into 64 bits, or the
number itself does not. -/
theorem configured_numbers_iff (source : ConfigSource) (checks : LoadedConfig → Result Unit)
    (hunit : source.NeedsUnit) :
    (∀ cfg n, loadConfig checks source = .ok cfg → source.Sets "DATABASE_MAX_CONNS" n →
      (1 ≤ n ∧ n ≤ 500 ∧ cfg.databaseMaxConns = n ↔ n < 2 ^ 31)) ∧
    (∀ cfg n, loadConfig checks source = .ok cfg → source.Sets "DATABASE_MIN_CONNS" n →
      (n ≤ cfg.databaseMaxConns ∧ cfg.databaseMinConns = n ↔ n < 2 ^ 31)) ∧
    ∀ name fallback n, source.Sets name n → 0 < n →
      (source.duration name fallback = n * second ∨ source.duration name fallback = fallback ↔
        n * second < 2 ^ 63 ∨ 2 ^ 63 ≤ n ∨ durationSeconds n = fallback) ∧
      ((∀ d, source.positiveDuration name fallback = .ok d → d = n * second) ↔
        n * second < 2 ^ 63 ∨ 2 ^ 63 ≤ n) := by
  refine ⟨fun cfg n hload hsets => ?_, fun cfg n hload hsets => ?_,
    fun name fallback n hsets hn => ?_⟩
  · obtain ⟨m, -, hmax, -, hcfg, -, hrange, -⟩ := loadConfig_conns hload
    obtain ⟨rfl, hpos⟩ := positiveInt_of_sets hsets hmax
    rw [hcfg] at hrange ⊢
    rw [← int32_eq_iff hpos.le]
    exact ⟨fun h => h.2.2, fun h => ⟨hpos, h ▸ hrange.2, h⟩⟩
  · obtain ⟨-, m, -, hmin, -, hcfg, -, hrange⟩ := loadConfig_conns hload
    obtain ⟨rfl, hnonneg⟩ := nonNegativeInt_of_sets hsets hmin
    rw [hcfg] at hrange ⊢
    rw [← int32_eq_iff hnonneg]
    exact ⟨fun h => h.2, fun h => ⟨h ▸ hrange.2, h⟩⟩
  · have hparse : source.parseDuration (trimSpace (source.value name)) = none := hunit _ n hsets hn
    unfold ConfigSource.duration ConfigSource.positiveDuration
    dsimp only
    rw [if_neg hsets.ne_empty, if_neg hsets.ne_empty, hparse, hsets.atoi]
    by_cases hlarge : 2 ^ 63 ≤ n
    · rw [if_neg fun h => absurd h.2 (not_lt.mpr hlarge)]
      exact ⟨iff_of_true (.inr rfl) (.inr (.inl hlarge)), iff_of_true nofun (.inr hlarge)⟩
    · rw [if_pos ⟨le_trans (by decide) hn.le, not_le.mp hlarge⟩]
      simp only [Option.filter_none, Option.filter_some, decide_eq_true hn, if_true, hlarge,
        false_or, or_false, ← durationSeconds_eq_iff hn, true_and]
      exact ⟨fun h => h _ rfl, fun h d hd => by cases hd; exact h⟩

end Numbers

/-- A source with the size of the pool, and a duration. -/
def poolSource (maxConns timeout : String) : ConfigSource where
  value name :=
    if name = "DATABASE_MAX_CONNS" then maxConns
    else if name = "DATABASE_MIN_CONNS" then "1"
    else if name = "AUTH_SESSION_TTL" then timeout
    else ""
  parseDuration _ := none

/-- Ten connections, and sessions of an hour. -/
theorem small_numbers_used :
    (loadConfig (fun _ => .ok ()) (poolSource "10" "3600")).map (·.databaseMaxConns) = .ok 10 ∧
      ((poolSource "10" "3600").duration "AUTH_SESSION_TTL" 1 = 3600 * second ∨
        (poolSource "10" "3600").duration "AUTH_SESSION_TTL" 1 = 1) :=
  ⟨by decide +kernel, (((configured_numbers_iff (poolSource "10" "3600") (fun _ => .ok ())
    fun _ _ _ _ => rfl).2.2 "AUTH_SESSION_TTL" 1 3600 rfl (by decide)).1).mpr (.inl (by decide))⟩

/-- 4294967297 connections become one, and 18446744074 seconds a fraction of a second. -/
theorem large_numbers_wrap :
    (loadConfig (fun _ => .ok ()) (poolSource "4294967297" "18446744074")).map (fun cfg =>
      (cfg.databaseMaxConns, cfg.authSessionTTL)) = .ok (1, 290448384) := by
  decide +kernel

end Ferventio
