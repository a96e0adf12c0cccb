import Ferventio.Domain
import Ferventio.Lib.Netip

/-!
# The configuration of the rate limits

`loadRateLimitConfig` of `config/rate_limits.go` with the readers of `config/dotenv.go` that it
uses, and the policies that the server makes of it.
-/

namespace Ferventio

open Strings Netip

/-- The settings by name, and `time.ParseDuration`. -/
structure ConfigSource where
  value : String → String
  parseDuration : String → Option Duration

namespace ConfigSource

variable (source : ConfigSource)

/-- A positive number from the environment. -/
def positiveInt (name : String) (fallback : Int) : Result Int :=
  let value := trimSpace (source.value name)
  if value = "" then .ok fallback
  else
    match atoi value with
    | some parsed =>
      if parsed ≤ 0 then .error (.plain (name ++ " must be a positive integer")) else .ok parsed
    | none => .error (.plain (name ++ " must be a positive integer"))

/-- A Boolean from the environment. -/
def boolean (name : String) (fallback : Bool) : Result Bool :=
  let value := trimSpace (source.value name)
  if value = "" then .ok fallback
  else if value ∈ ["1", "t", "T", "TRUE", "true", "True"] then .ok true
  else if value ∈ ["0", "f", "F", "FALSE", "false", "False"] then .ok false
  else .error (.plain (name ++ " must be true or false"))

/-- A number without a unit counts seconds. -/
def positiveDuration (name : String) (fallback : Duration) : Result Duration :=
  let value := trimSpace (source.value name)
  if value = "" then .ok fallback
  else
    match (source.parseDuration value).filter (0 < ·), (atoi value).filter (0 < ·) with
    | some parsed, _ => .ok parsed
    | none, some seconds => .ok (durationSeconds seconds)
    | none, none => .error (.plain (name ++ " must be a positive duration"))

end ConfigSource

/-- The limits. -/
structure LoadedRateLimitConfig where
  disabled : Bool
  trustedProxyCIDRs : List Netip.Prefix
  generalPerMinute : Int
  generalBurst : Int
  authPerMinute : Int
  authBurst : Int
  installationPerMinute : Int
  installationBurst : Int
  adminPerMinute : Int
  adminBurst : Int
  maxKeys : Int
  idleTTL : Duration

/-- The loop of `parseTrustedProxyCIDRs`. -/
def collectCIDRs : List String → List String → Result (List Netip.Prefix)
  | [], _ => .ok []
  | value :: values, seen =>
    match parsePrefix (trimSpace value) with
    | none =>
      .error (.plain ("RATE_LIMIT_TRUSTED_PROXY_CIDRS contains invalid CIDR " ++ quote value))
    | some cidr =>
      let cidr := cidr.masked
      if cidr.string ∈ seen then collectCIDRs values seen
      else (collectCIDRs values (cidr.string :: seen)).map (cidr :: ·)

/-- The ranges of the proxies. -/
def parseTrustedProxyCIDRs (raw : String) : Result (List Netip.Prefix) :=
  let separator := fun c => c == ',' || c == ';' || c == ' ' || c == '\t' || c == '\n'
  let values := (raw.toList.splitOnP separator).filter (· ≠ [])
  collectCIDRs (values.map String.ofList) []

/-- Read the limits. -/
def loadRateLimitConfig (source : ConfigSource) : Result LoadedRateLimitConfig := do
  let disabled ← source.boolean "RATE_LIMIT_DISABLED" false
  let generalPerMinute ← source.positiveInt "RATE_LIMIT_GENERAL_PER_MINUTE" 300
  let generalBurst ← source.positiveInt "RATE_LIMIT_GENERAL_BURST" 60
  let authPerMinute ← source.positiveInt "RATE_LIMIT_AUTH_PER_MINUTE" 60
  let authBurst ← source.positiveInt "RATE_LIMIT_AUTH_BURST" 15
  let installationPerMinute ← source.positiveInt "RATE_LIMIT_INSTALLATION_PER_MINUTE" 120
  let installationBurst ← source.positiveInt "RATE_LIMIT_INSTALLATION_BURST" 30
  let adminPerMinute ← source.positiveInt "RATE_LIMIT_ADMIN_PER_MINUTE" 120
  let adminBurst ← source.positiveInt "RATE_LIMIT_ADMIN_BURST" 30
  let maxKeys ← source.positiveInt "RATE_LIMIT_MAX_KEYS" 50000
  let idleTTL ← source.positiveDuration "RATE_LIMIT_IDLE_TTL" (30 * minute)
  if generalPerMinute > 100000 ∨ authPerMinute > 100000 ∨ installationPerMinute > 100000 ∨
      adminPerMinute > 100000 then
    throw (.plain "rate limits per minute must not exceed 100000")
  if generalBurst > 10000 ∨ authBurst > 10000 ∨ installationBurst > 10000 ∨ adminBurst > 10000 then
    throw (.plain "rate limit bursts must not exceed 10000")
  if maxKeys < 100 ∨ maxKeys > 1000000 then
    throw (.plain "RATE_LIMIT_MAX_KEYS must be between 100 and 1000000")
  if idleTTL < minute ∨ idleTTL > 24 * hour then
    throw (.plain "RATE_LIMIT_IDLE_TTL must be between 1m and 24h")
  let trustedProxyCIDRs ← parseTrustedProxyCIDRs (source.value "RATE_LIMIT_TRUSTED_PROXY_CIDRS")
  return { disabled, trustedProxyCIDRs, generalPerMinute, generalBurst, authPerMinute, authBurst,
           installationPerMinute, installationBurst, adminPerMinute, adminBurst, maxKeys, idleTTL }

/-- A limit of one kind of requests. -/
structure RateLimitPolicy where
  name : String
  perMinute : Int
  burst : Int
deriving DecidableEq

/-- The policies that `NewServer` makes of the configuration. -/
def LoadedRateLimitConfig.policies (config : LoadedRateLimitConfig) : List RateLimitPolicy :=
  [⟨"general_ip", config.generalPerMinute, config.generalBurst⟩,
    ⟨"auth_ip", config.authPerMinute, config.authBurst⟩,
    ⟨"installation", config.installationPerMinute, config.installationBurst⟩,
    ⟨"admin_ip", config.adminPerMinute, config.adminBurst⟩]

/-! ## The bounds -/

theorem ConfigSource.positiveInt_pos (source : ConfigSource) {name : String} {fallback n : Int}
    (hfallback : 0 < fallback) (h : source.positiveInt name fallback = .ok n) : 0 < n := by
  unfold positiveInt at h
  dsimp only at h
  split_ifs at h
  · cases h
    exact hfallback
  · split at h
    · split_ifs at h with hpos
      cases h
      exact not_le.mp hpos
    · cases h

/-- Within the bounds of a configuration that is accepted. -/
structure LoadedRateLimitConfig.Bounded (config : LoadedRateLimitConfig) : Prop where
  perMinute : ∀ policy ∈ config.policies, 0 < policy.perMinute ∧ policy.perMinute ≤ 100000
  burst : ∀ policy ∈ config.policies, 0 < policy.burst ∧ policy.burst ≤ 10000
  maxKeys : 100 ≤ config.maxKeys ∧ config.maxKeys ≤ 1000000
  idleTTL : minute ≤ config.idleTTL ∧ config.idleTTL ≤ 24 * hour

theorem loadRateLimitConfig_bounds {source : ConfigSource} {config : LoadedRateLimitConfig}
    (h : loadRateLimitConfig source = .ok config) : config.Bounded := by
  unfold loadRateLimitConfig at h
  obtain ⟨disabled, -, h⟩ := result_bind_eq_ok.mp h
  obtain ⟨generalPerMinute, hgeneralPerMinute, h⟩ := result_bind_eq_ok.mp h
  obtain ⟨generalBurst, hgeneralBurst, h⟩ := result_bind_eq_ok.mp h
  obtain ⟨authPerMinute, hauthPerMinute, h⟩ := result_bind_eq_ok.mp h
  obtain ⟨authBurst, hauthBurst, h⟩ := result_bind_eq_ok.mp h
  obtain ⟨installationPerMinute, hinstallationPerMinute, h⟩ := result_bind_eq_ok.mp h
  obtain ⟨installationBurst, hinstallationBurst, h⟩ := result_bind_eq_ok.mp h
  obtain ⟨adminPerMinute, hadminPerMinute, h⟩ := result_bind_eq_ok.mp h
  obtain ⟨adminBurst, hadminBurst, h⟩ := result_bind_eq_ok.mp h
  obtain ⟨maxKeys, hmaxKeys, h⟩ := result_bind_eq_ok.mp h
  obtain ⟨idleTTL, hidleTTL, h⟩ := result_bind_eq_ok.mp h
  dsimp only at h
  split at h
  · cases h
  rename_i hperMinute
  split at h
  · cases h
  rename_i hburst
  split at h
  · cases h
  rename_i hkeys
  split at h
  · cases h
  rename_i hidle
  obtain ⟨trustedProxyCIDRs, -, h⟩ := result_bind_eq_ok.mp h
  cases h
  simp only [not_or, not_lt] at hperMinute hburst hkeys hidle
  obtain ⟨hgeneral, hauth, hiid, hadmin⟩ := hperMinute
  obtain ⟨hgeneral', hauth', hiid', hadmin'⟩ := hburst
  refine ⟨?_, ?_, hkeys, hidle⟩
  · simp only [LoadedRateLimitConfig.policies, List.forall_mem_cons, List.not_mem_nil,
      false_imp_iff, implies_true, and_true]
    exact ⟨⟨source.positiveInt_pos (by decide) hgeneralPerMinute, hgeneral⟩,
      ⟨source.positiveInt_pos (by decide) hauthPerMinute, hauth⟩,
      ⟨source.positiveInt_pos (by decide) hinstallationPerMinute, hiid⟩,
      ⟨source.positiveInt_pos (by decide) hadminPerMinute, hadmin⟩⟩
  · simp only [LoadedRateLimitConfig.policies, List.forall_mem_cons, List.not_mem_nil,
      false_imp_iff, implies_true, and_true]
    exact ⟨⟨source.positiveInt_pos (by decide) hgeneralBurst, hgeneral'⟩,
      ⟨source.positiveInt_pos (by decide) hauthBurst, hauth'⟩,
      ⟨source.positiveInt_pos (by decide) hinstallationBurst, hiid'⟩,
      ⟨source.positiveInt_pos (by decide) hadminBurst, hadmin'⟩⟩

end Ferventio
