import Ferventio.OAuth.Lease
import Mathlib.Tactic.Linarith

/-!
# What a lease returns

`lease` refreshes an access token that expires within the reserve `AuthAccessRefreshAhead`, and
validates one that Twitch has not confirmed for 55 minutes. The expiry is read again from the
validation, after the decision to refresh: a token that Twitch gives less time than the reserve is
returned as it is (**`leased_token_fresh_iff`**).
-/

namespace Ferventio

open List

variable {cfg : ServerConfig} {w w' : World} {now : Time} {c' c : AuthCredential}
  {result : Result AuthCredential} {forceRefresh : Bool} {tr : Trace} {env : Env}

/-! ## Twitch's answers -/

/-- What Twitch answered. -/
def twitchAnswers (tr : Trace) : List (Sigma TwitchCall.Ans) :=
  tr.filterMap fun
    | ⟨.twitch call, answer⟩ => some ⟨call, answer⟩
    | _ => none

/-- The times that were read. -/
def clockReadings (tr : Trace) : List Time :=
  tr.filterMap fun
    | ⟨.env .now, now⟩ => some now
    | _ => none

/-- A token was refreshed. -/
def Refreshed (answers : List (Sigma TwitchCall.Ans)) : Prop :=
  ∃ old token, ⟨.requestToken (.refreshToken old), .ok token⟩ ∈ answers

/-- The first validation. -/
def firstValidation (answers : List (Sigma TwitchCall.Ans)) :
    Option (Result TwitchValidationResponse) :=
  answers.findSome? fun
    | ⟨.validate _, answer⟩ => some answer
    | _ => none

/-- An answer to a validation, with the clock reading of its lease. -/
structure Confirmation where
  time : Time
  accessToken : String
  validation : TwitchValidationResponse

/-- What Twitch confirmed. -/
def confirmations (now : Time) (answers : List (Sigma TwitchCall.Ans)) : List Confirmation :=
  answers.filterMap fun
    | ⟨.validate accessToken, .ok validation⟩ => some ⟨now, accessToken, validation⟩
    | _ => none

/-- It is for the access token, the server's client, the user and every scope. -/
def Confirmation.Vets (cfg : ServerConfig) (c : AuthCredential) (e : Confirmation) : Prop :=
  e.accessToken = c.accessToken ∧ validationMatches cfg c e.validation

/-! ## One lease -/

/-- The token is about to expire. -/
def NearExpiry (cfg : ServerConfig) (now : Time) (c : AuthCredential) : Prop :=
  c.accessExpiresAt < now + refreshAhead cfg

/-- The last validation is old. -/
def Unvalidated (now : Time) (c : AuthCredential) : Prop := now - c.lastValidatedAt ≥ 55 * minute

/-- **How a lease of `c` succeeds**, and what it returns. -/
inductive Granted (cfg : ServerConfig) (forceRefresh : Bool) (now : Time) (c : AuthCredential) :
    List (Sigma TwitchCall.Ans) → AuthCredential → Prop
  | kept (hforce : forceRefresh = false) (hexpiry : ¬ NearExpiry cfg now c)
      (hval : ¬ Unvalidated now c) : Granted cfg forceRefresh now c [] c
  | validated (validation : TwitchValidationResponse) (hforce : forceRefresh = false)
      (hexpiry : ¬ NearExpiry cfg now c) (hunvalidated : Unvalidated now c)
      (hmatch : validationMatches cfg c validation) :
      Granted cfg forceRefresh now c [⟨.validate c.accessToken, .ok validation⟩]
        (validatedCredential now validation c)
  | refreshed (token : TwitchTokenResponse) (validation : TwitchValidationResponse)
      (hdue : forceRefresh ∨ NearExpiry cfg now c)
      (hmatch : validationMatches cfg c validation) :
      Granted cfg forceRefresh now c
        [⟨.requestToken (.refreshToken c.refreshToken), .ok token⟩,
          ⟨.validate token.accessToken, .ok validation⟩]
        (refreshedCredential now token validation c)
  | revoked (err : GoError) (token : TwitchTokenResponse) (validation : TwitchValidationResponse)
      (hmatch : validationMatches cfg c validation) :
      Granted cfg forceRefresh now c
        [⟨.validate c.accessToken, .error err⟩,
          ⟨.requestToken (.refreshToken c.refreshToken), .ok token⟩,
          ⟨.validate token.accessToken, .ok validation⟩]
        (refreshedCredential now token validation c)

/-- A lease stores what it returns, or nothing. -/
inductive LeaseResult (granted : List (Sigma TwitchCall.Ans) → AuthCredential → Prop)
    (c : AuthCredential) (answers : List (Sigma TwitchCall.Ans)) (w' : World) :
    Result AuthCredential → Prop
  | error (err : GoError) (hstored : w'.auth.credentials.lookup c.id = some c) :
      LeaseResult granted c answers w' (.error err)
  | ok (c' : AuthCredential) (hgrant : granted answers c')
      (hstored : w'.auth.credentials.lookup c.id = some c') :
      LeaseResult granted c answers w' (.ok c')

section Lease

theorem LeaseResult.imp {granted granted' : List (Sigma TwitchCall.Ans) → AuthCredential → Prop}
    {answers answers' : List (Sigma TwitchCall.Ans)} {w1 : World}
    (h : LeaseResult granted c answers w1 result)
    (hgrant : ∀ c', granted answers c' → granted' answers' c') (hauth : w'.auth = w1.auth) :
    LeaseResult granted' c answers' w' result := by
  cases h with
  | error err hstored => exact .error err (hauth ▸ hstored)
  | ok c' hok hstored => exact .ok c' (hgrant c' hok) (hauth ▸ hstored)

/-- A refresh that is granted. -/
inductive RefreshGranted (cfg : ServerConfig) (now : Time) (c : AuthCredential) :
    List (Sigma TwitchCall.Ans) → AuthCredential → Prop
  | intro (token : TwitchTokenResponse) (validation : TwitchValidationResponse)
      (hmatch : validationMatches cfg c validation) :
      RefreshGranted cfg now c
        [⟨.requestToken (.refreshToken c.refreshToken), .ok token⟩,
          ⟨.validate token.accessToken, .ok validation⟩]
        (refreshedCredential now token validation c)

section W

variable (hc : w.auth.credentials.lookup c.id = some c)

include hc

theorem refreshCredential_granted
    (hrun : Prog.Runs (execStored env) (refreshCredential env now c) w tr result w') :
    LeaseResult (RefreshGranted env.cfg now c) c (twitchAnswers tr) w' result ∧
      clockReadings tr = [] := by
  obtain ⟨x, ans, w1, tr1, hreq, rfl, hrest⟩ := hrun.of_perform
  obtain ⟨hauth, -⟩ := requestToken_stored hreq
  have hc1 : w1.auth.credentials.lookup c.id = some c := hauth ▸ hc
  cases ans with
  | error err =>
    obtain ⟨rfl, rfl, rfl⟩ := hrest.of_ret
    exact ⟨.error err hc1, rfl⟩
  | ok token =>
    obtain ⟨x, ans, w2, tr2, hvalidate, rfl, hrest2⟩ := hrest.of_perform
    obtain ⟨hauth2, -⟩ := passive_stored hvalidate trivial
    have hc2 : w2.auth.credentials.lookup c.id = some c := hauth2 ▸ hc1
    cases ans with
    | error err =>
      obtain ⟨rfl, rfl, rfl⟩ := hrest2.of_ret
      exact ⟨.error err hc2, rfl⟩
    | ok validation =>
      dsimp only at hrest2
      split at hrest2
      · obtain ⟨rfl, rfl, rfl⟩ := hrest2.of_ret
        exact ⟨.error _ hc2, rfl⟩
      · rename_i hmatch
        rw [Bool.not_eq_true, Bool.not_eq_false'] at hmatch
        obtain ⟨x, stored, w3, tr3, hput, rfl, hrest3⟩ := hrest2.of_perform
        obtain ⟨rfl, hstored, -⟩ := putCredential_stored hput
        obtain ⟨rfl, rfl, rfl⟩ := hrest3.of_ret
        exact ⟨.ok _ (.intro token validation hmatch) hstored, rfl⟩

theorem leaseLocked_granted
    (hrun : Prog.Runs (execStored env) (leaseLocked env c.id forceRefresh) w tr result w') :
    ∃ now, clockReadings tr = [now] ∧
      LeaseResult (Granted env.cfg forceRefresh now c) c (twitchAnswers tr) w' result := by
  obtain ⟨x, ans, w1, tr1, hget, rfl, hrest⟩ := hrun.of_perform
  obtain ⟨rfl, rfl⟩ := getCredential_stored hc hget
  obtain ⟨x, now, w2, tr2, hnow, rfl, hrest2⟩ := hrest.of_perform
  obtain ⟨hauth2, -⟩ := passive_stored hnow trivial
  have hc2 : w2.auth.credentials.lookup c.id = some c := hauth2 ▸ hc
  suffices h : LeaseResult (Granted env.cfg forceRefresh now c) c (twitchAnswers tr2) w' result ∧
      clockReadings tr2 = [] from
    ⟨now, congrArg (now :: ·) h.2, h.1⟩
  dsimp only at hrest2
  split at hrest2
  · rename_i hdue
    obtain ⟨hres, hclock⟩ := refreshCredential_granted hc2 hrest2
    refine ⟨hres.imp ?_ rfl, hclock⟩
    intro c' hfresh
    generalize twitchAnswers tr2 = answers at hfresh
    cases hfresh with
    | intro token validation hmatch => exact .refreshed token validation hdue hmatch
  rename_i hdue
  obtain ⟨hforce, hexpiry⟩ := not_or.mp hdue
  rw [Bool.not_eq_true] at hforce
  split at hrest2
  · rename_i hunvalidated
    obtain ⟨x, ans, w3, tr3, hvalidate, rfl, hrest3⟩ := hrest2.of_perform
    obtain ⟨hauth3, -⟩ := passive_stored hvalidate trivial
    have hc3 : w3.auth.credentials.lookup c.id = some c := hauth3 ▸ hc2
    cases ans with
    | error err =>
      dsimp only at hrest3
      split at hrest3
      · obtain ⟨hres, hclock⟩ := refreshCredential_granted hc3 hrest3
        refine ⟨hres.imp ?_ rfl, hclock⟩
        intro c' hfresh
        change Granted _ _ _ _ (⟨.validate c.accessToken, .error err⟩ :: twitchAnswers tr3) c'
        generalize twitchAnswers tr3 = answers at hfresh ⊢
        cases hfresh with
        | intro token validation hmatch => exact .revoked err token validation hmatch
      · obtain ⟨rfl, rfl, rfl⟩ := hrest3.of_ret
        exact ⟨.error err hc3, rfl⟩
    | ok validation =>
      dsimp only at hrest3
      split at hrest3
      · obtain ⟨rfl, rfl, rfl⟩ := hrest3.of_ret
        exact ⟨.error _ hc3, rfl⟩
      · rename_i hmatch
        rw [Bool.not_eq_true, Bool.not_eq_false'] at hmatch
        obtain ⟨x, stored, w4, tr4, hput, rfl, hrest4⟩ := hrest3.of_perform
        obtain ⟨rfl, hstored, -⟩ := putCredential_stored hput
        obtain ⟨rfl, rfl, rfl⟩ := hrest4.of_ret
        exact ⟨.ok _ (.validated validation hforce hexpiry hunvalidated hmatch) hstored, rfl⟩
  · rename_i hval
    obtain ⟨rfl, rfl, rfl⟩ := hrest2.of_ret
    exact ⟨.ok c (.kept hforce hexpiry hval) hc2, rfl⟩

/-- **One lease** reads the clock once, and stores the credential that it returns or nothing. -/
theorem lease_granted
    (hrun : Prog.Runs (execStored env) (lease env c.id forceRefresh) w tr result w') :
    ∃ now, clockReadings tr = [now] ∧
      LeaseResult (Granted env.cfg forceRefresh now c) c (twitchAnswers tr) w' result := by
  obtain ⟨x, u, w1, tr1, hlock, rfl, hrest⟩ := hrun.of_perform
  obtain ⟨hauth1, -⟩ := passive_stored hlock trivial
  obtain ⟨tr2, tr3, ans, w2, rfl, hlocked, hrest2⟩ := hrest.of_bind
  obtain ⟨x, u', w3, tr4, hunlock, rfl, hrest3⟩ := hrest2.of_perform
  obtain ⟨rfl, rfl, rfl⟩ := hrest3.of_ret
  obtain ⟨now, hclock, hres⟩ := leaseLocked_granted (hauth1 ▸ hc) hlocked
  have hquiet : ∀ {α : Type} (f : Sigma Call.Ans → Option α)
      (hlock : f ⟨.env (.lock (.credential (env.lockStripe c.id))), u⟩ = none)
      (hunlock : f ⟨.env (.unlock (.credential (env.lockStripe c.id))), u'⟩ = none),
      (⟨.env (.lock (.credential (env.lockStripe c.id))), u⟩ ::
        (tr2 ++ [⟨.env (.unlock (.credential (env.lockStripe c.id))), u'⟩])).filterMap f =
        tr2.filterMap f := by
    intro α f hlock hunlock
    rw [filterMap_cons_none hlock, filterMap_append, filterMap_cons_none hunlock,
      filterMap_nil, append_nil]
  refine ⟨now, ?_, ?_⟩
  · rw [clockReadings, hquiet _ rfl rfl]
    exact hclock
  · rw [twitchAnswers, hquiet _ rfl rfl]
    exact hres.imp (fun _ h => h) (passive_stored hunlock trivial).1

end W

/-! ## What the answers say -/

variable {answers : List (Sigma TwitchCall.Ans)}

theorem Granted.same (h : Granted cfg forceRefresh now c answers c') : SameCredential c c' := by
  cases h <;> exact ⟨rfl, rfl⟩

theorem Granted.confirmed (h : Granted cfg forceRefresh now c answers c') :
    (c' = c ∧ ¬ Unvalidated now c) ∨
      c'.lastValidatedAt = now ∧ ∃ e ∈ confirmations now answers, e.time = now ∧ e.Vets cfg c' := by
  cases h with
  | kept hforce hexpiry hval => exact .inl ⟨rfl, hval⟩
  | validated validation hforce hexpiry hunvalidated hmatch =>
    exact .inr ⟨rfl, ⟨now, c.accessToken, validation⟩, by simp [confirmations], rfl, rfl, hmatch⟩
  | refreshed token validation hdue hmatch =>
    exact .inr ⟨rfl, ⟨now, token.accessToken, validation⟩, by simp [confirmations], rfl, rfl,
      hmatch⟩
  | revoked err token validation hmatch =>
    exact .inr ⟨rfl, ⟨now, token.accessToken, validation⟩, by simp [confirmations], rfl, rfl,
      hmatch⟩

/-- The token lasts for the reserve, or was just refreshed. -/
def KeepsReserve (cfg : ServerConfig) (now : Time) (answers : List (Sigma TwitchCall.Ans))
    (c' : AuthCredential) : Prop :=
  now + cfg.authAccessRefreshAhead ≤ c'.accessExpiresAt ∨ Refreshed answers

/-- A stored token that is validated, not refreshed, gets the reserve from Twitch. -/
def ReserveConfirmed (cfg : ServerConfig) (forceRefresh : Bool) (now : Time) (c : AuthCredential)
    (answers : List (Sigma TwitchCall.Ans)) : Prop :=
  forceRefresh = false → ¬ NearExpiry cfg now c → Unvalidated now c →
    ∀ validation, firstValidation answers = some (.ok validation) →
      cfg.authAccessRefreshAhead ≤ durationSeconds validation.expiresIn

theorem le_refreshAhead (cfg : ServerConfig) : cfg.authAccessRefreshAhead ≤ refreshAhead cfg := by
  unfold refreshAhead
  split_ifs with h
  · exact h.trans (by decide)
  · exact le_rfl

theorem Granted.keepsReserve_iff (h : Granted cfg forceRefresh now c answers c') :
    KeepsReserve cfg now answers c' ↔ ReserveConfirmed cfg forceRefresh now c answers := by
  cases h with
  | kept hforce hexpiry hval =>
    refine iff_of_true (.inl ?_) (fun _ _ hunvalidated => absurd hunvalidated hval)
    have hahead := le_refreshAhead cfg
    have hlasts := not_lt.mp hexpiry
    linarith
  | validated validation hforce hexpiry hunvalidated =>
    have hno : ¬ Refreshed [⟨.validate c.accessToken, .ok validation⟩] := by
      simp [Refreshed]
    rw [KeepsReserve, or_iff_left hno]
    -- the expiry is the one that Twitch answers
    constructor
    · intro hlasts _ _ _ v hv
      cases hv
      exact le_of_add_le_add_left hlasts
    · intro hreserve
      exact add_le_add_right (hreserve hforce hexpiry hunvalidated validation rfl) now
  | refreshed token validation hdue =>
    refine iff_of_true (.inr ⟨_, token, mem_cons_self⟩) ?_
    intro hforce hexpiry
    rcases hdue with hforced | hnear
    · exact absurd hforced (by rw [hforce]; decide)
    · exact absurd hnear hexpiry
  | revoked err token =>
    refine iff_of_true (.inr ⟨_, token, mem_cons_of_mem _ mem_cons_self⟩) ?_
    intro _ _ _ v hv
    cases hv

end Lease

/-! ## Sequences of leases -/

/-- The token was confirmed at its last validation. -/
def Watched (cfg : ServerConfig) (c0 : AuthCredential) (w : World) (log : List Confirmation)
    (now : Time) : Prop :=
  ∃ c, w.auth.credentials.lookup c0.id = some c ∧ SameCredential c0 c ∧
    ∃ e ∈ log, e.Vets cfg c ∧ e.time = c.lastValidatedAt ∧ e.time ≤ now

/-- Leases of one credential at non-decreasing times. -/
inductive LeaseRun (env : Env) (c0 : AuthCredential) :
    World → List Confirmation → Time → Prop
  | start {w : World} {log : List Confirmation} (now : Time)
      (hstored : w.auth.credentials.lookup c0.id = some c0)
      (hconf : ∃ e ∈ log, e.Vets env.cfg c0 ∧ e.time = c0.lastValidatedAt ∧ e.time ≤ now) :
      LeaseRun env c0 w log now
  | lease {w w' : World} {log : List Confirmation} {now t : Time} {forceRefresh : Bool}
      {tr : Trace} {result : Result AuthCredential}
      (h : LeaseRun env c0 w log now)
      (hrun : Prog.Runs (execStored env) (lease env c0.id forceRefresh) w tr result w')
      (hclock : clockReadings tr = [t]) (hle : now ≤ t) :
      LeaseRun env c0 w' (log ++ confirmations t (twitchAnswers tr)) t

section Run

variable {c0 : AuthCredential} {log : List Confirmation} {t : Time}

theorem SameCredential.trans {c1 c2 c3 : AuthCredential} (h : SameCredential c1 c2)
    (h' : SameCredential c2 c3) : SameCredential c1 c3 :=
  ⟨h'.1.trans h.1, h'.2.trans h.2⟩

theorem lease_granted_at (hc : w.auth.credentials.lookup c0.id = some c) (hid : c.id = c0.id)
    (hrun : Prog.Runs (execStored env) (lease env c0.id forceRefresh) w tr result w')
    (hclock : clockReadings tr = [t]) :
    LeaseResult (Granted env.cfg forceRefresh t c) c (twitchAnswers tr) w' result := by
  rw [← hid] at hc hrun
  obtain ⟨now, hreading, hres⟩ := lease_granted hc hrun
  rw [hclock] at hreading
  cases hreading
  exact hres

theorem Watched.after (h : Watched env.cfg c0 w log now)
    (hrun : Prog.Runs (execStored env) (lease env c0.id forceRefresh) w tr result w')
    (hclock : clockReadings tr = [t]) (hle : now ≤ t) :
    Watched env.cfg c0 w' (log ++ confirmations t (twitchAnswers tr)) t := by
  obtain ⟨c, hc, hsame, e, he, hvets, htime, hpast⟩ := h
  have hkept : ∃ e ∈ log ++ confirmations t (twitchAnswers tr),
      e.Vets env.cfg c ∧ e.time = c.lastValidatedAt ∧ e.time ≤ t :=
    ⟨e, mem_append_left _ he, hvets, htime, hpast.trans hle⟩
  cases lease_granted_at hc hsame.1 hrun hclock with
  | error err hstored => exact ⟨c, hsame.1 ▸ hstored, hsame, hkept⟩
  | ok c' hgrant hstored =>
    refine ⟨c', hsame.1 ▸ hstored, hsame.trans hgrant.same, ?_⟩
    rcases hgrant.confirmed with ⟨rfl, -⟩ | ⟨hval, e', he', htime', hvets'⟩
    · exact hkept
    · exact ⟨e', mem_append_right _ he', hvets', htime'.trans hval.symm, htime'.le⟩

theorem LeaseRun.watched (h : LeaseRun env c0 w log now) : Watched env.cfg c0 w log now := by
  induction h with
  | start now hstored hconf => exact ⟨c0, hstored, ⟨rfl, rfl⟩, hconf⟩
  | lease _ hrun hclock hle ih => exact ih.after hrun hclock hle

/-- **A leased token is vetted**: it is the stored one, for the same user, and was confirmed in the
last 55 minutes. **It is fresh**, or was refreshed, exactly if a validation that was due confirmed
the reserve. -/
theorem leased_token_fresh_iff (h : LeaseRun env c0 w log now)
    (hc : w.auth.credentials.lookup c0.id = some c)
    (hrun : Prog.Runs (execStored env) (lease env c0.id forceRefresh) w tr (.ok c') w')
    (hclock : clockReadings tr = [t]) (hle : now ≤ t) :
    w'.auth.credentials.lookup c0.id = some c' ∧ c'.userID = c0.userID ∧
      (∃ e ∈ log ++ confirmations t (twitchAnswers tr),
        e.Vets env.cfg c' ∧ e.time ≤ t ∧ t - e.time < 55 * minute) ∧
      (KeepsReserve env.cfg t (twitchAnswers tr) c' ↔
        ReserveConfirmed env.cfg forceRefresh t c (twitchAnswers tr)) := by
  obtain ⟨c1, hc1, hsame, e, he, hvets, htime, hpast⟩ := h.watched
  cases hc.symm.trans hc1
  cases lease_granted_at hc hsame.1 hrun hclock with
  | ok _ hgrant hstored =>
    refine ⟨hsame.1 ▸ hstored, (hsame.trans hgrant.same).2, ?_, hgrant.keepsReserve_iff⟩
    rcases hgrant.confirmed with ⟨rfl, hrecent⟩ | ⟨-, e', he', htime', hvets'⟩
    · refine ⟨e, mem_append_left _ he, hvets, hpast.trans hle, ?_⟩
      rw [htime]
      exact not_le.mp hrecent
    · refine ⟨e', mem_append_right _ he', hvets', htime'.le, ?_⟩
      rw [htime', sub_self]
      decide

end Run

/-! ## A validation that is due -/

/-- It lasts for ten hours, and was confirmed at the zero time. -/
def confirmedCredential : AuthCredential := { viewerCredential with accessExpiresAt := 10 * hour }

/-- A confirmed credential. -/
def confirmedWorld : World :=
  { auth := { credentials := AList.insert "fc1_a" confirmedCredential ∅ }
    refreshTokens := ["refresh"] }

/-- Its confirmation. -/
def firstConfirmation : Confirmation := ⟨0, "access", validToken.validation⟩

theorem confirmedWorld_run : LeaseRun .pg confirmedCredential confirmedWorld
    [firstConfirmation] hour :=
  .start hour rfl ⟨firstConfirmation, mem_singleton_self _, ⟨rfl, by decide⟩, rfl, by decide⟩

/-- An hour later; `expiresIn` is Twitch's answer. -/
def dueLease (expiresIn : Int) : List Choice :=
  [{}, {}, { now := hour }, { validation := { validToken.validation with expiresIn } }, {}, {}]

/-- The calls of a lease. -/
def leaseTrace (expiresIn : Int) : Trace :=
  [⟨.env (.lock (.credential 5)), ()⟩, ⟨.auth (.getCredential "fc1_a"), .ok confirmedCredential⟩,
    ⟨.env .now, hour⟩,
    ⟨.twitch (.validate "access"), .ok { validToken.validation with expiresIn }⟩,
    ⟨.auth (.putCredential (validatedCredential hour { validToken.validation with expiresIn }
      confirmedCredential)), .ok ()⟩,
    ⟨.env (.unlock (.credential 5)), ()⟩]

theorem dueLease_runs {expiresIn : Int} (h : expiresIn = 60 ∨ expiresIn = 3600) :
    ∃ w', Prog.Runs (execStored .pg) (lease .pg confirmedCredential.id false) confirmedWorld
      (leaseTrace expiresIn) (.ok (validatedCredential hour
        { validToken.validation with expiresIn } confirmedCredential)) w' := by
  have heval : ∃ w', Prog.eval (execStored .pg)
      (lease .pg confirmedCredential.id false) (dueLease expiresIn)
      confirmedWorld = some (leaseTrace expiresIn, .ok (validatedCredential hour
        { validToken.validation with expiresIn } confirmedCredential), w') := by
    rcases h with rfl | rfl
    · exact ⟨_, rfl⟩
    · exact ⟨_, rfl⟩
  obtain ⟨w', hw'⟩ := heval
  exact ⟨w', Prog.eval_runs hw'⟩

/-- Twitch gives the token an hour. -/
theorem hour_long_token_leased :
    KeepsReserve Env.pg.cfg hour (twitchAnswers (leaseTrace 3600))
      (validatedCredential hour { validToken.validation with expiresIn := 3600 }
        confirmedCredential) := by
  obtain ⟨w', hrun⟩ := dueLease_runs (.inr rfl)
  refine (leased_token_fresh_iff confirmedWorld_run rfl hrun rfl le_rfl).2.2.2.mpr ?_
  intro _ _ _ validation hvalidation
  cases hvalidation
  decide

/-- Twitch gives the token a minute, and it is returned without being refreshed. -/
theorem minute_long_token_leased :
    ∃ log now c w', LeaseRun .pg confirmedCredential confirmedWorld log now ∧
      now ≤ hour ∧ clockReadings (leaseTrace 60) = [hour] ∧
      Prog.Runs (execStored .pg)
        (lease .pg confirmedCredential.id false) confirmedWorld (leaseTrace 60)
        (.ok c) w' ∧
      ¬ KeepsReserve Env.pg.cfg hour (twitchAnswers (leaseTrace 60)) c := by
  obtain ⟨w', hrun⟩ := dueLease_runs (.inl rfl)
  refine ⟨_, _, _, w', confirmedWorld_run, le_rfl, rfl, hrun, ?_⟩
  rintro (hlasts | ⟨old, token, hmem⟩)
  · exact absurd hlasts (by decide)
  · cases mem_singleton.mp hmem

end Ferventio
