import Ferventio.OAuth.Client
import Ferventio.Delivery.Laws
import Ferventio.Server.World

/-!
# Rotating a refresh token

`lease` exchanges the stored refresh token for a new one, and Twitch accepts the old one no more.
The new one is stored only after it was validated. Here storage always succeeds, while each request
to Twitch may fail.
-/

namespace Ferventio

open Prog List

variable {c : AuthCredential} {force : Bool} {cfg : ServerConfig} {result : Result AuthCredential}
  {old : String} {token : TwitchTokenResponse}

/-- The old refresh token and the new tokens of an exchange. -/
def exchangeOf : Sigma Call.Ans → Option (String × TwitchTokenResponse)
  | ⟨.twitch (.requestToken (.refreshToken old)), .ok token⟩ => some (old, token)
  | _ => none

/-- The access token and Twitch's answer. -/
def validationOf : Sigma Call.Ans → Option (String × TwitchValidationResponse)
  | ⟨.twitch (.validate accessToken), .ok validation⟩ => some (accessToken, validation)
  | _ => none

/-- Twitch exchanged the token. -/
def Exchanged (tr : Trace) (old : String) (token : TwitchTokenResponse) : Prop :=
  (old, token) ∈ tr.filterMap exchangeOf

/-- Twitch validated the new access token for client, user and scopes. -/
def Confirmed (cfg : ServerConfig) (cred : AuthCredential) (tr : Trace)
    (token : TwitchTokenResponse) : Prop :=
  ∃ validation ∈ tr.filterMap validationOf,
    validation.1 = token.accessToken ∧ validationMatches cfg cred validation.2

/-- The stored refresh token is one that Twitch accepts. -/
def Accepted (w : World) (cid : String) : Prop :=
  ∃ cred, w.auth.credentials.lookup cid = some cred ∧ cred.refreshToken ∈ w.refreshTokens

/-- Only what a validation or a refresh replaces may differ. -/
def SameCredential (c c' : AuthCredential) : Prop := c'.id = c.id ∧ c'.userID = c.userID

/-- The tokens that Twitch accepts next. -/
def rotatedTokens (old : String) (token : TwitchTokenResponse) (accepted : List String) :
    List String :=
  token.refreshToken :: accepted.filter (· != old)

theorem new_mem_rotatedTokens (old : String) (token : TwitchTokenResponse)
    (accepted : List String) : token.refreshToken ∈ rotatedTokens old token accepted :=
  mem_cons_self

theorem old_not_mem_rotatedTokens (h : token.refreshToken ≠ old) (accepted : List String) :
    old ∉ rotatedTokens old token accepted := by
  intro hmem
  rcases mem_cons.mp hmem with heq | hmem
  · exact h heq.symm
  · simp at hmem

/-- **The outcomes of a lease.** -/
inductive LeaseOutcome (env : Env) (c : AuthCredential) (w w' : World)
    (tr : Trace) : Prop
  | kept (c' : AuthCredential) (hno : ∀ old token, ¬Exchanged tr old token)
      (hstored : w'.auth.credentials.lookup c.id = some c') (hsame : SameCredential c c')
      (htoken : c'.refreshToken = c.refreshToken) (hacc : w'.refreshTokens = w.refreshTokens)
  | lost (token : TwitchTokenResponse) (hexchanged : Exchanged tr c.refreshToken token)
      (hunconfirmed : ¬Confirmed env.cfg c tr token)
      (hstored : w'.auth.credentials.lookup c.id = some c)
      (hmem : c.refreshToken ∈ w.refreshTokens)
      (hacc : w'.refreshTokens = rotatedTokens c.refreshToken token w.refreshTokens)
  | rotated (c' : AuthCredential) (token : TwitchTokenResponse)
      (honly : ∀ old token', Exchanged tr old token' → token' = token)
      (hconfirmed : Confirmed env.cfg c tr token) (hmem : c.refreshToken ∈ w.refreshTokens)
      (hstored : w'.auth.credentials.lookup c.id = some c') (hsame : SameCredential c c')
      (htoken : c'.refreshToken = token.refreshToken)
      (hacc : w'.refreshTokens = rotatedTokens c.refreshToken token w.refreshTokens)

/-! ## Single calls -/

section Calls

variable {env : Env} {x : Choice} {w w' : World}

theorem getCredential_stored {id : String} {ans : Result AuthCredential}
    (hc : w.auth.credentials.lookup id = some c)
    (h : execStored env (.auth (.getCredential id)) x w = some (ans, w')) :
    ans = .ok c ∧ w' = w := by
  obtain ⟨hfault, h⟩ := exec_of_execStored h
  simp only [exec, execAuth, Option.some.injEq, Prod.mk.injEq] at h
  obtain ⟨rfl, rfl⟩ := h
  cases env.backend with
  | memory => simp [Memory.execAuth, Memory.getCredential, hc]
  | postgres =>
    simp [Postgres.execAuth, withFault, hfault, Postgres.answerAuth, Postgres.getCredential,
      Memory.getCredential, hc]

theorem putCredential_stored {ans : Result Unit}
    (h : execStored env (.auth (.putCredential c)) x w = some (ans, w')) :
    ans = .ok () ∧ w'.auth.credentials.lookup c.id = some c ∧
      w'.refreshTokens = w.refreshTokens := by
  obtain ⟨hfault, h⟩ := exec_of_execStored h
  simp only [exec, execAuth, Option.some.injEq, Prod.mk.injEq] at h
  obtain ⟨rfl, rfl⟩ := h
  cases env.backend with
  | memory => simp [Memory.execAuth, Memory.putCredential]
  | postgres =>
    simp [Postgres.execAuth, withFault, hfault, Postgres.answerAuth, Postgres.putCredential,
      Memory.putCredential]

theorem requestToken_stored {ans : Result TwitchTokenResponse}
    (h : execStored env (.twitch (.requestToken (.refreshToken old))) x w = some (ans, w')) :
    w'.auth = w.auth ∧
      ((∃ err, ans = .error err) ∧ w'.refreshTokens = w.refreshTokens ∨
        ∃ token, ans = .ok token ∧ old ∈ w.refreshTokens ∧
          w'.refreshTokens = rotatedTokens old token w.refreshTokens) := by
  obtain ⟨-, h⟩ := exec_of_execStored h
  simp only [exec, execTwitch, Option.some.injEq, Prod.mk.injEq] at h
  obtain ⟨rfl, rfl⟩ := h
  refine ⟨rfl, ?_⟩
  simp only [requestToken]
  split
  · exact .inl ⟨⟨_, rfl⟩, rfl⟩
  · split_ifs with hincomplete hacc
    · exact .inl ⟨⟨_, rfl⟩, rfl⟩
    · exact .inr ⟨_, rfl, by simpa using hacc, rfl⟩
    · exact .inl ⟨⟨_, rfl⟩, rfl⟩

/-- It touches neither credentials nor accepted tokens. -/
def Passive : Call → Prop
  | .twitch (.validate _) => True
  | .env .now => True
  | .env (.lock _) => True
  | .env (.unlock _) => True
  | _ => False

theorem passive_stored {call : Call} {a : call.Ans}
    (h : execStored env call x w = some (a, w')) (hcall : Passive call) :
    w'.auth = w.auth ∧ w'.refreshTokens = w.refreshTokens := by
  obtain ⟨-, h⟩ := exec_of_execStored h
  unfold Passive at hcall
  split at hcall
  · cases h
    exact ⟨rfl, rfl⟩
  · cases h
    exact ⟨rfl, rfl⟩
  · simp only [exec, execEnv] at h
    split at h <;> cases h
    exact ⟨rfl, rfl⟩
  · cases h
    exact ⟨rfl, rfl⟩
  · exact hcall.elim

end Calls

/-! ## One lease -/

section Lease

variable {env : Env} {c : AuthCredential} {w w0 w1 w' : World} {tr tr1 tr2 : Trace}

theorem exchanged_append_iff :
    Exchanged (tr1 ++ tr2) old token ↔ Exchanged tr1 old token ∨ Exchanged tr2 old token := by
  rw [Exchanged, filterMap_append, mem_append]
  rfl

theorem confirmed_append_iff :
    Confirmed cfg c (tr1 ++ tr2) token ↔ Confirmed cfg c tr1 token ∨ Confirmed cfg c tr2 token := by
  simp only [Confirmed, filterMap_append, mem_append, or_and_right, exists_or]

/-- It neither exchanges nor validates a token. -/
def Quiet (cfg : ServerConfig) (c : AuthCredential) (tr : Trace) : Prop :=
  (∀ old token, ¬Exchanged tr old token) ∧ ∀ token, ¬Confirmed cfg c tr token

theorem LeaseOutcome.embed (h : LeaseOutcome env c w0 w1 tr) (tr1 tr2 : Trace)
    (h1 : Quiet env.cfg c tr1) (h2 : Quiet env.cfg c tr2)
    (hbefore : w0.refreshTokens = w.refreshTokens)
    (hafter : w'.auth = w1.auth ∧ w'.refreshTokens = w1.refreshTokens) :
    LeaseOutcome env c w w' (tr1 ++ (tr ++ tr2)) := by
  have hexchanged : ∀ old token, Exchanged (tr1 ++ (tr ++ tr2)) old token ↔
      Exchanged tr old token := by
    intro old token
    simp [exchanged_append_iff, h1.1, h2.1]
  have hconfirmed : ∀ token, Confirmed env.cfg c (tr1 ++ (tr ++ tr2)) token ↔
      Confirmed env.cfg c tr token := by
    intro token
    simp [confirmed_append_iff, h1.2, h2.2]
  cases h with
  | kept c' hno hstored hsame htoken hacc =>
    refine .kept c' (fun old token => ?_) (hafter.1 ▸ hstored) hsame htoken ?_
    · rw [hexchanged]
      exact hno old token
    · rw [hafter.2, hacc, hbefore]
  | lost token hexch hunconfirmed hstored hmem hacc =>
    refine .lost token ((hexchanged _ _).mpr hexch) ?_ (hafter.1 ▸ hstored) (hbefore ▸ hmem) ?_
    · rw [hconfirmed]
      exact hunconfirmed
    · rw [hafter.2, hacc, hbefore]
  | rotated c' token honly hconf hmem hstored hsame htoken hacc =>
    refine .rotated c' token (fun old token' hexch => honly old token' ?_)
      ((hconfirmed token).mpr hconf) (hbefore ▸ hmem) (hafter.1 ▸ hstored) hsame htoken ?_
    · exact (hexchanged old token').mp hexch
    · rw [hafter.2, hacc, hbefore]

variable (hc : w.auth.credentials.lookup c.id = some c)

include hc

theorem refreshCredential_outcome {now : Time}
    (hrun : Runs (execStored env) (refreshCredential env now c) w tr result w') :
    LeaseOutcome env c w w' tr := by
  obtain ⟨x, ans, w1, tr1, hreq, rfl, hrest⟩ := hrun.of_perform
  obtain ⟨hauth, ⟨⟨err, rfl⟩, hsame⟩ | ⟨token, rfl, hmem, hrotated⟩⟩ := requestToken_stored hreq
  · obtain ⟨rfl, -, rfl⟩ := hrest.of_ret
    exact .kept c (by simp [Exchanged, exchangeOf]) (hauth ▸ hc) ⟨rfl, rfl⟩ rfl hsame
  · obtain ⟨x, validation, w2, tr2, hvalidate, rfl, hrest2⟩ := hrest.of_perform
    obtain ⟨hauth2, htoks2⟩ := passive_stored hvalidate trivial
    have hlost : ∀ (ans : Result TwitchValidationResponse),
        (∀ validation, ans = .ok validation →
          validationMatches env.cfg c validation ≠ true) →
        LeaseOutcome env c w w2
          [⟨.twitch (.requestToken (.refreshToken c.refreshToken)), .ok token⟩,
          ⟨.twitch (.validate token.accessToken), ans⟩] := by
      intro ans hans
      refine .lost token (by simp [Exchanged, exchangeOf]) ?_ (by rw [hauth2, hauth]; exact hc) hmem
        (htoks2.trans hrotated)
      rintro ⟨validation, hval, -, hmatch⟩
      cases ans with
      | error => simp [validationOf] at hval
      | ok v =>
        simp [validationOf] at hval
        subst hval
        exact hans v rfl hmatch
    cases validation with
    | error =>
      obtain ⟨rfl, -, rfl⟩ := hrest2.of_ret
      exact hlost _ (fun _ h => by cases h)
    | ok validation =>
      dsimp only at hrest2
      split at hrest2
      · rename_i hmis
        obtain ⟨rfl, -, rfl⟩ := hrest2.of_ret
        refine hlost _ (fun v hv => ?_)
        cases hv
        simpa using hmis
      · rename_i hmatch
        obtain ⟨x, stored, w3, tr3, hput, rfl, hrest3⟩ := hrest2.of_perform
        obtain ⟨rfl, hstored, htoks3⟩ := putCredential_stored hput
        obtain ⟨rfl, -, rfl⟩ := hrest3.of_ret
        refine .rotated _ token ?_ ⟨(token.accessToken, validation), by simp [validationOf], rfl,
          by simpa using hmatch⟩ hmem hstored ⟨rfl, rfl⟩ rfl
          (htoks3.trans (htoks2.trans hrotated))
        intro old token' hexch
        simp [Exchanged, exchangeOf] at hexch
        exact hexch.2

theorem leaseLocked_outcome
    (hrun : Runs (execStored env) (leaseLocked env c.id force) w tr result w') :
    LeaseOutcome env c w w' tr := by
  obtain ⟨x, ans, w1, tr1, hget, rfl, hrest⟩ := hrun.of_perform
  obtain ⟨rfl, rfl⟩ := getCredential_stored hc hget
  obtain ⟨x, now, w2, tr2, hnow, rfl, hrest2⟩ := hrest.of_perform
  obtain ⟨hauth2, htoks2⟩ := passive_stored hnow trivial
  have hc2 : w2.auth.credentials.lookup c.id = some c := hauth2 ▸ hc
  have hquiet : Quiet env.cfg c [⟨.auth (.getCredential c.id), .ok c⟩, ⟨.env .now, now⟩] := by
    simp [Quiet, Exchanged, Confirmed, exchangeOf, validationOf]
  -- the first two calls do not matter
  suffices h : LeaseOutcome env c w2 w' tr2 by
    have hembed := h.embed _ [] hquiet
      (by simp [Quiet, Exchanged, Confirmed, exchangeOf, validationOf]) htoks2 ⟨rfl, rfl⟩
    rwa [append_nil] at hembed
  dsimp only at hrest2
  split at hrest2
  · exact refreshCredential_outcome hc2 hrest2
  · split at hrest2
    · obtain ⟨x, ans, w3, tr3, hvalidate, rfl, hrest3⟩ := hrest2.of_perform
      obtain ⟨hauth3, htoks3⟩ := passive_stored hvalidate trivial
      have hc3 : w3.auth.credentials.lookup c.id = some c := hauth3 ▸ hc2
      cases ans with
      | error err =>
        dsimp only at hrest3
        split at hrest3
        · have h := (refreshCredential_outcome hc3 hrest3).embed
            [⟨.twitch (.validate c.accessToken), .error err⟩] []
            (by simp [Quiet, Exchanged, Confirmed, exchangeOf, validationOf])
            (by simp [Quiet, Exchanged, Confirmed, exchangeOf, validationOf])
            htoks3 ⟨rfl, rfl⟩
          rwa [append_nil] at h
        · obtain ⟨rfl, -, rfl⟩ := hrest3.of_ret
          exact .kept c (by simp [Exchanged, exchangeOf]) hc3 ⟨rfl, rfl⟩ rfl htoks3
      | ok =>
        dsimp only at hrest3
        split at hrest3
        · obtain ⟨rfl, -, rfl⟩ := hrest3.of_ret
          exact .kept c (by simp [Exchanged, exchangeOf]) hc3 ⟨rfl, rfl⟩ rfl htoks3
        · obtain ⟨x, stored, w4, tr4, hput, rfl, hrest4⟩ := hrest3.of_perform
          obtain ⟨rfl, hstored, htoks4⟩ := putCredential_stored hput
          obtain ⟨rfl, -, rfl⟩ := hrest4.of_ret
          exact .kept _ (by simp [Exchanged, exchangeOf]) hstored ⟨rfl, rfl⟩ rfl
            (htoks4.trans htoks3)
    · obtain ⟨rfl, -, rfl⟩ := hrest2.of_ret
      exact .kept c (by simp [Exchanged, exchangeOf]) hc2 ⟨rfl, rfl⟩ rfl rfl

theorem lease_outcome
    (hrun : Runs (execStored env) (lease env c.id force) w tr result w') :
    LeaseOutcome env c w w' tr := by
  obtain ⟨x, u, w1, tr1, hlock, rfl, hrest⟩ := hrun.of_perform
  obtain ⟨hauth1, htoks1⟩ := passive_stored hlock trivial
  obtain ⟨tr2, tr3, ans, w2, rfl, hlocked, hrest2⟩ := hrest.of_bind
  obtain ⟨x, u', w3, tr4, hunlock, rfl, hrest3⟩ := hrest2.of_perform
  obtain ⟨rfl, -, rfl⟩ := hrest3.of_ret
  exact (leaseLocked_outcome (hauth1 ▸ hc) hlocked).embed [_] _
    (by simp [Quiet, Exchanged, Confirmed, exchangeOf, validationOf])
    (by simp [Quiet, Exchanged, Confirmed, exchangeOf, validationOf]) htoks1
    (passive_stored hunlock trivial)

end Lease

/-! ## Sequences of leases -/

/-- Leases of one credential, one after another. -/
inductive Leases (env : Env) (cid : String) :
    World → List Trace → World → Prop
  | nil (w : World) : Leases env cid w [] w
  | cons {w w1 w' : World} {tr : Trace} {trs : List Trace}
      {forceRefresh : Bool} {result : Result AuthCredential}
      (hrun : Runs (execStored env) (lease env cid forceRefresh) w tr result w1)
      (hrest : Leases env cid w1 trs w') : Leases env cid w (tr :: trs) w'

section Sequences

variable {env : Env} {c c' : AuthCredential} {w w' : World} {trs : List Trace}

theorem confirmed_congr (h : SameCredential c c') {tr : Trace} :
    Confirmed cfg c' tr token ↔ Confirmed cfg c tr token := by
  simp only [Confirmed, validationMatches, h.2]

theorem lost_is_final (hrun : Leases env c.id w trs w')
    (hc : w.auth.credentials.lookup c.id = some c) (hlost : c.refreshToken ∉ w.refreshTokens) :
    ¬Accepted w' c.id := by
  generalize hid : c.id = id at hrun hc ⊢
  induction hrun generalizing c with
  | nil w =>
    rintro ⟨c', hc', hacc⟩
    rw [hc] at hc'
    cases hc'
    exact hlost hacc
  | cons hlease _ ih =>
    subst hid
    cases lease_outcome hc hlease with
    | kept c' hno hstored hsame htoken hacc =>
      refine ih ?_ hsame.1 hstored
      rw [htoken, hacc]
      exact hlost
    | lost token hexchanged hunconfirmed hstored hmem => exact absurd hmem hlost
    | rotated c' token honly hconfirmed hmem =>
      exact absurd hmem hlost

/-- **A rotated refresh token is kept** exactly when every exchange was followed in its lease by a
validation that succeeds and matches the credential. -/
theorem leases_keep_token_iff (hrun : Leases env c.id w trs w')
    (hc : w.auth.credentials.lookup c.id = some c) (hacc : c.refreshToken ∈ w.refreshTokens)
    (hrotates : ∀ tr ∈ trs, ∀ old token, Exchanged tr old token → token.refreshToken ≠ old) :
    Accepted w' c.id ↔
      ∀ tr ∈ trs, ∀ old token, Exchanged tr old token → Confirmed env.cfg c tr token := by
  generalize hid : c.id = id at hrun hc ⊢
  induction hrun generalizing c with
  | nil w => exact iff_of_true ⟨c, hc, hacc⟩ (by simp)
  | cons hlease hleases ih =>
    subst hid
    rw [forall_mem_cons] at hrotates ⊢
    cases lease_outcome hc hlease with
    | kept c' hno hstored hsame htoken hacc' =>
      rw [ih (by rw [htoken, hacc']; exact hacc) hrotates.2 hsame.1 hstored]
      simp only [confirmed_congr hsame]
      exact (and_iff_right fun old token hexch => absurd hexch (hno old token)).symm
    | lost token hexchanged hunconfirmed hstored hmem hacc' =>
      refine iff_of_false ?_ (fun h => hunconfirmed (h.1 _ _ hexchanged))
      refine lost_is_final hleases hstored ?_
      rw [hacc']
      exact old_not_mem_rotatedTokens (hrotates.1 _ _ hexchanged) _
    | rotated c' token honly hconfirmed hmem hstored hsame htoken hacc' =>
      have hnew := new_mem_rotatedTokens c.refreshToken token
      rw [ih (by rw [htoken, hacc']; exact hnew _) hrotates.2 hsame.1 hstored]
      simp only [confirmed_congr hsame]
      refine (and_iff_right fun old token' hexch => ?_).symm
      rw [honly old token' hexch]
      exact hconfirmed

end Sequences

/-- A credential. -/
def viewerCredential : AuthCredential :=
  { id := "fc1_a", clientID := "client", userID := "7", login := "viewer",
    accessToken := "access", refreshToken := "refresh", accessExpiresAt := 0, lastValidatedAt := 0 }

/-- It is stored. -/
def signedIn : World :=
  { auth := { credentials := AList.insert "fc1_a" viewerCredential ∅ }
    refreshTokens := ["refresh"] }

/-- Twitch answers with a token. -/
def newToken : Choice :=
  { tokenResponse := { accessToken := "access 2", refreshToken := "refresh 2", expiresIn := 3600 } }

/-- Twitch confirms a token. -/
def validToken : Choice :=
  { validation := { clientID := "client", userID := "7", login := "viewer", expiresIn := 3600 } }

/-- A forced lease whose requests succeed keeps the new token. -/
theorem signedIn_keeps_token :
    ∃ trs w', Leases .pg "fc1_a" signedIn trs w' ∧ trs.length = 1 ∧ Accepted w' "fc1_a" := by
  have heval : (Prog.eval (execStored .pg) (lease .pg "fc1_a" true)
      [{}, {}, {}, newToken, validToken, {}, {}] signedIn).map
        (fun r => (r.1.filterMap exchangeOf, r.1.filterMap validationOf)) =
      some ([("refresh", newToken.tokenResponse)], [("access 2", validToken.validation)]) := by
    decide
  obtain ⟨⟨tr, result, w'⟩, hres, htrace⟩ := Option.map_eq_some_iff.mp heval
  obtain ⟨hexchanges, hvalidations⟩ := Prod.mk.injEq .. ▸ htrace
  have hleases : Leases .pg viewerCredential.id signedIn [tr] w' := .cons (eval_runs hres) (.nil _)
  refine ⟨[tr], w', hleases, rfl, (leases_keep_token_iff hleases rfl (by decide) ?_).mpr ?_⟩
  · simp only [mem_singleton, forall_eq, Exchanged, hexchanges]
    rintro old token ⟨⟩
    decide
  · simp only [mem_singleton, forall_eq, Exchanged, hexchanges, Confirmed, hvalidations]
    rintro old token ⟨⟩
    exact ⟨_, rfl, by decide, by decide⟩

/-- The validation of the new access token times out: the stored refresh token is spent. -/
theorem failed_validation_loses_token :
    Accepted signedIn "fc1_a" ∧
      (Prog.eval (execStored .pg) (lease .pg "fc1_a" true)
        [{}, {}, {}, newToken, { failure := some (.plain "timeout") }, {}] signedIn).map
          (fun r => ((r.2.2.auth.credentials.lookup "fc1_a").map (·.refreshToken),
            r.2.2.refreshTokens)) = some (some "refresh", ["refresh 2"]) :=
  ⟨⟨viewerCredential, rfl, by decide⟩, by decide⟩

end Ferventio
