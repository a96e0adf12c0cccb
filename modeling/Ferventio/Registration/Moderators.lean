import Ferventio.Registration.Laws
import Ferventio.Server.Tasks

/-!
# Where moderator rights come from

A client names the channels that its user moderates; `upsertRegistration` keeps those that Twitch
confirms. When Twitch cannot be asked it keeps those of the stored registration, so what is stored
now may have been confirmed by a request long ago, of another process, through a cached answer.

* **`moderator_rights_confirmed`**: each of them was confirmed.
-/

namespace Ferventio

open Strings List System

variable {env : Env} {tr : Trace} {hist : List ServerEvent} {uid id : String}

/-! ## ConfirmedFor channels -/

/-- The calls `tr` of a request read the installation's credential, and Twitch returned the channel
for its user. -/
def Confirms (env : Env) (tr : Trace) (uid id : String) : Prop :=
  ∃ before iid secret cred lookup rest ids,
    tr = before ++ ⟨.auth (.credentialForInstallation iid secret),
        .ok cred⟩ :: (lookup ++ rest) ∧
      cred.userID = uid ∧
      (moderatedChannelIDs env cred.id).Returns lookup (.ok ids) ∧ id ∈ ids

/-- Twitch confirmed the channel for the user. -/
def ConfirmedFor (env : Env) (hist : List ServerEvent) (uid id : String) : Prop :=
  ∃ pid, Confirms env (trace hist pid) uid id

theorem Confirms.append (h : Confirms env tr uid id) (more : Trace) :
    Confirms env (tr ++ more) uid id := by
  obtain ⟨before, iid, secret, cred, lookup, rest, ids, rfl, hrest⟩ := h
  refine ⟨before, iid, secret, cred, lookup, rest ++ more, ids, ?_, hrest⟩
  simp only [append_assoc, cons_append]

theorem ConfirmedFor.cons (h : ConfirmedFor env hist uid id) (e : ServerEvent) :
    ConfirmedFor env (e :: hist) uid id := by
  obtain ⟨pid, hconfirms⟩ := h
  obtain ⟨more, hmore⟩ := trace_cons_eq e hist pid
  exact ⟨pid, hmore ▸ hconfirms.append more⟩

/-- The channel is named, up to case. -/
def Named (env : Env) (ids : List String) (id : String) : Prop :=
  ∃ id' ∈ ids, env.toLower id' = env.toLower id

theorem mem_intersectStrings {values allowed : List String}
    (h : id ∈ intersectStrings env.toLower values allowed) :
    id ∈ values ∧ Named env allowed id := by
  obtain ⟨hmem, hok⟩ := mem_filter.mp h
  obtain ⟨id', hid', heq⟩ := mem_map.mp (contains_iff_mem.mp hok)
  exact ⟨hmem, id', hid', heq⟩

/-- **The moderator channels were confirmed** for the user, and are among the channels. -/
def ModeratorsConfirmed (env : Env) (hist : List ServerEvent) (r : Registration) : Prop :=
  ∀ id ∈ r.moderatorChannelIDs,
    (∃ id', ConfirmedFor env hist r.userID id' ∧ env.toLower id' = env.toLower id) ∧
      Named env r.channelIDs id

/-- A registration without a user, channels and rules. -/
structure HasTransportOnly (r : Registration) : Prop where
  userID : r.userID = ""
  channelIDs : r.channelIDs = []
  moderatorChannelIDs : r.moderatorChannelIDs = []
  notificationRules : r.notificationRules = []
  notificationChannelRules : r.notificationChannelRules = ∅

/-- What a stored registration is, with and without OAuth. -/
def Proper (env : Env) (hist : List ServerEvent) (r : Registration) : Prop :=
  (env.cfg.authEnabled → ModeratorsConfirmed env hist r) ∧
    (env.cfg.authEnabled = false → HasTransportOnly r)

variable {r : Registration}

theorem ModeratorsConfirmed.cons (h : ModeratorsConfirmed env hist r)
    (e : ServerEvent) : ModeratorsConfirmed env (e :: hist) r := by
  intro id hid
  obtain ⟨⟨id', hconf, hcase⟩, hcid⟩ := h id hid
  exact ⟨⟨id', hconf.cons e, hcase⟩, hcid⟩

theorem Proper.cons (h : Proper env hist r) (e : ServerEvent) : Proper env (e :: hist) r :=
  ⟨fun hauth => (h.1 hauth).cons e, h.2⟩

theorem Proper.congr {r' : Registration} (h : Proper env hist r) (huser : r'.userID = r.userID)
    (hchannels : r'.channelIDs = r.channelIDs)
    (hmods : r'.moderatorChannelIDs = r.moderatorChannelIDs)
    (hrules : r'.notificationRules = r.notificationRules)
    (hchannelRules : r'.notificationChannelRules = r.notificationChannelRules) :
    Proper env hist r' := by
  refine ⟨fun hauth => ?_, fun hnone => ?_⟩
  · unfold ModeratorsConfirmed
    rw [huser, hchannels, hmods]
    exact h.1 hauth
  · obtain ⟨huser', hchannels', hmods', hrules', hchannelRules'⟩ := h.2 hnone
    exact ⟨huser.trans huser', hchannels.trans hchannels', hmods.trans hmods',
      hrules.trans hrules', hchannelRules.trans hchannelRules'⟩

/-! ## What a request writes -/

/-- The channel was confirmed to the request, or stands in the user's registration that it read. -/
def Known (env : Env) (tr : Trace) (uid id : String) : Prop :=
  Confirms env tr uid id ∨
    ∃ iid existing, ⟨.registration (.get iid), .ok existing⟩ ∈ tr ∧
      existing.userID = uid ∧ id ∈ existing.moderatorChannelIDs

theorem Known.append (h : Known env tr uid id) (more : Trace) : Known env (tr ++ more) uid id := by
  rcases h with hconfirms | ⟨iid, existing, hread, hrest⟩
  · exact .inl (hconfirms.append more)
  · exact .inr ⟨iid, existing, mem_append_left more hread, hrest⟩

/-- The moderator channels are known to the request. -/
def ModeratorsKnown (env : Env) (tr : Trace) (r : Registration) : Prop :=
  ∀ id ∈ r.moderatorChannelIDs,
    (∃ id', Known env tr r.userID id' ∧ env.toLower id' = env.toLower id) ∧
      Named env r.channelIDs id

theorem ModeratorsKnown.append (h : ModeratorsKnown env tr r)
    (more : Trace) : ModeratorsKnown env (tr ++ more) r := by
  intro id hid
  obtain ⟨⟨id', hknown, hcase⟩, hcid⟩ := h id hid
  exact ⟨⟨id', hknown.append more, hcase⟩, hcid⟩

/-- What a request that has made the calls `tr` may write. -/
def Supports (env : Env) (tr : Trace) : Call → Prop
  | .registration (.upsert r) =>
    (env.cfg.authEnabled → ModeratorsKnown env tr r) ∧
      (env.cfg.authEnabled = false → HasTransportOnly r)
  | _ => True

theorem supports_of_effect {call : Call} (h : call.effect ≠ .register) : Supports env tr call := by
  unfold Supports
  split
  · exact absurd rfl h
  · trivial

/-- The code writes only what its calls support. -/
def FollowsSupport (env : Env) {α : Type} (post : α → Trace → Prop) (p : Handler α)
    (tr : Trace) : Prop :=
  Follows remember (Supports env) post p tr

theorem followsSupport_of_within {effects : List Effect} {α : Type} {p : Handler α}
    (h : Within effects p) (heffs : effects.contains .register = false) :
    FollowsSupport env (fun a tr' => ∃ more, tr' = tr ++ more ∧ p.Returns more a) p tr := by
  refine follows_returns tr h fun tr call hcall => supports_of_effect fun hregister => ?_
  rw [hregister, heffs] at hcall
  cases hcall

theorem respond_followsSupport (status : Nat) (text : String) :
    FollowsSupport env (fun _ _ => True) (respond status text) tr :=
  ⟨trivial, fun _ => trivial⟩

theorem verifiedModeratorChannels_followsSupport {iid secret : String}
    {cred : AuthCredential} (reg : Registration) :
    FollowsSupport env
      (fun ids tr' => ∀ id ∈ ids, id ∈ reg.moderatorChannelIDs ∧
        ∃ id', Known env tr' cred.userID id' ∧ env.toLower id' = env.toLower id)
      (verifiedModeratorChannels env cred reg)
      (tr ++ [⟨.auth (.credentialForInstallation iid secret), .ok cred⟩]) := by
  refine Follows.bind (followsSupport_of_within (moderatedChannelIDs_within env cred.id) rfl) ?_
  rintro ans tr' ⟨lookup, rfl, hreturns⟩
  cases ans with
  | ok verified =>
    intro id hid
    obtain ⟨hreq, id', hid', hcase⟩ := mem_intersectStrings hid
    refine ⟨hreq, id', .inl ⟨tr, iid, secret, cred, lookup, [],
      verified, ?_, rfl, hreturns, hid'⟩, hcase⟩
    rw [append_nil, append_assoc, singleton_append]
  | error err =>
    refine .perform_bind trivial fun ans => ?_
    cases ans with
    | error =>
      intro id hid
      cases hid
    | ok existing =>
      dsimp only
      split_ifs with huser
      · intro id hid
        obtain ⟨hreq, id', hid', hcase⟩ := mem_intersectStrings hid
        refine ⟨hreq, id', .inr ⟨reg.installationID, existing, ?_, huser, hid'⟩, hcase⟩
        exact mem_append_right _ mem_cons_self
      · intro id hid
        cases hid

theorem saveRegistration_followsSupport {reg : Registration}
    (hauth : env.cfg.authEnabled → ModeratorsKnown env tr reg)
    (hnone : env.cfg.authEnabled = false → HasTransportOnly reg) :
    FollowsSupport env (fun _ _ => True) (saveRegistration reg) tr := by
  refine .perform_bind trivial fun now => .perform_bind ⟨fun h => ?_, fun h => ?_⟩ fun ans => ?_
  · exact (hauth h).append _
  · exact ⟨(hnone h).userID, (hnone h).channelIDs, (hnone h).moderatorChannelIDs,
      (hnone h).notificationRules, (hnone h).notificationChannelRules⟩
  · cases ans with
    | error =>
      dsimp only
      split_ifs <;> exact respond_followsSupport _ _
    | ok => exact .perform_bind trivial fun _ => ⟨trivial, fun _ => trivial⟩

theorem upsertRegistration_followsSupport (iid : String) (reg : Registration) :
    FollowsSupport env (fun _ _ => True) (upsertRegistration env iid reg) tr := by
  unfold upsertRegistration
  split
  · exact respond_followsSupport _ _
  dsimp only
  split
  · exact respond_followsSupport _ _
  refine .perform_bind trivial fun allowed => ?_
  split
  · exact respond_followsSupport _ _
  split
  · rename_i hauth
    refine .perform_bind trivial fun ans => ?_
    cases ans with
    | error => exact respond_followsSupport _ _
    | ok =>
      refine Follows.bind (verifiedModeratorChannels_followsSupport _) ?_
      intro ids tr' hids
      refine saveRegistration_followsSupport (fun _ id hid => ?_) fun hnone => ?_
      · obtain ⟨hreq, hknown⟩ := hids id hid
        exact ⟨hknown, (mem_intersectStrings hreq).2⟩
      · rw [hauth] at hnone
        cases hnone
  · rename_i hauth
    refine saveRegistration_followsSupport (fun h => absurd h hauth) fun _ => ?_
    exact ⟨rfl, rfl, rfl, rfl, rfl⟩

theorem code_followsSupport (env : Env) (t : Task) :
    FollowsSupport env (fun _ _ => True) (t.code env) [] := by
  cases t with
  | upsertRegistration iid reg =>
    exact upsertRegistration_followsSupport iid reg
  | _ => exact (followsSupport_of_within (code_within env _) rfl).mono fun _ _ _ => trivial

/-! ## Along a run -/

/-- **Every registration that is stored or was read is proper.** -/
structure Vouched (env : Env) (v : ServerView) : Prop where
  stored : ∀ {iid row}, v.state.registrations.lookup iid = some row →
    Proper env v.hist row
  read : ∀ {pid iid existing},
    ⟨.registration (.get iid), .ok existing⟩ ∈ trace v.hist pid → Proper env v.hist existing

variable {v : ServerView} {e : ServerEvent} {x : Choice} {s : World}

theorem Vouched.confirmed {pid : Nat} (hv : Vouched env v) (hauth : env.cfg.authEnabled)
    (h : ModeratorsKnown env (trace v.hist pid) r) : ModeratorsConfirmed env v.hist r := by
  intro id hid
  obtain ⟨⟨id', hknown, hcase⟩, hcid⟩ := h id hid
  refine ⟨?_, hcid⟩
  rcases hknown with hconfirms | ⟨iid, existing, hread, huser, hid'⟩
  · exact ⟨id', ⟨pid, hconfirms⟩, hcase⟩
  · obtain ⟨⟨id'', hconf, hcase'⟩, -⟩ := (hv.read hread).1 hauth id' hid'
    exact ⟨id'', huser ▸ hconf, hcase'.trans hcase⟩

theorem Vouched.after (hv : Vouched env v) (hexec : exec env e.op x v.state = some (e.ans, s))
    (hsupports : Supports env (trace v.hist e.pid) e.op) : Vouched env (v.after e s) where
  stored := by
    intro iid row hrow
    rw [View.after_hist]
    rw [View.after_state, exec_registrations hexec] at hrow
    generalize e.op = op at hrow hsupports
    cases op with
    | registration =>
      rcases execRegistration_lookup hrow with hrow | ⟨reg, rfl, -, rfl⟩
      · exact (hv.stored hrow).cons e
      · have hproper : Proper env v.hist reg :=
          ⟨fun hauth => hv.confirmed hauth (hsupports.1 hauth), hsupports.2⟩
        refine Proper.cons ?_ e
        exact hproper.congr rfl rfl rfl rfl rfl
    | _ => exact (hv.stored hrow).cons e
  read := by
    intro pid iid existing hread
    rw [View.after_hist] at hread ⊢
    rcases mem_trace_cons hread with hread | hnew
    · exact (hv.read hread).cons e
    · obtain ⟨caller, task, op, ans⟩ := e
      cases hnew
      have hget : (execRegistration env x (.get iid) v.state.registrations).1 =
          .ok existing := (Prod.mk.inj (Option.some.inj hexec)).1
      obtain ⟨row, hrow, rfl⟩ := execRegistration_get hget
      refine Proper.cons ?_ _
      exact (hv.stored hrow).congr rfl rfl rfl rfl rfl

/-- **Moderator rights come from Twitch.** With OAuth, each moderator channel of a stored
registration is one of its channels, and `moderatedChannelIDs` returned it for its user in some
request; without, no user, channels or rules are stored. -/
theorem moderator_rights_confirmed {may : ServerView → Task → Bool} {w : World}
    {c : ServerConfiguration} {iid : String} {row : Registration} (hw : w.registrations = ∅)
    (h : (server env may).Steps (fun _ _ => True) (started w) c)
    (hrow : c.state.registrations.lookup iid = some row) :
    (env.cfg.authEnabled → ModeratorsConfirmed env c.hist row) ∧
      (env.cfg.authEnabled = false → HasTransportOnly row) := by
  have hcode : ∀ t, Follows remember ((fun _ => Supports env) t) (fun _ _ => True)
      ((server env may).code t) [] := code_followsSupport env
  have hens : (server env may).Ensures (started w) (fun _ _ => True) fun v e =>
      True ∧ Supports env (trace v.hist e.pid) e.op :=
    ensures_trace hcode rfl rfl
  have h0 : Vouched env (started w).toView := by
    refine ⟨fun hrow => ?_, fun hread => ?_⟩
    · have hnone : (started w).state.registrations = ∅ := hw
      rw [hnone] at hrow
      cases hrow
    · cases hread
  have hv : Vouched env c.toView :=
    (hens.steps .refl h).view_invariant
      (fun v e x s hv hexec hsupports => hv.after hexec hsupports.2) h0
  exact hv.stored hrow

/-- The phone is not registered yet and is signed in as user `8`. -/
def phoneUnregistered : World :=
  { auth :=
      { credentials := AList.insert "c8"
          { id := "c8", clientID := "client", userID := "8", accessToken := "a"
            refreshToken := "r", accessExpiresAt := 24 * hour, lastValidatedAt := 1
            updatedAt := 1 } ∅
        sessions := AList.insert "#s8"
          { credentialID := "c8", installationID := "phone", deviceHash := "#" ++ phoneSecret
            createdAt := 1, expiresAt := 24 * hour } ∅ } }

/-- Twitch confirms `12` only. In the next request it cannot be asked, and `12` is kept. -/
theorem claimed_channel_confirmed : phoneUnregistered.registrations = ∅ ∧ ∀ backend : Backend,
    ∃ c row, (anyServer backend).Steps (fun _ _ => True)
        (started phoneUnregistered) c ∧
      c.state.registrations.lookup "phone" = some row ∧ row.moderatorChannelIDs = ["12"] ∧
      ModeratorsConfirmed (.sample backend) c.hist row := by
  refine ⟨rfl, fun backend => ?_⟩
  let request : Registration :=
    { phone with
      deviceSecret := phoneSecret, deviceSecretHash := "", userID := ""
      channelIDs := ["11", "12"], moderatorChannelIDs := ["11", "12"] }
  have hplay : ((anyServer backend).play (fun _ _ => true)
      (start (.upsertRegistration "phone" request) ++ calls 0 13 { channels := ["12"] } ++
        start (.upsertRegistration "phone" request) ++
        calls 1 14 { now := hour, failure := some .oauthRevoked })
      (started phoneUnregistered)).map (fun c =>
        (c.state.registrations.lookup "phone").map (·.moderatorChannelIDs)) =
          some (some ["12"]) := by
    cases backend <;> decide
  obtain ⟨c, hrun, hres⟩ := play_map hplay
  obtain ⟨row, hrow, hmods⟩ := Option.map_eq_some_iff.mp hres
  have hrun := hrun.mono fun _ _ _ => trivial
  exact ⟨c, row, hrun, hrow, hmods, (moderator_rights_confirmed rfl hrun hrow).1 rfl⟩

end Ferventio
