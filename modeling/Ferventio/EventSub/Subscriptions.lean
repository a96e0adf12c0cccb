import Ferventio.EventSub.Routing

/-!
# The subscriptions that the registrations want

`desiredEventSubSubscriptions` of `application/eventsub_subscriptions.go`: for every channel of
every registration, the subscriptions that its rules call for and that its user is entitled to.
Equal subscriptions of several registrations are one; a subscription's identity is its key.
-/

namespace Ferventio

open Strings List Table

/-- The type, version and condition asked for. -/
structure SubscriptionRequest where
  type : String
  version : String
  condition : List (String × String)
deriving DecidableEq

/-- One of the rules is on. -/
def anyRuleForChannel (registration : Registration) (channelID : String) (rules : List String) :
    Bool :=
  rules.any fun rule => ruleConfiguredForChannel registration rule channelID

/-- The requests for one channel, in the order of the source. -/
def requestedForChannel (registration : Registration) (broadcasterID : String) :
    List SubscriptionRequest :=
  let isModerator := registration.moderatorChannelIDs.contains broadcasterID
  let isBroadcaster := registration.userID != "" && registration.userID == broadcasterID
  let configured := fun rule => ruleConfiguredForChannel registration rule broadcasterID
  let channel := [("broadcaster_user_id", broadcasterID)]
  let asModerator := channel ++ [("moderator_user_id", registration.userID)]
  (if registration.userID != "" && isModerator && configured "automod_hold" then
    [⟨"automod.message.hold", "2", asModerator⟩] else []) ++
  (if registration.userID != "" && isModerator && configured "moderation_action" then
    [⟨"channel.moderate", "2", asModerator⟩] else []) ++
  (if isModerator && anyRuleForChannel registration broadcasterID ["ban", "timeout"] then
    [⟨"channel.ban", "1", channel⟩] else []) ++
  (if configured "stream_online" then [⟨"stream.online", "1", channel⟩] else []) ++
  (if anyRuleForChannel registration broadcasterID ["title_change", "game_change"] then
    [⟨"channel.update", "2", channel⟩] else []) ++
  (if configured "raid" then
    [⟨"channel.raid", "1", [("to_broadcaster_user_id", broadcasterID)]⟩] else []) ++
  (if isBroadcaster && configured "reward" then
    [⟨"channel.channel_points_custom_reward_redemption.add", "1", channel⟩] else []) ++
  (if isBroadcaster && configured "subscription" then
    [⟨"channel.subscribe", "1", channel⟩, ⟨"channel.subscription.message", "1", channel⟩,
      ⟨"channel.subscription.gift", "1", channel⟩] else [])

/-- The requests for all channels. -/
def requestedBy (registration : Registration) : List SubscriptionRequest :=
  ((registration.channelIDs.map trimSpace).filter (· != "")).flatMap
    (requestedForChannel registration)

/-- One part of a key: `|key=value`. -/
def keyPart (part : String × String) : String := "|" ++ part.1 ++ "=" ++ part.2

/-- The type, the version and the sorted condition. -/
def eventSubSpecKey (eventType version : String) (condition : List (String × String)) : String :=
  eventType ++ "|" ++ version ++
    String.join ((condition.insertionSort fun a b => a.1 ≤ b.1).map keyPart)

/-- The key of a subscription. -/
def EventSubSubscriptionSpec.key (spec : EventSubSubscriptionSpec) : String :=
  eventSubSpecKey spec.type spec.version spec.condition

/-- The request with its condition trimmed. -/
def SubscriptionRequest.spec (cfg : ServerConfig) (request : SubscriptionRequest) :
    EventSubSubscriptionSpec :=
  { type := request.type
    version := request.version
    condition := request.condition.map fun part => (part.1, trimSpace part.2)
    callback := cfg.eventSubCallbackURL
    secret := cfg.eventSubSecret }

/-- A request with a blank value in its condition is dropped. -/
def SubscriptionRequest.complete (request : SubscriptionRequest) : Bool :=
  request.condition.all fun part => trimSpace part.2 != ""

/-- The map `unique`. -/
abbrev SpecTable := Table String EventSubSubscriptionSpec

/-- Collect a complete request. -/
def appendSpec (cfg : ServerConfig) (unique : SpecTable) (request : SubscriptionRequest) :
    SpecTable :=
  if request.complete then unique.insert (request.spec cfg).key (request.spec cfg) else unique

/-- What the registrations need. -/
def desiredEventSubSubscriptions (cfg : ServerConfig) (registrations : List Registration) :
    List EventSubSubscriptionSpec :=
  let unique := (registrations.flatMap requestedBy).foldl (appendSpec cfg) ∅
  unique.rows.insertionSort fun a b => a.key ≤ b.key

/-! ## What the fold collects -/

section Fold

variable (cfg : ServerConfig)

theorem foldl_appendSpec_sound (P : EventSubSubscriptionSpec → Prop)
    {requests : List SubscriptionRequest} {unique : SpecTable}
    (hrequests : ∀ req ∈ requests, req.complete → P (req.spec cfg))
    (huniq : unique.Forall fun key spec => spec.key = key ∧ P spec) :
    Forall (fun key spec => spec.key = key ∧ P spec) (requests.foldl (appendSpec cfg) unique) := by
  induction requests generalizing unique with
  | nil => exact huniq
  | cons req requests ih =>
    refine ih (fun r hr => hrequests r (mem_cons_of_mem _ hr)) ?_
    unfold appendSpec
    split_ifs with hcomp
    · exact huniq.insert ⟨rfl, hrequests req mem_cons_self hcomp⟩
    · exact huniq

theorem foldl_appendSpec_keeps {requests : List SubscriptionRequest} {unique : SpecTable}
    {key : String} (h : (unique.lookup key).isSome) :
    (AList.lookup key (requests.foldl (appendSpec cfg) unique)).isSome := by
  induction requests generalizing unique with
  | nil => exact h
  | cons req requests ih =>
    refine ih ?_
    unfold appendSpec
    split_ifs
    · rw [lookup_insert_eq]
      split_ifs
      · rfl
      · exact h
    · exact h

theorem foldl_appendSpec_complete {requests : List SubscriptionRequest} {unique : SpecTable}
    {req : SubscriptionRequest} (hmem : req ∈ requests) (hcomp : req.complete) :
    (AList.lookup (req.spec cfg).key (requests.foldl (appendSpec cfg) unique)).isSome := by
  induction requests generalizing unique with
  | nil => cases hmem
  | cons first requests ih =>
    rcases mem_cons.mp hmem with rfl | hmem
    · rw [foldl_cons]
      refine foldl_appendSpec_keeps cfg ?_
      unfold appendSpec
      rw [if_pos hcomp, AList.lookup_insert]
      rfl
    · exact ih hmem

end Fold

variable {cfg : ServerConfig} {regs : List Registration}

theorem mem_desired_iff {spec : EventSubSubscriptionSpec} :
    spec ∈ desiredEventSubSubscriptions cfg regs ↔
      ∃ key, AList.lookup key
        ((regs.flatMap requestedBy).foldl (appendSpec cfg) ∅) = some spec := by
  rw [desiredEventSubSubscriptions, mem_insertionSort, mem_rows_iff]

theorem requested_of_mem_desired {spec : EventSubSubscriptionSpec}
    (h : spec ∈ desiredEventSubSubscriptions cfg regs) :
    ∃ reg ∈ regs, ∃ req ∈ requestedBy reg, req.complete ∧ spec = req.spec cfg := by
  obtain ⟨key, hkey⟩ := mem_desired_iff.mp h
  refine (foldl_appendSpec_sound cfg
    (fun spec => ∃ reg ∈ regs, ∃ req ∈ requestedBy reg,
      req.complete ∧ spec = req.spec cfg) ?_ Forall.empty key spec hkey).2
  intro req hreq hcomp
  obtain ⟨reg, hreg, hreq⟩ := mem_flatMap.mp hreq
  exact ⟨reg, hreg, req, hreq, hcomp, rfl⟩

theorem mem_desired_key_iff {key : String} :
    (∃ spec ∈ desiredEventSubSubscriptions cfg regs, spec.key = key) ↔
      ∃ reg ∈ regs, ∃ req ∈ requestedBy reg, req.complete ∧ (req.spec cfg).key = key := by
  constructor
  · rintro ⟨spec, hspec, rfl⟩
    obtain ⟨reg, hreg, req, hreq, hcomp, rfl⟩ := requested_of_mem_desired hspec
    exact ⟨reg, hreg, req, hreq, hcomp, rfl⟩
  · rintro ⟨reg, hreg, req, hreq, hcomp, rfl⟩
    have hmem : req ∈ regs.flatMap requestedBy := mem_flatMap.mpr ⟨reg, hreg, hreq⟩
    obtain ⟨spec, hspec⟩ := Option.isSome_iff_exists.mp (foldl_appendSpec_complete cfg hmem hcomp)
    have hkey := foldl_appendSpec_sound cfg (fun _ => True) (fun _ _ _ => trivial)
      Forall.empty _ spec hspec
    exact ⟨spec, mem_desired_iff.mpr ⟨_, hspec⟩, hkey.1⟩

theorem desired_keys_nodup : ((desiredEventSubSubscriptions cfg regs).map (·.key)).Nodup := by
  rw [desiredEventSubSubscriptions]
  generalize huniq : (regs.flatMap requestedBy).foldl (appendSpec cfg) ∅ = unique
  have hnamed : unique.Forall fun key spec => spec.key = key := by
    intro key spec hspec
    rw [← huniq] at hspec
    exact (foldl_appendSpec_sound cfg (fun _ => True) (fun _ _ _ => trivial) Forall.empty
      key spec hspec).1
  have hkeys : unique.rows.map (·.key) = unique.entries.map Sigma.fst := by
    rw [rows, map_map]
    refine map_congr_left fun e he => ?_
    exact hnamed e.1 e.2 (mem_entries_iff.mp he)
  refine (((perm_insertionSort _ _).map _).nodup_iff).mpr ?_
  rw [hkeys]
  exact unique.nodupKeys

end Ferventio
