import Ferventio.EventSub.Routing

/-!
# The routing is sound

A notification for a registration is of a rule that the registration has for the event's channel, at
a time when the channel is not muted, and it is about that channel and event (**`routing_sound`**).
Each branch of `eventNotificationForRegistration` has to ask for the rule whose name it emits.
-/

namespace Ferventio

open Strings

variable {env : Env} {now : Time} {reg : Registration} {event : EventPayload}
  {base n : Notification} {rule cid : String}

/-! ## The settings of a registration -/

/-- By the channel's own rules if it has some, otherwise by the general ones, of which none means
all. -/
def RuleConfigured (reg : Registration) (rule channelID : String) : Prop :=
  match if channelID = "" then none else reg.notificationChannelRules.lookup channelID with
  | some rules => rule ∈ rules
  | none => reg.notificationRules = [] ∨ rule ∈ reg.notificationRules

/-- The mute lasts beyond `now`. -/
def ChannelMuted (now : Time) (reg : Registration) (channelID : String) : Prop :=
  ∃ mutedUntil,
    reg.notificationChannelMutedUntilEpochMillis.lookup channelID = some mutedUntil ∧
      unixMilli now < mutedUntil

theorem ruleEnabled_iff : ruleEnabled reg rule ↔
    reg.notificationRules = [] ∨ rule ∈ reg.notificationRules := by
  simp [ruleEnabled]

theorem ruleConfiguredForChannel_iff (htrim : trimSpace cid = cid) :
    ruleConfiguredForChannel reg rule cid ↔ RuleConfigured reg rule cid := by
  unfold ruleConfiguredForChannel RuleConfigured
  dsimp only
  rw [htrim]
  by_cases hblank : cid = ""
  · simp [hblank, ruleEnabled_iff]
  · simp only [ne_eq, hblank, not_false_eq_true, if_true, if_false]
    cases reg.notificationChannelRules.lookup cid with
    | none => exact ruleEnabled_iff
    | some => exact List.contains_iff_mem

theorem configured_and_unmuted (htrim : trimSpace cid = cid)
    (h : ruleEnabledForChannel now reg rule cid) :
    RuleConfigured reg rule cid ∧ (cid ≠ "" → ¬ChannelMuted now reg cid) := by
  rw [ruleEnabledForChannel, Bool.and_eq_true] at h
  refine ⟨(ruleConfiguredForChannel_iff htrim).mp h.2, ?_⟩
  rintro hblank ⟨mutedUntil, hget, hlater⟩
  have hunmuted := h.1
  unfold channelMuted at hunmuted
  dsimp only at hunmuted
  rw [htrim, hget] at hunmuted
  simp only [Option.getD_some, Bool.not_eq_true', Bool.and_eq_false_iff, bne_eq_false_iff_eq,
    hblank, false_or, decide_eq_false_iff_not] at hunmuted
  omega

/-! ## The branches -/

/-- The rules that can announce an event of a subscription type. -/
def announcingRules : String → List String
  | "channel.chat.message" => ["reply", "mention", "selected_user", "highlight"]
  | "automod.message.hold" => ["automod_hold"]
  | "channel.ban" => ["ban", "timeout"]
  | "channel.moderate" => ["moderation_action"]
  | "stream.online" => ["stream_online"]
  | "channel.update" => ["title_change", "game_change"]
  | "channel.raid" => ["raid"]
  | "channel.channel_points_custom_reward_redemption.add" => ["reward"]
  | "channel.subscribe" | "channel.subscription.message" | "channel.subscription.gift"
  | "channel.chat.notification" => ["subscription"]
  | _ => []

/-- **What a branch makes**: a notification of a rule that is enabled for the channel. -/
structure RoutedBy (now : Time) (reg : Registration) (rules : List String)
    (eventID channelID : String) (n : Notification) : Prop where
  type_mem : n.type ∈ rules
  enabled : ruleEnabledForChannel now reg n.type channelID
  eventID : n.eventID = eventID
  channelID : n.channelID = channelID

/-- **Chat messages.** The author is not the user of the registration. -/
theorem chatMessage_routed (h : chatMessageNotification env now base event reg = some n) :
    RoutedBy now reg ["reply", "mention", "selected_user", "highlight"] base.eventID
        base.channelID n ∧
      (reg.userID ≠ "" → stringValue event "chatter_user_id" ≠ reg.userID) := by
  unfold chatMessageNotification at h
  dsimp only at h
  split_ifs at h with htext hself hreply hreply' hmention hselected hhighlight
  all_goals
    cases h
    refine ⟨⟨by simp, ?_, rfl, rfl⟩, fun hne hauthor => hself ⟨hne, hauthor⟩⟩
  · simp only [Bool.and_eq_true] at hreply
    exact hreply.1.1
  · simp only [Bool.and_eq_true] at hreply'
    exact hreply'.1.1
  · simp only [Bool.and_eq_true] at hmention
    exact hmention.1
  · simp only [Bool.and_eq_true] at hselected
    exact hselected.1
  · simp only [Bool.and_eq_true] at hhighlight
    exact hhighlight.1

theorem channelUpdate_routed {channelName : String}
    (h : channelUpdateNotification now base channelName event reg = some n) :
    RoutedBy now reg ["title_change", "game_change"] base.eventID base.channelID n := by
  unfold channelUpdateNotification at h
  dsimp only at h
  split_ifs at h with htitle hgame hbody hbody hgame hbody
  all_goals
    cases h
    refine ⟨by simp, ?_, rfl, rfl⟩
  · exact (Bool.and_eq_true_iff.mp htitle).2
  · exact (Bool.and_eq_true_iff.mp htitle).2
  · exact (Bool.and_eq_true_iff.mp hgame).2

theorem routed_of_enabled {rules : List String} {eid : String} (hmem : rule ∈ rules)
    (h : ¬(!ruleEnabledForChannel now reg rule cid)) (htype : n.type = rule)
    (hevent : n.eventID = eid) (hcid : n.channelID = cid) :
    RoutedBy now reg rules eid cid n := by
  subst htype
  exact ⟨hmem, by simpa using h, hevent, hcid⟩

theorem eventNotification_routed {eid subscriptionType : String}
    (h : eventNotificationForRegistration env now eid subscriptionType event reg = some n) :
    (eventChannel event ≠ "" → eventChannel event ∈ reg.channelIDs) ∧
      RoutedBy now reg (announcingRules subscriptionType) eid (eventChannel event)
        n := by
  unfold eventNotificationForRegistration at h
  dsimp only at h
  generalize eventChannel event = cid at h ⊢
  split at h
  · cases h
  rename_i hlist
  refine ⟨fun hne => ?_, ?_⟩
  · by_contra hnot
    exact hlist ⟨hne, by simpa using hnot⟩
  split at h
  case h_1 => exact (chatMessage_routed h).1
  case h_6 => exact channelUpdate_routed h
  case h_2 =>
    split at h
    · cases h
    · rename_i hrule
      cases h
      rw [not_or] at hrule
      exact routed_of_enabled (by decide) hrule.1 rfl rfl rfl
  case h_3 =>
    -- the rule of a ban is computed, and it is the type that is emitted
    split at h
    · cases h
    · rename_i hrule
      cases h
      have hmem : banRule event ∈ announcingRules "channel.ban" := by
        unfold banRule
        split_ifs <;> decide
      exact routed_of_enabled hmem hrule rfl rfl rfl
  case h_13 => cases h
  all_goals
    split at h
    · cases h
    · rename_i hrule
      cases h
      exact routed_of_enabled (by decide) hrule rfl rfl rfl

theorem eventNotification_author {eid : String}
    (h : eventNotificationForRegistration env now eid "channel.chat.message" event
      reg = some n) (huser : reg.userID ≠ "") :
    stringValue event "chatter_user_id" ≠ reg.userID := by
  unfold eventNotificationForRegistration at h
  dsimp only at h
  split at h
  · cases h
  · exact (chatMessage_routed h).2 huser

/-! ## Soundness -/

theorem trimSpace_eventChannel (event : EventPayload) :
    trimSpace (eventChannel event) = eventChannel event := by
  unfold eventChannel firstNonBlank firstNonBlank firstNonBlank
  split_ifs <;> simp only [trimSpace_trimSpace, trimSpace_empty]

theorem eventChannel_eq (event : EventPayload) :
    eventChannel event =
      if stringValue event "broadcaster_user_id" ≠ "" then stringValue event "broadcaster_user_id"
      else stringValue event "to_broadcaster_user_id" := by
  unfold eventChannel firstNonBlank firstNonBlank firstNonBlank
  simp only [trimSpace_stringValue]
  split_ifs with hfrom hto
  · rfl
  · rfl
  · exact (not_not.mp hto).symm

/-- **What is known of a notification.** -/
structure RoutedSoundly (now : Time) (eventID subscriptionType : String) (event : EventPayload)
    (reg : Registration) (n : Notification) : Prop where
  rule : n.type ∈ announcingRules subscriptionType
  configured : RuleConfigured reg n.type n.channelID
  unmuted : ¬(n.channelID ≠ "" ∧ ChannelMuted now reg n.channelID)
  channel : n.channelID =
    if stringValue event "broadcaster_user_id" ≠ "" then stringValue event "broadcaster_user_id"
    else stringValue event "to_broadcaster_user_id"
  listed : n.channelID ≠ "" → n.channelID ∈ reg.channelIDs
  eventID : n.eventID = eventID
  author : subscriptionType = "channel.chat.message" → reg.userID ≠ "" →
    stringValue event "chatter_user_id" ≠ reg.userID

/-- **The routing is sound.** -/
theorem routing_sound (env : Env) (now : Time) (eid subscriptionType : String)
    (event : EventPayload) (reg : Registration) (n : Notification)
    (h : eventNotificationForRegistration env now eid subscriptionType event reg =
      some n) : RoutedSoundly now eid subscriptionType event reg n := by
  obtain ⟨hlist, hrouted⟩ := eventNotification_routed h
  have hchan : n.channelID = eventChannel event := hrouted.channelID
  obtain ⟨hconfigured, hunmuted⟩ :=
    configured_and_unmuted (trimSpace_eventChannel event) hrouted.enabled
  exact
    { rule := hrouted.type_mem
      configured := hchan ▸ hconfigured
      unmuted := fun hmuted => hunmuted (hchan ▸ hmuted.1) (hchan ▸ hmuted.2)
      channel := hchan.trans (eventChannel_eq event)
      listed := fun hne => hchan ▸ hlist (hchan ▸ hne)
      eventID := hrouted.eventID
      author := fun htype huser => eventNotification_author (htype ▸ h) huser }

/-- A follower of a channel. -/
def raidWatcher : Registration :=
  { installationID := "phone", channelIDs := ["7"], notificationRules := ["mention"]
    notificationChannelRules := (∅ : Table String (List String)).insert "7" ["raid"] }

/-- What it is told. -/
def raidNotification : Notification :=
  { eventID := "e", type := "raid", title := "Raid на ", body := " · зрителей: 12"
    channelID := "7", createdAtEpochMillis := 1 }

theorem raidWatcher_sound :
    raidNotification.channelID = "7" ∧ RoutedSoundly (unixEpoch + millisecond) "e" "channel.raid"
      [("to_broadcaster_user_id", .str " 7 "), ("viewers", .num "12")] raidWatcher
        raidNotification := by
  refine ⟨rfl, routing_sound .mem (unixEpoch + millisecond) "e" "channel.raid" _
    raidWatcher raidNotification ?_⟩
  decide

end Ferventio
