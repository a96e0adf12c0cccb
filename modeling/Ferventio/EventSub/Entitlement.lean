import Ferventio.EventSub.Subscriptions

/-!
# Routing and entitlement

`desiredEventSubSubscriptions` asks Twitch for moderator events only on behalf of a moderator and
for reward and subscription events only on behalf of the broadcaster.
`eventNotificationForRegistration` routes an event that arrived to every registration with the
channel and the rule, whoever its user is. The last section says exactly when the two agree.
-/

namespace Ferventio

open Strings List

variable {enabled : String → Prop} {req : SubscriptionRequest} {event : EventPayload} {now : Time}

/-- The types of the webhook. -/
inductive WebhookType
  | automodHold
  | moderate
  | ban
  | online
  | update
  | raid
  | reward
  | subscribe
  | subscriptionMessage
  | subscriptionGift
deriving DecidableEq

namespace WebhookType

/-- The name at Twitch. -/
def name : WebhookType → String
  | automodHold => "automod.message.hold"
  | moderate => "channel.moderate"
  | ban => "channel.ban"
  | online => "stream.online"
  | update => "channel.update"
  | raid => "channel.raid"
  | reward => "channel.channel_points_custom_reward_redemption.add"
  | subscribe => "channel.subscribe"
  | subscriptionMessage => "channel.subscription.message"
  | subscriptionGift => "channel.subscription.gift"

/-- The version at Twitch. -/
def version : WebhookType → String
  | automodHold | moderate | update => "2"
  | _ => "1"

/-- The rules that it serves. -/
def rules : WebhookType → List String
  | automodHold => ["automod_hold"]
  | moderate => ["moderation_action"]
  | ban => ["ban", "timeout"]
  | online => ["stream_online"]
  | update => ["title_change", "game_change"]
  | raid => ["raid"]
  | reward => ["reward"]
  | subscribe | subscriptionMessage | subscriptionGift => ["subscription"]

/-- The condition at Twitch. -/
def condition (T : WebhookType) (userID channelID : String) : List (String × String) :=
  match T with
  | automodHold | moderate =>
    [("broadcaster_user_id", channelID), ("moderator_user_id", userID)]
  | raid => [("to_broadcaster_user_id", channelID)]
  | _ => [("broadcaster_user_id", channelID)]

/-- The request for a user and a channel. -/
def request (T : WebhookType) (userID channelID : String) : SubscriptionRequest :=
  ⟨T.name, T.version, T.condition userID channelID⟩

theorem name_injective {T T' : WebhookType} (h : T.name = T'.name) : T = T' := by
  revert h
  cases T <;> cases T' <;> decide

end WebhookType

/-- **Who may receive an event.** AutoMod holds and actions are for moderators with an account, bans
for moderators, rewards and subscriptions for the broadcaster. -/
def Entitled (reg : Registration) (T : WebhookType) (channelID : String) : Prop :=
  channelID ≠ "" ∧
    match T with
    | .automodHold | .moderate =>
      channelID ∈ reg.moderatorChannelIDs ∧ trimSpace reg.userID ≠ ""
    | .ban => channelID ∈ reg.moderatorChannelIDs
    | .online | .update | .raid => True
    | .reward | .subscribe | .subscriptionMessage | .subscriptionGift =>
      reg.userID = channelID

/-- The registration has the channel, if any, and one of the type's rules for it. -/
def Routable (now : Time) (reg : Registration) (T : WebhookType) (channelID : String) :
    Prop :=
  trimSpace channelID = channelID ∧
    (channelID = "" ∨ channelID ∈ reg.channelIDs) ∧
    ∃ rule ∈ T.rules, ruleEnabledForChannel now reg rule channelID

/-- The subscription is about the channel. -/
def EventSubSubscriptionSpec.Concerns (spec : EventSubSubscriptionSpec) (channelID : String) :
    Prop :=
  ("broadcaster_user_id", channelID) ∈ spec.condition ∨
    ("to_broadcaster_user_id", channelID) ∈ spec.condition

instance (spec : EventSubSubscriptionSpec) (channelID : String) :
    Decidable (spec.Concerns channelID) :=
  inferInstanceAs (Decidable (_ ∨ _))

/-! ## What a registration requests -/

/-- Twitch shows the events to moderators only. -/
def Privileged (reg : Registration) (T : WebhookType) (channelID : String) : Prop :=
  match T with
  | .automodHold | .moderate =>
    reg.userID ≠ "" ∧ channelID ∈ reg.moderatorChannelIDs
  | .ban => channelID ∈ reg.moderatorChannelIDs
  | .online | .update | .raid => True
  | .reward | .subscribe | .subscriptionMessage | .subscriptionGift =>
    reg.userID ≠ "" ∧ reg.userID = channelID

variable {reg : Registration} {cid : String}

theorem anyRuleForChannel_iff {rules : List String} :
    anyRuleForChannel reg cid rules ↔ ∃ rule ∈ rules, ruleConfiguredForChannel reg rule cid := by
  rw [anyRuleForChannel, any_eq_true]

theorem mem_requestedForChannel_iff :
    req ∈ requestedForChannel reg cid ↔
      ∃ T : WebhookType, req = T.request reg.userID cid ∧
        Privileged reg T cid ∧
        ∃ rule ∈ T.rules, ruleConfiguredForChannel reg rule cid := by
  simp only [requestedForChannel, mem_append, mem_ite_nil_right, mem_cons,
    not_mem_nil, or_false, Bool.and_eq_true, bne_iff_ne, contains_iff_mem, beq_iff_eq,
    anyRuleForChannel_iff]
  constructor
  · rintro (((((((⟨⟨⟨hu, hm⟩, hr⟩, rfl⟩ | ⟨⟨⟨hu, hm⟩, hr⟩, rfl⟩) | ⟨⟨hm, hr⟩, rfl⟩) |
      ⟨hr, rfl⟩) | ⟨hr, rfl⟩) | ⟨hr, rfl⟩) | ⟨⟨⟨hu, hb⟩, hr⟩, rfl⟩) |
      ⟨⟨⟨hu, hb⟩, hr⟩, rfl | rfl | rfl⟩)
    · exact ⟨.automodHold, rfl, ⟨hu, hm⟩, _, mem_singleton_self _, hr⟩
    · exact ⟨.moderate, rfl, ⟨hu, hm⟩, _, mem_singleton_self _, hr⟩
    · obtain ⟨rule, hrule, hr⟩ := hr
      exact ⟨.ban, rfl, hm, rule, by simpa [WebhookType.rules] using hrule, hr⟩
    · exact ⟨.online, rfl, trivial, _, mem_singleton_self _, hr⟩
    · obtain ⟨rule, hrule, hr⟩ := hr
      exact ⟨.update, rfl, trivial, rule, by simpa [WebhookType.rules] using hrule, hr⟩
    · exact ⟨.raid, rfl, trivial, _, mem_singleton_self _, hr⟩
    · exact ⟨.reward, rfl, ⟨hu, hb⟩, _, mem_singleton_self _, hr⟩
    · exact ⟨.subscribe, rfl, ⟨hu, hb⟩, _, mem_singleton_self _, hr⟩
    · exact ⟨.subscriptionMessage, rfl, ⟨hu, hb⟩, _, mem_singleton_self _, hr⟩
    · exact ⟨.subscriptionGift, rfl, ⟨hu, hb⟩, _, mem_singleton_self _, hr⟩
  · rintro ⟨T, rfl, hpriv, rule, hrule, hr⟩
    cases T <;> simp_all [WebhookType.request, WebhookType.name, WebhookType.version,
      WebhookType.condition, WebhookType.rules, Privileged] <;> grind

theorem mem_requestedBy_iff :
    req ∈ requestedBy reg ↔
      ∃ cid ∈ reg.channelIDs, trimSpace cid ≠ "" ∧
        req ∈ requestedForChannel reg (trimSpace cid) := by
  simp only [requestedBy, mem_flatMap, mem_filter, mem_map, bne_iff_ne]
  constructor
  · rintro ⟨_, ⟨⟨cid, hmem, rfl⟩, hne⟩, h⟩
    exact ⟨cid, hmem, hne, h⟩
  · rintro ⟨cid, hmem, hne, h⟩
    exact ⟨_, ⟨⟨cid, hmem, rfl⟩, hne⟩, h⟩

/-! ## Keys of requests -/

namespace WebhookType

/-- The field with the channel. -/
def channelField : WebhookType → String
  | raid => "to_broadcaster_user_id"
  | _ => "broadcaster_user_id"

/-- The rest of a key. -/
def keyTail (T : WebhookType) (userID : String) : String :=
  match T with
  | automodHold | moderate => keyPart ("moderator_user_id", userID)
  | ban | online | update | raid | reward | subscribe | subscriptionMessage | subscriptionGift =>
    ""

theorem insertionSort_condition (T : WebhookType) (uid cid : String) :
    (T.condition uid cid).insertionSort (fun a b => a.1 ≤ b.1) = T.condition uid cid := by
  have hle : "broadcaster_user_id" ≤ "moderator_user_id" := by decide
  cases T <;> simp only [condition, insertionSort_cons, insertionSort_nil,
    orderedInsert_nil, orderedInsert_cons, hle, if_true]

theorem condition_map_trimSpace (T : WebhookType) (uid cid : String) :
    ((T.condition uid cid).map fun part => (part.1, trimSpace part.2)) =
      T.condition (trimSpace uid) (trimSpace cid) := by
  cases T <;> rfl

theorem join_condition (T : WebhookType) (uid cid : String) :
    String.join ((T.condition uid cid).map keyPart) =
      "|" ++ (T.channelField ++ ("=" ++ (cid ++ T.keyTail uid))) := by
  cases T <;> simp only [condition, map_cons, map_nil, keyPart, channelField, keyTail,
    String.join_cons, String.join_nil, String.append_assoc, String.append_empty]

theorem key_request (cfg : ServerConfig) (T : WebhookType) (uid cid : String) :
    ((T.request uid cid).spec cfg).key =
      T.name ++ ("|" ++ (T.version ++ ("|" ++ (T.channelField ++ ("=" ++
        (trimSpace cid ++ T.keyTail (trimSpace uid))))))) := by
  rw [EventSubSubscriptionSpec.key, SubscriptionRequest.spec, eventSubSpecKey, request,
    condition_map_trimSpace, insertionSort_condition, join_condition]
  simp only [String.append_assoc]

theorem takeWhile_name (T : WebhookType) (rest : List Char) :
    (T.name.toList ++ '|' :: rest).takeWhile (· != '|') = T.name.toList := by
  have hname : T.name.toList.all (· != '|') := by
    cases T <;> decide
  rw [takeWhile_append_of_pos (all_eq_true.mp hname), takeWhile_cons_of_neg (by simp), append_nil]

theorem type_eq_of_key_eq {T T' : WebhookType} {rest rest' : String}
    (h : T.name ++ ("|" ++ rest) = T'.name ++ ("|" ++ rest')) : T = T' := by
  have hlist := congrArg (fun key => key.toList.takeWhile (· != '|')) h
  simp only [String.toList_append] at hlist
  have hbar : "|".toList = ['|'] := by decide
  rw [hbar, singleton_append, takeWhile_name, singleton_append, takeWhile_name] at hlist
  exact name_injective (String.toList_injective hlist)

theorem key_request_injective (cfg : ServerConfig) {T T' : WebhookType} {uid cid cid' : String}
    (h : ((T.request uid cid).spec cfg).key = ((T'.request uid cid').spec cfg).key) :
    T = T' ∧ trimSpace cid = trimSpace cid' := by
  rw [key_request, key_request] at h
  obtain rfl : T = T' := type_eq_of_key_eq h
  simpa using h

theorem concerns_request_iff (cfg : ServerConfig) (T : WebhookType) (uid cid cid' : String) :
    ((T.request uid cid).spec cfg).Concerns cid' ↔ cid' = trimSpace cid := by
  rw [EventSubSubscriptionSpec.Concerns, SubscriptionRequest.spec, request, condition_map_trimSpace]
  cases T <;> simp [condition]

end WebhookType

/-! ## Being entitled is what a request needs -/

section Desired

variable {cfg : ServerConfig} {reg : Registration} {T : WebhookType} {cid : String}

theorem Entitled.privileged (h : Entitled reg T cid) : Privileged reg T cid := by
  have hne : trimSpace reg.userID ≠ "" → reg.userID ≠ "" := by
    intro htrim hempty
    exact htrim (by rw [hempty, trimSpace_empty])
  obtain ⟨hcid, h⟩ := h
  cases T
  case automodHold | moderate => exact ⟨hne h.2, h.1⟩
  case ban => exact h
  case online | update | raid => trivial
  case reward | subscribe | subscriptionMessage | subscriptionGift => exact ⟨h ▸ hcid, h⟩

theorem Entitled.complete (h : Entitled reg T cid) (htrim : trimSpace cid = cid) :
    (T.request reg.userID cid).complete := by
  obtain ⟨hcid, h⟩ := h
  cases T <;>
    simp_all [SubscriptionRequest.complete, WebhookType.request, WebhookType.condition]

theorem entitled_of_privileged (hpriv : Privileged reg T cid)
    (hcomp : (T.request reg.userID cid).complete) (hcid : cid ≠ "") : Entitled reg T cid := by
  refine ⟨hcid, ?_⟩
  cases T
  case automodHold | moderate =>
    simp only [SubscriptionRequest.complete, WebhookType.request, WebhookType.condition,
      all_cons, all_nil, Bool.and_eq_true, bne_iff_ne] at hcomp
    exact ⟨hpriv.2, hcomp.2.1⟩
  case ban => exact hpriv
  case online | update | raid => trivial
  case reward | subscribe | subscriptionMessage | subscriptionGift => exact hpriv.2

/-- **What is subscribed for one registration**: a type's subscriptions for its channels that it is
entitled to. -/
theorem desired_concerns_iff (htrim : trimSpace cid = cid) (hmem : cid ≠ "" → cid ∈ reg.channelIDs)
    (hrule : ∃ rule ∈ T.rules, ruleConfiguredForChannel reg rule cid) :
    (∃ spec ∈ desiredEventSubSubscriptions cfg [reg],
        spec.type = T.name ∧ spec.Concerns cid) ↔
      Entitled reg T cid := by
  constructor
  · rintro ⟨spec, hspec, htype, hconcerns⟩
    obtain ⟨_, hreg, req, hreq, hcomp, rfl⟩ := requested_of_mem_desired hspec
    obtain rfl := mem_singleton.mp hreg
    obtain ⟨raw, -, hne, hreq⟩ := mem_requestedBy_iff.mp hreq
    obtain ⟨T', rfl, hpriv, -⟩ := mem_requestedForChannel_iff.mp hreq
    obtain rfl : T' = T := WebhookType.name_injective htype
    rw [WebhookType.concerns_request_iff, trimSpace_trimSpace] at hconcerns
    subst hconcerns
    exact entitled_of_privileged hpriv hcomp hne
  · intro hentitled
    have hreq : T.request reg.userID cid ∈ requestedBy reg := by
      refine mem_requestedBy_iff.mpr ⟨cid, hmem hentitled.1, by rw [htrim]; exact hentitled.1, ?_⟩
      rw [htrim]
      exact mem_requestedForChannel_iff.mpr ⟨T, rfl, hentitled.privileged, hrule⟩
    obtain ⟨spec, hspec, hkey⟩ : ∃ spec ∈ desiredEventSubSubscriptions cfg [reg],
        spec.key = ((T.request reg.userID cid).spec cfg).key :=
      mem_desired_key_iff.mpr ⟨reg, mem_singleton_self _, _, hreq, hentitled.complete htrim, rfl⟩
    refine ⟨spec, hspec, ?_⟩
    -- The row under the request's key may come from another request: the key tells its type
    -- and its channel.
    obtain ⟨_, hreg, req, hreq', -, rfl⟩ := requested_of_mem_desired hspec
    obtain rfl := mem_singleton.mp hreg
    obtain ⟨raw, -, -, hreq'⟩ := mem_requestedBy_iff.mp hreq'
    obtain ⟨T', rfl, -⟩ := mem_requestedForChannel_iff.mp hreq'
    obtain ⟨rfl, hraw⟩ := WebhookType.key_request_injective cfg hkey
    rw [WebhookType.concerns_request_iff, hraw, htrim]
    exact ⟨rfl, rfl⟩

end Desired

/-! ## What is routed -/

theorem trimSpace_firstNonBlank (values : List String) :
    trimSpace (firstNonBlank values) = firstNonBlank values := by
  induction values with
  | nil => exact trimSpace_empty
  | cons value values ih =>
    rw [firstNonBlank]
    split_ifs
    · exact trimSpace_trimSpace _
    · exact ih

theorem configured_of_enabled {rule : String} (h : ruleEnabledForChannel now reg rule cid) :
    ruleConfiguredForChannel reg rule cid :=
  (Bool.and_eq_true_iff.mp h).2

/-- What the event must say besides its channel. -/
def WebhookType.Announced (T : WebhookType) (event : EventPayload) (enabled : String → Prop) :
    Prop :=
  match T with
  | automodHold => enabled "automod_hold" ∧ nestedString event "message" "text" ≠ ""
  | ban => enabled (banRule event)
  | update =>
    (boolValue event "_ferventio_title_changed" ∧ enabled "title_change" ∧
      stringValue event "title" ≠ "") ∨
    (boolValue event "_ferventio_game_changed" ∧ enabled "game_change" ∧
      stringValue event "category_name" ≠ "")
  | moderate => enabled "moderation_action"
  | online => enabled "stream_online"
  | raid => enabled "raid"
  | reward => enabled "reward"
  | subscribe | subscriptionMessage | subscriptionGift => enabled "subscription"

theorem joined_eq_empty_iff {title category : String} (htitle : trimSpace title = title)
    (hcategory : trimSpace category = category) :
    trimSpace (" · ".intercalate (nonBlank [title, category])) = "" ↔
      title = "" ∧ category = "" := by
  by_cases ht : title = "" <;> by_cases hc : category = ""
  · subst ht hc
    decide
  · subst ht
    have hparts : nonBlank ["", category] = [category] := by
      simp [nonBlank, trimSpace_empty, hcategory, hc]
    have hjoin : " · ".intercalate [category] = category := rfl
    rw [hparts, hjoin, hcategory]
    simp [hc]
  · subst hc
    have hparts : nonBlank [title, ""] = [title] := by
      simp [nonBlank, trimSpace_empty, htitle, ht]
    have hjoin : " · ".intercalate [title] = title := rfl
    rw [hparts, hjoin, htitle]
    simp [ht]
  · have hparts : nonBlank [title, category] = [title, category] := by
      simp [nonBlank, htitle, hcategory, ht, hc]
    have hjoin : " · ".intercalate [title, category] = title ++ " · " ++ category := rfl
    have hdot : '·' ∈ (title ++ " · " ++ category).toList := by
      simp only [String.toList_append, mem_append]
      exact Or.inl (Or.inr (by decide))
    have hspace : isSpace '·' = false := by decide
    rw [hparts, hjoin, trimSpace_eq_empty_iff]
    refine iff_of_false ?_ (fun h => ht h.1)
    intro hall
    rw [hall _ hdot] at hspace
    cases hspace

theorem channelUpdate_isSome_iff {base : Notification} {channelName : String}
    (hbase : base.channelID = cid) :
    (channelUpdateNotification now base channelName event reg).isSome ↔
      WebhookType.update.Announced event fun rule =>
        ruleEnabledForChannel now reg rule cid := by
  subst hbase
  have hjoined := joined_eq_empty_iff (trimSpace_stringValue event "title")
    (trimSpace_stringValue event "category_name")
  unfold channelUpdateNotification WebhookType.Announced
  simp only [Bool.and_eq_true]
  by_cases htitle : boolValue event "_ferventio_title_changed" = true ∧
      ruleEnabledForChannel now reg "title_change" base.channelID = true <;>
    by_cases hgame : boolValue event "_ferventio_game_changed" = true ∧
      ruleEnabledForChannel now reg "game_change" base.channelID
  · rw [if_pos htitle, if_pos hgame]
    split_ifs with hbody
    · have hblank := hjoined.mp hbody
      simp [hblank.1, hblank.2]
    · have hsome := mt hjoined.mpr hbody
      simp only [Option.isSome_some, true_iff, htitle.1, htitle.2, hgame.1, hgame.2, true_and]
      exact not_and_or.mp hsome
  · rw [if_pos htitle, if_neg hgame]
    split_ifs with hbody
    · simp [hbody, ← and_assoc, hgame]
    · simp [hbody, htitle]
  · rw [if_neg htitle, if_pos hgame]
    split_ifs with hbody
    · simp [hbody, ← and_assoc, htitle]
    · simp [hbody, hgame]
  · rw [if_neg htitle, if_neg hgame]
    simp [← and_assoc, htitle, hgame]

theorem notification_isSome_iff {env : Env} {eid : String} {T : WebhookType} :
    (eventNotificationForRegistration env now eid T.name event reg).isSome ↔
      (eventChannel event = "" ∨ eventChannel event ∈ reg.channelIDs) ∧
        T.Announced event fun rule =>
          ruleEnabledForChannel now reg rule (eventChannel event) := by
  unfold eventNotificationForRegistration
  -- the branches do not look into the channel
  generalize eventChannel event = cid
  have hcid : (cid ≠ "" ∧ !reg.channelIDs.contains cid) ↔ ¬(cid = "" ∨ cid ∈ reg.channelIDs) := by
    simp [not_or]
  by_cases h : cid = "" ∨ cid ∈ reg.channelIDs
  · rw [if_neg (fun hnot => hcid.mp hnot h), and_iff_right h]
    cases T
    case update => exact channelUpdate_isSome_iff rfl
    case automodHold =>
      simp only [WebhookType.name, WebhookType.Announced]
      split
      · rename_i hrule
        rcases hrule with hrule | hrule <;> simp_all
      · simp_all
    all_goals
      simp only [WebhookType.name, WebhookType.Announced]
      split <;> simp_all
  · rw [if_pos (hcid.mpr h)]
    simp [h]

theorem WebhookType.Announced.rule {T : WebhookType}
    (h : T.Announced event enabled) : ∃ rule ∈ T.rules, enabled rule := by
  cases T
  case automodHold => exact ⟨_, mem_singleton_self _, h.1⟩
  case ban =>
    refine ⟨_, ?_, h⟩
    unfold banRule
    split_ifs <;> decide
  case update =>
    rcases h with h | h
    · exact ⟨"title_change", by decide, h.2.1⟩
    · exact ⟨"game_change", by decide, h.2.1⟩
  all_goals exact ⟨_, mem_singleton_self _, h⟩

/-- An event of a channel. -/
def sampleEvent (channelID rule : String) : EventPayload :=
  [("broadcaster_user_id", .str channelID), ("message", .obj [("text", .str "text")]),
    ("is_permanent", .bool (rule == "ban")), ("title", .str "title"),
    ("category_name", .str "category"), ("_ferventio_title_changed", .bool true),
    ("_ferventio_game_changed", .bool true)]

theorem eventChannel_sampleEvent (h : trimSpace cid = cid)
    (rule : String) : eventChannel (sampleEvent cid rule) = cid := by
  have hfirst : stringValue (sampleEvent cid rule) "broadcaster_user_id" = cid := h
  have hsec : stringValue (sampleEvent cid rule) "to_broadcaster_user_id" = "" := rfl
  rw [eventChannel, hfirst, hsec, firstNonBlank, h]
  split_ifs with hne
  · rfl
  · rw [not_not.mp hne]
    decide

theorem announced_sampleEvent {T : WebhookType} {rule : String} (hmem : rule ∈ T.rules)
    (h : enabled rule) :
    T.Announced (sampleEvent cid rule) enabled := by
  cases T
  case automodHold =>
    obtain rfl := mem_singleton.mp hmem
    exact ⟨h, show trimSpace "text" ≠ "" by decide⟩
  case ban =>
    have hrule : banRule (sampleEvent cid rule) = rule := by
      rcases mem_pair.mp hmem with rfl | rfl <;> rfl
    rw [WebhookType.Announced, hrule]
    exact h
  case update =>
    rcases mem_pair.mp hmem with rfl | rfl
    · exact Or.inl ⟨rfl, h, show trimSpace "title" ≠ "" by decide⟩
    · exact Or.inr ⟨rfl, h, show trimSpace "category" ≠ "" by decide⟩
  all_goals
    obtain rfl := mem_singleton.mp hmem
    exact h

/-- **Routing and entitlement agree** exactly when the registration is entitled to the channel's
events or the routing has no rule for them. -/
theorem routing_respects_entitlement_iff (env : Env) (cfg : ServerConfig) (now : Time)
    (reg : Registration) (T : WebhookType) (channelID : String) :
    (∀ (eid : String) (event : EventPayload) (n : Notification),
        eventChannel event = channelID →
        eventNotificationForRegistration env now eid T.name event reg = some n →
        ∃ spec ∈ desiredEventSubSubscriptions cfg [reg],
          spec.type = T.name ∧ spec.Concerns channelID) ↔
      (Routable now reg T channelID → Entitled reg T channelID) := by
  -- where the routing lets a notification through, a subscription is a question of entitlement
  have hdesired : Routable now reg T channelID →
      ((∃ spec ∈ desiredEventSubSubscriptions cfg [reg],
        spec.type = T.name ∧ spec.Concerns channelID) ↔ Entitled reg T channelID) := by
    rintro ⟨htrim, hchan, rule, hrule, hon⟩
    exact desired_concerns_iff htrim hchan.resolve_left ⟨rule, hrule, configured_of_enabled hon⟩
  constructor
  · rintro h hroutable
    obtain ⟨htrim, hchan, rule, hrule, hon⟩ := id hroutable
    have hevent := eventChannel_sampleEvent htrim rule
    have hsome : (eventNotificationForRegistration env now "" T.name
        (sampleEvent channelID rule) reg).isSome := by
      rw [notification_isSome_iff, hevent]
      exact ⟨hchan, announced_sampleEvent hrule hon⟩
    obtain ⟨n, hn⟩ := Option.isSome_iff_exists.mp hsome
    exact (hdesired hroutable).mp (h "" _ n hevent hn)
  · rintro h eid event n rfl hn
    have hrouted := notification_isSome_iff.mp (Option.isSome_of_eq_some hn)
    have hroutable : Routable now reg T (eventChannel event) :=
      ⟨trimSpace_firstNonBlank _, hrouted.1, hrouted.2.rule⟩
    exact (hdesired hroutable).mpr (h hroutable)

/-- A viewer of channel `1`. -/
def viewer : Registration :=
  { installationID := "phone", userID := "7", userLogin := "viewer", channelIDs := ["1"] }

/-- A held message. -/
def heldMessage : EventPayload :=
  [("broadcaster_user_id", .str "1"), ("user_name", .str "someone"),
    ("message", .obj [("text", .str "held back")])]

/-- A viewer is sent the text that AutoMod withholds. -/
theorem viewer_gets_automod_hold :
    eventChannel heldMessage = "1" ∧
      eventNotificationForRegistration .pg (unixEpoch + second) "event"
          "automod.message.hold" heldMessage viewer =
        some
          { eventID := "event", type := "automod_hold", title := "AutoMod: someone",
            body := "held back", channelID := "1", destination := "moderation",
            createdAtEpochMillis := 1000 } ∧
      "1" ∉ viewer.moderatorChannelIDs ∧
      ¬∃ spec ∈ desiredEventSubSubscriptions Env.pg.cfg [viewer],
        spec.type = "automod.message.hold" ∧ spec.Concerns "1" := by
  decide

end Ferventio
