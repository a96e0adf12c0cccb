import Mathlib.Data.List.Infix
import Ferventio.Server.World

/-!
# Routing an event to a registration

`application/eventsub.go`: which registrations an EventSub event concerns and what notification
each gets. The routing looks at the registration's channels and at its rules for the event's
channel; it is a function of the event, the registration and the time.
-/

namespace Ferventio

open Strings List

variable {env : Env} {text name : List Char} {n : Notification} {reg : Registration} {now : Time}

/-! ## Reading an event -/

/-- A JSON object. -/
abbrev EventPayload := List (String × Json)

/-- A trimmed text, or nothing. -/
def stringValue (value : EventPayload) (key : String) : String :=
  match value.lookup key with
  | some (.str raw) => trimSpace raw
  | _ => ""

theorem trimSpace_stringValue (event : EventPayload) (key : String) :
    trimSpace (stringValue event key) = stringValue event key := by
  unfold stringValue
  split
  · exact trimSpace_trimSpace _
  · exact trimSpace_empty

/-- A text one level down. -/
def nestedString (value : EventPayload) (outer inner : String) : String :=
  match value.lookup outer with
  | some (.obj nested) => stringValue nested inner
  | _ => ""

/-- A Boolean, or `false`. -/
def boolValue (value : EventPayload) (key : String) : Bool :=
  match value.lookup key with
  | some (.bool b) => b
  | _ => false

/-- A number as a text. -/
def numberString : Option Json → String
  | some (.num text) => text
  | some (.str s) => s
  | _ => "0"

/-- The first text that is not blank. -/
def firstNonBlank : List String → String
  | [] => ""
  | value :: values => if trimSpace value ≠ "" then trimSpace value else firstNonBlank values

/-- The texts that are not blank. -/
def nonBlank (values : List String) : List String := (values.map trimSpace).filter (· != "")

/-! ## Rules -/

/-- A rule is on; all are if none is named. -/
def ruleEnabled (registration : Registration) (rule : String) : Bool :=
  registration.notificationRules.isEmpty || registration.notificationRules.contains rule

/-- The channel's rules go first. -/
def ruleConfiguredForChannel (registration : Registration) (rule channelID : String) : Bool :=
  let channelID := trimSpace channelID
  if channelID ≠ "" then
    match registration.notificationChannelRules.lookup channelID with
    | some rules => rules.contains rule
    | none => ruleEnabled registration rule
  else ruleEnabled registration rule

/-- The channel is muted now. -/
def channelMuted (now : Time) (registration : Registration) (channelID : String) : Bool :=
  let channelID := trimSpace channelID
  channelID != "" &&
    (registration.notificationChannelMutedUntilEpochMillis.lookup channelID).getD 0 > unixMilli now

/-- Configured, and not muted. -/
def ruleEnabledForChannel (now : Time) (registration : Registration) (rule channelID : String) :
    Bool :=
  !channelMuted now registration channelID && ruleConfiguredForChannel registration rule channelID

/-! ## Chat messages -/

/-- A letter of a login. -/
def isTwitchLoginCharacter (c : Char) : Bool :=
  c == '_' || ('a' ≤ c && c ≤ 'z') || ('0' ≤ c && c ≤ '9')

/-- Search from the left for `needle` not followed by a character of a login; `fuel` is the length
of the text. -/
def mentions (needle : List Char) : Nat → List Char → Bool
  | 0, _ => false
  | _, [] => false
  | fuel + 1, c :: text =>
    if needle.isPrefixOf (c :: text) then
      match (c :: text).drop needle.length with
      | [] => true
      | next :: rest => !isTwitchLoginCharacter next || mentions needle fuel (next :: rest)
    else mentions needle fuel text

/-- The text has the login as a word. -/
def containsMention (env : Env) (text login : String) : Bool :=
  let login := trimSpace login
  if login = "" then false
  else
    let lowerText := (env.toLower text).toList
    mentions ('@' :: (env.toLower login).toList) lowerText.length lowerText

/-- The needle stands there, and no character of a login follows. -/
def MentionedIn (needle text : List Char) : Prop :=
  ∃ before after, text = before ++ (needle ++ after) ∧
    ∀ c ∈ after.head?, isTwitchLoginCharacter c = false

theorem MentionedIn.append {needle : List Char} (front : List Char)
    (h : MentionedIn needle text) : MentionedIn needle (front ++ text) := by
  obtain ⟨before, after, rfl, hafter⟩ := h
  exact ⟨front ++ before, after, (append_assoc _ _ _).symm, hafter⟩

theorem mentionedIn_of_rejected {next : Char} (hname : '@' ∉ name)
    (hnext : isTwitchLoginCharacter next)
    (h : MentionedIn ('@' :: name) ('@' :: name ++ next :: text)) :
    MentionedIn ('@' :: name) (next :: text) := by
  obtain ⟨before, after, htext, hafter⟩ := h
  cases before with
  | nil =>
    have hrest : next :: text = after := append_cancel_left htext
    rw [← hrest] at hafter
    have hother := hafter next rfl
    rw [hnext] at hother
    cases hother
  | cons c before =>
    have htail : name ++ next :: text = before ++ ('@' :: name ++ after) := (List.cons.inj htext).2
    rcases append_eq_append_iff.mp htail with ⟨gap, rfl, hgap⟩ | ⟨gap, hgap, hend⟩
    · exact ⟨gap, after, hgap, hafter⟩
    · cases gap with
      | nil =>
        obtain ⟨rfl, -⟩ := List.cons.inj hend
        cases hnext
      | cons d gap =>
        obtain ⟨rfl, -⟩ := List.cons.inj hend
        rw [hgap] at hname
        exact absurd (mem_append_right before mem_cons_self) hname

theorem not_mentionedIn_nil : ¬MentionedIn ('@' :: name) [] := by
  rintro ⟨before, after, htext, -⟩
  cases before <;> cases htext

/-- **The search finds every mention**, given as many rounds as the text has characters. -/
theorem mentions_iff (hname : '@' ∉ name) {fuel : Nat} (hfuel : text.length ≤ fuel) :
    mentions ('@' :: name) fuel text ↔ MentionedIn ('@' :: name) text := by
  induction fuel generalizing text with
  | zero =>
    obtain rfl := length_eq_zero_iff.mp (Nat.le_zero.mp hfuel)
    exact iff_of_false nofun not_mentionedIn_nil
  | succ fuel ih =>
    cases text with
    | nil => exact iff_of_false nofun not_mentionedIn_nil
    | cons c text =>
      rw [mentions]
      split_ifs with hfound
      · -- the needle is here; the search goes on behind it only when a login character follows
        obtain ⟨rest, hrest⟩ := List.isPrefixOf_iff_prefix.mp hfound
        rw [← hrest] at hfuel ⊢
        rw [drop_left]
        cases rest with
        | nil => exact iff_of_true rfl ⟨[], [], rfl, nofun⟩
        | cons next rest =>
          have hlen : (next :: rest).length ≤ fuel := by
            simp only [length_append, length_cons] at hfuel ⊢
            omega
          dsimp only
          rw [Bool.or_eq_true, Bool.not_eq_true', ih hlen]
          constructor
          · rintro (hnext | hlater)
            · exact ⟨[], next :: rest, rfl, fun d hd => by cases hd; exact hnext⟩
            · exact hlater.append ('@' :: name)
          · intro h
            cases hnext : isTwitchLoginCharacter next with
            | false => exact .inl rfl
            | true => exact .inr (mentionedIn_of_rejected hname hnext h)
      · rw [ih (Nat.le_of_succ_le_succ hfuel)]
        constructor
        · exact fun h => h.append [c]
        · rintro ⟨before, after, htext, hafter⟩
          cases before with
          | nil => exact absurd (List.isPrefixOf_iff_prefix.mpr ⟨after, htext.symm⟩) hfound
          | cons d before => exact ⟨before, after, (List.cons.inj htext).2, hafter⟩

/-- The same, as Twitch says it. -/
def IsLoginCharacter (c : Char) : Prop := c.isAlphanum ∨ c = '_'

theorem IsLoginCharacter.ascii {c : Char} (h : IsLoginCharacter c) :
    c.toNat < 128 ∧ isSpace c = false ∧ c.toLower ≠ '@' := by
  have hlt : c.toNat < 128 := by
    rcases h with h | rfl
    · have h : (decide (c.val ≥ 'A'.val ∧ c.val ≤ 'Z'.val) || c.val ≥ 'a'.val && c.val ≤ 'z'.val ||
          c.val ≥ '0'.val && c.val ≤ '9'.val) = true := h
      simp only [Bool.or_eq_true, Bool.and_eq_true, decide_eq_true_eq, ge_iff_le,
        UInt32.le_iff_toNat_le] at h
      have hZ : 'Z'.val.toNat = 90 := rfl
      have hz : 'z'.val.toNat = 122 := rfl
      have h9 : '9'.val.toNat = 57 := rfl
      show c.val.toNat < 128
      omega
    · decide
  have hall : ∀ n < 128, (Char.ofNat n).isAlphanum ∨ Char.ofNat n = '_' →
      isSpace (Char.ofNat n) = false ∧ (Char.ofNat n).toLower ≠ '@' := by decide +kernel
  rw [← Char.ofNat_toNat c] at h
  have hc := hall _ hlt h
  rw [Char.ofNat_toNat] at hc
  exact ⟨hlt, hc⟩

/-- What `strings.ToLower` does to ASCII texts. -/
def LowersAscii (env : Env) : Prop :=
  ∀ s : String, (∀ c ∈ s.toList, c.toNat < 128) →
    env.toLower s = String.ofList (s.toList.map Char.toLower)

/-- **Mentions are found exactly**: `@` and the lower-cased login, and no character of a login
behind them. -/
theorem containsMention_exact (hlower : LowersAscii env) (text : String)
    {login : String} (hlogin : login ≠ "") (hchars : ∀ c ∈ login.toList, IsLoginCharacter c) :
    containsMention env text login ↔
      MentionedIn ('@' :: login.toList.map Char.toLower) (env.toLower text).toList := by
  have htrim : trimSpace login = login := trimSpace_eq_self fun c hc => (hchars c hc).ascii.2.1
  have hname : env.toLower login = String.ofList (login.toList.map Char.toLower) :=
    hlower login fun c hc => (hchars c hc).ascii.1
  rw [containsMention, htrim]
  dsimp only
  rw [if_neg hlogin, hname, String.toList_ofList]
  refine mentions_iff (fun hmem => ?_) le_rfl
  obtain ⟨c, hc, heq⟩ := mem_map.mp hmem
  exact (hchars c hc).ascii.2.2 heq

/-- The search skips a longer login and finds the mention behind it. -/
theorem second_mention_found :
    containsMention { Env.sample .memory with toLower := fun s => .ofList (s.toList.map .toLower) }
      "@alice1 @Alice!" "Alice" = true :=
  (containsMention_exact (fun _ _ => rfl) _ (by decide)
    (by simp [IsLoginCharacter])).mpr
      ⟨"@alice1 ".toList, ['!'], by simp, by simp [isTwitchLoginCharacter]⟩

/-- The text has one of the phrases. -/
def containsAnyPhrase (env : Env) (text : String) (phrases : List String) : Bool :=
  phrases.any fun phrase =>
    let phrase := trimSpace phrase
    phrase != "" && decide ((env.toLower phrase).toList <:+: (env.toLower text).toList)

/-- Membership up to case. -/
def containsFold (env : Env) (values : List String) (target : String) : Bool :=
  values.any fun value => env.equalFold (trimSpace value) (trimSpace target)

/-- The notification of a chat message. -/
def chatMessageNotification (env : Env) (now : Time) (base : Notification) (event : EventPayload)
    (registration : Registration) : Option Notification :=
  let text := nestedString event "message" "text"
  let authorID := stringValue event "chatter_user_id"
  let authorLogin := stringValue event "chatter_user_login"
  let authorName := firstNonBlank [stringValue event "chatter_user_name", authorLogin]
  let parentUserID := nestedString event "reply" "parent_user_id"
  let parentUserLogin := nestedString event "reply" "parent_user_login"
  let enabled := fun rule => ruleEnabledForChannel now registration rule base.channelID
  let base := { base with
    actorID := authorID
    actorLogin := authorLogin
    actorDisplayName := authorName
    messageID := stringValue event "message_id"
    body := text
    destination := "mentions" }
  if text = "" then none
  else if registration.userID ≠ "" ∧ authorID = registration.userID then none
  else if enabled "reply" && registration.userID != "" && parentUserID == registration.userID then
    some { base with type := "reply", title := "Ответ от " ++ authorName }
  else if enabled "reply" && registration.userLogin != "" &&
      env.equalFold parentUserLogin registration.userLogin then
    some { base with type := "reply", title := "Ответ от " ++ authorName }
  else if enabled "mention" && containsMention env text registration.userLogin then
    some { base with type := "mention", title := "Упоминание от " ++ authorName }
  else if enabled "selected_user" &&
      containsFold env registration.selectedUserLogins authorLogin then
    some { base with type := "selected_user", title := "Сообщение от " ++ authorName }
  else if enabled "highlight" && containsAnyPhrase env text registration.highlightPhrases then
    some { base with type := "highlight", title := "Highlight: " ++ authorName }
  else none

/-! ## All events -/

/-- The channel of an event. -/
def eventChannel (event : EventPayload) : String :=
  firstNonBlank
    [stringValue event "broadcaster_user_id", stringValue event "to_broadcaster_user_id"]

/-- A ban that is not permanent is a timeout. -/
def banRule (event : EventPayload) : String :=
  if !boolValue event "is_permanent" || stringValue event "ends_at" != "" then "timeout" else "ban"

/-- What changed is announced. -/
def channelUpdateNotification (now : Time) (base : Notification) (channelName : String)
    (event : EventPayload) (registration : Registration) : Option Notification :=
  let canTitle := boolValue event "_ferventio_title_changed" &&
    ruleEnabledForChannel now registration "title_change" base.channelID
  let canGame := boolValue event "_ferventio_game_changed" &&
    ruleEnabledForChannel now registration "game_change" base.channelID
  let title := stringValue event "title"
  let category := stringValue event "category_name"
  if canTitle then
    if canGame then
      let body := trimSpace (" · ".intercalate (nonBlank [title, category]))
      if body = "" then none
      else some { base with
        type := "title_change", title := "Title и game изменены: " ++ channelName, body }
    else if title = "" then none
    else some { base with
      type := "title_change", title := "Новый title: " ++ channelName, body := title }
  else if canGame then
    if category = "" then none
    else some { base with
      type := "game_change", title := "Новая категория: " ++ channelName, body := category }
  else none

/-- What the registration is to be told. -/
def eventNotificationForRegistration (env : Env) (now : Time) (eventID subscriptionType : String)
    (event : EventPayload) (registration : Registration) : Option Notification :=
  let channelID := eventChannel event
  let channelLogin := firstNonBlank
    [stringValue event "broadcaster_user_login", stringValue event "to_broadcaster_user_login"]
  let channelName := firstNonBlank
    [stringValue event "broadcaster_user_name", stringValue event "to_broadcaster_user_name",
      channelLogin]
  let userName := firstNonBlank [stringValue event "user_name", stringValue event "user_login"]
  let base : Notification :=
    { eventID, channelID, channelLogin, createdAtEpochMillis := unixMilli now }
  let enabled := fun rule => ruleEnabledForChannel now registration rule channelID
  if channelID ≠ "" ∧ !registration.channelIDs.contains channelID then none
  else
    match subscriptionType with
    | "channel.chat.message" => chatMessageNotification env now base event registration
    | "automod.message.hold" =>
      let body := nestedString event "message" "text"
      if !enabled "automod_hold" ∨ body = "" then none
      else some { base with
        type := "automod_hold", title := "AutoMod: " ++ userName, body,
        messageID := stringValue event "message_id", destination := "moderation" }
    | "channel.ban" =>
      let typeName := banRule event
      if !enabled typeName then none
      else some { base with
        type := typeName
        title := (if typeName = "ban" then "Блокировка" else "Timeout") ++ " в #" ++ channelName
        body := userName, destination := "moderation" }
    | "channel.moderate" =>
      if !enabled "moderation_action" then none
      else some { base with
        type := "moderation_action", title := "Действие модерации в #" ++ channelName
        body := firstNonBlank [stringValue event "action", "Изменение модерации"]
        destination := "moderation" }
    | "stream.online" =>
      if !enabled "stream_online" then none
      else some { base with
        type := "stream_online", title := channelName ++ " начал трансляцию"
        body := "Канал сейчас онлайн" }
    | "channel.update" => channelUpdateNotification now base channelName event registration
    | "channel.raid" =>
      if !enabled "raid" then none
      else
        let raider := firstNonBlank [stringValue event "from_broadcaster_user_name",
          stringValue event "from_broadcaster_user_login"]
        some { base with
          type := "raid", title := "Raid на " ++ channelName
          body := raider ++ " · зрителей: " ++ numberString (event.lookup "viewers") }
    | "channel.channel_points_custom_reward_redemption.add" =>
      if !enabled "reward" then none
      else some { base with
        type := "reward", title := "Награда в #" ++ channelName
        body := firstNonBlank [nestedString event "reward" "title",
          stringValue event "user_input", "Использована награда канала"] }
    | "channel.subscribe" | "channel.subscription.message" | "channel.subscription.gift"
    | "channel.chat.notification" =>
      if !enabled "subscription" then none
      else some { base with
        type := "subscription", title := "Подписка в #" ++ channelName
        body := firstNonBlank [stringValue event "user_name", stringValue event "user_login",
          nestedString event "message" "text", "Новое событие подписки"] }
    | _ => none

/-! ## The identifier of a notification -/

theorem chatMessageNotification_eventID {base : Notification} {event : EventPayload}
    (h : chatMessageNotification env now base event reg = some n) :
    n.eventID = base.eventID := by
  unfold chatMessageNotification at h
  dsimp only at h
  split_ifs at h <;> cases h <;> rfl

theorem channelUpdateNotification_eventID {base : Notification} {channelName : String}
    {event : EventPayload} (h : channelUpdateNotification now base channelName event reg = some n) :
    n.eventID = base.eventID := by
  unfold channelUpdateNotification at h
  dsimp only at h
  split_ifs at h <;> cases h <;> rfl

theorem eventNotification_eventID {eid subscriptionType : String}
    {event : EventPayload}
    (h : eventNotificationForRegistration env now eid subscriptionType event reg =
      some n) : n.eventID = eid := by
  unfold eventNotificationForRegistration at h
  dsimp only at h
  split at h
  · cases h
  · split at h
    · exact chatMessageNotification_eventID h
    case h_6 => exact channelUpdateNotification_eventID h
    all_goals first
      | (split at h <;> cases h <;> rfl)
      | cases h

end Ferventio
