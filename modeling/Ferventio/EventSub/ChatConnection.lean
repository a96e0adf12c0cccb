import Ferventio.EventSub.Pipeline

/-!
# The connection of a chat session

A session dials Twitch, subscribes its channels once Twitch has welcomed it, and enqueues what it is
notified of. Twitch may ask it to reconnect elsewhere, where the subscriptions go on; after another
end it waits, dials the first endpoint again and subscribes anew.

* **`chat_endpoint_checked`**: what a session dials, and how long it waits.
* **`welcomed_session_subscribed`**: a welcomed session has its subscriptions.
-/

namespace Ferventio

open Strings Pipeline List

/-! ## The code -/

/-- `url.URL`. -/
structure ParsedURL where
  scheme : String
  hostname : String
  port : String := ""
  fragment : String := ""
  user : Option String := none

/-- The messages of the socket. -/
inductive ChatFrame
  | sessionWelcome (sessionID : String)
  | sessionKeepalive
  | sessionReconnect (reconnectURL : String)
  | notification (message : UserChatMessage)
  | revocation (status : String)
  | other

/-- The size of a frame, and the frame if it can be decoded. -/
abbrev ReceivedFrame := Result (Nat × Result ChatFrame)

/-- What the goroutine does. -/
inductive ChatEffect
  | dial (endpoint : String) (resubscribe : Bool)
  | subscribe (sessionID : String)
  | enqueue (message : UserChatMessage)
  /-- Twitch has asked a connection, which was welcomed or not, to reconnect. -/
  | reconnect (welcomed : Bool)
  | forceLease
  /-- `waitUserChatRetry`. -/
  | wait (delay : Time)

/-- The limit of a frame. -/
def maxUserChatMessageBytes : Nat := 1048576

/-- Twitch refused the token. -/
def errUserChatUnauthorized : GoError := .plain "Twitch user chat authorization rejected"

/-- The delay doubles up to a minute. -/
def nextUserChatBackoff (current : Time) : Time :=
  if current * 2 > minute then minute else current * 2

/-- A frame of a good size. -/
def checkChatFrame : ReceivedFrame → Result ChatFrame
  | .error err => .error err
  | .ok (size, decoded) =>
    if size = 0 || size > maxUserChatMessageBytes then
      .error (.plain "invalid user chat EventSub frame size")
    else decoded.mapError (.wrapped "decode user chat EventSub frame")

/-- The variables of `runSession`, and whether Twitch has welcomed it. -/
structure ChatSessionState where
  endpoint : String
  resubscribe : Bool := true
  backoff : Time := second
  connection : Option Bool := none

/-- What happens to the goroutine. -/
inductive ChatEvent
  | noCredential
  | dialed (err : Option GoError)
  /-- With the answer of `createChatSubscriptions`. -/
  | received (frame : ReceivedFrame) (subscribed : Option GoError)

section Code

-- `url.Parse` and the manager's endpoint
variable (parse : String → Option ParsedURL) (wsURL : String)

/-- The endpoints that are accepted. -/
def validateUserChatReconnectURL (raw : String) : Option GoError :=
  if (parse raw).any fun u => u.scheme = "wss" && u.hostname = "eventsub.wss.twitch.tv" &&
      u.user.isNone && u.fragment = "" && (u.port = "" || u.port = "443") then none
  else some (.plain "invalid Twitch EventSub reconnect URL")

/-- The end of a connection without a new endpoint. -/
def ChatSessionState.retry (s : ChatSessionState) (err : GoError) :
    List ChatEffect × ChatSessionState :=
  (.wait s.backoff :: if err.is errUserChatUnauthorized then [.forceLease] else [],
    { endpoint := wsURL, backoff := nextUserChatBackoff s.backoff })

/-- One round of `serveConnection`; the newest effect first. -/
def serveFrame (s : ChatSessionState) (welcomed : Bool) (frame : ReceivedFrame)
    (subscribed : Option GoError) : List ChatEffect × ChatSessionState :=
  match checkChatFrame frame with
  | .error err => s.retry wsURL err
  | .ok (.sessionWelcome sessionID) =>
    if welcomed || trimSpace sessionID = "" then
      s.retry wsURL (.plain "invalid user chat EventSub welcome")
    else if s.resubscribe then
      match subscribed with
      | some err => ((s.retry wsURL err).1 ++ [.subscribe sessionID], (s.retry wsURL err).2)
      | none => ([.subscribe sessionID], { s with connection := some true })
    else ([], { s with connection := some true })
  | .ok .sessionKeepalive =>
    if welcomed then ([], s)
    else s.retry wsURL (.plain "user chat EventSub keepalive before welcome")
  | .ok (.sessionReconnect url) =>
    if trimSpace url = "" then
      s.retry wsURL (.plain "user chat EventSub reconnect URL is missing")
    else match validateUserChatReconnectURL parse (trimSpace url) with
      | some err => s.retry wsURL err
      | none => ([.reconnect welcomed], { endpoint := trimSpace url, resubscribe := false })
  | .ok (.notification message) =>
    (if welcomed && message.subscriptionType = "channel.chat.message" then [.enqueue message]
      else [], s)
  | .ok (.revocation status) =>
    s.retry wsURL (.plain ("user chat EventSub subscription revoked: " ++ status))
  | .ok .other => ([], s)

/-- One event of `runSession`, where it can happen. -/
def sessionStep (s : ChatSessionState) : ChatEvent → List ChatEffect × ChatSessionState
  | .noCredential =>
    if s.connection = none then
      ([.wait s.backoff], { s with backoff := nextUserChatBackoff s.backoff })
    else ([], s)
  | .dialed err =>
    if s.connection = none then
      match err with
      | none => ([.dial s.endpoint s.resubscribe], { s with connection := some false })
      | some err =>
        ((s.retry wsURL err).1 ++ [.dial s.endpoint s.resubscribe], (s.retry wsURL err).2)
    else ([], s)
  | .received frame subscribed =>
    match s.connection with
    | none => ([], s)
    | some welcomed => serveFrame parse wsURL s welcomed frame subscribed

/-- The effects of a session, the newest first, and its state. -/
def runSession (events : List ChatEvent) : List ChatEffect × ChatSessionState :=
  events.foldl (fun r event => ((sessionStep parse wsURL r.2 event).1 ++ r.1,
    (sessionStep parse wsURL r.2 event).2)) ([], { endpoint := wsURL })

end Code

/-! ## All runs -/

/-- The channels are subscribed since the last such dial. -/
def subscribedSince : List ChatEffect → Bool
  | [] => false
  | .subscribe _ :: _ => true
  | .dial _ true :: _ => false
  | _ :: log => subscribedSince log

section Run

variable {parse : String → Option ParsedURL} {wsURL : String} {events : List ChatEvent}
  {log : List ChatEffect} {s : ChatSessionState}

/-- To subscribe, the manager's endpoint; to resume, one that Twitch sent and that was checked. -/
def MayDial (parse : String → Option ParsedURL) (wsURL : String) (events : List ChatEvent)
    (endpoint : String) (resubscribe : Bool) : Prop :=
  if resubscribe then endpoint = wsURL
  else validateUserChatReconnectURL parse endpoint = none ∧
    ∃ frame subscribed url, .received frame subscribed ∈ events ∧
      checkChatFrame frame = .ok (.sessionReconnect url) ∧ trimSpace url = endpoint

/-- What a session may do when these events happen to it. -/
def ChatEffect.Allowed (parse : String → Option ParsedURL) (wsURL : String)
    (events : List ChatEvent) : ChatEffect → Prop
  | .dial endpoint resubscribe => MayDial parse wsURL events endpoint resubscribe
  | .wait delay => second ≤ delay ∧ delay ≤ minute
  | _ => True

/-- What holds of a session to which `events` happen. -/
structure ChatSound (parse : String → Option ParsedURL) (wsURL : String) (events : List ChatEvent)
    (log : List ChatEffect) (s : ChatSessionState) : Prop where
  endpoint : MayDial parse wsURL events s.endpoint s.resubscribe
  backoff : second ≤ s.backoff ∧ s.backoff ≤ minute
  effects : ∀ effect ∈ log, effect.Allowed parse wsURL events
  subscribed : s.connection = some true ∨ s.resubscribe = false →
    subscribedSince log ∨ .reconnect false ∈ log

theorem nextUserChatBackoff_bounds {b : Time} (h : second ≤ b) :
    second ≤ nextUserChatBackoff b ∧ nextUserChatBackoff b ≤ minute := by
  have hb : (1000000000 : Int) ≤ b := h
  rw [nextUserChatBackoff]
  split_ifs with hlarge
  · exact ⟨by decide, le_rfl⟩
  · exact ⟨(by omega : (1000000000 : Int) ≤ b * 2), not_lt.mp hlarge⟩

section ChatSound

variable (h : ChatSound parse wsURL events log s)

include h

theorem ChatSound.logged (effect : ChatEffect) (hallowed : effect.Allowed parse wsURL events) :
    ∀ effect' ∈ effect :: log, effect'.Allowed parse wsURL events :=
  forall_mem_cons.mpr ⟨hallowed, h.effects⟩

theorem ChatSound.retry (err : GoError)
    {log' : List ChatEffect} (hlog : ∀ effect ∈ log', effect.Allowed parse wsURL events) :
    ChatSound parse wsURL events ((s.retry wsURL err).1 ++ log') (s.retry wsURL err).2 := by
  refine ⟨rfl, nextUserChatBackoff_bounds h.backoff.1, ?_, by simp [ChatSessionState.retry]⟩
  intro effect hmem
  rcases mem_append.mp hmem with hnew | hold
  · rw [ChatSessionState.retry] at hnew
    rcases mem_cons.mp hnew with rfl | hlease
    · exact h.backoff
    · split_ifs at hlease
      · rw [mem_singleton.mp hlease]
        trivial
      · cases hlease
  · exact hlog effect hold

theorem ChatSound.serveFrame {welcomed : Bool}
    (hopen : s.connection = some welcomed) {frame : ReceivedFrame} {subscribed : Option GoError}
    (hevent : .received frame subscribed ∈ events) :
    ChatSound parse wsURL events ((serveFrame parse wsURL s welcomed frame subscribed).1 ++ log)
      (serveFrame parse wsURL s welcomed frame subscribed).2 := by
  have holder : ∀ {effect}, (subscribedSince log ∨ .reconnect false ∈ log) →
      subscribedSince log ∨ .reconnect false ∈ effect :: log :=
    fun hlog => hlog.imp id (mem_cons_of_mem _)
  unfold Ferventio.serveFrame
  split
  · exact h.retry _ h.effects
  · rename_i sessionID _
    split_ifs with hbad hfresh
    · exact h.retry _ h.effects
    · have hlogged := h.logged (.subscribe sessionID) trivial
      split
      · rename_i err
        rw [append_assoc]
        exact h.retry err hlogged
      · exact ⟨h.endpoint, h.backoff, hlogged, fun _ => .inl rfl⟩
    · exact ⟨h.endpoint, h.backoff, h.effects, fun _ => h.subscribed (.inr (by simpa using hfresh))⟩
  · split_ifs
    · exact h
    · exact h.retry _ h.effects
  · rename_i url hframe
    split_ifs
    · exact h.retry _ h.effects
    · split
      · exact h.retry _ h.effects
      · rename_i hvalid
        refine ⟨⟨hvalid, frame, subscribed, url, hevent, hframe, rfl⟩,
          ⟨le_rfl, (by decide : second ≤ minute)⟩, h.logged _ trivial, fun _ => ?_⟩
        cases welcomed with
        | true => exact holder (h.subscribed (.inl hopen))
        | false => exact .inr mem_cons_self
  · split_ifs
    · exact ⟨h.endpoint, h.backoff, h.logged _ trivial, fun hs => holder (h.subscribed hs)⟩
    · exact h
  · exact h.retry _ h.effects
  · exact h

theorem ChatSound.step {event : ChatEvent} (hevent : event ∈ events) :
    ChatSound parse wsURL events ((sessionStep parse wsURL s event).1 ++ log)
      (sessionStep parse wsURL s event).2 := by
  unfold sessionStep
  split
  · split_ifs
    · exact ⟨h.endpoint, nextUserChatBackoff_bounds h.backoff.1, h.logged _ h.backoff,
        fun hs => (h.subscribed hs).imp id (mem_cons_of_mem _)⟩
    · exact h
  · split_ifs
    · have hlogged := h.logged (.dial s.endpoint s.resubscribe) h.endpoint
      split
      · refine ⟨h.endpoint, h.backoff, hlogged, fun hs => ?_⟩
        have hresumed : s.resubscribe = false := by simpa using hs
        rw [hresumed]
        exact (h.subscribed (.inr hresumed)).imp id (mem_cons_of_mem _)
      · rename_i err
        rw [append_assoc]
        exact h.retry err hlogged
    · exact h
  · split
    · exact h
    · rename_i hopen
      exact h.serveFrame hopen hevent

end ChatSound

variable (parse wsURL events)

theorem runSession_sound :
    ChatSound parse wsURL events (runSession parse wsURL events).1
      (runSession parse wsURL events).2 := by
  refine foldlRecOn (motive := fun r : List ChatEffect × ChatSessionState =>
    ChatSound parse wsURL events r.1 r.2) events _ ?_ fun _ hr event hevent => hr.step hevent
  exact ⟨rfl, ⟨le_rfl, (by decide : second ≤ minute)⟩, by simp, by simp⟩

/-- **A session dials the manager's endpoint to subscribe, and otherwise one that Twitch has sent
and that was checked**; it waits a second to a minute between two attempts. -/
theorem chat_endpoint_checked :
    (∀ endpoint, .dial endpoint true ∈ (runSession parse wsURL events).1 → endpoint = wsURL) ∧
    (∀ endpoint, .dial endpoint false ∈ (runSession parse wsURL events).1 →
      validateUserChatReconnectURL parse endpoint = none ∧
        ∃ frame subscribed url, .received frame subscribed ∈ events ∧
          checkChatFrame frame = .ok (.sessionReconnect url) ∧ trimSpace url = endpoint) ∧
    ∀ delay, .wait delay ∈ (runSession parse wsURL events).1 → second ≤ delay ∧ delay ≤ minute := by
  have heffs := (runSession_sound parse wsURL events).effects
  refine ⟨fun endpoint hdial => ?_, fun endpoint hdial => ?_, fun delay hwait => heffs _ hwait⟩
  · exact heffs _ hdial
  · exact heffs _ hdial

/-- **A welcomed session has its subscriptions**, unless it was asked to reconnect before its
welcome. -/
theorem welcomed_session_subscribed (h : (runSession parse wsURL events).2.connection = some true) :
    subscribedSince (runSession parse wsURL events).1 ∨
      .reconnect false ∈ (runSession parse wsURL events).1 :=
  (runSession_sound parse wsURL events).subscribed (.inl h)

/-- Twitch sends a session elsewhere before it has welcomed it. -/
def sentAway : List ChatEffect × ChatSessionState :=
  runSession (fun _ => some { scheme := "wss", hostname := "eventsub.wss.twitch.tv" }) "ws"
    [.dialed none, .received (.ok (1, .ok (.sessionReconnect "ws2"))) none, .dialed none,
      .received (.ok (1, .ok (.sessionWelcome "s"))) none]

theorem early_reconnect_unsubscribed :
    subscribedSince sentAway.1 = false ∧ .reconnect false ∈ sentAway.1 :=
  have hnever : subscribedSince sentAway.1 = false := by decide +kernel
  ⟨hnever, (welcomed_session_subscribed _ _ _ (by decide +kernel)).resolve_left
    (Bool.eq_false_iff.mp hnever)⟩

end Run

end Ferventio
