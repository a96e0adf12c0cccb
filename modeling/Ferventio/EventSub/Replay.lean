import Ferventio.Delivery.Postgres

/-!
# Replayed messages

The webhook of `application/eventsub.go` up to the inbox, on the PostgreSQL store. A signature
covers the message's id and its timestamp, and a request is accepted only within ten minutes of the
timestamp. Whoever has seen a signed request can send it again as long as it is accepted; the inbox
and the list of seen messages have to remember it for so long.

* **`replays_create_once`**: a signed request creates at most one inbox record.
-/

namespace Ferventio

open Strings Table List

variable {since now : Time} {messageID : String} {s : DeliveryDiskState}

/-! ## The webhook -/

/-- `time.Parse` for RFC 3339, the HMAC with SHA-256, and `hex.DecodeString`. -/
structure Signing where
  parseTime : String → Result Time
  hmacSHA256 : (secret text : String) → String
  hexDecode : String → Option String

/-- How old a message may be. -/
def eventSubReplayWindow : Duration := 10 * minute

/-- The name of the hash. -/
def signatureStart : List Char := "sha256=".toList

/-- The headers are there. -/
def validateEventSubVerificationHeaders (messageID rawTimestamp signature : String) :
    Result Unit :=
  if messageID = "" ∨ rawTimestamp = "" ∨ signature = "" then
    .error (.plain "missing EventSub verification headers")
  else if messageID.utf8ByteSize > 128 ∨ rawTimestamp.utf8ByteSize > 64 ∨
      signature.utf8ByteSize ≠ 7 + 32 * 2 then
    .error (.plain "invalid EventSub verification header length")
  else if !signatureStart.isPrefixOf signature.toList then
    .error (.plain "invalid EventSub signature format")
  else .ok ()

/-- Check the age and the signature. -/
def verifyEventSubMessage (signing : Signing)
    (secret messageID rawTimestamp signature body : String) (now : Time) : Result Unit :=
  if messageID = "" ∨ rawTimestamp = "" ∨ !signatureStart.isPrefixOf signature.toList then
    .error (.plain "missing EventSub verification headers")
  else
    match signing.parseTime rawTimestamp with
    | .error err => .error (.wrapped "invalid EventSub timestamp" err)
    | .ok timestamp =>
      if now - timestamp > eventSubReplayWindow ∨ now - timestamp < -eventSubReplayWindow then
        .error (.plain "EventSub timestamp is outside replay window")
      else
        let expected := signing.hmacSHA256 secret (messageID ++ rawTimestamp ++ body)
        let provided := signing.hexDecode
          (String.ofList (signature.toList.drop signatureStart.length))
        if provided = some expected then .ok ()
        else .error (.plain "EventSub signature mismatch")

/-- The headers and the body; one that is too long is not read. -/
structure WebhookRequest where
  messageID : String
  timestamp : String
  signature : String
  messageType : String
  body : Option String

/-- The answers. -/
inductive WebhookAnswer
  | notConfigured
  | rejected
  | invalidBody
  | invalidJSON
  | missingChallenge
  | challenge (text : String)
  | enqueued (result : Result (Option EventSubInboxRecord × Bool))
  | revoked
  | unsupported

/-- The secret, the libraries and the decoding of a body. -/
structure WebhookConfig where
  eventSubSecret : String
  signing : Signing
  unmarshal : String → Option EventSubEnvelope

/-- Handle a request of Twitch. -/
def eventSubWebhook (cfg : WebhookConfig) (request : WebhookRequest) (now : Time)
    (s : DeliveryDiskState) : WebhookAnswer × DeliveryDiskState :=
  if cfg.eventSubSecret = "" then (.notConfigured, s)
  else
    let messageID := trimSpace request.messageID
    let messageTimestamp := trimSpace request.timestamp
    let signature := trimSpace request.signature
    match validateEventSubVerificationHeaders messageID messageTimestamp signature with
    | .error _ => (.rejected, s)
    | .ok () =>
      match request.body with
      | none => (.invalidBody, s)
      | some body =>
        match verifyEventSubMessage cfg.signing cfg.eventSubSecret messageID messageTimestamp
            signature body now with
        | .error _ => (.rejected, s)
        | .ok () =>
          match cfg.unmarshal body with
          | none => (.invalidJSON, s)
          | some envelope =>
            if request.messageType = "webhook_callback_verification" then
              if envelope.challenge = "" then (.missingChallenge, s)
              else (.challenge envelope.challenge, s)
            else if request.messageType = "notification" then
              let (result, s) := Postgres.enqueueEventSub messageID envelope now s
              (.enqueued result, s)
            else if request.messageType = "revocation" then
              (.revoked, (Postgres.seenEventSub messageID now (24 * hour) s).2)
            else (.unsupported, s)

theorem verified_in_window {signing : Signing}
    {secret messageID rawTimestamp signature body : String} {now : Time}
    (h : verifyEventSubMessage signing secret messageID rawTimestamp signature body now = .ok ()) :
    ∃ timestamp, signing.parseTime rawTimestamp = .ok timestamp ∧
      now - timestamp ≤ eventSubReplayWindow ∧ -eventSubReplayWindow ≤ now - timestamp := by
  rw [verifyEventSubMessage] at h
  split at h
  · cases h
  · split at h
    · cases h
    · rename_i timestamp hstamp
      split at h
      · cases h
      · rename_i hwin
        rw [not_or, Int.not_lt, Int.not_lt] at hwin
        exact ⟨timestamp, hstamp, hwin⟩

theorem eventSubWebhook_cases (cfg : WebhookConfig) (req : WebhookRequest) (now : Time)
    (s : DeliveryDiskState) :
    ((eventSubWebhook cfg req now s).2 = s ∧
        ∀ result, (eventSubWebhook cfg req now s).1 ≠ .enqueued result) ∨
      (eventSubWebhook cfg req now s =
        (.revoked, (Postgres.seenEventSub (trimSpace req.messageID) now (24 * hour) s).2)) ∨
      ∃ envelope, eventSubWebhook cfg req now s =
          (.enqueued (Postgres.enqueueEventSub (trimSpace req.messageID) envelope now s).1,
            (Postgres.enqueueEventSub (trimSpace req.messageID) envelope now s).2) ∧
        ∃ timestamp, cfg.signing.parseTime (trimSpace req.timestamp) = .ok timestamp ∧
          now - timestamp ≤ eventSubReplayWindow ∧ -eventSubReplayWindow ≤ now - timestamp := by
  rw [eventSubWebhook]
  dsimp only
  split
  · exact .inl ⟨rfl, nofun⟩
  split
  · exact .inl ⟨rfl, nofun⟩
  split
  · exact .inl ⟨rfl, nofun⟩
  split
  · exact .inl ⟨rfl, nofun⟩
  rename_i hverified
  split
  · exact .inl ⟨rfl, nofun⟩
  rename_i envelope _
  split
  · split
    · exact .inl ⟨rfl, nofun⟩
    · exact .inl ⟨rfl, nofun⟩
  split
  · exact .inr (.inr ⟨envelope, rfl, verified_in_window hverified⟩)
  split
  · exact .inr (.inl rfl)
  · exact .inl ⟨rfl, nofun⟩

/-! ## What the store remembers -/

/-- The message came, or was processed, not before `since`. -/
def Held (since : Time) (messageID : String) (s : DeliveryDiskState) : Prop :=
  (∃ r, s.eventSubInbox.lookup messageID = some r ∧ since ≤ r.receivedAt) ∨
    ∃ seenAt, s.seen.lookup messageID = some seenAt ∧ since ≤ seenAt

section Held

theorem lookup_seen_kept {seenAt : Time} (hnow : now ≤ since + 24 * hour)
    (h : s.seen.lookup messageID = some seenAt) (hsince : since ≤ seenAt) :
    (s.seen.select fun _ seenAt => !(seenAt < now - 24 * hour)).lookup messageID = some seenAt := by
  have hkept : ¬seenAt < now - 24 * hour :=
    Int.not_lt.mpr (Int.le_trans (Int.sub_right_le_of_le_add hnow) hsince)
  rw [lookup_select, h, Option.filter_some, decide_eq_false hkept]
  rfl

theorem enqueueEventSub_held (h : Held since messageID s) (hnow : now ≤ since + 24 * hour)
    (mid' : String) (envelope : EventSubEnvelope) :
    Held since messageID (Postgres.enqueueEventSub mid' envelope now s).2 ∧
      (trimSpace mid' = messageID → ∀ row,
        (Postgres.enqueueEventSub mid' envelope now s).1 ≠ .ok (row, true)) := by
  rw [Postgres.enqueueEventSub]
  dsimp only
  by_cases hempty : trimSpace mid' = ""
  · rw [if_pos hempty]
    exact ⟨h, fun _ _ => nofun⟩
  rw [if_neg hempty]
  have hclean : Held since messageID
      { s with seen := s.seen.select fun _ seenAt => !(seenAt < now - 24 * hour) } := by
    rcases h with hrow | ⟨seenAt, hseen, hsince⟩
    · exact .inl hrow
    · exact .inr ⟨seenAt, lookup_seen_kept hnow hseen hsince, hsince⟩
  split
  · exact ⟨hclean, fun _ _ => nofun⟩
  rename_i hunseen
  split
  · exact ⟨hclean, fun _ _ => nofun⟩
  rename_i hnone
  -- a message that is held would have been found
  have hother : trimSpace mid' ≠ messageID := by
    rintro rfl
    rcases hclean with ⟨row, hrow, -⟩ | ⟨seenAt, hseen, -⟩
    · rw [hnone] at hrow
      cases hrow
    · exact hunseen (by rw [hseen]; rfl)
  refine ⟨?_, fun hsame => absurd hsame hother⟩
  rcases hclean with ⟨row, hrow, hsince⟩ | hseen
  · refine .inl ⟨row, ?_, hsince⟩
    rw [lookup_insert_eq, if_neg (Ne.symm hother)]
    exact hrow
  · exact .inr hseen

theorem enqueueEventSub_creates {mid' : String} {envelope : EventSubEnvelope}
    {row : Option EventSubInboxRecord}
    (h : (Postgres.enqueueEventSub mid' envelope now s).1 = .ok (row, true)) :
    Held now (trimSpace mid') (Postgres.enqueueEventSub mid' envelope now s).2 := by
  rw [Postgres.enqueueEventSub] at h ⊢
  dsimp only at h ⊢
  split at h
  · cases h
  rename_i hempty
  rw [if_neg hempty]
  split at h
  · cases h
  rename_i hunseen
  rw [if_neg hunseen]
  split at h
  · cases h
  · exact .inl ⟨_, AList.lookup_insert _, Int.le_refl now⟩

variable (h : Held since messageID s)

include h

theorem completeEventSub_held (hnow : since ≤ now) (mid' : String) :
    Held since messageID (Postgres.completeEventSub mid' now s).2 := by
  rw [Postgres.completeEventSub]
  split
  · exact h
  · by_cases hsame : messageID = mid'
    · subst hsame
      exact .inr ⟨now, AList.lookup_insert _, hnow⟩
    · rcases h with ⟨row, hrow, hsince⟩ | ⟨seenAt, hseen, hsince⟩
      · refine .inl ⟨row, ?_, hsince⟩
        rw [lookup_erase_eq, if_neg hsame]
        exact hrow
      · refine .inr ⟨seenAt, ?_, hsince⟩
        rw [lookup_insert_eq, if_neg hsame]
        exact hseen

theorem Held.rewritten {mid' : String} {row row' : EventSubInboxRecord}
    (hrow : s.eventSubInbox.lookup mid' = some row) (hrecv : row'.receivedAt = row.receivedAt) :
    Held since messageID
      { s with eventSubInbox := s.eventSubInbox.insert mid' row' } := by
  rcases h with ⟨existing, hexisting, hsince⟩ | hseen
  · by_cases hsame : messageID = mid'
    · subst hsame
      rw [hrow] at hexisting
      cases hexisting
      exact .inl ⟨row', AList.lookup_insert _, hrecv ▸ hsince⟩
    · refine .inl ⟨existing, ?_, hsince⟩
      rw [lookup_insert_eq, if_neg hsame]
      exact hexisting
  · exact .inr hseen

theorem rewriteMessage_held (mid' : String) {rewrite : EventSubInboxRecord → EventSubInboxRecord}
    (hrecv : ∀ row, (rewrite row).receivedAt = row.receivedAt) :
    Held since messageID (rewriteMessage mid' rewrite s).2 := by
  rw [rewriteMessage]
  split
  · exact h
  · rename_i row hrow
    exact h.rewritten hrow (hrecv row)

theorem seenEventSub_held (hnow : now ≤ since + 24 * hour) (mid' : String) :
    Held since messageID (Postgres.seenEventSub mid' now (24 * hour) s).2 := by
  rw [Postgres.seenEventSub]
  rcases h with hrow | ⟨seenAt, hseen, hsince⟩
  · split <;> exact .inl hrow
  · have hkept := lookup_seen_kept hnow hseen hsince
    refine .inr ⟨seenAt, ?_, hsince⟩
    split
    · exact hkept
    · rename_i hunseen
      rw [lookup_insert_eq, if_neg]
      · exact hkept
      · rintro rfl
        exact hunseen (by rw [hkept]; rfl)

theorem cleanup_held (hnow : now ≤ since + 24 * hour) :
    Held since messageID (Postgres.cleanup now s).2 := by
  rcases h with ⟨row, hrow, hsince⟩ | ⟨seenAt, hseen, hsince⟩
  · have hrecv : (expireInbox now row).receivedAt = row.receivedAt := by
      rw [expireInbox]
      split <;> rfl
    have hday : 24 * hour ≤ retention := by decide
    have hretained : ¬row.receivedAt < now - retention :=
      Int.not_lt.mpr (Int.le_trans (Int.sub_right_le_of_le_add
        (Int.le_trans hnow (Int.add_le_add_left hday since))) hsince)
    refine .inl ⟨expireInbox now row, ?_, hrecv ▸ hsince⟩
    rw [Postgres.cleanup, lookup_select, lookup_amend, hrow, Option.map_some,
      Option.filter_some, hrecv, decide_eq_false hretained, Bool.and_false]
    rfl
  · exact .inr ⟨seenAt, lookup_seen_kept hnow hseen hsince, hsince⟩

end Held

/-! ## Runs -/

/-- A request to the webhook, or a call to the inbox. -/
inductive InboxStep
  | webhook (request : WebhookRequest)
  | completeEventSub (messageID : String)
  | markEventSubFailed (messageID : String) (failure : GoError)
  | retryEventSub (messageID : String)
  | enqueueEventSub (messageID : String) (envelope : EventSubEnvelope)
  | cleanup

/-- The store after a step. -/
def InboxStep.take (cfg : WebhookConfig) (now : Time) (s : DeliveryDiskState) :
    InboxStep → DeliveryDiskState
  | webhook request => (eventSubWebhook cfg request now s).2
  | completeEventSub messageID => (Postgres.completeEventSub messageID now s).2
  | markEventSubFailed messageID failure => (Postgres.markEventSubFailed messageID failure now s).2
  | retryEventSub messageID => (Postgres.retryEventSub messageID now s).2
  | enqueueEventSub messageID envelope => (Postgres.enqueueEventSub messageID envelope now s).2
  | cleanup => (Postgres.cleanup now s).2

/-- `EnqueueEventSub` has returned `created = true`. -/
def WebhookAnswer.created : WebhookAnswer → Bool
  | enqueued (.ok (_, created)) => created
  | _ => false

theorem WebhookAnswer.created_iff {ans : WebhookAnswer} :
    ans.created ↔ ∃ row, ans = .enqueued (.ok (row, true)) := by
  constructor
  · intro h
    unfold WebhookAnswer.created at h
    split at h
    · rename_i row created
      exact ⟨row, by rw [h]⟩
    · cases h
  · rintro ⟨row, rfl⟩
    rfl

/-- A request signed for the id and the timestamp creates a record. -/
def InboxStep.creates (cfg : WebhookConfig) (messageID timestamp : String) (now : Time)
    (s : DeliveryDiskState) : InboxStep → Bool
  | webhook request =>
    trimSpace request.messageID == messageID && trimSpace request.timestamp == timestamp &&
      (eventSubWebhook cfg request now s).1.created
  | _ => false

/-- The times at which such requests create a record. -/
def creations (cfg : WebhookConfig) (messageID timestamp : String) :
    List (Time × InboxStep) → DeliveryDiskState → List Time
  | [], _ => []
  | (now, step) :: rest, s =>
    (if step.creates cfg messageID timestamp now s then [now] else []) ++
      creations cfg messageID timestamp rest (step.take cfg now s)

section Runs

variable {cfg : WebhookConfig} {timestamp : String}

theorem creates_held {step : InboxStep} (h : step.creates cfg messageID timestamp now s) :
    Held now messageID (step.take cfg now s) ∧
      ∃ instant, cfg.signing.parseTime timestamp = .ok instant ∧
        now - instant ≤ eventSubReplayWindow ∧ -eventSubReplayWindow ≤ now - instant := by
  cases step with
  | webhook req =>
    rw [InboxStep.creates, Bool.and_eq_true, Bool.and_eq_true, beq_iff_eq, beq_iff_eq,
      WebhookAnswer.created_iff] at h
    obtain ⟨⟨rfl, rfl⟩, row, hrec⟩ := h
    rw [InboxStep.take]
    rcases eventSubWebhook_cases cfg req now s with
      ⟨-, hother⟩ | hrevoked | ⟨envelope, henq, hwin⟩
    · exact absurd hrec (hother _)
    · rw [hrevoked] at hrec
      cases hrec
    · rw [henq] at hrec ⊢
      have hcreates := enqueueEventSub_creates (WebhookAnswer.enqueued.inj hrec)
      rw [trimSpace_trimSpace] at hcreates
      dsimp only
      exact ⟨hcreates, hwin⟩
  | _ => exact absurd h Bool.false_ne_true

theorem take_held (h : Held since messageID s) (hsince : since ≤ now)
    (hnow : now ≤ since + 24 * hour) (timestamp : String) (step : InboxStep) :
    Held since messageID (step.take cfg now s) ∧
      step.creates cfg messageID timestamp now s = false := by
  cases step with
  | webhook req =>
    rw [InboxStep.take, ← Bool.not_eq_true, InboxStep.creates, Bool.and_eq_true, Bool.and_eq_true,
      beq_iff_eq, beq_iff_eq, WebhookAnswer.created_iff]
    rcases eventSubWebhook_cases cfg req now s with
      ⟨hsame, hother⟩ | hrevoked | ⟨envelope, henq, -⟩
    · rw [hsame]
      exact ⟨h, fun hcreated => hother _ hcreated.2.choose_spec⟩
    · rw [hrevoked]
      dsimp only
      refine ⟨seenEventSub_held h hnow _, ?_⟩
      rintro ⟨-, row, hrec⟩
      cases hrec
    · obtain ⟨hheld, hnew⟩ := enqueueEventSub_held h hnow (trimSpace req.messageID) envelope
      rw [henq]
      dsimp only
      refine ⟨hheld, ?_⟩
      rintro ⟨⟨hid, -⟩, row, hrec⟩
      rw [trimSpace_trimSpace] at hnew
      exact hnew hid row (WebhookAnswer.enqueued.inj hrec)
  | completeEventSub mid' => exact ⟨completeEventSub_held h hsince mid', rfl⟩
  | markEventSubFailed => exact ⟨rewriteMessage_held h _ fun _ => rfl, rfl⟩
  | retryEventSub => exact ⟨rewriteMessage_held h _ fun _ => rfl, rfl⟩
  | enqueueEventSub => exact ⟨(enqueueEventSub_held h hnow _ _).1, rfl⟩
  | cleanup => exact ⟨cleanup_held h hnow, rfl⟩

theorem le_of_in_windows {window day instant since now : Int} (hnow : now - instant ≤ window)
    (hsince : -window ≤ since - instant) (hday : window + window ≤ day) : now ≤ since + day := by
  omega

/-- **After a creation** no request with its signature creates a record. -/
theorem creations_after {instant : Time} (hinstant : cfg.signing.parseTime timestamp = .ok instant)
    (hwin : -eventSubReplayWindow ≤ since - instant) {steps : List (Time × InboxStep)}
    (hclock : ∀ step ∈ steps, since ≤ step.1) (hsort : (steps.map Prod.fst).Pairwise (· ≤ ·))
    (h : Held since messageID s ∨ ∀ step ∈ steps, since + 24 * hour < step.1) :
    creations cfg messageID timestamp steps s = [] := by
  induction steps generalizing s with
  | nil => rfl
  | cons entry rest ih =>
    obtain ⟨now, step⟩ := entry
    have hlater : ∀ entry ∈ rest, now ≤ entry.1 := by
      intro entry hentry
      exact (pairwise_cons.mp hsort).1 _ (mem_map_of_mem hentry)
    have hrest := ih (s := step.take cfg now s)
      (fun entry hentry => hclock entry (mem_cons_of_mem _ hentry))
      (pairwise_cons.mp hsort).2
    rw [creations]
    by_cases hnow : now ≤ since + 24 * hour
    · rcases h with hheld | hover
      · have hsince : since ≤ now := hclock _ mem_cons_self
        obtain ⟨hkept, hnew⟩ := take_held hheld hsince hnow timestamp step
        rw [hnew, if_neg Bool.false_ne_true, hrest (.inl hkept)]
        rfl
      · exact absurd hnow (Int.not_le.mpr (hover _ mem_cons_self))
    · rw [Int.not_le] at hnow
      rw [if_neg, hrest (.inr fun entry hentry => Int.lt_of_lt_of_le hnow (hlater entry hentry))]
      · rfl
      · -- a request at this time is outside the window
        intro hcreates
        obtain ⟨-, instant', hinstant', hlate, -⟩ := creates_held hcreates
        rw [hinstant] at hinstant'
        cases hinstant'
        have hday : eventSubReplayWindow + eventSubReplayWindow ≤ 24 * hour := by decide
        exact absurd (le_of_in_windows hlate hwin hday) (Int.not_le.mpr hnow)

/-- **No replay creates a second record**: in every run, the requests that are signed for one id and
timestamp create at most one inbox record. -/
theorem replays_create_once (cfg : WebhookConfig) (messageID timestamp : String)
    (s : DeliveryDiskState) {steps : List (Time × InboxStep)}
    (hclock : (steps.map Prod.fst).Pairwise (· ≤ ·)) :
    (creations cfg messageID timestamp steps s).length ≤ 1 := by
  induction steps generalizing s with
  | nil => exact Nat.zero_le 1
  | cons entry rest ih =>
    obtain ⟨now, step⟩ := entry
    obtain ⟨hlater, hrest⟩ := pairwise_cons.mp hclock
    rw [creations]
    split
    · rename_i hcreates
      obtain ⟨hheld, instant, hinstant, -, hwin⟩ := creates_held hcreates
      rw [creations_after hinstant hwin
        (fun entry hentry => hlater _ (mem_map_of_mem hentry)) hrest (.inl hheld)]
      exact Nat.le_refl 1
    · exact ih _ hrest

end Runs

/-- All signatures are right, and timestamps mean `0`. -/
def trusting : WebhookConfig where
  eventSubSecret := "secret"
  signing :=
    { parseTime := fun _ => .ok 0
      hmacSHA256 := fun _ _ => ""
      hexDecode := fun _ => some "" }
  unmarshal := fun _ => some {}

/-- A signed message. -/
def notification : WebhookRequest where
  messageID := "message"
  timestamp := "0001-01-01T00:00:00Z"
  signature := String.ofList (signatureStart ++ List.replicate 64 '0')
  messageType := "notification"
  body := some ""

/-- The notification is sent, sent again, processed and sent again: it is created once. -/
theorem replayed_notification_created_once :
    creations trusting "message" "0001-01-01T00:00:00Z"
        [(0, .webhook notification), (1, .webhook notification), (2, .completeEventSub "message"),
          (3, .webhook notification)] {} = [0] ∧
      (creations trusting "message" "0001-01-01T00:00:00Z"
        [(0, .webhook notification), (1, .webhook notification), (2, .completeEventSub "message"),
          (3, .webhook notification)] {}).length ≤ 1 :=
  ⟨rfl, replays_create_once trusting "message" "0001-01-01T00:00:00Z" {} (by decide)⟩

end Ferventio
