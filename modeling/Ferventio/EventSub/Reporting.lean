import Ferventio.Delivery.Capacity
import Ferventio.Server.World
import Ferventio.EventSub.Worker

/-!
# Successful work that is reported as a failure

`fmtDatabase` wraps whatever error it is given, also none. `SaveChannelState` and `ForgetEventSub`
of the PostgreSQL store call it without a check: their statements succeed and their callers get an
error. A worker that saves a channel's state therefore marks its message failed.

* **`successful_work_reported_iff`**: when such an attempt completes its message.
-/

namespace Ferventio

open Prog Strings List Postgres

variable {x : Choice} {event : EventPayload} {row : EventSubInboxRecord} {note : Notification}
  {reg : Registration} {subscriptionType messageID : String} {now : Time} {s : DeliveryDiskState}
  {ans result : Result Unit}

/-! ## The answers of the repository -/

/-- The error of a result. -/
def resultError {α : Type} : Result α → Option GoError
  | .ok _ => none
  | .error err => some err

namespace DeliveryOperation

/-- The error that a method returns. -/
def error : (op : DeliveryOperation) → op.Ans → Option GoError
  | call (.enqueue _), answer => resultError answer
  | call (.pendingForInstallation _ _ _), _ => none
  | call (.markSent _ _), answer => resultError answer
  | call (.markFailed _ _ _), answer => resultError answer
  | call (.ackThrough _ _ _), answer => resultError answer
  | call (.ack _ _ _), answer => resultError answer
  | call (.deleteForInstallation _), answer => resultError answer
  | call (.enqueueEventSub _ _ _), answer => resultError answer
  | call (.pendingEventSub _ _), _ => none
  | call (.completeEventSub _ _), answer => resultError answer
  | call (.markEventSubFailed _ _ _), answer => resultError answer
  | call (.retryEventSub _ _), answer => resultError answer
  | call (.channelStateChanges _ _ _), answer => resultError answer
  | call (.saveChannelState _ _ _ _), answer => resultError answer
  | call (.cleanup _), answer => resultError answer
  | listDeliveries _, _ => none
  | listEventSubInbox _, _ => none
  | hasSeenEventSub _ _ _, _ => none
  | seenEventSub _ _ _, answer => resultError answer
  | forgetEventSub _, answer => resultError answer
  | updateChannelState _ _ _ _, answer => resultError answer

end DeliveryOperation

namespace Postgres

/-- A write whose statement goes through and affects its row: an `UPDATE` or a `DELETE` finds it, an
`INSERT` stores it. -/
def affects (x : Choice) : DeliveryOperation → DeliveryDiskState → Bool
  | .call (.enqueue record), s =>
    let records := cleanupDeliveriesTx x.now s.records
    trimSpace record.id != "" && trimSpace record.eventID != "" &&
      trimSpace record.installationID != "" && records.count < maxDeliveryRecords &&
      (findDuplicate record records).isNone && (records.lookup record.id).isNone
  | .call (.markSent id _), s =>
    match s.records.lookup id with
    | none => false
    | some record => (retryInterval record.attemptCount).isSome
  | .call (.markFailed id _ _), s => (s.records.lookup id).isSome
  | .call (.ackThrough installationID eventID _), s => s.records.rows.any fun record =>
    record.installationID == installationID && record.eventID == eventID
  | .call (.ack installationID eventID _), s => s.records.rows.any fun record =>
    record.installationID == installationID && record.eventID == eventID
  | .call (.deleteForInstallation installationID), s =>
    s.records.rows.any (·.installationID == installationID)
  | .call (.enqueueEventSub messageID _ now), s =>
    trimSpace messageID != "" &&
      ((s.seen.select fun _ seenAt => !(seenAt < now - 24 * hour)).lookup
        (trimSpace messageID)).isNone &&
      (s.eventSubInbox.lookup (trimSpace messageID)).isNone
  | .call (.completeEventSub messageID _), s => (s.eventSubInbox.lookup messageID).isSome
  | .call (.markEventSubFailed messageID _ _), s => (s.eventSubInbox.lookup messageID).isSome
  | .call (.retryEventSub messageID _), s => (s.eventSubInbox.lookup messageID).isSome
  | .call (.saveChannelState channelID _ _ _), _ => trimSpace channelID != ""
  | .call (.cleanup _), _ => true
  | .seenEventSub messageID now ttl, s =>
    ((s.seen.select fun _ seenAt => !(seenAt < now - ttl)).lookup messageID).isNone
  | .forgetEventSub messageID, s => (s.seen.lookup messageID).isSome
  | .updateChannelState channelID _ _ _, _ => trimSpace channelID != ""
  | _, _ => false

/-- The methods that wrap an error without looking at it. -/
def wrapsNil : DeliveryOperation → Bool
  | .call (.saveChannelState _ _ _ _) => true
  | .forgetEventSub _ => true
  | _ => false

theorem enqueue_inserted {row : DeliveryRecord} (h : affects x (.call (.enqueue row)) s) :
    resultError (enqueue x.now row s).1 = none := by
  simp only [affects, Bool.and_eq_true, bne_iff_ne, decide_eq_true_eq,
    Option.isNone_iff_eq_none] at h
  obtain ⟨⟨⟨⟨⟨hid, heventID⟩, hinstallationID⟩, hroom⟩, hnew⟩, hfree⟩ := h
  have hids : ¬(trimSpace row.id = "" ∨ trimSpace row.eventID = "" ∨
      trimSpace row.installationID = "") := by
    simp only [hid, heventID, hinstallationID, or_self, not_false_eq_true]
  have hfind : ((cleanupDeliveriesTx x.now s.records).rows.find? fun existing =>
      existing.installationID == (deliveryDefaults x.now row).installationID &&
        existing.eventID == (deliveryDefaults x.now row).eventID) = none := hnew
  have hfree' : ¬((cleanupDeliveriesTx x.now s.records).lookup
      (deliveryDefaults x.now row).id).isSome := by
    rw [Option.not_isSome_iff_eq_none]
    exact hfree
  simp only [enqueue, if_neg hids, if_neg (Nat.not_le.mpr hroom), hfind, if_neg hfree']
  rfl

/-- **The methods.** A write whose statement affected its row answers nil, unless it wraps a nil
error. -/
theorem affected_write_answer_iff {op : DeliveryOperation} (h : affects x op s) :
    op.error (operate x op s).1 = none ↔ wrapsNil op = false := by
  cases op with
  | call c =>
    cases c with
    | enqueue => exact iff_of_true (enqueue_inserted h) rfl
    | markSent id sentAt =>
      refine iff_of_true ?_ rfl
      simp only [affects] at h
      split at h
      · cases h
      · rename_i row hrow
        obtain ⟨interval, hinterval⟩ := Option.isSome_iff_exists.mp h
        simp only [operate, answerDelivery, markSent, hrow, hinterval]
        rfl
    | markFailed =>
      obtain ⟨row, hrow⟩ := Option.isSome_iff_exists.mp h
      simp only [operate, answerDelivery, markFailed, rewriteRecord, hrow]
      exact iff_of_true rfl rfl
    | ackThrough iid eid ackedAt =>
      refine iff_of_true ?_ rfl
      simp only [operate, answerDelivery, ackThrough]
      split
      · rename_i hnone
        simp only [affects, any_eq_true] at h
        obtain ⟨row, hmem, hmatch⟩ := h
        exact absurd hmatch (List.find?_eq_none.mp hnone row hmem)
      · rfl
    | ack =>
      simp only [affects] at h
      simp only [operate, answerDelivery, ack, Memory.ack, if_pos h]
      exact iff_of_true rfl rfl
    | deleteForInstallation => exact iff_of_true rfl rfl
    | enqueueEventSub =>
      simp only [affects, Bool.and_eq_true, bne_iff_ne, Option.isNone_iff_eq_none] at h
      obtain ⟨⟨hid, hunseen⟩, hnew⟩ := h
      simp only [operate, answerDelivery, enqueueEventSub, if_neg hid, hunseen, hnew]
      exact iff_of_true rfl rfl
    | completeEventSub messageID =>
      have hfound : ¬((s.eventSubInbox.lookup messageID).isNone ∧
          (s.seen.lookup messageID).isNone) := by
        rintro ⟨hnone, -⟩
        rw [Option.isNone_iff_eq_none] at hnone
        rw [affects, hnone] at h
        cases h
      simp only [operate, answerDelivery, completeEventSub, if_neg hfound]
      exact iff_of_true rfl rfl
    | markEventSubFailed =>
      obtain ⟨row, hrow⟩ := Option.isSome_iff_exists.mp h
      simp only [operate, answerDelivery, markEventSubFailed, rewriteMessage, hrow]
      exact iff_of_true rfl rfl
    | retryEventSub =>
      obtain ⟨row, hrow⟩ := Option.isSome_iff_exists.mp h
      simp only [operate, answerDelivery, retryEventSub, rewriteMessage, hrow]
      exact iff_of_true rfl rfl
    | saveChannelState channelID =>
      have hid : trimSpace channelID ≠ "" := bne_iff_ne.mp h
      simp only [operate, answerDelivery, saveChannelState, if_neg hid]
      exact iff_of_false (by rintro ⟨⟩) (by simp [wrapsNil])
    | cleanup => exact iff_of_true rfl rfl
    | pendingForInstallation => cases h
    | pendingEventSub => cases h
    | channelStateChanges => cases h
  | seenEventSub =>
    simp only [operate, seenEventSub]
    split <;> exact iff_of_true rfl rfl
  | forgetEventSub => exact iff_of_false (by rintro ⟨⟩) (by simp [wrapsNil])
  | updateChannelState channelID =>
    have hid : trimSpace channelID ≠ "" := bne_iff_ne.mp h
    simp only [operate, updateChannelState, if_neg hid]
    exact iff_of_true rfl rfl
  | _ => cases h

end Postgres

/-! ## An attempt on a channel update -/

/-- A delivery could not be queued. -/
def deliveryFailed : Sigma Call.Ans → Bool
  | ⟨.env (.randomToken _ _), .error _⟩ => true
  | ⟨.delivery (.enqueue _), .error _⟩ => true
  | _ => false

/-- No delivery failed. -/
def AllEnqueued (tr : Trace) : Prop := ∀ e ∈ tr, deliveryFailed e = false

/-- The channel is stored as announced. -/
def ChannelUnchanged (envelope : EventSubEnvelope) (s : DeliveryDiskState) : Prop :=
  ∃ state, s.channelStates.lookup (stringValue envelope.event "broadcaster_user_id") = some state ∧
    state.title = stringValue envelope.event "title" ∧
    state.categoryName = stringValue envelope.event "category_name"

section Routing

variable {exec' : (call : Call) → Choice → World → Option (call.Ans × World)} {w w' : World}
  {tr : Trace} {env : Env}

theorem enqueueAndFlush_ok (hrun : Runs exec' (enqueueAndFlush now reg note) w tr result w')
    (htr : AllEnqueued tr) : result = .ok () := by
  obtain ⟨x, token, w1, tr1, -, rfl, hrest⟩ := hrun.of_perform
  cases token with
  | error => cases htr _ mem_cons_self
  | ok =>
    obtain ⟨x, ans, w2, tr2, -, rfl, hrest2⟩ := hrest.of_perform
    cases ans with
    | error => cases htr _ (mem_cons_of_mem _ mem_cons_self)
    | ok =>
      obtain ⟨tr3, tr4, u, w3, -, -, hret⟩ := hrest2.of_bind
      exact hret.of_ret.2.1

theorem deliverToRegistration_ok (hrun : Runs exec' (deliverToRegistration reg note) w tr result w')
    (htr : AllEnqueued tr) : result = .ok () := by
  obtain ⟨x, now, w1, tr1, -, rfl, hrest⟩ := hrun.of_perform
  obtain ⟨-, htr1⟩ := forall_mem_cons.mp htr
  split at hrest
  · obtain ⟨x, token, w2, tr2, -, rfl, hrest2⟩ := hrest.of_perform
    obtain ⟨htoken, htr2⟩ := forall_mem_cons.mp htr1
    cases token with
    | error => cases htoken
    | ok => exact enqueueAndFlush_ok hrest2 htr2
  · exact enqueueAndFlush_ok hrest htr1

theorem routeToEach_ok
    {regs : List Registration} {errs : List GoError}
    (hrun : Runs exec' (routeToEach env messageID subscriptionType event regs) w tr
      errs w') (htr : AllEnqueued tr) : errs = [] := by
  induction regs generalizing w tr errs with
  | nil => exact hrun.of_ret.2.1
  | cons reg regs ih =>
    obtain ⟨x, now, w1, tr1, -, rfl, hrest⟩ := hrun.of_perform
    obtain ⟨-, htr1⟩ := forall_mem_cons.mp htr
    split at hrest
    · exact ih hrest htr1
    · obtain ⟨tr2, tr3, result, w2, rfl, hdeliver, hrest2⟩ := hrest.of_bind
      obtain ⟨htr2, htr3⟩ := forall_mem_append.mp htr1
      obtain rfl := deliverToRegistration_ok hdeliver htr2
      exact ih hrest2 htr3

theorem routeToAll_ok
    (hrun : Runs exec' (routeToAll env messageID subscriptionType event) w tr result w')
    (htr : AllEnqueued tr) : result = .ok () := by
  obtain ⟨x, regs, w1, tr1, -, rfl, hrest⟩ := hrun.of_perform
  obtain ⟨-, htr1⟩ := forall_mem_cons.mp htr
  obtain ⟨tr2, tr3, errs, w2, rfl, heach, hret⟩ := hrest.of_bind
  obtain ⟨htr2, -⟩ := forall_mem_append.mp htr1
  obtain rfl := routeToEach_ok heach htr2
  exact hret.of_ret.2.1

end Routing

/-! ## The channel's state -/

section ChannelState

variable {env : Env} {x : Choice} {w w' : World} {channelID title category : String}
  {messageID : String} {envelope : EventSubEnvelope} {tr : Trace}

/-- What the comparison answers, in either store. -/
def stateChanges (title category : String) : Option ChannelNotificationState → ChannelChanges
  | none => { initialized := true }
  | some previous =>
    { titleChanged := previous.title != title, gameChanged := previous.categoryName != category }

theorem execStored_answered {call : DeliveryCall} {ans : call.Ans}
    (h : execStored env (.delivery call) x w = some (ans, w')) :
    (ans, w'.deliveries) = (match env.backend with
      | .memory => Memory.execDelivery x call w.deliveries
      | .postgres => answerDelivery x call w.deliveries) := by
  obtain ⟨hfault, rfl, rfl⟩ := execStored_delivery h
  cases hb : env.backend with
  | memory =>
    rw [execDelivery, hb]
  | postgres =>
    rw [execDelivery_answered hb hfault]

theorem execStored_channelStateChanges {ans : Result ChannelChanges}
    (hcid : trimSpace channelID ≠ "")
    (h : execStored env (.delivery (.channelStateChanges channelID title category)) x w =
      some (ans, w')) :
    ans = .ok (stateChanges title category (w.deliveries.channelStates.lookup channelID)) := by
  have hne : channelID ≠ "" := by
    rintro rfl
    exact hcid trimSpace_empty
  have hans := congrArg Prod.fst (execStored_answered h)
  cases hb : env.backend with
  | memory =>
    rw [hb] at hans
    simp only [Memory.execDelivery, Memory.channelStateChanges, if_neg hne] at hans
    rw [hans, comparedState]
    cases w.deliveries.channelStates.lookup channelID <;> rfl
  | postgres =>
    rw [hb] at hans
    simp only [answerDelivery, channelStateChanges, if_neg hcid] at hans
    rw [hans, comparedState]
    cases w.deliveries.channelStates.lookup channelID <;> rfl

theorem execStored_saveChannelState (hcid : trimSpace channelID ≠ "")
    (h : execStored env (.delivery (.saveChannelState channelID title category now)) x w =
      some (ans, w')) :
    ans = .ok () ↔ env.backend = .memory := by
  have hne : channelID ≠ "" := by
    rintro rfl
    exact hcid trimSpace_empty
  have hans := congrArg Prod.fst (execStored_answered h)
  cases hb : env.backend with
  | memory =>
    rw [hb] at hans
    simp only [Memory.execDelivery, Memory.saveChannelState, if_neg hne] at hans
    exact iff_of_true hans rfl
  | postgres =>
    rw [hb] at hans
    simp only [answerDelivery, saveChannelState, if_neg hcid] at hans
    rw [hans]
    exact iff_of_false (by rintro ⟨⟩) (by rintro ⟨⟩)

theorem stateChanges_unchanged_iff {changes : ChannelChanges}
    (h : changes = stateChanges (stringValue envelope.event "title")
      (stringValue envelope.event "category_name")
      (s.channelStates.lookup (stringValue envelope.event "broadcaster_user_id"))) :
    (changes.initialized = false ∧ changes.titleChanged = false ∧ changes.gameChanged = false) ↔
      ChannelUnchanged envelope s := by
  rw [h, ChannelUnchanged]
  cases s.channelStates.lookup (stringValue envelope.event "broadcaster_user_id") with
  | none => simp [stateChanges]
  | some => simp [stateChanges]

theorem saving_ok_iff {wrap : GoError → GoError} (hcid : trimSpace channelID ≠ "")
    (hrun : Runs (execStored env) (do
      let now ← host .now
      match ← deliveries (.saveChannelState channelID title category now) with
      | .error err => pure (.error (wrap err))
      | .ok () => pure (.ok ())) w tr result w') :
    result = .ok () ↔ env.backend = .memory := by
  obtain ⟨x, now, w1, tr1, -, -, hrest⟩ := hrun.of_perform
  obtain ⟨x, ans, w2, tr2, hsave, -, hrest2⟩ := hrest.of_perform
  rw [← execStored_saveChannelState hcid hsave]
  cases ans with
  | error =>
    rw [hrest2.of_ret.2.1]
    exact iff_of_false nofun nofun
  | ok => exact iff_of_true hrest2.of_ret.2.1 rfl

theorem processChannelUpdate_ok_iff (hcid : stringValue envelope.event "broadcaster_user_id" ≠ "")
    (hrun : Runs (execStored env) (processChannelUpdate env messageID envelope
      (stringValue envelope.event "broadcaster_user_id")) w tr result w') (htr : AllEnqueued tr) :
    result = .ok () ↔ env.backend = .memory ∨ ChannelUnchanged envelope w.deliveries := by
  have htrim : trimSpace (stringValue envelope.event "broadcaster_user_id") ≠ "" := by
    rwa [trimSpace_stringValue]
  obtain ⟨x, ans, w1, tr1, hchg, rfl, hrest⟩ := hrun.of_perform
  obtain ⟨-, htr1⟩ := forall_mem_cons.mp htr
  obtain rfl := execStored_channelStateChanges htrim hchg
  generalize hdef : stateChanges _ _ _ = changes at hrest
  rw [← stateChanges_unchanged_iff hdef.symm]
  dsimp only at hrest
  split at hrest
  · rename_i hinit
    rw [saving_ok_iff htrim hrest, hinit]
    simp
  · split at hrest
    · rename_i hinit hsame
      simp only [Bool.and_eq_true, Bool.not_eq_true'] at hsame
      rw [Bool.not_eq_true] at hinit
      exact iff_of_true hrest.of_ret.2.1 (.inr ⟨hinit, hsame⟩)
    · rename_i hchanged
      obtain ⟨tr2, tr3, routed, w2, rfl, hroute, hrest2⟩ := hrest.of_bind
      obtain ⟨htr2, -⟩ := forall_mem_append.mp htr1
      obtain rfl := routeToAll_ok hroute htr2
      rw [saving_ok_iff htrim hrest2]
      simp only [Bool.and_eq_true, Bool.not_eq_true'] at hchanged
      constructor
      · exact .inl
      · rintro (hb | ⟨-, hsame⟩)
        · exact hb
        · exact absurd hsame hchanged

/-! ## The whole attempt -/

theorem execStored_deliveries {call : EnvCall} {a : call.Ans}
    (h : execStored env (.env call) x w = some (a, w')) : w'.deliveries = w.deliveries :=
  exec_deliveries (exec_of_execStored h).2

theorem execStored_inbox {T : Time → Prop} {call : Call} {a : call.Ans}
    (hb : env.backend = .postgres) (hcall : RoutingCall T call)
    (h : execStored env call x w = some (a, w')) :
    w'.deliveries.eventSubInbox = w.deliveries.eventSubInbox := by
  cases call with
  | delivery call =>
    have hstate := congrArg Prod.snd (execStored_answered h)
    rw [hb] at hstate
    dsimp only at hstate
    rw [hstate]
    have hframe := answerDelivery_framed x call w.deliveries
    cases call with
    | enqueue row => exact (enqueue_inbox x.now row w.deliveries).1
    | markSent => exact hframe.inbox rfl
    | markFailed => exact hframe.inbox rfl
    | ack => exact hframe.inbox rfl
    | saveChannelState => exact hframe.inbox rfl
    | pendingForInstallation => rfl
    | channelStateChanges => rfl
    | _ => exact hcall.elim
  | _ =>
    rw [exec_deliveries (exec_of_execStored h).2]
    rfl

theorem execStored_completeEventSub {completedAt : Time}
    (h : execStored env (.delivery (.completeEventSub messageID completedAt)) x w =
      some (ans, w')) : w'.deliveries.eventSubInbox.lookup messageID = none := by
  have hstate := congrArg Prod.snd (execStored_answered h)
  cases hb : env.backend with
  | memory =>
    rw [hb] at hstate
    dsimp only at hstate
    rw [hstate]
    simp only [Memory.execDelivery, Memory.completeEventSub]
    split
    · rename_i hnone
      split_ifs <;> exact hnone
    · rw [Table.lookup_erase_eq, if_pos rfl]
  | postgres =>
    rw [hb] at hstate
    dsimp only at hstate
    rw [hstate]
    simp only [answerDelivery, completeEventSub]
    split_ifs with hnone
    · exact Option.isNone_iff_eq_none.mp hnone.1
    · rw [Table.lookup_erase_eq, if_pos rfl]

theorem execStored_markEventSubFailed {failure : GoError} {failedAt : Time}
    (hb : env.backend = .postgres) (hrow : w.deliveries.eventSubInbox.lookup messageID = some row)
    (h : execStored env (.delivery (.markEventSubFailed messageID failure failedAt)) x w =
      some (ans, w')) :
    ∃ r, w'.deliveries.eventSubInbox.lookup messageID = some r ∧
      r.attemptCount = row.attemptCount + 1 := by
  have hstate := congrArg Prod.snd (execStored_answered h)
  rw [hb] at hstate
  simp only [answerDelivery, markEventSubFailed, rewriteMessage, hrow] at hstate
  rw [hstate]
  exact ⟨_, by rw [Table.lookup_insert_eq, if_pos rfl], rfl⟩

theorem attempt_outcome {P : Prop} (hrow : w.deliveries.eventSubInbox.lookup messageID = some row)
    (hok : ∀ {tr' result w1}, Runs (execStored env)
      (processEventSubNotification env messageID envelope) w tr' result w1 → tr' ⊆ tr →
        (result = .ok () ↔ env.backend = .memory ∨ P))
    (hrun : Runs (execStored env) (handleQueuedEventSub env messageID envelope) w tr () w') :
    (w'.deliveries.eventSubInbox.lookup messageID = none ↔ env.backend = .memory ∨ P) ∧
      (¬(env.backend = .memory ∨ P) → ∃ r, w'.deliveries.eventSubInbox.lookup messageID = some r ∧
        r.attemptCount = row.attemptCount + 1) := by
  obtain ⟨tr1, tr2, result, w1, rfl, hproc, hrest⟩ := hrun.of_bind
  have hres := hok hproc (subset_append_left tr1 tr2)
  obtain ⟨x1, u, w2, tr3, hrel, rfl, hrest2⟩ := hrest.of_perform
  obtain ⟨x2, now, w3, tr4, hnow, rfl, hrest3⟩ := hrest2.of_perform
  cases result with
  | ok =>
    obtain ⟨x3, ans, w4, tr5, hcomp, rfl, hret⟩ := hrest3.of_perform
    obtain ⟨-, -, rfl⟩ := hret.of_ret
    have hdone := hres.mp rfl
    exact ⟨iff_of_true (execStored_completeEventSub hcomp) hdone, fun hnot => absurd hdone hnot⟩
  | error =>
    obtain ⟨x3, ans, w4, tr5, hfail, rfl, hret⟩ := hrest3.of_perform
    obtain ⟨-, -, rfl⟩ := hret.of_ret
    have hnot : ¬(env.backend = .memory ∨ P) := fun h => nomatch hres.mpr h
    have hb : env.backend = .postgres := by
      cases hb : env.backend with
      | memory => exact absurd (.inl hb) hnot
      | postgres => rfl
    -- the row is as it was when the attempt began
    have hkept : w1.deliveries.eventSubInbox = w.deliveries.eventSubInbox := by
      refine (hproc.only (I := fun w1 => w1.deliveries.eventSubInbox =
        w.deliveries.eventSubInbox) (processEventSubNotification_routes (T := fun _ => True)
          messageID envelope) ?_ rfl).2
      intro call x w1 a w2 hI hcall hexec
      refine ⟨?_, (execStored_inbox hb hcall hexec).trans hI⟩
      unfold ReadIn
      split <;> trivial
    have hrow3 : w3.deliveries.eventSubInbox.lookup messageID = some row := by
      rw [execStored_deliveries hnow, execStored_deliveries hrel]
      exact hkept ▸ hrow
    obtain ⟨r, hr, hcount⟩ := execStored_markEventSubFailed hb hrow3 hfail
    refine ⟨iff_of_false (fun hnone => ?_) hnot, fun _ => ⟨r, hr, hcount⟩⟩
    rw [hr] at hnone
    cases hnone

/-- **Successful work is reported as success** in memory. On PostgreSQL, when nothing fails, an
attempt on a channel update completes its message exactly when there was nothing to save; and of the
writes that affected their row, exactly those answer nil that look at the error they wrap. -/
theorem successful_work_reported_iff (env : Env) :
    (∀ (messageID : String) (envelope : EventSubEnvelope) (w w' : World)
        (tr : Trace) (record : EventSubInboxRecord),
      envelope.subscription.type = "channel.update" →
      stringValue envelope.event "broadcaster_user_id" ≠ "" →
      w.deliveries.eventSubInbox.lookup messageID = some record →
      Runs (execStored env) (handleQueuedEventSub env messageID envelope) w tr () w' →
      AllEnqueued tr →
      (w'.deliveries.eventSubInbox.lookup messageID = none ↔
        env.backend = .memory ∨ ChannelUnchanged envelope w.deliveries) ∧
      (¬(env.backend = .memory ∨ ChannelUnchanged envelope w.deliveries) →
        ∃ r, w'.deliveries.eventSubInbox.lookup messageID = some r ∧
          r.attemptCount = record.attemptCount + 1)) ∧
    ∀ (x : Choice) (op : DeliveryOperation) (s : DeliveryDiskState),
      affects x op s → (op.error (operate x op s).1 = none ↔ wrapsNil op = false) := by
  refine ⟨?_, fun x op s h => affected_write_answer_iff h⟩
  intro messageID envelope w w' tr record htype hchan hrec hrun htr
  refine attempt_outcome hrec (fun {tr'} {result} {w1} hproc hsub => ?_) hrun
  rw [processEventSubNotification, if_pos htype] at hproc
  obtain ⟨x, u, w2, tr2, hlock, rfl, hrest⟩ := hproc.of_perform
  obtain ⟨tr3, tr4, result', w3, rfl, hupdate, hrest2⟩ := hrest.of_bind
  obtain ⟨x, u, w4, tr5, -, rfl, hret⟩ := hrest2.of_perform
  obtain ⟨-, rfl, -⟩ := hret.of_ret
  have hupd := processChannelUpdate_ok_iff hchan hupdate fun e he => htr e (hsub
    (mem_cons_of_mem _ (mem_append_left _ he)))
  rwa [execStored_deliveries hlock] at hupd

end ChannelState

/-- A new title. -/
def titleEnvelope : EventSubEnvelope :=
  { subscription := { type := "channel.update" }
    event := [("broadcaster_user_id", .str "1"), ("title", .str "Opening night"),
      ("category_name", .str "Chess")] }

/-- The message about it. -/
def titleQueued (states : Table String ChannelNotificationState) : World :=
  { deliveries :=
      { eventSubInbox := AList.insert "message"
          { messageID := "message", envelope := titleEnvelope, status := .pending,
            availableAt := unixEpoch, expiresAt := unixEpoch + 24 * hour,
            receivedAt := unixEpoch } ∅
        channelStates := states } }

/-- An attempt on it. -/
def titleAttempt (backend : Backend) (states : Table String ChannelNotificationState) :
    Option (Trace × Unit × World) :=
  Prog.eval (execStored (.sample backend))
    (handleQueuedEventSub (.sample backend) "message" titleEnvelope)
    (List.replicate 8 { now := unixEpoch + hour }) (titleQueued states)

/-- The title is stored already, and PostgreSQL completes the message. -/
theorem known_title_completes : ∃ tr w', Runs (execStored .pg)
      (handleQueuedEventSub .pg "message" titleEnvelope)
      (titleQueued (AList.insert "1" ⟨"Opening night", "Chess", unixEpoch⟩ ∅)) tr () w' ∧
    w'.deliveries.eventSubInbox.lookup "message" = none := by
  have heval : (titleAttempt .postgres (AList.insert "1" ⟨"Opening night", "Chess", unixEpoch⟩
      ∅)).map (fun r => r.1.all fun e => !deliveryFailed e) = some true := by
    decide
  obtain ⟨⟨tr, ⟨⟩, w'⟩, heval, htr⟩ := Option.map_eq_some_iff.mp heval
  have hrun := eval_runs heval
  refine ⟨tr, w', hrun, ?_⟩
  refine ((successful_work_reported_iff _).1 _ _ _ _ _ _ rfl (by decide) rfl hrun ?_).1.mpr ?_
  · intro e he
    have hanswered := all_eq_true.mp htr e he
    rwa [Bool.not_eq_true'] at hanswered
  · exact .inr ⟨_, rfl, rfl, rfl⟩

/-- PostgreSQL stores the first title of a channel and counts a failed attempt; the memory store
completes the message. `ForgetEventSub` fails in the same way. -/
theorem first_title_counts_as_failure :
    (titleAttempt .postgres ∅).map (fun r =>
        (r.1.all fun e => !deliveryFailed e,
          (r.2.2.deliveries.channelStates.lookup "1").map (·.title),
          (r.2.2.deliveries.eventSubInbox.lookup "message").map (·.attemptCount))) =
      some (true, some "Opening night", some 1) ∧
    (titleAttempt .memory ∅).map (fun r =>
        (r.1.all fun e => !deliveryFailed e,
          (r.2.2.deliveries.channelStates.lookup "1").map (·.title),
          (r.2.2.deliveries.eventSubInbox.lookup "message").map (·.attemptCount))) =
      some (true, some "Opening night", none) ∧
    affects {} (.forgetEventSub "message")
      { seen := AList.insert "message" unixEpoch ∅ } = true ∧
    (forgetEventSub "message" { seen := AList.insert "message" unixEpoch ∅ }).1 =
      .error (.plain "forget EventSub message: %!w(<nil>)") := by
  decide

end Ferventio
