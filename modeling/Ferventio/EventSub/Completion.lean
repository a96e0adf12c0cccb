import Ferventio.Delivery.Tables
import Ferventio.Registration.Laws
import Ferventio.Server.Tasks

/-!
# A completed event was routed

On PostgreSQL, where any call may fail. The worker attempts a message until an attempt completes it
(`Retries`). An attempt on a channel update routes the event only when it differs from the stored
state of the channel, and saves the state although the save is answered by an error; the attempt
that completes the message has nothing to route then. What was routed is therefore asked of the
latest attempt that had something to route (`latest`). Old records are deleted after `retention`, so
the attempts are taken within that time after the first record of the message.

* **`routeToEach_records`**: a loop without errors leaves a record for every registration that was
  notified.
* **`completed_event_was_routed_iff`**: it was, exactly when the listings are answered.
-/

namespace Ferventio

open Prog List Postgres

variable {r row : DeliveryRecord} {times : List Time} {reg : Registration} {answered : Bool}
  {result : Result Unit} {tr : Trace} {x : Choice} {mid subscriptionType cid : String}
  {done : List String} {w' w : World} {start now : Time} {env : Env} {call : Call}
  {regs : List Registration} {α : Type}

/-- A listing of the registrations does not fail. -/
def listingAnswered (call : Call) (x : Choice) : Bool :=
  match call with
  | .registration .list => x.fault.isNone
  | _ => true

/-- The calls within the retention time after `start`; with `answered`, listings are answered. -/
def execAttempt (env : Env) (answered : Bool) (start : Time) (call : Call) (x : Choice)
    (w : World) : Option (call.Ans × World) :=
  if (start ≤ x.now ∧ x.now ≤ start + retention) ∧
      (answered → listingAnswered call x) then exec env call x w
  else none

/-- The record is not older than `start`. -/
def Recent (start : Time) (r : DeliveryRecord) : Prop :=
  start ≤ r.createdAt ∧ (r.ackedAt ≠ 0 → start ≤ r.ackedAt)

/-- The installation has a delivery record of the message. -/
def Recorded (w : World) (iid mid : String) : Prop :=
  ∃ id r, w.deliveries.records.lookup id = some r ∧ r.installationID = iid ∧ r.eventID = mid

/-- **Between the calls** the records of the message are recent, and each installation in `done` has
one. -/
structure Attempt (start : Time) (mid : String) (done : List String) (w : World) : Prop where
  recent : ∀ id r, w.deliveries.records.lookup id = some r → r.eventID = mid →
    Recent start r
  recorded : ∀ iid ∈ done, Recorded w iid mid

/-- The call deletes no record from `start` on, and dates none before. -/
def Timely (start : Time) : Call → Prop
  | .delivery (.enqueue r) => r.createdAt = 0 ∨ start ≤ r.createdAt
  | .delivery (.ack _ _ ackedAt) => start ≤ ackedAt
  | .delivery (.ackThrough _ _ ackedAt) => start ≤ ackedAt
  | .delivery (.deleteForInstallation _) => False
  | .delivery (.cleanup now) => now ≤ start + retention
  | _ => True

/-- The clock is read from `start` on. -/
def ReadFrom (start : Time) : (call : Call) → call.Ans → Prop
  | .env .now, t => start ≤ t
  | _, _ => True

/-! ## One call -/

section Step

theorem exec_of_execAttempt {a : call.Ans}
    (h : execAttempt env answered start call x w = some (a, w')) :
    (start ≤ x.now ∧ x.now ≤ start + retention) ∧ exec env call x w = some (a, w') := by
  unfold execAttempt at h
  split_ifs at h with hcond
  exact ⟨hcond.1, h⟩

theorem Recent.not_stale (h : Recent start r) (hnow : now ≤ start + retention) :
    staleDelivery now (expireDelivery now r) = false := by
  have hold : ∀ t, start ≤ t → ¬t < now - retention := by
    intro t ht
    have hsum : now ≤ t + retention := Int.le_trans hnow (Int.add_le_add_right ht retention)
    exact Int.not_lt.mpr (Int.sub_right_le_of_le_add hsum)
  have hnew : ¬r.createdAt < now - retention := hold _ h.1
  have hacked : r.ackedAt ≠ 0 → ¬r.ackedAt < now - retention := fun hne => hold _ (h.2 hne)
  unfold expireDelivery
  split_ifs
  · simp [staleDelivery, hnew]
  · simp only [staleDelivery, hnew, decide_false, Bool.and_false, Bool.or_false]
    by_cases hne : r.ackedAt = 0
    · simp [hne]
    · simp [hacked hne]

theorem Recent.touch {s : DeliveryDiskState} {call : DeliveryCall} {id : String}
    {r' : DeliveryRecord} (h : Recent start r) (hcall : Timely start (.delivery call))
    (htouch : Touch s call id r r') : Recent start r' := by
  cases htouch with
  | ack => exact ⟨h.1, fun _ => hcall⟩
  | ackThrough => exact ⟨h.1, fun _ => hcall⟩
  | _ => exact h

theorem storedRow_recent (hb : env.backend = .postgres)
    (hnow : start ≤ x.now) (hcall : Timely start (.delivery (.enqueue row))) :
    Recent start (storedRow env x.now row) := by
  simp only [storedRow, hb]
  refine ⟨?_, fun hne => absurd rfl hne⟩
  simp only [deliveryRow, deliveryDefaults]
  split_ifs with hzero
  · exact hnow
  · exact hcall.resolve_left hzero

theorem attempt_delivery {call : DeliveryCall} (hb : env.backend = .postgres)
    (h : Attempt start mid done w) (hcall : Timely start (.delivery call))
    (hstart : start ≤ x.now) (hnow : x.now ≤ start + retention)
    (hw' : w'.deliveries = (execDelivery env x call w.deliveries).2) :
    Attempt start mid done w' := by
  have hdelete : ∀ iid, call ≠ .deleteForInstallation iid := by
    rintro iid rfl
    exact hcall
  have hcleanup : ∀ now, now = x.now ∨ call = .cleanup now → now ≤ start + retention := by
    rintro now (rfl | rfl)
    · exact hnow
    · exact hcall
  have hstate : w'.deliveries = w.deliveries ∨
      w'.deliveries = (answerDelivery x call w.deliveries).2 := by
    rw [hw']
    simp only [execDelivery, hb]
    exact withFault_snd x _ _ _
  constructor
  · intro id r hr heventID
    rw [hw'] at hr
    rcases execDelivery_touch hr with ⟨r0, hr0, htouch⟩ | ⟨row, rfl, -, rfl, -⟩
    · exact (h.recent id r0 hr0 (htouch.eventID_eq ▸ heventID)).touch hcall htouch
    · exact storedRow_recent hb hstart hcall
  · intro iid hmem
    obtain ⟨id, r, hr, hiid, heventID⟩ := h.recorded iid hmem
    rcases hstate with hstate | hstate
    · exact ⟨id, r, by rw [hstate]; exact hr, hiid, heventID⟩
    · obtain ⟨r', hr', hsame⟩ := answerDelivery_keeps hr hdelete fun now hnow =>
        (h.recent id r hr heventID).not_stale (hcleanup now hnow)
      exact ⟨id, r', by rw [hstate]; exact hr', hsame.1.trans hiid, hsame.2.trans heventID⟩

theorem Attempt.congr (h : Attempt start mid done w) (hw' : w'.deliveries = w.deliveries) :
    Attempt start mid done w' := by
  constructor
  · rw [hw']
    exact h.recent
  · intro iid hmem
    rw [Recorded, hw']
    exact h.recorded iid hmem

theorem attempt_step {a : call.Ans} (hb : env.backend = .postgres)
    (h : Attempt start mid done w) (hexec : execAttempt env answered start call x w = some (a, w'))
    (hcall : Timely start call) : ReadFrom start call a ∧ Attempt start mid done w' := by
  obtain ⟨hwin, hexec⟩ := exec_of_execAttempt hexec
  have hdels := exec_deliveries hexec
  constructor
  · unfold ReadFrom
    split
    · cases hexec
      exact hwin.1
    · trivial
  · cases call with
    | delivery => exact attempt_delivery hb h hcall hwin.1 hwin.2 hdels
    | _ => exact h.congr hdels

end Step

/-! ## The code of an attempt -/

section Code

/-- Timely calls, while the clock is read from `start` on. -/
def Prompt (start : Time) {α : Type} (p : Handler α) : Prop :=
  p.Only (Timely start) (ReadFrom start)

theorem prompt_of_routes {p : Handler α} (h : Routes (start ≤ ·) p) : Prompt start p := by
  refine Prog.Only.imp (fun call hcall => ?_) (fun call ans hread => ?_) h
  · cases call with
    | delivery call =>
      cases call with
      | enqueue => exact .inr hcall
      | _ => first | exact hcall | trivial
    | _ => trivial
  · unfold ReadIn
    split
    · exact hread
    · trivial

end Code

/-! ## Routing leaves records -/

section Routing

theorem attempt_run {p : Handler α} {a : α} (hb : env.backend = .postgres)
    (hp : Prompt start p) (hrun : Runs (execAttempt env answered start) p w tr a w')
    (h : Attempt start mid done w) : Attempt start mid done w' :=
  (hrun.only hp (fun _ _ _ _ _ hI hcall hexec => attempt_step hb hI hexec hcall) h).2

theorem attempt_enqueue {ans : DeliveryRecord × Bool} (hb : env.backend = .postgres)
    (hmid : row.eventID = mid) (hcall : Timely start (.delivery (.enqueue row)))
    (hexec : execAttempt env answered start (.delivery (.enqueue row)) x w = some (.ok ans, w'))
    (h : Attempt start mid done w) :
    Attempt start mid (row.installationID :: done) w' := by
  obtain ⟨-, h'⟩ := attempt_step hb h hexec hcall
  refine ⟨h'.recent, ?_⟩
  intro iid hmem
  rcases mem_cons.mp hmem with rfl | hmem
  · replace hexec := (exec_of_execAttempt hexec).2
    simp only [exec, execDelivery, hb, Option.some.injEq, Prod.mk.injEq] at hexec
    obtain ⟨hans, rfl⟩ := hexec
    rcases withFault_fst x (failedDelivery (.enqueue row)) w.deliveries
      (answerDelivery x (.enqueue row) w.deliveries) with hf | hf
    · rw [Postgres.execDelivery, hf] at hans
      cases hans
    · rw [Postgres.execDelivery, hf] at hans
      obtain ⟨id, r, hr, hsame⟩ := enqueue_ok hans
      refine ⟨id, r, ?_, hsame.1, hsame.2.trans hmid⟩
      simp only [Postgres.execDelivery, hf]
      exact hr
  · exact h'.recorded iid hmem

theorem deliver_records {note : Notification} (hb : env.backend = .postgres) (hmid : mid ≠ "")
    (hnote : note.eventID = mid)
    (hrun : Runs (execAttempt env answered start) (deliverToRegistration reg note)
      w tr (.ok ()) w') (h : Attempt start mid done w) :
    Attempt start mid (reg.installationID :: done) w' := by
  obtain ⟨x, now, w1, tr1, hnow, -, hrest⟩ := hrun.of_perform
  obtain ⟨hread, h1⟩ := attempt_step hb h hnow trivial
  rw [if_neg (hnote ▸ hmid)] at hrest
  obtain ⟨x, token, w2, tr2, htoken, -, hrest⟩ := hrest.of_perform
  obtain ⟨-, h2⟩ := attempt_step hb h1 htoken trivial
  cases token with
  | error => cases hrest.of_ret.2.1
  | ok =>
    obtain ⟨x, ans, w3, tr3, henqueue, -, hrest⟩ := hrest.of_perform
    cases ans with
    | error => cases hrest.of_ret.2.1
    | ok =>
      have h3 := attempt_enqueue hb hnote (.inr hread) henqueue h2
      obtain ⟨tr4, tr5, u, w4, -, hflush, hrest⟩ := hrest.of_bind
      obtain ⟨-, -, rfl⟩ := hrest.of_ret
      exact attempt_run hb (prompt_of_routes (flushPending_routes _)) hflush h3

/-- The time that was read. -/
def clockReading : Sigma Call.Ans → Option Time
  | ⟨.env .now, t⟩ => some t
  | _ => none

/-- Every registration that is to be notified, when it is considered, is in `done`. -/
def Covered (env : Env) (mid subscriptionType : String) (event : EventPayload)
    (registrations : List Registration) (times : List Time) (done : List String) : Prop :=
  times.length = registrations.length ∧
    ∀ p ∈ registrations.zip times,
      (eventNotificationForRegistration env p.2 mid subscriptionType event p.1).isSome =
        true → p.1.installationID ∈ done

theorem Covered.cons {event : EventPayload}
    (h : Covered env mid subscriptionType event regs times done)
    (hfirst : (eventNotificationForRegistration env now mid subscriptionType event
      reg).isSome → reg.installationID ∈ done) :
    Covered env mid subscriptionType event (reg :: regs) (now :: times)
      done := by
  refine ⟨by rw [length_cons, length_cons, h.1], fun p hp => ?_⟩
  rw [zip_cons_cons] at hp
  rcases mem_cons.mp hp with rfl | hp
  · exact hfirst
  · exact h.2 p hp

theorem sublist_clockReading_cons (tr1 : Trace)
    {tr2 : Trace} (h : times.Sublist (tr2.filterMap clockReading)) :
    (now :: times).Sublist (List.filterMap clockReading (⟨.env .now, now⟩ :: (tr1 ++ tr2))) := by
  simp only [filterMap_cons, clockReading, filterMap_append]
  exact (h.trans (sublist_append_right _ _)).cons_cons now

theorem routeToEach_records {event : EventPayload} (hb : env.backend = .postgres) (hmid : mid ≠ "")
    (hrun : Runs (execAttempt env answered start)
      (routeToEach env mid subscriptionType event regs) w tr [] w')
    (h : Attempt start mid done w) :
    ∃ times done', times.Sublist (tr.filterMap clockReading) ∧ (∀ i ∈ done, i ∈ done') ∧
      Attempt start mid done' w' ∧
      Covered env mid subscriptionType event regs times done' := by
  induction regs generalizing w tr done with
  | nil =>
    obtain ⟨rfl, -, rfl⟩ := hrun.of_ret
    exact ⟨[], done, List.Sublist.slnil, fun _ hi => hi, h, rfl, by simp⟩
  | cons reg regs ih =>
    obtain ⟨x, now, w1, tr1, hnow, rfl, hrest⟩ := hrun.of_perform
    obtain ⟨-, h1⟩ := attempt_step hb h hnow trivial
    cases hnote : eventNotificationForRegistration env now mid subscriptionType event reg with
    | none =>
      rw [hnote] at hrest
      obtain ⟨times, done', htimes, hdone', h', hcov⟩ := ih hrest h1
      refine ⟨now :: times, done', sublist_clockReading_cons [] htimes, hdone', h', ?_⟩
      exact hcov.cons fun hsome => by simp [hnote] at hsome
    | some note =>
      rw [hnote] at hrest
      obtain ⟨tr2, tr3, result, w2, rfl, hdeliver, hrest2⟩ := hrest.of_bind
      cases result with
      | error =>
        -- the error is among those returned, but there are none
        obtain ⟨tr4, tr5, errs, w3, -, -, hrest3⟩ := hrest2.of_bind
        cases hrest3.of_ret.2.1
      | ok =>
        have h2 := deliver_records hb hmid (eventNotification_eventID hnote) hdeliver h1
        obtain ⟨times, done', htimes, hdone', h', hcov⟩ := ih hrest2 h2
        refine ⟨now :: times, done', sublist_clockReading_cons tr2 htimes, ?_, h', ?_⟩
        · exact fun i hi => hdone' i (mem_cons_of_mem _ hi)
        · exact hcov.cons fun _ => hdone' _ mem_cons_self

/-- The listing was `registrations`, and those to be notified have their records. -/
def Covers (env : Env) (start : Time) (mid subscriptionType : String) (event : EventPayload)
    (registrations : List Registration) (calls : Trace) (w : World) : Prop :=
  (⟨.registration .list, registrations⟩ : Sigma Call.Ans) ∈ calls ∧
    ∃ times done, times.Sublist (calls.filterMap clockReading) ∧ Attempt start mid done w ∧
      Covered env mid subscriptionType event registrations times done

theorem Covers.later {event : EventPayload} {tr' : Trace}
    (h : Covers env start mid subscriptionType event regs tr w) (hcalls : tr.Sublist tr')
    (hkeep : ∀ done, Attempt start mid done w → Attempt start mid done w') :
    Covers env start mid subscriptionType event regs tr' w' := by
  obtain ⟨hlist, times, done, htimes, hatt, hcov⟩ := h
  exact ⟨hcalls.subset hlist, times, done, htimes.trans (hcalls.filterMap _), hkeep done hatt, hcov⟩

theorem listed_of_execAttempt
    (h : execAttempt env true start (.registration .list) x w = some (regs, w')) :
    regs = listed env w.registrations := by
  unfold execAttempt at h
  split_ifs at h with hcond
  have hfault : x.fault = none := Option.isNone_iff_eq_none.mp (hcond.2 rfl)
  simp only [exec, Option.some.injEq, Prod.mk.injEq] at h
  rw [← h.1, execRegistration_list_answered hfault]

theorem routeToAll_covers {event : EventPayload} (hb : env.backend = .postgres) (hmid : mid ≠ "")
    (hrun : Runs (execAttempt env true start) (routeToAll env mid subscriptionType event)
      w tr (.ok ()) w') (h : Attempt start mid [] w) :
    Covers env start mid subscriptionType event (listed env w.registrations) tr w' := by
  obtain ⟨x, regs, w1, tr1, hlist, rfl, hrest⟩ := hrun.of_perform
  obtain rfl := listed_of_execAttempt hlist
  obtain ⟨-, h1⟩ := attempt_step hb h hlist trivial
  obtain ⟨tr2, tr3, errs, w2, rfl, heach, hrest2⟩ := hrest.of_bind
  obtain ⟨rfl, herrs, rfl⟩ := hrest2.of_ret
  obtain rfl := joinErrors_eq_ok herrs.symm
  obtain ⟨times, done', htimes, -, h', hcov⟩ := routeToEach_records hb hmid heach h1
  refine ⟨mem_cons_self, times, done', ?_, h', hcov⟩
  rw [append_nil]
  exact htimes

end Routing

/-! ## Channel updates -/

/-- The channel that the event is about. -/
abbrev EventSubEnvelope.channelID (envelope : EventSubEnvelope) : String :=
  stringValue envelope.event "broadcaster_user_id"

/-- The title that the event announces. -/
abbrev EventSubEnvelope.title (envelope : EventSubEnvelope) : String :=
  stringValue envelope.event "title"

/-- The category that the event announces. -/
abbrev EventSubEnvelope.category (envelope : EventSubEnvelope) : String :=
  stringValue envelope.event "category_name"

/-- The stored state differs from what the event says. -/
def Owed (envelope : EventSubEnvelope) (s : DeliveryDiskState) : Prop :=
  ∃ state, s.channelStates.lookup envelope.channelID = some state ∧
    ¬(state.title = envelope.title ∧ state.categoryName = envelope.category)

/-- The changes are routed. -/
def ChannelChanges.routed (changes : ChannelChanges) : Bool :=
  !changes.initialized && (changes.titleChanged || changes.gameChanged)

theorem ChannelChanges.routed_iff (changes : ChannelChanges) :
    changes.routed ↔
      ¬changes.initialized = true ∧ ¬(!changes.titleChanged && !changes.gameChanged) = true := by
  rcases changes with ⟨_ | _, _ | _, _ | _⟩ <;> decide

/-- The event that is routed after the comparison. -/
def changedEvent (event : EventPayload) : Sigma Call.Ans → Option EventPayload
  | ⟨.delivery (.channelStateChanges _ _ _), .ok changes⟩ =>
    if changes.routed then some (withChanges changes event) else none
  | _ => none

theorem findSome_changedEvent (event : EventPayload) (changes : ChannelChanges)
    {title category : String} (rest : Trace) :
    findSome? (changedEvent event) (⟨.delivery (.channelStateChanges cid title category),
      .ok changes⟩ :: rest) = if changes.routed then some (withChanges changes event)
        else rest.findSome? (changedEvent event) := by
  rw [findSome?_cons, changedEvent]
  split_ifs <;> rfl

theorem findSome_between {event : EventPayload} {first last : Sigma Call.Ans}
    {calls calls' : Trace} (hfirst : changedEvent event first = none)
    (hlast : changedEvent event last = none)
    (hquiet : calls'.findSome? (changedEvent event) = none) :
    ((first :: (calls ++ [last])) ++ calls').findSome? (changedEvent event) =
      calls.findSome? (changedEvent event) := by
  simp [hfirst, hlast, hquiet]

/-- The call does not save the state as the event has it. -/
def SavesOther (envelope : EventSubEnvelope) : Call → Prop
  | .delivery (.saveChannelState channelID title category _) =>
    ¬(channelID = envelope.channelID ∧
      title = envelope.title ∧
      category = envelope.category)
  | _ => True

section Update

variable {envelope : EventSubEnvelope}

theorem owed_iff_routed (s : DeliveryDiskState) :
    Owed envelope s ↔
      (comparedState envelope.channelID envelope.title envelope.category s).routed := by
  unfold Owed comparedState ChannelChanges.routed
  cases s.channelStates.lookup envelope.channelID with
  | none => simp
  | some state => simp [Classical.or_iff_not_imp_left]

theorem owed_step {a : call.Ans} (h : Owed envelope w.deliveries)
    (hcall : SavesOther envelope call) (hexec : exec env call x w = some (a, w')) :
    Owed envelope w'.deliveries := by
  rw [exec_deliveries hexec]
  cases call with
  | delivery call =>
    rcases execDelivery_channelStates env x call w.deliveries with
      hsame | ⟨cid, title, category, now, rfl, hsaved⟩
    · rw [deliveriesAfter, Owed, hsame]
      exact h
    · rw [deliveriesAfter, Owed, hsaved, Table.lookup_insert_eq]
      split_ifs with hcid
      · exact ⟨_, rfl, fun hsame => hcall ⟨hcid.symm, hsame⟩⟩
      · exact h
  | _ => exact h

theorem owed_run {p : Handler α} {a : α} {effects : List Effect}
    (hp : Within effects p) (heffs : effects.contains .channelState = false)
    (hrun : Runs (execAttempt env answered start) p w tr a w')
    (h : Owed envelope w.deliveries) : Owed envelope w'.deliveries := by
  refine (hrun.only (I := fun w => Owed envelope w.deliveries) hp ?_ h).2
  intro call x w a w' howed hcall hexec
  refine ⟨trivial, owed_step howed ?_ (exec_of_execAttempt hexec).2⟩
  unfold SavesOther
  split
  · rw [Call.effect, heffs] at hcall
    cases hcall
  · trivial

theorem channelStateChanges_ok {title category : String} {changes : ChannelChanges}
    (hb : env.backend = .postgres)
    (h : execAttempt env answered start (.delivery (.channelStateChanges cid title category)) x w =
      some (.ok changes, w')) :
    Strings.trimSpace cid ≠ "" ∧ changes = comparedState cid title category w.deliveries := by
  replace h := (exec_of_execAttempt h).2
  simp only [exec, execDelivery, hb, Postgres.execDelivery, Option.some.injEq, Prod.mk.injEq] at h
  obtain ⟨hans, -⟩ := h
  rcases withFault_fst x (failedDelivery (.channelStateChanges cid title category))
    w.deliveries (answerDelivery x (.channelStateChanges cid title category)
      w.deliveries) with hf | hf
  · rw [hf] at hans
    cases hans
  · rw [hf] at hans
    simp only [answerDelivery, channelStateChanges] at hans
    split_ifs at hans with hcid
    cases hans
    exact ⟨hcid, rfl⟩

theorem saveChannelState_ne_ok {title category : String} (hb : env.backend = .postgres)
    (h : execAttempt env answered start (.delivery (.saveChannelState cid title category now)) x w =
      some (.ok (), w')) : False := by
  replace h := (exec_of_execAttempt h).2
  simp only [exec, execDelivery, hb, Postgres.execDelivery, Option.some.injEq, Prod.mk.injEq] at h
  obtain ⟨hans, -⟩ := h
  rcases withFault_fst x (failedDelivery (.saveChannelState cid title category now))
    w.deliveries (answerDelivery x (.saveChannelState cid title category now)
      w.deliveries) with hf | hf
  · rw [hf] at hans
    cases hans
  · rw [hf] at hans
    simp only [answerDelivery, saveChannelState] at hans
    split_ifs at hans

/-- **What an attempt on a channel update did.** Without an event to route the channel stays owed,
if it was; with one, it is still owed or all were notified. It succeeds only when nothing was
owed. -/
structure Processed (env : Env) (start : Time) (mid : String) (envelope : EventSubEnvelope)
    (w : World) (calls : Trace) (result : Result Unit) (w' : World) : Prop where
  idle : calls.findSome? (changedEvent envelope.event) = none →
    (result = .ok () → ¬Owed envelope w.deliveries) ∧
      (Owed envelope w.deliveries → Owed envelope w'.deliveries)
  busy : ∀ event, calls.findSome? (changedEvent envelope.event) = some event →
    result ≠ .ok () ∧ (Owed envelope w'.deliveries ∨
      Covers env start mid envelope.subscription.type event (listed env w.registrations) calls w')

theorem save_runs {title category : String} (wrap : GoError → GoError)
    (hb : env.backend = .postgres)
    (hrun : Runs (execAttempt env answered start) (do
      let now ← host .now
      match ← deliveries (.saveChannelState cid title category now) with
      | .error err => pure (.error (wrap err))
      | .ok () => pure (.ok ())) w tr result w') :
    result ≠ .ok () ∧ (∀ event, tr.findSome? (changedEvent event) = none) ∧
      ∀ {mid} done, Attempt start mid done w → Attempt start mid done w' := by
  obtain ⟨x1, now, w1, tr1, hnow, rfl, hrest⟩ := hrun.of_perform
  obtain ⟨x2, saved, w2, tr2, hsave, rfl, hrest2⟩ := hrest.of_perform
  cases saved with
  | ok => exact (saveChannelState_ne_ok hb hsave).elim
  | error =>
    obtain ⟨rfl, rfl, rfl⟩ := hrest2.of_ret
    refine ⟨nofun, fun _ => rfl, fun done h => ?_⟩
    exact (attempt_step hb (attempt_step hb h hnow trivial).2 hsave trivial).2

theorem routed_update {event : EventPayload} {title category : String}
    (wrap : GoError → GoError) (hb : env.backend = .postgres) (hmid : mid ≠ "")
    (hrun : Runs (execAttempt env true start) (do
      match ← routeToAll env mid envelope.subscription.type event with
      | .error err => pure (.error err)
      | .ok () =>
        let now ← host .now
        match ← deliveries (.saveChannelState cid title category now) with
        | .error err => pure (.error (wrap err))
        | .ok () => pure (.ok ())) w tr result w')
    (h : Attempt start mid [] w) (howed : Owed envelope w.deliveries) :
    result ≠ .ok () ∧ (Owed envelope w'.deliveries ∨
      Covers env start mid envelope.subscription.type event
        (listed env w.registrations) tr w') := by
  obtain ⟨tr1, tr2, routed, w1, rfl, hroute, hrest⟩ := hrun.of_bind
  cases routed with
  | error =>
    obtain ⟨rfl, rfl, rfl⟩ := hrest.of_ret
    exact ⟨nofun, .inl (owed_run (routeToAll_within env mid _ _) rfl hroute howed)⟩
  | ok =>
    obtain ⟨hres, -, hkeep⟩ := save_runs wrap hb hrest
    have hcovers := routeToAll_covers hb hmid hroute h
    exact ⟨hres, .inr (hcovers.later (sublist_append_left tr1 tr2) hkeep)⟩

theorem processChannelUpdate_processed (hb : env.backend = .postgres) (hmid : mid ≠ "")
    (hrun : Runs (execAttempt env true start) (processChannelUpdate env mid envelope
      envelope.channelID) w tr result w')
    (h : Attempt start mid [] w) : Processed env start mid envelope w tr result w' := by
  obtain ⟨x, ans, w1, tr1, hcmp, rfl, hrest⟩ := hrun.of_perform
  obtain ⟨-, h1⟩ := attempt_step hb h hcmp trivial
  have hexec := (exec_of_execAttempt hcmp).2
  have howed : Owed envelope w.deliveries → Owed envelope w1.deliveries := fun howed =>
    owed_step howed (by trivial) hexec
  cases ans with
  | error =>
    obtain ⟨rfl, rfl, rfl⟩ := hrest.of_ret
    exact ⟨fun _ => ⟨nofun, howed⟩, nofun⟩
  | ok changes =>
    obtain ⟨-, hchg⟩ := channelStateChanges_ok hb hcmp
    have hrouted : Owed envelope w.deliveries ↔ changes.routed :=
      hchg ▸ owed_iff_routed w.deliveries
    dsimp only at hrest
    split_ifs at hrest with hinit hunchanged
    · -- no state was stored
      have hidle : ¬changes.routed = true := fun hbusy =>
        (changes.routed_iff.mp hbusy).1 hinit
      obtain ⟨hres, hquiet, -⟩ := save_runs _ hb hrest
      refine ⟨fun _ => ⟨fun hok => absurd hok hres, fun howed => ?_⟩, fun event hsome => ?_⟩
      · exact absurd (hrouted.mp howed) hidle
      · rw [findSome_changedEvent, if_neg hidle, hquiet] at hsome
        cases hsome
    · -- the stored state is that of the event
      have hidle : ¬changes.routed = true := fun hbusy =>
        (changes.routed_iff.mp hbusy).2 hunchanged
      obtain ⟨rfl, rfl, rfl⟩ := hrest.of_ret
      refine ⟨fun _ => ⟨fun _ howed => hidle (hrouted.mp howed), howed⟩, fun event hsome => ?_⟩
      rw [findSome_changedEvent, if_neg hidle] at hsome
      cases hsome
    · have hbusy : changes.routed := changes.routed_iff.mpr ⟨hinit, hunchanged⟩
      obtain ⟨hres, hdone⟩ := routed_update _ hb hmid hrest h1 (howed (hrouted.mpr hbusy))
      rw [exec_registrations hexec] at hdone
      refine ⟨fun hnone => ?_, fun event hsome => ⟨hres, hdone.imp_right fun hcovers => ?_⟩⟩
      · rw [findSome_changedEvent, if_pos hbusy] at hnone
        cases hnone
      · rw [findSome_changedEvent, if_pos hbusy] at hsome
        cases hsome
        exact hcovers.later (sublist_cons_self _ _) fun _ hatt => hatt

end Update

/-! ## A whole attempt -/

section Handled

variable {envelope : EventSubEnvelope}

theorem queued_step {a : call.Ans} (hb : env.backend = .postgres)
    (hexec : execAttempt env answered start call x w = some (a, w'))
    (hcomp : ∀ completedAt, call ≠ .delivery (.completeEventSub mid completedAt))
    (hcleanup : ∀ now, call ≠ .delivery (.cleanup now))
    (h : (w.deliveries.eventSubInbox.lookup mid).isSome) :
    (w'.deliveries.eventSubInbox.lookup mid).isSome := by
  rw [exec_deliveries (exec_of_execAttempt hexec).2]
  cases call with
  | delivery call =>
    simp only [deliveriesAfter, execDelivery, hb]
    rcases withFault_snd x (failedDelivery call) w.deliveries
      (answerDelivery x call w.deliveries) with hs | hs
    · rw [Postgres.execDelivery, hs]
      exact h
    · rw [Postgres.execDelivery, hs]
      exact answerDelivery_inbox (fun t heq => hcomp t (congrArg _ heq))
        (fun t heq => hcleanup t (congrArg _ heq)) h
  | _ => exact h

theorem process_queued (hb : env.backend = .postgres)
    (hrun : Runs (execAttempt env answered start)
      (processEventSubNotification env mid envelope) w tr result w')
    (h : (w.deliveries.eventSubInbox.lookup mid).isSome) :
    (w'.deliveries.eventSubInbox.lookup mid).isSome := by
  refine (hrun.only (I := fun w => (w.deliveries.eventSubInbox.lookup mid).isSome = true)
    (processEventSubNotification_routes (T := fun _ => True) mid envelope) ?_ h).2
  intro call x w a w' hqueued hcall hexec
  constructor
  · unfold ReadIn
    split <;> trivial
  · refine queued_step hb hexec ?_ ?_ hqueued
    · rintro _ rfl
      exact hcall
    · rintro _ rfl
      exact hcall

/-- **What follows**: the message is released, and settled by the result. -/
structure Closed (start : Time) (mid : String) (envelope : EventSubEnvelope)
    (result : Result Unit) (w : World) (calls : Trace) (w' : World) : Prop where
  quiet : calls.findSome? (changedEvent envelope.event) = none
  owed : Owed envelope w.deliveries → Owed envelope w'.deliveries
  attempt : ∀ done, Attempt start mid done w → Attempt start mid done w'
  queued : result ≠ .ok () → (w.deliveries.eventSubInbox.lookup mid).isSome →
    (w'.deliveries.eventSubInbox.lookup mid).isSome

theorem handleQueuedEventSub_settled (hb : env.backend = .postgres)
    (hrun : Runs (execAttempt env answered start) (handleQueuedEventSub env mid envelope) w tr
      () w') :
    ∃ tr1 tr2 result w1, tr = tr1 ++ tr2 ∧
      Runs (execAttempt env answered start) (processEventSubNotification env mid envelope) w
        tr1 result w1 ∧ Closed start mid envelope result w1 tr2 w' := by
  obtain ⟨tr1, tr2, result, w1, rfl, hprocess, hrest⟩ := hrun.of_bind
  obtain ⟨x1, u, w2, tr3, hrel, rfl, hrest2⟩ := hrest.of_perform
  obtain ⟨x2, now, w3, tr4, hnow, rfl, hrest3⟩ := hrest2.of_perform
  refine ⟨tr1, _, result, w1, rfl, hprocess, ?_⟩
  -- releasing the message and reading the clock leave the stores as they are
  have hdels : w3.deliveries = w1.deliveries :=
    (exec_deliveries (exec_of_execAttempt hnow).2).trans
      (exec_deliveries (exec_of_execAttempt hrel).2)
  cases result with
  | error =>
    obtain ⟨x3, answer, w4, tr5, hmark, rfl, hrest4⟩ := hrest3.of_perform
    obtain ⟨rfl, -, rfl⟩ := hrest4.of_ret
    refine ⟨rfl, fun h => ?_, fun done h => ?_, fun _ h => ?_⟩
    · exact owed_step (hdels ▸ h) (by trivial) (exec_of_execAttempt hmark).2
    · exact (attempt_step hb (h.congr hdels) hmark trivial).2
    · exact queued_step hb hmark nofun nofun (hdels ▸ h)
  | ok =>
    obtain ⟨x3, answer, w4, tr5, hcomp, rfl, hrest4⟩ := hrest3.of_perform
    obtain ⟨rfl, -, rfl⟩ := hrest4.of_ret
    refine ⟨rfl, fun h => ?_, fun done h => ?_, fun hne => absurd rfl hne⟩
    · exact owed_step (hdels ▸ h) (by trivial) (exec_of_execAttempt hcomp).2
    · exact (attempt_step hb (h.congr hdels) hcomp trivial).2

theorem handleQueuedEventSub_processed (hb : env.backend = .postgres) (hmid : mid ≠ "")
    (htype : envelope.subscription.type = "channel.update")
    (hrun : Runs (execAttempt env true start) (handleQueuedEventSub env mid envelope) w tr ()
      w') (h : Attempt start mid [] w) :
    ∃ result, Processed env start mid envelope w tr result w' ∧
      (result ≠ .ok () → (w.deliveries.eventSubInbox.lookup mid).isSome →
        (w'.deliveries.eventSubInbox.lookup mid).isSome) := by
  obtain ⟨tr1, tr2, result, w1, rfl, hprocess, hsettled⟩ := handleQueuedEventSub_settled hb hrun
  refine ⟨result, ?_, fun hne hqueued => hsettled.queued hne (process_queued hb hprocess hqueued)⟩
  rw [processEventSubNotification, if_pos htype] at hprocess
  obtain ⟨x1, u, w2, tr3, hlock, rfl, hrest⟩ := hprocess.of_perform
  obtain ⟨tr4, tr5, result', w3, rfl, hupdate, hrest2⟩ := hrest.of_bind
  obtain ⟨x2, u', w4, tr6, hunlock, rfl, hrest3⟩ := hrest2.of_perform
  obtain ⟨rfl, rfl, rfl⟩ := hrest3.of_ret
  have hlocked := (exec_of_execAttempt hlock).2
  have hunlocked := exec_deliveries (exec_of_execAttempt hunlock).2
  have hupd := processChannelUpdate_processed hb hmid hupdate
    (h.congr (exec_deliveries hlocked))
  refine ⟨fun hnone => ?_, fun event hsome => ?_⟩
  · rw [findSome_between rfl rfl hsettled.quiet] at hnone
    obtain ⟨hok, howed⟩ := hupd.idle hnone
    rw [exec_deliveries hlocked] at hok howed
    exact ⟨hok, fun h => hsettled.owed (hunlocked ▸ howed h)⟩
  · rw [findSome_between rfl rfl hsettled.quiet] at hsome
    obtain ⟨hres, hdone⟩ := hupd.busy event hsome
    rw [exec_registrations hlocked] at hdone
    refine ⟨hres, hdone.imp (fun howed => hsettled.owed (hunlocked ▸ howed)) fun hcovers => ?_⟩
    refine hcovers.later ?_ fun done hatt => hsettled.attempt done (hatt.congr hunlocked)
    exact ((sublist_append_left tr4 _).cons _).trans (sublist_append_left _ tr2)

end Handled

/-! ## The attempts on a message -/

/-- An attempt: the world in which it began, and its calls. -/
structure Attempted where
  world : World
  calls : Trace

/-- The event that the attempt was to route. -/
def Attempted.event (envelope : EventSubEnvelope) (a : Attempted) : Option EventPayload :=
  if envelope.subscription.type = "channel.update" then
    a.calls.findSome? (changedEvent envelope.event)
  else some envelope.event

/-- **The attempt routed the event**: it listed the stored registrations, and every one that was to
be notified, when it was considered, has its delivery record in `w`. -/
def Attempted.Routed (env : Env) (mid : String) (envelope : EventSubEnvelope)
    (a : Attempted) (event : EventPayload) (w : World) : Prop :=
  (⟨.registration .list, listed env a.world.registrations⟩ : Sigma Call.Ans) ∈ a.calls ∧
    ∃ times : List Time, times.Sublist (a.calls.filterMap clockReading) ∧
      times.length = (listed env a.world.registrations).length ∧
      ∀ p ∈ (listed env a.world.registrations).zip times,
        (eventNotificationForRegistration env p.2 mid envelope.subscription.type event
          p.1).isSome → Recorded w p.1.installationID mid

/-- The latest attempt that had something to route, with its event. -/
def latest (envelope : EventSubEnvelope) (attempts : List Attempted) :
    Option (Attempted × EventPayload) :=
  attempts.findSome? fun a => (a.event envelope).map fun event => (a, event)

/-- **The attempts on a message**, the last one first. In between others make any call that keeps
its records and does not save the channel's state as it has it. -/
inductive Retries (env : Env) (answered : Bool) (start : Time) (mid : String)
    (envelope : EventSubEnvelope) (w : World) : List Attempted → World → Prop
  | start : Retries env answered start mid envelope w [] w
  | elsewhere {attempts : List Attempted} {w1 w2 : World} {call : Call} {x : Choice}
      {a : call.Ans} (h : Retries env answered start mid envelope w attempts w1)
      (hexec : execAttempt env answered start call x w1 = some (a, w2))
      (htimely : Timely start call) (hsaves : SavesOther envelope call) :
      Retries env answered start mid envelope w attempts w2
  | attempt {attempts : List Attempted} {w1 w2 : World} {calls : Trace}
      (h : Retries env answered start mid envelope w attempts w1)
      (hrun : Runs (execAttempt env answered start)
        (handleQueuedEventSub env mid envelope) w1 calls () w2) :
      Retries env answered start mid envelope w (⟨w1, calls⟩ :: attempts) w2

/-- **Between the attempts** on a channel update the channel is owed, or the latest event was
routed. -/
structure History (env : Env) (start : Time) (mid : String) (envelope : EventSubEnvelope)
    (attempts : List Attempted) (w : World) : Prop where
  recent : Attempt start mid [] w
  routed : envelope.subscription.type = "channel.update" → ∀ a event,
    latest envelope attempts = some (a, event) → Owed envelope w.deliveries ∨
      Covers env start mid envelope.subscription.type event (listed env a.world.registrations)
        a.calls w

section Runs

variable {envelope : EventSubEnvelope} {w1 : World} {attempts : List Attempted} {calls : Trace}

theorem latest_cons (a : Attempted) :
    latest envelope (a :: attempts) =
      ((a.event envelope).map fun event => (a, event)).or (latest envelope attempts) := by
  rw [latest, findSome?_cons]
  cases a.event envelope <;> rfl

theorem Covers.routed {a : Attempted} {event : EventPayload}
    (h : Covers env start mid envelope.subscription.type event (listed env a.world.registrations)
      a.calls w) : a.Routed env mid envelope event w := by
  obtain ⟨hlist, times, done, htimes, hatt, hlen, hcov⟩ := h
  exact ⟨hlist, times, htimes, hlen, fun p hp hsome => hatt.recorded _ (hcov p hp hsome)⟩

variable (hb : env.backend = .postgres)

include hb

theorem attempt_handled
    (hrun : Runs (execAttempt env answered start) (handleQueuedEventSub env mid envelope) w
      calls () w') {done : List String} (h : Attempt start mid done w) :
    Attempt start mid done w' := by
  obtain ⟨tr1, tr2, result, w1, -, hprocess, hsettled⟩ := handleQueuedEventSub_settled hb hrun
  refine hsettled.attempt done (attempt_run hb (prompt_of_routes ?_) hprocess h)
  exact processEventSubNotification_routes mid envelope

theorem History.attempt (hmid : mid ≠ "")
    (h : History env start mid envelope attempts w)
    (hrun : Runs (execAttempt env true start) (handleQueuedEventSub env mid envelope) w calls
      () w') : History env start mid envelope (⟨w, calls⟩ :: attempts) w' := by
  refine ⟨attempt_handled hb hrun h.recent, fun htype a event hlatest => ?_⟩
  obtain ⟨result, hproc, -⟩ := handleQueuedEventSub_processed hb hmid htype hrun h.recent
  rw [latest_cons, Attempted.event, if_pos htype] at hlatest
  dsimp only at hlatest
  cases hevent : calls.findSome? (changedEvent envelope.event) with
  | some event' =>
    rw [hevent] at hlatest
    cases hlatest
    exact (hproc.busy event hevent).2
  | none =>
    rw [hevent] at hlatest
    refine (h.routed htype a event hlatest).imp (hproc.idle hevent).2 fun hcovers => ?_
    exact hcovers.later (Sublist.refl _) fun _ hatt => attempt_handled hb hrun hatt

/-- **The retries keep the history.** -/
theorem history_of_retries (hmid : mid ≠ "")
    (h : Retries env true start mid envelope w attempts w') (hstart : Attempt start mid [] w) :
    History env start mid envelope attempts w' := by
  induction h with
  | start => exact ⟨hstart, fun _ _ _ hlatest => nomatch hlatest⟩
  | elsewhere _ hexec htimely hsaves ih =>
    have hkeep : ∀ done, Attempt start mid done _ → Attempt start mid done _ := fun _ hatt =>
      (attempt_step hb hatt hexec htimely).2
    refine ⟨hkeep [] ih.recent, fun htype a event hlatest => ?_⟩
    refine (ih.routed htype a event hlatest).imp (fun howed => ?_) fun hcovers => ?_
    · exact owed_step howed hsaves (exec_of_execAttempt hexec).2
    · exact hcovers.later (Sublist.refl _) hkeep
  | attempt _ hrun ih => exact ih.attempt hb hmid hrun

theorem History.completed (hmid : mid ≠ "")
    (h : History env start mid envelope attempts w)
    (hrun : Runs (execAttempt env true start) (handleQueuedEventSub env mid envelope) w calls
      () w') (hqueued : (w.deliveries.eventSubInbox.lookup mid).isSome)
    (hcompleted : w'.deliveries.eventSubInbox.lookup mid = none) {a : Attempted}
    {event : EventPayload} (hlatest : latest envelope (⟨w, calls⟩ :: attempts) = some (a, event)) :
    a.Routed env mid envelope event w' := by
  have hok : ∀ result : Result Unit, (result ≠ .ok () →
      (w.deliveries.eventSubInbox.lookup mid).isSome →
        (w'.deliveries.eventSubInbox.lookup mid).isSome) → result = .ok () := by
    intro result hstill
    by_contra hne
    have hsome := hstill hne hqueued
    rw [hcompleted] at hsome
    cases hsome
  by_cases htype : envelope.subscription.type = "channel.update"
  · obtain ⟨result, hproc, hstill⟩ := handleQueuedEventSub_processed hb hmid htype hrun h.recent
    have hnone : calls.findSome? (changedEvent envelope.event) = none := by
      cases hevent : calls.findSome? (changedEvent envelope.event) with
      | none => rfl
      | some => exact absurd (hok result hstill) (hproc.busy _ hevent).1
    rw [latest_cons, Attempted.event, if_pos htype, hnone] at hlatest
    rcases h.routed htype a event hlatest with howed | hcovers
    · exact absurd howed ((hproc.idle hnone).1 (hok result hstill))
    · exact (hcovers.later (Sublist.refl _) fun _ hatt =>
        attempt_handled hb hrun hatt).routed
  · rw [latest_cons, Attempted.event, if_neg htype] at hlatest
    cases hlatest
    obtain ⟨tr1, tr2, result, w1, rfl, hprocess, hsettled⟩ := handleQueuedEventSub_settled hb hrun
    obtain rfl := hok result fun hne hsome =>
      hsettled.queued hne (process_queued hb hprocess hsome)
    rw [processEventSubNotification, if_neg htype] at hprocess
    exact ((routeToAll_covers hb hmid hprocess h.recent).later (sublist_append_left tr1 tr2)
      hsettled.attempt).routed

end Runs

/-! ## Completed events -/

/-- Channel `1` goes online. -/
def onlineEnvelope : EventSubEnvelope :=
  { subscription := { type := "stream.online" }, event := [("broadcaster_user_id", .str "1")] }

/-- A follower of channel `1`. -/
def onlineFollower : Registration :=
  { installationID := "phone", provider := "embedded_socket", userID := "7", channelIDs := ["1"],
    notificationRules := ["stream_online"] }

/-- The follower, and the message that the channel is online. -/
def onlineQueued : World :=
  { registrations := AList.insert "phone" onlineFollower ∅
    deliveries :=
      { eventSubInbox := AList.insert "message"
          { messageID := "message", envelope := onlineEnvelope, status := .pending,
            availableAt := unixEpoch, expiresAt := unixEpoch + 24 * hour,
            receivedAt := unixEpoch } ∅ } }

section Unlisted

theorem execAttempt_of_exec {r : call.Ans × World} (hx : x.now = start)
    (h : exec env call x w = some r) : execAttempt env false start call x w = some r := by
  have hwin : (start ≤ x.now ∧ x.now ≤ start + retention) ∧ (false → listingAnswered call x) := by
    rw [hx]
    exact ⟨⟨Int.le_refl _, Int.le_add_of_nonneg_right (by decide)⟩, nofun⟩
  rw [execAttempt, if_pos hwin, h]

theorem exec_unlisted (hb : env.backend = .postgres) (w : World) :
    execAttempt env false start (.registration .list) { now := start, fault := some .refused } w =
      some ([], w) := by
  refine execAttempt_of_exec rfl ?_
  simp only [exec, execRegistration, hb, Postgres.execRegistration, withFault, failedRegistration]

theorem exec_completed (hb : env.backend = .postgres) (w : World) :
    execAttempt env false start (.delivery (.completeEventSub "message" start)) { now := start } w =
      some ((completeEventSub "message" start w.deliveries).1, { w with
        deliveries := (completeEventSub "message" start w.deliveries).2 }) := by
  refine execAttempt_of_exec rfl ?_
  simp only [exec, execDelivery, hb, Postgres.execDelivery, withFault, answerDelivery]

/-- The attempt on the message when the listing fails. -/
theorem exists_unlisted_attempt (hb : env.backend = .postgres) (start : Time) :
    ∃ calls w', Runs (execAttempt env false start)
        (handleQueuedEventSub env "message" onlineEnvelope) onlineQueued calls () w' ∧
      w'.deliveries.eventSubInbox.lookup "message" = none ∧
      ∀ regs, (⟨.registration .list, regs⟩ : Sigma Call.Ans) ∈ calls → regs = [] := by
  have hother : onlineEnvelope.subscription.type ≠ "channel.update" := by decide
  rw [handleQueuedEventSub, processEventSubNotification, if_neg hother]
  refine ⟨_, _, .call (exec_unlisted hb _)
    (.call (execAttempt_of_exec (x := { now := start }) rfl rfl)
      (.call (execAttempt_of_exec (x := { now := start }) rfl rfl)
        (.call (exec_completed hb _) (.ret _ _)))), ?_, ?_⟩
  · rfl
  · intro regs hmem
    simpa using hmem

end Unlisted

/-- **Completed events were routed** exactly when the listings are answered: in all runs of attempts
within the retention time, whatever else fails and others do, the attempt that completes a message
leaves the latest event that was to be routed routed to all stored registrations. -/
theorem completed_event_was_routed_iff {env : Env} {answered : Bool} {start : Time}
    (hb : env.backend = .postgres) :
    (∀ mid envelope w, mid ≠ "" →
      (∀ id r, w.deliveries.records.lookup id = some r → r.eventID = mid → Recent start r) →
      ∀ attempts w1 calls w', Retries env answered start mid envelope w attempts w1 →
        (w1.deliveries.eventSubInbox.lookup mid).isSome →
        Runs (execAttempt env answered start) (handleQueuedEventSub env mid envelope) w1
          calls () w' →
        w'.deliveries.eventSubInbox.lookup mid = none →
        ∀ a event, latest envelope (⟨w1, calls⟩ :: attempts) = some (a, event) →
          a.Routed env mid envelope event w') ↔ answered := by
  constructor
  · intro h
    by_contra hanswered
    obtain rfl : answered = false := Bool.eq_false_iff.mpr hanswered
    obtain ⟨calls, w', hrun, hcomp, hunlisted⟩ := exists_unlisted_attempt hb start
    obtain ⟨hlist, -⟩ := h "message" onlineEnvelope onlineQueued (by decide)
      (fun _ _ hr => by cases hr) [] onlineQueued calls w' .start (by decide) hrun hcomp _ _ rfl
    -- the registration is stored, but was not listed
    have hmem : publicRegistration onlineFollower ∈ listed env onlineQueued.registrations :=
      mem_listed_iff.mpr ⟨_, Table.mem_rows_iff.mpr ⟨"phone", rfl⟩, rfl⟩
    rw [hunlisted _ hlist] at hmem
    cases hmem
  · rintro rfl mid envelope w hmid hrecent attempts w1 calls w' hretries hqueued hrun hcomp a event
      hlatest
    exact (history_of_retries hb hmid hretries ⟨hrecent, by simp⟩).completed hb hmid hrun hqueued
      hcomp hlatest

/-- When every call succeeds, the message is completed and the registration has its record. -/
theorem onlineQueued_is_routed :
    ∃ calls w', Runs (execAttempt .pg true unixEpoch)
        (handleQueuedEventSub .pg "message" onlineEnvelope) onlineQueued calls ()
          w' ∧
      w'.deliveries.eventSubInbox.lookup "message" = none ∧
      (⟨onlineQueued, calls⟩ : Attempted).Routed .pg "message" onlineEnvelope
        onlineEnvelope.event w' := by
  have heval : (Prog.eval (execAttempt .pg true unixEpoch)
      (handleQueuedEventSub .pg "message" onlineEnvelope)
      (List.replicate 14 { now := unixEpoch + hour, token := some "1" })
      onlineQueued).map (fun r => (r.2.2.deliveries.eventSubInbox.lookup "message").isNone) =
        some true := by
    decide
  cases hres : Prog.eval (execAttempt .pg true unixEpoch)
      (handleQueuedEventSub .pg "message" onlineEnvelope)
      (List.replicate 14 { now := unixEpoch + hour, token := some "1" }) onlineQueued with
  | none =>
    rw [hres] at heval
    cases heval
  | some r =>
    obtain ⟨calls, ⟨⟩, w'⟩ := r
    rw [hres] at heval
    have hcompleted : w'.deliveries.eventSubInbox.lookup "message" = none :=
      Option.isNone_iff_eq_none.mp (Option.some.inj heval)
    have hrun := eval_runs hres
    refine ⟨calls, w', hrun, hcompleted, ?_⟩
    exact (completed_event_was_routed_iff rfl).mpr rfl "message" onlineEnvelope onlineQueued
      (by decide) (fun _ _ hr => by cases hr) [] onlineQueued calls w' .start (by decide) hrun
      hcompleted _ _ rfl

/-- The listing fails: the message is completed, and the registration has no record. -/
theorem failed_listing_completes_unrouted_event :
    (∀ reg ∈ listed .pg onlineQueued.registrations,
      (eventNotificationForRegistration .pg (unixEpoch + hour) "message"
        "stream.online" onlineEnvelope.event reg).isSome) ∧
      (listed .pg onlineQueued.registrations).length = 1 ∧
      (Prog.eval (exec .pg) (handleQueuedEventSub .pg "message" onlineEnvelope)
        [{ fault := some .refused }, {}, { now := unixEpoch + hour }, {}] onlineQueued).map
          (fun r => ((r.2.2.deliveries.eventSubInbox.lookup "message").isNone,
            r.2.2.deliveries.records.rows)) = some (true, []) := by
  decide

end Ferventio
