import Ferventio.Delivery.Tables
import Ferventio.EventSub.Reservation
import Ferventio.Push.Exclusion

/-!
# The order of channel updates

A worker compares a `channel.update` with the stored state of the channel and saves its own values,
all under the channel's mutex. The mutex keeps two workers apart, but it does not make them come in
the order in which the events were received: an older event that is retried, or whose worker is
slower, is compared with the newer state, differs from it and is saved over it.

* **`stored_state_is_last`**: the state that is stored, where this does not happen.
-/

namespace Ferventio

namespace Pipeline

open Strings List System Prog

variable {mutex : Mutex} {t : Task} {completedAt : Time} {hist : List (Event Task Call Call.Ans)}
  {x : Choice} {receivedAt : String → Time} {capacity pid : Nat} {queued last : QueuedEventSub}
  {s : State} {env : Env} {call : Ferventio.Call} {effects : List Effect} {held : List Mutex}
  {G : Condition Task Call Call.Ans State}

/-! ## How far a worker is -/

namespace QueuedEventSub

/-- The event is a channel update. -/
def isChannelUpdate (queued : QueuedEventSub) : Bool :=
  queued.envelope.subscription.type == "channel.update"

/-- The channel of the event. -/
def channelID (queued : QueuedEventSub) : String :=
  stringValue queued.envelope.event "broadcaster_user_id"

/-- The title that it announces. -/
def title (queued : QueuedEventSub) : String := stringValue queued.envelope.event "title"

/-- The category that it announces. -/
def category (queued : QueuedEventSub) : String :=
  stringValue queued.envelope.event "category_name"

/-- The channel is stored as the event has it. -/
def Stored (queued : QueuedEventSub) (w : World) : Prop :=
  StoredState queued.channelID queued.title queued.category w.deliveries

end QueuedEventSub

/-- A worker has taken an event, is inside the mutex of the channel, or has left it; settled, once
the event's values are stored. -/
inductive Stage
  | idle
  | taken (queued : QueuedEventSub)
  | inside (queued : QueuedEventSub) (settled : Bool)
  | left (queued : QueuedEventSub) (settled : Bool)

namespace Stage

/-- The stage after a call. -/
def learn : Stage → (call : Call) → call.Ans → Stage
  | idle, .receive, queued => taken queued
  | taken queued, .server (.env (.lock (.channelState _))), _ => inside queued false
  | inside queued settled, .server (.delivery (.channelStateChanges _ _ _)), .ok changes =>
    inside queued (settled || changes.unchanged)
  | inside queued _, .server (.delivery (.saveChannelState _ _ _ _)), .ok () => inside queued true
  | inside queued settled, .server (.env (.unlock (.channelState _))), _ => left queued settled
  | stage, _, _ => stage

/-- The event in hand. -/
def event : Stage → Option QueuedEventSub
  | idle => none
  | taken queued => some queued
  | inside queued _ => some queued
  | left queued _ => some queued

/-- The event whose state is settled. -/
def settled : Stage → Option QueuedEventSub
  | inside queued true => some queued
  | left queued true => some queued
  | _ => none

/-- The worker is done with the event. -/
def Done (queued : QueuedEventSub) (stage : Stage) : Prop :=
  stage = left queued true ∨ stage = taken queued ∧ queued.isChannelUpdate = false

end Stage

/-- The calls that have nothing to do with the stages. -/
def quiet : Call → Bool
  | .receive => false
  | .server (.env (.lock (.channelState _))) => false
  | .server (.env (.unlock (.channelState _))) => false
  | .server (.delivery (.channelStateChanges _ _ _)) => false
  | .server (.delivery (.saveChannelState _ _ _ _)) => false
  | .server (.delivery (.completeEventSub _ _)) => false
  | _ => true

/-- The calls of a stage. -/
inductive Permitted : Stage → Call → Prop
  | receive : Permitted .idle .receive
  | lock (queued : QueuedEventSub) (h : queued.isChannelUpdate) :
    Permitted (.taken queued) (.server (.env (.lock (.channelState queued.channelID))))
  | compare (queued : QueuedEventSub) (settled : Bool) :
    Permitted (.inside queued settled) (.server (.delivery
      (.channelStateChanges queued.channelID queued.title queued.category)))
  | save (queued : QueuedEventSub) (settled : Bool) (now : Time) :
    Permitted (.inside queued settled) (.server (.delivery
      (.saveChannelState queued.channelID queued.title queued.category now)))
  | unlock (queued : QueuedEventSub) (settled : Bool) :
    Permitted (.inside queued settled) (.server (.env (.unlock (.channelState queued.channelID))))
  | complete {stage : Stage} (queued : QueuedEventSub) (completedAt : Time)
      (h : stage.Done queued) :
    Permitted stage (.server (.delivery (.completeEventSub queued.messageID completedAt)))
  | quiet (stage : Stage) {call : Call} (h : quiet call) : Permitted stage call

theorem learn_quiet {call : Call} (h : quiet call) (stage : Stage) (a : call.Ans) :
    stage.learn call a = stage := by
  unfold Stage.learn
  split <;> first | rfl | cases h

theorem learn_complete (stage : Stage) (mid : String) (completedAt : Time) (a : Result Unit) :
    stage.learn (.server (.delivery (.completeEventSub mid completedAt))) a = stage := by
  cases stage <;> rfl

theorem quiet_of_effect (hstate : call.effect ≠ .channelState)
    (hcomp : call.effect ≠ .complete) : quiet (.server call) := by
  unfold quiet
  split
  · rename_i heq
    cases heq
  · rename_i heq
    cases heq
    exact absurd rfl hstate
  · rename_i heq
    cases heq
    exact absurd rfl hstate
  · rename_i heq
    cases heq
    exact absurd rfl hstate
  · rename_i heq
    cases heq
    exact absurd rfl hstate
  · rename_i heq
    cases heq
    exact absurd rfl hcomp
  · rfl

theorem quiet_of_contains
    (h : effects.contains call.effect) (hstate : effects.contains .channelState = false)
    (hcomp : effects.contains .complete = false) : quiet (.server call) := by
  refine quiet_of_effect ?_ ?_
  · intro heff
    rw [heff, hstate] at h
    cases h
  · intro heff
    rw [heff, hcomp] at h
    cases h

/-! ## The code -/

section Code

variable {α : Type} {stage : Stage}

/-- Only calls that have nothing to do with the stages. -/
def Quiet (prog : Code α) : Prop := prog.Only (fun call => quiet call = true) fun _ _ => True

theorem quiet_lift {prog : Handler α} (h : Within effects prog)
    (hstate : effects.contains .channelState = false)
    (hcomp : effects.contains .complete = false) : Quiet (lift prog) := by
  induction prog with
  | ret a => trivial
  | call call k ih =>
    exact ⟨quiet_of_contains h.1 hstate hcomp, fun a _ => ih a (h.2 a trivial)⟩

theorem quiet_scheduleEventSub (r : EventSubInboxRecord) : Quiet (scheduleEventSub r) := by
  rw [scheduleEventSub]
  split
  · trivial
  · refine ⟨rfl, fun reserved _ => ?_⟩
    cases reserved with
    | false => trivial
    | true =>
      refine ⟨rfl, fun sent _ => ?_⟩
      cases sent with
      | true => trivial
      | false => exact ⟨rfl, fun _ _ => trivial⟩

theorem quiet_schedulePending (r : Option EventSubInboxRecord) : Quiet (schedulePending r) := by
  cases r with
  | none => trivial
  | some r =>
    rw [schedulePending]
    split
    · exact (quiet_scheduleEventSub r).bind fun _ => trivial
    · trivial

theorem quiet_respond (status : Nat) (text : String) : Quiet (respond status text) :=
  ⟨rfl, fun _ _ => trivial⟩

theorem quiet_webhookNotification (mid : String) (envelope : EventSubEnvelope) :
    Quiet (webhookNotification mid envelope) := by
  refine ⟨rfl, fun now _ => ⟨rfl, fun ans _ => ?_⟩⟩
  cases ans with
  | error => exact quiet_respond _ _
  | ok result => exact (quiet_schedulePending result.1).bind fun _ => quiet_respond _ _

theorem quiet_enqueueUserChatEvent (message : UserChatMessage) :
    Quiet (enqueueUserChatEvent message) := by
  rw [enqueueUserChatEvent]
  split
  · trivial
  · refine ⟨rfl, fun now _ => ⟨rfl, fun ans _ => ?_⟩⟩
    cases ans with
    | error => trivial
    | ok result => exact (quiet_schedulePending result.1).bind fun _ => trivial

theorem quiet_scheduleEach (rows : List EventSubInboxRecord) : Quiet (scheduleEach rows) := by
  induction rows with
  | nil => trivial
  | cons r rows ih => exact (quiet_scheduleEventSub r).bind fun _ => ih

theorem quiet_drain : Quiet drain :=
  ⟨rfl, fun _ _ => ⟨rfl, fun rows _ => quiet_scheduleEach rows⟩⟩

theorem quiet_adminRetryEventSubInbox (mid : String) : Quiet (adminRetryEventSubInbox mid) := by
  rw [adminRetryEventSubInbox]
  split
  · exact quiet_respond _ _
  · refine Only.perform_bind rfl fun now1 _ => Only.perform_bind rfl fun ans _ => ?_
    cases ans with
    | error =>
      dsimp only
      split <;> exact quiet_respond _ _
    | ok =>
      refine Only.perform_bind rfl fun now2 _ =>
        Only.perform_bind rfl fun rows _ => ?_
      split
      · exact quiet_respond _ _
      · exact (quiet_scheduleEventSub _).bind fun _ => quiet_respond _ _

/-- The worker's own code goes through the stages. -/
abbrev Passes (prog : Code α) (stage : Stage) (post : α → Stage → Prop) : Prop :=
  Follows Stage.learn Permitted post prog stage

/-- The same for a handler, whose calls are those of the server. -/
abbrev Handles (prog : Handler α) (stage : Stage) (post : α → Stage → Prop) : Prop :=
  Follows (fun stage call a => stage.learn (.server call) a)
    (fun stage call => Permitted stage (.server call)) post prog stage

theorem handles_quiet {f : call.Ans → Handler α} {post : α → Stage → Prop}
    (hcall : quiet (.server call)) (h : ∀ a, Handles (f a) stage post) :
    Handles (perform call >>= f) stage post := by
  refine Follows.perform_bind (.quiet stage hcall) fun a => ?_
  rw [learn_quiet hcall]
  exact h a

theorem handles_within {prog : Handler α} (h : Within effects prog)
    (hstate : effects.contains .channelState = false) (hcomp : effects.contains .complete = false) :
    Handles prog stage fun _ stage' => stage' = stage := by
  refine follows_of_only h fun call hcall => ?_
  have hquiet := quiet_of_contains hcall hstate hcomp
  exact ⟨.quiet stage hquiet, learn_quiet hquiet stage⟩

theorem handles_processChannelUpdate (env : Env) (queued : QueuedEventSub) :
    Handles (processChannelUpdate env queued.messageID queued.envelope queued.channelID)
      (.inside queued false) fun result stage =>
        ∃ settled, stage = .inside queued settled ∧ (result = .ok () → settled) := by
  refine Follows.perform_bind (.compare queued false) fun ans => ?_
  cases ans with
  | error => exact ⟨false, rfl, nofun⟩
  | ok changes =>
    change Handles _ (.inside queued changes.unchanged) _
    have hunchanged : changes.unchanged =
        (!changes.initialized && (!changes.titleChanged && !changes.gameChanged)) :=
      Bool.and_assoc _ _ _
    dsimp only
    split_ifs with hinit hsame
    · rw [hunchanged, hinit]
      refine handles_quiet rfl fun now => ?_
      refine Follows.perform_bind (.save queued false now) fun ans => ?_
      cases ans with
      | error => exact ⟨false, rfl, nofun⟩
      | ok => exact ⟨true, rfl, fun _ => rfl⟩
    · rw [Bool.not_eq_true] at hinit
      rw [hunchanged, hinit, hsame]
      exact ⟨true, rfl, fun _ => rfl⟩
    · rw [Bool.not_eq_true] at hsame
      rw [hunchanged, hsame, Bool.and_false]
      refine Follows.bind (handles_within (routeToAll_within env _ _ _) rfl rfl)
        fun result stage hstage => ?_
      subst hstage
      cases result with
      | error => exact ⟨false, rfl, nofun⟩
      | ok =>
        refine handles_quiet rfl fun now => ?_
        refine Follows.perform_bind (.save queued false now) fun ans => ?_
        cases ans with
        | error => exact ⟨false, rfl, nofun⟩
        | ok => exact ⟨true, rfl, fun _ => rfl⟩

theorem handles_processEventSubNotification (env : Env) (queued : QueuedEventSub) :
    Handles (processEventSubNotification env queued.messageID queued.envelope) (.taken queued)
      fun result stage => result = .ok () → stage.Done queued := by
  unfold processEventSubNotification
  split_ifs with htype
  · have hupd : queued.isChannelUpdate := beq_iff_eq.mpr htype
    refine Follows.perform_bind (.lock queued hupd) fun _ => ?_
    refine Follows.bind (handles_processChannelUpdate env queued) ?_
    rintro result stage ⟨settled, rfl, hsettled⟩
    refine Follows.perform_bind (.unlock queued settled) fun _ hok => ?_
    rw [hsettled hok]
    exact .inl rfl
  · have hother : queued.isChannelUpdate = false := beq_eq_false_iff_ne.mpr htype
    refine (handles_within (routeToAll_within env _ _ _) rfl rfl).mono ?_
    rintro result stage rfl -
    exact .inr ⟨rfl, hother⟩

/-! ## Panics -/

/-- The channels of the mutexes. -/
def channelsOf (held : List Mutex) : List String :=
  held.filterMap fun mutex => match mutex with
    | .channelState channelID => some channelID
    | _ => none

/-- The channel whose mutex is held. -/
def Stage.channels : Stage → List String
  | inside queued _ => [queued.channelID]
  | _ => []

theorem channelsOf_cons (mutex : Mutex) (held : List Mutex) :
    channelsOf (mutex :: held) = channelsOf [mutex] ++ channelsOf held :=
  filterMap_append (l := [mutex]) ..

theorem channelsOf_erase (held : List Mutex) (cid : String) :
    channelsOf (held.erase (.channelState cid)) = (channelsOf held).erase cid := by
  induction held with
  | nil => rfl
  | cons mutex held ih =>
    rw [erase_cons]
    cases mutex with
    | channelState cid' =>
      by_cases hcid : cid' = cid
      · subst hcid
        simp [channelsOf]
      · simpa [channelsOf, erase_cons, hcid] using ih
    | _ => simpa [channelsOf] using ih

theorem channelsOf_erase_other (h : channelsOf [mutex] = []) (held : List Mutex) :
    channelsOf (held.erase mutex) = channelsOf held := by
  induction held with
  | nil => rfl
  | cons other held ih =>
    rw [erase_cons]
    split_ifs with heq
    · rw [beq_iff_eq.mp heq, channelsOf_cons, h, nil_append]
    · rw [channelsOf_cons, channelsOf_cons other held, ih]

theorem channelsOf_heldAfter (h : channelsOf held = stage.channels)
    (hcall : Permitted stage (.server call)) (a : call.Ans) :
    channelsOf (heldAfter held call) = (stage.learn (.server call) a).channels := by
  cases hcall with
  | lock queued => exact congrArg (queued.channelID :: ·) h
  | unlock =>
    rw [heldAfter, channelsOf_erase, h]
    exact erase_cons_head ..
  | complete =>
    rw [learn_complete]
    exact h
  | quiet _ hquiet =>
    rw [learn_quiet hquiet, ← h]
    cases call with
    | env call =>
      cases call with
      | lock mutex =>
        rw [heldAfter, channelsOf_cons]
        cases mutex with
        | channelState => cases hquiet
        | _ => rfl
      | unlock mutex =>
        refine channelsOf_erase_other ?_ held
        cases mutex with
        | channelState => cases hquiet
        | _ => rfl
      | _ => rfl
    | _ => rfl
  | _ => cases a <;> exact h

theorem passes_unlockAll (h : channelsOf held = stage.channels) :
    Passes (unlockAll held) stage fun _ _ => True := by
  induction held generalizing stage with
  | nil => trivial
  | cons mutex held ih =>
    have hmay : Permitted stage (.server (.env (.unlock mutex))) := by
      cases mutex with
      | channelState =>
        cases stage with
        | inside queued settled =>
          obtain ⟨rfl, -⟩ := List.cons.inj h
          exact .unlock queued settled
        | _ => cases h
      | _ => exact .quiet stage rfl
    have hafter := channelsOf_heldAfter h hmay ()
    rw [heldAfter, erase_cons_head] at hafter
    exact ⟨hmay, fun _ => ih hafter⟩

/-- **A handler that may panic** goes through the same stages. -/
theorem passes_protect {prog : Handler α} {post : α → Stage → Prop}
    (h : Handles prog stage post) (hheld : channelsOf held = stage.channels) :
    Passes (protect held prog) stage fun result stage' =>
      ∀ a, result = some a → post a stage' := by
  induction prog generalizing stage held with
  | ret a =>
    intro a' ha
    cases ha
    exact h
  | call call k ih =>
    refine ⟨.quiet stage rfl, fun panicked => ?_⟩
    rw [learn_quiet rfl]
    cases panicked with
    | true => exact Follows.bind (passes_unlockAll hheld) fun _ _ _ => nofun
    | false => exact ⟨h.1, fun a => ih a (h.2 a) (channelsOf_heldAfter hheld h.1 a)⟩

theorem passes_quiet {call : Call} {f : call.Ans → Code α} {post : α → Stage → Prop}
    (hcall : quiet call) (h : ∀ a, Passes (f a) stage post) :
    Passes (perform call >>= f) stage post := by
  refine Follows.perform_bind (.quiet stage hcall) fun a => ?_
  rw [learn_quiet hcall]
  exact h a

theorem passes_worker (env : Env) : Passes (worker env) .idle fun _ _ => True := by
  refine Follows.perform_bind .receive fun queued => ?_
  have hproc := handles_processEventSubNotification env queued
  refine Follows.bind (passes_protect hproc rfl) fun result stage hdone => ?_
  refine passes_quiet rfl fun _ => passes_quiet rfl fun _ => passes_quiet rfl fun now => ?_
  cases hres : processError result with
  | some => exact passes_quiet rfl fun _ => trivial
  | none =>
    have hok : result = some (.ok ()) := by
      cases result with
      | none => cases hres
      | some result =>
        cases result with
        | error => cases hres
        | ok => rfl
    exact Follows.perform_bind (.complete queued now (hdone _ hok rfl)) fun _ => trivial

theorem follows_stages (env : Env) (t : Task) :
    Follows Stage.learn Permitted (fun _ _ => True) (code env t) .idle := by
  have hquiet : ∀ {prog : Code Unit}, Quiet prog → Passes prog .idle fun _ _ => True :=
    fun h => follows_of_allowed h fun stage _ => .quiet stage
  cases t with
  | webhook mid envelope => exact hquiet (quiet_webhookNotification mid envelope)
  | chat message =>
    exact hquiet ((quiet_enqueueUserChatEvent message).bind fun _ => trivial)
  | drainer => exact hquiet quiet_drain
  | adminRetry mid => exact hquiet (quiet_adminRetryEventSubInbox mid)
  | worker => exact passes_worker env
  | other task h =>
    refine hquiet (quiet_lift (code_within env task) ?_ ?_)
    · cases task <;> first | rfl | cases h
    · cases task <;> first | rfl | cases h

end Code

/-! ## What a call changes -/

/-- The stage of a process. -/
def stageOf (hist : List (Event Task Call Call.Ans)) (pid : Nat) : Stage :=
  track .idle (fun _ : Task => Stage.learn) hist pid

theorem stageOf_self (e : Event Task Call Call.Ans) (hist : List (Event Task Call Call.Ans)) :
    stageOf (e :: hist) e.pid = (stageOf hist e.pid).learn e.op e.ans :=
  track_self e hist

theorem stageOf_other {e : Event Task Call Call.Ans} (h : e.pid ≠ pid)
    (hist : List (Event Task Call Call.Ans)) : stageOf (e :: hist) pid = stageOf hist pid :=
  track_other h hist

section Call

variable {s0 : State} {op : Call} {a : op.Ans} {stage : Stage}

section Exec

variable (hexec : exec env capacity op x s0 = some (a, s))

include hexec

theorem exec_world :
    (∃ call, ∃ b : call.Ans, op = .server call ∧
        Ferventio.exec env call x.toChoice s0.world = some (b, s.world)) ∨
      s.world.deliveries = s0.world.deliveries ∧ s.world.locked = s0.world.locked := by
  cases op with
  | server call =>
    obtain ⟨⟨b, w⟩, hcall, heq⟩ := Option.map_eq_some_iff.mp hexec
    cases heq
    exact .inl ⟨call, b, rfl, hcall⟩
  | receive =>
    rw [exec] at hexec
    split at hexec
    · cases hexec
    · cases hexec
      exact .inr ⟨rfl, rfl⟩
  | panics =>
    cases hexec
    exact .inr ⟨rfl, rfl⟩
  | returned =>
    cases hexec
    exact .inr ⟨rfl, rfl⟩
  | _ =>
    rw [exec] at hexec
    split at hexec <;> cases hexec <;> exact .inr ⟨rfl, rfl⟩

theorem locked_after
    (hne : op ≠ .server (.env (.unlock mutex))) (h : mutex ∈ s0.world.locked) :
    mutex ∈ s.world.locked := by
  rcases exec_world hexec with ⟨call, b, rfl, hcall⟩ | ⟨-, hlocked⟩
  · exact exec_locked hcall (fun heq => hne (congrArg Call.server heq)) h
  · rw [hlocked]
    exact h

theorem stored_after
    (hsave : ∀ title category now,
      op = .server (.delivery (.saveChannelState queued.channelID title category now)) →
        title = queued.title ∧ category = queued.category)
    (h : queued.Stored s0.world) : queued.Stored s.world := by
  rcases exec_world hexec with ⟨call, b, rfl, hcall⟩ | ⟨hsame, -⟩
  · rw [QueuedEventSub.Stored, exec_deliveries hcall]
    unfold deliveriesAfter
    split
    · refine h.kept (execDelivery_channelStates _ _ _ _) fun title category now hop => ?_
      exact hsave title category now (by rw [hop])
    · exact h
  · rw [QueuedEventSub.Stored, hsame]
    exact h

end Exec

theorem event_learn (h : stage.event = some queued) (op : Call) (a : op.Ans) :
    (stage.learn op a).event = some queued := by
  unfold Stage.learn
  split <;> first | exact h | cases h

theorem event_cases (h : (stage.learn op a).event = some queued) :
    stage.event = some queued ∨ (⟨op, a⟩ : Sigma Call.Ans) = ⟨.receive, queued⟩ := by
  unfold Stage.learn at h
  split at h
  · cases h
    exact .inr rfl
  all_goals exact .inl h

theorem settled_learn (h : stage.settled = some queued) (op : Call) (a : op.Ans) :
    (stage.learn op a).settled = some queued := by
  unfold Stage.learn
  split
  · cases h
  · cases h
  · rename_i settled _ _ _ changes
    cases settled with
    | true => exact h
    | false => cases h
  · rename_i settled _ _ _ _
    cases settled with
    | true => exact h
    | false => cases h
  · rename_i settled _ _
    cases settled with
    | true => exact h
    | false => cases h
  · exact h

/-- **An event becomes settled** inside the mutex, when its values are stored. -/
theorem settled_cases (hexec : exec env capacity op x s0 = some (a, s))
    (hmay : Permitted stage op) (h : (stage.learn op a).settled = some queued) :
    stage.settled = some queued ∨ stage = .inside queued false ∧ queued.Stored s.world := by
  cases hmay with
  | compare taken settled =>
    cases a with
    | error => exact .inl h
    | ok changes =>
      cases settled with
      | true => exact .inl h
      | false =>
        cases hunchanged : changes.unchanged with
        | false =>
          rw [Stage.learn, hunchanged] at h
          cases h
        | true =>
          rw [Stage.learn, hunchanged] at h
          cases h
          refine .inr ⟨rfl, stored_after hexec nofun ?_⟩
          exact channelStateChanges_unchanged (congrArg Prod.fst (Option.some.inj hexec)) hunchanged
  | save taken settled =>
    cases a with
    | error => exact .inl h
    | ok =>
      cases settled with
      | true => exact .inl h
      | false =>
        cases h
        refine .inr ⟨rfl, ?_⟩
        have hans := congrArg Prod.fst (Option.some.inj hexec)
        have hstate := congrArg (fun r => r.2.world.deliveries) (Option.some.inj hexec)
        rw [QueuedEventSub.Stored, ← hstate]
        exact saveChannelState_saved hans
  | unlock taken settled =>
    cases settled with
    | true => exact .inl h
    | false => cases h
  | complete =>
    rw [learn_complete] at h
    exact .inl h
  | quiet _ hquiet =>
    rw [learn_quiet hquiet] at h
    exact .inl h
  | _ => cases h

theorem channels_cases (hmay : Permitted stage op) (a : op.Ans) :
    (∃ cid, op = .server (.env (.lock (.channelState cid))) ∧
        (stage.learn op a).channels = [cid]) ∨
      (∃ cid, op = .server (.env (.unlock (.channelState cid))) ∧
        stage.channels = [cid] ∧ (stage.learn op a).channels = []) ∨
      (∀ cid, op ≠ .server (.env (.unlock (.channelState cid)))) ∧
        (stage.learn op a).channels = stage.channels := by
  cases hmay with
  | receive => exact .inr (.inr ⟨nofun, rfl⟩)
  | lock => exact .inl ⟨_, rfl, rfl⟩
  | unlock => exact .inr (.inl ⟨_, rfl, rfl, rfl⟩)
  | complete =>
    rw [learn_complete]
    exact .inr (.inr ⟨nofun, rfl⟩)
  | quiet _ hquiet =>
    rw [learn_quiet hquiet]
    refine .inr (.inr ⟨?_, rfl⟩)
    rintro cid rfl
    cases hquiet
  | _ =>
    refine .inr (.inr ⟨nofun, ?_⟩)
    cases a <;> rfl

theorem inside_cases {settled : Bool} (hmay : Permitted stage op)
    (h : stage.learn op a = .inside queued settled) :
    (∃ before, stage = .inside queued before) ∨
      stage = .taken queued ∧ queued.isChannelUpdate ∧
        op = .server (.env (.lock (.channelState queued.channelID))) := by
  cases hmay with
  | receive => cases h
  | lock taken hupd =>
    cases h
    exact .inr ⟨rfl, hupd, rfl⟩
  | unlock => cases h
  | complete =>
    rw [learn_complete] at h
    exact .inl ⟨_, h⟩
  | quiet _ hquiet =>
    rw [learn_quiet hquiet] at h
    exact .inl ⟨_, h⟩
  | _ =>
    cases a <;> cases h <;> exact .inl ⟨_, rfl⟩

theorem save_inside {cid title category : String} {now : Time}
    (h : Permitted stage (.server (.delivery (.saveChannelState cid title category now)))) :
    ∃ queued settled, stage = .inside queued settled ∧ cid = queued.channelID ∧
      title = queued.title ∧ category = queued.category := by
  generalize hop : Call.server (.delivery (.saveChannelState cid title category now)) = op at h
  cases h with
  | save queued settled =>
    cases hop
    exact ⟨queued, settled, rfl, rfl, rfl, rfl⟩
  | quiet _ hquiet =>
    rw [← hop] at hquiet
    cases hquiet
  | _ => cases hop

theorem complete_done {mid : String}
    (h : Permitted stage (.server (.delivery (.completeEventSub mid completedAt)))) :
    ∃ queued, stage.Done queued := by
  generalize hop : Call.server (.delivery (.completeEventSub mid completedAt)) = op at h
  cases h with
  | complete queued completedAt hdone => exact ⟨queued, hdone⟩
  | quiet _ hquiet =>
    rw [← hop] at hquiet
    cases hquiet
  | _ => cases hop

end Call

/-! ## One worker inside -/

/-- At most one process is inside the mutex of a channel. -/
structure Guarded (v : View Task Call Call.Ans State) : Prop where
  locked : ∀ {pid channelID}, channelID ∈ (stageOf v.hist pid).channels →
    .channelState channelID ∈ v.state.world.locked
  alone : ∀ {pid pid' channelID}, channelID ∈ (stageOf v.hist pid).channels →
    channelID ∈ (stageOf v.hist pid').channels → pid = pid'

section Step

variable {v : View Task Call Call.Ans State} {e : Event Task Call Call.Ans}

theorem Guarded.after (hv : Guarded v) (hexec : exec env capacity e.op x v.state = some (e.ans, s))
    (hmay : Permitted (stageOf v.hist e.pid) e.op) : Guarded (v.after e s) := by
  have hself := congrArg Stage.channels (stageOf_self e v.hist)
  have hother : ∀ {pid}, e.pid ≠ pid →
      (stageOf (e :: v.hist) pid).channels = (stageOf v.hist pid).channels :=
    fun hpid => congrArg Stage.channels (stageOf_other hpid v.hist)
  rcases channels_cases hmay e.ans with ⟨entered, hop, hafter⟩ |
    ⟨freed, hop, hbefore, hafter⟩ | ⟨hop, hsame⟩
  · -- the mutex was free, so nobody else is inside
    rw [hafter] at hself
    have hlock : .channelState entered ∉ v.state.world.locked ∧
        .channelState entered ∈ s.world.locked := by
      obtain ⟨pid, t, op, a⟩ := e
      cases hop
      obtain ⟨⟨b, w⟩, hcall, heq⟩ := Option.map_eq_some_iff.mp hexec
      cases heq
      exact exec_lock hcall
    have hnobody : ∀ {pid}, e.pid ≠ pid → entered ∉ (stageOf v.hist pid).channels :=
      fun _ hmem => hlock.1 (hv.locked hmem)
    constructor
    · intro pid cid hmem
      by_cases hpid : e.pid = pid
      · subst hpid
        rw [View.after_hist, hself] at hmem
        rw [mem_singleton.mp hmem]
        exact hlock.2
      · rw [View.after_hist, hother hpid] at hmem
        refine locked_after hexec ?_ (hv.locked hmem)
        rw [hop]
        nofun
    · intro pid pid' cid hmem hmem'
      rw [View.after_hist] at hmem hmem'
      by_cases hpid : e.pid = pid
      · by_cases hpid' : e.pid = pid'
        · exact hpid.symm.trans hpid'
        · rw [← hpid, hself] at hmem
          rw [hother hpid', mem_singleton.mp hmem] at hmem'
          exact absurd hmem' (hnobody hpid')
      · rw [hother hpid] at hmem
        by_cases hpid' : e.pid = pid'
        · rw [← hpid', hself] at hmem'
          rw [mem_singleton.mp hmem'] at hmem
          exact absurd hmem (hnobody hpid)
        · rw [hother hpid'] at hmem'
          exact hv.alone hmem hmem'
  · rw [hafter] at hself
    have hleft : ∀ {pid cid}, cid ∈ (stageOf (v.after e s).hist pid).channels →
        cid ∈ (stageOf v.hist pid).channels ∧ cid ≠ freed := by
      intro pid cid hmem
      rw [View.after_hist] at hmem
      by_cases hpid : e.pid = pid
      · rw [← hpid, hself] at hmem
        cases hmem
      · rw [hother hpid] at hmem
        refine ⟨hmem, fun heq => hpid (hv.alone ?_ hmem)⟩
        rw [hbefore, heq]
        exact mem_cons_self
    constructor
    · intro pid cid hmem
      obtain ⟨hinside, hne⟩ := hleft hmem
      refine locked_after hexec (fun heq => hne ?_) (hv.locked hinside)
      rw [hop] at heq
      cases heq
      rfl
    · intro pid pid' cid hmem hmem'
      exact hv.alone (hleft hmem).1 (hleft hmem').1
  · have hchannels : ∀ pid, (stageOf (v.after e s).hist pid).channels =
        (stageOf v.hist pid).channels := by
      intro pid
      by_cases hpid : e.pid = pid
      · subst hpid
        exact hself.trans hsame
      · exact hother hpid
    constructor
    · intro pid cid hmem
      rw [hchannels] at hmem
      exact locked_after hexec (hop cid) (hv.locked hmem)
    · intro pid pid' cid hmem hmem'
      rw [hchannels] at hmem hmem'
      exact hv.alone hmem hmem'

/-! ## Updates in order -/

/-- A worker took the event. -/
def Taken (hist : List (Event Task Call Call.Ans)) (queued : QueuedEventSub) : Prop :=
  ∃ pid t, (⟨pid, t, .receive, queued⟩ : Event Task Call Call.Ans) ∈ hist

/-- A worker completed the event. -/
def Completed (hist : List (Event Task Call Call.Ans)) (queued : QueuedEventSub) : Prop :=
  ∃ pid t t' completedAt old,
    (⟨pid, t, .server (.delivery (.completeEventSub queued.messageID completedAt)), .ok ()⟩ ::
      old : List (Event Task Call Call.Ans)) <:+ hist ∧
    (⟨pid, t', .receive, queued⟩ : Event Task Call Call.Ans) ∈ old

/-- A worker settled the channel's state. -/
def Settled (hist : List (Event Task Call Call.Ans)) (queued : QueuedEventSub) : Prop :=
  ∃ pid, (stageOf hist pid).settled = some queued

/-- The messages in the inbox have been received at these times. -/
def Dated (receivedAt : String → Time) (w : World) : Prop :=
  w.deliveries.eventSubInbox.Forall fun mid row => row.receivedAt = receivedAt mid

/-- The event was received last among those taken for its channel. -/
def Latest (receivedAt : String → Time) (hist : List (Event Task Call Call.Ans))
    (last : QueuedEventSub) : Prop :=
  ∀ queued, Taken hist queued → queued.isChannelUpdate →
    queued.channelID = last.channelID →
      queued = last ∨ receivedAt queued.messageID < receivedAt last.messageID

/-- No worker enters the mutex for an event when a later one of the channel has been settled. -/
def InOrder (receivedAt : String → Time) (v : View Task Call Call.Ans State)
    (e : Event Task Call Call.Ans) : Prop :=
  Dated receivedAt v.state.world ∧
    ∀ queued, stageOf v.hist e.pid = .taken queued →
      e.op = .server (.env (.lock (.channelState queued.channelID))) →
        ∀ settled, Settled v.hist settled → settled.channelID = queued.channelID →
          receivedAt settled.messageID ≤ receivedAt queued.messageID

theorem taken_of_event (h : (stageOf hist pid).event = some queued) : Taken hist queued := by
  obtain ⟨⟨pid, t, op, a⟩, old, hsuf, -, hbefore, hlearned⟩ :=
    track_learned (P := fun stage : Stage => stage.event = some queued) h nofun
  rcases event_cases hlearned with hevent | hreceive
  · exact absurd hevent hbefore
  · cases hreceive
    exact ⟨pid, t, hsuf.subset mem_cons_self⟩

theorem event_after
    (hv : ∀ pid t queued, ⟨pid, t, .receive, queued⟩ ∈ v.hist →
      (stageOf v.hist pid).event = some queued)
    (hmay : Permitted (stageOf v.hist e.pid) e.op) :
    ∀ pid t queued, ⟨pid, t, .receive, queued⟩ ∈ (v.after e s).hist →
      (stageOf (v.after e s).hist pid).event = some queued := by
  intro pid t queued hmem
  rw [View.after_hist]
  rcases mem_cons.mp hmem with rfl | hmem
  · have hself := stageOf_self ⟨pid, t, .receive, queued⟩ v.hist
    dsimp only at hmay hself
    rw [hself]
    generalize stageOf v.hist pid = stage at hmay ⊢
    cases hmay with
    | receive => rfl
    | quiet _ hquiet => cases hquiet
  · by_cases hpid : e.pid = pid
    · subst hpid
      rw [stageOf_self]
      exact event_learn (hv _ t queued hmem) e.op e.ans
    · rw [stageOf_other hpid]
      exact hv pid t queued hmem

theorem Settled.cons
    (h : Settled hist queued) (e : Event Task Call Call.Ans) : Settled (e :: hist) queued := by
  obtain ⟨pid, hsettled⟩ := h
  refine ⟨pid, ?_⟩
  by_cases hpid : e.pid = pid
  · subst hpid
    rw [stageOf_self]
    exact settled_learn hsettled e.op e.ans
  · rw [stageOf_other hpid]
    exact hsettled

theorem Settled.suffix {old : List (Event Task Call Call.Ans)}
    (h : Settled old queued) (hsuf : old <:+ hist) : Settled hist queued := by
  obtain ⟨new, rfl⟩ := hsuf
  induction new with
  | nil => exact h
  | cons e new ih => exact ih.cons e

theorem Latest.tail (h : Latest receivedAt (e :: hist) last) : Latest receivedAt hist last := by
  rintro queued ⟨pid, t, hmem⟩
  exact h queued ⟨pid, t, mem_cons_of_mem e hmem⟩

/-- Once the last event is settled its values are stored, and whoever is inside the mutex works on
it. -/
structure Upheld (last : QueuedEventSub) (v : View Task Call Call.Ans State) : Prop where
  stored : last.Stored v.state.world
  inside : ∀ {pid queued settled}, stageOf v.hist pid = .inside queued settled →
    queued.channelID = last.channelID → queued = last

theorem upheld_of_settles (hguarded : Guarded v) {settled : Bool}
    (hstage : stageOf v.hist e.pid = .inside last settled)
    (hmay : Permitted (stageOf v.hist e.pid) e.op) (hstored : last.Stored s.world) :
    Upheld last (v.after e s) := by
  refine ⟨hstored, fun {pid queued settled'} hinside hcid => ?_⟩
  rw [View.after_hist] at hinside
  by_cases hpid : e.pid = pid
  · subst hpid
    rw [stageOf_self] at hinside
    rcases inside_cases hmay hinside with ⟨before, hbefore⟩ | ⟨htaken, -⟩
    · rw [hstage] at hbefore
      cases hbefore
      rfl
    · rw [hstage] at htaken
      cases htaken
  · rw [stageOf_other hpid] at hinside
    have hmem : last.channelID ∈ (stageOf v.hist e.pid).channels := by
      rw [hstage]
      exact mem_cons_self
    have hmem' : last.channelID ∈ (stageOf v.hist pid).channels := by
      rw [hinside, ← hcid]
      exact mem_cons_self
    exact absurd (hguarded.alone hmem hmem') hpid

theorem Upheld.after (hv : Upheld last v) (hsettled : Settled v.hist last)
    (hexec : exec env capacity e.op x v.state = some (e.ans, s))
    (hmay : Permitted (stageOf v.hist e.pid) e.op) (horder : InOrder receivedAt v e)
    (hlast : Latest receivedAt v.hist last) : Upheld last (v.after e s) := by
  constructor
  · refine stored_after hexec (fun title category now hop => ?_) hv.stored
    rw [hop] at hmay
    obtain ⟨queued, settled, hstage, hcid, rfl, rfl⟩ := save_inside hmay
    rw [hv.inside hstage hcid.symm]
    exact ⟨rfl, rfl⟩
  · intro pid queued settled hstage hcid
    rw [View.after_hist] at hstage
    by_cases hpid : e.pid = pid
    · subst hpid
      rw [stageOf_self] at hstage
      rcases inside_cases hmay hstage with ⟨before, hbefore⟩ | ⟨htaken, hupd, hop⟩
      · exact hv.inside hbefore hcid
      · -- an older event does not get in after the last one
        have hle := horder.2 queued htaken hop last hsettled hcid.symm
        have htook := taken_of_event (congrArg Stage.event htaken)
        rcases hlast queued htook hupd hcid with heq | hlt
        · exact heq
        · exact absurd hle (not_le_of_gt hlt)
    · rw [stageOf_other hpid] at hstage
      exact hv.inside hstage hcid

theorem upheld_after (hguarded : Guarded v)
    (hv : Latest receivedAt v.hist last → Settled v.hist last → Upheld last v)
    (hexec : exec env capacity e.op x v.state = some (e.ans, s))
    (hmay : Permitted (stageOf v.hist e.pid) e.op) (horder : InOrder receivedAt v e)
    (hlast : Latest receivedAt (v.after e s).hist last)
    (hsettled : Settled (v.after e s).hist last) : Upheld last (v.after e s) := by
  have hbefore := hlast.tail
  by_cases hearlier : Settled v.hist last
  · exact (hv hbefore hearlier).after hearlier hexec hmay horder hbefore
  · obtain ⟨pid, hpid⟩ := hsettled
    rw [View.after_hist] at hpid
    by_cases hself : e.pid = pid
    · subst hself
      rw [stageOf_self] at hpid
      rcases settled_cases hexec hmay hpid with hsame | ⟨hstage, hstored⟩
      · exact absurd ⟨e.pid, hsame⟩ hearlier
      · exact upheld_of_settles hguarded hstage hmay hstored
    · rw [stageOf_other hself] at hpid
      exact absurd ⟨pid, hpid⟩ hearlier

end Step

/-! ## Every run -/

section Run

variable {world : World} {c : Config Task Call Call.Ans State}

theorem ensures_permitted :
    (system env capacity).Ensures (start world) G fun v e =>
      G v e ∧ Permitted (stageOf v.hist e.pid) e.op :=
  ensures_follows (S := system env capacity) (fun t => follows_stages env t) rfl rfl

theorem guarded_start (world : World) : Guarded (start world).toView :=
  ⟨fun hmem => (nomatch hmem), fun hmem => (nomatch hmem)⟩

theorem event_of_taken
    (h : (system env capacity).Steps G (start world) c)
    (hmem : ⟨pid, t, .receive, queued⟩ ∈ c.hist) :
    (stageOf c.hist pid).event = some queued := by
  refine (ensures_permitted.steps .refl h).view_invariant
    (I := fun v => ∀ pid t queued, ⟨pid, t, .receive, queued⟩ ∈ v.hist →
      (stageOf v.hist pid).event = some queued) ?_ ?_ pid t queued hmem
  · intro v e x s hv hexec hG
    exact event_after hv hG.2
  · intro pid t queued hmem
    cases hmem

theorem settled_of_completed (h : (system env capacity).Steps G (start world) c)
    (hupd : queued.isChannelUpdate) (hcompleted : Completed c.hist queued) :
    Settled c.hist queued := by
  obtain ⟨pid, t, t', completedAt, old, hsuf, hreceive⟩ := hcompleted
  obtain ⟨c1, c2, x, s, hbefore, -, -, rfl, -, -, -, hmay⟩ :=
    (ensures_permitted.steps .refl h).moment hsuf nil_suffix
  have hevent := event_of_taken hbefore hreceive
  obtain ⟨done, hdone⟩ := complete_done hmay
  refine Settled.suffix ⟨pid, ?_⟩ ((suffix_cons _ _).trans hsuf)
  rcases hdone with hleft | ⟨htaken, hother⟩
  · rw [hleft] at hevent ⊢
    exact hevent
  · rw [htaken] at hevent
    cases hevent
    rw [hupd] at hother
    cases hother

/-- **The state of a channel is that of the last event**, once this event is completed, where no
worker takes the mutex of a channel for an event after a later one of the channel was settled. -/
theorem stored_state_is_last (h : (system env capacity).Steps (InOrder receivedAt) (start world) c)
    (hupd : last.isChannelUpdate) (hcompleted : Completed c.hist last)
    (hlast : Latest receivedAt c.hist last) : last.Stored c.state.world := by
  have hupheld : Guarded c.toView ∧
      (Latest receivedAt c.hist last → Settled c.hist last → Upheld last c.toView) := by
    refine (ensures_permitted.steps .refl h).view_invariant
      (I := fun v => Guarded v ∧
        (Latest receivedAt v.hist last → Settled v.hist last → Upheld last v)) ?_ ?_
    · rintro v e x s ⟨hguarded, hv⟩ hexec ⟨horder, hmay⟩
      exact ⟨hguarded.after hexec hmay, upheld_after hguarded hv hexec hmay horder⟩
    · refine ⟨guarded_start world, ?_⟩
      rintro - ⟨pid, hsettled⟩
      cases hsettled
  exact (hupheld.2 hlast (settled_of_completed h hupd hcompleted)).stored

end Run

/-! ## Runs -/

/-- The events that workers took. -/
def takenEvents (hist : List (Event Task Call Call.Ans)) : List QueuedEventSub :=
  hist.filterMap fun e => match e with
    | ⟨_, _, .receive, queued⟩ => some queued
    | _ => none

theorem mem_takenEvents (h : Taken hist queued) : queued ∈ takenEvents hist := by
  obtain ⟨pid, t, hmem⟩ := h
  exact mem_filterMap.mpr ⟨_, hmem, rfl⟩

theorem completed_of_get
    {n m : Nat} {t' : Task}
    (hcomp : (hist.drop n).head? = some ⟨pid, t, .server (.delivery
      (.completeEventSub queued.messageID completedAt)), .ok ()⟩)
    (hreceive : (hist.drop n).tail[m]? = some ⟨pid, t', .receive, queued⟩) :
    Completed hist queued := by
  refine ⟨pid, t, t', completedAt, (hist.drop n).tail, ?_, mem_of_getElem? hreceive⟩
  rw [cons_head?_tail hcomp]
  exact drop_suffix n hist

/-- The inbox has the times of arrival. -/
def dated (receivedAt : String → Time) (w : World) : Bool :=
  w.deliveries.eventSubInbox.entries.all fun entry => entry.2.receivedAt == receivedAt entry.1

theorem dated_of_check {w : World} (h : dated receivedAt w) : Dated receivedAt w := by
  intro mid row hrow
  have hentry := all_eq_true.mp h _ (Table.mem_entries_iff.mpr hrow)
  exact beq_iff_eq.mp hentry

/-- Nothing settled was received after the event of this process. -/
def ordered (receivedAt : String → Time) (v : View Task Call Call.Ans State)
    (e : Event Task Call Call.Ans) : Bool :=
  dated receivedAt v.state.world &&
    match stageOf v.hist e.pid with
    | .taken queued => v.hist.all fun e' =>
      (stageOf v.hist e'.pid).settled.all fun settled =>
        decide (receivedAt settled.messageID ≤ receivedAt queued.messageID)
    | _ => true

theorem inOrder_of_ordered (v : View Task Call Call.Ans State)
    (e : Event Task Call Call.Ans) (h : ordered receivedAt v e) :
    InOrder receivedAt v e := by
  rw [ordered, Bool.and_eq_true] at h
  refine ⟨dated_of_check h.1, fun queued htaken _ settled hsettled _ => ?_⟩
  obtain ⟨pid, hpid⟩ := hsettled
  have hall := h.2
  rw [htaken] at hall
  by_cases hcall : ∃ e' ∈ v.hist, e'.pid = pid
  · obtain ⟨e', he', rfl⟩ := hcall
    have hle := all_eq_true.mp hall e' he'
    rw [hpid] at hle
    exact of_decide_eq_true hle
  · have hidle : stageOf v.hist pid = .idle :=
      track_of_no_call fun e' he' hpid' => hcall ⟨e', he', hpid'⟩
    rw [hidle] at hpid
    cases hpid

/-- An update of the title. -/
def channelUpdate (messageID title : String) : QueuedEventSub :=
  ⟨messageID,
    { subscription := { type := "channel.update" }
      event := [("broadcaster_user_id", .str "channel"), ("title", .str title),
        ("category_name", .str "Chess")] }⟩

/-- The first update. -/
def older : QueuedEventSub := channelUpdate "older" "before"

/-- The second update. -/
def newer : QueuedEventSub := channelUpdate "newer" "after"

/-- When they arrived. -/
def twoReceived (messageID : String) : Time := if messageID = "newer" then 2 else 1

theorem newer_latest (h : takenEvents hist = [newer, older]) : Latest twoReceived hist newer := by
  intro queued htaken _ _
  have hmem := mem_takenEvents htaken
  rw [h] at hmem
  rcases mem_pair.mp hmem with rfl | rfl
  · exact .inl rfl
  · exact .inr (by decide)

/-- Both are in the queue. -/
def bothQueued : List (Move Task Choice) :=
  .spawn (.webhook "older" older.envelope) :: List.replicate 5 (.call 0 { now := 1 }) ++
    .spawn (.webhook "newer" newer.envelope) :: List.replicate 5 (.call 1 { now := 2 })

/-- The workers process the updates in the order in which they were received. -/
theorem updates_in_order_keep_last :
    ∃ c, (system .mem 2).Steps (InOrder twoReceived) (start {}) c ∧
      Completed c.hist newer ∧ Latest twoReceived c.hist newer ∧ newer.Stored c.state.world := by
  have hplay : ((system .mem 2).play (ordered twoReceived)
      (bothQueued ++ .spawn .worker :: List.replicate 15 (.call 2 {}) ++
        .spawn .worker :: List.replicate 17 (.call 3 {})) (start {})).map
        (fun c => (takenEvents c.hist, (c.hist.drop 0).head?, (c.hist.drop 0).tail[15]?)) =
      some ([newer, older], some ⟨3, .worker, .server (.delivery
        (.completeEventSub newer.messageID 1)), .ok ()⟩, some ⟨3, .worker, .receive, newer⟩) := rfl
  obtain ⟨c, hsteps, hres⟩ := play_map hplay
  simp only [Prod.mk.injEq] at hres
  obtain ⟨htaken, hcomp, hreceive⟩ := hres
  have horder := hsteps.mono inOrder_of_ordered
  have hcompleted := completed_of_get hcomp hreceive
  have hlast := newer_latest htaken
  exact ⟨c, horder, hcompleted, hlast, stored_state_is_last horder rfl hcompleted hlast⟩

/-- The second worker is faster and saves the newer values; the first one saves its own over
them. -/
theorem older_update_overwrites :
    ∃ c, (system .mem 2).Steps (fun v _ => Dated twoReceived v.state.world)
        (start {}) c ∧
      Completed c.hist older ∧ Completed c.hist newer ∧ Latest twoReceived c.hist newer ∧
      older.Stored c.state.world ∧ ¬newer.Stored c.state.world := by
  have hplay : ((system .mem 2).play (fun v _ => dated twoReceived v.state.world)
      (bothQueued ++ [.spawn .worker, .call 2 {}] ++
        .spawn .worker :: List.replicate 15 (.call 3 {}) ++ List.replicate 16 (.call 2 {}))
      (start {})).map
        (fun c => (takenEvents c.hist, (c.hist.drop 0).head?, (c.hist.drop 0).tail[30]?,
          (c.hist.drop 16).head?, (c.hist.drop 16).tail[13]?,
          c.state.world.deliveries.channelStates.lookup "channel")) =
      some ([newer, older],
        some ⟨2, .worker, .server (.delivery (.completeEventSub older.messageID 1)), .ok ()⟩,
        some ⟨2, .worker, .receive, older⟩,
        some ⟨3, .worker, .server (.delivery (.completeEventSub newer.messageID 1)), .ok ()⟩,
        some ⟨3, .worker, .receive, newer⟩, some ⟨"before", "Chess", 1⟩) := rfl
  obtain ⟨c, hsteps, hres⟩ := play_map hplay
  simp only [Prod.mk.injEq] at hres
  obtain ⟨htaken, holder, holder', hnewer, hnewer', hstate⟩ := hres
  refine ⟨c, hsteps.mono fun _ _ => dated_of_check, completed_of_get holder holder',
    completed_of_get hnewer hnewer', newer_latest htaken, ⟨_, hstate, rfl, rfl⟩, ?_⟩
  rintro ⟨state, hnew, htitle, -⟩
  cases hstate.symm.trans hnew
  exact absurd htitle (by decide)

end Pipeline

end Ferventio
