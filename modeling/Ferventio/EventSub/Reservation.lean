import Ferventio.EventSub.Pipeline
import Ferventio.Lib.Custody
import Ferventio.Server.Tasks

/-!
# Reservations

A reservation in `eventInFlight` has one holder at a time: a scheduler that has not sent the message
yet, the queue, or the worker that has received it. It is handed on and given back, also when the
queue is full and when the worker's code panics (**`messages_exclusive`**).
-/

namespace Ferventio

open List System

namespace Pipeline

variable {pid : Nat} {G : Condition Task Call Call.Ans State} {call : Ferventio.Call}
  {mid : String}

/-! ## What a task holds -/

/-- Where a process is with its message. -/
inductive Phase
  | idle
  | reserved (messageID : String)
  | working (messageID : String)
  | finished (messageID : String) (ok : Bool)
  | released (messageID : String) (ok : Bool)
  | completed (messageID : String) (saved : Bool)

namespace Phase

/-- The phase after a call. -/
def learn : Phase → (call : Call) → call.Ans → Phase
  | idle, .reserveEventSub messageID, true => reserved messageID
  | reserved _, .send _, true => idle
  | reserved _, .server (.env (.releaseEventSub _)), _ => idle
  | idle, .receive, queued => working queued.messageID
  | working messageID, .returned _ ok, _ => finished messageID ok
  | finished messageID ok, .server (.env (.releaseEventSub _)), _ => released messageID ok
  | released messageID _, .server (.delivery (.completeEventSub _ _)), .ok () =>
    completed messageID true
  | released messageID _, .server (.delivery (.completeEventSub _ _)), .error _ =>
    completed messageID false
  | p, _, _ => p

/-- The message that is reserved. -/
def holds : Phase → Option String
  | reserved messageID => some messageID
  | working messageID => some messageID
  | finished messageID _ => some messageID
  | _ => none

/-- The message in processing. -/
def processes : Phase → Option String
  | working messageID => some messageID
  | finished messageID _ => some messageID
  | _ => none

end Phase

/-- The calls that have nothing to do with the queue. -/
def neutral : Ferventio.Call → Bool
  | .env (.releaseEventSub _) => false
  | .delivery (.completeEventSub _ _) => false
  | _ => true

/-- The calls of a phase. -/
inductive Allowed : Phase → Call → Prop
  | reserve (mid : String) : Allowed .idle (.reserveEventSub mid)
  | send (queued : QueuedEventSub) : Allowed (.reserved queued.messageID) (.send queued)
  | giveBack (mid : String) :
    Allowed (.reserved mid) (.server (.env (.releaseEventSub mid)))
  | receive : Allowed .idle .receive
  | panics (p : Phase) : Allowed p .panics
  | returned (mid : String) (ok : Bool) :
    Allowed (.working mid) (.returned mid ok)
  | release (mid : String) (ok : Bool) :
    Allowed (.finished mid ok) (.server (.env (.releaseEventSub mid)))
  | complete (mid : String) (completedAt : Time) :
    Allowed (.released mid true) (.server (.delivery (.completeEventSub mid completedAt)))
  | neutral (p : Phase) {call : Ferventio.Call} (h : neutral call) :
    Allowed p (.server call)

/-- The phase of a process. -/
def phase (hist : List (Event Task Call Call.Ans)) (pid : Nat) : Phase :=
  track .idle (fun _ : Task => Phase.learn) hist pid

theorem phase_self (e : Event Task Call Call.Ans) (hist : List (Event Task Call Call.Ans)) :
    phase (e :: hist) e.pid = (phase hist e.pid).learn e.op e.ans :=
  track_self e hist

theorem phase_other {e : Event Task Call Call.Ans} (h : e.pid ≠ pid)
    (hist : List (Event Task Call Call.Ans)) : phase (e :: hist) pid = phase hist pid :=
  track_other h hist

theorem learn_neutral (h : neutral call) (p : Phase)
    (a : call.Ans) : p.learn (.server call) a = p := by
  cases call with
  | env call =>
    cases call with
    | releaseEventSub => cases h
    | _ => cases p <;> rfl
  | delivery call =>
    cases call with
    | completeEventSub => cases h
    | _ => cases p <;> rfl
  | _ => cases p <;> rfl

theorem learn_panics (p : Phase) (panicked : Bool) : p.learn .panics panicked = p := by
  cases p <;> rfl

theorem neutral_of_effect (hrel : call.effect ≠ .release)
    (hcomp : call.effect ≠ .complete) : neutral call := by
  unfold neutral
  split
  · exact absurd rfl hrel
  · exact absurd rfl hcomp
  · rfl

theorem eventInFlightAfter_neutral (h : neutral call)
    (ids : List String) : eventInFlightAfter ids call = ids := by
  unfold eventInFlightAfter
  split
  · cases h
  · rfl

/-! ## The code -/

section Code

variable {α : Type} {p : Phase}

/-- A program that starts in one phase and returns in another. -/
abbrev Leads (prog : Code α) (p : Phase) (post : α → Phase → Prop) : Prop :=
  Follows Phase.learn Allowed post prog p

theorem leads_neutral {f : call.Ans → Code α} {post : α → Phase → Prop}
    (hcall : neutral call) (h : ∀ a, Leads (f a) p post) :
    Leads (Prog.perform (Call.server call) >>= f) p post := by
  refine Follows.perform_bind (.neutral p hcall) fun a => ?_
  rw [learn_neutral hcall]
  exact h a

/-- Only calls that have nothing to do with the queue. -/
def Neutral (prog : Handler α) : Prop := prog.Only (fun call => neutral call = true) fun _ _ => True

theorem neutral_of_within {effects : List Effect} {prog : Handler α} (h : Within effects prog)
    (heffs : effects.contains .release = false ∧ effects.contains .complete = false) :
    Neutral prog := by
  refine Prog.Only.mono (fun call hcall => neutral_of_effect ?_ ?_) h
  · intro hrel
    rw [hrel, heffs.1] at hcall
    cases hcall
  · intro hcomp
    rw [hcomp, heffs.2] at hcall
    cases hcall

theorem leads_lift {prog : Handler α} (h : Neutral prog) :
    Leads (lift prog) p fun _ p' => p' = p := by
  induction prog with
  | ret a => rfl
  | call call k ih =>
    refine ⟨.neutral p h.1, fun a => ?_⟩
    rw [learn_neutral h.1]
    exact ih a (h.2 a trivial)

theorem leads_unlockAll (held : List Mutex) : Leads (unlockAll held) p fun _ p' => p' = p := by
  induction held with
  | nil => rfl
  | cons mutex held ih =>
    refine ⟨.neutral p rfl, fun a => ?_⟩
    rw [learn_neutral rfl]
    exact ih

theorem leads_protect {prog : Handler α} (h : Neutral prog) (held : List Mutex) :
    Leads (protect held prog) p fun _ p' => p' = p := by
  induction prog generalizing held with
  | ret a => rfl
  | call call k ih =>
    refine ⟨.panics p, fun panicked => ?_⟩
    rw [learn_panics]
    cases panicked with
    | true => exact Follows.bind (leads_unlockAll held) fun _ _ hp => hp
    | false =>
      refine ⟨.neutral p h.1, fun a => ?_⟩
      rw [learn_neutral h.1]
      exact ih a (h.2 a trivial) _

theorem leads_scheduleEventSub (row : EventSubInboxRecord) :
    Leads (scheduleEventSub row) .idle fun _ p' => p' = .idle := by
  rw [scheduleEventSub]
  split
  · rfl
  · refine Follows.perform_bind (.reserve _) fun reserved => ?_
    cases reserved with
    | false => rfl
    | true =>
      refine Follows.perform_bind (.send ⟨row.messageID, row.envelope⟩) fun sent => ?_
      cases sent with
      | true => rfl
      | false => exact Follows.perform_bind (.giveBack _) fun _ => rfl

theorem leads_schedulePending (row : Option EventSubInboxRecord) :
    Leads (schedulePending row) .idle fun _ p' => p' = .idle := by
  cases row with
  | none => rfl
  | some row =>
    rw [schedulePending]
    split
    · exact Follows.bind (leads_scheduleEventSub row) fun _ _ hp => hp
    · rfl

theorem leads_respond (status : Nat) (text : String) :
    Leads (respond status text) p fun _ p' => p' = p :=
  ⟨.neutral p rfl, fun _ => learn_neutral rfl p _⟩

theorem leads_webhookNotification (mid : String) (envelope : EventSubEnvelope) :
    Leads (webhookNotification mid envelope) .idle fun _ p' => p' = .idle := by
  refine leads_neutral rfl fun now => leads_neutral rfl fun ans => ?_
  cases ans with
  | error => exact leads_respond _ _
  | ok result =>
    refine Follows.bind (leads_schedulePending result.1) fun _ p hp => ?_
    rw [hp]
    exact leads_respond _ _

theorem leads_enqueueUserChatEvent (message : UserChatMessage) :
    Leads (enqueueUserChatEvent message) .idle fun _ p' => p' = .idle := by
  rw [enqueueUserChatEvent]
  split
  · rfl
  · refine leads_neutral rfl fun now => leads_neutral rfl fun ans => ?_
    cases ans with
    | error => rfl
    | ok result => exact Follows.bind (leads_schedulePending result.1) fun _ _ hp => hp

theorem leads_scheduleEach (rows : List EventSubInboxRecord) :
    Leads (scheduleEach rows) .idle fun _ p' => p' = .idle := by
  induction rows with
  | nil => rfl
  | cons row rows ih =>
    refine Follows.bind (leads_scheduleEventSub row) fun _ p hp => ?_
    rw [hp]
    exact ih

theorem leads_drain : Leads drain .idle fun _ p' => p' = .idle := by
  refine leads_neutral rfl fun now => leads_neutral rfl fun rows => ?_
  exact leads_scheduleEach rows

theorem leads_adminRetryEventSubInbox (mid : String) :
    Leads (adminRetryEventSubInbox mid) .idle fun _ p' => p' = .idle := by
  rw [adminRetryEventSubInbox]
  split
  · exact leads_respond _ _
  · refine leads_neutral rfl fun now1 => leads_neutral rfl fun ans => ?_
    cases ans with
    | error =>
      dsimp only
      split <;> exact leads_respond _ _
    | ok retried =>
      refine leads_neutral rfl fun now2 => leads_neutral rfl fun rows => ?_
      split
      · exact leads_respond _ _
      · rename_i row _
        refine Follows.bind (leads_scheduleEventSub row) fun _ p hp => ?_
        rw [hp]
        exact leads_respond _ _

/-- **A worker** has given its reservation back when it returns, also after a panic. -/
theorem leads_worker (env : Env) : Leads (worker env) .idle fun _ p' => p'.holds = none := by
  refine Follows.perform_bind .receive fun queued => ?_
  have hprocess := neutral_of_within
    (processEventSubNotification_within env queued.messageID queued.envelope) ⟨rfl, rfl⟩
  refine Follows.bind (leads_protect hprocess []) fun result p hp => ?_
  rw [hp]
  refine Follows.perform_bind (.returned _ _) fun _ => ?_
  refine Follows.perform_bind (.release _ _) fun _ => ?_
  refine leads_neutral rfl fun now => ?_
  cases hres : processError result with
  | some => exact leads_neutral rfl fun _ => rfl
  | none =>
    refine Follows.perform_bind ?_ fun ans => ?_
    · exact .complete _ _
    · cases ans <;> rfl

theorem follows_code (env : Env) (t : Task) :
    Follows Phase.learn Allowed (fun _ p => p.holds = none) (code env t) .idle := by
  cases t with
  | webhook mid envelope =>
    exact Follows.mono (leads_webhookNotification mid envelope) fun _ _ => congrArg Phase.holds
  | chat message =>
    rw [code]
    refine Follows.bind (leads_enqueueUserChatEvent message) fun _ p hp => ?_
    exact congrArg Phase.holds hp
  | drainer => exact Follows.mono leads_drain fun _ _ => congrArg Phase.holds
  | adminRetry mid =>
    rw [code]
    exact Follows.mono (leads_adminRetryEventSubInbox mid) fun _ _ => congrArg Phase.holds
  | worker => exact leads_worker env
  | other task h =>
    have heffs : task.effects.contains .release = false ∧
        task.effects.contains .complete = false := by
      cases task <;> first | exact ⟨rfl, rfl⟩ | cases h
    have hlift := leads_lift (p := .idle) (neutral_of_within (code_within env task) heffs)
    exact Follows.mono hlift fun _ _ => congrArg Phase.holds

end Code

/-! ## One holder at a time -/

/-- The messages in the queue. -/
def queuedIDs (s : State) : List String := s.eventQueue.map (·.messageID)

/-- Who has which message. -/
def custody (v : View Task Call Call.Ans State) : Custody String where
  reserved := v.state.world.eventInFlight
  queue := queuedIDs v.state
  holder pid := (phase v.hist pid).holds

section Step

variable {env : Env} {capacity : Nat} {v : View Task Call Call.Ans State}
  {e : Event Task Call Call.Ans} {x : Choice} {s : State}

theorem custody_after_eq {p : Phase} (hphase : phase v.hist e.pid = p) :
    custody (v.after e s) =
      { reserved := s.world.eventInFlight
        queue := queuedIDs s
        holder := Function.update (custody v).holder e.pid (p.learn e.op e.ans).holds } := by
  have hholder : (custody (v.after e s)).holder =
      Function.update (custody v).holder e.pid (p.learn e.op e.ans).holds := by
    funext pid
    by_cases hpid : pid = e.pid
    · rw [hpid, Function.update_self, ← hphase, ← phase_self]
      rfl
    · rw [Function.update_of_ne hpid]
      exact congrArg Phase.holds (phase_other (Ne.symm hpid) v.hist)
  rw [← hholder]
  rfl

theorem custody_after_same {p : Phase} (hphase : phase v.hist e.pid = p)
    (hreserved : s.world.eventInFlight = v.state.world.eventInFlight)
    (hqueue : s.eventQueue = v.state.eventQueue) (hholds : (p.learn e.op e.ans).holds = p.holds) :
    Custody.Step (custody v) (custody (v.after e s)) := by
  have hholder : (p.learn e.op e.ans).holds = (custody v).holder e.pid := by
    rw [hholds, ← hphase]
    rfl
  have hsame : custody (v.after e s) = custody v := by
    rw [custody_after_eq hphase, hholder, Function.update_eq_self, hreserved, queuedIDs, hqueue]
    rfl
  rw [hsame]
  exact .stay _

theorem custody_after (hexec : exec env capacity e.op x v.state = some (e.ans, s))
    (hok : Allowed (phase v.hist e.pid) e.op) :
    Custody.Step (custody v) (custody (v.after e s)) := by
  have hhands : (custody v).holder e.pid = (phase v.hist e.pid).holds := rfl
  obtain ⟨pid, t, op, a⟩ := e
  dsimp only at hexec hok hhands
  generalize hphase : phase v.hist pid = p at hok hhands
  cases hok with
  | reserve mid =>
    rw [exec] at hexec
    split at hexec
    · cases hexec
      exact custody_after_same hphase rfl rfl rfl
    · rename_i hfree
      cases hexec
      rw [custody_after_eq hphase]
      exact .reserve pid hfree hhands
  | send =>
    rw [exec] at hexec
    split at hexec
    · cases hexec
      rw [custody_after_eq hphase, queuedIDs, map_append]
      exact .send pid hhands
    · cases hexec
      exact custody_after_same hphase rfl rfl rfl
  | receive =>
    rw [exec] at hexec
    split at hexec
    · cases hexec
    · rename_i queued rest hqueue
      cases hexec
      rw [custody_after_eq hphase]
      exact .receive pid (congrArg (List.map _) hqueue) hhands
  | panics =>
    cases hexec
    exact custody_after_same hphase rfl rfl (congrArg Phase.holds (learn_panics p _))
  | returned =>
    cases hexec
    exact custody_after_same hphase rfl rfl rfl
  | complete mid completedAt =>
    cases hexec
    refine custody_after_same hphase rfl rfl ?_
    dsimp only
    generalize (execDelivery env x.toChoice (.completeEventSub mid completedAt) _).1 = ans
    cases ans <;> rfl
  | @neutral _ call h =>
    obtain ⟨⟨a', w⟩, hcall, heq⟩ := Option.map_eq_some_iff.mp hexec
    cases heq
    refine custody_after_same hphase ?_ rfl ?_
    · exact (exec_eventInFlight hcall).trans (eventInFlightAfter_neutral h _)
    · dsimp only
      rw [learn_neutral h]
  | _ =>
    cases hexec
    rw [custody_after_eq hphase]
    exact .release pid hhands

end Step

/-! ## Every run -/

/-- The messages that the workers process. -/
def processingIDs (c : Config Task Call Call.Ans State) : List String :=
  (List.range c.procs.length).filterMap fun pid => (phase c.hist pid).processes

theorem Phase.holds_of_processes {p : Phase} (h : p.processes = some mid) : p.holds = some mid := by
  cases p <;> first | exact h | cases h

theorem Phase.cases_holds {p : Phase} (h : p.holds = some mid) :
    p = .reserved mid ∨ p.processes = some mid := by
  cases p <;> cases h
  · exact .inl rfl
  · exact .inr rfl
  · exact .inr rfl

section Run

variable {env : Env} {capacity : Nat} {world : World} {c : Config Task Call Call.Ans State}

theorem system_follows (t : Task) :
    Follows Phase.learn Allowed (fun _ p => p.holds = none) ((system env capacity).code t)
      .idle :=
  follows_code env t

theorem ensures_allowed :
    (system env capacity).Ensures (start world) G fun v e =>
      G v e ∧ Allowed (phase v.hist e.pid) e.op :=
  ensures_follows system_follows rfl rfl

theorem custody_exclusive
    (h : (system env capacity).Steps G (start world) c) : (custody c.toView).Exclusive := by
  refine (ensures_allowed.steps .refl h).view_invariant (I := fun v => (custody v).Exclusive) ?_ ?_
  · intro v e x s hv hexec hG
    exact (custody_after hexec hG.2).exclusive hv
  · refine ⟨nodup_nil, fun k hk => ?_, fun hholds => ?_, fun hholds _ => ?_, fun k hk => ?_⟩
    · cases hk
    · cases hholds
    · cases hholds
    · cases hk

theorem holder_runs (h : (system env capacity).Steps (fun _ _ => True) (start world) c)
    (hholds : (phase c.hist pid).holds = some mid) :
    ∃ t op k, c.procs[pid]? = some ⟨t, .call op k⟩ := by
  obtain ⟨hfollows, hfresh⟩ := h.follows system_follows rfl rfl
  have hlt : pid < c.procs.length := by
    by_contra hge
    have hidle : phase c.hist pid = .idle := hfresh pid (Nat.le_of_not_lt hge)
    rw [hidle] at hholds
    cases hholds
  have hproc := List.getElem?_eq_getElem hlt
  generalize c.procs[pid] = proc at hproc
  obtain ⟨t, code⟩ := proc
  cases code with
  | ret =>
    have hnone : (phase c.hist pid).holds = none := hfollows pid _ hproc
    rw [hnone] at hholds
    cases hholds
  | call op k => exact ⟨t, op, k, hproc⟩

theorem mem_processingIDs :
    mid ∈ processingIDs c ↔ ∃ pid < c.procs.length, (phase c.hist pid).processes = some mid := by
  rw [processingIDs, mem_filterMap]
  simp only [mem_range]

/-- **One holder for each message.** The queued messages and those in process are different and
reserved; every other reservation is in the hands of a scheduler that has not returned. -/
theorem messages_exclusive (h : (system env capacity).Steps (fun _ _ => True) (start world) c) :
    (queuedIDs c.state ++ processingIDs c).Nodup ∧
      (∀ mid ∈ queuedIDs c.state ++ processingIDs c,
        mid ∈ c.state.world.eventInFlight) ∧
      (∀ mid ∈ c.state.world.eventInFlight,
        mid ∈ queuedIDs c.state ++ processingIDs c ∨
          ∃ pid, phase c.hist pid = .reserved mid) ∧
      ∀ pid, (phase c.hist pid).holds ≠ none → ∃ t op k, c.procs[pid]? = some ⟨t, .call op k⟩ := by
  have hc := custody_exclusive h
  have hholds : ∀ {pid mid}, (phase c.hist pid).processes = some mid →
      (custody c.toView).holder pid = some mid := Phase.holds_of_processes
  have hprocessing : (processingIDs c).Nodup := by
    refine List.Nodup.filterMap (fun pid pid' mid hpid hpid' => ?_) nodup_range
    exact hc.once (hholds hpid) (hholds hpid')
  refine ⟨?_, ?_, ?_, ?_⟩
  · refine List.Nodup.append hc.nodup hprocessing fun mid hqueued hprocessed => ?_
    obtain ⟨pid, -, hpid⟩ := mem_processingIDs.mp hprocessed
    exact (hc.held (hholds hpid)).2 hqueued
  · intro mid hmem
    rcases mem_append.mp hmem with hqueued | hprocessed
    · exact hc.queued mid hqueued
    · obtain ⟨pid, -, hpid⟩ := mem_processingIDs.mp hprocessed
      exact (hc.held (hholds hpid)).1
  · intro mid hreserved
    rcases hc.somewhere mid hreserved with hqueued | ⟨pid, hpid⟩
    · exact .inl (mem_append_left _ hqueued)
    · rcases Phase.cases_holds hpid with hphase | hprocesses
      · exact .inr ⟨pid, hphase⟩
      · obtain ⟨t, op, k, hproc⟩ := holder_runs h hpid
        have hlt := (List.getElem?_eq_some_iff.mp hproc).1
        exact .inl (mem_append_right _ (mem_processingIDs.mpr ⟨pid, hlt, hprocesses⟩))
  · intro pid hpid
    obtain ⟨mid, hpid⟩ := Option.ne_none_iff_exists'.mp hpid
    exact holder_runs h hpid

end Run

/-- One message in process, one in the queue, and one reserved. -/
theorem threeMessages_exclusive :
    ∃ c, (system .mem 1).Steps (fun _ _ => True) (start {}) c ∧
      queuedIDs c.state = ["b"] ∧ processingIDs c = ["a"] ∧
      c.state.world.eventInFlight = ["c", "b", "a"] ∧
      (queuedIDs c.state ++ processingIDs c).Nodup := by
  have hplay : ((system .mem 1).play (fun _ _ => true)
      (.spawn (.webhook "a" {}) :: List.replicate 5 (.call 0 {}) ++
        .spawn .worker :: List.replicate 3 (.call 1 {}) ++
        .spawn (.webhook "b" {}) :: List.replicate 5 (.call 2 {}) ++
        .spawn (.webhook "c" {}) :: List.replicate 3 (.call 3 {})) (start {})).map
      (fun c => (queuedIDs c.state, processingIDs c, c.state.world.eventInFlight)) =
        some (["b"], ["a"], ["c", "b", "a"]) := rfl
  obtain ⟨c, hsteps, hres⟩ := play_map hplay
  simp only [Prod.mk.injEq] at hres
  have hrun : (system .mem 1).Steps (fun _ _ => True) (start {}) c :=
    hsteps.mono fun _ _ _ => trivial
  exact ⟨c, hrun, hres.1, hres.2.1, hres.2.2, (messages_exclusive hrun).1⟩

end Pipeline

end Ferventio
