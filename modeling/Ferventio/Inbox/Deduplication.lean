import Ferventio.Inbox.Transactions

/-!
# Deduplication

A message that has been completed must not come back into the inbox. `EnqueueEventSub` asks
`eventsub_seen` first, but between that question and its insertion a `CompleteEventSub` may remove
the inbox row and commit; the insertion then finds no row to conflict with.

* **`completed_stays_out`**: where this does not happen, a completed message stays out.
* **`overtaken_enqueue_restores_message`**: otherwise it comes back.
-/

namespace Ferventio

namespace Inbox

open Transact Strings List

variable {w : Key × Option Row} {tx : Nat} {messageID : String}

/-- The database of the inbox. -/
abbrev State := Database Key Row

/-- A condition on steps. -/
abbrev Condition := System.Condition Task Call (TxCall.Ans Query.Ans) State

/-- An event of a task. -/
abbrev TaskEvent := Event Task Call (TxCall.Ans Query.Ans)

/-- The state and the history. -/
abbrev TaskView := View Task Call (TxCall.Ans Query.Ans) State

/-! ## Phases -/

/-- How far a method has come; `before` is when old messages end. -/
inductive Phase
  | idle
  | failed
  | begun (before : Time)
  | cleaned (before : Time)
  | known (before : Time)
  | unseen (before : Time) (messageID : String)
  | queued (before : Time) (messageID : String)
  | completing
  | removed (messageID : String)
  | recorded (messageID : String) (seenAt : Time) (removed : Bool)

namespace Phase

/-- What an answer tells a transaction. -/
def learn : Phase → (query : Query) → query.Ans → Phase
  | begun before, .cleanSeen _, _ => cleaned before
  | cleaned before, .seen _, true => known before
  | cleaned before, .seen messageID, false => unseen before messageID
  | unseen before messageID, .insertInbox _, some _ => queued before messageID
  | unseen before _, .insertInbox _, none => known before
  | completing, .deleteInbox messageID, true => removed messageID
  | completing, .recordSeen messageID seenAt, _ => recorded messageID seenAt false
  | removed messageID, .recordSeen _ seenAt, _ => recorded messageID seenAt true
  | p, _, _ => p

/-- The phase after the begin. -/
def first : Task → Phase
  | .enqueue _ _ now => begun (now - 24 * hour)
  | .complete _ _ => completing

/-- The phase after a call. -/
def step (t : Task) : Phase → (call : Call) → call.Ans Query.Ans → Phase
  | _, .beginTx, some _ => first t
  | _, .beginTx, none => failed
  | p, .statement _ query, some answer => p.learn query answer
  | _, .statement _ _, none => failed
  | p, .commit _, _ => p
  | p, .rollback _, _ => p
  | p, .reply _, _ => p

end Phase

/-- The statements of a phase. -/
inductive Sends : Phase → Query → Prop
  | cleanSeen (before : Time) : Sends (.begun before) (.cleanSeen before)
  | checkSeen (before : Time) (messageID : String) : Sends (.cleaned before) (.seen messageID)
  | insertInbox (before : Time) (r : EventSubInboxRecord) :
    Sends (.unseen before r.messageID) (.insertInbox r)
  | loadInbox (before : Time) (messageID : String) : Sends (.known before) (.loadInbox messageID)
  | deleteInbox (messageID : String) : Sends .completing (.deleteInbox messageID)
  | checkCompleted (messageID : String) : Sends .completing (.seen messageID)
  | recordSeen (messageID : String) (seenAt : Time) :
    Sends .completing (.recordSeen messageID seenAt)
  | recordRemoved (messageID : String) (seenAt : Time) :
    Sends (.removed messageID) (.recordSeen messageID seenAt)

/-- The phases that may commit. -/
inductive Commits : Phase → Prop
  | known (before : Time) : Commits (.known before)
  | queued (before : Time) (messageID : String) : Commits (.queued before messageID)
  | recorded (messageID : String) (seenAt : Time) (removed : Bool) :
    Commits (.recorded messageID seenAt removed)

/-- The time that a phase carries is that of its method. -/
def Phase.Of (t : Task) : Phase → Prop
  | .begun before => Phase.first t = .begun before
  | .cleaned before => Phase.first t = .begun before
  | .known before => Phase.first t = .begun before
  | .unseen before _ => Phase.first t = .begun before
  | .queued before _ => Phase.first t = .begun before
  | .recorded _ seenAt _ => ∃ messageID, t = .complete messageID seenAt
  | _ => True

/-- The calls of a task in a phase. -/
def Task.Allowed (t : Task) (p : Phase) : Call → Prop
  | .beginTx => p = .idle
  | .statement _ query => Sends p query ∧ p.Of t
  | .commit _ => Commits p ∧ p.Of t
  | .rollback _ => True
  | .reply _ => True

/-! ## Assertions -/

/-- The deletion of a seen message that is older than `before`. -/
def Stale (before : Time) (committed : Rows) (w : Key × Option Row) : Prop :=
  ∃ messageID seenAt, w = (.seen messageID, none) ∧
    committed.lookup (.seen messageID) = some (.seen seenAt) ∧ seenAt < before

/-- What a transaction has written in each phase. -/
def Assertion : Phase → Session Key Row → Rows → Prop
  | .begun _, sess, _ => sess.writes = []
  | .cleaned before, sess, committed => ∀ w ∈ sess.writes, Stale before committed w
  | .known before, sess, committed => ∀ w ∈ sess.writes, Stale before committed w
  | .unseen before _, sess, committed => ∀ w ∈ sess.writes, Stale before committed w
  | .queued before messageID, sess, committed =>
    ∃ row rest, sess.writes = (.inbox messageID, some row) :: rest ∧
      ∀ w ∈ rest, Stale before committed w
  | .completing, sess, _ => sess.writes = []
  | .removed messageID, sess, _ => sess.writes = [(.inbox messageID, none)]
  | .recorded messageID seenAt removed, sess, _ =>
    sess.writes = (.seen messageID, some (.seen seenAt)) ::
      if removed then [(.inbox messageID, none)] else []
  | _, _, _ => True

section Assertions

variable {t : Task} {p p' : Phase} {tx : Nat} {sess sess' : Session Key Row}
  {committed : Rows}

theorem assertion_ran {query : Query} (hok : t.Allowed p (.statement tx query))
    (h : Assertion p sess committed) :
    Assertion (Phase.step t p (.statement tx query)
        (some ((meaning query).answer (sess.view committed))))
      (sess.run committed (meaning query)) committed := by
  obtain ⟨hsends, -⟩ := hok
  cases hsends with
  | cleanSeen =>
    intro w hw
    have hwrites : sess.writes = [] := h
    rw [Session.run, Session.view_of_unwritten hwrites, hwrites, append_nil] at hw
    obtain ⟨key, hkey, rfl⟩ := mem_map.mp hw
    obtain ⟨messageID, seenAt, rfl, hget, hlt⟩ := mem_staleKeys.mp hkey
    exact ⟨messageID, seenAt, rfl, hget, hlt⟩
  | checkSeen before messageID =>
    show Assertion (Phase.learn (.cleaned before) (.seen messageID)
      (isSeen messageID (sess.view committed))) _ _
    cases isSeen messageID (sess.view committed) <;> exact h
  | insertInbox before r =>
    have hwrites : (sess.run committed (meaning (.insertInbox r))).writes =
        (if isQueued r.messageID (sess.view committed) then []
          else [(.inbox r.messageID, some (.inbox r))]) ++ sess.writes := rfl
    show Assertion (Phase.learn (.unseen before r.messageID) (.insertInbox r)
      (if isQueued r.messageID (sess.view committed) then none else some r)) _ _
    cases hqueued : isQueued r.messageID (sess.view committed) with
    | true =>
      intro w hw
      rw [hwrites, hqueued] at hw
      exact h w hw
    | false =>
      rw [hqueued] at hwrites
      exact ⟨_, _, hwrites, h⟩
  | deleteInbox messageID =>
    have hempty : sess.writes = [] := h
    have hwrites : (sess.run committed (meaning (.deleteInbox messageID))).writes =
        (if isQueued messageID (sess.view committed) then [(.inbox messageID, none)] else []) ++
          sess.writes := rfl
    show Assertion (Phase.learn .completing (.deleteInbox messageID)
      (isQueued messageID (sess.view committed))) _ _
    cases hqueued : isQueued messageID (sess.view committed) with
    | true =>
      rw [hqueued, hempty] at hwrites
      exact hwrites
    | false =>
      rw [hqueued, hempty] at hwrites
      exact hwrites
  | recordSeen messageID seenAt => exact congrArg ((.seen messageID, some (.seen seenAt)) :: ·) h
  | recordRemoved messageID seenAt => exact congrArg ((.seen messageID, some (.seen seenAt)) :: ·) h
  | _ => exact h

theorem Stale.stable {before : Time} (h : Stale before committed w)
    (hapart : Apart sess sess') (hw : w ∈ sess'.writes) :
    Stale before (sess.writes.apply committed) w := by
  have hlock := hapart.covered' w hw
  obtain ⟨messageID, seenAt, rfl, hget, hlt⟩ := h
  refine ⟨messageID, seenAt, rfl, ?_, hlt⟩
  rw [lookup_apply_of_not_written (hapart.not_written hlock)]
  exact hget

theorem assertion_stable (h : Assertion p sess' committed) (hapart : Apart sess sess') :
    Assertion p sess' (sess.writes.apply committed) := by
  cases p with
  | cleaned => exact fun w hw => (h w hw).stable hapart hw
  | known => exact fun w hw => (h w hw).stable hapart hw
  | unseen => exact fun w hw => (h w hw).stable hapart hw
  | queued =>
    obtain ⟨row, rest, hwrites, hrest⟩ := h
    refine ⟨row, rest, hwrites, fun w hw => (hrest w hw).stable hapart ?_⟩
    rw [hwrites]
    exact mem_cons_of_mem _ hw
  | _ => exact h

theorem assertions (G : Condition) :
    Transact.Assertions meaning Phase.idle Phase.step Task.Allowed G Assertion where
  begun := by
    intro t p tx committed _
    cases t <;> rfl
  ran := assertion_ran
  replied := rfl
  stable _ _ _ _ _ _ _ h hapart := assertion_stable h hapart

end Assertions

/-! ## The code -/

section Code

theorem closing (t : Task) : Closing Phase.step Task.Allowed (fun _ _ _ => True) t where
  rollback _ _ := trivial
  rolled _ _ := rfl
  reply _ := trivial

theorem follows_enqueue (messageID : String) (envelope : EventSubEnvelope) (now : Time) :
    System.Follows (Progress.next Phase.step (.enqueue messageID envelope now))
      (Progress.Allows Task.Allowed (.enqueue messageID envelope now)) (fun _ _ => True)
      (enqueueEventSub messageID envelope now) { phase := .idle } := by
  rw [enqueueEventSub]
  split
  · exact ⟨⟨by rintro _ ⟨⟩, by rintro ⟨⟩, trivial⟩, fun _ => trivial⟩
  · refine follows_inTransaction (closing _) rfl trivial fun tx => ?_
    refine follows_attempt rfl ⟨.cleanSeen _, rfl⟩ trivial fun _ => ?_
    refine follows_attempt rfl ⟨.checkSeen _ _, rfl⟩ trivial fun seen => ?_
    cases seen with
    | true => exact follows_conclude rfl ⟨.known _, rfl⟩ trivial trivial
    | false =>
      refine follows_attempt rfl
        ⟨.insertInbox _ (newMessage (trimSpace messageID) envelope now), rfl⟩ trivial fun row => ?_
      cases row with
      | some => exact follows_conclude rfl ⟨.queued _ _, rfl⟩ trivial trivial
      | none =>
        refine follows_attempt rfl ⟨.loadInbox _ _, rfl⟩ trivial fun existing => ?_
        cases existing with
        | some => exact follows_conclude rfl ⟨.known _, rfl⟩ trivial trivial
        | none => exact follows_ret rfl trivial

theorem follows_recordCompleted {completedAt : Time}
    {p : Progress Phase} {removed : Bool} (htx : p.tx = some tx)
    (hsends : Sends p.phase (.recordSeen messageID completedAt))
    (hof : p.phase.Of (.complete messageID completedAt))
    (hlearn : p.phase.learn (.recordSeen messageID completedAt) () =
      .recorded messageID completedAt removed) :
    FollowsPhases Phase.step Task.Allowed (fun _ _ _ => True) (.complete messageID completedAt) tx
      (recordCompleted messageID completedAt tx) p := by
  refine follows_attempt htx ⟨hsends, hof⟩ trivial fun _ => ?_
  refine follows_conclude htx ?_ trivial trivial
  show Task.Allowed _ (p.phase.learn (.recordSeen messageID completedAt) ()) _
  rw [hlearn]
  exact ⟨.recorded _ _ _, messageID, rfl⟩

theorem follows_complete (messageID : String) (completedAt : Time) :
    System.Follows (Progress.next Phase.step (.complete messageID completedAt))
      (Progress.Allows Task.Allowed (.complete messageID completedAt)) (fun _ _ => True)
      (completeEventSub messageID completedAt) { phase := .idle } := by
  refine follows_inTransaction (closing _) rfl trivial fun tx => ?_
  refine follows_attempt rfl ⟨.deleteInbox _, trivial⟩ trivial fun removed => ?_
  cases removed with
  | true => exact follows_recordCompleted rfl (.recordRemoved _ _) trivial rfl
  | false =>
    refine follows_attempt rfl ⟨.checkCompleted _, trivial⟩ trivial fun seen => ?_
    cases seen with
    | true => exact follows_recordCompleted rfl (.recordSeen _ _) trivial rfl
    | false => exact follows_ret rfl trivial

theorem follows_code (t : Task) :
    System.Follows (Progress.next Phase.step t) (Progress.Allows Task.Allowed t) (fun _ _ => True)
      (code t) { phase := .idle } := by
  cases t with
  | enqueue messageID envelope now => exact follows_enqueue messageID envelope now
  | complete messageID completedAt => exact follows_complete messageID completedAt

end Code

/-! ## Completed messages -/

/-- The time that a task is given. -/
def Task.time : Task → Time
  | .enqueue _ _ now => now
  | .complete _ completedAt => completedAt

/-- The calls are within a day. -/
def WithinDay (since : Time) : Condition := fun _ e =>
  since ≤ e.task.time ∧ e.task.time ≤ since + 24 * hour

/-- **The condition.** When a removal commits, no open `EnqueueEventSub` has found the message
unseen and not yet inserted it. -/
def NotOvertaken : Condition := fun v e =>
  ∀ tx messageID seenAt, e.op = .commit tx →
    (progress .idle Phase.step v.hist e.pid).phase = .recorded messageID seenAt true →
    ∀ pid before, (progress .idle Phase.step v.hist pid).running →
      (progress .idle Phase.step v.hist pid).phase ≠ .unseen before messageID

/-- A transaction deleted the message. -/
def Completed (messageID : String) (log : List (Nat × Writes Key Row)) : Prop :=
  ∃ entry ∈ log, (Key.inbox messageID, none) ∈ entry.2

/-- A transaction is about to insert the message, or has. -/
def Inserting (messageID : String) (p : Progress Phase) : Prop :=
  p.running ∧ ∃ before, p.phase = .unseen before messageID ∨ p.phase = .queued before messageID

/-- The message was moved to the seen ones, not before `since`. -/
structure Moved (since : Time) (messageID : String) (committed : Rows) : Prop where
  out : committed.lookup (.inbox messageID) = none
  seen : ∃ seenAt, committed.lookup (.seen messageID) = some (.seen seenAt) ∧ since ≤ seenAt

/-- A completed message has been moved, and nobody inserts it. -/
structure Settled (since : Time) (messageID : String)
    (v : TaskView) : Prop where
  moved : Moved since messageID v.state.committed
  left : ∀ pid, ¬Inserting messageID (progress .idle Phase.step v.hist pid)

section Completed

variable {since before : Time} {messageID : String} {t : Task} {p : Phase}
  {sess : Session Key Row} {committed : Rows}

theorem before_le (hof : Phase.first t = .begun before) (hday : t.time ≤ since + 24 * hour) :
    before ≤ since := by
  cases t with
  | enqueue =>
    cases hof
    exact Int.sub_right_le_of_le_add hday
  | complete => cases hof

theorem Moved.not_stale (h : Moved since messageID committed) (hbefore : before ≤ since)
    (hw : Stale before committed w) :
    w.1 ≠ .seen messageID ∧ ∀ mid', w.1 ≠ .inbox mid' := by
  obtain ⟨mid', seenAt, rfl, hget, hlt⟩ := hw
  refine ⟨fun hkey => ?_, nofun⟩
  cases hkey
  obtain ⟨seenAt', hget', hsince⟩ := h.seen
  rw [hget'] at hget
  cases hget
  exact absurd (Int.lt_of_lt_of_le hlt hbefore) (Int.not_lt.mpr hsince)

theorem Moved.of_not_written {writes : Writes Key Row} (h : Moved since messageID committed)
    (hinbox : ∀ w, (.inbox messageID, w) ∉ writes) (hseen : ∀ w, (.seen messageID, w) ∉ writes) :
    Moved since messageID (writes.apply committed) where
  out := (lookup_apply_of_not_written hinbox committed).trans h.out
  seen := by
    rw [lookup_apply_of_not_written hseen]
    exact h.seen

/-- **A commit** leaves a moved message where it is, unless it inserts it. -/
theorem Moved.commit (h : Moved since messageID committed) (hcommits : Commits p) (hof : p.Of t)
    (hday : since ≤ t.time ∧ t.time ≤ since + 24 * hour) (hassert : Assertion p sess committed)
    (hqueued : ∀ before, p ≠ .queued before messageID) :
    Moved since messageID (sess.writes.apply committed) := by
  cases hcommits with
  | known =>
    have hstale := fun w hw => h.not_stale (before_le hof hday.2) (hassert w hw)
    exact h.of_not_written (fun w hw => (hstale _ hw).2 _ rfl) fun w hw => (hstale _ hw).1 rfl
  | queued before =>
    obtain ⟨row, rest, hwrites, hrest⟩ := hassert
    have hstale := fun w hw => h.not_stale (before_le hof hday.2) (hrest w hw)
    rw [hwrites]
    refine h.of_not_written (fun w hw => ?_) fun w hw => ?_
    · rcases mem_cons.mp hw with heq | hw
      · cases heq
        exact hqueued before rfl
      · exact (hstale _ hw).2 _ rfl
    · rcases mem_cons.mp hw with heq | hw
      · cases heq
      · exact (hstale _ hw).1 rfl
  | recorded mid' seenAt removed =>
    obtain ⟨_, rfl⟩ := hof
    have hwrites : sess.writes = (.seen mid', some (.seen seenAt)) ::
      if removed then [(.inbox mid', none)] else [] := hassert
    rw [hwrites]
    refine ⟨?_, ?_⟩
    · rw [lookup_apply_cons, if_neg (by simp)]
      cases removed with
      | false => exact h.out
      | true => rw [if_pos rfl, lookup_apply_cons, Writes.apply, h.out, ite_self]
    · rw [lookup_apply_cons]
      by_cases hkey : Key.seen messageID = .seen mid'
      · rw [if_pos hkey]
        exact ⟨seenAt, rfl, hday.1⟩
      · rw [if_neg hkey]
        obtain ⟨seenAt', hget, hsince⟩ := h.seen
        refine ⟨seenAt', ?_, hsince⟩
        cases removed with
        | false => exact hget
        | true =>
          have hother : Key.seen messageID ≠ .inbox mid' := by simp
          rw [if_pos rfl, lookup_apply_cons, if_neg hother]
          exact hget

theorem inserting_next {p : Progress Phase} {call : Call} {a : call.Ans Query.Ans}
    (hok : t.Allowed p.phase call) (h : Inserting messageID (p.next Phase.step t call a)) :
    Inserting messageID p ∨ ∃ before tx, p.phase = .cleaned before ∧
      Phase.first t = .begun before ∧
      (⟨call, a⟩ : Sigma (TxCall.Ans Query.Ans)) =
        ⟨.statement tx (.seen messageID), some false⟩ := by
  obtain ⟨tx, running, phase⟩ := p
  obtain ⟨hruns, before, hphase⟩ := h
  cases call with
  | reply => exact .inl ⟨hruns, before, hphase⟩
  | beginTx =>
    cases a with
    | none => cases hruns
    | some => cases t <;> rcases hphase with h | h <;> cases h
  | statement tx =>
    obtain ⟨hruns', hsome⟩ := (Bool.and_eq_true _ _).mp hruns
    obtain ⟨hsends, hof⟩ := hok
    cases a with
    | none => cases hsome
    | some ans =>
      cases hsends with
      | cleanSeen => rcases hphase with h | h <;> cases h
      | checkSeen =>
        cases ans with
        | true => rcases hphase with h | h <;> cases h
        | false =>
          rcases hphase with h | h
          · cases h
            exact .inr ⟨before, tx, rfl, hof, rfl⟩
          · cases h
      | insertInbox =>
        cases ans with
        | none => rcases hphase with h | h <;> cases h
        | some =>
          rcases hphase with h | h
          · cases h
          · cases h
            exact .inl ⟨hruns', before, .inl rfl⟩
      | loadInbox => rcases hphase with h | h <;> cases h
      | deleteInbox => cases ans <;> rcases hphase with h | h <;> cases h
      | checkCompleted => rcases hphase with h | h <;> cases h
      | recordSeen => rcases hphase with h | h <;> cases h
      | recordRemoved => rcases hphase with h | h <;> cases h
  | _ => cases hruns

/-- In time, and not overtaken. -/
def Guarded (since : Time) : Condition := fun v e => WithinDay since v e ∧ NotOvertaken v e

/-- The conditions of the assertions. -/
def Upholds (since : Time) : Condition := fun v e =>
  (Guarded since v e ∧ (progress .idle Phase.step v.hist e.pid).Allows Task.Allowed e.task e.op) ∧
    Upheld .idle Phase.step Assertion v

section Step

variable {v : TaskView}
  {e : TaskEvent} {fate : Fate} {s : State}

theorem left_after (hexec : exec meaning e.op fate v.state = some (e.ans, s))
    (hG : Upholds since v e) (h : Settled since messageID v) (pid : Nat) :
    ¬Inserting messageID (progress .idle Phase.step (e :: v.hist) pid) := by
  obtain ⟨⟨⟨hday, -⟩, hmay⟩, hupheld⟩ := hG
  intro hins
  by_cases hpid : e.pid = pid
  · subst hpid
    rw [progress_self] at hins
    rcases inserting_next hmay.phase hins with hbefore | ⟨before, tx, hclean, hof, hcall⟩
    · exact h.left _ hbefore
    · have hstale := before_le hof hday.2
      have hown : ∀ {tx sess}, v.state.sessions.lookup tx = some sess → e.op.tx = some tx → _ :=
        fun hs hop => (hupheld.own hmay hs hop).2
      obtain ⟨pid, t, op, a⟩ := e
      cases hcall
      rcases exec_statement hexec with ⟨sess, hsess, -, hans, -⟩ | ⟨hnone, -⟩
      · have hassert := hown hsess rfl
        dsimp only at hassert hclean
        rw [hclean] at hassert
        have hget : (sess.view v.state.committed).lookup (.seen messageID) = _ :=
          lookup_apply_of_not_written
            (fun w hw => (h.moved.not_stale hstale (hassert _ hw)).1 rfl) v.state.committed
        have hunseen : isSeen messageID (sess.view v.state.committed) = false :=
          (Option.some.inj hans).symm
        obtain ⟨seenAt, hseen, -⟩ := h.moved.seen
        rw [isSeen, hget, hseen] at hunseen
        cases hunseen
      · cases hnone
  · rw [progress_other hpid] at hins
    exact h.left pid hins

theorem settled_after (hexec : exec meaning e.op fate v.state = some (e.ans, s))
    (hG : Upholds since v e) (h : Settled since messageID v) :
    Settled since messageID (v.after e s) where
  left pid := left_after hexec hG h pid
  moved := by
    obtain ⟨⟨⟨hday, -⟩, hmay⟩, hupheld⟩ := hG
    rcases exec_commits hexec with ⟨hcom, -⟩ | ⟨tx, sess, hop, hsess, rfl⟩
    · rw [View.after_state, hcom]
      exact h.moved
    · obtain ⟨hruns, hassert⟩ := hupheld.own hmay hsess (by rw [hop]; rfl)
      have hok := hmay.phase
      rw [hop] at hok
      refine h.moved.commit hok.1 hok.2 hday hassert fun before hqueued => ?_
      exact h.left e.pid ⟨hruns, before, .inr hqueued⟩

theorem recorded_of_removal (hcommits : Commits p) (h : Assertion p sess committed)
    (hw : (.inbox messageID, none) ∈ sess.writes) :
    ∃ seenAt, p = .recorded messageID seenAt true ∧
      sess.writes = [(.seen messageID, some (.seen seenAt)), (.inbox messageID, none)] := by
  cases hcommits with
  | known =>
    obtain ⟨mid', seenAt, hkey, -⟩ := h _ hw
    cases hkey
  | queued before mid' =>
    obtain ⟨row, rest, hwrites, hrest⟩ := h
    rw [hwrites] at hw
    rcases mem_cons.mp hw with heq | hw
    · cases heq
    · obtain ⟨mid', seenAt, hkey, -⟩ := hrest _ hw
      cases hkey
  | recorded mid' seenAt removed =>
    have hwrites : sess.writes = (.seen mid', some (.seen seenAt)) ::
      if removed then [(.inbox mid', none)] else [] := h
    rw [hwrites] at hw
    rcases mem_cons.mp hw with heq | hw
    · cases heq
    · cases removed with
      | false => cases hw
      | true =>
        cases mem_singleton.mp hw
        exact ⟨seenAt, rfl, hwrites⟩

theorem settled_commit (hG : Upholds since v e) (hop : e.op = .commit tx)
    (hsess : v.state.sessions.lookup tx = some sess)
    (hwrites : (.inbox messageID, none) ∈ sess.writes) :
    Settled since messageID (v.after e (v.state.accept tx sess)) := by
  obtain ⟨⟨⟨hday, hovertaken⟩, hmay⟩, hupheld⟩ := hG
  obtain ⟨hruns, hassert⟩ := hupheld.own hmay hsess (by rw [hop]; rfl)
  have hok := hmay.phase
  rw [hop] at hok
  obtain ⟨seenAt, hphase, hwritten⟩ := recorded_of_removal hok.1 hassert hwrites
  refine ⟨⟨?_, seenAt, ?_, ?_⟩, fun pid hins => ?_⟩
  · show (sess.writes.apply v.state.committed).lookup (.inbox messageID) = none
    rw [hwritten, lookup_apply_cons, if_neg nofun, lookup_apply_cons, if_pos rfl]
  · show (sess.writes.apply v.state.committed).lookup (.seen messageID) = _
    rw [hwritten, lookup_apply_cons, if_pos rfl]
  · have hof := hok.2
    rw [hphase] at hof
    obtain ⟨mid', htask⟩ := hof
    have hsince := hday.1
    rw [htask] at hsince
    exact hsince
  · rw [View.after_hist] at hins
    by_cases hpid : e.pid = pid
    · subst hpid
      rw [progress_self] at hins
      obtain ⟨pid, t, op, a⟩ := e
      cases hop
      cases hins.1
    · rw [progress_other hpid] at hins
      obtain ⟨hruns', before, hunseen | hqueued⟩ := hins
      · exact hovertaken tx messageID seenAt hop hphase pid before hruns' hunseen
      · -- both transactions have written the row, so they are one
        obtain ⟨tx', sess', htx', hsess', hassert'⟩ := hupheld.upheld hruns'
        rw [hqueued] at hassert'
        obtain ⟨row, rest, hwritten', -⟩ := hassert'
        have hlock := hupheld.sound.covered hsess _ hwrites
        have hlock' := hupheld.sound.covered hsess' (.inbox messageID, some row) (by
          rw [hwritten']
          exact mem_cons_self)
        have hsame := hupheld.sound.exclusive hsess hsess' hlock hlock'
        have hown := hmay.own tx (by rw [hop]; rfl)
        exact hpid (hupheld.distinct hown (hsame ▸ htx'))

end Step

/-- **No completed message returns** within a day, where no completion overtakes an enqueuer between
its question and its insertion. -/
theorem completed_stays_out (since : Time) (rows : Rows)
    {c : Config Task Call (TxCall.Ans Query.Ans) State}
    (h : system.Steps (Guarded since) (start rows) c) (hdone : Completed messageID c.state.log) :
    c.state.committed.lookup (.inbox messageID) = none := by
  have hens : system.Ensures (start rows) (Guarded since) (Upholds since) :=
    ensures_upheld (assertions _) follows_code
  have hrun := (hens.steps .refl h).view_invariant
    (I := fun v => ∀ messageID, Completed messageID v.state.log → Settled since messageID v) ?_ ?_
  · exact (hrun messageID hdone).moved.out
  · intro v e fate s hsettled hexec hG messageID hlog
    rcases exec_commits hexec with ⟨-, hsame⟩ | ⟨tx, sess, hop, hsession, rfl⟩
    · rw [View.after_state, hsame] at hlog
      exact settled_after hexec hG (hsettled messageID hlog)
    · obtain ⟨entry, hentry, hwrites⟩ := hlog
      rcases mem_cons.mp hentry with rfl | hentry
      · exact settled_commit hG hop hsession hwrites
      · exact settled_after hexec hG (hsettled messageID ⟨entry, hentry, hwrites⟩)
  · rintro messageID ⟨entry, hentry, -⟩
    cases hentry

end Completed

/-! ## A message that is sent twice -/

/-- A stored message. -/
def received : Rows :=
  (∅ : Rows).insert (.inbox "message") (.inbox (newMessage "message" {} 0))

/-- Twitch sends it again. -/
def resent : Task := .enqueue "message" {} 1

/-- The worker completes it. -/
def processed : Task := .complete "message" 1

/-- A logged transaction deleted the message. -/
def removes (messageID : String) (log : List (Nat × Writes Key Row)) : Bool :=
  log.any fun entry => entry.2.any fun w => w.1 == .inbox messageID && w.2.isNone

theorem completed_of_removes {log : List (Nat × Writes Key Row)}
    (h : removes messageID log) : Completed messageID log := by
  obtain ⟨entry, hentry, hany⟩ := any_eq_true.mp h
  obtain ⟨⟨key, row⟩, hw, hkey⟩ := any_eq_true.mp hany
  rw [Bool.and_eq_true, beq_iff_eq, Option.isNone_iff_eq_none] at hkey
  obtain ⟨rfl, rfl⟩ := hkey
  exact ⟨entry, hentry, hw⟩

/-- `WithinDay` as a check. -/
def withinDay (since : Time) (e : TaskEvent) : Bool :=
  decide (since ≤ e.task.time) && decide (e.task.time ≤ since + 24 * hour)

/-- A stricter check: a removal is committed only while nobody else has made a call. -/
def soleCompletion (since : Time) (v : TaskView) (e : TaskEvent) : Bool :=
  withinDay since e && match (progress .idle Phase.step v.hist e.pid).phase with
    | .recorded _ _ true => v.hist.all (·.pid == e.pid)
    | _ => true

theorem guarded_of_soleCompletion {since : Time} (v : TaskView)
    (e : TaskEvent) (h : soleCompletion since v e) :
    Guarded since v e := by
  rw [soleCompletion, withinDay, Bool.and_eq_true, Bool.and_eq_true, decide_eq_true_eq,
    decide_eq_true_eq] at h
  refine ⟨h.1, fun tx messageID seenAt hop hphase pid before hruns hunseen => ?_⟩
  have hsole := h.2
  rw [hphase] at hsole
  have hidle : e.pid ≠ pid → progress .idle Phase.step v.hist pid = { phase := .idle } :=
    fun hpid => System.track_of_no_call fun e' he' hpid' =>
      hpid ((beq_iff_eq.mp (all_eq_true.mp hsole e' he')).symm.trans hpid')
  by_cases hpid : e.pid = pid
  · rw [← hpid, hphase] at hunseen
    cases hunseen
  · rw [hidle hpid] at hruns
    cases hruns

/-- A message that is sent again after it was processed is not queued. -/
theorem resent_after_processing_stays_out :
    ∃ c, system.Steps (Guarded 0) (start received) c ∧ Completed "message" c.state.log ∧
      (c.procs.length = 2 ∧ c.procs.all fun p => match p.code with
        | .ret _ => true
        | _ => false) ∧
      c.state.committed.lookup (.inbox "message") = none := by
  have hplay : (system.play (soleCompletion 0)
      (.spawn processed :: List.replicate 6 (.call 0 .done) ++
        .spawn resent :: List.replicate 6 (.call 1 .done)) (start received)).map (fun c =>
          (removes "message" c.state.log, c.procs.length, c.procs.all fun p => match p.code with
            | .ret _ => true
            | _ => false)) = some (true, 2, true) := rfl
  obtain ⟨c, hsteps, hres⟩ := System.play_map hplay
  simp only [Prod.mk.injEq] at hres
  have hguarded := hsteps.mono guarded_of_soleCompletion
  have hdone := completed_of_removes hres.1
  exact ⟨c, hguarded, hdone, hres.2, completed_stays_out 0 received hguarded hdone⟩

/-- A request has found the message unseen; the worker completes it; then the request inserts it. -/
theorem overtaken_enqueue_restores_message :
    ∃ c, system.Steps (WithinDay 0) (start received) c ∧ Completed "message" c.state.log ∧
      c.state.committed.lookup (.seen "message") = some (.seen 1) ∧
      c.state.committed.lookup (.inbox "message") = some (.inbox (newMessage "message" {} 1)) := by
  have hplay : (system.play (fun _ e => withinDay 0 e)
      ([.spawn resent, .spawn processed] ++ List.replicate 3 (.call 0 .done) ++
        List.replicate 6 (.call 1 .done) ++ List.replicate 4 (.call 0 .done))
      (start received)).map (fun c => (removes "message" c.state.log,
        c.state.committed.lookup (.seen "message"), c.state.committed.lookup (.inbox "message"))) =
      some (true, some (.seen 1), some (.inbox (newMessage "message" {} 1))) := rfl
  obtain ⟨c, hsteps, hres⟩ := System.play_map hplay
  simp only [Prod.mk.injEq] at hres
  refine ⟨c, hsteps.mono fun v e h => ?_, completed_of_removes hres.1, hres.2⟩
  rw [withinDay, Bool.and_eq_true, decide_eq_true_eq, decide_eq_true_eq] at h
  exact h

end Inbox

end Ferventio
