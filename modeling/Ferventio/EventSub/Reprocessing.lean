import Ferventio.Delivery.Tables
import Ferventio.EventSub.Reservation

/-!
# No processing after success

A worker releases a message before it removes it from the inbox, and a scheduler works from a list
or a record that it has read earlier. So a message may be reserved, and processed once more,
between the release and the completion, or even after it.

* **`success_is_final`**: it is not in a timely run, when every scheduler reserves a message at a
  moment when it is in the inbox and nobody is about to complete it.
* **`stale_listing_processes_twice`**: the drainer falls into the gap.
-/

namespace Ferventio

open List

namespace Pipeline

variable {op : Call} {e : Event Task Call Call.Ans} {hist old mid : List (Event Task Call Call.Ans)}
  {pid : Nat} {s0 : State} {G : System.Condition Task Call Call.Ans State}

/-- The processing succeeded. -/
inductive Phase.Succeeded (messageID : String) : Phase → Prop
  | finished : Succeeded messageID (.finished messageID true)
  | released : Succeeded messageID (.released messageID true)
  | completed (saved : Bool) : Succeeded messageID (.completed messageID saved)

/-- A message is reserved while it is in the inbox and no worker is about to complete it, and not
enqueued once its completion is forgotten. -/
def Timely (v : View Task Call Call.Ans State) (e : Event Task Call Call.Ans) : Prop :=
  match e.op with
  | .reserveEventSub messageID =>
    messageID ∈ v.state.world.eventInFlight ∨
      (v.state.world.deliveries.eventSubInbox.lookup messageID).isSome ∧
        ∀ pid, phase v.hist pid ≠ .released messageID true
  | .server (.delivery call) =>
    ∀ pid messageID, phase v.hist pid = .completed messageID true →
      Spares messageID call v.state.world.deliveries
  | _ => True

/-- After the release it is not reserved, after the completion not in the inbox. -/
def Phase.Fits (w : World) : Phase → Prop
  | .released messageID true => messageID ∉ w.eventInFlight
  | .completed messageID true =>
    messageID ∉ w.eventInFlight ∧ w.deliveries.eventSubInbox.lookup messageID = none
  | _ => True

section Step

variable {env : Env} {capacity : Nat} {v : View Task Call Call.Ans State}
  {e : Event Task Call Call.Ans} {x : Choice} {s : State} {messageID : String}

theorem eventInFlight_after {a : op.Ans}
    (hexec : exec env capacity op x s0 = some (a, s)) (h : messageID ∈ s.world.eventInFlight) :
    messageID ∈ s0.world.eventInFlight ∨ op = .reserveEventSub messageID := by
  cases op with
  | server =>
    obtain ⟨⟨a', w⟩, hcall, heq⟩ := Option.map_eq_some_iff.mp hexec
    cases heq
    have hafter := exec_eventInFlight hcall
    dsimp only at h
    rw [hafter] at h
    unfold eventInFlightAfter at h
    split at h
    · exact .inl (mem_filter.mp h).1
    · exact .inl h
  | reserveEventSub =>
    rw [exec] at hexec
    split at hexec
    · cases hexec
      exact .inl h
    · cases hexec
      rcases mem_cons.mp h with rfl | h
      · exact .inr rfl
      · exact .inl h
  | send =>
    rw [exec] at hexec
    split at hexec <;> cases hexec <;> exact .inl h
  | receive =>
    rw [exec] at hexec
    split at hexec
    · cases hexec
    · cases hexec
      exact .inl h
  | _ =>
    cases hexec
    exact .inl h

theorem inbox_after {a : op.Ans} (hexec : exec env capacity op x s0 = some (a, s))
    (hspares : ∀ call, op = .server (.delivery call) → Spares messageID call s0.world.deliveries)
    (h : s0.world.deliveries.eventSubInbox.lookup messageID = none) :
    s.world.deliveries.eventSubInbox.lookup messageID = none := by
  cases op with
  | server =>
    obtain ⟨⟨a', w⟩, hcall, heq⟩ := Option.map_eq_some_iff.mp hexec
    cases heq
    have hafter := exec_deliveries hcall
    dsimp only
    rw [hafter]
    unfold deliveriesAfter
    split
    · exact execDelivery_absent (hspares _ rfl) h
    · exact h
  | receive =>
    rw [exec] at hexec
    split at hexec
    · cases hexec
    · cases hexec
      exact h
  | panics =>
    cases hexec
    exact h
  | returned =>
    cases hexec
    exact h
  | _ =>
    rw [exec] at hexec
    split at hexec <;> cases hexec <;> exact h

theorem fits_stable (hfits : (phase v.hist pid).Fits v.state.world)
    (hexec : exec env capacity e.op x v.state = some (e.ans, s)) (htimely : Timely v e) :
    (phase v.hist pid).Fits s.world := by
  have hunreserved : ∀ {messageID}, messageID ∉ v.state.world.eventInFlight →
      (phase v.hist pid = .released messageID true ∨
        v.state.world.deliveries.eventSubInbox.lookup messageID = none) →
      messageID ∉ s.world.eventInFlight := by
    intro messageID hfree hsettled hreserved
    rcases eventInFlight_after hexec hreserved with hbefore | hop
    · exact hfree hbefore
    · rw [Timely, hop] at htimely
      rcases htimely with hbefore | ⟨hrow, hnobody⟩
      · exact hfree hbefore
      · rcases hsettled with hphase | habsent
        · exact hnobody pid hphase
        · rw [habsent] at hrow
          cases hrow
  cases hphase : phase v.hist pid with
  | released messageID ok =>
    cases ok with
    | true =>
      rw [hphase] at hfits
      exact hunreserved hfits (.inl hphase)
    | false => trivial
  | completed messageID saved =>
    cases saved with
    | true =>
      rw [hphase] at hfits
      refine ⟨hunreserved hfits.1 (.inr hfits.2), inbox_after hexec (fun call hop => ?_) hfits.2⟩
      rw [Timely, hop] at htimely
      exact htimely pid messageID hphase
    | false => trivial
  | _ => trivial

theorem settled_after (hv : ∀ pid, (phase v.hist pid).Fits v.state.world)
    (hexec : exec env capacity e.op x v.state = some (e.ans, s)) (htimely : Timely v e)
    (hok : Allowed (phase v.hist e.pid) e.op) (pid : Nat) :
    (phase (v.after e s).hist pid).Fits s.world := by
  rw [View.after_hist]
  by_cases hpid : e.pid = pid
  · subst hpid
    have hstable := fits_stable (hv e.pid) hexec htimely
    rw [phase_self]
    obtain ⟨pid, t, op, a⟩ := e
    dsimp only at hexec hok hstable ⊢
    generalize phase v.hist pid = p at hok hstable ⊢
    cases hok with
    | reserve => cases a <;> trivial
    | send => cases a <;> trivial
    | panics =>
      rw [learn_panics]
      exact hstable
    | release messageID ok =>
      cases hexec
      cases ok with
      | true => exact fun hmem => bne_iff_ne.mp (mem_filter.mp hmem).2 rfl
      | false => trivial
    | complete messageID completedAt =>
      cases a with
      | error => trivial
      | ok =>
        refine ⟨hstable, ?_⟩
        have hans : (execDelivery env x.toChoice (.completeEventSub messageID completedAt)
            v.state.world.deliveries).1 = .ok () :=
          congrArg Prod.fst (Option.some.inj hexec)
        have hstate : s.world.deliveries = (execDelivery env x.toChoice
            (.completeEventSub messageID completedAt) v.state.world.deliveries).2 :=
          congrArg (fun r => r.2.world.deliveries) (Option.some.inj hexec).symm
        rw [hstate]
        exact completeEventSub_absent hans
    | neutral _ h =>
      rw [learn_neutral h]
      exact hstable
    | _ => trivial
  · rw [phase_other hpid]
    exact fits_stable (hv pid) hexec htimely

theorem succeeded_learn {p : Phase} (hp : p.Succeeded messageID)
    (hok : Allowed p op) (a : op.Ans) : (p.learn op a).Succeeded messageID := by
  cases hok with
  | panics =>
    rw [learn_panics]
    exact hp
  | release =>
    cases hp
    exact .released
  | complete =>
    cases hp
    cases a <;> exact .completed _
  | neutral _ h =>
    rw [learn_neutral h]
    exact hp
  | _ => cases hp

theorem succeeded_after
    (hv : ∀ e ∈ v.hist, ∀ messageID, e.op = .returned messageID true →
      (phase v.hist e.pid).Succeeded messageID)
    (hok : Allowed (phase v.hist e.pid) e.op) :
    ∀ e' ∈ (v.after e s).hist, ∀ messageID, e'.op = .returned messageID true →
      (phase (v.after e s).hist e'.pid).Succeeded messageID := by
  intro e' he' messageID hop
  rw [View.after_hist]
  rcases mem_cons.mp he' with rfl | he'
  · rw [phase_self]
    obtain ⟨pid, t, op, a⟩ := e'
    cases hop
    dsimp only at hok ⊢
    generalize phase v.hist pid = p at hok ⊢
    cases hok
    exact .finished
  · by_cases hpid : e.pid = e'.pid
    · rw [← hpid, phase_self]
      have hbefore := hv e' he' messageID hop
      rw [← hpid] at hbefore
      exact succeeded_learn hbefore hok e.ans
    · rw [phase_other hpid]
      exact hv e' he' messageID hop

end Step

/-! ## Every run -/

section Run

variable {env : Env} {capacity : Nat} {world : World} {c : Config Task Call Call.Ans State}

theorem timely_settled (h : (system env capacity).Steps Timely (start world) c) :
    (∀ pid, (phase c.hist pid).Fits c.state.world) ∧
      ∀ e ∈ c.hist, ∀ messageID, e.op = .returned messageID true →
        (phase c.hist e.pid).Succeeded messageID := by
  refine (ensures_allowed.steps .refl h).view_invariant
    (I := fun v => (∀ pid, (phase v.hist pid).Fits v.state.world) ∧
      ∀ e ∈ v.hist, ∀ messageID, e.op = .returned messageID true →
        (phase v.hist e.pid).Succeeded messageID) ?_ ?_
  · rintro v e x s ⟨hfits, hsucceeded⟩ hexec ⟨htimely, hok⟩
    exact ⟨settled_after hfits hexec htimely hok, succeeded_after hsucceeded hok⟩
  · exact ⟨fun pid => trivial, fun e he => nomatch he⟩

theorem allowed_of_suffix
    (h : (system env capacity).Steps G (start world) c) (hsuf : e :: old <:+ c.hist) :
    Allowed (phase old e.pid) e.op := by
  obtain ⟨new, hhist⟩ := hsuf
  exact (ensures_allowed.steps .refl h).since
    (P := fun hist e => Allowed (phase hist e.pid) e.op) (fun _ _ _ _ _ hG => hG.2)
    new e old hhist.symm nil_suffix

theorem completion_failed (h : (system env capacity).Steps G (start world) c) {messageID : String}
    (hsuf : mid ++ old <:+ c.hist) (hphase : phase (mid ++ old) pid = .completed messageID false)
    (hbefore : phase old pid ≠ .completed messageID false) :
    ∃ t completedAt err, (⟨pid, t, .server (.delivery (.completeEventSub messageID completedAt)),
      .error err⟩ : Event Task Call Call.Ans) ∈ mid := by
  induction mid with
  | nil => exact absurd hphase hbefore
  | cons e mid ih =>
    have hearlier : phase (mid ++ old) pid = .completed messageID false →
        ∃ t completedAt err,
          (⟨pid, t, .server (.delivery (.completeEventSub messageID completedAt)), .error err⟩ :
            Event Task Call Call.Ans) ∈ e :: mid := by
      intro hmid
      obtain ⟨t, completedAt, err, hmem⟩ := ih ((suffix_cons e _).trans hsuf) hmid
      exact ⟨t, completedAt, err, mem_cons_of_mem e hmem⟩
    have hok := allowed_of_suffix h hsuf
    rw [cons_append] at hphase
    by_cases hpid : e.pid = pid
    · subst hpid
      rw [phase_self] at hphase
      obtain ⟨pid, t, op, a⟩ := e
      dsimp only at hphase hok hearlier ⊢
      generalize phase (mid ++ old) pid = p at hphase hok hearlier
      cases hok with
      | complete id completedAt =>
        cases a with
        | ok => cases hphase
        | error err =>
          cases hphase
          exact ⟨t, completedAt, err, mem_cons_self⟩
      | panics =>
        rw [learn_panics] at hphase
        exact hearlier hphase
      | neutral _ hneutral =>
        rw [learn_neutral hneutral] at hphase
        exact hearlier hphase
      | reserve => cases a <;> cases hphase
      | send => cases a <;> cases hphase
      | _ => cases hphase
    · rw [phase_other hpid] at hphase
      exact hearlier hphase

/-- **A success is final.** In a timely run a message is taken again after a success only when its
`CompleteEventSub` has failed in between. -/
theorem success_is_final (h : (system env capacity).Steps Timely (start world) c)
    {pid' : Nat} {t t' : Task} {queued : QueuedEventSub}
    {new : List (Event Task Call Call.Ans)}
    (hhist : c.hist = new ++ ⟨pid', t', .receive, queued⟩ ::
      (mid ++ ⟨pid, t, .returned queued.messageID true, ()⟩ :: old)) :
    ∃ t'' completedAt err,
      (⟨pid, t'', .server (.delivery (.completeEventSub queued.messageID completedAt)),
        .error err⟩ : Event Task Call Call.Ans) ∈ mid := by
  obtain ⟨c1, c2, x, s, hbefore, -, -, hold, -, hexec, -⟩ := h.moment ⟨new, hhist.symm⟩ nil_suffix
  obtain ⟨hfits, hsucceeded⟩ := timely_settled hbefore
  have hcustody := custody_exclusive hbefore
  have hqueued : queued.messageID ∈ queuedIDs c1.state := by
    dsimp only [system] at hexec
    rw [exec] at hexec
    split at hexec
    · cases hexec
    · rename_i hqueue
      cases hexec
      rw [queuedIDs, hqueue]
      exact mem_cons_self
  have hreserved := hcustody.queued _ hqueued
  have hsucc := hsucceeded ⟨pid, t, .returned queued.messageID true, ()⟩
    (hold ▸ mem_append_right mid mem_cons_self) _ rfl
  have hpid := hfits pid
  have hphase : phase c1.hist pid = .completed queued.messageID false := by
    dsimp only at hsucc
    cases hphase : phase c1.hist pid with
    | finished =>
      rw [hphase] at hsucc
      cases hsucc
      exact absurd hqueued (hcustody.held (congrArg Phase.holds hphase)).2
    | released =>
      rw [hphase] at hsucc hpid
      cases hsucc
      exact absurd hreserved hpid
    | completed id saved =>
      rw [hphase] at hsucc hpid
      cases hsucc
      cases saved with
      | true => exact absurd hreserved hpid.1
      | false => rfl
    | _ =>
      rw [hphase] at hsucc
      cases hsucc
  have hsuf : mid ++ ⟨pid, t, .returned queued.messageID true, ()⟩ :: old <:+ c.hist :=
    (suffix_cons _ _).trans ⟨new, hhist.symm⟩
  rw [hold] at hphase
  refine completion_failed h hsuf hphase ?_
  -- at the return the worker had not released the message yet
  have hallowed := allowed_of_suffix h ((suffix_append mid _).trans hsuf)
  have hself := phase_self ⟨pid, t, .returned queued.messageID true, ()⟩ old
  dsimp only at hallowed hself
  rw [hself]
  generalize phase old pid = p at hallowed ⊢
  cases hallowed
  rintro ⟨⟩

end Run

/-! ## Runs -/

theorem hist_split {e' : Event Task Call Call.Ans}
    {n : Nat} (hlast : hist.head? = some e') (hbefore : (hist.tail.drop n).head? = some e) :
    hist = [] ++ e' :: (hist.tail.take n ++ e :: (hist.tail.drop n).tail) := by
  have hrest := cons_head?_tail hbefore
  rw [nil_append, hrest, take_append_drop]
  exact (cons_head?_tail hlast).symm

/-- No worker has such a phase. -/
def nobody (p : Phase → Bool) (hist : List (Event Task Call Call.Ans)) : Bool :=
  hist.all fun e => !p (phase hist e.pid)

theorem of_nobody {p : Phase → Bool} (h : nobody p hist) (hidle : p .idle = false) (pid : Nat) :
    p (phase hist pid) = false := by
  by_cases hcall : ∃ e ∈ hist, e.pid = pid
  · obtain ⟨e, he, rfl⟩ := hcall
    have hphase := all_eq_true.mp h e he
    rwa [Bool.not_eq_true'] at hphase
  · have hphase : phase hist pid = .idle :=
      System.track_of_no_call fun e he hpid => hcall ⟨e, he, hpid⟩
    rw [hphase, hidle]

/-- Released after a success. -/
def Phase.isReleased : Phase → Bool
  | .released _ true => true
  | _ => false

/-- Completed after a success. -/
def Phase.isCompleted : Phase → Bool
  | .completed _ true => true
  | _ => false

/-- Nothing is completed, and nobody is about to at a reservation. -/
def undisturbed (v : View Task Call Call.Ans State) (e : Event Task Call Call.Ans) : Bool :=
  match e.op with
  | .reserveEventSub messageID =>
    (v.state.world.deliveries.eventSubInbox.lookup messageID).isSome &&
      nobody Phase.isReleased v.hist
  | .server (.delivery _) => nobody Phase.isCompleted v.hist
  | _ => true

theorem timely_of_undisturbed (v : View Task Call Call.Ans State) (e : Event Task Call Call.Ans)
    (h : undisturbed v e) : Timely v e := by
  unfold undisturbed at h
  unfold Timely
  split at h
  · rw [Bool.and_eq_true] at h
    refine .inr ⟨h.1, fun pid hphase => ?_⟩
    have hnobody := of_nobody h.2 rfl pid
    rw [hphase] at hnobody
    cases hnobody
  · intro pid messageID hphase
    have hnobody := of_nobody h rfl pid
    rw [hphase] at hnobody
    cases hnobody
  · trivial

/-- The completion fails, and the message is taken again. -/
theorem failed_completion_processed_again :
    ∃ c mid old, (system .pg 1).Steps Timely (start {}) c ∧
      c.hist = [] ++ ⟨3, .worker, .receive, ⟨"message", {}⟩⟩ ::
        (mid ++ ⟨1, .worker, .returned "message" true, ()⟩ :: old) ∧
      ∃ t completedAt err,
        (⟨1, t, .server (.delivery (.completeEventSub "message" completedAt)), .error err⟩ :
          Event Task Call Call.Ans) ∈ mid := by
  have hplay : ((system .pg 1).play undisturbed
      (.spawn (.webhook "message" {}) :: List.replicate 5 (.call 0 {}) ++
        .spawn .worker :: List.replicate 6 (.call 1 {}) ++ [.call 1 { fault := some .refused }] ++
        .spawn .drainer :: List.replicate 4 (.call 2 {}) ++ [.spawn .worker, .call 3 {}])
      (start {})).map (fun c => (c.hist.head?, (c.hist.tail.drop 7).head?)) =
        some (some ⟨3, .worker, .receive, ⟨"message", {}⟩⟩,
          some ⟨1, .worker, .returned "message" true, ()⟩) := rfl
  obtain ⟨c, hsteps, hres⟩ := System.play_map hplay
  simp only [Prod.mk.injEq] at hres
  have hhist := hist_split hres.1 hres.2
  have htimely := hsteps.mono timely_of_undisturbed
  exact ⟨c, _, _, htimely, hhist, success_is_final htimely hhist⟩

/-- The drainer reserves the message between the release and the completion. -/
theorem stale_listing_processes_twice :
    ∃ c mid old, (system .mem 1).Steps (fun _ _ => True) (start {}) c ∧
      (c.procs.all fun p => match p.task with
        | .adminRetry _ => false
        | _ => true) ∧
      c.hist = [] ++ ⟨3, .worker, .receive, ⟨"message", {}⟩⟩ ::
        (mid ++ ⟨2, .worker, .returned "message" true, ()⟩ :: old) ∧
      (⟨2, .worker, .server (.delivery (.completeEventSub "message" 1)), .ok ()⟩ :
        Event Task Call Call.Ans) ∈ mid := by
  have hplay : ((system .mem 1).play (fun _ _ => true)
      (.spawn (.webhook "message" {}) :: List.replicate 5 (.call 0 {}) ++
        .spawn .drainer :: List.replicate 2 (.call 1 {}) ++
        .spawn .worker :: List.replicate 5 (.call 2 {}) ++ List.replicate 2 (.call 1 {}) ++
        List.replicate 2 (.call 2 {}) ++ [.spawn .worker, .call 3 {}])
      (start {})).map (fun c => (c.procs.all fun p => match p.task with
        | .adminRetry _ => false
        | _ => true, c.hist.head?, (c.hist.tail.drop 5).head?, (c.hist.tail.take 5)[0]?)) =
        some (true, some ⟨3, .worker, .receive, ⟨"message", {}⟩⟩,
          some ⟨2, .worker, .returned "message" true, ()⟩,
          some ⟨2, .worker, .server (.delivery (.completeEventSub "message" 1)), .ok ()⟩) := rfl
  obtain ⟨c, hsteps, hres⟩ := System.play_map hplay
  simp only [Prod.mk.injEq] at hres
  obtain ⟨hnoRetry, hlast, hbefore, hdone⟩ := hres
  exact ⟨c, _, _, hsteps.mono fun _ _ _ => trivial, hnoRetry, hist_split hlast hbefore,
    mem_of_getElem? hdone⟩

end Pipeline

end Ferventio
