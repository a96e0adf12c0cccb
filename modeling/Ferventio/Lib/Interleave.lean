import Mathlib.Tactic.SplitIfs
import Ferventio.Lib.Prog

/-!
# Interleavings of programs

A `System` says what a call does, which code each task runs and when the environment may start a
task; a configuration holds the shared state, the processes started so far and the history of all
calls. One step starts a task or performs one call of one process, so a run `Steps` is an arbitrary
interleaving of atomic calls. A run is constrained by a rule on every call; a condition `G` is a
rule that sees only the state and history before it.

* **`Steps.view_invariant`**: what every call preserves holds in every state of a run.
* **`Ensures`**: what may be assumed at every call, because it is an invariant
  (`ensures_invariant`), because the environment checked it when it started the task
  (`ensures_admitted`), or because of what the process learned from its own calls
  (`ensures_follows`).
* **`playUnder_steps`**: a schedule that evaluates is a run.
-/

variable {pid : Nat}

/-- A call: by which process and task, and its answer. -/
structure Event (τ Op : Type) (Ans : Op → Type) where
  pid : Nat
  task : τ
  op : Op
  ans : Ans op

/-- The shared state with the calls made so far, newest first. -/
structure View (τ Op : Type) (Ans : Op → Type) (σ : Type) where
  state : σ
  hist : List (Event τ Op Ans)

/-- A started task with the code it has still to run. -/
structure Proc (τ Op : Type) (Ans : Op → Type) where
  task : τ
  code : Prog Op Ans Unit

/-- A view and the processes, by their place in the list. -/
structure Config (τ Op : Type) (Ans : Op → Type) (σ : Type) extends View τ Op Ans σ where
  procs : List (Proc τ Op Ans)

/-- The meaning of calls, the code of tasks and which may start. -/
structure System (τ Op : Type) (Ans : Op → Type) (σ χ : Type) where
  exec : (op : Op) → χ → σ → Option (Ans op × σ)
  code : τ → Prog Op Ans Unit
  may : View τ Op Ans σ → τ → Bool

namespace View

variable {τ Op : Type} {Ans : Op → Type} {σ : Type}

/-- The view after an event. -/
def after (v : View τ Op Ans σ) (e : Event τ Op Ans) (s : σ) : View τ Op Ans σ :=
  ⟨s, e :: v.hist⟩

@[simp] theorem after_state (v : View τ Op Ans σ) (e : Event τ Op Ans) (s : σ) :
    (v.after e s).state = s := rfl

@[simp] theorem after_hist (v : View τ Op Ans σ) (e : Event τ Op Ans) (s : σ) :
    (v.after e s).hist = e :: v.hist := rfl

end View

namespace System

open List

variable {τ Op : Type} {Ans : Op → Type} {σ χ : Type}

/-- A condition on the calls of a run. -/
abbrev Condition (τ Op : Type) (Ans : Op → Type) (σ : Type) :=
  View τ Op Ans σ → Event τ Op Ans → Prop

/-- A rule that also sees the choice and the state after the call. -/
abbrev Rule (τ Op : Type) (Ans : Op → Type) (σ χ : Type) :=
  View τ Op Ans σ → Event τ Op Ans → χ → σ → Prop

/-- One step: a task starts, or a process performs its next call. -/
inductive StepUnder (S : System τ Op Ans σ χ) (R : Rule τ Op Ans σ χ) :
    Config τ Op Ans σ → Config τ Op Ans σ → Prop
  | spawn {c : Config τ Op Ans σ} (t : τ) (hmay : S.may c.toView t) :
      StepUnder S R c ⟨c.toView, c.procs ++ [⟨t, S.code t⟩]⟩
  | call {c : Config τ Op Ans σ} (pid : Nat) (t : τ) (op : Op) (k : Ans op → Prog Op Ans Unit)
      (x : χ) (a : Ans op) (s : σ) (hproc : c.procs[pid]? = some ⟨t, .call op k⟩)
      (hexec : S.exec op x c.state = some (a, s)) (hR : R c.toView ⟨pid, t, op, a⟩ x s) :
      StepUnder S R c ⟨c.toView.after ⟨pid, t, op, a⟩ s, c.procs.set pid ⟨t, k a⟩⟩

/-- A run whose calls all follow the rule. -/
def StepsUnder (S : System τ Op Ans σ χ) (R : Rule τ Op Ans σ χ) :
    Config τ Op Ans σ → Config τ Op Ans σ → Prop :=
  Relation.ReflTransGen (S.StepUnder R)

/-- A step whose call meets the condition. -/
abbrev Step (S : System τ Op Ans σ χ) (G : Condition τ Op Ans σ) :
    Config τ Op Ans σ → Config τ Op Ans σ → Prop :=
  S.StepUnder fun v e _ _ => G v e

/-- A run whose calls all meet the condition. -/
def Steps (S : System τ Op Ans σ χ) (G : Condition τ Op Ans σ) :
    Config τ Op Ans σ → Config τ Op Ans σ → Prop :=
  S.StepsUnder fun v e _ _ => G v e

variable {S : System τ Op Ans σ χ} {G G' : Condition τ Op Ans σ} {R R' : Rule τ Op Ans σ χ}
  {c0 c c' : Config τ Op Ans σ}

theorem StepUnder.mono (hRR' : ∀ v e x s, S.exec e.op x v.state = some (e.ans, s) → R v e x s →
    R' v e x s) (h : S.StepUnder R c c') : S.StepUnder R' c c' := by
  cases h with
  | spawn t hmay => exact .spawn t hmay
  | call pid t op k x a s hproc hexec hR =>
    exact .call pid t op k x a s hproc hexec (hRR' _ ⟨pid, t, op, a⟩ x s hexec hR)

theorem StepsUnder.mono (hRR' : ∀ v e x s, S.exec e.op x v.state = some (e.ans, s) → R v e x s →
    R' v e x s) (h : S.StepsUnder R c c') : S.StepsUnder R' c c' :=
  Relation.ReflTransGen.mono (fun _ _ => StepUnder.mono hRR') _ _ h

theorem Step.mono (hGG' : ∀ v e, G v e → G' v e) (h : S.Step G c c') : S.Step G' c c' :=
  StepUnder.mono (fun v e _ _ _ => hGG' v e) h

theorem Steps.mono (hGG' : ∀ v e, G v e → G' v e) (h : S.Steps G c c') : S.Steps G' c c' :=
  StepsUnder.mono (fun v e _ _ _ => hGG' v e) h

/-- **Invariants of a run**: what every call preserves, whichever process performs it. -/
theorem StepsUnder.view_invariant {I : View τ Op Ans σ → Prop}
    (hcall : ∀ (v : View τ Op Ans σ) (e : Event τ Op Ans) (x : χ) (s : σ), I v →
      S.exec e.op x v.state = some (e.ans, s) → R v e x s → I (v.after e s))
    (h0 : I c0.toView) (h : S.StepsUnder R c0 c) : I c.toView := by
  induction h with
  | refl => exact h0
  | tail _ hstep ih =>
    cases hstep with
    | spawn => exact ih
    | call pid t op k x a s hproc hexec hR => exact hcall _ ⟨pid, t, op, a⟩ x s ih hexec hR

theorem Steps.view_invariant {I : View τ Op Ans σ → Prop}
    (hcall : ∀ (v : View τ Op Ans σ) (e : Event τ Op Ans) (x : χ) (s : σ), I v →
      S.exec e.op x v.state = some (e.ans, s) → G v e → I (v.after e s))
    (h0 : I c0.toView) (h : S.Steps G c0 c) : I c.toView :=
  StepsUnder.view_invariant hcall h0 h

theorem Steps.hist_suffix (h : S.Steps G c c') : c.hist <:+ c'.hist :=
  h.view_invariant (I := fun v => c.hist <:+ v.hist)
    (fun _ e _ _ hv _ _ => hv.trans (suffix_cons e _)) suffix_rfl

theorem Steps.task_eq (h : S.Steps G c0 c) (h0 : c0.hist = []) {e e' : Event τ Op Ans}
    (he : e ∈ c.hist) (he' : e' ∈ c.hist) (hpid : e.pid = e'.pid) : e.task = e'.task := by
  have hprocs : ∀ e ∈ c.hist, ∃ p, c.procs[e.pid]? = some p ∧ p.task = e.task := by
    clear he he'
    induction h with
    | refl =>
      intro e he
      rw [h0] at he
      cases he
    | tail _ hstep ih =>
      cases hstep with
      | spawn =>
        intro e he
        obtain ⟨p, hp, htask⟩ := ih e he
        have hlt := (List.getElem?_eq_some_iff.mp hp).1
        exact ⟨p, (getElem?_append_left hlt).trans hp, htask⟩
      | call pid t op k x a s hproc =>
        have hlt := (List.getElem?_eq_some_iff.mp hproc).1
        intro e he
        by_cases hpid : pid = e.pid
        · refine ⟨⟨t, k a⟩, ?_, ?_⟩
          · rw [← hpid, getElem?_set_self hlt]
          · rcases mem_cons.mp he with rfl | he
            · rfl
            · obtain ⟨p, hp, htask⟩ := ih e he
              rw [← hpid, hproc] at hp
              cases hp
              exact htask
        · rcases mem_cons.mp he with rfl | he
          · exact absurd rfl hpid
          · obtain ⟨p, hp, htask⟩ := ih e he
            exact ⟨p, (getElem?_set_ne hpid).trans hp, htask⟩
  obtain ⟨p, hp, htask⟩ := hprocs e he
  obtain ⟨p', hp', htask'⟩ := hprocs e' he'
  rw [hpid, hp'] at hp
  cases hp
  exact htask.symm.trans htask'

theorem Steps.moment (h : S.Steps G c0 c) {e : Event τ Op Ans} {old : List (Event τ Op Ans)}
    (hsuf : e :: old <:+ c.hist) (h0 : c0.hist <:+ old) :
    ∃ c1 c2 x s, S.Steps G c0 c1 ∧ S.Step G c1 c2 ∧ S.Steps G c2 c ∧ c1.hist = old ∧
      c2.toView = c1.toView.after e s ∧ S.exec e.op x c1.state = some (e.ans, s) ∧
      G c1.toView e := by
  induction h with
  | refl =>
    have hlen := (hsuf.trans h0).length_le
    rw [length_cons] at hlen
    omega
  | tail hsteps hstep ih =>
    have hkeep := hstep
    cases hstep with
    | spawn =>
      obtain ⟨c1, c2, x, s, hbefore, hat, hafter, hcall⟩ := ih hsuf
      exact ⟨c1, c2, x, s, hbefore, hat, hafter.tail hkeep, hcall⟩
    | call pid t op k x a s hproc hexec hG =>
      rcases suffix_cons_iff.mp hsuf with heq | hsuf
      · cases heq
        exact ⟨_, _, x, s, hsteps, hkeep, .refl, rfl, rfl, hexec, hG⟩
      · obtain ⟨c1, c2, x', s', hbefore, hat, hafter, hcall⟩ := ih hsuf
        exact ⟨c1, c2, x', s', hbefore, hat, hafter.tail hkeep, hcall⟩

theorem Steps.moment_of_new (h : S.Steps G c c') {e : Event τ Op Ans} {old : List (Event τ Op Ans)}
    (hsuf : e :: old <:+ c'.hist) (hnew : e ∉ c.hist) :
    ∃ c1 c2 x s, S.Steps G c c1 ∧ S.Step G c1 c2 ∧ S.Steps G c2 c' ∧ c1.hist = old ∧
      c2.toView = c1.toView.after e s ∧ S.exec e.op x c1.state = some (e.ans, s) ∧
      G c1.toView e := by
  refine h.moment hsuf ?_
  rcases suffix_or_suffix_of_suffix hsuf h.hist_suffix with hold | hlater
  · exact absurd (hold.subset mem_cons_self) hnew
  · rcases suffix_cons_iff.mp hlater with heq | hlater
    · rw [heq] at hnew
      exact absurd mem_cons_self hnew
    · exact hlater

theorem Step.at_call {e : Event τ Op Ans} {s : σ} (h : S.Step G c c')
    (hc' : c'.toView = c.toView.after e s) : G c.toView e := by
  have hhist : c'.hist = e :: c.hist := congrArg View.hist hc'
  cases h with
  | spawn => exact absurd hhist (cons_ne_self e c.hist).symm
  | call pid t op k x a s hproc hexec hG =>
    obtain ⟨rfl, -⟩ := cons.inj hhist
    exact hG

/-! ## What may be assumed at a call -/

/-- In every run from `c0` the calls that meet `G` also meet `G'`. -/
def Ensures (S : System τ Op Ans σ χ) (c0 : Config τ Op Ans σ) (G G' : Condition τ Op Ans σ) :
    Prop :=
  ∀ c c', S.Steps G c0 c → S.Step G c c' → S.Step G' c c'

theorem Ensures.steps (hens : S.Ensures c0 G G') (h0 : S.Steps G c0 c) (h : S.Steps G c c') :
    S.Steps G' c c' := by
  induction h with
  | refl => exact .refl
  | tail hsteps hstep ih => exact ih.tail (hens _ _ (h0.trans hsteps) hstep)

theorem Ensures.trans {G'' : Condition τ Op Ans σ} (h : S.Ensures c0 G G')
    (h' : S.Ensures c0 G' G'') : S.Ensures c0 G G'' :=
  fun c c' hsteps hstep => h' c c' (h.steps .refl hsteps) (h c c' hsteps hstep)

theorem Ensures.under (hens : S.Ensures c0 G G') (hRG : ∀ v e x s, R v e x s → G v e)
    (h0 : S.StepsUnder R c0 c) (h : S.StepsUnder R c c') :
    S.StepsUnder (fun v e x s => R v e x s ∧ G' v e) c c' := by
  induction h with
  | refl => exact .refl
  | tail hsteps hstep ih =>
    refine ih.tail ?_
    have hstepG := hens _ _ (StepsUnder.mono (fun v e x s _ => hRG v e x s) (h0.trans hsteps))
      (hstep.mono fun v e x s _ => hRG v e x s)
    cases hstep with
    | spawn t hmay => exact .spawn t hmay
    | call pid t op k x a s hproc hexec hR =>
      exact .call pid t op k x a s hproc hexec ⟨hR, hstepG.at_call rfl⟩

theorem StepsUnder.with_invariant {I : View τ Op Ans σ → Prop}
    (hcall : ∀ (v : View τ Op Ans σ) (e : Event τ Op Ans) (x : χ) (s : σ), I v →
      S.exec e.op x v.state = some (e.ans, s) → R v e x s → I (v.after e s))
    (h0 : I c.toView) (h : S.StepsUnder R c c') :
    S.StepsUnder (fun v e x s => R v e x s ∧ I v) c c' := by
  induction h with
  | refl => exact .refl
  | tail hsteps hstep ih =>
    have hI := StepsUnder.view_invariant hcall h0 hsteps
    refine ih.tail ?_
    cases hstep with
    | spawn t hmay => exact .spawn t hmay
    | call pid t op k x a s hproc hexec hR => exact .call pid t op k x a s hproc hexec ⟨hR, hI⟩

theorem ensures_invariant {I : View τ Op Ans σ → Prop}
    (hcall : ∀ (v : View τ Op Ans σ) (e : Event τ Op Ans) (x : χ) (s : σ), I v →
      S.exec e.op x v.state = some (e.ans, s) → G v e → I (v.after e s))
    (h0 : I c0.toView) : S.Ensures c0 G fun v e => G v e ∧ I v := by
  intro c c' hsteps hstep
  have hI := hsteps.view_invariant hcall h0
  cases hstep with
  | spawn t hmay => exact .spawn t hmay
  | call pid t op k x a s hproc hexec hG => exact .call pid t op k x a s hproc hexec ⟨hG, hI⟩

/-- What the environment checks when it starts a task, and no call undoes, holds at its calls. -/
theorem ensures_admitted {M : View τ Op Ans σ → τ → Prop} (hmay : ∀ v t, S.may v t → M v t)
    (hgrow : ∀ v e s t, M v t → M (v.after e s) t) (hprocs : c0.procs = []) :
    S.Ensures c0 G fun v e => G v e ∧ M v e.task := by
  intro c c' hsteps hstep
  have hM : ∀ p ∈ c.procs, M c.toView p.task := by
    clear hstep
    induction hsteps with
    | refl =>
      intro p hp
      rw [hprocs] at hp
      cases hp
    | tail _ hstep ih =>
      cases hstep with
      | spawn t ht =>
        intro p hp
        rcases mem_append.mp hp with hp | hp
        · exact ih p hp
        · rw [mem_singleton.mp hp]
          exact hmay _ t ht
      | call pid t op k x a s hproc =>
        intro p hp
        have ht := ih _ (mem_of_getElem? hproc)
        refine hgrow _ _ _ _ ?_
        rcases mem_or_eq_of_mem_set hp with hp | rfl
        · exact ih p hp
        · exact ht
  cases hstep with
  | spawn t ht => exact .spawn t ht
  | call pid t op k x a s hproc hexec hG =>
    exact .call pid t op k x a s hproc hexec ⟨hG, hM _ (mem_of_getElem? hproc)⟩

/-- The calls newer than `hist0` satisfy `P`, with the calls before them. -/
def Since (hist0 hist : List (Event τ Op Ans))
    (P : List (Event τ Op Ans) → Event τ Op Ans → Prop) : Prop :=
  ∀ new e old, hist = new ++ e :: old → hist0 <:+ old → P old e

theorem StepsUnder.since {P : List (Event τ Op Ans) → Event τ Op Ans → Prop}
    (hcall : ∀ (v : View τ Op Ans σ) (e : Event τ Op Ans) (x : χ) (s : σ),
      S.exec e.op x v.state = some (e.ans, s) → R v e x s → P v.hist e)
    (h : S.StepsUnder R c c') : Since c.hist c'.hist P := by
  refine h.view_invariant (I := fun v => Since c.hist v.hist P) ?_ ?_
  · intro v e x s hv hexec hG new e' old hhist hsuf
    cases new with
    | nil =>
      cases hhist
      exact hcall v e x s hexec hG
    | cons e1 new => exact hv new e' old (cons.inj hhist).2 hsuf
  · -- nothing is newer than the whole history
    intro new e old hhist hsuf
    have hlen := hsuf.length_le
    rw [hhist, length_append, length_cons] at hlen
    omega

theorem StepsUnder.invariant_since {I : View τ Op Ans σ → Prop}
    {P : List (Event τ Op Ans) → Event τ Op Ans → Prop}
    (hcall : ∀ (v : View τ Op Ans σ) (e : Event τ Op Ans) (x : χ) (s : σ), I v →
      S.exec e.op x v.state = some (e.ans, s) → R v e x s → P v.hist e → I (v.after e s))
    (h : S.StepsUnder R c c') (h0 : I c.toView) (hsince : Since c.hist c'.hist P) :
    I c'.toView := by
  refine h.view_invariant (I := fun v => c.hist <:+ v.hist ∧ (Since c.hist v.hist P → I v))
    ?_ ⟨suffix_rfl, fun _ => h0⟩ |>.2 hsince
  rintro v e x s ⟨hsuf, hv⟩ hexec hR
  refine ⟨hsuf.trans (suffix_cons e _), fun hsince => ?_⟩
  have hI := hv fun new e' old hhist => hsince (e :: new) e' old (congrArg (e :: ·) hhist)
  exact hcall v e x s hI hexec hR (hsince [] e v.hist rfl hsuf)

/-! ## What a process knows -/

section Tracking

variable {φ : Type}

/-- What a process knows, folded over its own calls. -/
def track (init : φ) (next : τ → φ → (op : Op) → Ans op → φ) :
    List (Event τ Op Ans) → Nat → φ
  | [], _ => init
  | e :: hist, pid =>
    if e.pid = pid then next e.task (track init next hist pid) e.op e.ans
    else track init next hist pid

section History

variable {init : φ} {next : τ → φ → (op : Op) → Ans op → φ}

theorem track_self (e : Event τ Op Ans) (hist : List (Event τ Op Ans)) :
    track init next (e :: hist) e.pid = next e.task (track init next hist e.pid) e.op e.ans :=
  if_pos rfl

theorem track_other {e : Event τ Op Ans} (h : e.pid ≠ pid) (hist : List (Event τ Op Ans)) :
    track init next (e :: hist) pid = track init next hist pid :=
  if_neg h

theorem track_of_no_call {hist : List (Event τ Op Ans)} (h : ∀ e ∈ hist, e.pid ≠ pid) :
    track init next hist pid = init := by
  induction hist with
  | nil => rfl
  | cons e hist ih =>
    rw [track_other (h e mem_cons_self)]
    exact ih fun e' he' => h e' (mem_cons_of_mem e he')

theorem track_learned {P : φ → Prop} {hist : List (Event τ Op Ans)}
    (h : P (track init next hist pid)) (h0 : ¬P init) :
    ∃ e old, e :: old <:+ hist ∧ e.pid = pid ∧ ¬P (track init next old pid) ∧
      P (next e.task (track init next old pid) e.op e.ans) := by
  induction hist with
  | nil => exact absurd h h0
  | cons e hist ih =>
    by_cases hbefore : P (track init next hist pid)
    · obtain ⟨e', old, hsuf, hrest⟩ := ih hbefore
      exact ⟨e', old, hsuf.trans (suffix_cons e hist), hrest⟩
    · by_cases hpid : e.pid = pid
      · subst hpid
        rw [track_self] at h
        exact ⟨e, hist, suffix_rfl, rfl, hbefore, h⟩
      · rw [track_other hpid] at h
        exact absurd h hbefore

end History

variable {next : φ → (op : Op) → Ans op → φ} {allowed : φ → Op → Prop} {α β : Type}

/-- From knowledge `p` the program makes only allowed calls, and `post` holds at the end. -/
def Follows (next : φ → (op : Op) → Ans op → φ) (allowed : φ → Op → Prop)
    (post : α → φ → Prop) : Prog Op Ans α → φ → Prop
  | .ret a, p => post a p
  | .call op k, p => allowed p op ∧ ∀ a, Follows next allowed post (k a) (next p op a)

variable {p : φ} {prog : Prog Op Ans α}

theorem Follows.bind {mid : α → φ → Prop} {post : β → φ → Prop}
    {f : α → Prog Op Ans β} (h : Follows next allowed mid prog p)
    (hf : ∀ a p', mid a p' → Follows next allowed post (f a) p') :
    Follows next allowed post (prog >>= f) p := by
  induction prog generalizing p with
  | ret a => exact hf a p h
  | call op k ih => exact ⟨h.1, fun a => ih a (h.2 a)⟩

theorem Follows.perform_bind {post : β → φ → Prop} {op : Op} {f : Ans op → Prog Op Ans β}
    (hop : allowed p op) (hf : ∀ a, Follows next allowed post (f a) (next p op a)) :
    Follows next allowed post (Prog.perform op >>= f) p :=
  ⟨hop, hf⟩

theorem Follows.mono {post post' : α → φ → Prop}
    (h : Follows next allowed post prog p) (hpost : ∀ a p', post a p' → post' a p') :
    Follows next allowed post' prog p := by
  induction prog generalizing p with
  | ret a => exact hpost a p h
  | call op k ih => exact ⟨h.1, fun a => ih a (h.2 a)⟩

theorem follows_of_stable {P : Op → Prop} {I : φ → Prop} (hprog : prog.Only P fun _ _ => True)
    (hP : ∀ p op, I p → P op → allowed p op ∧ ∀ a, I (next p op a)) (hp : I p) :
    Follows next allowed (fun _ => I) prog p := by
  induction prog generalizing p with
  | ret a => exact hp
  | call op k ih =>
    obtain ⟨hok, hnext⟩ := hP p op hp hprog.1
    exact ⟨hok, fun a => ih a (hprog.2 a trivial) (hnext a)⟩

theorem follows_of_only {P : Op → Prop} (hprog : prog.Only P fun _ _ => True)
    (hP : ∀ op, P op → allowed p op ∧ ∀ a, next p op a = p) :
    Follows next allowed (fun _ p' => p' = p) prog p := by
  refine follows_of_stable hprog ?_ rfl
  rintro p' op rfl hop
  exact hP op hop

theorem follows_of_allowed {P : Op → Prop}
    (hprog : prog.Only P fun _ _ => True) (hP : ∀ p op, P op → allowed p op) :
    Follows next allowed (fun _ _ => True) prog p :=
  follows_of_stable hprog (fun p op _ hop => ⟨hP p op hop, fun _ => trivial⟩) trivial

end Tracking

section Knowledge

variable {φ : Type} {init : φ} {next : τ → φ → (op : Op) → Ans op → φ}
  {allowed : τ → φ → Op → Prop} {post : τ → φ → Prop}

variable (hcode : ∀ t, Follows (next t) (allowed t) (fun _ => post t) (S.code t) init)

include hcode

/-- The code that each process has left follows what it knows. -/
theorem Steps.follows (hhist : c0.hist = []) (hprocs : c0.procs = []) (h : S.Steps G c0 c) :
    (∀ pid p, c.procs[pid]? = some p →
        Follows (next p.task) (allowed p.task) (fun _ => post p.task) p.code
          (track init next c.hist pid)) ∧
      ∀ pid, c.procs.length ≤ pid → track init next c.hist pid = init := by
  induction h with
  | refl =>
    refine ⟨fun pid p hp => ?_, fun pid _ => ?_⟩
    · rw [hprocs] at hp
      cases hp
    · rw [hhist, track]
  | tail _ hstep ih =>
    obtain ⟨hfollows, hfresh⟩ := ih
    cases hstep with
    | spawn t =>
      refine ⟨fun pid p hp => ?_, fun pid hpid => ?_⟩
      · rw [getElem?_append] at hp
        split_ifs at hp with hlt
        · exact hfollows pid p hp
        · obtain rfl := mem_singleton.mp (mem_of_getElem? hp)
          rw [hfresh pid (Nat.le_of_not_lt hlt)]
          exact hcode t
      · refine hfresh pid (Nat.le_trans ?_ hpid)
        rw [length_append]
        exact Nat.le_add_right _ _
    | call pid t op k x a s hproc =>
      have hrest := (hfollows pid _ hproc).2
      refine ⟨fun pid' p hp => ?_, fun pid' hpid' => ?_⟩
      · rw [getElem?_set] at hp
        split_ifs at hp with hpid hlt
        · cases hp
          subst hpid
          rw [View.after_hist, track_self]
          exact hrest a
        · rw [View.after_hist, track_other hpid]
          exact hfollows pid' p hp
      · rw [length_set] at hpid'
        have hlt : pid < _ := (List.getElem?_eq_some_iff.mp hproc).1
        rw [View.after_hist, track_other (Nat.ne_of_lt (Nat.lt_of_lt_of_le hlt hpid'))]
        exact hfresh pid' hpid'

/-- **What the processes know along a run.** If the code of every task follows its own knowledge,
each call is one that the knowledge of its process allows. -/
theorem ensures_follows (hhist : c0.hist = []) (hprocs : c0.procs = []) :
    S.Ensures c0 G fun v e => G v e ∧ allowed e.task (track init next v.hist e.pid) e.op := by
  intro c c' hsteps hstep
  have hknows := (hsteps.follows hcode hhist hprocs).1
  cases hstep with
  | spawn t hmay => exact .spawn t hmay
  | call pid t op k x a s hproc hexec hG =>
    exact .call pid t op k x a s hproc hexec ⟨hG, (hknows pid _ hproc).1⟩

theorem Steps.finished (hhist : c0.hist = []) (hprocs : c0.procs = []) (h : S.Steps G c0 c) {t : τ}
    (hproc : c.procs[pid]? = some ⟨t, .ret ()⟩) : post t (track init next c.hist pid) :=
  (h.follows hcode hhist hprocs).1 pid _ hproc

end Knowledge

/-! ## The calls of one process -/

section Trace

/-- What is known to a process that remembers every call it made. -/
def remember (tr : List (Sigma Ans)) (op : Op) (a : Ans op) : List (Sigma Ans) := tr ++ [⟨op, a⟩]

/-- The calls of a process, oldest first. -/
def trace (hist : List (Event τ Op Ans)) (pid : Nat) : List (Sigma Ans) :=
  track [] (fun _ => remember) hist pid

theorem trace_self (e : Event τ Op Ans) (hist : List (Event τ Op Ans)) :
    trace (e :: hist) e.pid = trace hist e.pid ++ [⟨e.op, e.ans⟩] :=
  track_self e hist

theorem trace_other {e : Event τ Op Ans} (h : e.pid ≠ pid)
    (hist : List (Event τ Op Ans)) : trace (e :: hist) pid = trace hist pid :=
  track_other h hist

theorem trace_cons_eq (e : Event τ Op Ans) (hist : List (Event τ Op Ans)) (pid : Nat) :
    ∃ more, trace (e :: hist) pid = trace hist pid ++ more := by
  by_cases hpid : e.pid = pid
  · subst hpid
    exact ⟨_, trace_self e hist⟩
  · exact ⟨[], by rw [trace_other hpid, append_nil]⟩

theorem mem_trace_cons {e : Event τ Op Ans} {hist : List (Event τ Op Ans)}
    {made : Sigma Ans} (h : made ∈ trace (e :: hist) pid) :
    made ∈ trace hist pid ∨ made = ⟨e.op, e.ans⟩ := by
  by_cases hpid : e.pid = pid
  · subst hpid
    rw [trace_self] at h
    simpa using h
  · rw [trace_other hpid] at h
    exact .inl h

theorem mem_trace {e : Event τ Op Ans} {hist : List (Event τ Op Ans)} (h : e ∈ hist) :
    ⟨e.op, e.ans⟩ ∈ trace hist e.pid := by
  induction hist with
  | nil => cases h
  | cons e' hist ih =>
    rcases mem_cons.mp h with rfl | h
    · rw [trace_self]
      exact mem_append_right _ mem_cons_self
    · obtain ⟨more, hmore⟩ := trace_cons_eq e' hist e.pid
      rw [hmore]
      exact mem_append_left _ (ih h)

theorem exists_of_mem_trace {hist : List (Event τ Op Ans)} {made : Sigma Ans}
    (h : made ∈ trace hist pid) :
    ∃ e old, e :: old <:+ hist ∧ e.pid = pid ∧ made = ⟨e.op, e.ans⟩ := by
  induction hist with
  | nil => cases h
  | cons e hist ih =>
    by_cases hpid : e.pid = pid
    · rcases mem_trace_cons h with h | rfl
      · obtain ⟨e', old, hsuf, hrest⟩ := ih h
        exact ⟨e', old, hsuf.trans (suffix_cons e hist), hrest⟩
      · exact ⟨e, hist, suffix_rfl, hpid, rfl⟩
    · rw [trace_other hpid] at h
      obtain ⟨e', old, hsuf, hrest⟩ := ih h
      exact ⟨e', old, hsuf.trans (suffix_cons e hist), hrest⟩

theorem ensures_trace {allowed : τ → List (Sigma Ans) → Op → Prop}
    (hcode : ∀ t, Follows remember (allowed t) (fun _ _ => True) (S.code t) [])
    (hhist : c0.hist = []) (hprocs : c0.procs = []) :
    S.Ensures c0 G fun v e => G v e ∧ allowed e.task (trace v.hist e.pid) e.op :=
  @ensures_follows _ _ _ _ _ S G c0 _ [] (fun _ => remember) allowed (fun _ _ => True) hcode
    hhist hprocs

variable {allowed : List (Sigma Ans) → Op → Prop} {α : Type}

theorem follows_returns {P : Op → Prop} {prog : Prog Op Ans α} (tr : List (Sigma Ans))
    (hprog : prog.Only P fun _ _ => True) (hP : ∀ tr op, P op → allowed tr op) :
    Follows remember allowed (fun a tr' => ∃ more, tr' = tr ++ more ∧ prog.Returns more a)
      prog tr := by
  induction prog generalizing tr with
  | ret a => exact ⟨[], (append_nil tr).symm, .ret a⟩
  | call op k ih =>
    refine ⟨hP tr op hprog.1, fun b => (ih b _ (hprog.2 b trivial)).mono ?_⟩
    rintro a tr' ⟨more, rfl, hreturns⟩
    exact ⟨⟨op, b⟩ :: more, by rw [remember, append_assoc, singleton_append], .call b hreturns⟩

end Trace

/-! ## Schedules -/

/-- A task starts, or a process performs its next call. -/
inductive Move (τ χ : Type)
  | spawn (t : τ)
  | call (pid : Nat) (x : χ)

/-- The configuration after a possible move that passes `check`. -/
def advance (S : System τ Op Ans σ χ) (check : View τ Op Ans σ → Event τ Op Ans → χ → σ → Bool)
    (c : Config τ Op Ans σ) : Move τ χ → Option (Config τ Op Ans σ)
  | .spawn t =>
    if S.may c.toView t then some ⟨c.toView, c.procs ++ [⟨t, S.code t⟩]⟩ else none
  | .call pid x =>
    match c.procs[pid]? with
    | some ⟨t, .call op k⟩ =>
      match S.exec op x c.state with
      | some (a, s) =>
        if check c.toView ⟨pid, t, op, a⟩ x s then
          some ⟨c.toView.after ⟨pid, t, op, a⟩ s, c.procs.set pid ⟨t, k a⟩⟩
        else none
      | none => none
    | _ => none

/-- The configuration after a schedule. -/
def playUnder (S : System τ Op Ans σ χ) (check : View τ Op Ans σ → Event τ Op Ans → χ → σ → Bool) :
    List (Move τ χ) → Config τ Op Ans σ → Option (Config τ Op Ans σ)
  | [], c => some c
  | m :: ms, c =>
    match S.advance check c m with
    | some c' => S.playUnder check ms c'
    | none => none

/-- A schedule whose calls are checked before they are made. -/
def play (S : System τ Op Ans σ χ) (check : View τ Op Ans σ → Event τ Op Ans → Bool) :
    List (Move τ χ) → Config τ Op Ans σ → Option (Config τ Op Ans σ) :=
  S.playUnder fun v e _ _ => check v e

section Under

variable {check : View τ Op Ans σ → Event τ Op Ans → χ → σ → Bool}

theorem advance_step {m : Move τ χ} (h : S.advance check c m = some c') :
    S.StepUnder (fun v e x s => check v e x s = true) c c' := by
  cases m with
  | spawn t =>
    rw [advance] at h
    split_ifs at h with hmay
    cases h
    exact .spawn t hmay
  | call pid x =>
    rw [advance] at h
    split at h
    · rename_i t op k hproc
      split at h
      · rename_i a s hexec
        split_ifs at h with hcheck
        cases h
        exact .call pid t op k x a s hproc hexec hcheck
      · cases h
    · cases h

theorem playUnder_steps {ms : List (Move τ χ)} (h : S.playUnder check ms c = some c') :
    S.StepsUnder (fun v e x s => check v e x s = true) c c' := by
  induction ms generalizing c with
  | nil =>
    cases h
    exact .refl
  | cons m ms ih =>
    rw [playUnder] at h
    split at h
    · rename_i c1 hadv
      exact .head (advance_step hadv) (ih h)
    · cases h

end Under

variable {check : View τ Op Ans σ → Event τ Op Ans → Bool}

theorem play_steps {ms : List (Move τ χ)} (h : S.play check ms c = some c') :
    S.Steps (fun v e => check v e = true) c c' :=
  playUnder_steps h

theorem play_map {α : Type} {ms : List (Move τ χ)} {f : Config τ Op Ans σ → α} {a : α}
    (h : (S.play check ms c).map f = some a) :
    ∃ c', S.Steps (fun v e => check v e = true) c c' ∧ f c' = a := by
  obtain ⟨c', hc', h⟩ := Option.map_eq_some_iff.mp h
  exact ⟨c', play_steps hc', h⟩

theorem play_play {α : Type} {ms ms' : List (Move τ χ)}
    {f : Config τ Op Ans σ → Config τ Op Ans σ → α} {a : α}
    (h : ((S.play check ms c0).bind fun c => (S.play check ms' c).map (f c)) = some a) :
    ∃ c c', S.Steps (fun v e => check v e = true) c0 c ∧
      S.Steps (fun v e => check v e = true) c c' ∧ f c c' = a := by
  obtain ⟨c, hc, h⟩ := Option.bind_eq_some_iff.mp h
  obtain ⟨c', hc', h⟩ := Option.map_eq_some_iff.mp h
  exact ⟨c, c', play_steps hc, play_steps hc', h⟩

end System
