import Mathlib.Logic.Relation

/-!
# Programs of atomic calls

A handler of a server is a finite tree of calls to its environment: a database, a clock, a remote
service. `Prog Op Ans α` is that tree. What a call does is given separately, by a partial function
`exec op x s`: in state `s`, and with the environment's choice `x`, it returns the answer and the
new state, or `none` when the call blocks.

`Runs exec p s tr a s'` is the sequential meaning: started in `s`, the program `p` may return `a`
in `s'`, and `tr` lists its calls with their answers. `eval` computes one such run. `Returns p tr a`
leaves the states open, for a program that others run beside.

* **`runs_ret_iff`, `runs_call_iff`, `runs_bind_iff`**: a run taken apart along the program.
* **`Runs.only`**: the rule for invariants of a run; **`exists_runs`**: a program that returns.
-/

/-- A program that performs calls and returns an `α`. -/
inductive Prog (Op : Type) (Ans : Op → Type) (α : Type) : Type
  | ret (a : α)
  | call (op : Op) (k : Ans op → Prog Op Ans α)

namespace Prog

variable {Op : Type} {Ans : Op → Type} {α β γ : Type}

/-- One program after another. -/
def bind : Prog Op Ans α → (α → Prog Op Ans β) → Prog Op Ans β
  | ret a, f => f a
  | call op k, f => call op fun x => (k x).bind f

instance : Monad (Prog Op Ans) where
  pure := ret
  bind := bind

/-- The program of one call. -/
def perform (op : Op) : Prog Op Ans (Ans op) := call op ret

@[simp] theorem pure_eq (a : α) : (pure a : Prog Op Ans α) = ret a := rfl

@[simp] theorem ret_bind (a : α) (f : α → Prog Op Ans β) : (ret a >>= f) = f a := rfl

@[simp] theorem call_bind (op : Op) (k : Ans op → Prog Op Ans α) (f : α → Prog Op Ans β) :
    (call op k >>= f) = call op fun x => k x >>= f := rfl

@[simp] theorem perform_bind (op : Op) (f : Ans op → Prog Op Ans β) :
    (perform op >>= f) = call op f := rfl

/-- Every call satisfies `P`, as long as answers are within `Q`. -/
def Only (P : Op → Prop) (Q : (op : Op) → Ans op → Prop) : Prog Op Ans α → Prop
  | ret _ => True
  | call op k => P op ∧ ∀ x, Q op x → (k x).Only P Q

section Only

variable {P : Op → Prop} {Q : (op : Op) → Ans op → Prop}

theorem Only.bind {p : Prog Op Ans α} {f : α → Prog Op Ans β} (hp : p.Only P Q)
    (hf : ∀ a, (f a).Only P Q) : (p >>= f).Only P Q := by
  induction p with
  | ret a => exact hf a
  | call op k ih => exact ⟨hp.1, fun x hx => ih x (hp.2 x hx)⟩

theorem Only.perform_bind {op : Op} {f : Ans op → Prog Op Ans β} (hop : P op)
    (hf : ∀ x, Q op x → (f x).Only P Q) : (perform op >>= f).Only P Q :=
  ⟨hop, hf⟩

theorem Only.imp {P' : Op → Prop} {Q' : (op : Op) → Ans op → Prop} {p : Prog Op Ans α}
    (hPP' : ∀ op, P op → P' op) (hQQ' : ∀ op x, Q' op x → Q op x) (hp : p.Only P Q) :
    p.Only P' Q' := by
  induction p with
  | ret a => trivial
  | call op k ih => exact ⟨hPP' op hp.1, fun x hx => ih x (hp.2 x (hQQ' op x hx))⟩

theorem Only.mono {P' : Op → Prop} {p : Prog Op Ans α} (hPP' : ∀ op, P op → P' op)
    (hp : p.Only P Q) : p.Only P' Q :=
  hp.imp hPP' fun _ _ hx => hx

end Only

/-! ## The calls of a program -/

/-- The program may make the calls `tr`, so answered, and return `a`. -/
inductive Returns : Prog Op Ans α → List (Sigma Ans) → α → Prop
  | ret (a : α) : Returns (.ret a) [] a
  | call {op : Op} {k : Ans op → Prog Op Ans α} (b : Ans op) {tr : List (Sigma Ans)} {a : α}
      (hrest : Returns (k b) tr a) : Returns (.call op k) (⟨op, b⟩ :: tr) a

theorem Returns.only {P : Op → Prop} {p : Prog Op Ans α} {tr : List (Sigma Ans)} {a : α}
    (h : p.Returns tr a) (hp : p.Only P fun _ _ => True) : ∀ made ∈ tr, P made.1 := by
  induction h with
  | ret a => exact fun _ hmade => absurd hmade List.not_mem_nil
  | call b hrest ih =>
    intro made hmade
    rcases List.mem_cons.mp hmade with rfl | hmade
    · exact hp.1
    · exact ih (hp.2 b trivial) made hmade

/-! ## Sequential runs -/

section Sequential

variable {σ χ : Type} (exec : (op : Op) → χ → σ → Option (Ans op × σ))

/-- **Sequential meaning**: from `s` the program may return `a` in `s'` after the calls `tr`. -/
inductive Runs : Prog Op Ans α → σ → List (Sigma Ans) → α → σ → Prop
  | ret (a : α) (s : σ) : Runs (.ret a) s [] a s
  | call {op : Op} {k : Ans op → Prog Op Ans α} {x : χ} {b : Ans op} {s s' s'' : σ}
      {tr : List (Sigma Ans)} {a : α} (hcall : exec op x s = some (b, s'))
      (hrest : Runs (k b) s' tr a s'') : Runs (.call op k) s (⟨op, b⟩ :: tr) a s''

variable {exec}

variable {s : σ} {tr : List (Sigma Ans)} {a : α} {p : Prog Op Ans α} {s' : σ}

theorem runs_ret_iff {b : α} : Runs exec (.ret a) s tr b s' ↔ tr = [] ∧ b = a ∧ s' = s := by
  constructor
  · intro h
    cases h
    exact ⟨rfl, rfl, rfl⟩
  · rintro ⟨rfl, rfl, rfl⟩
    exact .ret _ _

theorem runs_call_iff {op : Op} {k : Ans op → Prog Op Ans α} {s'' : σ} :
    Runs exec (.call op k) s tr a s'' ↔
      ∃ x b s' tr', exec op x s = some (b, s') ∧ tr = ⟨op, b⟩ :: tr' ∧
        Runs exec (k b) s' tr' a s'' := by
  constructor
  · intro h
    cases h with
    | call hcall hrest => exact ⟨_, _, _, _, hcall, rfl, hrest⟩
  · rintro ⟨x, b, s', tr', hcall, rfl, hrest⟩
    exact .call hcall hrest

theorem runs_bind_iff {f : α → Prog Op Ans β} {b : β} {s'' : σ} :
    Runs exec (p >>= f) s tr b s'' ↔
      ∃ tr1 tr2 a s', tr = tr1 ++ tr2 ∧ Runs exec p s tr1 a s' ∧ Runs exec (f a) s' tr2 b s'' := by
  induction p generalizing s tr with
  | ret a =>
    simp only [ret_bind]
    constructor
    · intro h
      exact ⟨[], tr, a, s, rfl, .ret a s, h⟩
    · rintro ⟨tr1, tr2, a', s', rfl, h1, h2⟩
      obtain ⟨rfl, rfl, rfl⟩ := runs_ret_iff.mp h1
      exact h2
  | call op k ih =>
    rw [call_bind, runs_call_iff]
    constructor
    · rintro ⟨x, b', s', tr', hcall, rfl, hrest⟩
      obtain ⟨tr1, tr2, a, s1, rfl, h1, h2⟩ := (ih b').mp hrest
      exact ⟨⟨op, b'⟩ :: tr1, tr2, a, s1, rfl, .call hcall h1, h2⟩
    · rintro ⟨tr1, tr2, a, s1, rfl, h1, h2⟩
      obtain ⟨x, b', s', tr', hcall, rfl, hrest⟩ := runs_call_iff.mp h1
      exact ⟨x, b', s', tr' ++ tr2, hcall, rfl, (ih b').mpr ⟨tr', tr2, a, s1, rfl, hrest, h2⟩⟩

section Apart

variable {s'' : σ}

theorem Runs.of_ret {b : α} (h : Runs exec (.ret a) s tr b s') : tr = [] ∧ b = a ∧ s' = s :=
  runs_ret_iff.mp h

theorem Runs.of_call {op : Op} {k : Ans op → Prog Op Ans α}
    (h : Runs exec (.call op k) s tr a s'') :
    ∃ x b s' tr', exec op x s = some (b, s') ∧ tr = ⟨op, b⟩ :: tr' ∧ Runs exec (k b) s' tr' a s'' :=
  runs_call_iff.mp h

theorem Runs.of_perform {op : Op} {f : Ans op → Prog Op Ans α}
    (h : Runs exec (perform op >>= f) s tr a s'') :
    ∃ x b s' tr', exec op x s = some (b, s') ∧ tr = ⟨op, b⟩ :: tr' ∧ Runs exec (f b) s' tr' a s'' :=
  runs_call_iff.mp h

theorem Runs.of_bind {f : α → Prog Op Ans β} {b : β} (h : Runs exec (p >>= f) s tr b s'') :
    ∃ tr1 tr2 a s', tr = tr1 ++ tr2 ∧ Runs exec p s tr1 a s' ∧ Runs exec (f a) s' tr2 b s'' :=
  runs_bind_iff.mp h

end Apart

/-- After the calls `tr` the program has `q` left in state `s'`. -/
def Leads (exec : (op : Op) → χ → σ → Option (Ans op × σ)) (p : Prog Op Ans α) (s : σ)
    (tr : List (Sigma Ans)) (q : Prog Op Ans α) (s' : σ) : Prop :=
  ∀ tr' a s'', Runs exec q s' tr' a s'' → Runs exec p s (tr ++ tr') a s''

theorem Leads.trans {q r : Prog Op Ans α} {tr' : List (Sigma Ans)} {s'' : σ}
    (h : Leads exec p s tr q s') (h' : Leads exec q s' tr' r s'') :
    Leads exec p s (tr ++ tr') r s'' := by
  intro tr2 a s2 hrun
  rw [List.append_assoc]
  exact h _ a s2 (h' tr2 a s2 hrun)

theorem runs_perform_leads {op : Op} {f : Ans op → Prog Op Ans α} {s'' : σ}
    (h : Runs exec (perform op >>= f) s tr a s'') :
    ∃ x b s' tr', exec op x s = some (b, s') ∧ tr = ⟨op, b⟩ :: tr' ∧ Runs exec (f b) s' tr' a s'' ∧
      Leads exec (perform op >>= f) s [⟨op, b⟩] (f b) s' := by
  obtain ⟨x, b, s', tr', hcall, htr, hrest⟩ := h.of_perform
  exact ⟨x, b, s', tr', hcall, htr, hrest, fun _ _ _ hrun => .call hcall hrun⟩

theorem runs_bind_leads {f : α → Prog Op Ans β} {b : β} {s'' : σ}
    (h : Runs exec (p >>= f) s tr b s'') :
    ∃ tr1 tr2 a s', tr = tr1 ++ tr2 ∧ Runs exec p s tr1 a s' ∧ Runs exec (f a) s' tr2 b s'' ∧
      Leads exec (p >>= f) s tr1 (f a) s' := by
  obtain ⟨tr1, tr2, a, s', htr, hp, hf⟩ := h.of_bind
  refine ⟨tr1, tr2, a, s', htr, hp, hf, fun tr' _ _ hrun => ?_⟩
  exact runs_bind_iff.mpr ⟨tr1, tr', a, s', rfl, hp, hrun⟩

/-- **Invariants of a run**: `P` holds of its calls, and `I` is kept by calls that satisfy `P`. -/
theorem Runs.only {P : Op → Prop} {Q : (op : Op) → Ans op → Prop} {I : σ → Prop}
    (h : Runs exec p s tr a s') (hp : p.Only P Q)
    (hstep : ∀ op x s b s', I s → P op → exec op x s = some (b, s') → Q op b ∧ I s') (hs : I s) :
    (∀ e ∈ tr, P e.1) ∧ I s' := by
  induction h with
  | ret a s => exact ⟨fun _ he => absurd he List.not_mem_nil, hs⟩
  | call hcall hrest ih =>
    obtain ⟨hQ, hs⟩ := hstep _ _ _ _ _ hs hp.1 hcall
    obtain ⟨htr, hs⟩ := ih (hp.2 _ hQ) hs
    refine ⟨fun e he => ?_, hs⟩
    rcases List.mem_cons.mp he with rfl | he
    · exact hp.1
    · exact htr e he

theorem Runs.mono {exec' : (op : Op) → χ → σ → Option (Ans op × σ)} (h : Runs exec p s tr a s')
    (hexec : ∀ op x s r, exec op x s = some r → exec' op x s = some r) :
    Runs exec' p s tr a s' := by
  induction h with
  | ret a s => exact .ret a s
  | call hcall _ ih => exact .call (hexec _ _ _ _ hcall) ih

/-- **A program returns** when each of its calls can be answered in every state. -/
theorem exists_runs
    (hp : p.Only (fun op => ∀ s, ∃ x b s', exec op x s = some (b, s')) fun _ _ => True) (s : σ) :
    ∃ tr a s', Runs exec p s tr a s' := by
  induction p generalizing s with
  | ret a => exact ⟨[], a, s, .ret a s⟩
  | call op k ih =>
    obtain ⟨x, b, s1, hcall⟩ := hp.1 s
    obtain ⟨tr, a, s', hrest⟩ := ih b (hp.2 b trivial) s1
    exact ⟨_, a, s', .call hcall hrest⟩

/-- Run a program against a list of choices. -/
def eval (exec : (op : Op) → χ → σ → Option (Ans op × σ)) :
    Prog Op Ans α → List χ → σ → Option (List (Sigma Ans) × α × σ)
  | ret a, _, s => some ([], a, s)
  | call _ _, [], _ => none
  | call op k, x :: xs, s =>
    match exec op x s with
    | none => none
    | some (b, s') =>
      match eval exec (k b) xs s' with
      | none => none
      | some (tr, a, s'') => some (⟨op, b⟩ :: tr, a, s'')

theorem eval_runs {xs : List χ}
    (h : eval exec p xs s = some (tr, a, s')) : Runs exec p s tr a s' := by
  induction p generalizing xs s tr with
  | ret b =>
    cases h
    exact .ret _ _
  | call op k ih =>
    cases xs with
    | nil => cases h
    | cons x xs =>
      rw [eval] at h
      split at h
      · cases h
      · rename_i b s1 hcall
        split at h
        · cases h
        · rename_i tr' a' s2 hrest
          cases h
          exact .call hcall (ih b hrest)

end Sequential

end Prog
