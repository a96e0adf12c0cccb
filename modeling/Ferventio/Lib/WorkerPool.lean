import Mathlib.Algebra.GroupWithZero.Nat
import Mathlib.Algebra.BigOperators.Group.List.Basic
import Mathlib.Data.List.Perm.Subperm
import Mathlib.Logic.Relation
import Mathlib.Order.WellFounded

/-!
# Worker pools

A producer hands the items of a list over an unbuffered channel to workers, closes the channel and
waits until the workers have ended. Producer and workers may watch a context: once it is cancelled,
the producer may stop sending, and a worker that has received an item leaves instead of handling it.
The result of an item is sent to a buffered channel, which may be full.

* **`wellFounded_step`**: no schedule goes on forever.
* **`Pool.Fair.progress`**: a pool that has not returned can go on, without any cancellation.
* **`Pool.Fair.handled_subperm`**, **`Pool.Fair.handled_perm`**: no item is handled twice, and all
  of them are unless the pool was cancelled.
-/

namespace WorkerPool

open List

variable {α β : Type}

/-- It waits, has received, handles, sends, or has ended. -/
inductive Worker (α β : Type)
  | idle
  | took (x : α)
  | handling (x : α)
  | sending (x : α) (y : β)
  | ended

/-- The item in the hands of a worker. -/
def Worker.held : Worker α β → List α
  | took x | handling x | sending x _ => [x]
  | idle | ended => []

/-- A queue and its workers. -/
structure Pool (α β : Type) where
  todo : List α
  workers : List (Worker α β)
  closed : Bool := false
  cancelled : Bool := false
  done : List (α × β) := []
  /-- The items that workers received and did not handle. -/
  dropped : List α := []

/-- At most `limit` workers; none without items. -/
def Pool.start (items : List α) (limit : Nat) : Pool α β :=
  { todo := items, workers := List.replicate (min limit items.length) .idle
    closed := items.isEmpty }

/-- The producer waits for the workers. -/
def Pool.Returned (p : Pool α β) : Prop := p.closed ∧ ∀ worker ∈ p.workers, worker = .ended

section

/- Whether the context is watched, and whether the channel of the results has room for another. -/
variable (watches : Bool) (room : List (α × β) → β → Bool)

/-- **One step of a pool**, of the worker between the others. -/
inductive Step : Pool α β → Pool α β → Prop
  | cancel {p : Pool α β} (h : p.cancelled = false) : Step p { p with cancelled := true }
  | send {p : Pool α β} {x : α} {todo : List α} {before after : List (Worker α β)}
      (hopen : p.closed = false) (htodo : p.todo = x :: todo)
      (hworkers : p.workers = before ++ .idle :: after) :
      Step p { p with todo := todo, workers := before ++ .took x :: after }
  | stop {p : Pool α β} (hopen : p.closed = false) (hcancel : (watches && p.cancelled) = true) :
      Step p { p with closed := true }
  | close {p : Pool α β} (hopen : p.closed = false) (htodo : p.todo = []) :
      Step p { p with closed := true }
  | leave {p : Pool α β} {x : α} {before after : List (Worker α β)}
      (hcancel : (watches && p.cancelled) = true)
      (hworkers : p.workers = before ++ .took x :: after) :
      Step p { p with workers := before ++ .ended :: after, dropped := x :: p.dropped }
  | handle {p : Pool α β} {x : α} {before after : List (Worker α β)}
      (hcancel : (watches && p.cancelled) = false)
      (hworkers : p.workers = before ++ .took x :: after) :
      Step p { p with workers := before ++ .handling x :: after }
  | finish {p : Pool α β} {x : α} (y : β) {before after : List (Worker α β)}
      (hworkers : p.workers = before ++ .handling x :: after) :
      Step p { p with workers := before ++ .sending x y :: after }
  | report {p : Pool α β} {x : α} {y : β} {before after : List (Worker α β)}
      (hroom : room p.done y) (hworkers : p.workers = before ++ .sending x y :: after) :
      Step p { p with workers := before ++ .idle :: after, done := p.done ++ [(x, y)] }
  | exit {p : Pool α β} {before after : List (Worker α β)} (hclose : p.closed)
      (hworkers : p.workers = before ++ .idle :: after) :
      Step p { p with workers := before ++ .ended :: after }

variable {watches room}

/-! ## Termination -/

/-- The steps that a worker has left. -/
def Worker.weight : Worker α β → Nat
  | ended => 0
  | idle => 1
  | sending _ _ => 2
  | handling _ => 3
  | took _ => 4

/-- The steps that a pool can still make, at most. -/
def Pool.measure (p : Pool α β) : Nat :=
  4 * p.todo.length + (p.workers.map Worker.weight).sum + (!p.closed).toNat + (!p.cancelled).toNat

theorem measure_decreases {p p' : Pool α β} (h : Step watches room p p') :
    p'.measure < p.measure := by
  cases h with
  | cancel h => simp [Pool.measure, h]
  | stop hopen | close hopen => simp [Pool.measure, hopen]
  | send _ htodo hworkers =>
    simp only [Pool.measure, htodo, hworkers, map_append, map_cons, sum_append,
      sum_cons, length_cons, Worker.weight]
    omega
  | leave _ hworkers | handle _ hworkers | finish _ hworkers | report _ hworkers
  | exit _ hworkers =>
    simp only [Pool.measure, hworkers, map_append, map_cons, sum_append, sum_cons, Worker.weight]
    omega

theorem wellFounded_step : WellFounded fun p' p : Pool α β => Step watches room p p' :=
  Subrelation.wf measure_decreases (measure Pool.measure).wf

/-! ## Every reachable state -/

/-- What holds in every state of a pool for the items. -/
structure Pool.Fair (watches : Bool) (items : List α) (p : Pool α β) : Prop where
  items_perm : items.Perm
    (p.done.map Prod.fst ++ p.workers.flatMap Worker.held ++ p.dropped ++ p.todo)
  staffed : p.closed = false → p.workers ≠ []
  ended : .ended ∈ p.workers → p.closed = true ∨ (watches && p.cancelled) = true
  dropped : (watches && p.cancelled) = false → p.dropped = []
  closed : p.closed = true → p.todo = [] ∨ (watches && p.cancelled) = true

theorem fair_start (items : List α) {limit : Nat} (hlimit : 0 < limit) :
    (Pool.start items limit : Pool α β).Fair watches items where
  items_perm := by
    have hidle (n : Nat) :
        (List.replicate n Worker.idle).flatMap (Worker.held (α := α) (β := β)) = [] := by
      simp [Worker.held]
    simp [Pool.start, hidle]
  staffed := by
    cases items <;> simp [Pool.start]
    omega
  ended := by simp [Pool.start]
  dropped _ := rfl
  closed := by simp [Pool.start]

theorem Step.items_perm {p p' : Pool α β} (h : Step watches room p p') :
    (p.done.map Prod.fst ++ p.workers.flatMap Worker.held ++ p.dropped ++ p.todo).Perm
      (p'.done.map Prod.fst ++ p'.workers.flatMap Worker.held ++ p'.dropped ++ p'.todo) := by
  classical
  rw [perm_iff_count]
  intro a
  cases h with
  | cancel | stop | close => rfl
  | send _ htodo hworkers =>
    simp only [htodo, hworkers, flatMap_append, flatMap_cons, Worker.held,
      count_append, count_cons, count_nil]
    omega
  | handle _ hworkers | finish _ hworkers | exit _ hworkers => simp [hworkers, Worker.held]
  | leave _ hworkers =>
    simp only [hworkers, flatMap_append, flatMap_cons, Worker.held, count_append,
      count_cons, count_nil]
    omega
  | report _ hworkers =>
    simp only [hworkers, map_append, map_cons, map_nil, flatMap_append,
      flatMap_cons, Worker.held, count_append, count_cons, count_nil]
    omega

theorem Pool.Fair.step {items : List α} {p p' : Pool α β} (h : p.Fair watches items)
    (hstep : Step watches room p p') : p'.Fair watches items := by
  have hitems := h.items_perm.trans hstep.items_perm
  -- a worker that did not end
  have hended {a b : Worker α β} {before after : List (Worker α β)} (hb : b ≠ .ended)
      (hworkers : p.workers = before ++ a :: after) (hmem : .ended ∈ before ++ b :: after) :
      p.closed = true ∨ (watches && p.cancelled) = true := by
    apply h.ended
    rw [hworkers]
    simp only [mem_append, mem_cons, hb.symm, false_or] at hmem ⊢
    exact hmem.imp_right .inr
  have hne {b : Worker α β} {before after : List (Worker α β)} : before ++ b :: after ≠ [] :=
    append_ne_nil_of_right_ne_nil before (cons_ne_nil b after)
  cases hstep with
  | cancel hcancel =>
    have hstill : (watches && p.cancelled) = false := by simp [hcancel]
    refine ⟨hitems, h.staffed, fun hmem => .inl ?_, fun _ => h.dropped hstill,
      fun hclose => .inl ?_⟩
    · exact (h.ended hmem).resolve_right (by simp [hstill])
    · exact (h.closed hclose).resolve_right (by simp [hstill])
  | send hopen _ hworkers =>
    refine ⟨hitems, fun _ => hne, hended nofun hworkers, h.dropped, fun hclose => ?_⟩
    exact absurd (hopen.symm.trans hclose) Bool.false_ne_true
  | stop _ hcancel =>
    exact ⟨hitems, nofun, fun _ => .inl rfl, h.dropped, fun _ => .inr hcancel⟩
  | close _ htodo => exact ⟨hitems, nofun, fun _ => .inl rfl, h.dropped, fun _ => .inl htodo⟩
  | leave hcancel =>
    refine ⟨hitems, fun _ => hne, fun _ => .inr hcancel, fun hstill => ?_, h.closed⟩
    exact absurd (hstill.symm.trans hcancel) Bool.false_ne_true
  | handle _ hworkers => exact ⟨hitems, fun _ => hne, hended nofun hworkers, h.dropped, h.closed⟩
  | finish y hworkers => exact ⟨hitems, fun _ => hne, hended nofun hworkers, h.dropped, h.closed⟩
  | report _ hworkers => exact ⟨hitems, fun _ => hne, hended nofun hworkers, h.dropped, h.closed⟩
  | exit hclose => exact ⟨hitems, fun _ => hne, fun _ => .inl hclose, h.dropped, h.closed⟩

theorem fair_of_reached {items : List α} {limit : Nat} (hlimit : 0 < limit) {p : Pool α β}
    (h : Relation.ReflTransGen (Step watches room) (.start items limit) p) :
    p.Fair watches items := by
  induction h with
  | refl => exact fair_start items hlimit
  | tail _ hstep ih => exact ih.step hstep

namespace Pool.Fair

variable {items : List α} {p : Pool α β} (h : p.Fair watches items)

include h

theorem handled_subperm : (p.done.map Prod.fst ++ p.workers.flatMap Worker.held).Subperm items := by
  refine List.Subperm.trans ?_ h.items_perm.symm.subperm
  rw [append_assoc (_ ++ _)]
  exact (sublist_append_left _ _).subperm

theorem handled_perm (hret : p.Returned) (hstill : (watches && p.cancelled) = false) :
    (p.done.map Prod.fst).Perm items := by
  have htodo : p.todo = [] := (h.closed hret.1).resolve_right (by simp [hstill])
  have hheld : p.workers.flatMap Worker.held = [] := by
    rw [flatMap_eq_nil_iff]
    intro worker hworker
    rw [hret.2 worker hworker]
    rfl
  have hitems := h.items_perm
  rw [htodo, hheld, h.dropped hstill] at hitems
  simpa using hitems.symm

/-- **A pool that has not returned can go on**, if each item without a result has room for one. -/
theorem progress (hroom : ∀ done y, done.length < items.length → room done y) (y : β) :
    p.Returned ∨ ∃ p', Step watches room p p' ∧ p'.cancelled = p.cancelled := by
  by_cases hidle : .idle ∈ p.workers
  · -- an idle worker takes an item or ends, or the producer closes the channel
    obtain ⟨before, after, hworkers⟩ := append_of_mem hidle
    cases hclose : p.closed with
    | true => exact .inr ⟨_, .exit hclose hworkers, rfl⟩
    | false =>
      cases htodo : p.todo with
      | nil => exact .inr ⟨_, .close hclose htodo, rfl⟩
      | cons x todo => exact .inr ⟨_, .send hclose htodo hworkers, rfl⟩
  by_cases hended : ∀ worker ∈ p.workers, worker = .ended
  · cases hclose : p.closed with
    | true => exact .inl ⟨hclose, hended⟩
    | false =>
      -- every worker has left, so the producer sees the cancellation
      obtain ⟨worker, hworker⟩ := exists_mem_of_ne_nil _ (h.staffed hclose)
      have hmem : .ended ∈ p.workers := hended worker hworker ▸ hworker
      have hcancel := (h.ended hmem).resolve_left (by simp [hclose])
      exact .inr ⟨_, .stop hclose hcancel, rfl⟩
  push Not at hended
  obtain ⟨worker, hworker, hne⟩ := hended
  obtain ⟨before, after, hworkers⟩ := append_of_mem hworker
  cases worker with
  | idle => exact absurd hworker hidle
  | ended => exact absurd rfl hne
  | took x =>
    cases hcancel : watches && p.cancelled with
    | true => exact .inr ⟨_, .leave hcancel hworkers, rfl⟩
    | false => exact .inr ⟨_, .handle hcancel hworkers, rfl⟩
  | handling x => exact .inr ⟨_, .finish y hworkers, rfl⟩
  | sending x y =>
    have hlen := h.items_perm.length_eq
    simp only [hworkers, length_append, length_map, flatMap_append,
      flatMap_cons, Worker.held, length_cons, length_nil] at hlen
    exact .inr ⟨_, .report (hroom p.done y (by omega)) hworkers, rfl⟩

end Pool.Fair

end

end WorkerPool
