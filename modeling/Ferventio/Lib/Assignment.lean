import Mathlib.Data.List.Nodup
import Mathlib.Data.List.Induction
import Mathlib.Logic.Function.Basic

/-!
# Greedy assignment under a capacity

Items are dealt with one after the other. Each is given to an eligible owner who has room, or to
nobody when no eligible owner has room. Since nothing is taken back, an owner who is full stays
full, and the result is maximal whatever owner is preferred (**`maximal_foldl`**).
-/

namespace Assignment

open List

variable {ι ω : Type} [DecidableEq ω] {capacity : ℕ} {eligible : ι → ω → Prop} {items : List ι}
  {assigned assigned' : ω → List ι} {item : ι}

/-- The item goes to an eligible owner with room, if any. -/
inductive Gives (capacity : ℕ) (eligible : ι → ω → Prop) (item : ι) (assigned : ω → List ι) :
    (ω → List ι) → Prop
  | given (owner : ω) (heligible : eligible item owner)
      (hroom : (assigned owner).length < capacity) :
      Gives capacity eligible item assigned
        (Function.update assigned owner (assigned owner ++ [item]))
  | full (h : ∀ owner, eligible item owner → capacity ≤ (assigned owner).length) :
      Gives capacity eligible item assigned assigned

/-- Items have one eligible owner, within the capacity, and those left could not be given to
anyone. -/
structure Maximal (capacity : ℕ) (eligible : ι → ω → Prop) (items : List ι)
    (assigned : ω → List ι) : Prop where
  owned : ∀ {item owner}, item ∈ assigned owner → item ∈ items ∧ eligible item owner
  once : ∀ {item owner owner'}, item ∈ assigned owner → item ∈ assigned owner' → owner = owner'
  nodup : ∀ owner, (assigned owner).Nodup
  bounded : ∀ owner, (assigned owner).length ≤ capacity
  maximal : ∀ {item}, item ∈ items → (∃ owner, item ∈ assigned owner) ∨
    ∀ owner, eligible item owner → (assigned owner).length = capacity

omit [DecidableEq ω] in
theorem Maximal.perm (h : Maximal capacity eligible items assigned)
    (hperm : ∀ owner, (assigned' owner).Perm (assigned owner)) :
    Maximal capacity eligible items assigned' where
  owned hmem := h.owned ((hperm _).mem_iff.mp hmem)
  once hmem hmem' := h.once ((hperm _).mem_iff.mp hmem) ((hperm _).mem_iff.mp hmem')
  nodup owner := (hperm owner).nodup_iff.mpr (h.nodup owner)
  bounded owner := (hperm owner).length_eq ▸ h.bounded owner
  maximal hitem := by
    simp only [(hperm _).mem_iff, (hperm _).length_eq]
    exact h.maximal hitem

theorem mem_update_append {owner owner' : ω} {item' : ι} :
    item' ∈ Function.update assigned owner (assigned owner ++ [item]) owner' ↔
      item' ∈ assigned owner' ∨ owner' = owner ∧ item' = item := by
  by_cases h : owner' = owner
  · subst h
    simp
  · simp [h]

theorem Maximal.gives (h : Maximal capacity eligible items assigned) (hnew : item ∉ items)
    (hgives : Gives capacity eligible item assigned assigned') :
    Maximal capacity eligible (items ++ [item]) assigned' := by
  have hfresh : ∀ owner, item ∉ assigned owner := fun owner hmem => hnew (h.owned hmem).1
  cases hgives with
  | full hfull =>
    refine ⟨fun hmem => ?_, h.once, h.nodup, h.bounded, fun hitem => ?_⟩
    · exact ⟨mem_append_left _ (h.owned hmem).1, (h.owned hmem).2⟩
    · rcases mem_append.mp hitem with hitem | hitem
      · exact h.maximal hitem
      · rw [mem_singleton.mp hitem]
        exact .inr fun owner howner => Nat.le_antisymm (h.bounded owner) (hfull owner howner)
  | given owner heligible hroom =>
    have hlen : ∀ owner', (assigned owner').length = capacity →
        (Function.update assigned owner (assigned owner ++ [item]) owner').length = capacity := by
      intro owner' hfull
      have hne : owner' ≠ owner := by
        rintro rfl
        omega
      rw [Function.update_of_ne hne, hfull]
    refine ⟨fun {item' owner'} hmem => ?_, fun {item' owner1 owner2} h1 h2 => ?_,
      fun owner' => ?_, fun owner' => ?_, fun {item'} hitem => ?_⟩
    · rcases mem_update_append.mp hmem with hmem | ⟨rfl, rfl⟩
      · exact ⟨mem_append_left _ (h.owned hmem).1, (h.owned hmem).2⟩
      · exact ⟨mem_append_right _ (mem_singleton_self _), heligible⟩
    · rw [mem_update_append] at h1 h2
      rcases h1 with h1 | ⟨rfl, rfl⟩
      · rcases h2 with h2 | ⟨rfl, rfl⟩
        · exact h.once h1 h2
        · exact absurd h1 (hfresh _)
      · rcases h2 with h2 | ⟨rfl, -⟩
        · exact absurd h2 (hfresh _)
        · rfl
    · by_cases howner : owner' = owner
      · subst howner
        rw [Function.update_self]
        exact (h.nodup _).append (nodup_singleton _) (disjoint_singleton.mpr (hfresh _))
      · rw [Function.update_of_ne howner]
        exact h.nodup owner'
    · by_cases howner : owner' = owner
      · subst howner
        rw [Function.update_self, length_append]
        exact hroom
      · rw [Function.update_of_ne howner]
        exact h.bounded owner'
    · simp only [mem_update_append]
      rcases mem_append.mp hitem with hitem | hitem
      · rcases h.maximal hitem with ⟨owner', hmem⟩ | hfull
        · exact .inl ⟨owner', .inl hmem⟩
        · exact .inr fun owner' howner' => hlen owner' (hfull owner' howner')
      · exact .inl ⟨owner, .inr ⟨rfl, mem_singleton.mp hitem⟩⟩

theorem maximal_foldl {σ : Type} {view : σ → ω → List ι} {step : σ → ι → σ} {s : σ}
    (hitems : items.Nodup)
    (hstep : ∀ s item, Gives capacity eligible item (view s) (view (step s item)))
    (hempty : ∀ owner, view s owner = []) :
    Maximal capacity eligible items (view (items.foldl step s)) := by
  induction items using List.reverseRecOn with
  | nil =>
    have hnone : view s = fun _ => [] := funext hempty
    rw [foldl_nil, hnone]
    exact ⟨nofun, nofun, fun _ => nodup_nil, fun _ => Nat.zero_le _, nofun⟩
  | append_singleton items item ih =>
    rw [nodup_append] at hitems
    obtain ⟨hnodup, -, hdisjoint⟩ := hitems
    rw [foldl_append]
    exact (ih hnodup).gives
      (fun hmem => hdisjoint item hmem item (mem_singleton_self item) rfl) (hstep _ item)

end Assignment
