import Mathlib.Data.List.Sort
import Mathlib.Order.Lattice
import Mathlib.Data.List.Perm.Basic

/-!
# Lists in canonical order

A list that strictly increases in a key is told by its members: this is why the result of sorting
the entries of a hash map does not depend on the order in which the map was walked.

* **`Increasing.ext`**: increasing lists with the same members are equal.
* **`eq_insertionSort_of_perm`**: all ways to sort by a key that tells the members apart.
-/

namespace Canonical

open List

variable {α β : Type} [LinearOrder β] {key : α → β} {l l' : List α}

/-- The keys increase strictly. -/
def Increasing (key : α → β) (l : List α) : Prop :=
  l.Pairwise fun a b => key a < key b

theorem Increasing.nodup (h : Increasing key l) : l.Nodup :=
  h.imp fun hlt heq => absurd (congrArg key heq) hlt.ne

/-- **Members decide.** -/
theorem Increasing.ext (h : Increasing key l) (h' : Increasing key l')
    (hmem : ∀ a, a ∈ l ↔ a ∈ l') : l = l' := by
  have hperm : l.Perm l' := (perm_ext_iff_of_nodup h.nodup h'.nodup).mpr hmem
  refine hperm.eq_of_pairwise (fun a b _ _ hab hba => ?_) h h'
  exact absurd hba hab.asymm

theorem increasing_of_sorted (hsort : l.Pairwise fun a b => key a ≤ key b)
    (hkeys : (l.map key).Nodup) : Increasing key l := by
  have hne : l.Pairwise fun a b => key a ≠ key b := pairwise_map.mp hkeys
  exact (hsort.and hne).imp fun h => lt_of_le_of_ne h.1 h.2

variable (key l) in
theorem sorted_insertionSort :
    (l.insertionSort fun a b => key a ≤ key b).Pairwise fun a b => key a ≤ key b := by
  have : Std.Total fun a b : α => key a ≤ key b := ⟨fun a b => le_total (key a) (key b)⟩
  have : IsTrans α fun a b => key a ≤ key b := ⟨fun a b c => le_trans (a := key a)⟩
  exact pairwise_insertionSort _ l

theorem increasing_insertionSort (hkeys : (l.map key).Nodup) :
    Increasing key (l.insertionSort fun a b => key a ≤ key b) :=
  increasing_of_sorted (sorted_insertionSort key l)
    ((((perm_insertionSort _ l).map key).nodup_iff).mpr hkeys)

/-- **Sorting is canonical.** -/
theorem eq_insertionSort_of_perm (hkeys : (l.map key).Nodup) (hperm : l'.Perm l)
    (hsort : l'.Pairwise fun a b => key a ≤ key b) :
    l' = l.insertionSort fun a b => key a ≤ key b := by
  refine (increasing_of_sorted hsort (((hperm.map key).nodup_iff).mpr hkeys)).ext
    (increasing_insertionSort hkeys) fun a => ?_
  rw [hperm.mem_iff, mem_insertionSort]

theorem insertionSort_congr (hkey : Function.Injective key) (h : l.Nodup) (h' : l'.Nodup)
    (hmem : ∀ a, a ∈ l ↔ a ∈ l') :
    (l.insertionSort fun a b => key a ≤ key b) = l'.insertionSort fun a b => key a ≤ key b := by
  refine (increasing_insertionSort (h.map hkey)).ext (increasing_insertionSort (h'.map hkey)) ?_
  intro a
  rw [mem_insertionSort, mem_insertionSort, hmem]

end Canonical
