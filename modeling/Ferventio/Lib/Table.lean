import Mathlib.Data.List.AList
import Mathlib.Data.List.Dedup

/-!
# Keyed tables

A table is a finite map with decidable keys: a hash map of a process, or a relation of a database
with a primary key. Mathlib's `AList` gives lookup, insertion and deletion; this file adds the
deletion of the rows that fail a test (`select`) and the update of every row (`amend`), and
describes all of them by what they do to one lookup.

* **`mem_rows_iff`**: the rows are exactly the values that some key finds.
* **`Forall`**: a statement about every row, with one preservation rule per operation.
* **`Distinct`**, **`Indexed`**: a table with a unique index, and one that is bounded besides.
* **`Fate`**: what a step makes of the row under one key, when rows carry their key as a name.
-/

/-- A finite map from keys to rows. -/
abbrev Table (κ α : Type) := AList fun _ : κ => α

/-- A row with its key. -/
abbrev Row (κ α : Type) := Sigma fun _ : κ => α

namespace Table

open List

variable {κ α : Type}

/-- The rows. -/
def rows (t : Table κ α) : List α := t.entries.map Sigma.snd

/-- The number of rows. -/
def count (t : Table κ α) : Nat := t.entries.length

/-- The rows that satisfy `p`. -/
def select (p : κ → α → Bool) (t : Table κ α) : Table κ α :=
  ⟨t.entries.filter fun e => p e.1 e.2, t.nodupKeys.sublist filter_sublist⟩

/-- Rewrite every row. -/
def amend (f : κ → α → α) (t : Table κ α) : Table κ α :=
  ⟨t.entries.map (Sigma.map id f), List.NodupKeys.map₂ f t.entries t.nodupKeys⟩

theorem count_select_le (p : κ → α → Bool) (t : Table κ α) : (t.select p).count ≤ t.count :=
  length_filter_le _ _

theorem count_amend (f : κ → α → α) (t : Table κ α) : (t.amend f).count = t.count :=
  length_map _

/-! ## Lookups -/

variable [DecidableEq κ]

theorem lookup_insert_eq (t : Table κ α) (k k' : κ) (v : α) :
    (t.insert k v).lookup k' = if k' = k then some v else t.lookup k' := by
  by_cases h : k' = k
  · subst h
    rw [AList.lookup_insert, if_pos rfl]
  · rw [AList.lookup_insert_ne h, if_neg h]

theorem lookup_erase_eq (t : Table κ α) (k k' : κ) :
    (t.erase k).lookup k' = if k' = k then none else t.lookup k' := by
  by_cases h : k' = k
  · subst h
    rw [AList.lookup_erase, if_pos rfl]
  · rw [AList.lookup_erase_ne h, if_neg h]

variable {k : κ} {v : α}

theorem mem_entries_iff {t : Table κ α} : (⟨k, v⟩ : Row κ α) ∈ t.entries ↔ t.lookup k = some v :=
  AList.mem_lookup_iff.symm

theorem lookup_select (p : κ → α → Bool) (t : Table κ α) (k : κ) :
    (t.select p).lookup k = (t.lookup k).filter (p k) := by
  ext v
  rw [← mem_entries_iff]
  simp only [select, mem_filter, mem_entries_iff, Option.filter_eq_some_iff]

theorem lookup_amend (f : κ → α → α) (t : Table κ α) (k : κ) :
    (t.amend f).lookup k = (t.lookup k).map (f k) :=
  dlookup_map₂ k

theorem lookup_select_amend {p : κ → α → Bool} {f : κ → α → α} {t : Table κ α} :
    ((t.amend f).select p).lookup k = some v ↔ (∃ w, t.lookup k = some w ∧ f k w = v) ∧ p k v := by
  rw [lookup_select, Option.filter_eq_some_iff, lookup_amend, Option.map_eq_some_iff]

theorem mem_rows_iff {t : Table κ α} : v ∈ t.rows ↔ ∃ k, t.lookup k = some v := by
  constructor
  · intro h
    obtain ⟨⟨k, w⟩, hmem, rfl⟩ := mem_map.mp h
    exact ⟨k, mem_entries_iff.mp hmem⟩
  · rintro ⟨k, h⟩
    exact mem_map.mpr ⟨⟨k, v⟩, mem_entries_iff.mpr h, rfl⟩

theorem mem_rows_of_lookup {t : Table κ α} (h : t.lookup k = some v) : v ∈ t.rows :=
  mem_rows_iff.mpr ⟨k, h⟩

theorem lookup_insert_absent {t : Table κ α} {k' : κ} (h : t.lookup k = none)
    (h' : t.lookup k' = some v) (v' : α) : (t.insert k' v').lookup k = none := by
  rw [lookup_insert_eq, if_neg, h]
  rintro rfl
  rw [h] at h'
  cases h'

theorem lookup_empty (k : κ) : (∅ : Table κ α).lookup k = none := rfl

/-! ## Counting -/

theorem mem_keys_iff {t : Table κ α} : k ∈ t.keys ↔ t.lookup k ≠ none := by
  rw [← AList.mem_keys, ← AList.lookup_isSome, Option.isSome_iff_ne_none]

theorem count_le_of_lookup {β : Type} {t : Table κ α} {u : Table κ β}
    (h : ∀ k v, t.lookup k = some v → u.lookup k ≠ none) : t.count ≤ u.count := by
  have hsub : t.keys ⊆ u.keys := by
    intro k hk
    obtain ⟨v, hv⟩ := Option.ne_none_iff_exists'.mp (mem_keys_iff.mp hk)
    exact mem_keys_iff.mpr (h k v hv)
  have hlen := (subperm_of_subset t.keys_nodup hsub).length_le
  simpa only [AList.keys, List.keys, length_map, count] using hlen

theorem count_le_dedup {t : Table κ α} {l : List κ} (h : ∀ k, t.lookup k ≠ none → k ∈ l) :
    t.count ≤ l.dedup.length := by
  have hsub : t.keys ⊆ l.dedup := by
    intro k hk
    exact mem_dedup.mpr (h k (mem_keys_iff.mp hk))
  have hlen := (subperm_of_subset t.keys_nodup hsub).length_le
  simpa only [AList.keys, List.keys, length_map, count] using hlen

theorem count_select_lt {p : κ → α → Bool} {t : Table κ α}
    (h : t.lookup k = some v) (hp : p k v = false) : (t.select p).count < t.count := by
  refine length_filter_lt_length_iff_exists.mpr ⟨⟨k, v⟩, mem_entries_iff.mpr h, ?_⟩
  rw [hp]
  exact Bool.false_ne_true

theorem count_insert {t : Table κ α} (h : t.lookup k = none) (v : α) :
    count (t.insert k v) = t.count + 1 := by
  have hkey : k ∉ t := by
    rw [← AList.lookup_eq_none, h]
  rw [count, AList.insert_of_notMem hkey]
  rfl

theorem count_insert_le (t : Table κ α) (k : κ) (v : α) : count (t.insert k v) ≤ t.count + 1 := by
  cases h : t.lookup k with
  | none => exact Nat.le_of_eq (count_insert h v)
  | some v0 =>
    refine Nat.le_succ_of_le (count_le_of_lookup fun k' w hw => ?_)
    rw [lookup_insert_eq] at hw
    split_ifs at hw with hk
    · rw [hk, h]
      exact Option.some_ne_none v0
    · rw [hw]
      exact Option.some_ne_none w

theorem count_erase {t : Table κ α} (h : t.lookup k ≠ none) : count (t.erase k) + 1 = t.count := by
  have hlen := length_erase_add_one (mem_keys_iff.mpr h)
  rw [← AList.keys_erase] at hlen
  simpa only [AList.keys, List.keys, length_map, count] using hlen

theorem select_eq_self {p : κ → α → Bool} {t : Table κ α}
    (h : ∀ k v, t.lookup k = some v → p k v) : t.select p = t := by
  apply AList.ext
  refine filter_eq_self.mpr ?_
  rintro ⟨k, v⟩ hmem
  exact h k v (mem_entries_iff.mp hmem)

theorem amend_eq_self {f : κ → α → α} {t : Table κ α}
    (h : ∀ k v, t.lookup k = some v → f k v = v) : t.amend f = t := by
  apply AList.ext
  have hmap : t.entries.map (Sigma.map id f) = t.entries.map id := by
    refine map_congr_left ?_
    rintro ⟨k, v⟩ hmem
    exact congrArg (Sigma.mk k) (h k v (mem_entries_iff.mp hmem))
  rw [map_id] at hmap
  exact hmap

theorem amend_insert {f : κ → α → α} {t : Table κ α} (h : t.lookup k = none) (v : α) :
    amend f (t.insert k v) = (t.amend f).insert k (f k v) := by
  have hkey : k ∉ t := by
    rw [← AList.lookup_eq_none, h]
  have hkey' : k ∉ t.amend f := by
    rw [← AList.lookup_eq_none, lookup_amend, h, Option.map_none]
  apply AList.ext
  have hentries : (amend f (t.insert k v)).entries =
      (t.insert k v).entries.map (Sigma.map id f) := rfl
  rw [AList.entries_insert_of_notMem hkey', hentries, AList.entries_insert_of_notMem hkey]
  rfl

/-! ## Statements about every row -/

/-- Every row satisfies `P`. -/
def Forall (P : κ → α → Prop) (t : Table κ α) : Prop := ∀ k v, t.lookup k = some v → P k v

variable {P : κ → α → Prop} {t : Table κ α}

theorem Forall.empty : (∅ : Table κ α).Forall P := by
  intro k v h
  rw [lookup_empty] at h
  cases h

theorem Forall.insert (ht : t.Forall P) (hv : P k v) : Forall P (t.insert k v) := by
  intro k' v' h
  rw [lookup_insert_eq] at h
  split_ifs at h with hk
  · cases h
    exact hk ▸ hv
  · exact ht k' v' h

/-! ## Unique indexes -/

section Indexed

variable {β : Type} {f : α → β} {size : Nat} {u : Table κ α}

/-- No two rows agree in `f`. -/
def Distinct (f : α → β) (t : Table κ α) : Prop :=
  ∀ k k' v v', t.lookup k = some v → t.lookup k' = some v' → f v = f v' → k = k'

theorem Distinct.fewer (ht : t.Distinct f)
    (hu : ∀ {k v}, u.lookup k = some v → t.lookup k = some v) : u.Distinct f :=
  fun k k' v v' hv hv' hf => ht k k' v v' (hu hv) (hu hv') hf

theorem Distinct.insert {k : κ} {v : α} (ht : t.Distinct f)
    (hv : ∀ k' v', t.lookup k' = some v' → f v' = f v → k' = k) : Distinct f (t.insert k v) := by
  intro k1 k2 v1 v2 h1 h2 hf
  rw [lookup_insert_eq] at h1 h2
  by_cases hk1 : k1 = k
  · by_cases hk2 : k2 = k
    · rw [hk1, hk2]
    · rw [if_pos hk1] at h1
      rw [if_neg hk2] at h2
      cases h1
      rw [hk1]
      exact (hv k2 v2 h2 hf.symm).symm
  · rw [if_neg hk1] at h1
    by_cases hk2 : k2 = k
    · rw [if_pos hk2] at h2
      cases h2
      rw [hk2]
      exact hv k1 v1 h1 hf
    · rw [if_neg hk2] at h2
      exact ht k1 k2 v1 v2 h1 h2 hf

/-- A unique index and a limit. -/
structure Indexed (f : α → β) (size : Nat) (t : Table κ α) : Prop where
  distinct : t.Distinct f
  bounded : t.count ≤ size

theorem Indexed.empty : Indexed f size (∅ : Table κ α) := by
  refine ⟨fun k k' v v' hv => ?_, Nat.zero_le size⟩
  rw [lookup_empty] at hv
  cases hv

theorem Indexed.fewer (ht : t.Indexed f size)
    (hu : ∀ {k v}, u.lookup k = some v → t.lookup k = some v) : u.Indexed f size := by
  refine ⟨ht.distinct.fewer hu, Nat.le_trans (count_le_of_lookup fun k v hv => ?_) ht.bounded⟩
  rw [hu hv]
  exact Option.some_ne_none v

theorem Indexed.rewrite {k : κ} {v v' : α} (ht : t.Indexed f size) (hv : t.lookup k = some v)
    (hf : f v' = f v) : Indexed f size (t.insert k v') := by
  constructor
  · refine ht.distinct.insert fun k1 v1 hv1 hf1 => ?_
    exact ht.distinct k1 k v1 v hv1 hv (hf1.trans hf)
  · refine Nat.le_trans (count_le_of_lookup fun k1 v1 hv1 => ?_) ht.bounded
    intro hnone
    rw [lookup_insert_absent hnone hv v'] at hv1
    cases hv1

theorem Indexed.replace {k : κ} {v : α} (ht : t.Indexed f size)
    (hu : ∀ {k v}, u.lookup k = some v → t.lookup k = some v)
    (hv : ∀ k' v', u.lookup k' = some v' → f v' ≠ f v) (hroom : u.count < size) :
    Indexed f size (u.insert k v) := by
  constructor
  · exact (ht.distinct.fewer hu).insert fun k' v' hv' hf => absurd hf (hv k' v' hv')
  · have hcount := count_insert_le u k v
    omega

end Indexed

end Table

/-! ## The fate of a row -/

namespace Table

variable {κ α : Type} {name : α → κ} {released released' : α → Prop} {added added' : Prop} {k : κ}
  {v : α} {a b c : Option α}

/-- **What a step makes of the row under `k`.** It rewrites or removes a released row, adds one only
if asked to, and keeps names. -/
inductive Fate (name : α → κ) (released : α → Prop) (added : Prop) (k : κ) :
    Option α → Option α → Prop
  | keep {a : Option α} : Fate name released added k a a
  | rewrite {v v' : α} (h : released v) (hname : name v' = name v) :
      Fate name released added k (some v) (some v')
  | remove {v : α} (h : released v) : Fate name released added k (some v) none
  | add {a : Option α} {v : α} (h : added) (hname : name v = k) :
      Fate name released added k a (some v)

namespace Fate

theorem trans (h : Fate name released False k a b) (h' : Fate name released added k b c) :
    Fate name released added k a c := by
  cases h with
  | keep => exact h'
  | rewrite hv hname =>
    cases h' with
    | keep => exact .rewrite hv hname
    | rewrite _ hname' => exact .rewrite hv (hname'.trans hname)
    | remove => exact .remove hv
    | add hadded hname' => exact .add hadded hname'
  | remove hv =>
    cases h' with
    | keep => exact .remove hv
    | add hadded hname' => exact .add hadded hname'
  | add hadded => exact hadded.elim

theorem mono (h : Fate name released added k a b) (hrel : ∀ v, released v → released' v)
    (hadded : added → added') : Fate name released' added' k a b := by
  cases h with
  | keep => exact .keep
  | rewrite hv hname => exact .rewrite (hrel _ hv) hname
  | remove hv => exact .remove (hrel _ hv)
  | add ha hname => exact .add (hadded ha) hname

theorem named (h : Fate name released added k a b) (ha : ∀ v, a = some v → name v = k) (v : α)
    (hv : b = some v) : name v = k := by
  cases h with
  | keep => exact ha v hv
  | rewrite _ hname =>
    cases hv
    exact hname.trans (ha _ rfl)
  | remove => cases hv
  | add _ hname =>
    cases hv
    exact hname

theorem kept (h : Fate name released added k (some v) b) (hv : ¬ released v) (hadded : ¬ added) :
    b = some v := by
  cases h with
  | keep => rfl
  | rewrite hv' => exact absurd hv' hv
  | remove hv' => exact absurd hv' hv
  | add hadded' => exact absurd hadded' hadded

theorem isSome (h : Fate name released added k a b) (hadded : ¬ added) (hb : b.isSome) :
    a.isSome := by
  cases h with
  | keep => exact hb
  | add hadded' => exact absurd hadded' hadded
  | _ => rfl

end Fate

/-! ## Tables with the same rows -/

section Same

variable {κ α : Type} [DecidableEq κ]

/-- The tables have the same rows. -/
def Same (t u : Table κ α) : Prop := ∀ k, t.lookup k = u.lookup k

variable {t u : Table κ α}

theorem Same.symm (h : t.Same u) : u.Same t := fun k => (h k).symm

theorem Same.count_le (h : t.Same u) : t.count ≤ u.count := by
  refine count_le_of_lookup fun k v hv => ?_
  rw [← h k, hv]
  exact Option.some_ne_none v

theorem Same.forall {P : κ → α → Prop} (h : t.Same u) (ht : t.Forall P) : u.Forall P :=
  fun k v hv => ht k v ((h k).trans hv)

end Same

end Table
