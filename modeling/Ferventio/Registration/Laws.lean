import Mathlib.Data.List.Dedup
import Ferventio.Delivery.Laws

/-!
# What a registration call answers and does

The two registration stores differ in how they check a secret and in the order of a listing. Both
find a registration that was stored before or has just been upserted
(**`execRegistration_lookup`**), read what is stored (**`execRegistration_get`**), and list all of
it, or nothing when the database failed (**`execRegistration_list`**).
-/

namespace Ferventio

open Table List Postgres

variable {row reg : Registration} {H : String → String} {env : Env} {x : Choice}
  {t : RegistrationTable}

/-- What `List` returns. -/
def listed (env : Env) (t : RegistrationTable) : List Registration :=
  match env.backend with
  | .memory => Memory.list t
  | .postgres => list t

theorem mem_listed_iff : reg ∈ listed env t ↔ ∃ row ∈ t.rows, publicRegistration row = reg := by
  unfold listed
  cases env.backend with
  | memory => exact mem_map
  | postgres => simp only [list, mem_map, mem_insertionSort]

theorem execRegistration_list :
    (execRegistration env x .list t).2 = t ∧
      ((execRegistration env x .list t).1 = listed env t ∨
        (execRegistration env x .list t).1 = []) := by
  unfold execRegistration listed
  cases env.backend with
  | memory => exact ⟨rfl, .inl rfl⟩
  | postgres =>
    simp only [Postgres.execRegistration, withFault]
    cases x.fault with
    | none => exact ⟨rfl, .inl rfl⟩
    | some fault => cases fault <;> exact ⟨rfl, .inr rfl⟩

theorem execRegistration_list_answered (h : x.fault = none) :
    (execRegistration env x .list t).1 = listed env t := by
  unfold execRegistration listed
  cases env.backend with
  | memory => rfl
  | postgres => simp only [Postgres.execRegistration, withFault, h, answerRegistration]

variable {iid : String} {call : RegistrationCall}

theorem execRegistration_answered
    (h : (execRegistration env x call t).1 ≠ failedRegistration call) :
    execRegistration env x call t = Memory.execRegistration env.hashSecret call t ∨
      execRegistration env x call t = answerRegistration env.hashSecret call t := by
  unfold execRegistration at h ⊢
  split
  · exact .inl rfl
  · rename_i hb
    rw [hb] at h
    rcases withFault_fst x (failedRegistration call) t
      (answerRegistration env.hashSecret call t) with hf | hf
    · exact absurd hf h
    · exact .inr hf

theorem execRegistration_get (h : (execRegistration env x (.get iid) t).1 = .ok reg) :
    ∃ row, t.lookup iid = some row ∧ reg = publicRegistration row := by
  have hget : Memory.get iid t = .ok reg := by
    rcases execRegistration_answered (by rw [h]; rintro ⟨⟩) with heq | heq
    · rw [heq] at h
      exact h
    · rw [heq] at h
      exact h
  unfold Memory.get at hget
  split at hget
  · cases hget
  · rename_i row hrow
    cases hget
    exact ⟨row, hrow, rfl⟩

/-! ## Deletions -/

/-- An account deletion leaves the row. -/
def spared (userID : String) (installationIDs : List String) (installationID : String)
    (row : Registration) : Bool :=
  !(Memory.trimmedTargets installationIDs).contains installationID &&
    (Strings.trimSpace userID == "" || row.userID != Strings.trimSpace userID)

/-- The answer of an account deletion. -/
def deletedForAccount (userID : String) (installationIDs : List String) (t : RegistrationTable) :
    Result (List String) × RegistrationTable :=
  (.ok ((t.entries.filterMap fun e =>
      if spared userID installationIDs e.1 e.2 then none else some e.1).insertionSort (· ≤ ·)),
    t.select (spared userID installationIDs))

theorem Postgres.contains_compactStrings (values : List String) (value : String) :
    (compactStrings values).contains value = (Memory.trimmedTargets values).contains value := by
  rw [Bool.eq_iff_iff, contains_iff_mem, contains_iff_mem]
  unfold compactStrings Memory.trimmedTargets
  rw [mem_reverse, mem_dedup, mem_reverse]

theorem Postgres.deleteForAccount_eq (uid : String) (iids : List String) (t : RegistrationTable) :
    deleteForAccount uid iids t = deletedForAccount uid iids t := by
  have hdoom : ∀ id (row : Registration),
      (!((Strings.trimSpace uid != "" && row.userID == Strings.trimSpace uid) ||
        (compactStrings iids).contains id)) = spared uid iids id row := by
    intro id row
    rw [contains_compactStrings, spared]
    cases (Memory.trimmedTargets iids).contains id <;>
      cases hu : Strings.trimSpace uid == "" <;>
      cases hr : row.userID == Strings.trimSpace uid <;> simp [bne, hu, hr]
  have hswap : ∀ (doomed : Bool) (id : String), (if doomed = true then some id else none) =
      if (!doomed) = true then none else some id := by
    intro doomed id
    cases doomed <;> rfl
  refine Prod.ext ?_ ?_
  · refine congrArg (fun l => Except.ok (List.insertionSort (· ≤ ·) l)) ?_
    refine filterMap_congr fun e _ => ?_
    rw [← hdoom e.1 e.2]
    exact hswap _ e.1
  · exact congrArg t.select (funext₂ hdoom)

theorem execRegistration_deleteForAccount_answered (h : x.fault = none) (uid : String)
    (iids : List String) :
    execRegistration env x (.deleteForAccount uid iids) t = deletedForAccount uid iids t := by
  unfold execRegistration
  cases env.backend with
  | memory => rfl
  | postgres =>
    dsimp only [Postgres.execRegistration]
    rw [withFault, h]
    exact deleteForAccount_eq uid iids t

theorem mem_removed_iff {uid : String} {iids : List String} :
    iid ∈ (t.entries.filterMap fun e =>
        if spared uid iids e.1 e.2 then none else some e.1).insertionSort (· ≤ ·) ↔
      ∃ row, t.lookup iid = some row ∧ spared uid iids iid row = false := by
  rw [mem_insertionSort, mem_filterMap]
  constructor
  · rintro ⟨⟨key, row⟩, hmem, hkey⟩
    split_ifs at hkey with hspare
    cases hkey
    exact ⟨row, mem_entries_iff.mp hmem, Bool.eq_false_iff.mpr hspare⟩
  · rintro ⟨row, hlookup, hspare⟩
    refine ⟨⟨iid, row⟩, mem_entries_iff.mpr hlookup, ?_⟩
    dsimp only
    rw [hspare]
    rfl

/-! ## Writes -/

theorem Memory.execRegistration_lookup
    (h : (Memory.execRegistration H call t).2.lookup iid = some row) :
    t.lookup iid = some row ∨
      ∃ reg, call = .upsert reg ∧ iid = reg.installationID ∧ row = sealedRegistration H reg := by
  cases call with
  | upsert reg =>
    simp only [Memory.execRegistration, Memory.upsert] at h
    split_ifs at h
    · exact .inl h
    · exact .inl h
    · rw [lookup_insert_eq] at h
      split_ifs at h with hid
      · cases h
        exact .inr ⟨reg, rfl, hid, rfl⟩
      · exact .inl h
  | delete =>
    simp only [Memory.execRegistration, Memory.delete] at h
    split at h
    · exact .inl h
    · split_ifs at h
      · exact .inl h
      · rw [lookup_erase_eq] at h
        split_ifs at h
        exact .inl h
  | deleteForAccount =>
    simp only [Memory.execRegistration, Memory.deleteForAccount, lookup_select,
      Option.filter_eq_some_iff] at h
    exact .inl h.1
  | _ => exact .inl h

theorem Postgres.answerRegistration_lookup
    (h : (answerRegistration H call t).2.lookup iid = some row) :
    t.lookup iid = some row ∨
      ∃ reg, call = .upsert reg ∧ iid = reg.installationID ∧ row = sealedRegistration H reg := by
  cases call with
  | upsert reg =>
    simp only [answerRegistration, upsert] at h
    split_ifs at h
    · exact .inl h
    · exact .inl h
    · exact .inl h
    · rw [lookup_insert_eq] at h
      split_ifs at h with hid
      · cases h
        exact .inr ⟨reg, rfl, hid, rfl⟩
      · exact .inl h
  | delete =>
    simp only [answerRegistration, delete] at h
    split at h
    · exact .inl h
    · split_ifs at h
      · exact .inl h
      · rw [lookup_erase_eq] at h
        split_ifs at h
        exact .inl h
  | deleteForAccount =>
    simp only [answerRegistration, deleteForAccount, lookup_select, Option.filter_eq_some_iff] at h
    exact .inl h.1
  | _ => exact .inl h

/-- **Nothing else is written**: a registration was stored before, or the call upserted it. -/
theorem execRegistration_lookup (h : (execRegistration env x call t).2.lookup iid = some row) :
    t.lookup iid = some row ∨
      ∃ reg, call = .upsert reg ∧
        iid = reg.installationID ∧
        row = sealedRegistration env.hashSecret reg := by
  unfold execRegistration at h
  cases hb : env.backend with
  | memory =>
    rw [hb] at h
    exact Memory.execRegistration_lookup h
  | postgres =>
    rw [hb] at h
    unfold Postgres.execRegistration at h
    rcases withFault_snd x (failedRegistration call) t
      (answerRegistration env.hashSecret call t) with hs | hs
    · rw [hs] at h
      exact .inl h
    · rw [hs] at h
      exact answerRegistration_lookup h

end Ferventio
