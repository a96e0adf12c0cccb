import Mathlib.Data.List.Nodup
import Mathlib.Logic.Function.Basic

/-!
# Custody of keys

Keys are reserved by processes, handed to a queue, taken from it and released. A process has at most
one key in its hands. As long as a process takes only a key that nobody has reserved, and hands on
or releases only the key that it has, every reserved key is in one place (**`Step.exclusive`**).
-/

/-- The keys that are reserved, queued and held. -/
structure Custody (κ : Type) where
  reserved : List κ
  queue : List κ
  holder : Nat → Option κ

namespace Custody

open List

variable {κ : Type} [DecidableEq κ] {c c' : Custody κ}

/-- What a process may do. -/
inductive Step : Custody κ → Custody κ → Prop
  | stay (c : Custody κ) : Step c c
  | reserve {c : Custody κ} (pid : Nat) {k : κ} (hfree : k ∉ c.reserved)
      (hidle : c.holder pid = none) :
      Step c { c with
        reserved := k :: c.reserved
        holder := Function.update c.holder pid (some k) }
  | send {c : Custody κ} (pid : Nat) {k : κ} (hholds : c.holder pid = some k) :
      Step c { c with
        queue := c.queue ++ [k]
        holder := Function.update c.holder pid none }
  | receive {c : Custody κ} (pid : Nat) {k : κ} {rest : List κ} (hqueue : c.queue = k :: rest)
      (hidle : c.holder pid = none) :
      Step c { c with
        queue := rest
        holder := Function.update c.holder pid (some k) }
  | release {c : Custody κ} (pid : Nat) {k : κ} (hholds : c.holder pid = some k) :
      Step c { c with
        reserved := c.reserved.filter (· != k)
        holder := Function.update c.holder pid none }

/-- Every reserved key is in one place. -/
structure Exclusive (c : Custody κ) : Prop where
  nodup : c.queue.Nodup
  queued : ∀ k ∈ c.queue, k ∈ c.reserved
  held : ∀ {pid k}, c.holder pid = some k → k ∈ c.reserved ∧ k ∉ c.queue
  once : ∀ {pid pid' k}, c.holder pid = some k → c.holder pid' = some k → pid = pid'
  somewhere : ∀ k ∈ c.reserved, k ∈ c.queue ∨ ∃ pid, c.holder pid = some k

omit [DecidableEq κ] in
theorem holder_update {holder : Nat → Option κ} {pid pid' : Nat} {k : κ} {o : Option κ}
    (h : Function.update holder pid o pid' = some k) :
    pid' = pid ∧ o = some k ∨ pid' ≠ pid ∧ holder pid' = some k := by
  rw [Function.update_apply] at h
  split at h
  · rename_i hpid
    exact .inl ⟨hpid, h⟩
  · rename_i hpid
    exact .inr ⟨hpid, h⟩

omit [DecidableEq κ] in
theorem Exclusive.once_update (hc : Exclusive c) {pid : Nat} {o : Option κ}
    (hnew : ∀ k, o = some k → ∀ pid', pid' ≠ pid → c.holder pid' ≠ some k) {pid1 pid2 : Nat} {k : κ}
    (h1 : Function.update c.holder pid o pid1 = some k)
    (h2 : Function.update c.holder pid o pid2 = some k) : pid1 = pid2 := by
  rcases holder_update h1 with ⟨heq1, ho⟩ | ⟨hne1, hholds1⟩
  · rcases holder_update h2 with ⟨heq2, -⟩ | ⟨hne2, hholds2⟩
    · rw [heq1, heq2]
    · exact absurd hholds2 (hnew k ho pid2 hne2)
  · rcases holder_update h2 with ⟨-, ho⟩ | ⟨-, hholds2⟩
    · exact absurd hholds1 (hnew k ho pid1 hne1)
    · exact hc.once hholds1 hholds2

omit [DecidableEq κ] in
theorem held_of_ne {pid pid' : Nat} {k k' : κ} {o : Option κ} (h : c.holder pid' = some k')
    (hpid : ∀ k'', c.holder pid = some k'' → k'' = k) (hne : k' ≠ k) :
    Function.update c.holder pid o pid' = some k' := by
  rw [Function.update_of_ne]
  · exact h
  · rintro rfl
    exact hne (hpid k' h)

section Move

variable {pid : Nat} {k : κ} {o : Option κ} {reserved queue : List κ}

omit [DecidableEq κ] in
theorem Exclusive.move (hc : Exclusive c) (hfrom : ∀ pid', c.holder pid' = some k → pid' = pid)
    (hpid : ∀ k', c.holder pid = some k' → k' = k) (hnodup : queue.Nodup)
    (hothers : ∀ k' ≠ k, (k' ∈ reserved ↔ k' ∈ c.reserved) ∧ (k' ∈ queue ↔ k' ∈ c.queue))
    (hto : o = some k ∧ k ∈ reserved ∧ k ∉ queue ∨ o = none ∧ (k ∈ reserved ↔ k ∈ queue)) :
    Exclusive ⟨reserved, queue, Function.update c.holder pid o⟩ where
  nodup := hnodup
  queued := by
    intro k' hqueued
    by_cases hk : k' = k
    · subst hk
      rcases hto with ⟨-, -, hnot⟩ | ⟨-, hiff⟩
      · exact absurd hqueued hnot
      · exact hiff.mpr hqueued
    · exact (hothers k' hk).1.mpr (hc.queued k' ((hothers k' hk).2.mp hqueued))
  held := by
    intro pid' k' hholds
    rcases holder_update hholds with ⟨-, rfl⟩ | ⟨hne, hholds⟩
    · rcases hto with ⟨heq, hk⟩ | ⟨hnone, -⟩
      · cases heq
        exact hk
      · cases hnone
    · have hk : k' ≠ k := by
        rintro rfl
        exact hne (hfrom pid' hholds)
      rw [(hothers k' hk).1, (hothers k' hk).2]
      exact hc.held hholds
  once := by
    refine hc.once_update fun k' ho pid' hne hholds => hne (hfrom pid' ?_)
    rcases hto with ⟨heq, -⟩ | ⟨hnone, -⟩
    · rw [hholds, ← ho, heq]
    · rw [hnone] at ho
      cases ho
  somewhere := by
    intro k' hreserved
    by_cases hk : k' = k
    · subst hk
      rcases hto with ⟨rfl, -⟩ | ⟨-, hiff⟩
      · exact .inr ⟨pid, Function.update_self ..⟩
      · exact .inl (hiff.mp hreserved)
    · refine (hc.somewhere k' ((hothers k' hk).1.mp hreserved)).imp (hothers k' hk).2.mpr ?_
      exact fun ⟨pid', hholds⟩ => ⟨pid', held_of_ne hholds hpid hk⟩

end Move

theorem Step.exclusive (h : Step c c') (hc : Exclusive c) : Exclusive c' := by
  cases h with
  | stay => exact hc
  | @reserve pid k hfree hidle =>
    refine hc.move (fun pid' hholds => absurd (hc.held hholds).1 hfree) (by simp [hidle]) hc.nodup
      (fun k' hne => ⟨by simp [hne], .rfl⟩) (.inl ⟨rfl, mem_cons_self, ?_⟩)
    exact fun hqueued => hfree (hc.queued k hqueued)
  | @send pid k hholds =>
    have hk := hc.held hholds
    refine hc.move (fun _ hholds' => hc.once hholds' hholds) (by simp [hholds, eq_comm]) ?_
      (fun k' hne => ⟨.rfl, by simp [hne]⟩) (.inr ⟨rfl, by simp [hk.1]⟩)
    exact List.Nodup.append hc.nodup (nodup_singleton k) (disjoint_singleton.mpr hk.2)
  | @receive pid k rest hqueue hidle =>
    have hk : k ∈ c.queue := hqueue ▸ mem_cons_self
    have hnodup := hc.nodup
    rw [hqueue, nodup_cons] at hnodup
    exact hc.move (fun pid' hholds => absurd hk (hc.held hholds).2) (by simp [hidle]) hnodup.2
      (fun k' hne => ⟨.rfl, by simp [hqueue, hne]⟩) (.inl ⟨rfl, hc.queued k hk, hnodup.1⟩)
  | @release pid k hholds =>
    exact hc.move (fun _ hholds' => hc.once hholds' hholds) (by simp [hholds, eq_comm]) hc.nodup
      (fun k' hne => ⟨by simp [hne], .rfl⟩) (.inr ⟨rfl, by simp [(hc.held hholds).2]⟩)

end Custody
