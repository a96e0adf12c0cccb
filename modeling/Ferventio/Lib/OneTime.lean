import Ferventio.Lib.Interleave

/-!
# One-time records

A record is put under a key by one call and taken by another; taking it deletes it. Nothing else
writes such records, but they may be deleted at any time. If no key is used for two records, what
is taken was put before, and no key is taken twice, whatever the interleaving.

* `Once`: no two calls of a history have the same mark. **`Once.eq`**: the call with a mark is the
  only one.
* **`OneTime.Kept.ledger`**: what holds of the puts and takes of every run.
-/

namespace System

open List

variable {τ Op : Type} {Ans : Op → Type} {σ χ κ ρ : Type}

/-! ## Calls that are made once -/

/-- No key is marked twice. -/
def Once (mark : Event τ Op Ans → Option κ) (hist : List (Event τ Op Ans)) : Prop :=
  hist.Pairwise fun e e' => ∀ k, mark e = some k → mark e' ≠ some k

section Once

variable {mark token : Event τ Op Ans → Option κ} {hist : List (Event τ Op Ans)}
  {e e' : Event τ Op Ans} {old old' : List (Event τ Op Ans)} {k : κ}

theorem once_cons : Once mark (e :: hist) ↔
    (∀ e' ∈ hist, ∀ k, mark e = some k → mark e' ≠ some k) ∧ Once mark hist :=
  pairwise_cons

/-- **A mark that occurs once tells which call it was.** -/
theorem Once.eq (h : Once mark hist) (he : e :: old <:+ hist) (he' : e' :: old' <:+ hist)
    (hk : mark e = some k) (hk' : mark e' = some k) : e :: old = e' :: old' := by
  have hlater : ∀ {e e' : Event τ Op Ans} {old old' : List (Event τ Op Ans)},
      e' :: old' <:+ hist → mark e = some k → mark e' = some k → ¬ e :: old <:+ old' := by
    intro e e' old old' he' hk hk' hsuf
    have hfirst := (once_cons.mp (List.Pairwise.sublist he'.sublist h)).1
    exact hfirst e (hsuf.subset mem_cons_self) k hk' hk
  rcases suffix_or_suffix_of_suffix he he' with hsuf | hsuf
  · rcases suffix_cons_iff.mp hsuf with heq | hsuf
    · exact heq
    · exact absurd hsuf (hlater he' hk hk')
  · rcases suffix_cons_iff.mp hsuf with heq | hsuf
    · exact heq.symm
    · exact absurd hsuf (hlater he hk' hk)

theorem Once.of_first {first : Event τ Op Ans → Bool}
    (h : ∀ e old, e :: old <:+ hist → first e → ∀ e' ∈ old, e'.pid = e.pid → first e' = false) :
    Once (fun e => if first e then some e.pid else none) hist := by
  induction hist with
  | nil => exact List.Pairwise.nil
  | cons e hist ih =>
    refine once_cons.mpr ⟨fun e' he' k hk hk' => ?_, ih fun e' old hsuf =>
      h e' old (hsuf.trans (suffix_cons e hist))⟩
    split_ifs at hk with hfirst
    split_ifs at hk' with hfirst'
    have hpid : e'.pid = e.pid := Option.some.inj (hk'.trans hk.symm)
    rw [h e hist suffix_rfl hfirst e' he' hpid] at hfirst'
    cases hfirst'

/-- A process marks one call, with a token of its own. -/
theorem Once.of_token (htoken : Once token hist)
    (h : ∀ e old k, e :: old <:+ hist → mark e = some k →
      (∃ e' old', e' :: old' <:+ old ∧ e'.pid = e.pid ∧ token e' = some k) ∧
        ∀ e' ∈ old, e'.pid = e.pid → mark e' = none) :
    Once mark hist := by
  have hall : ∀ part, part <:+ hist → Once mark part := by
    intro part
    induction part with
    | nil => exact fun _ => List.Pairwise.nil
    | cons e part ih =>
      intro hpart
      refine once_cons.mpr ⟨fun e' he' k hk hk' => ?_, ih ((suffix_cons e part).trans hpart)⟩
      obtain ⟨before, rest, hsplit⟩ := append_of_mem he'
      have he'part : e' :: rest <:+ part := ⟨before, hsplit.symm⟩
      have he'hist : e' :: rest <:+ hist := he'part.trans ((suffix_cons e part).trans hpart)
      obtain ⟨⟨t, told, htold, htpid, ht⟩, hfirst⟩ := h e part k hpart hk
      obtain ⟨⟨t', told', htold', htpid', ht'⟩, -⟩ := h e' rest k he'hist hk'
      -- both processes were given the token by one call, so they are one process
      have hsame := htoken.eq (htold.trans ((suffix_cons e part).trans hpart))
        (htold'.trans ((suffix_cons e' rest).trans he'hist)) ht ht'
      have hpid : e'.pid = e.pid := by
        rw [← htpid, ← htpid', (List.cons.inj hsame).1]
      rw [hfirst e' he' hpid] at hk'
      cases hk'
  exact hall hist suffix_rfl

end Once

/-! ## Records that are taken once -/

/-- What is stored under a key, and which calls put and take it. -/
structure OneTime (τ Op : Type) (Ans : Op → Type) (σ κ ρ : Type) where
  stored : σ → κ → Option ρ
  put : Event τ Op Ans → Option (κ × ρ)
  take : Event τ Op Ans → Option (κ × ρ)

namespace OneTime

variable {R : OneTime τ Op Ans σ κ ρ} {S : System τ Op Ans σ χ} {G : Condition τ Op Ans σ}
  {c0 c : Config τ Op Ans σ}

/-- The key that an event stores. -/
def putKey (R : OneTime τ Op Ans σ κ ρ) (e : Event τ Op Ans) : Option κ := (R.put e).map Prod.fst

/-- The key that an event takes. -/
def takeKey (R : OneTime τ Op Ans σ κ ρ) (e : Event τ Op Ans) : Option κ :=
  (R.take e).map Prod.fst

variable {e : Event τ Op Ans} {k : κ}

theorem putKey_of_put {r : ρ} (h : R.put e = some (k, r)) : R.putKey e = some k := by
  rw [putKey, h]
  rfl

theorem put_of_putKey (h : R.putKey e = some k) : ∃ r, R.put e = some (k, r) := by
  obtain ⟨⟨k', r⟩, hput, rfl⟩ := Option.map_eq_some_iff.mp h
  exact ⟨r, hput⟩

theorem takeKey_of_take {r : ρ} (h : R.take e = some (k, r)) : R.takeKey e = some k := by
  rw [takeKey, h]
  rfl

theorem take_of_takeKey (h : R.takeKey e = some k) : ∃ r, R.take e = some (k, r) := by
  obtain ⟨⟨k', r⟩, htake, rfl⟩ := Option.map_eq_some_iff.mp h
  exact ⟨r, htake⟩

/-- What the steps keep. -/
structure Kept (R : OneTime τ Op Ans σ κ ρ) (S : System τ Op Ans σ χ)
    (G : Condition τ Op Ans σ) : Prop where
  stored : ∀ {v : View τ Op Ans σ} {e : Event τ Op Ans} {x : χ} {s : σ} {k : κ} {r : ρ},
    S.exec e.op x v.state = some (e.ans, s) → G v e → R.stored s k = some r →
      R.stored v.state k = some r ∨ R.put e = some (k, r)
  taken : ∀ {v : View τ Op Ans σ} {e : Event τ Op Ans} {x : χ} {s : σ} {k : κ} {r : ρ},
    S.exec e.op x v.state = some (e.ans, s) → G v e → R.take e = some (k, r) →
      R.stored v.state k = some r ∧ R.stored s k = none

/-- **The books of a history**: what is stored was put and not taken, what was taken was put, and
once. -/
structure Ledger (R : OneTime τ Op Ans σ κ ρ) (v : View τ Op Ans σ) : Prop where
  stored : ∀ {k r}, R.stored v.state k = some r →
    (∃ e old, e :: old <:+ v.hist ∧ R.put e = some (k, r)) ∧ ∀ e ∈ v.hist, R.takeKey e ≠ some k
  origin : ∀ {e old k r}, e :: old <:+ v.hist → R.take e = some (k, r) →
    ∃ e' old', e' :: old' <:+ old ∧ R.put e' = some (k, r)
  once : Once R.takeKey v.hist

theorem Ledger.after {v : View τ Op Ans σ} {x : χ} {s : σ}
    (h : R.Ledger v) (hkept : R.Kept S G) (hexec : S.exec e.op x v.state = some (e.ans, s))
    (hG : G v e) (hputs : Once R.putKey (e :: v.hist)) : R.Ledger (v.after e s) where
  stored := by
    intro k r hr
    rw [View.after_state] at hr
    rw [View.after_hist]
    -- the call itself did not take what is stored after it
    have hnow : R.takeKey e ≠ some k := by
      intro hkey
      obtain ⟨r', htake⟩ := take_of_takeKey hkey
      rw [(hkept.taken hexec hG htake).2] at hr
      cases hr
    rcases hkept.stored hexec hG hr with hr | hput
    · obtain ⟨⟨e', old, hsuf, hput⟩, huntaken⟩ := h.stored hr
      refine ⟨⟨e', old, hsuf.trans (suffix_cons e _), hput⟩, ?_⟩
      exact forall_mem_cons.mpr ⟨hnow, huntaken⟩
    · refine ⟨⟨e, v.hist, suffix_rfl, hput⟩, forall_mem_cons.mpr ⟨hnow, ?_⟩⟩
      -- had the key been taken, it would have been put before
      intro e' he' hkey
      obtain ⟨r', htake⟩ := take_of_takeKey hkey
      obtain ⟨before, rest, hsplit⟩ := append_of_mem he'
      obtain ⟨e'', old'', hsuf, hput'⟩ := h.origin ⟨before, hsplit.symm⟩ htake
      have hmem : e'' ∈ v.hist := by
        rw [hsplit]
        exact mem_append_right _ (mem_cons_of_mem _ (hsuf.subset mem_cons_self))
      exact (once_cons.mp hputs).1 e'' hmem k (putKey_of_put hput) (putKey_of_put hput')
  origin := by
    intro e' old k r hsuf htake
    rcases suffix_cons_iff.mp hsuf with heq | hsuf
    · cases heq
      obtain ⟨⟨e'', old', hsuf, hput⟩, -⟩ := h.stored (hkept.taken hexec hG htake).1
      exact ⟨e'', old', hsuf, hput⟩
    · exact h.origin hsuf htake
  once := by
    rw [View.after_hist, once_cons]
    refine ⟨fun e' he' k hk hk' => ?_, h.once⟩
    obtain ⟨r, htake⟩ := take_of_takeKey hk
    exact (h.stored (hkept.taken hexec hG htake).1).2 e' he' hk'

/-- **One-time records along a run.** -/
theorem Kept.ledger (hkept : R.Kept S G) (hhist : c0.hist = [])
    (hempty : ∀ k, R.stored c0.state k = none) (h : S.Steps G c0 c)
    (hputs : Once R.putKey c.hist) : R.Ledger c.toView := by
  refine h.view_invariant (I := fun v => Once R.putKey v.hist → R.Ledger v) ?_ ?_ hputs
  · intro v e x s hv hexec hG hputs
    exact (hv (once_cons.mp hputs).2).after hkept hexec hG hputs
  · intro _
    refine ⟨fun {k r} hr => ?_, fun {e old k r} hsuf _ => ?_, ?_⟩
    · rw [hempty k] at hr
      cases hr
    · rw [hhist] at hsuf
      cases suffix_nil.mp hsuf
    · rw [hhist]
      exact List.Pairwise.nil

end OneTime

end System
