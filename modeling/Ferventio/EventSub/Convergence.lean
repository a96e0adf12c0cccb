import Ferventio.EventSub.Reconcile

/-!
# Reconciliation converges

A round of `reconcile` against Twitch as a set of subscriptions: a creation adds one subscription
that is pending, a deletion removes one, and a call that fails has no effect. The second loop of the
source ranges over a map, so its order is a parameter here.

* **`reconcile_converges`**: whatever fails, a round does no harm; otherwise one round is enough.
-/

namespace Ferventio

open Prog List

variable {x : Choice} {spec : EventSubSubscriptionSpec} {ans : Result Unit} {tr : Trace}
  {cfg : ServerConfig} {ids : List String} {w' w : World} {env : Env} {s : EventSubSubscription}
  {key : String}

/-- The subscriptions of this server. -/
def own (cfg : ServerConfig) (w : World) : List EventSubSubscription :=
  w.subscriptions.filter fun s => s.callback == cfg.eventSubCallbackURL

/-- Those of others. -/
def foreign (cfg : ServerConfig) (w : World) : List EventSubSubscription :=
  w.subscriptions.filter fun s => s.callback != cfg.eventSubCallbackURL

/-- The server's usable subscriptions for one key. -/
def serving (cfg : ServerConfig) (key : String) (w : World) : List EventSubSubscription :=
  (own cfg w).filter fun s => s.usable && s.key == key

/-- The call to Twitch succeeded. -/
def succeeded : Sigma Call.Ans → Bool
  | ⟨.twitch .listSubscriptions, .error _⟩ => false
  | ⟨.twitch (.createSubscription _), .error _⟩ => false
  | ⟨.twitch (.deleteSubscription _), .error _⟩ => false
  | _ => true

/-- Every call to Twitch succeeded. -/
def Undisturbed (tr : Trace) : Prop := ∀ e ∈ tr, succeeded e

/-- Other callbacks are left alone, a desired key that was served still is, and one is created only
for a key that has none. -/
structure DoesNoHarm (cfg : ServerConfig) (desired : List EventSubSubscriptionSpec) (w w' : World) :
    Prop where
  foreign_eq : foreign cfg w' = foreign cfg w
  served : ∀ spec ∈ desired, serving cfg spec.key w ≠ [] → serving cfg spec.key w' ≠ []
  single : ∀ key, (serving cfg key w').Sublist (serving cfg key w) ∨
    serving cfg key w = [] ∧ (serving cfg key w').length ≤ 1

/-- The server has exactly one usable subscription per desired key. -/
structure Converged (cfg : ServerConfig) (desired : List EventSubSubscriptionSpec) (w : World) :
    Prop where
  wanted : ∀ s ∈ own cfg w, s.usable ∧ ∃ spec ∈ desired, spec.key = s.key
  single : ∀ spec ∈ desired, (serving cfg spec.key w).length = 1

section Loops

variable {wanted : String → Bool} {existing : List EventSubSubscription}
  {state state' : ReconcileState} {tr1 tr2 : Trace}

theorem undisturbed_append_iff : Undisturbed (tr1 ++ tr2) ↔ Undisturbed tr1 ∧ Undisturbed tr2 :=
  forall_mem_append

theorem undisturbed_cons_iff {e : Sigma Call.Ans} :
    Undisturbed (e :: tr) ↔ succeeded e ∧ Undisturbed tr :=
  forall_mem_cons

/-! ## The loop over the existing subscriptions -/

theorem exec_deleteSubscription {id : String} :
    exec env (.twitch (.deleteSubscription id)) x w = some (ans, w') ↔
      match ans with
      | .error err => x.failure = some err ∧ w' = w
      | .ok () => x.failure = none ∧
        w' = { w with subscriptions := w.subscriptions.filter (·.id != id) } := by
  simp only [exec, execTwitch]
  cases x.failure <;> cases ans <;> simp [eq_comm]

/-- The subscriptions without some. -/
def without (ids : List String) (w : World) : World :=
  { w with subscriptions := w.subscriptions.filter fun s => !ids.contains s.id }

theorem without_nil (w : World) : without [] w = w := by
  simp [without]

theorem without_cons (id : String) (ids : List String) (w : World) :
    without (id :: ids) w =
      without ids { w with subscriptions := w.subscriptions.filter (·.id != id) } := by
  simp only [without, filter_filter, contains_cons, Bool.not_or]
  congr 1
  refine filter_congr fun s _ => ?_
  rw [Bool.and_comm]
  rfl

/-- The subscription serves the key. -/
def Serves (cfg : ServerConfig) (key : String) (s : EventSubSubscription) : Prop :=
  s.callback = cfg.eventSubCallbackURL ∧ s.usable ∧ s.key = key

/-- The keys that the loop kept, and the subscriptions `ids` that it deleted. -/
structure SweptExisting (cfg : ServerConfig) (wanted : String → Bool)
    (existing : List EventSubSubscription) (state state' : ReconcileState)
    (tr : Trace) (w w' : World) (ids : List String) : Prop where
  kept : ∀ key, key ∈ state'.kept ↔
    key ∈ state.kept ∨ wanted key ∧ ∃ s ∈ existing, Serves cfg key s
  world : w' = without ids w
  removed : ∀ id ∈ ids, id ∈ (doomed cfg wanted state.kept existing).map (·.id)
  undisturbed : Undisturbed tr →
    ids = (doomed cfg wanted state.kept existing).map (·.id) ∧ state'.blocked = state.blocked ∧
      state'.failures = state.failures ∧ state'.deleted = state.deleted + ids.length

section Swept

variable {first : EventSubSubscription}

theorem SweptExisting.foreign (hforeign : first.callback ≠ cfg.eventSubCallbackURL)
    (h : SweptExisting cfg wanted existing state state' tr w w' ids) :
    SweptExisting cfg wanted (first :: existing) state state' tr w w' ids := by
  have hdoom : doomed cfg wanted state.kept (first :: existing) =
      doomed cfg wanted state.kept existing := by
    rw [doomed, if_pos hforeign]
  refine ⟨fun key => ?_, h.world, hdoom ▸ h.removed, hdoom ▸ h.undisturbed⟩
  rw [h.kept, exists_mem_cons_iff]
  simp [Serves, hforeign]

theorem SweptExisting.keep (hown : first.callback = cfg.eventSubCallbackURL)
    (hkeep : (wanted first.key && !state.kept.contains first.key && first.usable) = true)
    (h : SweptExisting cfg wanted existing { state with kept := first.key :: state.kept } state' tr
      w w' ids) :
    SweptExisting cfg wanted (first :: existing) state state' tr w w' ids := by
  have hdoom : doomed cfg wanted state.kept (first :: existing) =
      doomed cfg wanted (first.key :: state.kept) existing := by
    rw [doomed, if_neg (not_not.mpr hown), if_pos hkeep]
  refine ⟨fun key => ?_, h.world, hdoom ▸ h.removed, hdoom ▸ h.undisturbed⟩
  rw [Bool.and_eq_true, Bool.and_eq_true] at hkeep
  rw [h.kept, exists_mem_cons_iff, mem_cons]
  constructor
  · rintro ((rfl | hkey) | ⟨hwant, hserved⟩)
    · exact .inr ⟨hkeep.1.1, .inl ⟨hown, hkeep.2, rfl⟩⟩
    · exact .inl hkey
    · exact .inr ⟨hwant, .inr hserved⟩
  · rintro (hkey | ⟨hwant, ⟨-, -, rfl⟩ | hserved⟩)
    · exact .inl (.inr hkey)
    · exact .inl (.inl rfl)
    · exact .inr ⟨hwant, hserved⟩

section Doomed

variable (hkeep : ¬(wanted first.key && !state.kept.contains first.key && first.usable) = true)

include hkeep

theorem doomed_cons (hown : first.callback = cfg.eventSubCallbackURL) :
    doomed cfg wanted state.kept (first :: existing) =
      first :: doomed cfg wanted state.kept existing := by
  rw [doomed, if_neg (not_not.mpr hown), if_neg hkeep]

theorem kept_cons_iff (key : String) :
    (key ∈ state.kept ∨ wanted key ∧ ∃ s ∈ existing, Serves cfg key s) ↔
      key ∈ state.kept ∨ wanted key ∧ ∃ s ∈ first :: existing, Serves cfg key s := by
  rw [exists_mem_cons_iff]
  constructor
  · rintro (hkey | ⟨hwant, hserved⟩)
    · exact .inl hkey
    · exact .inr ⟨hwant, .inr hserved⟩
  · rintro (hkey | ⟨hwant, ⟨-, huse, rfl⟩ | hserved⟩)
    · exact .inl hkey
    · refine .inl ?_
      simpa [hwant, huse] using hkeep
    · exact .inr ⟨hwant, hserved⟩

end Doomed

end Swept

theorem reconcileExisting_swept
    (h : Runs (exec env) (reconcileExisting cfg wanted existing state) w tr state' w') :
    ∃ ids, SweptExisting cfg wanted existing state state' tr w w' ids := by
  induction existing generalizing state w tr with
  | nil =>
    obtain ⟨rfl, rfl, rfl⟩ := h.of_ret
    exact ⟨[], ⟨fun key => by simp, (without_nil _).symm, by simp, fun _ => ⟨rfl, rfl, rfl, rfl⟩⟩⟩
  | cons first existing ih =>
    rw [reconcileExisting] at h
    dsimp only at h
    split_ifs at h with hforeign hkeep
    · exact (ih h).imp fun _ hrest => hrest.foreign hforeign
    · exact (ih h).imp fun _ hrest => hrest.keep (not_not.mp hforeign) hkeep
    · have hdoom : doomed cfg wanted state.kept (first :: existing) = _ :=
        doomed_cons hkeep (not_not.mp hforeign)
      have hkept : ∀ key, (key ∈ state.kept ∨ wanted key ∧ ∃ s ∈ existing, Serves cfg key s) ↔ _ :=
        kept_cons_iff hkeep
      obtain ⟨x, ans, w1, tr', hcall, rfl, hrest⟩ := h.of_perform
      rw [exec_deleteSubscription] at hcall
      cases ans with
      | error =>
        obtain ⟨-, rfl⟩ := hcall
        obtain ⟨ids, hrest⟩ : ∃ ids, SweptExisting cfg wanted existing _ state' tr' _ w' ids :=
          ih hrest
        refine ⟨ids, fun key => (hrest.kept key).trans (hkept key), hrest.world, ?_, fun htr => ?_⟩
        · rw [hdoom]
          exact fun id hid => mem_cons_of_mem _ (hrest.removed id hid)
        · cases (undisturbed_cons_iff.mp htr).1
      | ok =>
        obtain ⟨-, rfl⟩ := hcall
        obtain ⟨ids, hrest⟩ : ∃ ids, SweptExisting cfg wanted existing _ state' tr' _ w' ids :=
          ih hrest
        refine ⟨first.id :: ids, fun key => (hrest.kept key).trans (hkept key),
          hrest.world.trans (without_cons first.id ids w).symm, ?_, fun htr => ?_⟩
        · rw [hdoom]
          exact cons_subset_cons _ hrest.removed
        · obtain ⟨hids, hblock, hfailures, hdel⟩ :=
            hrest.undisturbed (undisturbed_cons_iff.mp htr).2
          rw [hdoom]
          refine ⟨congrArg (first.id :: ·) hids, hblock, hfailures, ?_⟩
          rw [hdel, length_cons]
          dsimp only
          omega

/-! ## The loop over the desired subscriptions -/

theorem exec_createSubscription
    (h : exec env (.twitch (.createSubscription spec)) x w = some (ans, w')) :
    (∃ err, ans = .error err ∧ w' = w) ∨
      ans = .ok () ∧ ∃ s : EventSubSubscription, s.usable ∧ s.key = spec.key ∧
        s.callback = spec.callback ∧ w' = { w with subscriptions := w.subscriptions ++ [s] } := by
  simp only [exec, execTwitch] at h
  cases hfailure : x.failure with
  | some err =>
    rw [hfailure] at h
    cases h
    exact .inl ⟨err, rfl, rfl⟩
  | none =>
    rw [hfailure] at h
    cases h
    exact .inr ⟨rfl, _, rfl, rfl, rfl, rfl⟩

/-- What is wanted and not kept. -/
def missing (state : ReconcileState) (ranged : List EventSubSubscriptionSpec) :
    List EventSubSubscriptionSpec :=
  ranged.filter fun spec => !(state.kept.contains spec.key || state.blocked.contains spec.key)

/-- The missing ones were created. -/
structure AddedMissing (state : ReconcileState) (ranged : List EventSubSubscriptionSpec)
    (tr : Trace) (out : Nat × List GoError) (w w' : World)
    (added : List EventSubSubscription) : Prop where
  world : w' = { w with subscriptions := w.subscriptions ++ added }
  keys : (added.map (·.key)).Sublist ((missing state ranged).map (·.key))
  usable : ∀ s ∈ added, s.usable ∧ ∃ spec ∈ ranged, s.callback = spec.callback
  undisturbed : Undisturbed tr →
    added.map (·.key) = (missing state ranged).map (·.key) ∧ out = (added.length, [])

theorem reconcileDesired_added {ranged : List EventSubSubscriptionSpec} {out : Nat × List GoError}
    (h : Runs (exec env) (reconcileDesired state ranged) w tr out w') :
    ∃ added, AddedMissing state ranged tr out w w' added := by
  induction ranged generalizing w tr out with
  | nil =>
    obtain ⟨rfl, rfl, rfl⟩ := h.of_ret
    refine ⟨[], ⟨?_, List.Sublist.refl _, by simp, fun _ => ⟨rfl, rfl⟩⟩⟩
    rw [append_nil]
  | cons spec ranged ih =>
    rw [reconcileDesired] at h
    split_ifs at h with hskip
    · obtain ⟨added, hadded⟩ := ih h
      have hmiss : missing state (spec :: ranged) = missing state ranged := by
        rw [missing, filter_cons_of_neg (by rw [hskip]; decide), missing]
      refine ⟨added, hadded.world, hmiss ▸ hadded.keys, fun s hs => ?_, hmiss ▸ hadded.undisturbed⟩
      obtain ⟨huse, spec', hspec', hcb⟩ := hadded.usable s hs
      exact ⟨huse, spec', mem_cons_of_mem _ hspec', hcb⟩
    · rw [Bool.not_eq_true] at hskip
      have hmiss : missing state (spec :: ranged) = spec :: missing state ranged := by
        rw [missing, filter_cons_of_pos (by rw [hskip]; rfl), missing]
      rw [twitch, perform_bind, runs_call_iff] at h
      obtain ⟨x, ans, w1, tr', hcall, rfl, hrest⟩ := h
      rcases exec_createSubscription hcall with ⟨err, rfl, rfl⟩ |
        ⟨rfl, s, huse, hkey, hcb, rfl⟩
      · obtain ⟨tr1, tr2, ⟨created, failures⟩, w2, rfl, hrest, hret⟩ := hrest.of_bind
        obtain ⟨rfl, rfl, rfl⟩ := hret.of_ret
        obtain ⟨added, hadded⟩ := ih hrest
        refine ⟨added, hadded.world, ?_, fun s hs => ?_, fun htr => ?_⟩
        · rw [hmiss]
          exact hadded.keys.cons _
        · obtain ⟨huse, spec', hspec', hcb⟩ := hadded.usable s hs
          exact ⟨huse, spec', mem_cons_of_mem _ hspec', hcb⟩
        · cases (undisturbed_cons_iff.mp htr).1
      · obtain ⟨tr1, tr2, ⟨created, failures⟩, w2, rfl, hrest, hret⟩ := hrest.of_bind
        obtain ⟨rfl, rfl, rfl⟩ := hret.of_ret
        obtain ⟨added, hadded⟩ := ih hrest
        refine ⟨s :: added, ?_, ?_, fun s' hs' => ?_, fun htr => ?_⟩
        · rw [hadded.world]
          simp
        · rw [hmiss, map_cons, map_cons, hkey]
          exact hadded.keys.cons_cons _
        · rcases mem_cons.mp hs' with rfl | hs'
          · exact ⟨huse, spec, mem_cons_self, hcb⟩
          · obtain ⟨huse', spec', hspec', hcb'⟩ := hadded.usable s' hs'
            exact ⟨huse', spec', mem_cons_of_mem _ hspec', hcb'⟩
        · rw [append_nil] at htr
          obtain ⟨hkeys, hout⟩ := hadded.undisturbed (undisturbed_cons_iff.mp htr).2
          cases hout
          rw [hmiss, map_cons, map_cons, hkey, hkeys]
          exact ⟨rfl, rfl⟩

end Loops

/-! ## A whole round -/

section Round

variable {registrations : List Registration} {ranged : List EventSubSubscriptionSpec}
  {out : Nat × Nat × Result Unit}

theorem desired_callback (h : spec ∈ desiredEventSubSubscriptions cfg registrations) :
    spec.callback = cfg.eventSubCallbackURL := by
  obtain ⟨-, -, req, -, -, rfl⟩ := requested_of_mem_desired h
  rfl

/-- Some registration wants the key. -/
def wantedKey (cfg : ServerConfig) (registrations : List Registration) (key : String) : Bool :=
  (desiredEventSubSubscriptions cfg registrations).any (·.key == key)

theorem reconcileInOrder_runs
    (h : Runs (exec env) (reconcileInOrder cfg registrations ranged) w tr out w') :
    w' = w ∧ (Undisturbed tr → cfg.eventSubEnabled = false) ∨
      cfg.eventSubEnabled ∧ ∃ tr1 tr2 state w1 created failures ids added,
        SweptExisting cfg (wantedKey cfg registrations) w.subscriptions {} state tr1 w w1 ids ∧
        AddedMissing state ranged tr2 (created, failures) w1 w' added ∧
        (Undisturbed tr → Undisturbed tr1 ∧ Undisturbed tr2) ∧
        out = (created, state.deleted, joinErrors (state.failures ++ failures)) := by
  rw [reconcileInOrder] at h
  split_ifs at h with hon
  · obtain ⟨-, -, rfl⟩ := h.of_ret
    exact .inl ⟨rfl, fun _ => by simpa using hon⟩
  · rw [twitch, perform_bind, runs_call_iff] at h
    obtain ⟨x, ans, w1, tr', hcall, rfl, hrest⟩ := h
    simp only [exec, execTwitch, Option.some.injEq, Prod.mk.injEq] at hcall
    cases ans with
    | error =>
      obtain ⟨-, rfl⟩ := hcall
      obtain ⟨-, -, rfl⟩ := hrest.of_ret
      exact .inl ⟨rfl, fun htr => absurd (undisturbed_cons_iff.mp htr).1 (by simp [succeeded])⟩
    | ok =>
      obtain ⟨hex, rfl⟩ := hcall
      split at hex
      · cases hex
      cases hex
      obtain ⟨tr1, tr2, state, w2, rfl, hfirst, hrest⟩ := hrest.of_bind
      obtain ⟨tr3, tr4, ⟨created, failures⟩, w3, rfl, hsec, hrest⟩ := hrest.of_bind
      obtain ⟨rfl, rfl, rfl⟩ := hrest.of_ret
      obtain ⟨ids, hswept⟩ := reconcileExisting_swept hfirst
      obtain ⟨added, hadded⟩ := reconcileDesired_added hsec
      refine .inr ⟨by simpa using hon, tr1, tr3, state, w2, created, failures, ids, added,
        hswept, hadded, fun htr => ?_, rfl⟩
      have htr' := undisturbed_append_iff.mp (undisturbed_cons_iff.mp htr).2
      rw [append_nil] at htr'
      exact htr'

theorem mem_own_iff :
    s ∈ own cfg w ↔ s ∈ w.subscriptions ∧ s.callback = cfg.eventSubCallbackURL := by
  rw [own, mem_filter, beq_iff_eq]

theorem mem_serving_iff :
    s ∈ serving cfg key w ↔ s ∈ w.subscriptions ∧ s.callback = cfg.eventSubCallbackURL ∧
      s.usable ∧ s.key = key := by
  rw [serving, mem_filter, mem_own_iff, Bool.and_eq_true, beq_iff_eq, and_assoc]

theorem wantedKey_iff : wantedKey cfg registrations key ↔
    ∃ spec ∈ desiredEventSubSubscriptions cfg registrations, spec.key = key := by
  simp [wantedKey]

theorem length_le_one_of_forall_eq {l : List EventSubSubscription} (hnodup : l.Nodup)
    (h : ∀ a ∈ l, ∀ b ∈ l, a = b) : l.length ≤ 1 := by
  match l with
  | [] => exact Nat.zero_le 1
  | [a] => exact Nat.le_refl 1
  | a :: b :: l =>
    have hab : a = b := h a mem_cons_self b (mem_cons_of_mem _ mem_cons_self)
    exact absurd (hab ▸ mem_cons_self) (nodup_cons.mp hnodup).1

/-- What the first loop removed, and the second added. -/
structure Round (cfg : ServerConfig) (registrations : List Registration) (w w' : World)
    (ids : List String) (added : List EventSubSubscription) : Prop where
  world : w'.subscriptions = (w.subscriptions.filter fun s => !ids.contains s.id) ++ added
  removed : ∀ id ∈ ids,
    id ∈ (doomed cfg (wantedKey cfg registrations) [] w.subscriptions).map (·.id)
  keys_nodup : (added.map (·.key)).Nodup
  missing : ∀ s ∈ added, wantedKey cfg registrations s.key ∧ serving cfg s.key w = []
  fresh : ∀ s ∈ added, s.usable ∧ s.callback = cfg.eventSubCallbackURL

namespace Round

variable {added : List EventSubSubscription}

variable (h : Round cfg registrations w w' ids added)

include h

theorem spared (hids : (w.subscriptions.map (·.id)).Nodup) (hs : s ∈ w.subscriptions)
    (hspare : s ∉ doomed cfg (wantedKey cfg registrations) [] w.subscriptions) :
    ids.contains s.id = false := by
  rw [← Bool.not_eq_true, contains_iff_mem]
  intro hid
  obtain ⟨s', hs', hid'⟩ := mem_map.mp (h.removed _ hid)
  rw [inj_on_of_nodup_map hids (doomed_sublist.subset hs') hs hid'] at hs'
  exact hspare hs'

theorem serving_eq (key : String) :
    serving cfg key w' = (serving cfg key w).filter (fun s => !ids.contains s.id) ++
      added.filter fun s => s.key == key := by
  have hadded : added.filter (fun s => s.callback == cfg.eventSubCallbackURL) = added := by
    refine filter_eq_self.mpr fun s hs => ?_
    exact beq_iff_eq.mpr (h.fresh s hs).2
  simp only [serving, own, h.world, filter_append, hadded, filter_filter]
  congr 1
  · refine filter_congr fun s _ => ?_
    ac_rfl
  · refine filter_congr fun s hs => ?_
    rw [(h.fresh s hs).1, Bool.true_and]

theorem added_eq_nil
    (hserved : serving cfg key w ≠ []) : added.filter (fun s => s.key == key) = [] := by
  refine filter_eq_nil_iff.mpr fun s hs hkey => ?_
  rw [beq_iff_eq] at hkey
  rw [← hkey] at hserved
  exact hserved (h.missing s hs).2

theorem added_length_le (key : String) : (added.filter fun s => s.key == key).length ≤ 1 := by
  refine length_le_one_of_forall_eq (h.keys_nodup.of_map.filter _) fun a ha b hb => ?_
  rw [mem_filter, beq_iff_eq] at ha hb
  exact inj_on_of_nodup_map h.keys_nodup ha.1 hb.1 (ha.2.trans hb.2.symm)

theorem doesNoHarm (hids : (w.subscriptions.map (·.id)).Nodup) :
    DoesNoHarm cfg (desiredEventSubSubscriptions cfg registrations) w w' := by
  refine ⟨?_, fun spec hspec hserved => ?_, fun key => ?_⟩
  · have hadded : added.filter (fun s => s.callback != cfg.eventSubCallbackURL) = [] := by
      refine filter_eq_nil_iff.mpr fun s hs => ?_
      rw [(h.fresh s hs).2]
      simp
    rw [foreign, foreign, h.world, filter_append, hadded, append_nil, filter_filter]
    refine filter_congr fun s hs => ?_
    cases hforeign : s.callback != cfg.eventSubCallbackURL with
    | false => rfl
    | true =>
      rw [h.spared hids hs fun hdoom => ?_]
      · rfl
      · rw [callback_of_mem_doomed hdoom] at hforeign
        simp at hforeign
  · obtain ⟨s, hs⟩ := exists_mem_of_ne_nil _ hserved
    obtain ⟨hmem, hown, huse, hkey⟩ := mem_serving_iff.mp hs
    have hkept : ∃ s' ∈ serving cfg spec.key w,
        s' ∉ doomed cfg (wantedKey cfg registrations) [] w.subscriptions := by
      by_cases hdoom : s ∈ doomed cfg (wantedKey cfg registrations) [] w.subscriptions
      · have hwant : wantedKey cfg registrations s.key := wantedKey_iff.mpr ⟨spec, hspec, hkey.symm⟩
        rcases kept_of_mem_doomed hids.of_map hwant huse hdoom with
          hnil | ⟨s', hs', hown', huse', hkey', hspare⟩
        · cases hnil
        · exact ⟨s', mem_serving_iff.mpr ⟨hs', hown', huse', hkey'.trans hkey⟩, hspare⟩
      · exact ⟨s, hs, hdoom⟩
    obtain ⟨s', hs', hspare⟩ := hkept
    refine ne_nil_of_mem (a := s') ?_
    rw [h.serving_eq, mem_append, mem_filter]
    refine .inl ⟨hs', ?_⟩
    rw [h.spared hids (mem_serving_iff.mp hs').1 hspare]
    rfl
  · rw [h.serving_eq]
    by_cases hserved : serving cfg key w = []
    · rw [hserved]
      exact .inr ⟨rfl, h.added_length_le key⟩
    · rw [h.added_eq_nil hserved, append_nil]
      exact .inl filter_sublist

theorem converged (hids : (w.subscriptions.map (·.id)).Nodup)
    (hremoved : ids = (doomed cfg (wantedKey cfg registrations) [] w.subscriptions).map (·.id))
    (hadded : ∀ key, wantedKey cfg registrations key → serving cfg key w = [] →
      key ∈ added.map (·.key)) :
    Converged cfg (desiredEventSubSubscriptions cfg registrations) w' := by
  have hspare : ∀ {s}, s ∈ w.subscriptions → (!ids.contains s.id) →
      s ∉ doomed cfg (wantedKey cfg registrations) [] w.subscriptions := by
    intro s hs hid hdoom
    rw [Bool.not_eq_true', ← Bool.not_eq_true, contains_iff_mem, hremoved] at hid
    exact hid (mem_map_of_mem hdoom)
  refine ⟨fun s hs => ?_, fun spec hspec => ?_⟩
  · obtain ⟨hs, hown⟩ := mem_own_iff.mp hs
    rw [h.world, mem_append, mem_filter] at hs
    rcases hs with ⟨hs, hid⟩ | hs
    · by_contra hnot
      refine hspare hs hid (mem_doomed_of_idle hs hown fun hwant huse => ?_)
      exact absurd ⟨huse, wantedKey_iff.mp hwant⟩ hnot
    · exact ⟨(h.fresh s hs).1, wantedKey_iff.mp (h.missing s hs).1⟩
  · have hwant : wantedKey cfg registrations spec.key := wantedKey_iff.mpr ⟨spec, hspec, rfl⟩
    refine Nat.le_antisymm ?_ (length_pos_iff.mpr ?_)
    · rw [h.serving_eq]
      by_cases hserved : serving cfg spec.key w = []
      · rw [hserved]
        exact h.added_length_le spec.key
      · rw [h.added_eq_nil hserved, append_nil]
        refine length_le_one_of_forall_eq ?_ fun a ha b hb => ?_
        · exact ((hids.of_map.filter _).filter _).filter _
        · rw [mem_filter, mem_serving_iff] at ha hb
          obtain ⟨⟨ha, hown, -, hkey⟩, hid⟩ := ha
          obtain ⟨⟨hb, hown', -, hkey'⟩, hid'⟩ := hb
          exact spared_unique ha hb hown hown' (hkey.trans hkey'.symm) (hspare ha hid)
            (hspare hb hid')
    · by_cases hserved : serving cfg spec.key w = []
      · obtain ⟨s, hs, hkey⟩ := mem_map.mp (hadded spec.key hwant hserved)
        refine ne_nil_of_mem (a := s) ?_
        rw [h.serving_eq, mem_append]
        exact .inr (mem_filter.mpr ⟨hs, beq_iff_eq.mpr hkey⟩)
      · exact (h.doesNoHarm hids).served spec hspec hserved

end Round

theorem Converged.keys_nodup
    (h : Converged cfg (desiredEventSubSubscriptions cfg registrations) w) :
    ((own cfg w).map (·.key)).Nodup := by
  rw [nodup_iff_count_le_one]
  intro key
  by_cases hkey : key ∈ (own cfg w).map (·.key)
  · obtain ⟨s, hs, rfl⟩ := mem_map.mp hkey
    obtain ⟨-, spec, hspec, hkey⟩ := h.wanted s hs
    have hsingle := h.single spec hspec
    rw [serving, hkey, ← countP_eq_length_filter] at hsingle
    rw [List.count, countP_map, ← hsingle]
    refine Nat.le_of_eq (countP_congr fun s' hs' => ?_)
    simp [(h.wanted s' hs').1]
  · rw [count_eq_zero_of_not_mem hkey]
    exact Nat.zero_le 1

theorem reconcileInOrder_round
    (hranged : ranged.Perm (desiredEventSubSubscriptions cfg registrations))
    (h : Runs (exec env) (reconcileInOrder cfg registrations ranged) w tr out w') :
    ∃ ids added, Round cfg registrations w w' ids added ∧
      (cfg.eventSubEnabled → Undisturbed tr →
        ids = (doomed cfg (wantedKey cfg registrations) [] w.subscriptions).map (·.id) ∧
        (∀ key, wantedKey cfg registrations key → serving cfg key w = [] →
          key ∈ added.map (·.key)) ∧
        w' = { without ids w with subscriptions := (without ids w).subscriptions ++ added } ∧
        out = (added.length, ids.length, .ok ())) := by
  rcases reconcileInOrder_runs h with ⟨rfl, hquiet⟩ |
    ⟨-, tr1, tr2, state, w1, created, failures, ids, added, hswept, hadded, htr, rfl⟩
  · refine ⟨[], [], ⟨by simp, by simp, by simp, by simp, by simp⟩, fun hon htr => ?_⟩
    rw [hquiet htr] at hon
    cases hon
  · have hkept : ∀ key, key ∈ state.kept ↔
        wantedKey cfg registrations key ∧ serving cfg key w ≠ [] := by
      intro key
      rw [hswept.kept]
      constructor
      · rintro (hnil | ⟨hwant, s, hs⟩)
        · cases hnil
        · exact ⟨hwant, ne_nil_of_mem (mem_serving_iff.mpr hs)⟩
      · rintro ⟨hwant, hserved⟩
        obtain ⟨s, hs⟩ := exists_mem_of_ne_nil _ hserved
        exact .inr ⟨hwant, s, mem_serving_iff.mp hs⟩
    have hmiss : ∀ key ∈ (missing state ranged).map (·.key),
        wantedKey cfg registrations key ∧ serving cfg key w = [] := by
      intro key hkey
      obtain ⟨spec, hspec, rfl⟩ := mem_map.mp hkey
      obtain ⟨hspec, hopen⟩ := mem_filter.mp hspec
      have hwant := wantedKey_iff.mpr ⟨spec, hranged.mem_iff.mp hspec, rfl⟩
      refine ⟨hwant, ?_⟩
      by_contra hserved
      have hmem := (hkept spec.key).mpr ⟨hwant, hserved⟩
      simp [hmem] at hopen
    refine ⟨ids, added, ⟨?_, hswept.removed, ?_, fun s hs => ?_, fun s hs => ?_⟩,
      fun _ hquiet => ?_⟩
    · rw [hadded.world, hswept.world]
      rfl
    · refine hadded.keys.nodup ?_
      refine (filter_sublist.map _).nodup ?_
      exact ((hranged.map _).nodup_iff).mpr desired_keys_nodup
    · exact hmiss s.key (hadded.keys.subset (mem_map_of_mem hs))
    · obtain ⟨huse, spec, hspec, hcb⟩ := hadded.usable s hs
      exact ⟨huse, hcb.trans (desired_callback (hranged.mem_iff.mp hspec))⟩
    · obtain ⟨hids, hblock, hfailures, hdel⟩ := hswept.undisturbed (htr hquiet).1
      obtain ⟨hkeys, hout⟩ := hadded.undisturbed (htr hquiet).2
      refine ⟨hids, fun key hwant hserved => ?_, hswept.world ▸ hadded.world, ?_⟩
      · obtain ⟨spec, hspec, rfl⟩ := wantedKey_iff.mp hwant
        have hopen : spec.key ∉ state.kept := fun hmem => ((hkept spec.key).mp hmem).2 hserved
        rw [hkeys]
        refine mem_map_of_mem (mem_filter.mpr ⟨hranged.mem_iff.mpr hspec, ?_⟩)
        simp [hopen, hblock]
      · cases hout
        rw [hfailures, hdel]
        simp [joinErrors]

theorem Converged.round (h : Converged cfg (desiredEventSubSubscriptions cfg registrations) w)
    (hranged : ranged.Perm (desiredEventSubSubscriptions cfg registrations))
    (hon : cfg.eventSubEnabled) (htr : Undisturbed tr)
    (hrun : Runs (exec env) (reconcileInOrder cfg registrations ranged) w tr out w') :
    out = (0, 0, .ok ()) ∧ w' = w := by
  obtain ⟨ids, added, hround, hcomp⟩ := reconcileInOrder_round hranged hrun
  obtain ⟨hids, -, hworld, hout⟩ := hcomp hon htr
  have hdoom : doomed cfg (wantedKey cfg registrations) [] w.subscriptions = [] := by
    refine doomed_eq_nil h.keys_nodup fun s hs hown => ?_
    obtain ⟨huse, hwant⟩ := h.wanted s (mem_own_iff.mpr ⟨hs, hown⟩)
    exact ⟨wantedKey_iff.mpr hwant, huse, not_mem_nil⟩
  have hadded : added = [] := by
    refine eq_nil_iff_forall_not_mem.mpr fun s hs => ?_
    obtain ⟨hwant, hserved⟩ := hround.missing s hs
    obtain ⟨spec, hspec, hkey⟩ := wantedKey_iff.mp hwant
    have hsingle := h.single spec hspec
    rw [hkey, hserved] at hsingle
    cases hsingle
  rw [hdoom, map_nil] at hids
  rw [hids, hadded, without_nil, append_nil] at hworld
  rw [hids, hadded] at hout
  exact ⟨hout, hworld⟩

/-! ## Runs in which nothing fails -/

theorem exists_undisturbed {α : Type} {p : Handler α}
    (hp : p.Only (fun op => ∃ call, op = .twitch call) fun _ _ => True) (w : World) :
    ∃ tr a w', Runs (exec env) p w tr a w' ∧ Undisturbed tr := by
  induction p generalizing w with
  | ret a => exact ⟨[], a, w, .ret a w, by simp [Undisturbed]⟩
  | call op k ih =>
    obtain ⟨⟨call, rfl⟩, hk⟩ := hp
    obtain ⟨tr, a, w', hrest, htr⟩ := ih _ (hk _ trivial) (execTwitch {} call w).2
    refine ⟨_, a, w', .call (x := {}) rfl hrest, undisturbed_cons_iff.mpr ⟨?_, htr⟩⟩
    cases call <;> rfl

theorem reconcileExisting_twitch (wanted : String → Bool) (existing : List EventSubSubscription)
    (state : ReconcileState) :
    (reconcileExisting cfg wanted existing state).Only (fun op => ∃ call, op = .twitch call)
      fun _ _ => True := by
  induction existing generalizing state with
  | nil => trivial
  | cons first existing ih =>
    rw [reconcileExisting]
    dsimp only
    split_ifs
    · exact ih _
    · exact ih _
    · refine ⟨⟨_, rfl⟩, fun ans _ => ?_⟩
      cases ans with
      | error => exact ih _
      | ok => exact ih _

theorem reconcileDesired_twitch (state : ReconcileState) :
    (reconcileDesired state ranged).Only (fun op => ∃ call, op = .twitch call) fun _ _ => True := by
  induction ranged with
  | nil => trivial
  | cons spec ranged ih =>
    rw [reconcileDesired]
    split_ifs
    · exact ih
    · refine ⟨⟨_, rfl⟩, fun ans _ => ?_⟩
      cases ans with
      | error => exact ih.bind fun _ => trivial
      | ok => exact ih.bind fun _ => trivial

theorem reconcileInOrder_twitch :
    (reconcileInOrder cfg registrations ranged).Only (fun op => ∃ call, op = .twitch call)
      fun _ _ => True := by
  rw [reconcileInOrder]
  split_ifs
  · trivial
  · refine ⟨⟨_, rfl⟩, fun ans _ => ?_⟩
    cases ans with
    | error => trivial
    | ok existing =>
      refine (reconcileExisting_twitch _ existing _).bind fun state => ?_
      exact (reconcileDesired_twitch state).bind fun _ => trivial

/-- **Reconciliation converges.** A round does no harm, whatever calls fail. A configured round in
which nothing fails leaves exactly one usable subscription per desired key; then a second one
returns `(0, 0, nil)` and changes nothing. -/
theorem reconcile_converges {ranged2 : List EventSubSubscriptionSpec}
    (hids : (w.subscriptions.map (·.id)).Nodup)
    (hranged : ranged.Perm (desiredEventSubSubscriptions cfg registrations))
    (hranged2 : ranged2.Perm (desiredEventSubSubscriptions cfg registrations)) :
    (∀ tr out w', Runs (exec env) (reconcileInOrder cfg registrations ranged) w tr out w' →
      DoesNoHarm cfg (desiredEventSubSubscriptions cfg registrations) w w' ∧
      (cfg.eventSubEnabled → Undisturbed tr →
        Converged cfg (desiredEventSubSubscriptions cfg registrations) w' ∧
        (∃ tr2 out2 w2, Undisturbed tr2 ∧ Runs (exec env)
          (reconcileInOrder cfg registrations ranged2) w' tr2 out2 w2) ∧
        ∀ tr2 out2 w2, Undisturbed tr2 → Runs (exec env)
            (reconcileInOrder cfg registrations ranged2) w' tr2 out2 w2 →
          out2 = (0, 0, .ok ()) ∧ w2 = w')) ∧
    ∃ tr out w', Undisturbed tr ∧
      Runs (exec env) (reconcileInOrder cfg registrations ranged) w tr out w' := by
  constructor
  · intro tr out w' hrun
    obtain ⟨ids, added, hround, hcomp⟩ := reconcileInOrder_round hranged hrun
    refine ⟨hround.doesNoHarm hids, fun hon htr => ?_⟩
    obtain ⟨hremoved, hadded, -, -⟩ := hcomp hon htr
    have hconverged := hround.converged hids hremoved hadded
    refine ⟨hconverged, ?_, fun _ _ _ htr2 hrun2 => hconverged.round hranged2 hon htr2 hrun2⟩
    obtain ⟨tr2, out2, w2, hrun2, htr2⟩ := exists_undisturbed reconcileInOrder_twitch w'
    exact ⟨tr2, out2, w2, htr2, hrun2⟩
  · obtain ⟨tr, out, w', hrun, htr⟩ := exists_undisturbed reconcileInOrder_twitch w
    exact ⟨tr, out, w', htr, hrun⟩

end Round

/-- One follower of a channel. -/
def followers : List Registration :=
  [{ installationID := "phone", provider := "embedded_socket", userID := "7",
     channelIDs := ["1"], notificationRules := ["stream_online"] }]

/-- A subscription to it. -/
def onlineSubscription (id status callback : String) : EventSubSubscription :=
  { id, status, type := "stream.online", version := "1",
    condition := [("broadcaster_user_id", "1")], callback }

/-- Two usable subscriptions, a revoked one, and one of another server. -/
def messySubscriptions : World :=
  { subscriptions :=
      [onlineSubscription "a" "authorization_revoked" "https://push/eventsub",
        onlineSubscription "b" "enabled" "https://push/eventsub",
        onlineSubscription "c" "enabled" "https://elsewhere/eventsub",
        onlineSubscription "d" "enabled" "https://push/eventsub"] }

/-- One round leaves the first usable subscription. -/
theorem messySubscriptions_converge :
    ∃ tr out w', Runs (exec .mem)
        (reconcile Env.mem.cfg followers) messySubscriptions tr out w' ∧
      out = (0, 2, .ok ()) ∧ Converged Env.mem.cfg
        (desiredEventSubSubscriptions Env.mem.cfg followers) w' := by
  have heval : (Prog.eval (exec .mem) (reconcile Env.mem.cfg followers)
      [{}, {}, {}] messySubscriptions).map (fun r => (r.1.all succeeded, r.2.1)) =
        some (true, 0, 2, .ok ()) := by
    decide
  obtain ⟨⟨tr, out, w'⟩, heval, hres⟩ := Option.map_eq_some_iff.mp heval
  obtain ⟨htr, rfl⟩ := Prod.mk.inj hres
  have hrun := eval_runs heval
  have hround :=
    (reconcile_converges (by decide) (List.Perm.refl _) (List.Perm.refl _)).1 tr _ w' hrun
  exact ⟨tr, _, w', hrun, rfl, (hround.2 rfl (all_eq_true.mp htr)).1⟩

end Ferventio
