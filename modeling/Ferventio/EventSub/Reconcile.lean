import Ferventio.EventSub.Subscriptions
import Ferventio.Registration.Laws

/-!
# Reconciling the subscriptions at Twitch

`eventSubManager.reconcile` of `application/eventsub_subscriptions.go`: of the subscriptions with
the server's own callback, the first usable one of each wanted key is kept and every other is
deleted; wanted keys that are neither kept nor blocked by a failed deletion are created.
-/

namespace Ferventio

open Prog List

variable {env : Env} {out : Nat × Nat × Result Unit} {cfg : ServerConfig}

/-- The key of a subscription. -/
def EventSubSubscription.key (subscription : EventSubSubscription) : String :=
  eventSubSpecKey subscription.type subscription.version subscription.condition

/-- Enabled, or about to be. -/
def EventSubSubscription.usable (subscription : EventSubSubscription) : Bool :=
  subscription.status == "enabled" ||
    subscription.status == "webhook_callback_verification_pending"

/-- What the loop over the existing subscriptions carries along. -/
structure ReconcileState where
  kept : List String := []
  blocked : List String := []
  deleted : Nat := 0
  failures : List GoError := []

/-- The loop over the existing subscriptions. -/
def reconcileExisting (cfg : ServerConfig) (wanted : String → Bool) :
    List EventSubSubscription → ReconcileState → Handler ReconcileState
  | [], state => pure state
  | subscription :: existing, state => do
    if subscription.callback ≠ cfg.eventSubCallbackURL then
      reconcileExisting cfg wanted existing state
    else
      let key := subscription.key
      if wanted key && !state.kept.contains key && subscription.usable then
        reconcileExisting cfg wanted existing { state with kept := key :: state.kept }
      else
        match ← twitch (.deleteSubscription subscription.id) with
        | .error err =>
          reconcileExisting cfg wanted existing { state with
            failures := state.failures ++ [.wrapped ("delete " ++ key) err]
            blocked := key :: state.blocked }
        | .ok () =>
          reconcileExisting cfg wanted existing { state with deleted := state.deleted + 1 }

/-- The loop over the desired ones: how many were created, and the failures. -/
def reconcileDesired (state : ReconcileState) :
    List EventSubSubscriptionSpec → Handler (Nat × List GoError)
  | [] => pure (0, [])
  | spec :: desired => do
    if state.kept.contains spec.key || state.blocked.contains spec.key then
      reconcileDesired state desired
    else
      match ← twitch (.createSubscription spec) with
      | .error err =>
        let (created, failures) ← reconcileDesired state desired
        pure (created, .wrapped ("create " ++ spec.key) err :: failures)
      | .ok () =>
        let (created, failures) ← reconcileDesired state desired
        pure (created + 1, failures)

/-- `reconcile` with the order in which it ranges over the desired ones: the numbers created and
deleted, and the failures. -/
def reconcileInOrder (cfg : ServerConfig) (registrations : List Registration)
    (ranged : List EventSubSubscriptionSpec) : Handler (Nat × Nat × Result Unit) := do
  if !cfg.eventSubEnabled then
    pure (0, 0, .error (.plain "EventSub subscription manager is not configured"))
  else
    let desired := desiredEventSubSubscriptions cfg registrations
    match ← twitch .listSubscriptions with
    | .error err => pure (0, 0, .error err)
    | .ok existing =>
      let state ← reconcileExisting cfg (fun key => desired.any (·.key == key)) existing {}
      let (created, failures) ← reconcileDesired state ranged
      pure (created, state.deleted, joinErrors (state.failures ++ failures))

/-- The round that ranges in the order of the specifications. -/
def reconcile (cfg : ServerConfig) (registrations : List Registration) :
    Handler (Nat × Nat × Result Unit) :=
  reconcileInOrder cfg registrations (desiredEventSubSubscriptions cfg registrations)

/-- One round of `runEventSubReconciler`. -/
def runReconcile (env : Env) : Handler (Nat × Nat × Result Unit) := do
  let registrations ← store .list
  reconcile env.cfg registrations

/-! ## What a round deletes -/

/-- What the first loop deletes, whatever Twitch answers. -/
def doomed (cfg : ServerConfig) (wanted : String → Bool) :
    List String → List EventSubSubscription → List EventSubSubscription
  | _, [] => []
  | kept, subscription :: existing =>
    if subscription.callback ≠ cfg.eventSubCallbackURL then doomed cfg wanted kept existing
    else if wanted subscription.key && !kept.contains subscription.key && subscription.usable then
      doomed cfg wanted (subscription.key :: kept) existing
    else subscription :: doomed cfg wanted kept existing

/-- The calls delete the subscription. -/
def Deletes (tr : Trace) (id : String) : Prop :=
  ∃ answer, (⟨.twitch (.deleteSubscription id), answer⟩ : Sigma Call.Ans) ∈ tr

section Doomed

variable {cfg : ServerConfig} {wanted : String → Bool} {kept : List String}
  {existing : List EventSubSubscription} {s : EventSubSubscription}

theorem doomed_sublist : (doomed cfg wanted kept existing).Sublist existing := by
  induction existing generalizing kept with
  | nil => exact List.Sublist.slnil
  | cons first existing ih =>
    rw [doomed]
    split_ifs
    · exact ih.cons first
    · exact ih.cons first
    · exact ih.cons_cons first

theorem callback_of_mem_doomed (h : s ∈ doomed cfg wanted kept existing) :
    s.callback = cfg.eventSubCallbackURL := by
  induction existing generalizing kept with
  | nil => cases h
  | cons first existing ih =>
    rw [doomed] at h
    split_ifs at h with hown
    · exact ih h
    · exact ih h
    · rcases mem_cons.mp h with rfl | h
      · exact not_not.mp hown
      · exact ih h

theorem kept_of_mem_doomed (hnodup : existing.Nodup) (hwant : wanted s.key)
    (huse : s.usable) (h : s ∈ doomed cfg wanted kept existing) :
    s.key ∈ kept ∨ ∃ s' ∈ existing, s'.callback = cfg.eventSubCallbackURL ∧ s'.usable ∧
      s'.key = s.key ∧ s' ∉ doomed cfg wanted kept existing := by
  induction existing generalizing kept with
  | nil => cases h
  | cons first existing ih =>
    obtain ⟨hfirst, hnodup⟩ := nodup_cons.mp hnodup
    rw [doomed] at h ⊢
    split_ifs at h ⊢ with hown hkeep
    · rcases ih hnodup h with hkept | ⟨s', hmem, hs'⟩
      · exact .inl hkept
      · exact .inr ⟨s', mem_cons_of_mem _ hmem, hs'⟩
    · rw [Bool.and_eq_true, Bool.and_eq_true] at hkeep
      rcases ih hnodup h with hkept | ⟨s', hmem, hs'⟩
      · rcases mem_cons.mp hkept with hkey | hkept
        · -- the first subscription of the list is the one that is kept
          refine .inr ⟨first, mem_cons_self, not_not.mp hown, hkeep.2, hkey.symm, ?_⟩
          exact fun hmem => hfirst (doomed_sublist.subset hmem)
        · exact .inl hkept
      · exact .inr ⟨s', mem_cons_of_mem _ hmem, hs'⟩
    · rcases mem_cons.mp h with rfl | h
      · have hnot : (wanted s.key && !kept.contains s.key && s.usable) = true → False := hkeep
        rw [hwant, huse, Bool.true_and, Bool.and_true] at hnot
        exact .inl (by simpa using hnot)
      · rcases ih hnodup h with hkept | ⟨s', hmem, hown', huse', hkey, hs'⟩
        · exact .inl hkept
        · refine .inr ⟨s', mem_cons_of_mem _ hmem, hown', huse', hkey, ?_⟩
          intro hmem'
          rcases mem_cons.mp hmem' with rfl | hmem'
          · exact hfirst hmem
          · exact hs' hmem'

theorem mem_doomed_of_idle (hs : s ∈ existing) (hown : s.callback = cfg.eventSubCallbackURL)
    (hidle : wanted s.key → s.usable → s.key ∈ kept) :
    s ∈ doomed cfg wanted kept existing := by
  induction existing generalizing kept with
  | nil => cases hs
  | cons first existing ih =>
    rw [doomed]
    split_ifs with hfirst hkeep
    · rcases mem_cons.mp hs with rfl | hs
      · exact absurd hown hfirst
      · exact ih hs hidle
    · rcases mem_cons.mp hs with rfl | hs
      · rw [Bool.and_eq_true, Bool.and_eq_true] at hkeep
        have hkey := hidle hkeep.1.1 hkeep.2
        simp [hkey] at hkeep
      · exact ih hs fun hwant huse => mem_cons_of_mem _ (hidle hwant huse)
    · rcases mem_cons.mp hs with rfl | hs
      · exact mem_cons_self
      · exact mem_cons_of_mem _ (ih hs hidle)

theorem spared_unique {s' : EventSubSubscription} (hs : s ∈ existing) (hs' : s' ∈ existing)
    (hown : s.callback = cfg.eventSubCallbackURL) (hown' : s'.callback = cfg.eventSubCallbackURL)
    (hkey : s.key = s'.key) (hspare : s ∉ doomed cfg wanted kept existing)
    (hspare' : s' ∉ doomed cfg wanted kept existing) : s = s' := by
  induction existing generalizing kept with
  | nil => cases hs
  | cons first existing ih =>
    rw [doomed] at hspare hspare'
    split_ifs at hspare hspare' with hfirst hkeep
    · rcases mem_cons.mp hs with rfl | hs
      · exact absurd hown hfirst
      rcases mem_cons.mp hs' with rfl | hs'
      · exact absurd hown' hfirst
      exact ih hs hs' hspare hspare'
    · -- the first subscription is kept, and with it every other one for its key is doomed
      rcases mem_cons.mp hs with rfl | _
      · rcases mem_cons.mp hs' with rfl | hs'
        · rfl
        · refine absurd (mem_doomed_of_idle hs' hown' fun _ _ => ?_) hspare'
          rw [← hkey]
          exact mem_cons_self
      · rename_i hrest
        rcases mem_cons.mp hs' with rfl | hs'
        · refine absurd (mem_doomed_of_idle hrest hown fun _ _ => ?_) hspare
          rw [hkey]
          exact mem_cons_self
        · exact ih hrest hs' hspare hspare'
    · obtain ⟨hne, hspare⟩ := ne_and_not_mem_of_not_mem_cons hspare
      obtain ⟨hne', hspare'⟩ := ne_and_not_mem_of_not_mem_cons hspare'
      exact ih ((mem_cons.mp hs).resolve_left hne) ((mem_cons.mp hs').resolve_left hne')
        hspare hspare'

theorem doomed_eq_nil
    (hkeys : ((existing.filter fun s => s.callback == cfg.eventSubCallbackURL).map (·.key)).Nodup)
    (hkept : ∀ s ∈ existing, s.callback = cfg.eventSubCallbackURL →
      wanted s.key ∧ s.usable ∧ s.key ∉ kept) :
    doomed cfg wanted kept existing = [] := by
  induction existing generalizing kept with
  | nil => rfl
  | cons first existing ih =>
    rw [doomed]
    by_cases hown : first.callback = cfg.eventSubCallbackURL
    · rw [filter_cons, if_pos (beq_iff_eq.mpr hown), map_cons, nodup_cons] at hkeys
      obtain ⟨hwant, huse, hnew⟩ := hkept first mem_cons_self hown
      rw [if_neg (not_not.mpr hown), if_pos (by simp [hwant, huse, hnew])]
      refine ih hkeys.2 fun s hs hsown => ?_
      obtain ⟨hwant', huse', hnew'⟩ := hkept s (mem_cons_of_mem _ hs) hsown
      refine ⟨hwant', huse', fun hmem => ?_⟩
      rcases mem_cons.mp hmem with hkey | hmem
      · refine hkeys.1 (mem_map.mpr ⟨s, ?_, hkey⟩)
        exact mem_filter.mpr ⟨hs, beq_iff_eq.mpr hsown⟩
      · exact hnew' hmem
    · rw [if_pos hown]
      rw [filter_cons, if_neg (by simpa using hown)] at hkeys
      exact ih hkeys fun s hs hsown => hkept s (mem_cons_of_mem _ hs) hsown

end Doomed

section Trace

variable {env : Env} {w w' : World} {tr tr1 tr2 : Trace} {id : String}

theorem deletes_append_iff : Deletes (tr1 ++ tr2) id ↔ Deletes tr1 id ∨ Deletes tr2 id := by
  simp only [Deletes, mem_append, exists_or]

theorem deletes_cons_iff {e : Sigma Call.Ans} :
    Deletes (e :: tr) id ↔ e.1 = .twitch (.deleteSubscription id) ∨ Deletes tr id := by
  constructor
  · rintro ⟨ans, hmem⟩
    rcases mem_cons.mp hmem with rfl | hmem
    · exact .inl rfl
    · exact .inr ⟨ans, hmem⟩
  · rintro (he | ⟨ans, hmem⟩)
    · obtain ⟨op, ans⟩ := e
      cases he
      exact ⟨ans, mem_cons_self⟩
    · exact ⟨ans, mem_cons_of_mem _ hmem⟩

/-- The call deletes nothing. -/
def Harmless (call : Call) : Prop := ∀ id, call ≠ .twitch (.deleteSubscription id)

theorem not_deletes_of_harmless (h : ∀ e ∈ tr, Harmless e.1) : ¬Deletes tr id := by
  rintro ⟨ans, hmem⟩
  exact h _ hmem id rfl

theorem reconcileExisting_deletes {wanted : String → Bool}
    {existing : List EventSubSubscription} {state state' : ReconcileState}
    (h : Runs (exec env) (reconcileExisting cfg wanted existing state) w tr state' w') :
    Deletes tr id ↔ ∃ s ∈ doomed cfg wanted state.kept existing, s.id = id := by
  induction existing generalizing state w tr with
  | nil =>
    obtain ⟨rfl, -, -⟩ := h.of_ret
    simp [Deletes, doomed]
  | cons first existing ih =>
    rw [reconcileExisting] at h
    dsimp only at h
    rw [doomed]
    split_ifs at h ⊢
    · exact ih h
    · exact ih h
    · rw [twitch, perform_bind, runs_call_iff] at h
      obtain ⟨x, ans, w1, tr', -, rfl, hrest⟩ := h
      have htail : Deletes tr' id ↔ ∃ s ∈ doomed cfg wanted state.kept existing, s.id = id := by
        cases ans with
        | error => exact (ih hrest :)
        | ok => exact (ih hrest :)
      rw [deletes_cons_iff, htail]
      simp only [mem_cons, exists_eq_or_imp, Call.twitch.injEq, TwitchCall.deleteSubscription.injEq]

theorem reconcileDesired_harmless (state : ReconcileState)
    (desired : List EventSubSubscriptionSpec) :
    (reconcileDesired state desired).Only Harmless (fun _ _ => True) := by
  induction desired with
  | nil => trivial
  | cons spec desired ih =>
    rw [reconcileDesired]
    split_ifs
    · exact ih
    · refine ⟨fun id => by simp, fun ans _ => ?_⟩
      cases ans with
      | error => exact ih.bind fun _ => trivial
      | ok => exact ih.bind fun _ => trivial

/-- **One round**: nothing is deleted when Twitch does not list its subscriptions, and else the
doomed ones. -/
theorem runReconcile_deletes (h : Runs (exec env) (runReconcile env) w tr out w') :
    ∃ regs, tr.head? = some ⟨.registration .list, regs⟩ ∧
      (regs = listed env w.registrations ∨ regs = []) ∧
      ((∀ existing, (⟨.twitch .listSubscriptions, .ok existing⟩ : Sigma Call.Ans) ∉ tr) ∧
          (∀ id, ¬Deletes tr id) ∨
        (⟨.twitch .listSubscriptions, .ok w.subscriptions⟩ : Sigma Call.Ans) ∈ tr ∧
          ∀ id, Deletes tr id ↔ ∃ s ∈ doomed env.cfg
            (fun key => (desiredEventSubSubscriptions env.cfg regs).any (·.key == key))
            [] w.subscriptions, s.id = id) := by
  rw [runReconcile, store, perform_bind, runs_call_iff] at h
  obtain ⟨x, regs, w1, tr, hlist, rfl, hrest⟩ := h
  simp only [exec, Option.some.injEq, Prod.mk.injEq] at hlist
  obtain ⟨rfl, rfl⟩ := hlist
  refine ⟨_, rfl, execRegistration_list.2, ?_⟩
  rw [reconcile, reconcileInOrder] at hrest
  split_ifs at hrest
  · obtain ⟨rfl, -, -⟩ := hrest.of_ret
    exact .inl ⟨by simp, fun id => not_deletes_of_harmless (by simp [Harmless])⟩
  · rw [twitch, perform_bind, runs_call_iff] at hrest
    obtain ⟨y, ans, w2, tr, hrem, rfl, hrest⟩ := hrest
    cases ans with
    | error =>
      obtain ⟨rfl, -, -⟩ := hrest.of_ret
      exact .inl ⟨by simp, fun id => not_deletes_of_harmless (by simp [Harmless])⟩
    | ok existing =>
      have hex : existing = w.subscriptions := by
        simp only [exec, execTwitch, Option.some.injEq, Prod.mk.injEq] at hrem
        split at hrem
        · cases hrem.1
        · cases hrem.1
          rfl
      subst hex
      obtain ⟨tr1, tr2, state, w3, rfl, hfirst, hrest⟩ := hrest.of_bind
      obtain ⟨tr3, tr4, created, w4, rfl, hsec, hrest⟩ := hrest.of_bind
      obtain ⟨rfl, -, -⟩ := hrest.of_ret
      refine .inr ⟨by simp, fun id => ?_⟩
      have hnone : ¬Deletes tr3 id :=
        not_deletes_of_harmless
          (hsec.only (I := fun _ => True) (reconcileDesired_harmless _ _)
            (fun _ _ _ _ _ _ _ _ => ⟨trivial, trivial⟩) trivial).1
      rw [append_nil, deletes_cons_iff, deletes_cons_iff, deletes_append_iff,
        reconcileExisting_deletes hfirst]
      simp [hnone]

end Trace

/-! ## Deleting only what is not wanted -/

/-- The registration wants the key. -/
def Wants (cfg : ServerConfig) (reg : Registration) (key : String) : Prop :=
  ∃ request ∈ requestedBy reg, request.complete ∧ (request.spec cfg).key = key

/-- Some stored registration wants the key. -/
def Wanted (cfg : ServerConfig) (t : RegistrationTable) (key : String) : Prop :=
  ∃ row ∈ t.rows, Wants cfg row key

/-- The subscription is needed. -/
def Needed (env : Env) (w : World) (s : EventSubSubscription) : Prop :=
  s.callback = env.cfg.eventSubCallbackURL ∧ s.usable ∧ Wanted env.cfg w.registrations s.key

instance (cfg : ServerConfig) (registration : Registration) (key : String) :
    Decidable (Wants cfg registration key) :=
  inferInstanceAs (Decidable (∃ request ∈ requestedBy registration, _))

instance (cfg : ServerConfig) (t : RegistrationTable) (key : String) :
    Decidable (Wanted cfg t key) :=
  inferInstanceAs (Decidable (∃ row ∈ t.rows, _))

instance (env : Env) (w : World) (s : EventSubSubscription) : Decidable (Needed env w s) :=
  inferInstanceAs (Decidable (_ ∧ _ ∧ _))

theorem desired_any_iff {regs : List Registration} {key : String} :
    (desiredEventSubSubscriptions cfg regs).any (·.key == key) = true ↔
      ∃ reg ∈ regs, Wants cfg reg key := by
  simp only [any_eq_true, beq_iff_eq]
  exact mem_desired_key_iff

theorem desired_listed_any_iff {t : RegistrationTable} {key : String} :
    (desiredEventSubSubscriptions env.cfg (listed env t)).any (·.key == key) = true ↔
      Wanted env.cfg t key := by
  rw [desired_any_iff]
  constructor
  · rintro ⟨reg, hmem, hwants⟩
    obtain ⟨row, hrow, rfl⟩ := mem_listed_iff.mp hmem
    exact ⟨row, hrow, hwants⟩
  · rintro ⟨row, hrow, hwants⟩
    exact ⟨publicRegistration row, mem_listed_iff.mpr ⟨row, hrow, rfl⟩, hwants⟩

/-- **Reconciling spares what is needed** exactly when the listing of the registrations did not
fail, or Twitch did not list its subscriptions, or nothing there is needed. -/
theorem reconcile_spares_needed_iff {w w' : World} {tr : Trace}
    (h : Runs (exec env) (runReconcile env) w tr out w')
    (hids : (w.subscriptions.map (·.id)).Nodup) :
    (∀ s ∈ w.subscriptions, Deletes tr s.id →
        s.callback = env.cfg.eventSubCallbackURL ∧
          (¬Wanted env.cfg w.registrations s.key ∨ s.usable = false ∨
            ∃ s' ∈ w.subscriptions, s' ≠ s ∧ s'.callback = env.cfg.eventSubCallbackURL ∧
              s'.usable ∧ s'.key = s.key ∧ ¬Deletes tr s'.id)) ↔
      tr.head? = some ⟨.registration .list, listed env w.registrations⟩ ∨
        (∀ existing, (⟨.twitch .listSubscriptions, .ok existing⟩ : Sigma Call.Ans) ∉ tr) ∨
        ∀ s ∈ w.subscriptions, ¬Needed env w s := by
  obtain ⟨registrations, hhead, hregs, hround⟩ := runReconcile_deletes h
  rcases hround with ⟨hrem, hnone⟩ | ⟨hrem, hdeletes⟩
  · -- Twitch listed nothing: both sides hold
    exact iff_of_true (fun s _ hs => absurd hs (hnone s.id)) (.inr (.inl hrem))
  · have hdoom : ∀ s ∈ w.subscriptions, Deletes tr s.id ↔ s ∈ doomed env.cfg
        (fun key => (desiredEventSubSubscriptions env.cfg registrations).any (·.key == key))
        [] w.subscriptions := by
      intro s hs
      rw [hdeletes]
      constructor
      · rintro ⟨s', hs', hid⟩
        rwa [← inj_on_of_nodup_map hids (doomed_sublist.subset hs') hs hid]
      · exact fun hs => ⟨s, hs, rfl⟩
    rcases hregs with rfl | rfl
    · refine iff_of_true (fun s hs hdelete => ?_) (.inl hhead)
      have hmem := (hdoom s hs).mp hdelete
      refine ⟨callback_of_mem_doomed hmem, ?_⟩
      by_cases hwant : Wanted env.cfg w.registrations s.key
      · refine .inr ?_
        cases huse : s.usable with
        | false => exact .inl rfl
        | true =>
          rcases kept_of_mem_doomed hids.of_map (desired_listed_any_iff.mpr hwant) huse
            hmem with hkept | ⟨s', hs', hown, huse', hkey, hspare⟩
          · cases hkept
          · refine .inr ⟨s', hs', ?_, hown, huse', hkey, ?_⟩
            · rintro rfl
              exact hspare hmem
            · rwa [hdoom s' hs']
      · exact .inl hwant
    · -- The listing failed: nothing seems wanted, and everything of the server is deleted.
      have hall : ∀ s ∈ w.subscriptions, s.callback = env.cfg.eventSubCallbackURL →
          Deletes tr s.id := by
        intro s hs hown
        refine (hdoom s hs).mpr (mem_doomed_of_idle hs hown fun hwant => ?_)
        obtain ⟨reg, hmem, -⟩ := desired_any_iff.mp hwant
        cases hmem
      constructor
      · intro hspares
        refine .inr (.inr ?_)
        rintro s hs ⟨hown, huse, hwant⟩
        obtain ⟨-, hnot | hnot | ⟨s', hs', -, hown', -, -, hspare⟩⟩ := hspares s hs (hall s hs hown)
        · exact hnot hwant
        · rw [huse] at hnot
          cases hnot
        · exact hspare (hall s' hs' hown')
      · intro hcond
        have hnone : ∀ s ∈ w.subscriptions, ¬Needed env w s := by
          rcases hcond with hlisted | hfail | hnone
          · -- an empty listing that is right: there is no reg
            have hempty : listed env w.registrations = [] := by
              rw [hhead] at hlisted
              simpa using hlisted.symm
            rintro s - ⟨-, -, hwant⟩
            rw [← desired_listed_any_iff, hempty, desired_any_iff] at hwant
            obtain ⟨reg, hmem, -⟩ := hwant
            cases hmem
          · exact absurd hrem (hfail _)
          · exact hnone
        intro s hs hdelete
        have hown := callback_of_mem_doomed ((hdoom s hs).mp hdelete)
        refine ⟨hown, ?_⟩
        by_contra hnot
        push Not at hnot
        refine hnone s hs ⟨hown, ?_, hnot.1⟩
        simpa using hnot.2.1

/-- One follower of a channel. -/
def followedChannel : World :=
  { registrations := AList.insert "phone"
      { installationID := "phone", provider := "embedded_socket", userID := "7",
        channelIDs := ["1"], notificationRules := ["stream_online"] } ∅
    subscriptions :=
      [{ id := "online", status := "enabled", type := "stream.online", version := "1",
         condition := [("broadcaster_user_id", "1")], callback := "https://push/eventsub" }] }

/-- A listing that answers: the subscription is spared. -/
theorem reconcile_spares_followedChannel :
    ∃ tr out w', Runs (exec .pg) (runReconcile .pg)
        followedChannel tr out w' ∧
      ∀ s ∈ followedChannel.subscriptions, Deletes tr s.id →
        s.callback = Env.pg.cfg.eventSubCallbackURL ∧
          (¬Wanted Env.pg.cfg followedChannel.registrations s.key ∨
            s.usable = false ∨
            ∃ s' ∈ followedChannel.subscriptions, s' ≠ s ∧
              s'.callback = Env.pg.cfg.eventSubCallbackURL ∧
              s'.usable ∧ s'.key = s.key ∧ ¬Deletes tr s'.id) := by
  have hrun : Runs (exec .pg) (runReconcile .pg) followedChannel _ _ _ :=
    .call (x := {}) rfl (.call (x := {}) rfl (.ret _ _))
  exact ⟨_, _, _, hrun, (reconcile_spares_needed_iff hrun (by decide)).mpr (.inl rfl)⟩

/-- A listing that fails: the subscription that the registration needs is deleted. -/
theorem failed_listing_deletes_needed :
    (∀ s ∈ followedChannel.subscriptions, Needed .pg followedChannel s) ∧
      (Prog.eval (exec .pg) (runReconcile .pg)
        [{ fault := some .refused }, {}, {}] followedChannel).map (·.2.2.subscriptions) =
          some [] := by
  decide

end Ferventio
