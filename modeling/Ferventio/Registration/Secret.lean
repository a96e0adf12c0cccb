import Ferventio.Registration.Writers

/-!
# The secret of a registration

Can a second device replace the secret of a registration? `Upsert` compares the hash of its secret
with the stored one under a row lock. But when it finds no row there is nothing to lock, and the
`INSERT … ON CONFLICT DO UPDATE` of two first registrations succeeds for both.

* **`secret_stays`**: while no two `Upsert`s find a row missing at a time, a stored hash stays.
* **`second_first_replaces_secret`**: without the condition it is replaced.
-/

namespace Ferventio

namespace Registrations

open Transact Postgres List

variable {call : Call} {e : TaskEvent} {fate : Fate}
  {log0 log : List (Nat × Writes String Registration)} {p : Phase} {s : State}
  {key installationID : String} {t : Task} {v : TaskView}
  {H : String → String}

/-! ## One first writer at a time -/

section Alone

theorem first_next {p : Progress Phase} {a : call.Ans Query.Ans}
    (hallowed : t.Allowed H p.phase call) (h : First installationID (p.next Phase.step t call a)) :
    First installationID p ∨ p.phase = .begun ∧ ∃ tx,
      (⟨call, a⟩ : Sigma (TxCall.Ans Query.Ans)) =
        ⟨.statement tx (.hashForUpdate installationID), some none⟩ := by
  obtain ⟨tx, running, phase⟩ := p
  obtain ⟨hruns, hphase⟩ := h
  cases call with
  | reply =>
    refine .inl ⟨hruns, ?_⟩
    cases t with
    | upsert => cases phase <;> exact hphase
    | _ => exact hphase
  | beginTx =>
    cases t with
    | upsert => cases a <;> rcases hphase with h | ⟨_, h⟩ <;> cases h
    | _ => rcases hphase with h | ⟨_, h⟩ <;> cases h
  | statement tx query =>
    have hruns' : running = true := ((Bool.and_eq_true _ _).mp hruns).1
    cases t with
    | upsert =>
      cases a with
      | none => rcases hphase with h | ⟨_, h⟩ <;> cases h
      | some ans =>
        cases phase with
        | begun =>
          cases query with
          | hashForUpdate =>
            cases ans with
            | none =>
              rcases hphase with h | ⟨_, h⟩
              · cases h
                exact .inr ⟨rfl, tx, rfl⟩
              · cases h
            | some => rcases hphase with h | ⟨_, h⟩ <;> cases h
          | _ => exact hallowed.elim
        | absent =>
          cases query with
          | upsertRow =>
            cases ans with
            | false => rcases hphase with h | ⟨_, h⟩ <;> cases h
            | true =>
              rcases hphase with h | ⟨_, h⟩
              · cases h
              · cases h
                exact .inl ⟨hruns', .inl rfl⟩
          | _ => exact hallowed.elim
        | found =>
          cases query with
          | upsertRow => cases ans <;> rcases hphase with h | ⟨_, h⟩ <;> cases h
          | _ => exact hallowed.elim
        | _ => exact hallowed.elim
    | delete => exact .inl ⟨hruns', hphase⟩
    | deleteForAccount => exact .inl ⟨hruns', hphase⟩
  | _ => cases hruns

theorem alone_after (hupheld : Upheld .idle Phase.step Assertion v) (halone : Alone v)
    (hexec : exec meaning e.op fate v.state = some (e.ans, s)) (hG : FirstAlone v e)
    (hmay : (progress .idle Phase.step v.hist e.pid).Allows (Task.Allowed H) e.task
      e.op) : Alone (v.after e s) := by
  -- who becomes the first writer finds no other one
  have hnew : ∀ {installationID pid}, pid ≠ e.pid →
      First installationID (progress .idle Phase.step (e :: v.hist) e.pid) →
      ¬First installationID (progress .idle Phase.step v.hist pid) := by
    intro installationID pid hpid hself hother
    rw [progress_self] at hself
    rcases first_next hmay.phase hself with hbefore | ⟨hbegun, tx, hcall⟩
    · exact hpid (halone hother hbefore)
    · have hown : ∀ {tx sess}, v.state.sessions.lookup tx = some sess →
          e.op.tx = some tx → _ := fun hs hop => (hupheld.own hmay hs hop).2
      obtain ⟨pid', t, op, a⟩ := e
      cases hcall
      refine hG tx installationID rfl ?_ pid hpid hother
      rcases exec_statement hexec with ⟨sess, hsess, -, hans, -⟩ | ⟨hnone, -⟩
      · have hwrites := hown hsess rfl
        dsimp only at hwrites hbegun
        rw [hbegun] at hwrites
        have hstored : storedHash installationID (sess.view v.state.committed) = none :=
          (Option.some.inj hans).symm
        rw [Session.view_of_unwritten hwrites, storedHash, Option.map_eq_none_iff] at hstored
        exact hstored
      · cases hnone
  intro installationID pid pid' h h'
  rw [View.after_hist] at h h'
  by_cases hpid : e.pid = pid
  · by_cases hpid' : e.pid = pid'
    · rw [← hpid, ← hpid']
    · subst hpid
      rw [progress_other hpid'] at h'
      exact absurd h' (hnew (Ne.symm hpid') h)
  · rw [progress_other hpid] at h
    by_cases hpid' : e.pid = pid'
    · subst hpid'
      exact absurd h (hnew (Ne.symm hpid) h')
    · rw [progress_other hpid'] at h'
      exact halone h h'

/-- The conditions of the assertions. -/
def Upholds (hashSecret : String → String) : Condition := fun v e =>
  (FirstAlone v e ∧
      (progress .idle Phase.step v.hist e.pid).Allows (Task.Allowed hashSecret) e.task e.op) ∧
    Upheld .idle Phase.step Assertion v ∧ Alone v

theorem ensures_upholds (H : String → String) (rows : RegistrationTable) :
    (system H).Ensures (start rows) FirstAlone (Upholds H) := by
  refine (System.ensures_follows follows_code rfl rfl).trans (System.ensures_invariant ?_ ?_)
  · rintro v e fate s ⟨hupheld, halone⟩ hexec ⟨hG, hmay⟩
    exact ⟨hupheld.after (assertions H) hexec ⟨hG, halone⟩ hmay,
      alone_after hupheld halone hexec hG hmay⟩
  · refine ⟨upheld_start rows, fun h => ?_⟩
    cases h.1

end Alone

/-! ## Stored hashes -/

section Stored

variable {rows : RegistrationTable} {c c' : Config Task Call (TxCall.Ans Query.Ans) State}
  {secretHash : String}

theorem step_keeps (hexec : exec meaning e.op fate v.state = some (e.ans, s)) (h : Upholds H v e)
    (hstored : storedHash installationID v.state.committed = some secretHash)
    (hundeleted : ∀ tx writes, s.log = (tx, writes) :: v.state.log →
      (installationID, none) ∉ writes) :
    storedHash installationID s.committed = some secretHash := by
  obtain ⟨⟨-, hmay⟩, hupheld, -⟩ := h
  rcases exec_commits hexec with ⟨hcom, -⟩ | ⟨tx, sess, hop, hsess, rfl⟩
  · rw [hcom]
    exact hstored
  · show storedHash installationID (sess.writes.apply v.state.committed) = some secretHash
    have hassert := (hupheld.own hmay hsess (by rw [hop]; rfl)).2
    by_cases hwritten : ∀ w, (installationID, w) ∉ sess.writes
    · rw [storedHash_apply_other hwritten]
      exact hstored
    · rw [not_forall] at hwritten
      obtain ⟨w, hw⟩ := hwritten
      rw [not_not] at hw
      rcases phase_commit (hop ▸ hmay.phase) with ⟨key, hash, first, hphase⟩ | hphase
      · rw [hphase] at hassert
        obtain ⟨-, ⟨row, hwrites, hhash⟩, hbefore⟩ := hassert
        rw [hwrites, mem_singleton] at hw
        cases hw
        -- a first write finds no stored hash, any other one the hash that it writes
        rw [hstored] at hbefore
        cases first with
        | true => cases hbefore
        | false =>
          cases hbefore
          rw [hwrites, storedHash, lookup_apply_cons, if_pos rfl, Option.map_some, hhash]
      · rw [hphase] at hassert
        have hnone : w = none := (hassert _ hw).1
        exact absurd (hnone ▸ hw) (hundeleted tx sess.writes rfl)

/-- No transaction deleted the row since. -/
def Undeleted (installationID : String) (log0 log : List (Nat × Writes String Registration)) :
    Prop :=
  ∀ newer, log = newer ++ log0 → ∀ entry ∈ newer, (installationID, none) ∉ entry.2

theorem Undeleted.of_suffix {log' : List (Nat × Writes String Registration)}
    (h : Undeleted installationID log0 log') (hsuf : log <:+ log') :
    Undeleted installationID log0 log := by
  intro newer hlog entry hentry
  obtain ⟨later, hlater⟩ := hsuf
  refine h (later ++ newer) ?_ entry (mem_append_right _ hentry)
  rw [← hlater, hlog, append_assoc]

theorem log_suffix (h : (system H).Steps FirstAlone c c') : c.state.log <:+ c'.state.log := by
  refine h.view_invariant (I := fun v => c.state.log <:+ v.state.log) ?_ suffix_rfl
  intro v e fate s hv hexec _
  rw [View.after_state]
  rcases exec_commits hexec with ⟨-, hlog⟩ | ⟨tx, sess, -, -, rfl⟩
  · rw [hlog]
    exact hv
  · exact hv.trans (suffix_cons _ _)

theorem stored_stays (h0 : (system H).Steps FirstAlone (start rows) c)
    (h : (system H).Steps FirstAlone c c')
    (hstored : storedHash installationID c.state.committed = some secretHash)
    (hundeleted : Undeleted installationID c.state.log c'.state.log) :
    storedHash installationID c'.state.committed = some secretHash := by
  have hens := (ensures_upholds H rows).steps h0 h
  have hrun : ∃ newer, c'.state.log = newer ++ c.state.log ∧
      ((∀ entry ∈ newer, (installationID, none) ∉ entry.2) →
        storedHash installationID c'.state.committed = some secretHash) := by
    refine hens.view_invariant (I := fun v => ∃ newer, v.state.log = newer ++ c.state.log ∧
      ((∀ entry ∈ newer, (installationID, none) ∉ entry.2) →
        storedHash installationID v.state.committed = some secretHash)) ?_
      ⟨[], rfl, fun _ => hstored⟩
    rintro v e fate s ⟨newer, hlog, hkept⟩ hexec hG
    rcases exec_commits hexec with ⟨hcom, hsame⟩ | ⟨tx, sess, -, -, hs⟩
    · refine ⟨newer, hsame.trans hlog, fun hnone => ?_⟩
      rw [View.after_state, hcom]
      exact hkept hnone
    · have hnew : s.log = (tx, sess.writes) :: v.state.log := by
        rw [hs]
        rfl
      refine ⟨(tx, sess.writes) :: newer, ?_, fun hnone => ?_⟩
      · rw [View.after_state, hnew, hlog]
        rfl
      · have hbefore := hkept fun entry hentry => hnone entry (mem_cons_of_mem _ hentry)
        refine step_keeps hexec hG hbefore fun tx' writes hlog' => ?_
        rw [View.after_state, hnew] at hlog'
        cases hlog'
        exact hnone _ mem_cons_self
  obtain ⟨newer, hlog, hkept⟩ := hrun
  exact hkept (hundeleted newer hlog)

/-! ## Answers -/

/-- A row that the table's check constraint does not admit. -/
def refused : (query : Query) → query.Ans → Bool
  | .upsertRow _, admitted => !admitted
  | _, _ => false

/-- The call failed. -/
abbrev failedCall : (call : Call) → call.Ans Query.Ans → Bool := Transact.failedCall refused

theorem failedCall_of_step {a : call.Ans Query.Ans}
    (h : Phase.step t p call a = .failed) (hp : p ≠ .failed) : failedCall call a := by
  cases t with
  | upsert =>
    refine Phases.failedCall_of_after h hp nofun ?_ fun query a h => ?_
    · cases p <;> first | exact id | exact nofun
    · cases query with
      | upsertRow =>
        cases a with
        | false => exact .inr rfl
        | true => cases p <;> first | exact .inl rfl | cases h
      | hashForUpdate => cases p <;> cases a <;> first | exact .inl rfl | cases h
      | _ => cases p <;> first | exact .inl rfl | cases h
  | _ =>
    cases call with
    | beginTx => cases h
    | _ => exact absurd h hp

theorem commit_of_step {a : call.Ans Query.Ans} (h : Phase.step t p call a = .stored key secretHash)
    (hp : p ≠ .stored key secretHash) :
    (∃ first, p = .wrote key secretHash first) ∧ ∃ tx,
      (⟨call, a⟩ : Sigma (TxCall.Ans Query.Ans)) = ⟨.commit tx, true⟩ := by
  cases t with
  | upsert =>
    have hlearn : ∀ query a, Phase.learn p query a = .stored key secretHash →
        p = .stored key secretHash := by
      intro query a h
      cases query with
      | upsertRow => cases p <;> cases a <;> first | exact h | cases h
      | hashForUpdate => cases p <;> cases a <;> first | exact h | cases h
      | _ => cases p <;> exact h
    obtain ⟨hsettled, hcommit⟩ := Phases.commit_of_after h hp nofun nofun hlearn
    refine ⟨?_, hcommit⟩
    cases p with
    | wrote key' secretHash' first =>
      cases hsettled
      exact ⟨first, rfl⟩
    | _ => exact absurd hsettled hp
  | _ =>
    cases call with
    | beginTx => cases h
    | _ => exact absurd h hp

theorem stored_learned (h0 : (system H).Steps FirstAlone (start rows) c)
    (h : (system H).Steps FirstAlone c c') {pid : Nat}
    {hist : List TaskEvent} (hhist : hist <:+ c'.hist)
    (hphase : (progress .idle Phase.step hist pid).phase = .stored key secretHash)
    (hcommits : ∀ e ∈ c.hist, e.pid = pid → ∀ tx, e.op ≠ .commit tx) :
    ∃ t tx c1, ⟨pid, t, .commit tx, true⟩ ∈ hist ∧
      t.Allowed H (.wrote key secretHash false) (.commit tx) ∧
      (system H).Steps FirstAlone c c1 ∧ (system H).Steps FirstAlone c1 c' ∧
      (storedHash key c1.state.committed = none ∨
        storedHash key c1.state.committed = some secretHash) := by
  obtain ⟨⟨pid', t, op, a⟩, old, hsuf, rfl, hbefore, hafter⟩ := System.track_learned
    (P := fun p : Progress Phase => p.phase = .stored key secretHash) hphase nofun
  obtain ⟨⟨first, hwrote⟩, tx, hcall⟩ := commit_of_step (t := t) hafter hbefore
  cases hcall
  have hens := (ensures_upholds H rows).steps h0 h
  obtain ⟨c1, c2, fate, s, hbefore1, hstep, hafter1, hold, -, hexec, ⟨-, hmay⟩, hupheld, -⟩ :=
    hens.moment_of_new (hsuf.trans hhist) fun hmem => hcommits _ hmem rfl tx rfl
  have hmono : ∀ v e, Upholds H v e → FirstAlone v e := fun _ _ h => h.1.1
  have hlater : (system H).Steps FirstAlone c1 c' :=
    (System.Steps.mono hmono hafter1).head (hstep.mono hmono)
  refine ⟨t, tx, c1, hsuf.subset mem_cons_self, ?_, hbefore1.mono hmono, hlater, ?_⟩
  · have hallowed := hmay.phase
    dsimp only at hallowed
    have hwrote1 : (progress .idle Phase.step old pid').phase =
        .wrote key secretHash first := hwrote
    rw [hold, hwrote1] at hallowed
    cases t with
    | upsert => exact hallowed
    | _ => cases (hallowed.2 nofun)
  · have hcommit : exec meaning (.commit tx : Call) fate c1.state = some (true, s) := hexec
    rcases exec_commit hcommit with ⟨sess, hsess, -⟩ | ⟨hfalse, -⟩
    · have hassert := (hupheld.own hmay hsess rfl).2
      have hwrote1 : (progress .idle Phase.step old pid').phase =
        .wrote key secretHash first := hwrote
      dsimp only at hassert
      rw [hold, hwrote1] at hassert
      cases first with
      | true => exact .inl hassert.2.2
      | false => exact .inr hassert.2.2
    · cases hfalse

/-- **The secret of a registration stays**, where an `Upsert` finds no row only while no other one
has found none: the hash stays until its row is deleted, and an `Upsert` with another hash that had
not committed by then, and that no failed call stops, answers `deviceSecretMismatch`. -/
theorem secret_stays (hashSecret : String → String) (rows : RegistrationTable)
    {c c' : Config Task Call (TxCall.Ans Query.Ans) State}
    (h0 : (system hashSecret).Steps FirstAlone (start rows) c)
    (h : (system hashSecret).Steps FirstAlone c c')
    (hstored : storedHash installationID c.state.committed = some secretHash)
    (hundeleted : Undeleted installationID c.state.log c'.state.log) :
    storedHash installationID c'.state.committed = some secretHash ∧
      ∀ pid reg reply, ⟨pid, .upsert reg, .reply reply, ()⟩ ∈ c'.hist →
        reg.installationID = installationID →
        hashSecret reg.deviceSecret ≠ secretHash →
        (∀ e ∈ c.hist, e.pid = pid → ∀ tx, e.op ≠ .commit tx) →
        (∀ e ∈ c'.hist, e.pid = pid → failedCall e.op e.ans = false) →
        reply = .done (.error .deviceSecretMismatch) := by
  refine ⟨stored_stays h0 h hstored hundeleted, ?_⟩
  intro pid reg reply hreply hkey hhash hcommits hok
  have hrun : (system hashSecret).Steps FirstAlone (start rows) c' := h0.trans h
  have hens := (ensures_upholds hashSecret rows).steps .refl hrun
  obtain ⟨newer, old, hhist⟩ := append_of_mem hreply
  have hsuf : ⟨pid, .upsert reg, .reply reply, ()⟩ :: old <:+ c'.hist := ⟨newer, hhist.symm⟩
  have hold : old <:+ c'.hist := (suffix_cons _ _).trans hsuf
  obtain ⟨c0, -, -, -, -, -, -, hold0, -, -, ⟨-, hmay⟩, -⟩ := hens.moment hsuf nil_suffix
  have hanswers := hmay.phase
  dsimp only at hanswers
  rw [hold0] at hanswers
  cases hphase : (progress .idle Phase.step old pid).phase with
  | failed =>
    obtain ⟨e, he, hpid, hfail⟩ := failed_learned hphase nofun fun _ _ _ _ => failedCall_of_step
    cases hfail.symm.trans (hok e (hold.subset he) hpid)
  | idle =>
    rw [hphase] at hanswers
    exact hanswers
  | found =>
    rw [hphase] at hanswers
    exact hanswers
  | stored =>
    obtain ⟨t, tx, c1, hcommit, hallowed, hbefore, hafter, hrow⟩ :=
      stored_learned h0 h hold hphase hcommits
    have htask := hrun.task_eq rfl (hold.subset hcommit) hreply rfl
    dsimp only at htask
    subst htask
    obtain ⟨rfl, rfl⟩ := hallowed
    subst hkey
    have hstays := stored_stays h0 hbefore hstored (hundeleted.of_suffix (log_suffix hafter))
    rw [hstays] at hrow
    rcases hrow with hnone | hsame
    · cases hnone
    · cases hsame
      exact absurd rfl hhash
  | _ =>
    rw [hphase] at hanswers
    exact hanswers.elim

end Stored

/-! ## Two first registrations -/

/-- The phone registers. -/
def registering (deviceSecret : String) : Task :=
  .upsert { installationID := "phone", deviceSecret, provider := "embedded_socket" }

/-- The answers to registrations. -/
def upsertAnswers (hist : List TaskEvent) :
    List (Nat × Result Unit) :=
  hist.filterMap fun e => match e.op with
    | .reply (.done result) => some (e.pid, result)
    | _ => none

/-- A stricter check: a missing row is looked for only while nobody else has made a call. -/
def soleCaller (v : TaskView) (e : TaskEvent) : Bool :=
  match e.op with
  | .statement _ (.hashForUpdate installationID) =>
    (v.state.committed.lookup installationID).isSome || v.hist.all (·.pid == e.pid)
  | _ => true

theorem firstAlone_of_soleCaller (v : TaskView)
    (e : TaskEvent) (h : soleCaller v e) : FirstAlone v e := by
  intro tx installationID hop hnone pid hpid hfirst
  rw [soleCaller, hop] at h
  dsimp only at h
  rw [hnone, Option.isSome_none, Bool.false_or, all_eq_true] at h
  have hidle : progress .idle Phase.step v.hist pid = { phase := .idle } :=
    System.track_of_no_call fun e' he' hpid' =>
      hpid (hpid'.symm.trans (beq_iff_eq.mp (h e' he')))
  rw [hidle] at hfirst
  cases hfirst.1

/-- No transaction deletes a row. -/
def deletesNothing (log : List (Nat × Writes String Registration)) : Bool :=
  log.all fun entry => entry.2.all fun w => w.2.isSome

theorem undeleted_of_deletesNothing (h : deletesNothing log) :
    Undeleted installationID log0 log := by
  rintro newer rfl entry hentry hw
  have hentries := all_eq_true.mp h entry (mem_append_left _ hentry)
  cases all_eq_true.mp hentries _ hw

/-- A phone registers again with another secret. -/
theorem second_secret_rejected :
    ∃ c c' reply, (system id).Steps FirstAlone (start ∅) c ∧ (system id).Steps FirstAlone c c' ∧
      storedHash "phone" c.state.committed = some "a" ∧
      ⟨1, registering "b", .reply reply, ()⟩ ∈ c'.hist ∧
      storedHash "phone" c'.state.committed = some "a" ∧
      reply = .done (.error .deviceSecretMismatch) := by
  have hplay : (((system id).play soleCaller
      (.spawn (registering "a") :: List.replicate 6 (.call 0 .done)) (start ∅)).bind fun c =>
        ((system id).play soleCaller
          (.spawn (registering "b") :: List.replicate 4 (.call 1 .done)) c).map fun c' =>
          (storedHash "phone" c.state.committed, c.hist.all (·.pid == 0),
            deletesNothing c'.state.log, c'.hist.head?,
            c'.hist.all fun e => !failedCall e.op e.ans)) =
      some (some "a", true, true,
        some ⟨1, registering "b", .reply (.done (.error .deviceSecretMismatch)), ()⟩, true) := rfl
  obtain ⟨c, c', h0, h, hres⟩ := System.play_play hplay
  simp only [Prod.mk.injEq, all_eq_true, beq_iff_eq, Bool.not_eq_true'] at hres
  obtain ⟨hstored, hown, hnone, hhead, hok⟩ := hres
  have hmem := mem_of_head? hhead
  have h0' := h0.mono firstAlone_of_soleCaller
  have h' := h.mono firstAlone_of_soleCaller
  have hstays := secret_stays id ∅ h0' h' hstored (undeleted_of_deletesNothing hnone)
  refine ⟨c, c', _, h0', h', hstored, hmem, hstays.1, ?_⟩
  refine hstays.2 1 _ _ hmem rfl (by decide) (fun e he hpid => ?_) fun e he _ => hok e he
  rw [hown e he] at hpid
  cases hpid

/-- Two phones find no registration, and the second one replaces the secret of the first one. -/
theorem second_first_replaces_secret :
    ∃ c c', (system id).Steps (fun _ _ => True) (start ∅) c ∧
      (system id).Steps (fun _ _ => True) c c' ∧
      storedHash "phone" c.state.committed = some "a" ∧
      storedHash "phone" c'.state.committed = some "b" ∧
      upsertAnswers c'.hist = [(1, .ok ()), (0, .ok ())] ∧
      deletesNothing c'.state.log := by
  have hplay : (((system id).play (fun _ _ => true)
      [.spawn (registering "a"), .spawn (registering "b"), .call 0 .done, .call 1 .done,
        .call 0 .done, .call 1 .done, .call 0 .done, .call 0 .done, .call 0 .done, .call 0 .done]
      (start ∅)).bind fun c =>
        ((system id).play (fun _ _ => true) (List.replicate 4 (.call 1 .done)) c).map fun c' =>
          (storedHash "phone" c.state.committed, storedHash "phone" c'.state.committed,
            upsertAnswers c'.hist, deletesNothing c'.state.log)) =
      some (some "a", some "b", [(1, .ok ()), (0, .ok ())], true) := rfl
  obtain ⟨c, c', h0, h, hres⟩ := System.play_play hplay
  simp only [Prod.mk.injEq] at hres
  exact ⟨c, c', h0.mono fun _ _ _ => trivial, h.mono fun _ _ _ => trivial, hres⟩

end Registrations

end Ferventio
