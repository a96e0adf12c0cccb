import Ferventio.Settings.Writers

/-!
# Settings writes are serialized

Any number of `Put` and `Restore` transactions of any users interleave by statements; database
calls may fail. The commits that create a revision of one user are the steps `Creates`.

* **`settings_writes_serialized`**: created revisions are consecutive, and no two are on one base.
-/

namespace Ferventio

namespace Settings

open Transact Postgres List

/-- The database. -/
abbrev State := Database (String × Int) SettingsSyncRow

/-- An event of a task. -/
abbrev TaskEvent := Event Task Call (TxCall.Ans Query.Ans)

/-- A configuration. -/
abbrev TaskConfig := Config Task Call (TxCall.Ans Query.Ans) State

variable {hist : List TaskEvent} {put : SettingsPut} {now : Time}
  {call : Call} {current : Option SettingsSyncSnapshot} {p : Phase} {next : SettingsSyncSnapshot}

/-- The revisions that a log created, in commit order. -/
def createdRevisions (userID : String) :
    List (Nat × Writes (String × Int) SettingsSyncRow) → List Int
  | [] => []
  | (_, writes) :: older =>
    createdRevisions userID older ++ (insertedRevisions userID writes).reverse

/-- The committed revision. -/
def committedRevision (userID : String) (db : State) : Int :=
  currentRevision (currentSettings userID db.committed)

/-- No condition. -/
def free : System.Condition Task Call (TxCall.Ans Query.Ans) State := fun _ _ => True

/-- The conditions of the assertions. -/
def Upholds (lockKey : String → Int) (jsonb : Jsonb) :
    System.Condition Task Call (TxCall.Ans Query.Ans) State := fun v e =>
  (free v e ∧ (progress .idle Phase.step v.hist e.pid).Allows (Task.Allowed jsonb) e.task e.op) ∧
    Upheld .idle Phase.step (Assertion lockKey) v

section Runs

variable {lockKey : String → Int} {jsonb : Jsonb} {rows : SettingsSyncTable} {uid : String}
  {c c' : TaskConfig}

theorem ensures_upholds (lockKey : String → Int) (jsonb : Jsonb) (rows : SettingsSyncTable) :
    (system lockKey jsonb).Ensures (Transact.start rows) free (Upholds lockKey jsonb) :=
  ensures_upheld (assertions lockKey jsonb free) follows_code

/-- **One step.** It creates nothing, or it is the commit of a writer of the user. -/
theorem step_created {v : View Task Call (TxCall.Ans Query.Ans) State} {e : TaskEvent} {fate : Fate}
    {s : State} (hexec : Transact.exec (meaning lockKey jsonb) e.op fate v.state = some (e.ans, s))
    (h : Upholds lockKey jsonb v e) (uid : String) :
    createdRevisions uid s.log = createdRevisions uid v.state.log ∧
        committedRevision uid s = committedRevision uid v.state ∨
      (∃ tx, e.op = .commit tx) ∧ e.task.userID = uid ∧
        e.task.OnBase (currentSettings uid v.state.committed) ∧
        createdRevisions uid s.log =
          createdRevisions uid v.state.log ++ [committedRevision uid v.state + 1] ∧
        committedRevision uid s = committedRevision uid v.state + 1 := by
  obtain ⟨⟨-, hmay⟩, hupheld⟩ := h
  rcases exec_commits hexec with ⟨hcom, hlog⟩ | ⟨tx, sess, hop, hsess, rfl⟩
  · left
    rw [committedRevision, hcom, hlog]
    exact ⟨rfl, rfl⟩
  · have hassert := (hupheld.own hmay hsess (by rw [hop]; rfl)).2
    rcases assertion_commit (hop ▸ hmay.phase) hassert with
      hwrites | ⟨user, current, next, -, huser, hbase, hwrote⟩
    · left
      rw [Database.accept, hwrites]
      exact ⟨append_nil _, rfl⟩
    · by_cases hsame : user = uid
      · subst hsame
        have hnext : next.revision = committedRevision user v.state + 1 := by
          rw [hwrote.follows, ← hwrote.read, committedRevision]
        refine .inr ⟨⟨tx, hop⟩, huser.symm, hwrote.read ▸ hbase, ?_, ?_⟩
        · show _ ++ (insertedRevisions user sess.writes).reverse = _
          rw [hwrote.created, hnext]
          rfl
        · rw [← hnext, ← hwrote.newest]
          rfl
      · have hother : ∀ w ∈ sess.writes, w.1.1 ≠ uid := by
          intro w hw
          rw [hwrote.own w hw]
          exact hsame
        have hnone : insertedRevisions uid sess.writes = [] := by
          rw [insertedRevisions, filterMap_eq_nil_iff]
          exact fun w hw => if_neg fun h => hother w hw h.1
        left
        constructor
        · show _ ++ (insertedRevisions uid sess.writes).reverse = _
          rw [hnone]
          exact append_nil _
        · show currentRevision (currentSettings uid (sess.writes.apply _)) = _
          rw [currentSettings_apply_other hother]
          rfl

theorem created_consecutive (h : (system lockKey jsonb).Steps free (Transact.start rows) c)
    (uid : String) :
    ∃ n : Nat, createdRevisions uid c.state.log =
        (List.range n).map (fun k : Nat => currentRevision (currentSettings uid rows) + 1 + k) ∧
      committedRevision uid c.state = currentRevision (currentSettings uid rows) + n := by
  have hens := (ensures_upholds lockKey jsonb rows).steps .refl h
  refine hens.view_invariant (I := fun v => ∃ n : Nat, createdRevisions uid v.state.log =
        (List.range n).map (fun k : Nat => currentRevision (currentSettings uid rows) + 1 + k) ∧
      committedRevision uid v.state = currentRevision (currentSettings uid rows) + n) ?_ ?_
  · rintro v e fate s ⟨n, hcreated, hcur⟩ hexec hG
    rcases step_created hexec hG uid with ⟨hsame, hrev⟩ | ⟨-, -, -, hnew, hrev⟩
    · exact ⟨n, hsame.trans hcreated, hrev.trans hcur⟩
    · refine ⟨n + 1, ?_, ?_⟩
      · rw [View.after_state, hnew, hcreated, hcur, range_succ, map_append,
          map_singleton, Int.add_right_comm]
      · rw [View.after_state, hrev, hcur]
        omega
  · exact ⟨0, rfl, (Int.add_zero _).symm⟩

theorem committedRevision_mono (h0 : (system lockKey jsonb).Steps free (Transact.start rows) c)
    (h : (system lockKey jsonb).Steps free c c') (uid : String) :
    committedRevision uid c.state ≤ committedRevision uid c'.state := by
  have hens := (ensures_upholds lockKey jsonb rows).steps h0 h
  refine hens.view_invariant
    (I := fun v => committedRevision uid c.state ≤ committedRevision uid v.state) ?_ le_rfl
  intro v e fate s hle hexec hG
  rw [View.after_state]
  rcases step_created hexec hG uid with ⟨-, hrev⟩ | ⟨-, -, -, -, hrev⟩ <;> omega

/-! ## Creations -/

/-- A commit that creates a revision of the user. -/
structure Creates (lockKey : String → Int) (jsonb : Jsonb) (uid : String) (pid : Nat) (t : Task)
    (c c' : TaskConfig) : Prop where
  step : (system lockKey jsonb).Step free c c'
  commit : ∃ tx a, c'.hist = ⟨pid, t, .commit tx, a⟩ :: c.hist
  created : createdRevisions uid c'.state.log ≠ createdRevisions uid c.state.log

variable {pid : Nat} {t : Task}

theorem Creates.spec (h0 : (system lockKey jsonb).Steps free (Transact.start rows) c)
    (h : Creates lockKey jsonb uid pid t c c') :
    t.OnBase (currentSettings uid c.state.committed) ∧
      committedRevision uid c'.state = committedRevision uid c.state + 1 := by
  obtain ⟨hstep, ⟨tx, a, hcommit⟩, hcreated⟩ := h
  have hstep' := ensures_upholds lockKey jsonb rows c c' h0 hstep
  cases hstep' with
  | spawn => exact absurd rfl hcreated
  | call pid' t' op k fate a' s hproc hexec hG =>
    rw [View.after_hist] at hcommit
    rcases step_created (v := c.toView) (e := ⟨pid', t', op, a'⟩) hexec hG uid with
      ⟨hsame, -⟩ | ⟨-, -, hbase, -, hrev⟩
    · exact absurd hsame hcreated
    · cases hcommit
      exact ⟨hbase, hrev⟩

theorem Creates.base_lt {pid' : Nat} {put' : SettingsPut} {now' : Time} {c1 c2 c3 c4 : TaskConfig}
    (h1 : (system lockKey jsonb).Steps free (Transact.start rows) c1)
    (h2 : Creates lockKey jsonb uid pid (.put put now) c1 c2)
    (h3 : (system lockKey jsonb).Steps free c2 c3)
    (h4 : Creates lockKey jsonb uid pid' (.put put' now') c3 c4) (hforce : put.force = false)
    (hforce' : put'.force = false) : put.baseRevision < put'.baseRevision := by
  have hstart2 := h1.tail h2.step
  obtain ⟨hbase, hrev⟩ := h2.spec h1
  obtain ⟨hbase', -⟩ := h4.spec (hstart2.trans h3)
  have hle := committedRevision_mono hstart2 h3 uid
  have hcur : put.baseRevision = committedRevision uid c1.state := hbase hforce
  have hcur' : put'.baseRevision = committedRevision uid c3.state := hbase' hforce'
  omega

/-! ## Answers -/

/-- An insertion that finds its key taken. -/
def refused : (query : Query) → query.Ans → Bool
  | .insert _ _, free => !free
  | _, _ => false

/-- The call failed. -/
abbrev failedCall : (call : Call) → call.Ans Query.Ans → Bool := Transact.failedCall refused

theorem failedCall_of_step {t : Task} {a : call.Ans Query.Ans}
    (h : Phase.step t p call a = .failed) (hp : p ≠ .failed) : failedCall call a := by
  refine Phases.failedCall_of_after h hp nofun ?_ fun query a h => ?_
  · cases p <;> first | exact id | exact nofun
  · cases query with
    | insert =>
      cases a with
      | false => exact .inr rfl
      | true => cases p <;> first | exact .inl rfl | cases h
    | _ => cases p <;> first | exact .inl rfl | cases h

theorem current_of_step {a : call.Ans Query.Ans}
    (h : Phase.step t p call a = .read uid current) (hp : p ≠ .read uid current) :
    p = .locked uid ∧ ∃ tx uid',
      (⟨call, a⟩ : Sigma (TxCall.Ans Query.Ans)) =
        ⟨.statement tx (.current uid'), some current⟩ := by
  cases call with
  | beginTx => cases a <;> cases h
  | statement tx query =>
    cases a with
    | none => cases h
    | some ans =>
      cases query with
      | current uid' =>
        cases p with
        | locked =>
          cases h
          exact ⟨rfl, tx, uid', rfl⟩
        | _ => exact absurd h hp
      | insert => cases p <;> cases ans <;> first | exact absurd h hp | cases h
      | _ => cases p <;> first | exact absurd h hp | cases h
  | commit => cases p <;> cases a <;> first | exact absurd h hp | cases h
  | _ => exact absurd h hp

theorem commit_of_step {a : call.Ans Query.Ans} (h : Phase.step t p call a = .created next)
    (hp : p ≠ .created next) :
    (∃ uid current, p = .wrote uid current next) ∧ ∃ tx,
      (⟨call, a⟩ : Sigma (TxCall.Ans Query.Ans)) = ⟨.commit tx, true⟩ := by
  have hlearn : ∀ query a, Phase.learn p query a = .created next → p = .created next := by
    intro query a h
    cases query with
    | insert => cases p <;> cases a <;> first | exact h | cases h
    | _ => cases p <;> first | exact h | cases h
  obtain ⟨hsettled, hcommit⟩ := Phases.commit_of_after h hp nofun nofun hlearn
  refine ⟨?_, hcommit⟩
  cases p with
  | wrote uid current =>
    cases hsettled
    exact ⟨uid, current, rfl⟩
  | _ => exact absurd hsettled hp

section Learned

variable {pid : Nat} {hist : List TaskEvent}

theorem read_learned (h : (progress .idle Phase.step hist pid).phase = .read uid current) :
    ∃ t tx uid' old, ⟨pid, t, .statement tx (.current uid'), some current⟩ :: old <:+ hist ∧
      (progress .idle Phase.step old pid).phase = .locked uid := by
  obtain ⟨⟨pid', t, op, a⟩, old, hsuf, rfl, hbefore, hafter⟩ :=
    System.track_learned (P := fun p : Progress Phase => p.phase = .read uid current) h nofun
  obtain ⟨hphase, tx, uid', hcall⟩ := current_of_step (t := t) hafter hbefore
  cases hcall
  exact ⟨t, tx, uid', old, hsuf, hphase⟩

theorem created_learned (h : (progress .idle Phase.step hist pid).phase = .created next) :
    ∃ t tx old uid current, ⟨pid, t, .commit tx, true⟩ :: old <:+ hist ∧
      (progress .idle Phase.step old pid).phase = .wrote uid current next := by
  obtain ⟨⟨pid', t, op, a⟩, old, hsuf, rfl, hbefore, hafter⟩ :=
    System.track_learned (P := fun p : Progress Phase => p.phase = .created next) h nofun
  obtain ⟨⟨uid, current, hphase⟩, tx, hcall⟩ := commit_of_step (t := t) hafter hbefore
  cases hcall
  exact ⟨t, tx, old, uid, current, hsuf, hphase⟩

end Learned

/-- The process has a transaction. -/
def OpenIn (c : TaskConfig) (pid : Nat) : Prop :=
  ∃ tx sess, (progress .idle Phase.step c.hist pid).tx = some tx ∧
    c.state.sessions.lookup tx = some sess

section System

variable (h : (system lockKey jsonb).Steps free (Transact.start rows) c)

include h

theorem read_current (hhist : hist <:+ c.hist)
    (hphase : (progress .idle Phase.step hist pid).phase = .read uid current) :
    ∃ c1, (system lockKey jsonb).Steps free (Transact.start rows) c1 ∧
      (system lockKey jsonb).Steps free c1 c ∧ OpenIn c1 pid ∧
      currentSettings uid c1.state.committed = current := by
  have hens := (ensures_upholds lockKey jsonb rows).steps .refl h
  obtain ⟨t, tx, user, old, hsuf, hlock⟩ := read_learned hphase
  obtain ⟨c1, c2, fate, s, hbefore, hstep, hafter, hold, -, hexec, ⟨-, hmay⟩, hupheld⟩ :=
    hens.moment (hsuf.trans hhist) nil_suffix
  have hfree : ∀ v e, Upholds lockKey jsonb v e → free v e := fun _ _ _ => trivial
  refine ⟨c1, hbefore.mono hfree, (System.Steps.mono hfree hafter).head (hstep.mono hfree), ?_⟩
  have hallowed := hmay.phase
  dsimp only at hallowed
  rw [hold, hlock] at hallowed
  rcases exec_statement hexec with ⟨sess, hsess, -, hcur, -⟩ | ⟨hnone, -⟩
  · have hassert := (hupheld.own hmay hsess rfl).2
    dsimp only at hassert
    rw [hold, hlock] at hassert
    refine ⟨⟨tx, sess, hmay.own tx rfl, hsess⟩, ?_⟩
    have hread : some current = some (currentSettings user (sess.view c1.state.committed)) := hcur
    have huser : user = uid := hallowed
    rw [Session.view_of_unwritten hassert.2, huser] at hread
    exact (Option.some.inj hread).symm
  · cases hnone

theorem created_creates (hhist : hist <:+ c.hist)
    (hphase : (progress .idle Phase.step hist pid).phase = .created next) :
    ∃ t c1 c2, (∃ tx, ⟨pid, t, .commit tx, true⟩ ∈ hist) ∧
      (system lockKey jsonb).Steps free (Transact.start rows) c1 ∧
      Creates lockKey jsonb t.userID pid t c1 c2 ∧ (system lockKey jsonb).Steps free c2 c := by
  have hens := (ensures_upholds lockKey jsonb rows).steps .refl h
  obtain ⟨t, tx, old, user, current, hsuf, hwrote⟩ := created_learned hphase
  obtain ⟨c1, c2, fate, s, hbefore, hstep, hafter, hold, hview, hexec, ⟨-, hmay⟩, hupheld⟩ :=
    hens.moment (hsuf.trans hhist) nil_suffix
  have hfree : ∀ v e, Upholds lockKey jsonb v e → free v e := fun _ _ _ => trivial
  have hmem := hsuf.subset mem_cons_self
  have hhist2 : c2.hist = ⟨pid, t, .commit tx, true⟩ :: c1.hist := by
    rw [hview]
    rfl
  refine ⟨t, c1, c2, ⟨tx, hmem⟩, hbefore.mono hfree, ⟨hstep.mono hfree, ⟨tx, true, hhist2⟩, ?_⟩,
    hafter.mono hfree⟩
  have hallowed := hmay.phase
  dsimp only at hallowed
  rw [hold, hwrote] at hallowed
  have hcommit : Transact.exec (meaning lockKey jsonb) (.commit tx : Call) fate c1.state =
    some (true, s) := hexec
  rcases exec_commit hcommit with ⟨sess, hsess, hstate⟩ | ⟨hfalse, -⟩
  · have hassert := (hupheld.own hmay hsess rfl).2
    dsimp only at hassert
    rw [hold, hwrote] at hassert
    have huser : user = t.userID := hallowed.1
    have hcreated : insertedRevisions t.userID sess.writes = [next.revision] := by
      rw [← huser]
      exact hassert.created
    rw [hview, View.after_state, hstate]
    show createdRevisions t.userID c1.state.log ++
      (insertedRevisions t.userID sess.writes).reverse ≠ createdRevisions t.userID c1.state.log
    rw [hcreated]
    intro heq
    have hlen := congrArg List.length heq
    rw [length_append, reverse_singleton, length_singleton] at hlen
    omega
  · cases hfalse

/-- **Answers.** A `Put` that answers after no failed call has created a revision, or has read what
was current. -/
theorem answered {ans : SettingsAnswer} (hreply : ⟨pid, .put put now, .reply ans, ()⟩ ∈ c.hist)
    (hok : ∀ e ∈ c.hist, e.pid = pid → failedCall e.op e.ans = false) :
    (∃ c1 c2, (system lockKey jsonb).Steps free (Transact.start rows) c1 ∧
        Creates lockKey jsonb put.userID pid (.put put now) c1 c2 ∧
        (system lockKey jsonb).Steps free c2 c) ∨
      ∃ c1, (system lockKey jsonb).Steps free (Transact.start rows) c1 ∧
        (system lockKey jsonb).Steps free c1 c ∧ OpenIn c1 pid ∧
        unwritten jsonb put (currentSettings put.userID c1.state.committed) ans := by
  have hens := (ensures_upholds lockKey jsonb rows).steps .refl h
  obtain ⟨newer, old, hhist⟩ := append_of_mem hreply
  have hsuf : ⟨pid, .put put now, .reply ans, ()⟩ :: old <:+ c.hist := ⟨newer, hhist.symm⟩
  have hold : old <:+ c.hist := (suffix_cons _ _).trans hsuf
  obtain ⟨c0, c0', fate, s, -, -, -, hold0, -, -, ⟨-, hmay⟩, -⟩ := hens.moment hsuf nil_suffix
  have hans := hmay.phase
  dsimp only at hans
  rw [hold0] at hans
  cases hphase : (progress .idle Phase.step old pid).phase with
  | failed =>
    obtain ⟨e, he, hpid, hfail⟩ := failed_learned hphase nofun fun _ _ _ _ => failedCall_of_step
    cases hfail.symm.trans (hok e (hold.subset he) hpid)
  | read =>
    rw [hphase] at hans
    obtain ⟨rfl, hunwritten⟩ := hans
    obtain ⟨c1, hbefore, hafter, hopen, hcur⟩ := read_current h hold hphase
    exact .inr ⟨c1, hbefore, hafter, hopen, hcur ▸ hunwritten⟩
  | created =>
    obtain ⟨t, c1, c2, ⟨tx, hcommit⟩, hbefore, hcreates, hafter⟩ := created_creates h hold hphase
    have htask := h.task_eq rfl (hold.subset hcommit) hreply rfl
    dsimp only at htask
    subst htask
    exact .inl ⟨c1, c2, hbefore, hcreates, hafter⟩
  | _ =>
    rw [hphase] at hans
    exact hans.elim

end System

/-! ## The theorem -/

/-- **Settings writes are serialized.** The revisions created for a user are consecutive, in commit
order; a `Put` without force creates one only on top of its base; of two that create, the bases
differ; and one that creates none, after no failed call, with a valid payload whose hash is not the
current one, answers with a conflict and the current snapshot. -/
theorem settings_writes_serialized (lockKey : String → Int) (jsonb : Jsonb)
    (rows : SettingsSyncTable) {c : TaskConfig}
    (h : (system lockKey jsonb).Steps free (Transact.start rows) c) (uid : String) :
    (∃ n : Nat, createdRevisions uid c.state.log =
      (List.range n).map fun k : Nat => currentRevision (currentSettings uid rows) + 1 + k) ∧
    (∀ c1 c2 pid put now, (system lockKey jsonb).Steps free (Transact.start rows) c1 →
      Creates lockKey jsonb uid pid (.put put now) c1 c2 → put.force = false →
      put.baseRevision = committedRevision uid c1.state) ∧
    (∀ c1 c2 c3 c4 pid put now pid' put' now',
      (system lockKey jsonb).Steps free (Transact.start rows) c1 →
      Creates lockKey jsonb uid pid (.put put now) c1 c2 →
      (system lockKey jsonb).Steps free c2 c3 →
      Creates lockKey jsonb uid pid' (.put put' now') c3 c4 → put.force = false →
      put'.force = false → put.baseRevision ≠ put'.baseRevision) ∧
    ∀ pid put now answer, ⟨pid, .put put now, .reply answer, ()⟩ ∈ c.hist →
      put.userID = uid → put.force = false → jsonb.valid put.payload →
      (∀ e ∈ c.hist, e.pid = pid → failedCall e.op e.ans = false) →
      (∃ c1 c2, (system lockKey jsonb).Steps free (Transact.start rows) c1 ∧
        Creates lockKey jsonb uid pid (.put put now) c1 c2 ∧
        (system lockKey jsonb).Steps free c2 c) ∨
      ∃ c1, (system lockKey jsonb).Steps free (Transact.start rows) c1 ∧
        (system lockKey jsonb).Steps free c1 c ∧ OpenIn c1 pid ∧
        ((currentSettings uid c1.state.committed).any (·.contentHash == put.contentHash) =
            false →
          put.baseRevision ≠ committedRevision uid c1.state ∧
          answer = ((currentSettings uid c1.state.committed).getD {},
            some .settingsSyncConflict)) := by
  refine ⟨?_, ?_, ?_, ?_⟩
  · obtain ⟨n, hcreated, -⟩ := created_consecutive h uid
    exact ⟨n, hcreated⟩
  · intro c1 c2 pid put now hsteps hcreates hforce
    exact (hcreates.spec hsteps).1 hforce
  · intro c1 c2 c3 c4 pid put now pid' put' now' h1 h2 h3 h4 hforce hforce'
    exact ne_of_lt (h2.base_lt h1 h3 h4 hforce hforce')
  · rintro pid put now answer hreply rfl hforce hvalid hok
    rcases answered h hreply hok with hcreates | ⟨c1, hbefore, hafter, hopen, hunwritten⟩
    · exact .inl hcreates
    · refine .inr ⟨c1, hbefore, hafter, hopen, fun hhash => ?_⟩
      rw [unwritten, hforce, Bool.not_false, Bool.true_and, hhash, hvalid] at hunwritten
      split at hunwritten
      · rename_i hbase
        exact ⟨bne_iff_ne.mp hbase, hunwritten⟩
      · rw [if_neg Bool.false_ne_true] at hunwritten
        cases hunwritten

end Runs

/-! ## Two first writes -/

/-- A first write. -/
def firstWrite (contentHash : String) : Task :=
  .put ⟨"user", "phone", 0, false, "1.0", contentHash, contentHash⟩ 0

/-- Two writers begin; the first one locks and ends, then the second. -/
def twoFirstWrites : List (System.Move Task Fate) :=
  [.spawn (firstWrite "a"), .spawn (firstWrite "b"), .call 0 .done, .call 1 .done] ++
    List.replicate 7 (.call 0 .done) ++ List.replicate 4 (.call 1 .done)

/-- The answers to writes. -/
def answers (hist : List TaskEvent) : List SettingsAnswer :=
  hist.filterMap fun e => match e.op with
    | .reply answer => some answer
    | _ => none

/-- Of two first writes one creates revision 1 and the other one conflicts with it. -/
theorem twoFirstWrites_serialized :
    ∃ c, (system (fun _ => 0) .verbatim).Steps free (Transact.start ∅) c ∧
      (createdRevisions "user" c.state.log = [1] ∧
        (answers c.hist).map (fun answer => (answer.1.contentHash, answer.2)) =
          [("a", some .settingsSyncConflict), ("a", none)]) ∧
      ∃ n : Nat, createdRevisions "user" c.state.log =
        (List.range n).map fun k : Nat => currentRevision (currentSettings "user" ∅) + 1 + k := by
  have hplay : ((system (fun _ => 0) .verbatim).play (fun _ _ => true) twoFirstWrites
      (Transact.start ∅)).map (fun c => (createdRevisions "user" c.state.log,
        (answers c.hist).map fun answer => (answer.1.contentHash, answer.2))) =
      some ([1], [("a", some .settingsSyncConflict), ("a", none)]) := rfl
  obtain ⟨c, hsteps, hc⟩ := System.play_map hplay
  have hfree : (system (fun _ => 0) .verbatim).Steps free (Transact.start ∅) c :=
    hsteps.mono fun _ _ _ => trivial
  exact ⟨c, hfree, Prod.mk.inj hc,
    (settings_writes_serialized (fun _ => 0) .verbatim ∅ hfree "user").1⟩

end Settings

end Ferventio
