import Ferventio.Push.Acked

/-!
# At most one push

A delivery that the push sender has taken is marked as sent and then acknowledged, under the
installation's mutex. Between the two marks the record looks as if it could be sent again, but only
the flush that holds the mutex could fetch it (**`pushed_at_most_once`**).
-/

namespace Ferventio

open List

variable {r : DeliveryRecord} {id : String} {ackedAt : Time} {env : Env} {x : Choice}
  {v : ServerView} {e : ServerEvent} {s : World}

/-! ## Successful pushes -/

/-- The record that a push was for. -/
def pushedBy (hist : List ServerEvent) (e : ServerEvent) : Option String :=
  match flushPhase hist e.pid, e.op, e.ans with
  | .sending _ _ (record :: _), .env (.sendPush _ _), .ok _ => some record.id
  | _, _, _ => none

/-- The records that were pushed, newest first. -/
def pushedIDs : List ServerEvent → List String
  | [] => []
  | e :: hist => (pushedBy hist e).toList ++ pushedIDs hist

/-- The database does not fail to write an acknowledgement. -/
def ackWritten (e : ServerEvent) : Bool :=
  match e.op, e.ans with
  | .delivery (.ack _ _ _), .error err => err != Postgres.databaseError "ack delivery"
  | _, _ => true

/-- Identifiers are fresh, and acknowledgements are written. -/
def AcksWritten : ServerCondition := fun v e => freshID v e = true ∧ ackWritten e = true

theorem pushedBy_inv {hist : List ServerEvent} (h : pushedBy hist e = some id)
    (hok : Allowed env e.task (flushPhase hist e.pid) e.op) :
    ∃ iid reg record rows,
      flushPhase hist e.pid = .sending iid reg (record :: rows) ∧
        record.id = id ∧ reg.provider ≠ "embedded_socket" ∧
        flushPhase (e :: hist) e.pid = .sent iid reg record rows := by
  rw [flushPhase_self]
  obtain ⟨pid, t, op, ans⟩ := e
  unfold pushedBy at h
  generalize flushPhase hist pid = phase at h hok ⊢
  dsimp only at h hok ⊢
  split at h
  · rename_i iid reg record rows _ _ _
    cases h
    cases hok with
    | push _ _ _ hprov =>
      exact ⟨iid, reg, record, rows, rfl, rfl, hprov, rfl⟩
  · cases h

/-! ## Acknowledging a record -/

theorem execDelivery_ack {st : DeliveryDiskState} {iid eid : String} {r' : DeliveryRecord}
    (ha : (execDelivery env x (.ack iid eid ackedAt) st).1 ≠
      .error (Postgres.databaseError "ack delivery"))
    (hr : st.records.lookup id = some r) (hi : r.installationID = iid)
    (he : r.eventID = eid)
    (hr' : (execDelivery env x (.ack iid eid ackedAt) st).2.records.lookup id =
      some r') : r'.status = .acked := by
  have hfound : (st.records.rows.any fun record =>
      record.installationID == iid && record.eventID == eid) = true :=
    any_eq_true.mpr ⟨r, Table.mem_rows_of_lookup hr, by simp [hi, he]⟩
  -- both stores amend the records that match
  have hamended : (Memory.ack iid eid ackedAt st).2.records.lookup id = some r' →
      r'.status = .acked := by
    intro h
    simp only [Memory.ack, if_pos hfound] at h
    rw [Table.lookup_amend, hr, Option.map_some, if_pos ⟨hi, he⟩] at h
    cases h
    rfl
  unfold execDelivery at ha hr'
  cases hb : env.backend with
  | memory =>
    rw [hb] at hr'
    exact hamended hr'
  | postgres =>
    rw [hb] at ha hr'
    dsimp only at ha hr'
    have hfault : x.fault = none := by
      rw [Postgres.execDelivery, withFault] at ha
      split at ha
      · assumption
      · exact absurd rfl ha
      · exact absurd rfl ha
    simp only [Postgres.execDelivery, withFault, hfault] at hr'
    exact hamended hr'

/-! ## One process for each record -/

/-- Records in hand with one identifier are one delivery. -/
def Agree (v : ServerView) : Prop :=
  ∀ pid pid' r r', r ∈ (flushPhase v.hist pid).records → r' ∈ (flushPhase v.hist pid').records →
    r.id = r'.id → SameDelivery r r'

theorem Agree.after (h : Agree v) (hv : Orderly v)
    (hexec : exec env e.op x v.state = some (e.ans, s))
    (hok : Admitted env v e) : Agree (v.after e s) := by
  -- what was just fetched is what is stored
  have hfetched : ∀ {r}, r ∈ returned e.op e.ans →
      v.state.deliveries.records.lookup r.id = some r := by
    intro r hr
    obtain ⟨-, id, hid, -⟩ := exec_returned hexec hr
    rw [hv.consistent.keyed hid]
    exact hid
  intro pid pid' r r' hr hr' hid
  rcases records_after hok hr with hold | hnew
  · rcases records_after hok hr' with hold' | hnew'
    · exact h pid pid' r r' hold hold' hid
    · exact ((hv.inHand hold).2 r' (hid ▸ hfetched hnew')).1
  · rcases records_after hok hr' with hold' | hnew'
    · obtain ⟨hi, he⟩ := ((hv.inHand hold').2 r (hid ▸ hfetched hnew)).1
      exact ⟨hi.symm, he.symm⟩
    · have heq := hfetched hnew
      rw [hid, hfetched hnew'] at heq
      cases heq
      exact ⟨rfl, rfl⟩

theorem stored_after {record : DeliveryRecord} (hiss : record.id ∈ enqueuedIDs v.hist)
    (hstored : ∀ r, v.state.deliveries.records.lookup record.id = some r → SameDelivery record r)
    (hexec : exec env e.op x v.state = some (e.ans, s)) (hfresh : freshID v e)
    (r' : DeliveryRecord) (hr' : s.deliveries.records.lookup record.id = some r') :
    SameDelivery record r' := by
  rcases exec_touch hexec hr' with hr' | ⟨_, r, -, hr, htouch⟩ | ⟨enqueued, hop, hid, -⟩
  · exact hstored r' hr'
  · obtain ⟨hi, he⟩ := hstored r hr
    exact ⟨htouch.installationID_eq.trans hi, htouch.eventID_eq.trans he⟩
  · exact absurd (hid ▸ hiss) (not_mem_of_freshID hfresh hop)

/-! ## Between the push and the acknowledgement -/

/-- The process has pushed the record and not yet marked it; nobody else has it. -/
structure Marking (v : ServerView) (pid : Nat) (installationID : String)
    (registration : Registration) (record : DeliveryRecord) (records : List DeliveryRecord) :
    Prop where
  phase : flushPhase v.hist pid = .sent installationID registration record records ∧
      registration.provider ≠ "embedded_socket" ∨
    flushPhase v.hist pid = .acking installationID registration record records
  issued : record.id ∈ enqueuedIDs v.hist
  stored : ∀ r, v.state.deliveries.records.lookup record.id = some r → SameDelivery record r
  alone : ∀ pid', pid' ≠ pid → ∀ r ∈ (flushPhase v.hist pid').records, r.id ≠ record.id
  rest : ∀ r ∈ records, r.id ≠ record.id

section Marking

variable {pid : Nat} {iid : String} {reg : Registration}
  {record : DeliveryRecord} {rows : List DeliveryRecord}

theorem Orderly.pid_eq {pid' : Nat} (hv : Orderly v)
    (hholds : (flushPhase v.hist pid).holds = some r.installationID)
    (hr : r ∈ (flushPhase v.hist pid').records) : pid' = pid :=
  (hv.exclusive pid r.installationID hholds).2 pid' ((hv.sane pid').holds hr)

theorem FlushPhase.Sane.holds_marked {phase : FlushPhase} (h : phase.Sane)
    (hphase : phase = .sent iid reg record rows ∨ phase = .acking iid reg record rows) :
    phase.holds = some record.installationID := by
  rcases hphase with rfl | rfl <;> exact congrArg some (h.2.1 record mem_cons_self).symm

theorem Marking.of_push (hv : Orderly v) (hagree : Agree v)
    (hexec : exec env e.op x v.state = some (e.ans, s)) (hfresh : freshID v e)
    (hbefore : flushPhase v.hist e.pid = .sending iid reg (record :: rows))
    (hprov : reg.provider ≠ "embedded_socket")
    (hafter : flushPhase (e :: v.hist) e.pid = .sent iid reg record rows) :
    Marking (v.after e s) e.pid iid reg record rows := by
  have hsane := hv.sane e.pid
  have hin : ∀ r ∈ record :: rows, r ∈ (flushPhase v.hist e.pid).records := by
    rw [hbefore]
    exact fun r hr => hr
  have hrow := hin record mem_cons_self
  obtain ⟨hiss, hstored⟩ := hv.inHand hrow
  refine ⟨.inl ⟨hafter, hprov⟩, mem_enqueuedIDs_cons hiss,
    stored_after hiss (fun r hr => (hstored r hr).1) hexec hfresh, ?_, ?_⟩
  · intro pid' hpid r hr hid
    rw [View.after_hist, flushPhase_other (Ne.symm hpid)] at hr
    have hiid := (hagree e.pid pid' record r hrow hr hid.symm).1
    refine hpid (hv.pid_eq ?_ hr)
    rw [hiid]
    exact (hv.sane e.pid).holds hrow
  · intro r hr hid
    have hin' := hin r (mem_cons_of_mem _ hr)
    have hevent := (hagree e.pid e.pid record r hrow hin' hid.symm).2
    rw [hbefore] at hsane
    exact (pairwise_cons.mp hsane.2.2).1 r hr hevent.symm

variable (h : Marking v pid iid reg record rows)

include h

theorem Marking.alone_after (hv : Orderly v) (hv' : Orderly (v.after e s))
    (hholds : (flushPhase (v.after e s).hist pid).holds = some record.installationID)
    (hexec : exec env e.op x v.state = some (e.ans, s)) (hok : Admitted env v e) :
    ∀ pid', pid' ≠ pid → ∀ r ∈ (flushPhase (v.after e s).hist pid').records, r.id ≠ record.id := by
  intro pid' hpid r hr hid
  rcases records_after hok hr with hold | hnew
  · exact h.alone pid' hpid r hold hid
  · -- it would hold the mutex as well
    obtain ⟨-, key, hkey, -⟩ := exec_returned hexec hnew
    obtain rfl := hv.consistent.keyed hkey
    have hiid := (h.stored r (hid ▸ hkey)).1
    refine hpid (hv'.pid_eq ?_ hr)
    rw [hiid]
    exact hholds

theorem Marking.settled
    (hv : Orderly v) (hphase : flushPhase v.hist pid = .acking iid reg record rows) {t : Task}
    {a : Result Unit} (ha : a ≠ .error (Postgres.databaseError "ack delivery"))
    (hexec : exec env (.delivery (.ack reg.installationID record.eventID ackedAt)) x
      v.state = some (a, s)) :
    Settled record.id (v.after ⟨pid, t,
      .delivery (.ack reg.installationID record.eventID ackedAt), a⟩ s) where
  issued := mem_enqueuedIDs_cons h.issued
  acked := by
    intro r' hr'
    have hsane := hv.sane pid
    rw [hphase] at hsane
    have hiid : record.installationID = reg.installationID := by
      rw [hsane.1]
      exact hsane.2.1 record mem_cons_self
    cases hexec
    obtain ⟨r, hr, htouch⟩ | ⟨enqueued, hop, -⟩ := execDelivery_touch hr'
    · obtain ⟨hi, he⟩ := h.stored r hr
      exact execDelivery_ack ha hr (hi.trans hiid) he hr'
    · cases hop
  notInHand := by
    intro pid' r hr
    rw [View.after_hist] at hr
    by_cases hpid : pid = pid'
    · subst hpid
      rw [flushPhase_self] at hr
      dsimp only at hr
      rw [hphase] at hr
      exact h.rest r hr
    · rw [flushPhase_other hpid] at hr
      exact h.alone pid' (Ne.symm hpid) r hr

theorem Marking.after (hv : Orderly v) (hexec : exec env e.op x v.state = some (e.ans, s))
    (hfresh : freshID v e) (hack : ackWritten e) (hok : Admitted env v e) :
    Marking (v.after e s) pid iid reg record rows ∨ Settled record.id (v.after e s) := by
  have hv' : Orderly (v.after e s) := hv.after hexec hfresh hok
  -- the record is still being marked when the phase says so
  have hstill : (flushPhase (v.after e s).hist pid =
        .sent iid reg record rows ∧
        reg.provider ≠ "embedded_socket" ∨
      flushPhase (v.after e s).hist pid = .acking iid reg record rows) →
      Marking (v.after e s) pid iid reg record rows := by
    intro hphase
    refine ⟨hphase, mem_enqueuedIDs_cons h.issued, stored_after h.issued h.stored hexec hfresh,
      h.alone_after hv hv' ?_ hexec hok, h.rest⟩
    exact (hv'.sane pid).holds_marked (hphase.imp And.left fun hacking => hacking)
  by_cases hpid : e.pid = pid
  · subst hpid
    have hnext := flushPhase_self e v.hist
    obtain ⟨pid, t, op, ans⟩ := e
    rcases h.phase with ⟨hphase, hprov⟩ | hphase
    · rw [Admitted, hphase] at hok
      rw [hphase] at hnext
      cases hok with
      | sentClock => exact .inl (hstill (.inl ⟨hnext, hprov⟩))
      | markSent =>
        simp only [FlushPhase.next, if_neg hprov] at hnext
        exact .inl (hstill (.inr hnext))
    · rw [Admitted, hphase] at hok
      cases hok with
      | ack =>
        refine .inr (h.settled hv hphase ?_ hexec)
        rintro rfl
        simp [ackWritten] at hack
  · refine .inl (hstill ?_)
    rw [View.after_hist, flushPhase_other hpid]
    exact h.phase

theorem Marking.not_pushed (hok : Admitted env v e) : pushedBy v.hist e ≠ some record.id := by
  intro hpushed
  obtain ⟨_, _, pushed, rest, hphase, hid, -⟩ := pushedBy_inv hpushed hok
  by_cases hpid : e.pid = pid
  · subst hpid
    rcases h.phase with ⟨hsent, -⟩ | hacking
    · rw [hphase] at hsent
      cases hsent
    · rw [hphase] at hacking
      cases hacking
  · refine h.alone e.pid hpid pushed ?_ hid
    rw [hphase]
    exact mem_cons_self

end Marking

/-! ## Along a run -/

/-- **No record was pushed twice**, and a pushed one is being marked or settled. -/
structure Once (v : ServerView) : Prop where
  agree : Agree v
  nodup : (pushedIDs v.hist).Nodup
  marked : ∀ id ∈ pushedIDs v.hist, Settled id v ∨
    ∃ pid iid reg record records, Marking v pid iid reg record records ∧ record.id = id

theorem Once.not_pushed (h : Once v) (hok : Admitted env v e)
    (hid : id ∈ pushedIDs v.hist) : pushedBy v.hist e ≠ some id := by
  rcases h.marked id hid with hsettled | ⟨_, _, _, record, _, hmarking, rfl⟩
  · intro hpushed
    obtain ⟨_, _, pushed, rest, hphase, hpushedID, -⟩ := pushedBy_inv hpushed hok
    refine hsettled.notInHand e.pid pushed ?_ hpushedID
    rw [hphase]
    exact mem_cons_self
  · exact hmarking.not_pushed hok

theorem Once.after (h : Once v) (hv : Orderly v) (hexec : exec env e.op x v.state = some (e.ans, s))
    (hfresh : freshID v e) (hack : ackWritten e) (hok : Admitted env v e) : Once (v.after e s) where
  agree := h.agree.after hv hexec hok
  nodup := by
    rw [View.after_hist, pushedIDs]
    cases hpushed : pushedBy v.hist e with
    | none => exact h.nodup
    | some =>
      refine nodup_cons.mpr ⟨fun hid => ?_, h.nodup⟩
      exact h.not_pushed hok hid hpushed
  marked := by
    intro id hid
    rw [View.after_hist, pushedIDs, mem_append, Option.mem_toList] at hid
    rcases hid with hpushed | hold
    · obtain ⟨iid, reg, record, rows, hbefore, rfl, hprov, hafter⟩ := pushedBy_inv hpushed hok
      exact .inr ⟨e.pid, iid, reg, record, rows,
        .of_push hv h.agree hexec hfresh hbefore hprov hafter, rfl⟩
    · rcases h.marked id hold with
        hsettled | ⟨pid, iid, reg, record, rows, hmarking, rfl⟩
      · exact .inl (hsettled.after hv hexec hfresh hok)
      · rcases hmarking.after hv hexec hfresh hack hok with hmarking | hsettled
        · exact .inr ⟨pid, iid, reg, record, rows, hmarking, rfl⟩
        · exact .inl hsettled

/-- **The push sender takes each delivery at most once**, in every run of the server in which the
acknowledgements are written. -/
theorem pushed_at_most_once {may : ServerView → Task → Bool} {w : World}
    {c : ServerConfiguration} (hw : Opening w)
    (hrun : (server env may).Steps AcksWritten (started w) c) : (pushedIDs c.hist).Nodup := by
  have hens : (server env may).Ensures (started w) AcksWritten fun v e =>
      (AcksWritten v e ∧ Admitted env v e) ∧ Orderly v :=
    ensures_orderly (fun _ _ h => h.1) hw
  have honce : Once c.toView := by
    have hstarted : Once (started w).toView :=
      ⟨fun _ _ _ _ hr => absurd hr not_mem_nil, nodup_nil, fun _ hid => absurd hid not_mem_nil⟩
    refine (hens.steps .refl hrun).view_invariant ?_ hstarted
    rintro v e x s h hexec ⟨⟨⟨hfresh, hack⟩, hallowed⟩, hv⟩
    exact h.after hv hexec hfresh hack hallowed
  exact honce.nodup

/-- A phone with push messages. -/
def pushPhone : Registration := { phone with provider := "fcm" }

/-- It is registered. -/
def pushPhoneOnline : World := { registrations := AList.insert "phone" pushPhone ∅ }

theorem pushPhoneOnline_opening : Opening pushPhoneOnline := by
  refine ⟨rfl, fun iid row h => ?_⟩
  change (AList.insert "phone" pushPhone ∅ : RegistrationTable).lookup iid = _ at h
  rw [Table.lookup_insert_eq] at h
  split_ifs at h with hid
  · cases h
    exact hid.symm
  · cases h

/-- A push fails, a later one succeeds, and the next flush finds nothing. -/
def retriedPush : List (System.Move Task Choice) :=
  start (.deliver pushPhone { eventID := "e" }) ++ calls 0 7 { token := some "1" } ++
    calls 0 1 { failure := some (.plain "timeout") } ++ calls 0 3 {} ++
    start (.flush "phone") ++ calls 1 9 { now := 10 * second } ++
    start (.flush "phone") ++ calls 2 5 { now := 100 * second }

theorem retried_push_succeeds_once : ∃ c,
    (server .pg fun _ _ => true).Steps AcksWritten (started pushPhoneOnline) c ∧
      pushedIDs c.hist = ["pd_1"] ∧ (pushedIDs c.hist).Nodup := by
  have hplay : ((server .pg fun _ _ => true).play
      (fun v e => freshID v e && ackWritten e) retriedPush (started pushPhoneOnline)).map
        (fun c => pushedIDs c.hist) = some ["pd_1"] := by
    decide
  obtain ⟨c, hrun, hpushed⟩ := System.play_map hplay
  have hrun' := hrun.mono fun _ _ h => Bool.and_eq_true_iff.mp h
  exact ⟨c, hrun', hpushed, pushed_at_most_once pushPhoneOnline_opening hrun'⟩

end Ferventio
