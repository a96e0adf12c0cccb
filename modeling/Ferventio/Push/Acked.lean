import Ferventio.Push.Exclusion

/-!
# Acknowledged is final

A flush marks the records of its batch by their identifiers, whatever has become of them since
they were fetched. An acknowledgement that arrives between the hand-over of a record and its mark
is overwritten, and the record is sent once more. It is final where no record is acknowledged that a
flush of another process has in hand (`AcksAlone`).
-/

namespace Ferventio

open System

variable {r : DeliveryRecord} {id : String} {env : Env} {x : Choice} {v : ServerView}
  {e : ServerEvent} {s : World}

/-- Fresh identifiers, and nothing is acknowledged that another process has in hand. -/
def AcksAlone : ServerRule := fun v e _ s =>
  freshID v e ∧ ∀ pid r r', pid ≠ e.pid → r ∈ (flushPhase v.hist pid).records →
    s.deliveries.records.lookup r.id = some r' → r'.status ≠ .acked

/-- No record in the hands of a flush is acknowledged. -/
def Unacked (v : ServerView) : Prop :=
  ∀ {pid r r'}, r ∈ (flushPhase v.hist pid).records →
    v.state.deliveries.records.lookup r.id = some r' → r'.status ≠ .acked

theorem ack_ne_of_inHand {ackedAt : Time} (hv : Orderly v) (hok : Admitted env v e)
    (hr : r ∈ (flushPhase v.hist e.pid).records) :
    e.op ≠ .delivery (.ack r.installationID r.eventID ackedAt) := by
  intro hop
  rcases hok.ack_inv hop with ⟨hphase, -⟩ | ⟨flushed, reg, row, rows, hphase, -, he⟩
  · rw [hphase] at hr
    cases hr
  · have hsane := hv.sane e.pid
    rw [hphase] at hsane hr
    exact (List.pairwise_cons.mp hsane.2.2).1 r hr he

theorem ackThrough_ne_of_inHand {eid : String} {ackedAt : Time} (hok : Admitted env v e)
    (hr : r ∈ (flushPhase v.hist e.pid).records) :
    e.op ≠ .delivery (.ackThrough r.installationID eid ackedAt) := by
  intro hop
  rw [(hok.apart_inv (by rw [hop]; rfl)).1] at hr
  cases hr

theorem Unacked.after (hu : Unacked v) (hv : Orderly v)
    (hexec : exec env e.op x v.state = some (e.ans, s)) (hacks : AcksAlone v e x s)
    (hok : Admitted env v e) : Unacked (v.after e s) := by
  intro pid r r' hr hr' hacked
  rcases records_after hok hr with hr | hr
  · by_cases hpid : pid = e.pid
    · subst hpid
      obtain ⟨hiss, hsame⟩ := hv.inHand hr
      rcases exec_touch hexec hr' with hr' | ⟨call, r0, hop, hr0, htouch⟩ | ⟨row, hop, hid, -⟩
      · exact hu hr hr' hacked
      · obtain ⟨⟨hi, he⟩, -⟩ := hsame r0 hr0
        rcases htouch.of_acked hacked with hacked | ⟨ackedAt, rfl⟩ | ⟨eid, ackedAt, rfl⟩
        · exact hu hr hr0 hacked
        · rw [hi, he] at hop
          exact ack_ne_of_inHand hv hok hr hop
        · rw [hi] at hop
          exact ackThrough_ne_of_inHand hok hr hop
      · exact not_mem_of_freshID hacks.1 hop (hid ▸ hiss)
    · exact hacks.2 pid r r' hpid hr hr' hacked
  · -- what was just fetched is stored and not acknowledged
    obtain ⟨hstate, id, hid, hlive, -⟩ := exec_returned hexec hr
    obtain rfl := hv.consistent.keyed hid
    rw [View.after_state, hstate, hid] at hr'
    cases hr'
    exact hlive hacked

/-! ## After the acknowledgement -/

/-- Acknowledged or gone, and in no flush's hand. -/
structure Settled (id : String) (v : ServerView) : Prop where
  issued : id ∈ enqueuedIDs v.hist
  acked : ∀ r, v.state.deliveries.records.lookup id = some r → r.status = .acked
  notInHand : ∀ pid, ∀ r ∈ (flushPhase v.hist pid).records, r.id ≠ id

theorem Settled.not_returned (hs : Settled id v) (hv : Orderly v)
    (hexec : exec env e.op x v.state = some (e.ans, s)) :
    ∀ r ∈ returned e.op e.ans, r.id ≠ id := by
  rintro r hr rfl
  obtain ⟨-, id, hid, hlive, -⟩ := exec_returned hexec hr
  obtain rfl := hv.consistent.keyed hid
  exact hlive (hs.acked r hid)

theorem Settled.after (hs : Settled id v) (hv : Orderly v)
    (hexec : exec env e.op x v.state = some (e.ans, s)) (hfresh : freshID v e)
    (hok : Admitted env v e) :
    Settled id (v.after e s) where
  issued := mem_enqueuedIDs_cons hs.issued
  acked := by
    intro r' hr'
    rcases exec_touch hexec hr' with hr' | ⟨call, r, hop, hr, htouch⟩ | ⟨row, hop, hid, -⟩
    · exact hs.acked r' hr'
    · -- a flush does not mark what it does not have in hand
      have hmarks : ¬ ((∃ sentAt, call = .markSent id sentAt) ∨
          ∃ failure failedAt, call = .markFailed id failure failedAt) := by
        intro hcall
        rw [Admitted, hop] at hok
        obtain ⟨r1, hr1, hid⟩ := hok.marks hcall
        exact hs.notInHand e.pid r1 hr1 hid
      exact htouch.acked (hs.acked r hr) (fun sentAt h => hmarks (.inl ⟨sentAt, h⟩))
        fun failure failedAt h => hmarks (.inr ⟨failure, failedAt, h⟩)
    · exact absurd (hid ▸ hs.issued) (not_mem_of_freshID hfresh hop)
  notInHand := by
    intro pid r hr
    rcases records_after hok hr with hr | hr
    · exact hs.notInHand pid r hr
    · exact hs.not_returned hv hexec r hr

/-- The call hands the record over. -/
def HandsOver (hist : List ServerEvent) (e : ServerEvent) (id : String) : Prop :=
  match flushPhase hist e.pid, e.op with
  | .sending _ _ (r :: _), .hub (.send _ _) => r.id = id
  | .sending _ _ (r :: _), .env (.sendPush _ _) => r.id = id
  | _, _ => False

theorem HandsOver.inHand {hist : List ServerEvent} (h : HandsOver hist e id) :
    ∃ r ∈ (flushPhase hist e.pid).records, r.id = id := by
  unfold HandsOver at h
  split at h
  · rename_i hphase hop
    exact ⟨_, by rw [hphase]; exact List.mem_cons_self, h⟩
  · rename_i hphase hop
    exact ⟨_, by rw [hphase]; exact List.mem_cons_self, h⟩
  · cases h

/-- **Acknowledged is final**, where no record is acknowledged that a flush of another process has
in hand: no later call answers it as pending or hands it over. -/
theorem acked_is_final {may : ServerView → Task → Bool} {w : World} {c c' : ServerConfiguration}
    (hw : Opening w) (hrun : (server env may).StepsUnder AcksAlone (started w) c)
    (hrest : (server env may).StepsUnder AcksAlone c c')
    (hr : c.state.deliveries.records.lookup id = some r) (hacked : r.status = .acked) :
    (∀ r', c'.state.deliveries.records.lookup id = some r' → r'.status = .acked) ∧
      Since c.hist c'.hist fun hist e =>
        (∀ r' ∈ returned e.op e.ans, r'.id ≠ id) ∧ ¬ HandsOver hist e id := by
  have hens : (server env may).Ensures (started w) (fun v e => freshID v e = true) fun v e =>
      (freshID v e ∧ Admitted env v e) ∧ Orderly v :=
    ensures_orderly (fun _ _ h => h) hw
  have hc : Orderly c.toView ∧ Unacked c.toView := by
    refine (hens.under (fun _ _ _ _ h => h.1) .refl hrun).view_invariant
      (I := fun v => Orderly v ∧ Unacked v) ?_ ⟨hw.orderly, fun hr => by cases hr⟩
    rintro v e x s ⟨hv, hu⟩ hexec ⟨hacks, ⟨hfresh, hallowed⟩, -⟩
    exact ⟨hv.after hexec hfresh hallowed, hu.after hv hexec hacks hallowed⟩
  have hsettled : Settled id c.toView := by
    refine ⟨hc.1.issued hr, fun r' hr' => ?_, fun pid r1 hr1 hid => ?_⟩
    · rw [hr] at hr'
      cases hr'
      exact hacked
    · exact hc.2 hr1 (hid ▸ hr) hacked
  -- from here on the record stays settled, so no call can touch it
  have hstep : ∀ (v : ServerView) (e : ServerEvent) (x : Choice) (s : World), Settled id v →
      (server env may).exec e.op x v.state = some (e.ans, s) →
      AcksAlone v e x s ∧ (freshID v e ∧ Admitted env v e) ∧ Orderly v → Settled id (v.after e s) :=
    fun v e x s hs hexec h => hs.after h.2.2 hexec h.1.1 h.2.1.2
  have hrest' := hens.under (fun _ _ _ _ h => h.1) hrun hrest
  refine ⟨(hrest'.view_invariant hstep hsettled).acked,
    (hrest'.with_invariant hstep hsettled).since ?_⟩
  rintro v e x s hexec ⟨⟨-, -, hv⟩, hs⟩
  refine ⟨hs.not_returned hv hexec, fun hover => ?_⟩
  obtain ⟨r1, hr1, hid⟩ := hover.inHand
  exact hs.notInHand e.pid r1 hr1 hid

/-! ## Runs that are written out -/

/-- Fresh identifiers, and no other process has a record in hand. -/
def flushesAlone (v : ServerView) (e : ServerEvent) : Bool :=
  freshID v e && v.hist.all fun e' => e'.pid == e.pid || (flushPhase v.hist e'.pid).records.isEmpty

theorem acksAlone_of_flushesAlone (h : flushesAlone v e) : AcksAlone v e x s := by
  simp only [flushesAlone, Bool.and_eq_true, List.all_eq_true, Bool.or_eq_true, beq_iff_eq,
    List.isEmpty_iff] at h
  refine ⟨h.1, fun pid r r' hpid hr => ?_⟩
  by_cases hcalls : ∀ e' ∈ v.hist, e'.pid ≠ pid
  · rw [flushPhase, track_of_no_call hcalls] at hr
    cases hr
  · simp only [not_forall, not_not] at hcalls
    obtain ⟨e', hmem, rfl⟩ := hcalls
    rw [(h.2 e' hmem).resolve_left hpid] at hr
    cases hr

/-- The status of a stored record. -/
def statusOf (c : ServerConfiguration) (id : String) : Option DeliveryStatus :=
  (c.state.deliveries.records.lookup id).map (·.status)

/-- The phone gets a message and acknowledges it. -/
def deliverThenAck : List (Move Task Choice) :=
  start (.deliver phone { eventID := "e" }) ++ calls 0 11 { token := some "1" } ++
    start (.readAck "phone" "e") ++ calls 1 2 {}

/-- Ten seconds later the phone is flushed again. -/
def flushLater : List (Move Task Choice) :=
  start (.flush "phone") ++ calls 2 5 { now := 10 * second }

theorem acked_is_final_after_flush : Opening phoneOnline ∧ ∀ backend : Backend, ∃ c c',
    (anyServer backend).StepsUnder AcksAlone (started phoneOnline) c ∧
      (anyServer backend).StepsUnder AcksAlone c c' ∧
      statusOf c "pd_1" = some .acked ∧
      (∀ r', c'.state.deliveries.records.lookup "pd_1" = some r' → r'.status = .acked) ∧
      Since c.hist c'.hist fun hist e =>
        (∀ r' ∈ returned e.op e.ans, r'.id ≠ "pd_1") ∧ ¬ HandsOver hist e "pd_1" := by
  refine ⟨phoneOnline_opening, fun backend => ?_⟩
  have hplay : (((anyServer backend).play flushesAlone deliverThenAck
      (started phoneOnline)).bind fun c => ((anyServer backend).play
        flushesAlone flushLater c).map fun _ => statusOf c "pd_1") = some (some .acked) := by
    cases backend <;> decide
  obtain ⟨c, c', hrun, hrest, hstatus⟩ := play_play hplay
  have halone : ∀ {c c'}, (anyServer backend).Steps
      (fun v e => flushesAlone v e = true) c c' →
      (anyServer backend).StepsUnder AcksAlone c c' :=
    fun h => StepsUnder.mono (fun _ _ _ _ _ => acksAlone_of_flushesAlone) h
  obtain ⟨r, hr, hacked⟩ := Option.map_eq_some_iff.mp hstatus
  exact ⟨c, c', halone hrun, halone hrest, hstatus,
    acked_is_final phoneOnline_opening (halone hrun) (halone hrest) hr hacked⟩

/-- The phone acknowledges between the hand-over and the mark, and the next flush fetches the
record. -/
theorem ack_before_mark_is_lost : Opening phoneOnline ∧ ∀ backend : Backend, ∃ c c' e hist,
    (anyServer backend).Steps (fun v e => freshID v e = true)
        (started phoneOnline) c ∧
      (anyServer backend).Steps (fun v e => freshID v e = true) c c' ∧
      statusOf c "pd_1" = some .acked ∧ statusOf c' "pd_1" = some .sent ∧
      c'.hist = e :: hist ∧ (returned e.op e.ans).map (·.id) = ["pd_1"] := by
  refine ⟨phoneOnline_opening, fun backend => ?_⟩
  have hplay : (((anyServer backend).play freshID
      (start (.deliver phone { eventID := "e" }) ++ calls 0 8 { token := some "1" } ++
        start (.readAck "phone" "e") ++ calls 1 2 {}) (started phoneOnline)).bind
        fun c => ((anyServer backend).play freshID
          (calls 0 3 {} ++ start (.flush "phone") ++ calls 2 4 { now := 10 * second }) c).map
            fun c' => (statusOf c "pd_1", statusOf c' "pd_1",
              c'.hist.head?.map fun e => (returned e.op e.ans).map (·.id))) =
      some (some .acked, some .sent, some ["pd_1"]) := by
    cases backend <;> decide
  obtain ⟨c, c', hrun, hrest, hres⟩ := play_play hplay
  simp only [Prod.mk.injEq, Option.map_eq_some_iff] at hres
  obtain ⟨hacked, hsent, e, hhead, hret⟩ := hres
  obtain ⟨hist, hhist⟩ := List.head?_eq_some_iff.mp hhead
  exact ⟨c, c', e, hist, hrun, hrest, hacked, hsent, hhist, hret⟩

end Ferventio
