import Ferventio.Push.Exclusion

/-!
# Nothing is acknowledged unseen

A client that reconnects names the last event it received, and every record of its installation
that was created up to that event is acknowledged. But a record whose send failed waits for its next
attempt while newer ones pass it. Such a record is acknowledged although it was never written to the
socket. It is not where every reconnect finds the records up to its event sent (`inOrder`).
-/

namespace Ferventio

variable {call : Call} {ackedAt : Time} {w' w s : World} {r : DeliveryRecord}
  {hist : List ServerEvent} {eid id installationID : String} {env : Env} {x : Choice}
  {v : ServerView} {e : ServerEvent}

/-- The event was written to a socket. -/
def writes (installationID eventID : String) : (call : Call) → call.Ans → Bool
  | .hub (.send written message), .ok _ =>
    written == installationID && message.eventID == eventID
  | _, _ => false

/-- The event has been written. -/
def written (hist : List ServerEvent) (installationID eventID : String) : Bool :=
  hist.any fun e => writes installationID eventID e.op e.ans

theorem written_cons (h : written hist installationID eid) :
    written (e :: hist) installationID eid := by
  unfold written at h ⊢
  rw [List.any_cons, h, Bool.or_true]

/-! ## The client and the queue -/

/-- The client acknowledges and names only what it received. -/
def onlyReceived (installationID : String) (v : ServerView) (e : ServerEvent) : Bool :=
  match e.task, e.op with
  | .readAck _ _, .delivery (.ack acking eventID _) =>
    acking != installationID || written v.hist installationID eventID
  | _, .delivery (.ackThrough acking eventID _) =>
    acking != installationID || written v.hist installationID eventID
  | _, _ => true

/-- The installation is registered for its socket only. -/
def keepsSocket (installationID : String) (e : ServerEvent) : Bool :=
  match e.op with
  | .registration (.upsert registration) =>
    registration.installationID != installationID || registration.provider == "embedded_socket"
  | _ => true

/-- A reconnect finds every record up to its event sent or acknowledged. -/
def inOrder (installationID : String) (v : ServerView) (e : ServerEvent) : Bool :=
  match e.op with
  | .delivery (.ackThrough acking eventID _) =>
    acking != installationID || v.state.deliveries.records.rows.all fun target =>
      target.installationID != installationID || target.eventID != eventID ||
        v.state.deliveries.records.rows.all fun record =>
          record.installationID != installationID || decide (target.createdAt < record.createdAt) ||
            record.sentAt != 0 || record.status == .acked
  | _ => true

/-! ## The invariant -/

/-- A flush for the socket has written a record before it marks it. -/
def FlushPhase.OnSocket (installationID : String) (hist : List ServerEvent) : FlushPhase → Prop
  | fetching flushed reg =>
    flushed = installationID → reg.provider = "embedded_socket"
  | sending flushed reg _ =>
    flushed = installationID → reg.provider = "embedded_socket"
  | sent flushed reg r _ =>
    flushed = installationID → reg.provider = "embedded_socket" ∧
      written hist installationID r.eventID
  | acking flushed _ _ _ => flushed ≠ installationID
  | _ => True

theorem FlushPhase.OnSocket.cons {phase : FlushPhase}
    (h : phase.OnSocket installationID hist) : phase.OnSocket installationID (e :: hist) := by
  cases phase with
  | sent =>
    intro hflushed
    exact ⟨(h hflushed).1, written_cons (h hflushed).2⟩
  | _ => exact h

/-- **What was sent or acknowledged was written.** -/
structure Seen (installationID : String) (v : ServerView) : Prop where
  registered : ∀ row, v.state.registrations.lookup installationID = some row →
    row.provider = "embedded_socket"
  phases : ∀ pid, (flushPhase v.hist pid).OnSocket installationID v.hist
  records : ∀ {id r}, v.state.deliveries.records.lookup id = some r →
    r.installationID = installationID → r.status = .acked ∨ r.sentAt ≠ 0 →
    written v.hist installationID r.eventID

theorem Allowed.onSocket_next {t : Task} {phase : FlushPhase} {a : call.Ans}
    {hist' : List ServerEvent} (h : Allowed env t phase call)
    (hexec : exec env call x w = some (a, w'))
    (hregd : ∀ row, w.registrations.lookup installationID = some row →
      row.provider = "embedded_socket")
    (hwritten : ∀ eid, writes installationID eid call a ∨
      written hist installationID eid → written hist' installationID eid)
    (hphase : phase.OnSocket installationID hist) :
    (phase.next call a).OnSocket installationID hist' := by
  cases h with
  | apart hapart =>
    rw [next_outside hapart.effect_ne]
    trivial
  | get flushed =>
    have ha : a = (execRegistration env x (.get flushed) w.registrations).1 :=
      (congrArg Prod.fst (Option.some.inj hexec)).symm
    cases a with
    | error => trivial
    | ok =>
      obtain ⟨row, hrow, rfl⟩ := execRegistration_get ha.symm
      rintro rfl
      exact hregd row hrow
  | send flushed r rows hprov =>
    cases a with
    | error =>
      simp only [FlushPhase.next]
      split_ifs <;> trivial
    | ok =>
      rintro rfl
      refine ⟨hprov, hwritten r.eventID (.inl ?_)⟩
      simp [writes, notificationMessage]
  | push flushed r rows hprov =>
    cases a with
    | error => trivial
    | ok => exact fun hflushed => absurd (hphase hflushed) hprov
  | markSent =>
    simp only [FlushPhase.next]
    split_ifs with hprov
    · exact fun _ => hprov
    · exact fun hflushed => hprov (hphase hflushed).1
  | sentClock =>
    exact fun hflushed => ⟨(hphase hflushed).1, hwritten _ (.inr (hphase hflushed).2)⟩
  | ack =>
    exact fun hflushed => absurd hflushed hphase
  | fetchClock => exact hphase
  | fetch => exact hphase
  | failedClock => trivial
  | _ => trivial

theorem exec_provider {a : call.Ans} (h : exec env call x w = some (a, w'))
    (hkeeps : ∀ reg, call = .registration (.upsert reg) →
      reg.installationID = installationID → reg.provider = "embedded_socket")
    (hw : ∀ row, w.registrations.lookup installationID = some row →
      row.provider = "embedded_socket") (row : Registration)
    (hrow : w'.registrations.lookup installationID = some row) :
    row.provider = "embedded_socket" := by
  rw [exec_registrations h] at hrow
  cases call with
  | registration =>
    rcases execRegistration_lookup hrow with hrow | ⟨upserted, rfl, hid, rfl⟩
    · exact hw row hrow
    · exact hkeeps upserted rfl hid.symm
  | _ => exact hw row hrow

/-! ### One record -/

theorem keepsSocket_upsert (h : keepsSocket installationID e) :
    ∀ reg, e.op = .registration (.upsert reg) →
      reg.installationID = installationID → reg.provider = "embedded_socket" := by
  intro reg hop hid
  unfold keepsSocket at h
  rw [hop] at h
  simpa [hid] using h

theorem Seen.of_ack (hs : Seen installationID v) (hv : Orderly v) (hok : Admitted env v e)
    (hrecv : onlyReceived installationID v e)
    (hop : e.op = .delivery (.ack installationID eid ackedAt)) :
    written v.hist installationID eid := by
  rcases hok.ack_inv hop with ⟨-, htask⟩ | ⟨flushed, reg, r, rows, hphase, hi, -⟩
  · unfold onlyReceived at hrecv
    rw [htask, hop] at hrecv
    simpa using hrecv
  · -- a flush of an installation with a socket does not acknowledge by itself
    have hsane := hv.sane e.pid
    have hsocket := hs.phases e.pid
    rw [hphase] at hsane hsocket
    exact absurd (hsane.1.symm.trans hi) hsocket

theorem Seen.of_ackThrough {target : DeliveryRecord}
    (hs : Seen installationID v) (horder : inOrder installationID v e)
    (hop : e.op = .delivery (.ackThrough installationID eid ackedAt))
    (htarget : target ∈ v.state.deliveries.records.rows)
    (hti : target.installationID = installationID) (hte : target.eventID = eid)
    (hr : v.state.deliveries.records.lookup id = some r)
    (hi : r.installationID = installationID) (hle : r.createdAt ≤ target.createdAt) :
    written v.hist installationID r.eventID := by
  unfold inOrder at horder
  rw [hop] at horder
  simp only [bne_self_eq_false, Bool.false_or, List.all_eq_true] at horder
  have hrow := horder target htarget
  simp only [hti, hte, bne_self_eq_false, Bool.false_or, List.all_eq_true] at hrow
  have hsent := hrow r (Table.mem_rows_of_lookup hr)
  simp only [hi, bne_self_eq_false, Bool.false_or, Bool.or_eq_true, decide_eq_true_eq,
    bne_iff_ne, beq_iff_eq] at hsent
  refine hs.records hr hi ?_
  rcases hsent with (hlt | hsentAt) | hacked
  · exact absurd hlt (Int.not_lt.mpr hle)
  · exact .inr hsentAt
  · exact .inl hacked

theorem Seen.of_markSent {sentAt : Time} (hs : Seen installationID v) (hv : Orderly v)
    (hok : Admitted env v e) (hop : e.op = .delivery (.markSent id sentAt))
    (hr : v.state.deliveries.records.lookup id = some r) (hi : r.installationID = installationID) :
    written v.hist installationID r.eventID := by
  obtain ⟨flushed, reg, record, rows, hphase, hid⟩ := hok.markSent_inv hop
  have hsane := hv.sane e.pid
  have hsocket := hs.phases e.pid
  have hmem : record ∈ (flushPhase v.hist e.pid).records := by
    rw [hphase]
    exact List.mem_cons_self
  obtain ⟨⟨hi', he'⟩, -⟩ := (hv.inHand hmem).2 r (hid ▸ hr)
  rw [hphase] at hsane hsocket
  have hflushed : flushed = installationID := by
    rw [← hsane.2.1 record List.mem_cons_self, ← hi', hi]
  rw [he']
  exact (hsocket hflushed).2

theorem enqueued_is_new (hok : Admitted env v e)
    (hop : e.op = .delivery (.enqueue r)) (now : Time) :
    (storedRow env now r).status ≠ .acked ∧ (storedRow env now r).sentAt = 0 := by
  rw [Admitted, hop] at hok
  obtain ⟨-, deliveryID, now', reg, note, rfl, -⟩ := hok.apart_inv rfl
  unfold storedRow
  cases env.backend <;> exact ⟨nofun, rfl⟩

/-- Fresh identifiers, an honest client, one socket, and reconnects in order. -/
def InOrder (installationID : String) : ServerCondition := fun v e =>
  freshID v e ∧ onlyReceived installationID v e ∧
    keepsSocket installationID e ∧ inOrder installationID v e

theorem Seen.after (hs : Seen installationID v) (hv : Orderly v)
    (hexec : exec env e.op x v.state = some (e.ans, s)) (hok : Admitted env v e)
    (hG : InOrder installationID v e) : Seen installationID (v.after e s) := by
  obtain ⟨-, hrecv, hkeeps, horder⟩ := hG
  refine ⟨exec_provider hexec (keepsSocket_upsert hkeeps) hs.registered, fun pid => ?_, ?_⟩
  · rw [View.after_hist]
    by_cases hpid : e.pid = pid
    · subst hpid
      rw [flushPhase_self]
      refine hok.onSocket_next hexec hs.registered (fun eid h => ?_) (hs.phases e.pid)
      rcases h with h | h
      · unfold written
        rw [List.any_cons, h, Bool.true_or]
      · exact written_cons h
    · rw [flushPhase_other hpid]
      exact (hs.phases pid).cons
  · intro id r' hr' hi hdone
    rw [View.after_hist]
    refine written_cons ?_
    rcases exec_touch hexec hr' with hr' | ⟨call, r, hop, hr, htouch⟩ | ⟨record, hop, -, rfl⟩
    · exact hs.records hr' hi hdone
    · have hi0 : r.installationID = installationID := htouch.installationID_eq.symm.trans hi
      rw [htouch.eventID_eq]
      cases htouch with
      | keep => exact hs.records hr hi0 hdone
      | expire => exact hs.records hr hi0 (.inr (hdone.resolve_left nofun))
      | sent => exact hs.of_markSent hv hok hop hr hi0
      | failed hstatus =>
        refine hs.records hr hi0 (.inr (hdone.resolve_left ?_))
        rcases hstatus with rfl | rfl <;> exact nofun
      | ack hacking he =>
        rw [← hacking, hi0, ← he] at hop
        exact hs.of_ack hv hok hrecv hop
      | ackThrough htarget hti hte hacking hle =>
        rw [← hacking, hi0] at hop hti
        exact hs.of_ackThrough horder hop htarget hti hte hr hi0 hle
    · obtain ⟨hstatus, hsentAt⟩ := enqueued_is_new hok hop x.now
      exact (hdone.elim hstatus (absurd hsentAt)).elim

/-- **Nothing is acknowledged unseen**, where every reconnect finds the records up to its event
sent: a record of an installation with a socket was written to it before. -/
theorem acked_was_written {may : ServerView → Task → Bool} {c : ServerConfiguration}
    (hw : Opening w) (hsocket : ∀ row, w.registrations.lookup installationID = some row →
      row.provider = "embedded_socket")
    (h : (server env may).Steps (InOrder installationID) (started w) c)
    (hr : c.state.deliveries.records.lookup id = some r)
    (hi : r.installationID = installationID) (hacked : r.status = .acked) :
    written c.hist installationID r.eventID := by
  have hens : (server env may).Ensures (started w) (InOrder installationID) fun v e =>
      (InOrder installationID v e ∧ Admitted env v e) ∧ Orderly v :=
    ensures_orderly (fun _ _ h => h.1) hw
  have h0 : Seen installationID (started w).toView := by
    refine ⟨hsocket, fun _ => trivial, fun {id r} hr => ?_⟩
    have hqueue : (started w).state.deliveries.records = ∅ := hw.queue
    rw [hqueue] at hr
    cases hr
  have hc : Seen installationID c.toView :=
    (hens.steps .refl h).view_invariant
      (fun _ _ _ _ hs hexec he => hs.after he.2 hexec he.1.2 he.1.1) h0
  exact hc.records hr hi (.inl hacked)

/-- The phone reconnects, naming the last event it received. -/
def reconnect (connectionID lastEventID : String) : Task :=
  .connect connectionID
    { type := "authenticate", installationID := "phone", deviceSecret := phoneSecret, lastEventID }

/-- The status of a record, whose it is, and whether it was written. -/
def seenBy (c : ServerConfiguration) (id : String) : Option (DeliveryStatus × String × Bool) :=
  (c.state.deliveries.records.lookup id).map fun r =>
    (r.status, r.installationID, written c.hist r.installationID r.eventID)

theorem reconnect_acks_what_was_written : Opening phoneOnline ∧ ∀ backend : Backend, ∃ c r,
    (anyServer backend).Steps (InOrder "phone") (started phoneOnline) c ∧
      c.state.deliveries.records.lookup "pd_1" = some r ∧ r.status = .acked ∧
      written c.hist "phone" r.eventID := by
  refine ⟨phoneOnline_opening, fun backend => ?_⟩
  have hplay : ((anyServer backend).play
      (fun v e => freshID v e && (onlyReceived "phone" v e && (keepsSocket "phone" e &&
        inOrder "phone" v e)))
      (start (.deliver phone { eventID := "e" }) ++ calls 0 11 { token := some "1" } ++
        start (reconnect "again" "e") ++ calls 1 4 {}) (started phoneOnline)).map
          (fun c => (seenBy c "pd_1").map fun seen => (seen.1, seen.2.1)) =
      some (some (.acked, "phone")) := by
    cases backend <;> decide
  obtain ⟨c, hrun, hseen⟩ := System.play_map hplay
  have hmono : (anyServer backend).Steps (InOrder "phone") (started phoneOnline) c := by
    refine hrun.mono fun v e h => ?_
    simpa only [InOrder, Bool.and_eq_true] using h
  simp only [seenBy, Option.map_map, Option.map_eq_some_iff, Function.comp_apply,
    Prod.mk.injEq] at hseen
  obtain ⟨r, hr, hacked, hi⟩ := hseen
  refine ⟨c, r, hmono, hr, hacked, acked_was_written phoneOnline_opening ?_ hmono hr hi hacked⟩
  intro row hrow
  rw [phoneOnline, Table.lookup_insert_eq, if_pos rfl] at hrow
  cases hrow
  rfl

/-- The first event's send fails, the second one is sent. The phone reconnects, names the second
event, and the first one is acknowledged too. -/
theorem overtaken_event_is_acked_unseen : Opening phoneOnline ∧ ∀ backend : Backend, ∃ c,
    (anyServer backend).Steps
        (fun v e => freshID v e = true ∧ onlyReceived "phone" v e = true ∧
          keepsSocket "phone" e) (started phoneOnline) c ∧
      seenBy c "pd_1" = some (.acked, "phone", false) := by
  refine ⟨phoneOnline_opening, fun backend => ?_⟩
  have hplay : ((anyServer backend).play
      (fun v e => freshID v e && (onlyReceived "phone" v e && keepsSocket "phone" e))
      (start (.deliver phone { eventID := "first" }) ++
        calls 0 11 { token := some "1", failure := some (.plain "timeout") } ++
        start (.disconnect "phone" "socket") ++ calls 1 1 {} ++
        start (reconnect "second socket" "") ++ calls 2 9 {} ++
        start (.deliver phone { eventID := "second" }) ++
        calls 3 11 { token := some "2", now := 2 } ++
        start (.disconnect "phone" "second socket") ++ calls 4 1 {} ++
        start (reconnect "third socket" "second") ++ calls 5 4 { now := 3 })
      (started phoneOnline)).map (fun c => seenBy c "pd_1") =
        some (some (.acked, "phone", false)) := by
    cases backend <;> decide
  obtain ⟨c, hrun, hseen⟩ := System.play_map hplay
  refine ⟨c, hrun.mono fun v e h => ?_, hseen⟩
  simpa only [Bool.and_eq_true] using h

end Ferventio
