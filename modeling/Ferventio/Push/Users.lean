import Ferventio.Push.Exclusion

/-!
# Notifications and the users they are for

A queued record names its installation and not its user. When the installation is registered for
another user, what is still queued goes to that user.

Two things keep users apart (`sameUser`): an installation changes its user only while it is not
being flushed and everything still to be sent was queued for the new user, and a notification is
queued only while the installation still belongs to the user of the registration that it is
delivered to. The calls of `deliverToRegistration` are tasks of their own here (`Task.apart`), so
that this registration is known.
-/

namespace Ferventio

open List

variable {call : DeliveryCall} {r' : DeliveryRecord} {payload : Notification} {w s : World}
  {id iid : String} {env : Env} {x : Choice} {v : ServerView} {e : ServerEvent}

/-- Every task but the three that deliver in their course. -/
def Task.apart : Task → Bool
  | adminPush _ _ => false
  | selfTest _ _ => false
  | event _ _ => false
  | _ => true

/-! ## Whose a notification is -/

/-- The call queued the record for the user's registration. -/
def queues (r : DeliveryRecord) (userID : String) (e : ServerEvent) : Bool :=
  match e.op, e.task with
  | .delivery (.enqueue record), .deliver registration _ =>
    record.id == r.id && registration.installationID == r.installationID &&
      registration.userID == userID && deliveryPayload record == deliveryPayload r
  | _, _ => false

/-- The record was queued for the user. -/
def queuedFor (hist : List ServerEvent) (r : DeliveryRecord) (userID : String) : Bool :=
  hist.any (queues r userID)

variable {r : DeliveryRecord} {hist : List ServerEvent} {uid : String} {row : Registration}

theorem queuedFor_cons (h : queuedFor hist r uid) : queuedFor (e :: hist) r uid := by
  unfold queuedFor at h ⊢
  rw [any_cons, h, Bool.or_true]

theorem queuedFor_congr (hid : r'.id = r.id) (hsame : SameDelivery r r')
    (hn : r'.notification = r.notification) (h : queuedFor hist r uid) : queuedFor hist r' uid := by
  have hpay : deliveryPayload r' = deliveryPayload r := by
    unfold deliveryPayload
    rw [hn, hsame.2]
  have hqueues : queues r' uid = queues r uid := by
    funext e
    unfold queues
    rw [hid, hsame.1, hpay]
  unfold queuedFor at h ⊢
  rw [hqueues]
  exact h

/-- The record is not done. -/
def live (r : DeliveryRecord) : Bool := r.status != .acked && r.status != .dead

/-! ## Keeping users apart -/

/-- What is to be sent was queued for the user, and no flush is on. -/
def readyFor (installationID userID : String) (v : ServerView) : Bool :=
  !v.state.locked.contains (.flush installationID) &&
    v.state.deliveries.records.rows.all fun r =>
      r.installationID != installationID || !live r || queuedFor v.hist r userID

/-- The installation is the user's, if registered. -/
def belongsTo (installationID userID : String) (w : World) : Bool :=
  (w.registrations.lookup installationID).all (·.userID == userID)

/-- **The two conditions.** -/
def sameUser (v : ServerView) (e : ServerEvent) : Bool :=
  match e.op, e.task with
  | .registration (.upsert registration), _ =>
    (v.state.registrations.lookup registration.installationID).any
        (·.userID == registration.userID) ||
      readyFor registration.installationID registration.userID v
  | .delivery (.enqueue _), .deliver registration _ =>
    belongsTo registration.installationID registration.userID v.state
  | _, _ => true

/-! ## The invariant -/

/-- **What may be sent was queued for the user of the registration.** -/
structure Bound (v : ServerView) : Prop where
  queue : ∀ {id r row}, v.state.deliveries.records.lookup id = some r → live r →
    v.state.registrations.lookup r.installationID = some row →
    queuedFor v.hist r row.userID
  inHand : ∀ {pid r row}, r ∈ (flushPhase v.hist pid).records →
    v.state.registrations.lookup r.installationID = some row →
    queuedFor v.hist r row.userID

theorem exec_user (hexec : exec env e.op x v.state = some (e.ans, s)) (hsame : sameUser v e)
    (hrow : s.registrations.lookup iid = some row) :
    (∃ row0, v.state.registrations.lookup iid = some row0 ∧
        row0.userID = row.userID) ∨
      readyFor iid row.userID v ∧ s.deliveries = v.state.deliveries := by
  rw [exec_registrations hexec] at hrow
  have hdels := exec_deliveries hexec
  generalize hop : e.op = op at hrow hdels
  cases op with
  | registration =>
    rcases execRegistration_lookup hrow with hrow | ⟨reg, rfl, rfl, rfl⟩
    · exact .inl ⟨row, hrow, rfl⟩
    · unfold sameUser at hsame
      rw [hop] at hsame
      rcases Bool.or_eq_true_iff.mp hsame with hany | hready
      · obtain ⟨row0, hrow0, huser⟩ := (Option.any_eq_true _ _).mp hany
        exact .inl ⟨row0, hrow0, beq_iff_eq.mp huser⟩
      · exact .inr ⟨hready, hdels⟩
  | _ => exact .inl ⟨row, hrow, rfl⟩

theorem storedRow_payload (env : Env) (now : Time) (r : DeliveryRecord) :
    deliveryPayload (storedRow env now r) = deliveryPayload r := by
  unfold storedRow
  cases env.backend <;> rfl

theorem deliver_of_enqueue (hapart : e.task.apart) (hwithin : e.task.effects.contains e.op.effect)
    (hop : e.op = .delivery (.enqueue r)) :
    ∃ reg note, e.task = .deliver reg note := by
  rw [hop] at hwithin
  generalize e.task = t at hapart hwithin
  cases t with
  | deliver reg note => exact ⟨reg, note, rfl⟩
  | adminPush => cases hapart
  | selfTest => cases hapart
  | event => cases hapart
  | _ => cases hwithin

theorem queuedFor_enqueue {now : Time} (hok : Admitted env v e) (hapart : e.task.apart)
    (hwithin : e.task.effects.contains e.op.effect) (hsame : sameUser v e)
    (hop : e.op = .delivery (.enqueue r))
    (hrow : v.state.registrations.lookup r.installationID = some row) :
    queuedFor (e :: hist) (storedRow env now r) row.userID := by
  obtain ⟨reg, note, htask⟩ := deliver_of_enqueue hapart hwithin hop
  have hrec : r.installationID = reg.installationID := by
    rw [Admitted, hop] at hok
    obtain ⟨-, deliveryID, now', reg', notification', rfl, hsnapshot⟩ := hok.apart_inv rfl
    rw [hsnapshot reg note htask]
    rfl
  have hbelongs : belongsTo reg.installationID reg.userID v.state := by
    unfold sameUser at hsame
    rw [hop, htask] at hsame
    exact hsame
  have huser : row.userID = reg.userID := by
    unfold belongsTo at hbelongs
    rw [← hrec, hrow] at hbelongs
    exact beq_iff_eq.mp hbelongs
  unfold queuedFor
  rw [any_cons, Bool.or_eq_true]
  refine .inl ?_
  unfold queues
  rw [hop, htask]
  simp [storedRow_id, storedRow_installationID, storedRow_payload, hrec, huser]

theorem Bound.of_marks (hb : Bound v) (hv : Orderly v)
    (hok : Admitted env v e) (hop : e.op = .delivery call)
    (hcall : (∃ sentAt, call = .markSent id sentAt) ∨
      ∃ failure failedAt, call = .markFailed id failure failedAt)
    (hr : v.state.deliveries.records.lookup id = some r)
    (hrow : v.state.registrations.lookup r.installationID = some row) :
    queuedFor v.hist r row.userID := by
  rw [Admitted, hop] at hok
  obtain ⟨r1, hr1, rfl⟩ := hok.marks hcall
  obtain ⟨hsame, hn⟩ := (hv.inHand hr1).2 r hr
  rw [hsame.1] at hrow
  exact queuedFor_congr (hv.consistent.keyed hr) hsame hn (hb.inHand hr1 hrow)

theorem Bound.of_touch (hb : Bound v) (hv : Orderly v) (hok : Admitted env v e)
    (hop : e.op = .delivery call) (hr : v.state.deliveries.records.lookup id = some r)
    (htouch : Touch v.state.deliveries call id r r') (hlive : live r')
    (hrow : v.state.registrations.lookup r'.installationID = some row) :
    queuedFor v.hist r' row.userID := by
  rw [htouch.installationID_eq] at hrow
  refine queuedFor_congr htouch.id_eq htouch.same htouch.notification_eq ?_
  cases htouch with
  | keep => exact hb.queue hr hlive hrow
  | sent => exact hb.of_marks hv hok hop (.inl ⟨_, rfl⟩) hr hrow
  | failed => exact hb.of_marks hv hok hop (.inr ⟨_, _, rfl⟩) hr hrow
  | _ => cases hlive

theorem queuedFor_of_readyFor (h : readyFor r.installationID uid v)
    (hr : v.state.deliveries.records.lookup id = some r) (hlive : live r) :
    queuedFor v.hist r uid := by
  unfold readyFor at h
  have hrow := all_eq_true.mp (Bool.and_eq_true_iff.mp h).2 r (Table.mem_rows_of_lookup hr)
  simpa [hlive] using hrow

theorem Bound.after (hb : Bound v) (hv : Orderly v)
    (hexec : exec env e.op x v.state = some (e.ans, s)) (hok : Admitted env v e)
    (hapart : e.task.apart) (hwithin : e.task.effects.contains e.op.effect) (hsame : sameUser v e) :
    Bound (v.after e s) where
  queue := by
    intro id r' row hr' hlive hrow
    rw [View.after_hist]
    rcases exec_user hexec hsame hrow with ⟨row0, hrow0, huser⟩ | ⟨hready, hdels⟩
    · rw [← huser]
      rcases exec_touch hexec hr' with hr' | ⟨call, r, hop, hr, htouch⟩ | ⟨record, hop, -, rfl⟩
      · exact queuedFor_cons (hb.queue hr' hlive hrow0)
      · exact queuedFor_cons (hb.of_touch hv hok hop hr htouch hlive hrow0)
      · rw [storedRow_installationID] at hrow0
        exact queuedFor_enqueue hok hapart hwithin hsame hop hrow0
    · rw [View.after_state, hdels] at hr'
      exact queuedFor_cons (queuedFor_of_readyFor hready hr' hlive)
  inHand := by
    intro pid r row hr hrow
    rw [View.after_hist]
    refine queuedFor_cons ?_
    have hlive : ∀ r, r.status ≠ .acked ∧ r.status ≠ .dead → live r := by
      intro r h
      simp [live, h.1, h.2]
    rcases exec_user hexec hsame hrow with ⟨row0, hrow0, huser⟩ | ⟨hready, -⟩
    · rw [← huser]
      rcases records_after hok hr with hr | hr
      · exact hb.inHand hr hrow0
      · obtain ⟨-, id, hid, hstatus⟩ := exec_returned hexec hr
        exact hb.queue hid (hlive r hstatus) hrow0
    · rcases records_after hok hr with hr | hr
      · -- the installation is being flushed, so it is not ready for another user
        have hlock := (hv.exclusive pid r.installationID ((hv.sane pid).holds hr)).1
        simp [readyFor, hlock] at hready
      · obtain ⟨-, id, hid, hstatus⟩ := exec_returned hexec hr
        exact queuedFor_of_readyFor hready hid (hlive r hstatus)

/-! ## Handing over -/

/-- The installation and notification that a call hands over. -/
def handed : Call → Option (String × Notification)
  | .hub (.send installationID message) => message.payload.map (installationID, ·)
  | .env (.sendPush registration payload) => some (registration.installationID, payload)
  | _ => none

/-- The notification was queued for the user at the installation. -/
def EnqueuedFor (hist : List ServerEvent) (iid uid : String) (payload : Notification) : Prop :=
  ∃ e ∈ hist, ∃ r reg note,
    e.op = .delivery (.enqueue r) ∧ e.task = .deliver reg note ∧
      reg.installationID = iid ∧ reg.userID = uid ∧
      deliveryPayload r = payload

theorem enqueuedFor_of_queuedFor (h : queuedFor hist r uid) :
    EnqueuedFor hist r.installationID uid (deliveryPayload r) := by
  obtain ⟨e, he, hqueues⟩ := any_eq_true.mp h
  unfold queues at hqueues
  split at hqueues
  · rename_i record reg note hop htask
    simp only [Bool.and_eq_true, beq_iff_eq] at hqueues
    obtain ⟨⟨⟨-, hi⟩, hu⟩, hp⟩ := hqueues
    exact ⟨e, he, record, reg, note, hop, htask, hi, hu, hp⟩
  · cases hqueues

theorem Allowed.handed_inv {t : Task} {phase : FlushPhase} {call : Call}
    (h : Allowed env t phase call) (hsane : phase.Sane)
    (hhanded : handed call = some (iid, payload)) :
    ∃ r ∈ phase.records, r.installationID = iid ∧ deliveryPayload r = payload := by
  cases h with
  | apart hapart =>
    unfold handed at hhanded
    split at hhanded
    · exact absurd rfl hapart
    · exact absurd rfl hapart
    · cases hhanded
  | send flushed record =>
    cases hhanded
    exact ⟨record, mem_cons_self, hsane.2.1 record mem_cons_self, rfl⟩
  | push flushed record =>
    cases hhanded
    refine ⟨record, mem_cons_self, ?_, rfl⟩
    rw [hsane.2.1 record mem_cons_self, hsane.1]
  | _ => cases hhanded

theorem registrations_of_handed {call : Call} {a : call.Ans} {w' : World}
    {p : String × Notification} (h : exec env call x w = some (a, w'))
    (hhanded : handed call = some p) : w'.registrations = w.registrations := by
  rw [exec_registrations h]
  cases call with
  | registration => cases hhanded
  | _ => rfl

/-- Fresh ids, and no change of user. -/
def SameUser : ServerCondition := fun v e => freshID v e = true ∧ sameUser v e = true

/-- **Notifications do not cross users**, where an installation changes its user only when nothing
queued for another is left: a notification that is handed over was queued for the installation and
the user that its registration has now. -/
theorem handed_to_own_user {c : ServerConfiguration} {hist : List ServerEvent} {row : Registration}
    (hw : Opening w)
    (h : (server env fun _ t => t.apart).Steps SameUser (started w) c) (hhist : c.hist = e :: hist)
    (hhanded : handed e.op = some (iid, payload))
    (hrow : c.state.registrations.lookup iid = some row) :
    EnqueuedFor hist iid row.userID payload := by
  have hapart : (server env fun _ t => t.apart).Ensures (started w)
      (fun v e => SameUser v e ∧ e.task.effects.contains e.op.effect = true) fun v e =>
        (SameUser v e ∧ e.task.effects.contains e.op.effect) ∧ e.task.apart := by
    refine System.ensures_admitted (M := fun _ (t : Task) => t.apart = true) ?_ ?_ rfl
    · exact fun _ _ h => h
    · exact fun _ _ _ _ h => h
  have hens := (ensures_within.trans hapart).trans (ensures_orderly (fun _ _ h => h.1.1.1) hw)
  -- the users are kept apart, and the newest call hands over only what is for the user
  let I : ServerView → Prop := fun v => Bound v ∧
    ∀ e hist iid payload row, v.hist = e :: hist →
      handed e.op = some (iid, payload) →
      v.state.registrations.lookup iid = some row →
      EnqueuedFor hist iid row.userID payload
  have h0 : I (started w).toView := by
    refine ⟨⟨fun {id r row} hr => ?_, fun {pid r row} hr => ?_⟩, ?_⟩
    · have hqueue : (started w).state.deliveries.records = ∅ := hw.queue
      rw [hqueue] at hr
      cases hr
    · cases hr
    · intro e hist iid payload row hhist
      cases hhist
  have hc : I c.toView := by
    refine (hens.steps .refl h).view_invariant ?_ h0
    rintro v e x s ⟨hb, -⟩ hexec ⟨⟨⟨⟨hsame, hwithin⟩, hapart⟩, hallowed⟩, hv⟩
    refine ⟨hb.after hv hexec hallowed hapart hwithin hsame.2, ?_⟩
    intro e' hist iid payload row hhist hhanded hrow
    cases hhist
    rw [View.after_state, registrations_of_handed hexec hhanded] at hrow
    obtain ⟨r, hr, rfl, rfl⟩ := hallowed.handed_inv (hv.sane e.pid) hhanded
    exact enqueuedFor_of_queuedFor (hb.inHand hr hrow)
  exact hc.2 e hist iid payload row hhist hhanded hrow

/-- The latest handover. -/
def newestHanded (c : ServerConfiguration) : Option (String × Notification) × Option String :=
  (c.hist.head?.bind fun e => handed e.op, (c.state.registrations.lookup "phone").map (·.userID))

/-- A notification. -/
def greeting : Notification := { eventID := "e", title := "hello", createdAtEpochMillis := 1 }

theorem greeting_reaches_own_user : Opening phoneOnline ∧ ∀ backend : Backend, ∃ c e hist row,
    (server (.sample backend) fun _ t => t.apart).Steps SameUser (started phoneOnline) c ∧
      c.hist = e :: hist ∧ handed e.op = some ("phone", { greeting with type := "generic" }) ∧
      c.state.registrations.lookup "phone" = some row ∧
      EnqueuedFor hist "phone" row.userID { greeting with type := "generic" } := by
  refine ⟨phoneOnline_opening, fun backend => ?_⟩
  have hplay : ((server (.sample backend) fun _ t => t.apart).play
      (fun v e => freshID v e && sameUser v e)
      (start (.deliver phone greeting) ++ calls 0 8 { token := some "1" })
      (started phoneOnline)).map newestHanded =
        some (some ("phone", { greeting with type := "generic" }), some "7") := by
    cases backend <;> decide
  obtain ⟨c, hrun, hres⟩ := System.play_map hplay
  simp only [newestHanded, Prod.mk.injEq, Option.bind_eq_some_iff, Option.map_eq_some_iff]
    at hres
  obtain ⟨⟨e, hhead, hhanded⟩, row, hrow, -⟩ := hres
  obtain ⟨hist, hhist⟩ := List.head?_eq_some_iff.mp hhead
  have hmono : (server (.sample backend) fun _ t => t.apart).Steps SameUser
      (started phoneOnline) c := by
    refine hrun.mono fun v e h => ?_
    simpa only [SameUser, Bool.and_eq_true] using h
  exact ⟨c, e, hist, row, hmono, hhist, hhanded, hrow,
    handed_to_own_user phoneOnline_opening hmono hhist hhanded hrow⟩

/-- The phone of user `7`, offline, was signed in as user `8`. -/
def phoneShared : World :=
  { registrations := AList.insert "phone" phone ∅
    auth :=
      { credentials := AList.insert "c8"
          { id := "c8", clientID := "client", userID := "8", accessToken := "a"
            refreshToken := "r", accessExpiresAt := 24 * hour, lastValidatedAt := 1
            updatedAt := 1 } ∅
        sessions := AList.insert "#s8"
          { credentialID := "c8", installationID := "phone", deviceHash := "#" ++ phoneSecret
            createdAt := 1, expiresAt := 24 * hour } ∅ } }

theorem phoneShared_opening : Opening phoneShared :=
  ⟨rfl, phone_registered⟩

/-- The user of a delivery. -/
def deliversTo : Task → Option String
  | .deliver registration _ => some registration.userID
  | _ => none

/-- A notification for user `7` is queued. The phone is registered for user `8`, connects, and gets
it. -/
theorem greeting_reaches_other_user : Opening phoneShared ∧ ∀ backend : Backend, ∃ c e hist payload,
    (server (.sample backend) fun _ t => t.apart).Steps (fun v e => freshID v e = true)
        (started phoneShared) c ∧
      c.hist = e :: hist ∧ handed e.op = some ("phone", payload) ∧
      (c.state.registrations.lookup "phone").map (·.userID) = some "8" ∧
      ¬ EnqueuedFor hist "phone" "8" payload := by
  refine ⟨phoneShared_opening, fun backend => ?_⟩
  have hplay : ((server (.sample backend) fun _ t => t.apart).play freshID
      (start (.deliver phone greeting) ++ calls 0 9 { token := some "1" } ++
        start (.upsertRegistration "phone"
          { phone with deviceSecret := phoneSecret, deviceSecretHash := "", userID := "" }) ++
        calls 1 14 {} ++
        start (.connect "socket"
          { type := "authenticate", installationID := "phone", deviceSecret := phoneSecret }) ++
        calls 2 9 {}) (started phoneShared)).map (fun c => (newestHanded c,
          c.hist.all fun e => deliversTo e.task != some "8")) =
      some ((some ("phone", { greeting with type := "generic" }), some "8"), true) := by
    cases backend <;> decide
  obtain ⟨c, hrun, hres⟩ := System.play_map hplay
  simp only [newestHanded, Prod.mk.injEq, Option.bind_eq_some_iff] at hres
  obtain ⟨⟨⟨e, hhead, hhanded⟩, huser⟩, hdelivered⟩ := hres
  obtain ⟨hist, hhist⟩ := List.head?_eq_some_iff.mp hhead
  refine ⟨c, e, hist, _, hrun, hhist, hhanded, huser, ?_⟩
  rintro ⟨e', he', r, reg, note, -, htask, -, huser', -⟩
  have hmem : e' ∈ c.hist := by
    rw [hhist]
    exact mem_cons_of_mem _ he'
  have hother := all_eq_true.mp hdelivered e' hmem
  rw [htask] at hother
  exact (bne_iff_ne.mp hother) (congrArg some huser')

end Ferventio
