import Ferventio.Delivery.Tables
import Ferventio.Push.Phase
import Ferventio.Registration.Laws

/-!
# What every run keeps

The invariants of the delivery side of the server, over every interleaving of its tasks.

A delivery identifier is a random token; `freshID` is the assumption that no token is issued twice.
-/

namespace Ferventio

open List

variable {hist : List ServerEvent} {pid : Nat} {iid id : String} {mutex : Mutex} {s w w' : World}
  {env : Env} {x : Choice} {v : ServerView} {e : ServerEvent}

/-! ## Mutual exclusion -/

theorem execEnv_locked {call : EnvCall} {a : call.Ans} (h : execEnv env x call w = some (a, w'))
    (hne : call ≠ .unlock mutex) (hmutex : mutex ∈ w.locked) : mutex ∈ w'.locked := by
  cases call with
  | randomToken =>
    simp only [execEnv] at h
    split at h <;> cases h <;> exact hmutex
  | lock =>
    simp only [execEnv] at h
    split at h <;> cases h
    exact mem_cons_of_mem _ hmutex
  | unlock =>
    cases h
    exact (mem_erase_of_ne fun heq => hne (by rw [heq])).mpr hmutex
  | sendPush =>
    simp only [execEnv] at h
    split at h
    · cases h
      exact hmutex
    · split at h <;> cases h <;> exact hmutex
  | cachedModeratedChannels =>
    simp only [execEnv] at h
    split at h <;> cases h <;> exact hmutex
  | requestEventSubReconcile =>
    simp only [execEnv] at h
    cases h
    split <;> exact hmutex
  | _ =>
    cases h
    exact hmutex

theorem execTwitch_locked (x : Choice) (call : TwitchCall) (w : World) :
    (execTwitch x call w).2.locked = w.locked := by
  cases call with
  | createSubscription =>
    simp only [execTwitch]
    split <;> rfl
  | deleteSubscription =>
    simp only [execTwitch]
    split <;> rfl
  | _ => rfl

variable {call : Call} {a : call.Ans} {phase : FlushPhase} {t : Task} {r : DeliveryRecord}

theorem exec_locked (h : exec env call x w = some (a, w')) (hne : call ≠ .env (.unlock mutex))
    (hmutex : mutex ∈ w.locked) : mutex ∈ w'.locked := by
  cases call with
  | twitch call =>
    have hw' : w' = (execTwitch x call w).2 := (congrArg Prod.snd (Option.some.inj h)).symm
    rw [hw', execTwitch_locked]
    exact hmutex
  | env => exact execEnv_locked h (fun heq => hne (by rw [heq])) hmutex
  | _ =>
    cases h
    exact hmutex

theorem exec_lock {a : Unit} (h : exec env (.env (.lock mutex)) x w = some (a, w')) :
    mutex ∉ w.locked ∧ mutex ∈ w'.locked := by
  simp only [exec, execEnv] at h
  split at h
  · cases h
  · rename_i hfree
    cases h
    exact ⟨hfree, mem_cons_self⟩

/-- The installation whose mutex is held. -/
def FlushPhase.holds : FlushPhase → Option String
  | outside => none
  | locked installationID => some installationID
  | fetching installationID _ => some installationID
  | sending installationID _ _ => some installationID
  | sent installationID _ _ _ => some installationID
  | acking installationID _ _ _ => some installationID
  | failed installationID _ _ => some installationID
  | finished installationID => some installationID

theorem Allowed.holds_next (h : Allowed env t phase call) (answer : call.Ans) :
    (∃ iid, call = .env (.lock (.flush iid)) ∧
        phase.next call answer = .locked iid) ∨
      (∃ iid, call = .env (.unlock (.flush iid)) ∧
        phase.holds = some iid ∧ phase.next call answer = .outside) ∨
      (∀ iid, call ≠ .env (.unlock (.flush iid))) ∧
        (phase.next call answer).holds = phase.holds := by
  cases h with
  | apart hapart =>
    refine .inr (.inr ⟨?_, ?_⟩)
    · rintro iid rfl
      exact hapart.effect_ne rfl
    · rw [next_outside hapart.effect_ne]
  | lock iid => exact .inl ⟨iid, rfl, rfl⟩
  | release iid => exact .inr (.inl ⟨iid, rfl, rfl, rfl⟩)
  | giveUp iid => exact .inr (.inl ⟨iid, rfl, rfl, rfl⟩)
  | get =>
    refine .inr (.inr ⟨by simp, ?_⟩)
    cases answer <;> rfl
  | send =>
    refine .inr (.inr ⟨by simp, ?_⟩)
    cases answer with
    | error =>
      simp only [FlushPhase.next]
      split_ifs <;> rfl
    | ok => rfl
  | push =>
    refine .inr (.inr ⟨by simp, ?_⟩)
    cases answer <;> rfl
  | markSent =>
    refine .inr (.inr ⟨by simp, ?_⟩)
    simp only [FlushPhase.next]
    split_ifs <;> rfl
  | _ => exact .inr (.inr ⟨by simp, rfl⟩)

/-- The process flushes the installation. -/
def Flushing (v : ServerView) (pid : Nat) (iid : String) : Prop :=
  (flushPhase v.hist pid).holds = some iid

/-- **Mutual exclusion**: one process flushes an installation, with its mutex. -/
def Exclusive (v : ServerView) : Prop :=
  ∀ pid iid, Flushing v pid iid →
    Mutex.flush iid ∈ v.state.locked ∧ ∀ pid', Flushing v pid' iid → pid' = pid

theorem Flushing.of_after (hv : Exclusive v) (hok : Admitted env v e)
    (h : Flushing (v.after e s) pid iid) :
    Flushing v pid iid ∧ e.op ≠ .env (.unlock (.flush iid)) ∨
      pid = e.pid ∧ e.op = .env (.lock (.flush iid)) := by
  unfold Flushing at h
  rw [View.after_hist] at h
  by_cases hpid : e.pid = pid
  · subst hpid
    rw [flushPhase_self] at h
    rcases hok.holds_next e.ans with
      ⟨taken, hop, hnext⟩ | ⟨released, hop, hholds, hnext⟩ | ⟨hop, hnext⟩
    · rw [hnext] at h
      cases h
      exact .inr ⟨rfl, hop⟩
    · rw [hnext] at h
      cases h
    · rw [hnext] at h
      exact .inl ⟨h, hop iid⟩
  · rw [flushPhase_other hpid] at h
    refine .inl ⟨h, fun hop => hpid ?_⟩
    -- only the process that holds the mutex releases it
    rcases hok.holds_next e.ans with
      ⟨taken, hop', -⟩ | ⟨released, hop', hholds, -⟩ | ⟨hop', -⟩
    · rw [hop] at hop'
      cases hop'
    · rw [hop] at hop'
      cases hop'
      exact (hv pid iid h).2 e.pid hholds
    · exact absurd hop (hop' iid)

theorem Exclusive.after (hv : Exclusive v) (hexec : exec env e.op x v.state = some (e.ans, s))
    (hok : Admitted env v e) : Exclusive (v.after e s) := by
  have hlock : ∀ iid, e.op = .env (.lock (.flush iid)) →
      Mutex.flush iid ∉ v.state.locked ∧ Mutex.flush iid ∈ s.locked := by
    obtain ⟨pid, t, op, ans⟩ := e
    rintro iid rfl
    exact exec_lock hexec
  intro pid iid h
  rcases h.of_after hv hok with ⟨hpid, hne⟩ | ⟨hpid, hop⟩
  · refine ⟨exec_locked hexec hne (hv pid iid hpid).1, fun pid' h' => ?_⟩
    rcases h'.of_after hv hok with ⟨hpid', -⟩ | ⟨-, hop⟩
    · exact (hv pid iid hpid).2 pid' hpid'
    · exact absurd (hv pid iid hpid).1 (hlock iid hop).1
  · refine ⟨(hlock iid hop).2, fun pid' h' => ?_⟩
    rcases h'.of_after hv hok with ⟨hpid', -⟩ | ⟨hpid', -⟩
    · exact absurd (hv pid' iid hpid').1 (hlock iid hop).1
    · rw [hpid', hpid]

/-! ## Identifiers -/

/-- The ids that were queued. -/
def enqueuedIDs : List ServerEvent → List String
  | [] => []
  | e :: hist =>
    match e.op with
    | .delivery (.enqueue record) => record.id :: enqueuedIDs hist
    | _ => enqueuedIDs hist

/-- The call enqueues no identifier again. -/
def freshID (v : ServerView) (e : ServerEvent) : Bool :=
  match e.op with
  | .delivery (.enqueue record) => !(enqueuedIDs v.hist).contains record.id
  | _ => true

theorem mem_enqueuedIDs_cons (h : id ∈ enqueuedIDs hist) : id ∈ enqueuedIDs (e :: hist) := by
  rw [enqueuedIDs]
  split
  · exact mem_cons_of_mem _ h
  · exact h

theorem mem_enqueuedIDs_enqueue
    (h : e.op = .delivery (.enqueue r)) : r.id ∈ enqueuedIDs (e :: hist) := by
  rw [enqueuedIDs, h]
  exact mem_cons_self

theorem not_mem_of_freshID (h : freshID v e)
    (hop : e.op = .delivery (.enqueue r)) : r.id ∉ enqueuedIDs v.hist := by
  unfold freshID at h
  rw [hop] at h
  simpa using h

/-! ## Queues and batches along a run -/

theorem exec_touch {r' : DeliveryRecord}
    (h : exec env call x w = some (a, w')) (hr : w'.deliveries.records.lookup id = some r') :
    w.deliveries.records.lookup id = some r' ∨
      (∃ delivery r, call = .delivery delivery ∧ w.deliveries.records.lookup id = some r ∧
        Touch w.deliveries delivery id r r') ∨
      ∃ record, call = .delivery (.enqueue record) ∧ id = record.id ∧
        r' = storedRow env x.now record := by
  rw [exec_deliveries h] at hr
  cases call with
  | delivery delivery =>
    rcases execDelivery_touch hr with ⟨r, hr, htouch⟩ | ⟨record, rfl, hid, hrow, -⟩
    · exact .inr (.inl ⟨delivery, r, rfl, hr, htouch⟩)
    · exact .inr (.inr ⟨record, rfl, hid, hrow⟩)
  | _ => exact .inl hr

theorem exec_consistent (h : exec env call x w = some (a, w'))
    (hw : Consistent w.deliveries.records) : Consistent w'.deliveries.records := by
  rw [exec_deliveries h]
  cases call with
  | delivery delivery => exact execDelivery_consistent delivery hw
  | _ => exact hw

/-- The records that a call returns. -/
def returned : (call : Call) → call.Ans → List DeliveryRecord
  | .delivery (.pendingForInstallation _ _ _), records => records
  | _, _ => []

theorem exec_returned (h : exec env call x w = some (a, w')) (hr : r ∈ returned call a) :
    w'.deliveries = w.deliveries ∧ ∃ id, w.deliveries.records.lookup id = some r ∧
      r.status ≠ .acked ∧ r.status ≠ .dead := by
  unfold returned at hr
  split at hr
  · rename_i iid limit now rows
    have hbatch : Batch iid w.deliveries.records
        (execDelivery env x (.pendingForInstallation iid limit now) w.deliveries).1 :=
      execDelivery_pending iid limit now
    cases h
    obtain ⟨id, hid⟩ := hbatch.stored r hr
    exact ⟨execDelivery_pending_state iid limit now, id, hid, hbatch.live r hr⟩
  · cases hr

/-- The records that a flush in a phase has still to mark. -/
def FlushPhase.records : FlushPhase → List DeliveryRecord
  | sending _ _ records => records
  | sent _ _ record records => record :: records
  | acking _ _ _ records => records
  | failed _ record _ => [record]
  | _ => []

theorem Allowed.records_next (h : Allowed env t phase call) (answer : call.Ans)
    (hr : r ∈ (phase.next call answer).records) :
    r ∈ phase.records ∨ r ∈ returned call answer := by
  cases h with
  | apart hapart =>
    rw [next_outside hapart.effect_ne] at hr
    cases hr
  | fetch => exact .inr hr
  | get =>
    cases answer <;> cases hr
  | send =>
    refine .inl ?_
    cases answer with
    | error =>
      simp only [FlushPhase.next] at hr
      split_ifs at hr
      · cases hr
      · obtain rfl := mem_singleton.mp hr
        exact mem_cons_self
    | ok => exact hr
  | push =>
    refine .inl ?_
    cases answer with
    | error =>
      obtain rfl := mem_singleton.mp hr
      exact mem_cons_self
    | ok => exact hr
  | markSent =>
    refine .inl (mem_cons_of_mem _ ?_)
    simp only [FlushPhase.next] at hr
    split_ifs at hr <;> exact hr
  | sentClock => exact .inl hr
  | ack => exact .inl hr
  | failedClock => exact .inl hr
  | _ => cases hr

theorem records_after (hok : Admitted env v e) (hr : r ∈ (flushPhase (e :: v.hist) pid).records) :
    r ∈ (flushPhase v.hist pid).records ∨ r ∈ returned e.op e.ans := by
  by_cases hpid : e.pid = pid
  · subst hpid
    rw [flushPhase_self] at hr
    exact hok.records_next e.ans hr
  · rw [flushPhase_other hpid] at hr
    exact .inl hr

theorem Allowed.marks {call : DeliveryCall} (h : Allowed env t phase (.delivery call))
    (hcall : (∃ sentAt, call = .markSent id sentAt) ∨
      ∃ failure failedAt, call = .markFailed id failure failedAt) :
    ∃ r ∈ phase.records, r.id = id := by
  rcases hcall with ⟨sentAt, rfl⟩ | ⟨failure, failedAt, rfl⟩
  · cases h with
    | apart hapart => exact absurd rfl hapart.effect_ne
    | markSent iid reg record => exact ⟨record, mem_cons_self, rfl⟩
  · cases h with
    | apart hapart => exact absurd rfl hapart.effect_ne
    | markFailed iid record => exact ⟨record, mem_cons_self, rfl⟩

/-- Records of the installation, one for an event. -/
def Own (iid : String) (records : List DeliveryRecord) : Prop :=
  (∀ r ∈ records, r.installationID = iid) ∧ records.Pairwise fun a b => a.eventID ≠ b.eventID

theorem Own.tail {record : DeliveryRecord}
    {rows : List DeliveryRecord} (h : Own iid (record :: rows)) :
    Own iid rows :=
  ⟨fun r hr => h.1 r (mem_cons_of_mem _ hr), (pairwise_cons.mp h.2).2⟩

/-- **What a flush has in hand is its installation's.** -/
def FlushPhase.Sane : FlushPhase → Prop
  | fetching iid reg => reg.installationID = iid
  | sending iid reg records =>
    reg.installationID = iid ∧ Own iid records
  | sent iid reg r records =>
    reg.installationID = iid ∧ Own iid (r :: records)
  | acking iid reg r records =>
    reg.installationID = iid ∧ Own iid (r :: records)
  | failed iid r _ => r.installationID = iid
  | _ => True

theorem FlushPhase.Sane.holds (h : phase.Sane)
    (hr : r ∈ phase.records) : phase.holds = some r.installationID := by
  cases phase with
  | sending => exact congrArg some (h.2.1 r hr).symm
  | sent => exact congrArg some (h.2.1 r hr).symm
  | acking => exact congrArg some (h.2.tail.1 r hr).symm
  | failed =>
    obtain rfl := mem_singleton.mp hr
    exact congrArg some h.symm
  | _ => cases hr

theorem Allowed.sane_next (h : Allowed env t phase call) (hexec : exec env call x w = some (a, w'))
    (hqueue : Consistent w.deliveries.records)
    (hregd : ∀ iid row, w.registrations.lookup iid = some row → row.installationID = iid)
    (hsane : phase.Sane) : (phase.next call a).Sane := by
  cases h with
  | apart hapart =>
    rw [next_outside hapart.effect_ne]
    trivial
  | get iid =>
    have ha : a = (execRegistration env x (.get iid) w.registrations).1 :=
      (congrArg Prod.fst (Option.some.inj hexec)).symm
    cases a with
    | error => trivial
    | ok =>
      obtain ⟨row, hrow, rfl⟩ := execRegistration_get ha.symm
      exact hregd iid row hrow
  | fetch iid reg now =>
    have ha : a = (execDelivery env x (.pendingForInstallation iid 100 now) w.deliveries).1 :=
      (congrArg Prod.fst (Option.some.inj hexec)).symm
    have hbatch : Batch iid w.deliveries.records a := ha ▸ execDelivery_pending iid 100 now
    exact ⟨hsane, hbatch.own, hbatch.distinct hqueue⟩
  | send iid r =>
    cases a with
    | error =>
      simp only [FlushPhase.next]
      split_ifs
      · trivial
      · exact hsane.2.1 r mem_cons_self
    | ok => exact hsane
  | push iid r =>
    cases a with
    | error => exact hsane.2.1 r mem_cons_self
    | ok => exact hsane
  | markSent =>
    simp only [FlushPhase.next]
    split_ifs
    · exact ⟨hsane.1, hsane.2.tail⟩
    · exact hsane
  | ack => exact ⟨hsane.1, hsane.2.tail⟩
  | fetchClock => exact hsane
  | sentClock => exact hsane
  | failedClock => exact hsane
  | _ => trivial

/-! ## The invariant -/

/-- Nothing is queued, and registrations have their own keys. -/
structure Opening (w : World) : Prop where
  queue : w.deliveries.records = ∅
  registered : ∀ iid row, w.registrations.lookup iid = some row →
    row.installationID = iid

/-- What flushes rely on. -/
structure Orderly (v : ServerView) : Prop where
  exclusive : Exclusive v
  consistent : Consistent v.state.deliveries.records
  issued : ∀ {id r}, v.state.deliveries.records.lookup id = some r → id ∈ enqueuedIDs v.hist
  registered : ∀ iid row, v.state.registrations.lookup iid = some row →
    row.installationID = iid
  sane : ∀ pid, (flushPhase v.hist pid).Sane
  /-- A record in hand is still the one that is stored under its identifier, if one is. -/
  inHand : ∀ {pid r}, r ∈ (flushPhase v.hist pid).records → r.id ∈ enqueuedIDs v.hist ∧
    ∀ r', v.state.deliveries.records.lookup r.id = some r' →
      SameDelivery r r' ∧ r'.notification = r.notification

theorem Opening.orderly (h : Opening w) : Orderly (started w).toView where
  exclusive _ _ hflushing := by cases hflushing
  consistent := by
    have hqueue : (started w).state.deliveries.records = ∅ := h.queue
    rw [hqueue]
    exact .empty
  issued hr := by
    have hqueue : (started w).state.deliveries.records = ∅ := h.queue
    rw [hqueue] at hr
    cases hr
  registered := h.registered
  sane _ := trivial
  inHand hr := by cases hr

theorem phone_registered (iid : String) (row : Registration)
    (h : (AList.insert "phone" phone ∅ : RegistrationTable).lookup iid = some row) :
    row.installationID = iid := by
  rw [Table.lookup_insert_eq] at h
  split_ifs at h with hid
  · cases h
    exact hid.symm
  · cases h

theorem phoneOnline_opening : Opening phoneOnline :=
  ⟨rfl, phone_registered⟩

theorem exec_registered (h : exec env call x w = some (a, w'))
    (hw : ∀ iid row, w.registrations.lookup iid = some row →
      row.installationID = iid) (iid : String) (row : Registration)
    (hrow : w'.registrations.lookup iid = some row) :
    row.installationID = iid := by
  rw [exec_registrations h] at hrow
  cases call with
  | registration =>
    rcases execRegistration_lookup hrow with hrow | ⟨written, -, hid, rfl⟩
    · exact hw iid row hrow
    · exact hid.symm
  | _ => exact hw iid row hrow

theorem Orderly.after (hv : Orderly v) (hexec : exec env e.op x v.state = some (e.ans, s))
    (hfresh : freshID v e) (hok : Admitted env v e) : Orderly (v.after e s) where
  exclusive := hv.exclusive.after hexec hok
  consistent := exec_consistent hexec hv.consistent
  issued := by
    intro id r hr
    rcases exec_touch hexec hr with hr | ⟨_, r0, -, hr0, -⟩ | ⟨record, hop, rfl, -⟩
    · exact mem_enqueuedIDs_cons (hv.issued hr)
    · exact mem_enqueuedIDs_cons (hv.issued hr0)
    · exact mem_enqueuedIDs_enqueue hop
  registered := exec_registered hexec hv.registered
  sane := by
    intro pid
    rw [View.after_hist]
    by_cases hpid : e.pid = pid
    · subst hpid
      rw [flushPhase_self]
      exact hok.sane_next hexec hv.consistent hv.registered (hv.sane e.pid)
    · rw [flushPhase_other hpid]
      exact hv.sane pid
  inHand := by
    intro pid r hr
    have hold : r.id ∈ enqueuedIDs v.hist ∧
        ∀ r', v.state.deliveries.records.lookup r.id = some r' →
          SameDelivery r r' ∧ r'.notification = r.notification := by
      rcases records_after hok hr with hr | hr
      · exact hv.inHand hr
      · obtain ⟨-, id, hid, -⟩ := exec_returned hexec hr
        obtain rfl := hv.consistent.keyed hid
        refine ⟨hv.issued hid, fun r' hr' => ?_⟩
        rw [hid] at hr'
        cases hr'
        exact ⟨⟨rfl, rfl⟩, rfl⟩
    refine ⟨mem_enqueuedIDs_cons hold.1, fun r' hr' => ?_⟩
    rcases exec_touch hexec hr' with hr' | ⟨_, r0, -, hr0, htouch⟩ | ⟨record, hop, hid, -⟩
    · exact hold.2 r' hr'
    · obtain ⟨⟨hi, he⟩, hn⟩ := hold.2 r0 hr0
      exact ⟨⟨htouch.installationID_eq.trans hi, htouch.eventID_eq.trans he⟩,
        htouch.notification_eq.trans hn⟩
    · exact absurd (hid ▸ hold.1) (not_mem_of_freshID hfresh hop)

theorem ensures_orderly {may : ServerView → Task → Bool} {G : ServerCondition}
    (hG : ∀ v e, G v e → freshID v e) (hw : Opening w) :
    (server env may).Ensures (started w) G fun v e =>
      (G v e ∧ Admitted env v e) ∧ Orderly v :=
  ensures_allowed.trans (System.ensures_invariant
    (fun _ _ _ _ hv hexec he => hv.after hexec (hG _ _ he.1) he.2) hw.orderly)

end Ferventio
