import Ferventio.Delivery.Tables

/-!
# The capacity of the queue

The queue holds at most `maxDeliveryRecords` records, and acknowledged and dead ones stay in it for
a week. The memory store makes room by deleting finished records; the PostgreSQL store counts every
row before it does anything else.

* **`enqueue_unblocked_iff`**: when finished records do not stand in the way of an `Enqueue`.
-/

namespace Ferventio

open Strings Table List Postgres

variable {r record : DeliveryRecord} {limit : Nat} {t : Table String DeliveryRecord} {now : Time}
  {env : Env} {x : Choice} {s : DeliveryDiskState}

/-! ## Reachable stores -/

/-- The stores that calls lead to. -/
inductive QueueReached (env : Env) : DeliveryDiskState → Prop
  | empty : QueueReached env {}
  | call {s : DeliveryDiskState} (x : Choice) (call : DeliveryCall) (h : QueueReached env s) :
      QueueReached env (execDelivery env x call s).2

theorem QueueReached.consistent (h : QueueReached env s) : Consistent s.records := by
  induction h with
  | empty => exact Consistent.empty
  | call x call _ ih => exact execDelivery_consistent call ih

theorem execDelivery_count_le {call : DeliveryCall} (h : ∀ record, call ≠ .enqueue record) :
    (execDelivery env x call s).2.records.count ≤ s.records.count := by
  refine count_le_of_lookup fun id r hr => ?_
  rcases execDelivery_touch hr with ⟨r0, hr0, -⟩ | ⟨record, hcall, -⟩
  · rw [hr0]
    exact Option.some_ne_none r0
  · exact absurd hcall (h record)

namespace Memory

theorem cleanupLocked_count_le (now : Time) (s : DeliveryDiskState) :
    (cleanupLocked now s).records.count ≤ s.records.count := by
  refine count_le_of_lookup fun id r hr => ?_
  obtain ⟨r0, hr0, -⟩ := cleanupLocked_lookup hr
  rw [hr0]
  exact Option.some_ne_none r0

theorem cleanupLocked_records (now : Time) (h : s.records.count ≤ maxDeliveryRecords) :
    (cleanupLocked now s).records = cleanupRecords now s.records := by
  have hcount : (cleanupRecords now s.records).count ≤ s.records.count := by
    refine (count_select_le _ _).trans ?_
    rw [count_amend]
  simp only [cleanupLocked]
  rw [if_neg (by omega)]

theorem enqueue_count_le (now : Time) (h : s.records.count ≤ maxDeliveryRecords) :
    (enqueue now record s).2.records.count ≤ maxDeliveryRecords := by
  have hclean := (cleanupLocked_count_le now s).trans h
  have hins : ∀ {t : Table String DeliveryRecord}, ¬t.count ≥ maxDeliveryRecords →
      Table.count (t.insert (deliveryDefaults now record).id (deliveryDefaults now record)) ≤
        maxDeliveryRecords := by
    intro t ht
    have hle := count_insert_le t (deliveryDefaults now record).id
      (deliveryDefaults now record)
    omega
  simp only [enqueue]
  split
  · exact hclean
  · split_ifs with hblank hfull hstill
    · exact hclean
    · refine le_trans (count_le_of_lookup fun id r hr => ?_) hclean
      rw [trimKeys_lookup hr]
      exact Option.some_ne_none r
    · exact hins hstill
    · exact hins hfull

theorem trimKeys_lookup_none {α : Type} {keys : List String} {t : Table String α}
    (h : limit < (trimKeys limit keys t).count) {key : String} (hkey : key ∈ keys) :
    (trimKeys limit keys t).lookup key = none := by
  induction keys generalizing t with
  | nil => cases hkey
  | cons first keys ih =>
    rw [trimKeys] at h ⊢
    split_ifs at h ⊢ with hcount
    · omega
    · rcases mem_cons.mp hkey with rfl | hkey
      · by_contra hne
        obtain ⟨v, hv⟩ := Option.ne_none_iff_exists'.mp hne
        have herase := trimKeys_lookup hv
        rw [AList.lookup_erase] at herase
        cases herase
      · exact ih h hkey

end Memory

variable (env) in
theorem execDelivery_bounded (hb : env.backend = .memory) (call : DeliveryCall)
    (h : s.records.count ≤ maxDeliveryRecords) :
    (execDelivery env x call s).2.records.count ≤ maxDeliveryRecords := by
  by_cases hcall : ∃ record, call = .enqueue record
  · obtain ⟨record, rfl⟩ := hcall
    rw [execDelivery, hb]
    exact Memory.enqueue_count_le x.now h
  · exact (execDelivery_count_le fun record h => hcall ⟨record, h⟩).trans h

theorem QueueReached.bounded (hb : env.backend = .memory) (h : QueueReached env s) :
    s.records.count ≤ maxDeliveryRecords := by
  induction h with
  | empty => exact Nat.zero_le _
  | call x call _ ih => exact execDelivery_bounded env hb call ih

/-! ## What stands in the way -/

/-- The queue after its cleanup. -/
def cleaned (env : Env) (now : Time) (s : DeliveryDiskState) : Table String DeliveryRecord :=
  match env.backend with
  | .memory => Memory.cleanupRecords now s.records
  | .postgres => cleanupDeliveriesTx now s.records

theorem cleaned_lookup {id : String} (h : (cleaned env now s).lookup id = some r) :
    ∃ r0, s.records.lookup id = some r0 ∧ SameDelivery r0 r ∧ r.id = r0.id := by
  have hexp : ∃ r0, s.records.lookup id = some r0 ∧ r = expireDelivery now r0 := by
    unfold cleaned at h
    split at h
    · exact Memory.cleanupRecords_lookup h
    · exact cleanupDeliveriesTx_lookup h
  obtain ⟨r0, hr0, rfl⟩ := hexp
  have htouch : Touch s (.cleanup now) id r0 (expireDelivery now r0) :=
    expireDelivery_touch now (.cleanup now) r0
  exact ⟨r0, hr0, htouch.same, htouch.id_eq⟩

theorem cleaned_consistent (h : Consistent s.records) : Consistent (cleaned env now s) where
  keyed hr := by
    obtain ⟨r0, hr0, -, hid⟩ := cleaned_lookup hr
    rw [hid, h.keyed hr0]
  unique h1 h2 hsame := by
    obtain ⟨r1, hr1, hsame1, -⟩ := cleaned_lookup h1
    obtain ⟨r2, hr2, hsame2, -⟩ := cleaned_lookup h2
    refine h.unique hr1 hr2 ⟨?_, ?_⟩
    · rw [← hsame1.1, ← hsame2.1, hsame.1]
    · rw [← hsame1.2, ← hsame2.2, hsame.2]

/-- The deliveries that are not completed. -/
def liveCount (t : Table String DeliveryRecord) : Nat :=
  (t.select fun _ r => !Memory.completed r).count

/-- The error of a full queue. -/
def queueFull : GoError := .plain "delivery queue is full"

/-- The record has all its identifiers. -/
def WellFormed (record : DeliveryRecord) : Prop :=
  trimSpace record.id ≠ "" ∧ trimSpace record.eventID ≠ "" ∧ trimSpace record.installationID ≠ ""

/-- **Finished records do not stand in the way**: a duplicate is returned, and the queue is full
only of unfinished ones. -/
structure Unblocked (env : Env) (x : Choice) (record : DeliveryRecord) (s : DeliveryDiskState) :
    Prop where
  duplicate : ∀ r ∈ (cleaned env x.now s).rows, SameDelivery record r →
    (execDelivery env x (.enqueue record) s).1 = .ok (r, false)
  full : (execDelivery env x (.enqueue record) s).1 = .error queueFull →
    maxDeliveryRecords ≤ liveCount (cleaned env x.now s)

/-- A record of the same installation and event. -/
def findDuplicate (record : DeliveryRecord) (t : Table String DeliveryRecord) :
    Option DeliveryRecord :=
  t.rows.find? fun existing =>
    existing.installationID == record.installationID && existing.eventID == record.eventID

theorem findDuplicate_eq_none_iff :
    findDuplicate record t = none ↔ ∀ r ∈ t.rows, ¬SameDelivery record r := by
  simp only [findDuplicate, List.find?_eq_none, Bool.and_eq_true, beq_iff_eq, SameDelivery]

theorem findDuplicate_eq (ht : Consistent t)
    (hr : r ∈ t.rows) (hsame : SameDelivery record r) : findDuplicate record t = some r := by
  cases hfind : findDuplicate record t with
  | none => exact absurd hsame (findDuplicate_eq_none_iff.mp hfind r hr)
  | some r' =>
    -- both records are the one that the queue has for the event
    have hsame' : SameDelivery record r' := by
      have hmatch := List.find?_some hfind
      simpa only [Bool.and_eq_true, beq_iff_eq, SameDelivery] using hmatch
    obtain ⟨id, hid⟩ := mem_rows_iff.mp hr
    obtain ⟨id', hid'⟩ := mem_rows_iff.mp (mem_of_find?_eq_some hfind)
    have heq : id = id' := by
      refine ht.unique hid hid' ⟨?_, ?_⟩
      · rw [hsame'.1, hsame.1]
      · rw [hsame'.2, hsame.2]
    subst heq
    rw [hid] at hid'
    cases hid'
    rfl

/-! ## The memory store -/

namespace Memory

theorem trimmed_live (ht : Consistent t)
    (h : limit < (trimCompletedDeliveriesLocked limit t).count) :
    (trimCompletedDeliveriesLocked limit t).count ≤ liveCount t := by
  refine count_le_of_lookup fun id r hr => ?_
  have hstored := trimKeys_lookup hr
  have hlive : completed r = false := by
    by_contra hdone
    have hkey : id ∈ ((t.rows.filter completed).insertionSort
        fun a b => a.createdAt ≤ b.createdAt).map (·.id) := by
      refine mem_map.mpr ⟨r, ?_, ht.keyed hstored⟩
      rw [mem_insertionSort, mem_filter]
      exact ⟨mem_rows_of_lookup hstored, Bool.not_eq_false _ ▸ hdone⟩
    have hnone := trimKeys_lookup_none h hkey
    rw [trimCompletedDeliveriesLocked, hnone] at hr
    cases hr
  rw [lookup_select, hstored, Option.filter_some, if_pos (by rw [hlive]; rfl)]
  exact Option.some_ne_none r

theorem enqueue_answer (now : Time) (h : s.records.count ≤ maxDeliveryRecords) :
    (∃ r, findDuplicate record (cleanupRecords now s.records) = some r ∧
        (enqueue now record s).1 = .ok (r, false)) ∨
      findDuplicate record (cleanupRecords now s.records) = none ∧
        ((enqueue now record s).1 = .error queueFull →
          maxDeliveryRecords ≤ (trimCompletedDeliveriesLocked (maxDeliveryRecords - 1)
            (cleanupRecords now s.records)).count) := by
  have hrows := cleanupLocked_records now h
  simp only [enqueue, hrows]
  cases hfind : findDuplicate record (cleanupRecords now s.records) with
  | some r =>
    rw [findDuplicate] at hfind
    rw [hfind]
    exact .inl ⟨r, rfl, rfl⟩
  | none =>
    rw [findDuplicate] at hfind
    rw [hfind]
    refine .inr ⟨rfl, fun hans => ?_⟩
    dsimp only at hans
    split_ifs at hans with hblank hfull hstill hstill
    · exact absurd (GoError.plain.inj (Except.error.inj hans)) (by decide)
    · exact hstill
    · rw [hrows] at hstill
      exact absurd hstill hfull

end Memory

theorem unblocked_memory (hb : env.backend = .memory) (hs : QueueReached env s) :
    Unblocked env x record s := by
  have hclean : cleaned env x.now s = Memory.cleanupRecords x.now s.records := by
    rw [cleaned, hb]
  have hexec : (execDelivery env x (.enqueue record) s).1 = (Memory.enqueue x.now record s).1 := by
    rw [execDelivery, hb]
    rfl
  have hcons : Consistent (Memory.cleanupRecords x.now s.records) := by
    rw [← hclean]
    exact cleaned_consistent hs.consistent
  constructor
  · intro r hr hsame
    rw [hclean] at hr
    have hfind := findDuplicate_eq hcons hr hsame
    rw [hexec]
    rcases Memory.enqueue_answer x.now (hs.bounded hb) with ⟨r', hfind', hans⟩ | ⟨hnone, -⟩
    · rw [hfind] at hfind'
      cases hfind'
      exact hans
    · rw [hfind] at hnone
      cases hnone
  · intro hans
    rw [hexec] at hans
    rw [hclean]
    rcases Memory.enqueue_answer x.now (hs.bounded hb) with ⟨r, -, hok⟩ | ⟨-, hfull⟩
    · rw [hok] at hans
      cases hans
    · have hcount := hfull hans
      have hlt : maxDeliveryRecords - 1 < maxDeliveryRecords := by decide
      exact hcount.trans (Memory.trimmed_live hcons (Nat.lt_of_lt_of_le hlt hcount))

/-! ## The PostgreSQL store -/

namespace Postgres

theorem enqueue_answer (now : Time) (hrow : WellFormed record) :
    (maxDeliveryRecords ≤ (cleanupDeliveriesTx now s.records).count ∧
        (enqueue now record s).1 = .error queueFull) ∨
      (cleanupDeliveriesTx now s.records).count < maxDeliveryRecords ∧
        (enqueue now record s).1 ≠ .error queueFull ∧
        ∀ r, findDuplicate record (cleanupDeliveriesTx now s.records) = some r →
          (enqueue now record s).1 = .ok (r, false) := by
  obtain ⟨hid, hevent, hiid⟩ := hrow
  have hids : ¬(trimSpace record.id = "" ∨ trimSpace record.eventID = "" ∨
      trimSpace record.installationID = "") := by
    simp only [hid, hevent, hiid, or_self, not_false_eq_true]
  by_cases hcount : (cleanupDeliveriesTx now s.records).count ≥ maxDeliveryRecords
  · refine .inl ⟨hcount, ?_⟩
    rw [enqueue, if_neg hids, if_pos hcount]
    rfl
  · refine .inr ⟨Nat.lt_of_not_le hcount, ?_⟩
    rw [enqueue, if_neg hids, if_neg hcount]
    change _ ∧ ∀ r, (cleanupDeliveriesTx now s.records).rows.find? _ = some r → _
    split
    · rename_i r hfind
      refine ⟨by rintro ⟨⟩, fun r' hr' => ?_⟩
      have heq : some r = some r' := hfind.symm.trans hr'
      rw [Option.some.inj heq]
    · rename_i hfind
      refine ⟨?_, fun r' hr' => absurd (hfind.symm.trans hr') (by simp)⟩
      split_ifs <;> rintro ⟨⟩

end Postgres

theorem execDelivery_answered (hb : env.backend = .postgres) (hfault : x.fault = none)
    (call : DeliveryCall) : execDelivery env x call s = answerDelivery x call s := by
  rw [execDelivery, hb]
  simp only [Postgres.execDelivery, withFault, hfault]

theorem unblocked_postgres_iff (hb : env.backend = .postgres) (hs : Consistent s.records)
    (hfault : x.fault = none) (hrow : WellFormed record) :
    Unblocked env x record s ↔
      (cleaned env x.now s).count < maxDeliveryRecords ∨
        (∀ r ∈ (cleaned env x.now s).rows, ¬SameDelivery record r) ∧
          maxDeliveryRecords ≤ liveCount (cleaned env x.now s) := by
  have hclean : cleaned env x.now s = cleanupDeliveriesTx x.now s.records := by
    rw [cleaned, hb]
  have hcons : Consistent (cleaned env x.now s) := cleaned_consistent hs
  have hexec : (execDelivery env x (.enqueue record) s).1 = (enqueue x.now record s).1 := by
    rw [execDelivery_answered hb hfault, answerDelivery]
  have hans := enqueue_answer (s := s) x.now hrow
  rw [← hclean, ← hexec] at hans
  rcases hans with ⟨hcount, hfull⟩ | ⟨hcount, hnotFull, hdup⟩
  · -- the table counts as full: every `Enqueue` is refused
    constructor
    · intro h
      refine .inr ⟨fun r hr hsame => ?_, h.full hfull⟩
      have hok := h.duplicate r hr hsame
      rw [hfull] at hok
      cases hok
    · rintro (hlt | ⟨hnew, hlive⟩)
      · omega
      · exact ⟨fun r hr hsame => absurd hsame (hnew r hr), fun _ => hlive⟩
  · refine iff_of_true ⟨fun r hr hsame => ?_, fun h => absurd h hnotFull⟩ (.inl hcount)
    exact hdup r (findDuplicate_eq hcons hr hsame)

/-- **Finished deliveries never block new ones** in memory. In PostgreSQL they do not exactly when
the table is below its capacity, or the record is new and the capacity is taken by unfinished
records. -/
theorem enqueue_unblocked_iff (hs : QueueReached env s) (hfault : x.fault = none)
    (hrec : WellFormed record) :
    Unblocked env x record s ↔
      env.backend = .memory ∨ (cleaned env x.now s).count < maxDeliveryRecords ∨
        (∀ r ∈ (cleaned env x.now s).rows, ¬SameDelivery record r) ∧
          maxDeliveryRecords ≤ liveCount (cleaned env x.now s) := by
  cases hb : env.backend with
  | memory => exact iff_of_true (unblocked_memory hb hs) (.inl rfl)
  | postgres =>
    rw [unblocked_postgres_iff hb hs.consistent hfault hrec]
    simp only [reduceCtorEq, false_or]

/-! ## A queue full of acknowledged records -/

/-- The letter `e`, `n + 1` times. -/
def deliveryName (n : Nat) : String := String.ofList (List.replicate (n + 1) 'e')

theorem deliveryName_injective : Function.Injective deliveryName := by
  intro m n h
  have hlist : List.replicate (m + 1) 'e' = List.replicate (n + 1) 'e' := by
    simpa only [deliveryName, String.toList_ofList] using congrArg String.toList h
  have hlen := congrArg List.length hlist
  simp only [length_replicate] at hlen
  omega

/-- A delivery with a number. -/
def nthDelivery (n : Nat) : DeliveryRecord :=
  { id := deliveryName n, eventID := deliveryName n, installationID := "phone", notification := {} }

theorem nthDelivery_wellFormed (n : Nat) : WellFormed (nthDelivery n) := by
  have hname : trimSpace (deliveryName n) ≠ "" := by
    rw [Ne, trimSpace_eq_empty_iff, deliveryName, String.toList_ofList]
    intro h
    exact absurd (h 'e' (mem_replicate.mpr ⟨by omega, rfl⟩)) (by decide)
  have hphone : trimSpace "phone" ≠ "" := by decide
  exact ⟨hname, hname, hphone⟩

/-- A queue with one delivery. -/
def oneQueued : DeliveryDiskState :=
  (execDelivery .pg {} (.enqueue (nthDelivery 0)) {}).2

theorem oneQueued_unblocked :
    oneQueued.records.count = 1 ∧ Unblocked .pg {} (nthDelivery 0) oneQueued := by
  refine ⟨by decide, (enqueue_unblocked_iff ?_ rfl (nthDelivery_wellFormed 0)).mpr ?_⟩
  · exact .call {} (.enqueue (nthDelivery 0)) .empty
  · exact .inr (.inl (by decide))

/-- The queue holds the first `n` deliveries, all acknowledged. -/
structure AllAcked (n : Nat) (s : DeliveryDiskState) : Prop where
  count : s.records.count = n
  acked : ∀ {id r}, s.records.lookup id = some r → r.status = .acked ∧ r.ackedAt = 1 ∧
    r.installationID = "phone" ∧ r.eventID = id ∧ ∃ i < n, id = deliveryName i
  stored : ∀ i < n, s.records.lookup (deliveryName i) ≠ none

namespace AllAcked

variable {n : Nat}

theorem cleaned_eq (h : AllAcked n s) : cleanupDeliveriesTx 1 s.records = s.records := by
  have hexpire : (s.records.amend fun _ => expireDelivery 1) = s.records := by
    refine amend_eq_self fun id r hr => ?_
    rw [expireDelivery, if_neg]
    exact fun hexp => hexp.2 (h.acked hr).1
  rw [cleanupDeliveriesTx, hexpire]
  refine select_eq_self fun id r hr => ?_
  obtain ⟨hacked, hackedAt, -⟩ := h.acked hr
  rw [staleDelivery, hacked, hackedAt]
  rfl

theorem lookup_next (h : AllAcked n s) : s.records.lookup (deliveryName n) = none := by
  by_contra hne
  obtain ⟨r, hr⟩ := Option.ne_none_iff_exists'.mp hne
  obtain ⟨-, -, -, -, i, hi, hname⟩ := h.acked hr
  exact absurd (deliveryName_injective hname) (Nat.ne_of_gt hi)

theorem next_is_new (h : AllAcked n s) : ∀ r ∈ s.records.rows, ¬SameDelivery (nthDelivery n) r := by
  intro r hr hsame
  obtain ⟨id, hid⟩ := mem_rows_iff.mp hr
  have hname : r.eventID = deliveryName n := hsame.2
  rw [← (h.acked hid).2.2.2.1, hname, h.lookup_next] at hid
  cases hid

theorem enqueue_next (h : AllAcked n s) (hn : n < maxDeliveryRecords) :
    enqueue 1 (nthDelivery n) s =
      (.ok (deliveryRow (deliveryDefaults 1 (nthDelivery n)), true),
        { s with
          records := s.records.insert (deliveryName n)
            (deliveryRow (deliveryDefaults 1 (nthDelivery n))) }) := by
  obtain ⟨hid, hevent, hiid⟩ := nthDelivery_wellFormed n
  rw [enqueue, if_neg (by simp only [hid, hevent, hiid, or_self,
    not_false_eq_true]), h.cleaned_eq, if_neg (by rw [h.count]; omega)]
  have hfind : (s.records.rows.find? fun existing =>
      existing.installationID == (deliveryDefaults 1 (nthDelivery n)).installationID &&
        existing.eventID == (deliveryDefaults 1 (nthDelivery n)).eventID) = none :=
    findDuplicate_eq_none_iff.mpr h.next_is_new
  have hget : s.records.lookup (deliveryDefaults 1 (nthDelivery n)).id = none := h.lookup_next
  rw [hfind, hget]
  rfl

/-- The next row, acknowledged. -/
def nextRow (n : Nat) : DeliveryRecord :=
  acknowledge 1 (deliveryRow (deliveryDefaults 1 (nthDelivery n)))

theorem ack_next_records (h : AllAcked n s) (hn : n < maxDeliveryRecords) :
    (Postgres.ack "phone" (deliveryName n) 1 (enqueue 1 (nthDelivery n) s).2).2.records =
      s.records.insert (deliveryName n) (nextRow n) := by
  rw [h.enqueue_next hn, Postgres.ack, Memory.ack]
  have hfound : (Table.rows (s.records.insert (deliveryName n)
      (deliveryRow (deliveryDefaults 1 (nthDelivery n))))).any (fun record =>
        record.installationID == "phone" && record.eventID == deliveryName n) = true := by
    refine any_eq_true.mpr ⟨_, mem_rows_of_lookup (AList.lookup_insert _), ?_⟩
    simp only [deliveryRow, deliveryDefaults, nthDelivery, beq_self_eq_true, Bool.and_self]
  rw [if_pos hfound]
  -- no other row is for the event
  have hothers : (s.records.amend fun _ record =>
      if record.installationID = "phone" ∧ record.eventID = deliveryName n then
        acknowledge 1 record
      else record) = s.records := by
    refine amend_eq_self fun id r hr => if_neg fun hmatch => ?_
    rw [← (h.acked hr).2.2.2.1, hmatch.2, h.lookup_next] at hr
    cases hr
  dsimp only
  rw [amend_insert h.lookup_next, hothers]
  have hown : (deliveryRow (deliveryDefaults 1 (nthDelivery n))).installationID = "phone" ∧
      (deliveryRow (deliveryDefaults 1 (nthDelivery n))).eventID = deliveryName n :=
    ⟨rfl, rfl⟩
  rw [if_pos hown]
  rfl

theorem ack_next (h : AllAcked n s) (hn : n < maxDeliveryRecords) :
    AllAcked (n + 1)
      (Postgres.ack "phone" (deliveryName n) 1 (enqueue 1 (nthDelivery n) s).2).2 := by
  have hrows := h.ack_next_records hn
  constructor
  · rw [hrows, count_insert h.lookup_next, h.count]
  · intro id r hr
    rw [hrows, lookup_insert_eq] at hr
    split_ifs at hr with hid
    · cases hr
      exact ⟨rfl, rfl, rfl, hid.symm, n, Nat.lt_succ_self n, hid⟩
    · obtain ⟨hstatus, hackedAt, hphone, hevent, i, hi, hname⟩ := h.acked hr
      exact ⟨hstatus, hackedAt, hphone, hevent, i, Nat.lt_succ_of_lt hi, hname⟩
  · intro i hi
    rw [hrows, lookup_insert_eq]
    split_ifs with hname
    · exact Option.some_ne_none _
    · refine h.stored i (Nat.lt_of_le_of_ne (Nat.le_of_lt_succ hi) fun heq => hname ?_)
      rw [heq]

theorem refused (h : AllAcked n s) (hn : maxDeliveryRecords ≤ n) (m : Nat) :
    (enqueue 1 (nthDelivery m) s).1 = .error queueFull := by
  rcases enqueue_answer (s := s) 1 (nthDelivery_wellFormed m) with ⟨-, hfull⟩ | ⟨hlt, -⟩
  · exact hfull
  · rw [h.cleaned_eq, h.count] at hlt
    omega

theorem liveCount_eq (h : AllAcked n s) : liveCount s.records = 0 := by
  have hnone : s.records.select (fun _ r => !Memory.completed r) = ∅ := by
    apply AList.ext
    refine filter_eq_nil_iff.mpr ?_
    rintro ⟨id, r⟩ hmem
    simp only [Memory.completed, (h.acked (mem_entries_iff.mp hmem)).1, beq_self_eq_true,
      Bool.true_or, Bool.not_true, Bool.false_eq_true, not_false_eq_true]
  rw [liveCount, hnone]
  rfl

theorem first_stored (h : AllAcked n s) (hn : 0 < n) :
    ∃ r ∈ s.records.rows, SameDelivery (nthDelivery 0) r := by
  obtain ⟨r, hr⟩ := Option.ne_none_iff_exists'.mp (h.stored 0 hn)
  obtain ⟨-, -, hphone, hevent, -⟩ := h.acked hr
  exact ⟨r, mem_rows_of_lookup hr, hphone, hevent⟩

end AllAcked

theorem allAcked_reached (n : Nat) (hn : n ≤ maxDeliveryRecords) :
    ∃ s, QueueReached .pg s ∧ AllAcked n s := by
  induction n with
  | zero => exact ⟨{}, .empty, rfl, nofun, nofun⟩
  | succ n ih =>
    obtain ⟨s, hs, hacked⟩ := ih (by omega)
    have hreach : QueueReached .pg _ :=
      .call {} (.ack "phone" (deliveryName n) 1) (.call {} (.enqueue (nthDelivery n)) hs)
    rw [execDelivery_answered rfl rfl, execDelivery_answered rfl rfl, answerDelivery,
      answerDelivery] at hreach
    exact ⟨_, hreach, hacked.ack_next (by omega)⟩

/-- With the queue full of acknowledged deliveries, PostgreSQL refuses a new one and a stored
one. -/
theorem acked_deliveries_block_queue : ∃ s, QueueReached .pg s ∧
    liveCount (cleaned .pg 1 s) = 0 ∧
    (∀ r ∈ (cleaned .pg 1 s).rows,
      ¬SameDelivery (nthDelivery maxDeliveryRecords) r) ∧
    (execDelivery .pg {} (.enqueue (nthDelivery maxDeliveryRecords)) s).1 =
      .error queueFull ∧
    ∃ r ∈ (cleaned .pg 1 s).rows, SameDelivery (nthDelivery 0) r ∧
      (execDelivery .pg {} (.enqueue (nthDelivery 0)) s).1 = .error queueFull := by
  have hpos : 0 < maxDeliveryRecords := by decide
  obtain ⟨s, hs, hacked⟩ := allAcked_reached maxDeliveryRecords le_rfl
  have hclean : cleaned .pg 1 s = s.records := hacked.cleaned_eq
  have hrefused : ∀ m, (execDelivery .pg {} (.enqueue (nthDelivery m)) s).1 = .error queueFull := by
    intro m
    rw [execDelivery_answered rfl rfl, answerDelivery]
    exact hacked.refused le_rfl m
  obtain ⟨r, hr, hsame⟩ := hacked.first_stored hpos
  generalize maxDeliveryRecords = n at *
  refine ⟨s, hs, ?_, ?_, hrefused n, r, ?_, hsame, hrefused 0⟩
  · rw [hclean]
    exact hacked.liveCount_eq
  · rw [hclean]
    exact hacked.next_is_new
  · rw [hclean]
    exact hr

end Ferventio
