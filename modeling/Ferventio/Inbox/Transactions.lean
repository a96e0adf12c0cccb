import Ferventio.Delivery.Postgres
import Ferventio.Lib.Transact

/-!
# Inbox transactions

`EnqueueEventSub` and `CompleteEventSub` of `storage/postgres/postgres_delivery.go` statement by
statement. The first looks for the message in `eventsub_seen` and then inserts it into
`eventsub_inbox` `ON CONFLICT DO NOTHING`; the second moves it to `eventsub_seen`.
-/

namespace Ferventio

namespace Inbox

open Postgres Strings Table Transact List

/-- The keys of the two tables. -/
inductive Key
  | inbox (messageID : String)
  | seen (messageID : String)
deriving DecidableEq

/-- Their rows. -/
inductive Row
  | inbox (record : EventSubInboxRecord)
  | seen (seenAt : Time)

/-- Both tables. -/
abbrev Rows := Table Key Row

/-- The statements. -/
inductive Query
  | cleanSeen (before : Time)
  | seen (messageID : String)
  | insertInbox (record : EventSubInboxRecord)
  | loadInbox (messageID : String)
  | deleteInbox (messageID : String)
  | recordSeen (messageID : String) (seenAt : Time)

/-- The insertion returns a new row, and the deletion whether there was one. -/
@[reducible] def Query.Ans : Query → Type
  | cleanSeen _ => Unit
  | seen _ => Bool
  | insertInbox _ => Option EventSubInboxRecord
  | loadInbox _ => Option EventSubInboxRecord
  | deleteInbox _ => Bool
  | recordSeen _ _ => Unit

/-- The keys of the rows of `eventsub_seen` with `seen_at < $1`. -/
def staleKeys (before : Time) (rows : Rows) : List Key :=
  rows.entries.filterMap fun
    | ⟨.seen messageID, .seen seenAt⟩ => if seenAt < before then some (.seen messageID) else none
    | _ => none

/-- The message was seen. -/
def isSeen (messageID : String) (rows : Rows) : Bool := (rows.lookup (.seen messageID)).isSome

/-- The message is in the inbox. -/
def isQueued (messageID : String) (rows : Rows) : Bool := (rows.lookup (.inbox messageID)).isSome

/-- The message in the inbox. -/
def inboxRow (messageID : String) (rows : Rows) : Option EventSubInboxRecord :=
  match rows.lookup (.inbox messageID) with
  | some (.inbox record) => some record
  | _ => none

/-- **The meaning of the statements.** The insertion waits for those who change the row, but does
not lock a row that is there. -/
def meaning : (query : Query) → Statement Key Row query.Ans
  | .cleanSeen before =>
    { locks := fun rows => (staleKeys before rows).map .row
      answer := fun _ => ()
      writes := fun rows => (staleKeys before rows).map fun key => (key, none)
      locked := by
        intro rows w hw
        obtain ⟨key, hkey, rfl⟩ := mem_map.mp hw
        exact mem_map_of_mem hkey }
  | .seen messageID =>
    { locks := fun _ => []
      answer := isSeen messageID
      writes := fun _ => []
      locked := nofun }
  | .insertInbox record =>
    { locks := fun rows =>
        if isQueued record.messageID rows then [] else [.row (.inbox record.messageID)]
      awaits := fun _ => [.row (.inbox record.messageID)]
      answer := fun rows => if isQueued record.messageID rows then none else some record
      writes := fun rows =>
        if isQueued record.messageID rows then []
        else [(.inbox record.messageID, some (.inbox record))]
      locked := by
        intro rows w hw
        split_ifs at hw ⊢
        · cases hw
        · rw [mem_singleton.mp hw]
          exact mem_singleton_self _ }
  | .loadInbox messageID =>
    { locks := fun _ => []
      answer := inboxRow messageID
      writes := fun _ => []
      locked := nofun }
  | .deleteInbox messageID =>
    { locks := fun rows => if isQueued messageID rows then [.row (.inbox messageID)] else []
      answer := isQueued messageID
      writes := fun rows => if isQueued messageID rows then [(.inbox messageID, none)] else []
      locked := by
        intro rows w hw
        split_ifs at hw ⊢
        · rw [mem_singleton.mp hw]
          exact mem_singleton_self _
        · cases hw }
  | .recordSeen messageID seenAt =>
    { locks := fun _ => [.row (.seen messageID)]
      answer := fun _ => ()
      writes := fun _ => [(.seen messageID, some (.seen seenAt))]
      locked := by
        intro rows w hw
        rw [mem_singleton.mp hw]
        exact mem_singleton_self _ }

/-! ## The methods -/

/-- The two methods. -/
inductive Task
  | enqueue (messageID : String) (envelope : EventSubEnvelope) (now : Time)
  | complete (messageID : String) (completedAt : Time)

/-- Their results. -/
inductive Reply
  | enqueued (result : Result (Option EventSubInboxRecord × Bool))
  | completed (result : Result Unit)

/-- A call to the database. -/
abbrev Call := TxCall Query Reply

/-- A method. -/
abbrev Code := Prog Call (TxCall.Ans Query.Ans)

/-- The error of `EnqueueEventSub`. -/
def notEnqueued (operation : String) : Reply := .enqueued (.error (databaseError operation))

/-- The error of `CompleteEventSub`. -/
def notCompleted (operation : String) : Reply := .completed (.error (databaseError operation))

/-- `EnqueueEventSub` for an unseen message. -/
def insertOrLoad (messageID : String) (envelope : EventSubEnvelope) (now : Time) (tx : Nat) :
    Code Reply :=
  attempt tx (.insertInbox (newMessage messageID envelope now))
    (notEnqueued "insert EventSub inbox record") fun
    | some record =>
      conclude tx (notEnqueued "commit EventSub inbox record") (.enqueued (.ok (some record, true)))
    | none =>
      attempt tx (.loadInbox messageID) (notEnqueued "load duplicate EventSub inbox record") fun
        | some existing =>
          conclude tx (notEnqueued "commit duplicate EventSub lookup")
            (.enqueued (.ok (some existing, false)))
        | none =>
          .ret (.enqueued (.error (fmtDatabase "load duplicate EventSub inbox record"
            (some (.plain "no rows in result set")))))

/-- Store a message unless it was seen. -/
def enqueueEventSub (messageID : String) (envelope : EventSubEnvelope) (now : Time) : Code Unit :=
  let messageID := trimSpace messageID
  if messageID = "" then
    .call (.reply (.enqueued (.error (.plain "EventSub message id is required")))) fun _ => .ret ()
  else
    inTransaction (notEnqueued "begin enqueue EventSub") fun tx =>
      attempt tx (.cleanSeen (now - 24 * hour))
        (notEnqueued "clean EventSub deduplication records") fun _ =>
        attempt tx (.seen messageID) (notEnqueued "check EventSub deduplication record") fun seen =>
          if seen then
            conclude tx (notEnqueued "commit EventSub seen lookup") (.enqueued (.ok (none, false)))
          else insertOrLoad messageID envelope now tx

/-- `CompleteEventSub` from the point where it knows the message. -/
def recordCompleted (messageID : String) (completedAt : Time) (tx : Nat) : Code Reply :=
  attempt tx (.recordSeen messageID completedAt) (notCompleted "record completed EventSub message")
    fun _ =>
      conclude tx (notCompleted "commit complete EventSub transaction") (.completed (.ok ()))

/-- Move a message to the seen ones. -/
def completeEventSub (messageID : String) (completedAt : Time) : Code Unit :=
  inTransaction (notCompleted "begin complete EventSub") fun tx =>
    attempt tx (.deleteInbox messageID) (notCompleted "delete completed EventSub inbox record")
      fun removed =>
        if removed then recordCompleted messageID completedAt tx
        else
          attempt tx (.seen messageID) (notCompleted "check completed EventSub record") fun seen =>
            if seen then recordCompleted messageID completedAt tx
            else .ret (.completed (.error .registrationNotFound))

/-- The code of a method. -/
def code : Task → Code Unit
  | .enqueue messageID envelope now => enqueueEventSub messageID envelope now
  | .complete messageID completedAt => completeEventSub messageID completedAt

/-- All interleavings of the methods. -/
def system : System Task Call (TxCall.Ans Query.Ans) (Database Key Row) Fate :=
  transactions meaning code

/-! ## The methods alone -/

theorem mem_staleKeys {before : Time} {rows : Rows} {key : Key} :
    key ∈ staleKeys before rows ↔ ∃ mid seenAt, key = .seen mid ∧
      rows.lookup key = some (.seen seenAt) ∧ seenAt < before := by
  rw [staleKeys, mem_filterMap]
  constructor
  · rintro ⟨⟨key', row⟩, hmem, hkey⟩
    cases key' with
    | inbox => cases hkey
    | seen mid =>
      cases row with
      | inbox => cases hkey
      | seen seenAt =>
        dsimp only at hkey
        split_ifs at hkey with hlt
        cases hkey
        exact ⟨mid, seenAt, rfl, mem_entries_iff.mp hmem, hlt⟩
  · rintro ⟨mid, seenAt, rfl, hget, hlt⟩
    exact ⟨⟨.seen mid, .seen seenAt⟩, mem_entries_iff.mpr hget, if_pos hlt⟩

/-- The rows of the two tables are those of the store. -/
structure Holds (rows : Rows) (s : DeliveryDiskState) : Prop where
  inbox : ∀ mid,
    rows.lookup (.inbox mid) = (s.eventSubInbox.lookup mid).map .inbox
  seen : ∀ mid, rows.lookup (.seen mid) = (s.seen.lookup mid).map .seen

section Alone

variable {rows : Rows} {s : DeliveryDiskState}

theorem Holds.isSeen_eq (h : Holds rows s) (mid : String) :
    isSeen mid rows = (s.seen.lookup mid).isSome := by
  rw [isSeen, h.seen, Option.isSome_map]

theorem Holds.isQueued_eq (h : Holds rows s) (mid : String) :
    isQueued mid rows = (s.eventSubInbox.lookup mid).isSome := by
  rw [isQueued, h.inbox, Option.isSome_map]

theorem Holds.inboxRow_eq (h : Holds rows s) (mid : String) :
    inboxRow mid rows = s.eventSubInbox.lookup mid := by
  rw [inboxRow, h.inbox]
  cases s.eventSubInbox.lookup mid <;> rfl

theorem Holds.cleanSeen (h : Holds rows s) (before : Time) :
    Holds (((meaning (.cleanSeen before)).writes rows).apply rows)
      { s with seen := s.seen.select fun _ seenAt => !(seenAt < before) } where
  inbox mid := by
    refine (lookup_apply_deletes _ _ _).trans (.trans (if_neg fun hmem => ?_) (h.inbox mid))
    obtain ⟨mid', seenAt, hkey, -⟩ := mem_staleKeys.mp hmem
    cases hkey
  seen mid := by
    have hstale := @mem_staleKeys before rows (.seen mid)
    refine (lookup_apply_deletes _ _ _).trans ?_
    rw [h.seen] at hstale ⊢
    rw [lookup_select]
    cases hget : s.seen.lookup mid with
    | none => exact ite_self _
    | some seenAt =>
      rw [hget, Option.map_some] at hstale
      by_cases hlt : seenAt < before
      · rw [if_pos (hstale.mpr ⟨mid, seenAt, rfl, rfl, hlt⟩), Option.filter_some,
          decide_eq_true hlt]
        rfl
      · rw [if_neg, Option.filter_some, decide_eq_false hlt]
        · rfl
        · intro hmem
          obtain ⟨-, seenAt', -, hsome, hlt'⟩ := hstale.mp hmem
          cases hsome
          exact hlt hlt'

theorem Holds.insertInbox (h : Holds rows s) (r : EventSubInboxRecord) :
    Holds (rows.insert (.inbox r.messageID) (.inbox r))
      { s with eventSubInbox := s.eventSubInbox.insert r.messageID r } where
  inbox mid := by
    rw [lookup_insert_eq, lookup_insert_eq, h.inbox]
    by_cases hkey : mid = r.messageID
    · rw [if_pos hkey, if_pos (congrArg Key.inbox hkey), Option.map_some]
    · rw [if_neg hkey, if_neg fun heq => hkey (Key.inbox.inj heq)]
  seen mid := by
    rw [lookup_insert_eq, if_neg nofun]
    exact h.seen mid

/-- The tables after a completion. -/
def completedRows (messageID : String) (completedAt : Time) (rows : Rows) : Rows :=
  (rows.erase (.inbox messageID)).insert (.seen messageID) (.seen completedAt)

theorem Holds.complete (h : Holds rows s) (mid : String) (completedAt : Time) :
    Holds (completedRows mid completedAt rows) { s with
      eventSubInbox := s.eventSubInbox.erase mid
      seen := s.seen.insert mid completedAt } where
  inbox mid' := by
    rw [completedRows, lookup_insert_eq, if_neg nofun, lookup_erase_eq, lookup_erase_eq, h.inbox]
    by_cases hkey : mid' = mid
    · rw [if_pos hkey, if_pos (congrArg Key.inbox hkey), Option.map_none]
    · rw [if_neg hkey, if_neg fun heq => hkey (Key.inbox.inj heq)]
  seen mid' := by
    have hother : Key.seen mid' ≠ .inbox mid := nofun
    rw [completedRows, lookup_insert_eq, lookup_insert_eq, lookup_erase_eq, if_neg hother, h.seen]
    by_cases hkey : mid' = mid
    · rw [if_pos hkey, if_pos (congrArg Key.seen hkey), Option.map_some]
    · rw [if_neg hkey, if_neg fun heq => hkey (Key.seen.inj heq)]

theorem recordCompleted_alone {sess : Session Key Row} {mid : String} {completedAt : Time}
    (h : ∀ key, (sess.view rows).lookup key = (rows.erase (.inbox mid)).lookup key) :
    ReturnsAlone meaning (recordCompleted mid completedAt 0) sess rows
      (.completed (.ok ()), completedRows mid completedAt rows) := by
  refine returnsAlone_attempt (returnsAlone_conclude fun key => ?_)
  rw [Session.view_run]
  show ((sess.view rows).insert (.seen mid) (.seen completedAt)).lookup key = _
  rw [completedRows, lookup_insert_eq, lookup_insert_eq, h]

theorem insertOrLoad_alone {sess : Session Key Row} (h : Holds (sess.view rows) s)
    (mid : String) (envelope : EventSubEnvelope) (now : Time) :
    ReturnsAlone meaning (insertOrLoad mid envelope now 0) sess rows
      (match s.eventSubInbox.lookup mid with
      | some existing => (.enqueued (.ok (some existing, false)), sess.view rows)
      | none => (.enqueued (.ok (some (newMessage mid envelope now), true)),
          (sess.view rows).insert (.inbox mid) (.inbox (newMessage mid envelope now)))) := by
  have hqueued := h.isQueued_eq mid
  have hrow := h.inboxRow_eq mid
  have hans : (meaning (.insertInbox (newMessage mid envelope now))).answer (sess.view rows) =
      if isQueued mid (sess.view rows) then none
      else some (newMessage mid envelope now) := rfl
  have hwrites : (meaning (.insertInbox (newMessage mid envelope now))).writes (sess.view rows) =
      if isQueued mid (sess.view rows) then []
      else [(.inbox mid, some (.inbox (newMessage mid envelope now)))] := rfl
  have hins := sess.view_run rows (meaning (.insertInbox (newMessage mid envelope now)))
  refine returnsAlone_attempt ?_
  rw [hqueued] at hans hwrites
  rw [hwrites] at hins
  rw [hans]
  cases hget : s.eventSubInbox.lookup mid with
  | none =>
    rw [hget] at hins
    exact returnsAlone_conclude fun key => congrArg (AList.lookup key) hins
  | some existing =>
    rw [hget] at hins hrow
    refine returnsAlone_attempt ?_
    have hloaded : (meaning (.loadInbox mid)).answer ((sess.run rows
        (meaning (.insertInbox (newMessage mid envelope now)))).view rows) = some existing := by
      rw [hins]
      exact hrow
    rw [hloaded]
    exact returnsAlone_conclude fun key => congrArg (AList.lookup key) hins

/-- **`EnqueueEventSub` alone** is the function of the store. -/
theorem enqueueEventSub_alone (h : Holds rows s) (mid : String) (envelope : EventSubEnvelope)
    (now : Time) :
    ∃ rows', Alone meaning (enqueueEventSub mid envelope now) rows
        (.enqueued (Postgres.enqueueEventSub mid envelope now s).1, rows') ∧
      Holds rows' (Postgres.enqueueEventSub mid envelope now s).2 := by
  rw [Postgres.enqueueEventSub]
  dsimp only
  by_cases hempty : trimSpace mid = ""
  · rw [enqueueEventSub, if_pos hempty, if_pos hempty]
    exact ⟨rows, alone_reply _, h⟩
  · rw [if_neg hempty]
    have hclean := h.cleanSeen (now - 24 * hour)
    let sess : Session Key Row := Session.run {} rows (meaning (.cleanSeen (now - 24 * hour)))
    have hview : sess.view rows =
        ((meaning (.cleanSeen (now - 24 * hour))).writes rows).apply rows :=
      Session.view_run {} rows _
    rw [← hview] at hclean
    have hseen : (meaning (.seen (trimSpace mid))).answer (sess.view rows) = _ :=
      hclean.isSeen_eq (trimSpace mid)
    have hrest := insertOrLoad_alone hclean (trimSpace mid) envelope now
    by_cases hfound : (AList.lookup (trimSpace mid)
        (s.seen.select fun _ seenAt => !(seenAt < now - 24 * hour))).isSome = true
    · rw [if_pos hfound]
      refine ⟨_, ?_, hclean⟩
      rw [enqueueEventSub, if_neg hempty]
      refine alone_inTransaction (returnsAlone_attempt (returnsAlone_attempt ?_))
      rw [hseen, hfound]
      exact returnsAlone_conclude fun _ => rfl
    · rw [if_neg hfound]
      rw [Bool.not_eq_true] at hfound
      have halone : ∀ outcome, ReturnsAlone meaning
            (insertOrLoad (trimSpace mid) envelope now 0) sess rows outcome →
          Alone meaning (enqueueEventSub mid envelope now) rows outcome := by
        intro outcome houtcome
        rw [enqueueEventSub, if_neg hempty]
        refine alone_inTransaction (returnsAlone_attempt (returnsAlone_attempt ?_))
        rw [hseen, hfound]
        exact houtcome
      cases hget : s.eventSubInbox.lookup (trimSpace mid) with
      | none =>
        rw [hget] at hrest
        exact ⟨_, halone _ hrest, hclean.insertInbox (newMessage _ envelope now)⟩
      | some =>
        rw [hget] at hrest
        exact ⟨_, halone _ hrest, hclean⟩

/-- The message `m` is in the inbox, since time 1. -/
def oneMessage : DeliveryDiskState where
  eventSubInbox := AList.insert "m" (newMessage "m" {} 1) ∅

/-- One message in the inbox. -/
def oneMessageRows : Rows := AList.insert (.inbox "m") (.inbox (newMessage "m" {} 1)) ∅

theorem oneMessage_holds : Holds oneMessageRows oneMessage :=
  have hempty : Holds ∅ {} := ⟨fun _ => rfl, fun _ => rfl⟩
  hempty.insertInbox (newMessage "m" {} 1)

/-- A message that is queued is not enqueued again; another one is. -/
theorem oneMessage_enqueued :
    (∃ rows', Alone meaning (enqueueEventSub " m" {} 2) oneMessageRows
        (.enqueued (.ok (some (newMessage "m" {} 1), false)), rows') ∧ Holds rows' oneMessage) ∧
      ∃ rows', Alone meaning (enqueueEventSub "n" {} 2) oneMessageRows
        (.enqueued (.ok (some (newMessage "n" {} 2), true)), rows') ∧
          rows'.lookup (.inbox "n") = some (.inbox (newMessage "n" {} 2)) := by
  refine ⟨enqueueEventSub_alone oneMessage_holds " m" {} 2, ?_⟩
  obtain ⟨rows', halone, hholds⟩ := enqueueEventSub_alone oneMessage_holds "n" {} 2
  exact ⟨rows', halone, hholds.inbox "n"⟩

/-- **`CompleteEventSub` alone** is the function of the store. -/
theorem completeEventSub_alone (h : Holds rows s) (mid : String) (completedAt : Time) :
    ∃ rows', Alone meaning (completeEventSub mid completedAt) rows
        (.completed (Postgres.completeEventSub mid completedAt s).1, rows') ∧
      Holds rows' (Postgres.completeEventSub mid completedAt s).2 := by
  have hdel : (meaning (.deleteInbox mid)).answer rows = _ := h.isQueued_eq mid
  have hseen : (meaning (.seen mid)).answer rows = _ := h.isSeen_eq mid
  have hget := h.inbox mid
  have hwrites : (meaning (.deleteInbox mid)).writes rows =
      if isQueued mid rows then [(.inbox mid, none)] else [] := rfl
  have hempty : Session.view {} rows = rows := rfl
  have hview := Session.view_run {} rows (meaning (.deleteInbox mid))
  rw [hempty, hwrites, h.isQueued_eq] at hview
  rw [Postgres.completeEventSub]
  cases hqueued : s.eventSubInbox.lookup mid with
  | some =>
    rw [if_neg (fun hnone => by cases hnone.1)]
    refine ⟨_, alone_inTransaction (returnsAlone_attempt ?_), h.complete mid completedAt⟩
    rw [hqueued] at hview hdel
    rw [hempty, hdel]
    exact recordCompleted_alone fun key => congrArg (AList.lookup key) hview
  | none =>
    rw [hqueued] at hview hdel hget
    rw [Option.isSome_none, if_neg Bool.false_ne_true] at hview
    have hsame : ∀ key, (Session.view (Session.run {} rows (meaning (.deleteInbox mid)))
        rows).lookup key = (rows.erase (.inbox mid)).lookup key := by
      intro key
      rw [hview, lookup_erase_eq]
      split_ifs with hkey
      · rw [hkey]
        exact hget
      · rfl
    cases hfound : s.seen.lookup mid with
    | none =>
      rw [if_pos ⟨rfl, rfl⟩]
      refine ⟨rows, alone_inTransaction (returnsAlone_attempt ?_), h⟩
      rw [hempty, hdel]
      refine returnsAlone_attempt ?_
      rw [hview, Writes.apply, hseen, hfound]
      exact returnsAlone_ret _
    | some =>
      rw [if_neg (fun hnone => by cases hnone.2)]
      refine ⟨_, alone_inTransaction (returnsAlone_attempt ?_), h.complete mid completedAt⟩
      rw [hempty, hdel]
      refine returnsAlone_attempt ?_
      rw [hview, Writes.apply, hseen, hfound]
      exact recordCompleted_alone hsame

/-- The queued message moves from the inbox to the seen ones. -/
theorem oneMessage_completed :
    ∃ rows', Alone meaning (completeEventSub "m" 2) oneMessageRows (.completed (.ok ()), rows') ∧
      rows'.lookup (.inbox "m") = none ∧ rows'.lookup (.seen "m") = some (.seen 2) := by
  obtain ⟨rows', halone, hholds⟩ := completeEventSub_alone oneMessage_holds "m" 2
  exact ⟨rows', halone, hholds.inbox "m", hholds.seen "m"⟩

end Alone

end Inbox

end Ferventio
