import Ferventio.Lib.Interleave
import Ferventio.Lib.Table

/-!
# Transactions under READ COMMITTED

A database holds committed rows and a session for each open transaction: what the transaction has
written and the locks it has taken. A statement is atomic. It sees the committed rows under the
transaction's own writes, and it waits while another session holds a lock that it needs. What it
writes it locks. A commit applies the session's writes; a failed statement ends the transaction.
Transactions interleave by statements.

* **`Sound`**: open transactions have different numbers and share no lock.
* **`Upheld`**: what every open transaction may rely on. It is enough that each statement
  establishes it (`ensures_upheld`) and that the commits of others, who share no lock, leave it
  true.
-/

namespace Transact

open List Table System

variable {pid tx' : Nat} {a : Unit}

/-- What a transaction may lock. -/
inductive Lock (κ : Type)
  | row (key : κ)
  | advisory (key : Int)
deriving DecidableEq

/-- Written rows, newest first; `none` deletes. -/
abbrev Writes (κ α : Type) := List (κ × Option α)

section Writes

variable {κ α : Type} [DecidableEq κ]

/-- The table after the writes. -/
def Writes.apply : Writes κ α → Table κ α → Table κ α
  | [], t => t
  | (key, some row) :: writes, t => (apply writes t).insert key row
  | (key, none) :: writes, t => (apply writes t).erase key

theorem lookup_apply_cons (key key' : κ) (w : Option α) (writes : Writes κ α) (t : Table κ α) :
    (Writes.apply ((key, w) :: writes) t).lookup key' =
      if key' = key then w else (writes.apply t).lookup key' := by
  cases w with
  | none => exact lookup_erase_eq _ _ _
  | some => exact lookup_insert_eq _ _ _ _

theorem lookup_apply_of_not_written {writes : Writes κ α} {key : κ}
    (h : ∀ w, (key, w) ∉ writes) (t : Table κ α) :
    (writes.apply t).lookup key = t.lookup key := by
  induction writes with
  | nil => rfl
  | cons entry writes ih =>
    obtain ⟨key', w⟩ := entry
    rw [lookup_apply_cons, if_neg]
    · exact ih fun w' hw' => h w' (mem_cons_of_mem _ hw')
    · rintro rfl
      exact h w mem_cons_self

theorem apply_append (writes writes' : Writes κ α) (t : Table κ α) :
    Writes.apply (writes ++ writes') t = writes.apply (writes'.apply t) := by
  induction writes with
  | nil => rfl
  | cons entry writes ih =>
    obtain ⟨key, w⟩ := entry
    cases w with
    | none => exact congrArg (AList.erase key) ih
    | some row => exact congrArg (AList.insert key row) ih

theorem lookup_apply_congr (writes : Writes κ α) {t t' : Table κ α} {key : κ}
    (h : t.lookup key = t'.lookup key) :
    (writes.apply t).lookup key = (writes.apply t').lookup key := by
  induction writes with
  | nil => exact h
  | cons entry writes ih => rw [lookup_apply_cons, lookup_apply_cons, ih]

theorem lookup_apply_deletes (keys : List κ) (t : Table κ α) (key : κ) :
    (Writes.apply (keys.map fun k => (k, none)) t).lookup key =
      if key ∈ keys then none else t.lookup key := by
  induction keys with
  | nil => rfl
  | cons k keys ih =>
    rw [map_cons, lookup_apply_cons, ih]
    by_cases hk : key = k
    · rw [if_pos hk, if_pos (mem_cons.mpr (.inl hk))]
    · simp only [mem_cons, hk, false_or, if_false]

end Writes

/-- One SQL statement. The locks that it awaits only have to be free. -/
structure Statement (κ α β : Type) where
  locks : Table κ α → List (Lock κ)
  awaits : Table κ α → List (Lock κ) := fun _ => []
  answer : Table κ α → β
  writes : Table κ α → Writes κ α
  locked : ∀ rows, ∀ w ∈ writes rows, .row w.1 ∈ locks rows

/-- An open transaction. -/
structure Session (κ α : Type) where
  writes : Writes κ α := []
  locks : List (Lock κ) := []

/-- The committed rows, the open transactions, and the log, newest first. -/
structure Database (κ α : Type) where
  committed : Table κ α := ∅
  sessions : Table Nat (Session κ α) := ∅
  next : Nat := 0
  log : List (Nat × Writes κ α) := []

/-! ## Calls -/

/-- A call to the database, or the answer of the calling method. -/
inductive TxCall (Q ρ : Type)
  | beginTx
  | statement (tx : Nat) (query : Q)
  | commit (tx : Nat)
  | rollback (tx : Nat)
  | reply (result : ρ)

section Calls

variable {κ α Q ρ : Type} {A : Q → Type}

/-- A failed call answers `none`, a failed commit `false`. -/
@[reducible] def TxCall.Ans (A : Q → Type) : TxCall Q ρ → Type
  | beginTx => Option Nat
  | statement _ query => Option (A query)
  | commit _ => Bool
  | rollback _ => Unit
  | reply _ => Unit

/-- The transaction of a call. -/
def TxCall.tx : TxCall Q ρ → Option Nat
  | beginTx => none
  | statement tx _ => some tx
  | commit tx => some tx
  | rollback tx => some tx
  | reply _ => none

/-- The call failed, or its answer counts as a failure. -/
def failedCall (refused : (query : Q) → A query → Bool) : (call : TxCall Q ρ) → call.Ans A → Bool
  | .beginTx, tx => tx.isNone
  | .statement _ query, answer => answer.all (refused query)
  | .commit _, ok => !ok
  | .rollback _, _ => false
  | .reply _, _ => false

theorem TxCall.cases_tx (call : TxCall Q ρ) :
    call = .beginTx ∨ (∃ result, call = .reply result) ∨ ∃ tx, call.tx = some tx := by
  cases call with
  | beginTx => exact .inl rfl
  | reply result => exact .inr (.inl ⟨result, rfl⟩)
  | statement tx => exact .inr (.inr ⟨tx, rfl⟩)
  | commit tx => exact .inr (.inr ⟨tx, rfl⟩)
  | rollback tx => exact .inr (.inr ⟨tx, rfl⟩)

/-- A call succeeds, has no effect, or loses its answer. -/
inductive Fate
  | done
  | failed
  | lost
deriving DecidableEq

variable [DecidableEq κ]

/-- Another transaction has one of the locks. -/
def Database.blocked (db : Database κ α) (tx : Nat) (locks : List (Lock κ)) : Bool :=
  db.sessions.entries.any fun e => e.1 != tx && e.2.locks.any (locks.contains ·)

/-- The table as the transaction sees it. -/
def Session.view (session : Session κ α) (committed : Table κ α) : Table κ α :=
  session.writes.apply committed

/-- The transaction after a statement. -/
def Session.run {β : Type} (session : Session κ α) (committed : Table κ α)
    (statement : Statement κ α β) : Session κ α :=
  { writes := statement.writes (session.view committed) ++ session.writes
    locks := statement.locks (session.view committed) ++ session.locks }

theorem Session.view_of_unwritten {session : Session κ α} (h : session.writes = [])
    (committed : Table κ α) : session.view committed = committed := by
  rw [Session.view, h]
  rfl

theorem Session.view_run {β : Type} (session : Session κ α) (committed : Table κ α)
    (statement : Statement κ α β) :
    (session.run committed statement).view committed =
      (statement.writes (session.view committed)).apply (session.view committed) :=
  apply_append _ _ _

/-- The transaction ends without its writes. -/
def Database.close (db : Database κ α) (tx : Nat) : Database κ α :=
  { db with sessions := db.sessions.erase tx }

/-- The transaction commits. -/
def Database.accept (db : Database κ α) (tx : Nat) (session : Session κ α) : Database κ α :=
  { db with
    committed := session.writes.apply db.committed
    sessions := db.sessions.erase tx
    log := (tx, session.writes) :: db.log }

/-- **The meaning of a call.** A statement that needs a lock of another waits. -/
def exec (meaning : (query : Q) → Statement κ α (A query)) :
    (call : TxCall Q ρ) → Fate → Database κ α → Option (call.Ans A × Database κ α)
  | .beginTx, .done, db =>
    some (some db.next,
      { db with sessions := db.sessions.insert db.next {}, next := db.next + 1 })
  | .beginTx, _, db => some (none, db)
  | .statement tx query, .done, db =>
    match db.sessions.lookup tx with
    | none => some (none, db.close tx)
    | some session =>
      let rows := session.view db.committed
      if db.blocked tx ((meaning query).locks rows ++ (meaning query).awaits rows) then none
      else
        some (some ((meaning query).answer (session.view db.committed)),
          { db with sessions :=
            db.sessions.insert tx (session.run db.committed (meaning query)) })
  | .statement tx _, _, db => some (none, db.close tx)
  | .commit tx, fate, db =>
    match db.sessions.lookup tx with
    | none => some (false, db.close tx)
    | some session =>
      if fate = .failed then some (false, db.close tx)
      else some (fate == .done, db.accept tx session)
  | .rollback tx, _, db => some ((), db.close tx)
  | .reply _, _, db => some ((), db)

section Inversion

variable {meaning : (query : Q) → Statement κ α (A query)} {fate : Fate} {db db' : Database κ α}
  {tx : Nat}

theorem exec_beginTx {a : Option Nat}
    (h : exec meaning (.beginTx : TxCall Q ρ) fate db = some (a, db')) :
    (a = some db.next ∧
        db' = { db with sessions := db.sessions.insert db.next {}, next := db.next + 1 }) ∨
      a = none ∧ db' = db := by
  cases fate <;> cases h
  · exact .inl ⟨rfl, rfl⟩
  · exact .inr ⟨rfl, rfl⟩
  · exact .inr ⟨rfl, rfl⟩

theorem blocked_of_subset {locks locks' : List (Lock κ)} (h : db.blocked tx locks' = false)
    (hsubset : locks ⊆ locks') : db.blocked tx locks = false := by
  rw [Database.blocked, any_eq_false] at h ⊢
  intro e he hblock
  rw [Bool.and_eq_true, any_eq_true] at hblock
  obtain ⟨hne, lock, hlock, hmem⟩ := hblock
  refine h e he ?_
  rw [Bool.and_eq_true, any_eq_true]
  exact ⟨hne, lock, hlock, contains_iff_mem.mpr (hsubset (contains_iff_mem.mp hmem))⟩

theorem exec_statement {query : Q} {a : Option (A query)}
    (h : exec meaning (.statement tx query : TxCall Q ρ) fate db = some (a, db')) :
    (∃ session, db.sessions.lookup tx = some session ∧
        db.blocked tx ((meaning query).locks (session.view db.committed)) = false ∧
        a = some ((meaning query).answer (session.view db.committed)) ∧
        db' = { db with sessions :=
          db.sessions.insert tx (session.run db.committed (meaning query)) }) ∨
      a = none ∧ db' = db.close tx := by
  cases fate with
  | done =>
    rw [exec] at h
    split at h
    · cases h
      exact .inr ⟨rfl, rfl⟩
    · rename_i session hsess
      dsimp only at h
      split_ifs at h with hblock
      cases h
      rw [Bool.not_eq_true] at hblock
      have hfree := blocked_of_subset hblock (subset_append_left _ _)
      exact .inl ⟨session, hsess, hfree, rfl, rfl⟩
  | _ =>
    cases h
    exact .inr ⟨rfl, rfl⟩

theorem exec_commit {a : Bool}
    (h : exec meaning (.commit tx : TxCall Q ρ) fate db = some (a, db')) :
    (∃ session, db.sessions.lookup tx = some session ∧ db' = db.accept tx session) ∨
      a = false ∧ db' = db.close tx := by
  rw [exec] at h
  split at h
  · cases h
    exact .inr ⟨rfl, rfl⟩
  · rename_i session hsess
    split_ifs at h
    · cases h
      exact .inr ⟨rfl, rfl⟩
    · cases h
      exact .inl ⟨session, hsess, rfl⟩

theorem exec_rollback
    (h : exec meaning (.rollback tx : TxCall Q ρ) fate db = some (a, db')) : db' = db.close tx := by
  cases h
  rfl

theorem exec_reply {result : ρ}
    (h : exec meaning (.reply result) fate db = some (a, db')) : db' = db := by
  cases h
  rfl

theorem exec_commits {call : TxCall Q ρ} {a : call.Ans A}
    (h : exec meaning call fate db = some (a, db')) :
    db'.committed = db.committed ∧ db'.log = db.log ∨
      ∃ tx session, call = .commit tx ∧ db.sessions.lookup tx = some session ∧
        db' = db.accept tx session := by
  cases call with
  | beginTx => rcases exec_beginTx h with ⟨-, rfl⟩ | ⟨-, rfl⟩ <;> exact .inl ⟨rfl, rfl⟩
  | statement =>
    rcases exec_statement h with ⟨session, -, -, -, rfl⟩ | ⟨-, rfl⟩ <;> exact .inl ⟨rfl, rfl⟩
  | commit tx =>
    rcases exec_commit h with ⟨session, hsess, rfl⟩ | ⟨-, rfl⟩
    · exact .inr ⟨tx, session, rfl, hsess, rfl⟩
    · exact .inl ⟨rfl, rfl⟩
  | rollback =>
    rw [exec_rollback h]
    exact .inl ⟨rfl, rfl⟩
  | reply =>
    rw [exec_reply h]
    exact .inl ⟨rfl, rfl⟩

end Inversion

/-! ## Soundness -/

/-- Open transactions have used numbers, share no lock, and have locked what they wrote. -/
structure Sound (db : Database κ α) : Prop where
  fresh : ∀ {tx session}, db.sessions.lookup tx = some session → tx < db.next
  exclusive : ∀ {tx tx' session sess' lock}, db.sessions.lookup tx = some session →
    db.sessions.lookup tx' = some sess' → lock ∈ session.locks → lock ∈ sess'.locks →
    tx = tx'
  covered : ∀ {tx session}, db.sessions.lookup tx = some session →
    ∀ w ∈ session.writes, .row w.1 ∈ session.locks

section Soundness

variable {db db' : Database κ α} {tx : Nat}

omit [DecidableEq κ] in
theorem lookup_close (db : Database κ α) (tx tx' : Nat) :
    (db.close tx).sessions.lookup tx' =
      if tx' = tx then none else db.sessions.lookup tx' :=
  lookup_erase_eq _ _ _

omit [DecidableEq κ] in
theorem Sound.of_fewer (h : Sound db) (hnext : db.next ≤ db'.next)
    (hsessions : ∀ tx session, db'.sessions.lookup tx = some session →
      db.sessions.lookup tx = some session) : Sound db' where
  fresh hs := Nat.lt_of_lt_of_le (h.fresh (hsessions _ _ hs)) hnext
  exclusive hs hs' := h.exclusive (hsessions _ _ hs) (hsessions _ _ hs')
  covered hs := h.covered (hsessions _ _ hs)

omit [DecidableEq κ] in
theorem Sound.close (h : Sound db) (tx : Nat) : Sound (db.close tx) := by
  refine h.of_fewer le_rfl fun tx' session hs => ?_
  rw [lookup_close] at hs
  split_ifs at hs
  exact hs

theorem Sound.accept (h : Sound db) (tx : Nat) (session : Session κ α) :
    Sound (db.accept tx session) :=
  (h.close tx).of_fewer le_rfl fun _ _ hs => hs

theorem free_of_not_blocked {locks : List (Lock κ)} (h : db.blocked tx locks = false)
    {session : Session κ α} (hs : db.sessions.lookup tx' = some session) (hne : tx' ≠ tx)
    {lock : Lock κ} (hlock : lock ∈ session.locks) : lock ∉ locks := by
  intro hmem
  have hany := any_eq_false.mp h _ (mem_entries_iff.mpr hs)
  refine hany ?_
  rw [Bool.and_eq_true, bne_iff_ne, any_eq_true]
  exact ⟨hne, lock, hlock, contains_iff_mem.mpr hmem⟩

omit [DecidableEq κ] in
theorem Sound.update (h : Sound db) {session : Session κ α} (htx : tx < db'.next)
    (hnext : db.next ≤ db'.next)
    (hsessions : db'.sessions = db.sessions.insert tx session)
    (hfree : ∀ tx' sess', db.sessions.lookup tx' = some sess' → tx' ≠ tx →
      ∀ lock ∈ sess'.locks, lock ∉ session.locks)
    (hcov : ∀ w ∈ session.writes, .row w.1 ∈ session.locks) : Sound db' where
  fresh hs := by
    rw [hsessions, lookup_insert_eq] at hs
    split_ifs at hs with heq
    · exact heq ▸ htx
    · exact Nat.lt_of_lt_of_le (h.fresh hs) hnext
  exclusive hs hs' hlock hlock' := by
    rw [hsessions, lookup_insert_eq] at hs hs'
    split_ifs at hs hs' with heq heq' heq'
    · rw [heq, heq']
    · cases hs
      exact absurd hlock (hfree _ _ hs' heq' _ hlock')
    · cases hs'
      exact absurd hlock' (hfree _ _ hs heq _ hlock)
    · exact h.exclusive hs hs' hlock hlock'
  covered hs := by
    rw [hsessions, lookup_insert_eq] at hs
    split_ifs at hs
    · cases hs
      exact hcov
    · exact h.covered hs

theorem exec_sound {meaning : (query : Q) → Statement κ α (A query)} {call : TxCall Q ρ}
    {fate : Fate} {a : call.Ans A} (hexec : exec meaning call fate db = some (a, db'))
    (h : Sound db) : Sound db' := by
  cases call with
  | beginTx =>
    rcases exec_beginTx hexec with ⟨-, rfl⟩ | ⟨-, rfl⟩
    · refine h.update (Nat.lt_succ_self _) (Nat.le_succ _) rfl ?_ ?_
      · exact fun _ _ _ _ _ _ => not_mem_nil
      · exact fun _ hw => absurd hw not_mem_nil
    · exact h
  | statement tx query =>
    rcases exec_statement hexec with ⟨session, hsess, hfree, -, rfl⟩ | ⟨-, rfl⟩
    · refine h.update (h.fresh hsess) le_rfl rfl (fun tx' sess' hs hne lock hlock => ?_) ?_
      · rw [Session.run, mem_append, not_or]
        refine ⟨free_of_not_blocked hfree hs hne hlock, fun hmem => hne ?_⟩
        exact h.exclusive hs hsess hlock hmem
      · intro w hw
        rw [Session.run, mem_append]
        rcases mem_append.mp hw with hw | hw
        · exact .inl ((meaning query).locked _ w hw)
        · exact .inr (h.covered hsess w hw)
    · exact h.close tx
  | commit tx =>
    rcases exec_commit hexec with ⟨session, -, rfl⟩ | ⟨-, rfl⟩
    · exact h.accept tx session
    · exact h.close tx
  | rollback tx =>
    rw [exec_rollback hexec]
    exact h.close tx
  | reply =>
    rw [exec_reply hexec]
    exact h

theorem exec_session {meaning : (query : Q) → Statement κ α (A query)} {call : TxCall Q ρ}
    {fate : Fate} {a : call.Ans A} (hexec : exec meaning call fate db = some (a, db'))
    (hlt : tx < db.next) (hne : call.tx ≠ some tx) :
    db'.sessions.lookup tx = db.sessions.lookup tx := by
  cases call with
  | beginTx =>
    rcases exec_beginTx hexec with ⟨-, rfl⟩ | ⟨-, rfl⟩
    · rw [lookup_insert_eq, if_neg (Nat.ne_of_lt hlt)]
    · rfl
  | statement tx' =>
    have hne' : tx ≠ tx' := fun heq => hne (congrArg some heq.symm)
    rcases exec_statement hexec with ⟨session, -, -, -, rfl⟩ | ⟨-, rfl⟩
    · rw [lookup_insert_eq, if_neg hne']
    · rw [lookup_close, if_neg hne']
  | commit tx' =>
    have hne' : tx ≠ tx' := fun heq => hne (congrArg some heq.symm)
    rcases exec_commit hexec with ⟨session, -, rfl⟩ | ⟨-, rfl⟩
    · exact (lookup_close db tx' tx).trans (if_neg hne')
    · rw [lookup_close, if_neg hne']
  | rollback tx' =>
    have hne' : tx ≠ tx' := fun heq => hne (congrArg some heq.symm)
    rw [exec_rollback hexec, lookup_close, if_neg hne']
  | reply => rw [exec_reply hexec]

theorem exec_next {meaning : (query : Q) → Statement κ α (A query)} {call : TxCall Q ρ}
    {fate : Fate} {a : call.Ans A} (hexec : exec meaning call fate db = some (a, db')) :
    db.next ≤ db'.next := by
  cases call with
  | beginTx =>
    rcases exec_beginTx hexec with ⟨-, rfl⟩ | ⟨-, rfl⟩
    · exact Nat.le_succ _
    · exact le_rfl
  | statement =>
    rcases exec_statement hexec with ⟨session, -, -, -, rfl⟩ | ⟨-, rfl⟩ <;> exact le_rfl
  | commit =>
    rcases exec_commit hexec with ⟨session, -, rfl⟩ | ⟨-, rfl⟩ <;> exact le_rfl
  | rollback =>
    rw [exec_rollback hexec]
    exact le_rfl
  | reply => rw [exec_reply hexec]

end Soundness

end Calls

/-! ## What a process knows of its transaction -/

/-- The transaction of a process, whether it is open, and the phase. -/
structure Progress (φ : Type) where
  tx : Option Nat := none
  running : Bool := false
  phase : φ

section Progress

variable {τ κ α Q ρ φ : Type} {A : Q → Type}

/-- What a call teaches; `step` says it for the phase. -/
def Progress.next (step : τ → φ → (call : TxCall Q ρ) → call.Ans A → φ) (t : τ) (p : Progress φ)
    (call : TxCall Q ρ) (a : call.Ans A) : Progress φ where
  tx := match call, a with
    | .beginTx, tx => tx
    | _, _ => p.tx
  running := match call, a with
    | .beginTx, tx => tx.isSome
    | .statement _ _, answer => p.running && answer.isSome
    | .reply _, _ => p.running
    | _, _ => false
  phase := step t p.phase call a

/-- A process uses its own transaction, one at a time, as its phase allows. -/
structure Progress.Allows (allowed : τ → φ → TxCall Q ρ → Prop) (t : τ) (p : Progress φ)
    (call : TxCall Q ρ) : Prop where
  own : ∀ tx, call.tx = some tx → p.tx = some tx
  once : call = .beginTx → p.running = false
  phase : allowed t p.phase call

/-- An event of such a system. -/
abbrev TxEvent (τ ρ : Type) (A : Q → Type) := Event τ (TxCall Q ρ) (TxCall.Ans A)

/-- Its state and its history. -/
abbrev TxView (τ ρ : Type) (A : Q → Type) (κ α : Type) :=
  View τ (TxCall Q ρ) (TxCall.Ans A) (Database κ α)

/-- How far a process has come. -/
def progress (init : φ) (step : τ → φ → (call : TxCall Q ρ) → call.Ans A → φ)
    (hist : List (TxEvent τ ρ A)) (pid : Nat) : Progress φ :=
  track { phase := init } (Progress.next step) hist pid

variable {init : φ} {step : τ → φ → (call : TxCall Q ρ) → call.Ans A → φ}

theorem progress_self (e : TxEvent τ ρ A) (hist : List (TxEvent τ ρ A)) :
    progress init step (e :: hist) e.pid =
      (progress init step hist e.pid).next step e.task e.op e.ans :=
  track_self e hist

theorem progress_other {e : TxEvent τ ρ A} (h : e.pid ≠ pid) (hist : List (TxEvent τ ρ A)) :
    progress init step (e :: hist) pid = progress init step hist pid :=
  track_other h hist

variable [DecidableEq κ]

/-- Processes have different transactions, and each is somebody's. -/
structure Owned (init : φ) (step : τ → φ → (call : TxCall Q ρ) → call.Ans A → φ)
    (v : TxView τ ρ A κ α) : Prop where
  sound : Sound v.state
  issued : ∀ {pid tx}, (progress init step v.hist pid).tx = some tx → tx < v.state.next
  distinct : ∀ {pid pid' tx}, (progress init step v.hist pid).tx = some tx →
    (progress init step v.hist pid').tx = some tx → pid = pid'
  running : ∀ {tx session}, v.state.sessions.lookup tx = some session →
    ∃ pid, (progress init step v.hist pid).tx = some tx ∧ (progress init step v.hist pid).running

section Owned

variable {meaning : (query : Q) → Statement κ α (A query)} {fate : Fate}
  {v : TxView τ ρ A κ α}
  {e : TxEvent τ ρ A} {s : Database κ α}
  {allowed : τ → φ → TxCall Q ρ → Prop}

theorem tx_next (hexec : exec meaning e.op fate v.state = some (e.ans, s)) {tx : Nat}
    (h : (progress init step (e :: v.hist) e.pid).tx = some tx) :
    (progress init step v.hist e.pid).tx = some tx ∨ tx = v.state.next ∧ tx < s.next := by
  obtain ⟨pid, t, op, a⟩ := e
  rw [progress_self] at h
  cases op with
  | beginTx =>
    rcases exec_beginTx hexec with ⟨rfl, rfl⟩ | ⟨rfl, -⟩
    · cases h
      exact .inr ⟨rfl, Nat.lt_succ_self _⟩
    · cases h
  | _ => exact .inl h

theorem Owned.session_other (h : Owned init step v)
    (hexec : exec meaning e.op fate v.state = some (e.ans, s))
    (hmay : (progress init step v.hist e.pid).Allows allowed e.task e.op) {tx : Nat}
    (hpid : e.pid ≠ pid) (htx : (progress init step v.hist pid).tx = some tx) :
    s.sessions.lookup tx = v.state.sessions.lookup tx :=
  exec_session hexec (h.issued htx) fun hop => hpid (h.distinct (hmay.own tx hop) htx)

omit [DecidableEq κ] in
theorem Owned.running_other (h : Owned init step v)
    (hmay : (progress init step v.hist e.pid).Allows allowed e.task e.op) {tx : Nat}
    {session : Session κ α} (hsess : v.state.sessions.lookup tx = some session)
    (hne : e.op.tx ≠ some tx) (hreply : ∀ result, e.op ≠ .reply result) :
    ∃ pid, (progress init step (e :: v.hist) pid).tx = some tx ∧
      (progress init step (e :: v.hist) pid).running := by
  obtain ⟨pid, htx, hrunning⟩ := h.running hsess
  have hpid : e.pid ≠ pid := by
    rintro rfl
    rcases e.op.cases_tx with hop | ⟨result, hop⟩ | ⟨tx', hop⟩
    · rw [hmay.once hop] at hrunning
      cases hrunning
    · exact hreply result hop
    · rw [hmay.own tx' hop] at htx
      rw [hop, htx] at hne
      exact hne rfl
  rw [← progress_other hpid] at htx hrunning
  exact ⟨pid, htx, hrunning⟩

omit [DecidableEq κ] in
theorem Owned.running_self (h : Owned init step v)
    (hmay : (progress init step v.hist e.pid).Allows allowed e.task e.op) {tx : Nat}
    {session : Session κ α} (hsess : v.state.sessions.lookup tx = some session)
    (hop : e.op.tx = some tx) : (progress init step v.hist e.pid).running := by
  obtain ⟨pid, htx, hrunning⟩ := h.running hsess
  rw [h.distinct (hmay.own tx hop) htx]
  exact hrunning

theorem Owned.after_issued (h : Owned init step v)
    (hexec : exec meaning e.op fate v.state = some (e.ans, s)) {tx : Nat}
    (htx : (progress init step (e :: v.hist) pid).tx = some tx) : tx < s.next := by
  by_cases hpid : e.pid = pid
  · subst hpid
    rcases tx_next hexec htx with htx | ⟨-, hlt⟩
    · exact Nat.lt_of_lt_of_le (h.issued htx) (exec_next hexec)
    · exact hlt
  · rw [progress_other hpid] at htx
    exact Nat.lt_of_lt_of_le (h.issued htx) (exec_next hexec)

theorem Owned.after_new (h : Owned init step v)
    (hexec : exec meaning e.op fate v.state = some (e.ans, s)) {tx : Nat} (hpid : e.pid ≠ pid)
    (hself : (progress init step (e :: v.hist) e.pid).tx = some tx) :
    (progress init step v.hist pid).tx ≠ some tx := by
  intro hother
  rcases tx_next hexec hself with hself | ⟨rfl, -⟩
  · exact hpid (h.distinct hself hother)
  · exact absurd (h.issued hother) (Nat.lt_irrefl _)

theorem Owned.after_distinct (h : Owned init step v)
    (hexec : exec meaning e.op fate v.state = some (e.ans, s)) {pid' tx : Nat}
    (htx : (progress init step (e :: v.hist) pid).tx = some tx)
    (htx' : (progress init step (e :: v.hist) pid').tx = some tx) : pid = pid' := by
  by_cases hpid : e.pid = pid
  · by_cases hpid' : e.pid = pid'
    · rw [← hpid, ← hpid']
    · rw [progress_other hpid'] at htx'
      subst hpid
      exact absurd htx' (h.after_new hexec hpid' htx)
  · rw [progress_other hpid] at htx
    by_cases hpid' : e.pid = pid'
    · subst hpid'
      exact absurd htx (h.after_new hexec hpid htx')
    · rw [progress_other hpid'] at htx'
      exact h.distinct htx htx'

omit [DecidableEq κ] in
theorem Owned.running_closed (h : Owned init step v)
    (hmay : (progress init step v.hist e.pid).Allows allowed e.task e.op) {tx : Nat}
    {session : Session κ α} (hop : e.op.tx = some tx')
    (hclose : (v.state.close tx').sessions.lookup tx = some session) :
    ∃ pid, (progress init step (e :: v.hist) pid).tx = some tx ∧
      (progress init step (e :: v.hist) pid).running := by
  rw [lookup_close] at hclose
  split_ifs at hclose with heq
  refine h.running_other hmay hclose ?_ ?_
  · rw [hop]
    exact fun hsome => heq (Option.some.inj hsome).symm
  · intro result hreply
    rw [hreply] at hop
    cases hop

theorem Owned.after_running (h : Owned init step v)
    (hexec : exec meaning e.op fate v.state = some (e.ans, s))
    (hmay : (progress init step v.hist e.pid).Allows allowed e.task e.op) {tx : Nat}
    {session : Session κ α} (hsess : s.sessions.lookup tx = some session) :
    ∃ pid, (progress init step (e :: v.hist) pid).tx = some tx ∧
      (progress init step (e :: v.hist) pid).running := by
  have hself : progress init step (e :: v.hist) e.pid = _ := progress_self e v.hist
  obtain ⟨pid, t, op, a⟩ := e
  dsimp only at hself
  cases op with
  | beginTx =>
    rcases exec_beginTx hexec with ⟨rfl, rfl⟩ | ⟨rfl, rfl⟩
    · rw [lookup_insert_eq] at hsess
      split_ifs at hsess with heq
      · refine ⟨pid, ?_⟩
        rw [hself]
        exact ⟨congrArg some heq.symm, rfl⟩
      · exact h.running_other hmay hsess nofun nofun
    · exact h.running_other hmay hsess nofun nofun
  | statement tx' =>
    rcases exec_statement hexec with ⟨sess', hsess', -, rfl, rfl⟩ | ⟨-, rfl⟩
    · rw [lookup_insert_eq] at hsess
      split_ifs at hsess with heq
      · have hrunning := h.running_self hmay hsess' rfl
        dsimp only at hrunning
        refine ⟨pid, ?_⟩
        rw [hself, heq]
        exact ⟨hmay.own tx' rfl, by simp only [Progress.next, hrunning]; rfl⟩
      · exact h.running_other hmay hsess (fun hop => heq (Option.some.inj hop).symm) nofun
    · exact h.running_closed hmay rfl hsess
  | commit tx' =>
    rcases exec_commit hexec with ⟨sess', -, rfl⟩ | ⟨-, rfl⟩
    · exact h.running_closed hmay (rfl : TxCall.tx _ = some tx') hsess
    · exact h.running_closed hmay rfl hsess
  | rollback tx' =>
    rw [exec_rollback hexec] at hsess
    exact h.running_closed hmay rfl hsess
  | reply =>
    rw [exec_reply hexec] at hsess
    obtain ⟨pid', htx, hrun⟩ := h.running hsess
    refine ⟨pid', ?_⟩
    by_cases hpid : pid = pid'
    · subst hpid
      rw [hself]
      exact ⟨htx, hrun⟩
    · rw [progress_other hpid]
      exact ⟨htx, hrun⟩

/-- **Every call of a process on its own transaction keeps transactions owned.** -/
theorem Owned.after (h : Owned init step v)
    (hexec : exec meaning e.op fate v.state = some (e.ans, s))
    (hmay : (progress init step v.hist e.pid).Allows allowed e.task e.op) :
    Owned init step (v.after e s) where
  sound := exec_sound hexec h.sound
  issued := h.after_issued hexec
  distinct := h.after_distinct hexec
  running := h.after_running hexec hmay

end Owned

/-! ## What a transaction may rely on -/

/-- What the phase of every open transaction asserts is true. -/
structure Upheld (init : φ) (step : τ → φ → (call : TxCall Q ρ) → call.Ans A → φ)
    (J : φ → Session κ α → Table κ α → Prop)
    (v : TxView τ ρ A κ α) : Prop extends Owned init step v where
  upheld : ∀ {pid}, (progress init step v.hist pid).running →
    ∃ tx session, (progress init step v.hist pid).tx = some tx ∧
      v.state.sessions.lookup tx = some session ∧
      J (progress init step v.hist pid).phase session v.state.committed

/-- Two transactions share no lock, and have locked what they wrote. -/
structure Apart (session sess' : Session κ α) : Prop where
  disjoint : ∀ lock ∈ session.locks, lock ∉ sess'.locks
  covered : ∀ w ∈ session.writes, .row w.1 ∈ session.locks
  covered' : ∀ w ∈ sess'.writes, .row w.1 ∈ sess'.locks

omit [DecidableEq κ] in
theorem Apart.not_written {session sess' : Session κ α} (h : Apart session sess') {key : κ}
    (hlocked : .row key ∈ sess'.locks) : ∀ w, (key, w) ∉ session.writes :=
  fun _ hw => h.disjoint _ (h.covered _ hw) hlocked

/-- Established by the transaction's own statements, and stable under the commits of others. -/
structure Assertions (meaning : (query : Q) → Statement κ α (A query)) (init : φ)
    (step : τ → φ → (call : TxCall Q ρ) → call.Ans A → φ) (allowed : τ → φ → TxCall Q ρ → Prop)
    (G : Condition τ (TxCall Q ρ) (TxCall.Ans A) (Database κ α))
    (J : φ → Session κ α → Table κ α → Prop) : Prop where
  begun : ∀ {t p tx committed}, allowed t p .beginTx → J (step t p .beginTx (some tx)) {} committed
  ran : ∀ {t p tx query session committed}, allowed t p (.statement tx query) →
    J p session committed →
    J (step t p (.statement tx query) (some ((meaning query).answer (session.view committed))))
      (session.run committed (meaning query)) committed
  replied : ∀ {t p result}, step t p (.reply result) () = p
  stable : ∀ {v e tx session pid sess'}, G v e → e.op = .commit tx → e.pid ≠ pid →
    allowed e.task (progress init step v.hist e.pid).phase e.op →
    (progress init step v.hist e.pid).running →
    J (progress init step v.hist e.pid).phase session v.state.committed →
    (progress init step v.hist pid).running →
    J (progress init step v.hist pid).phase sess' v.state.committed →
    Apart session sess' →
    J (progress init step v.hist pid).phase sess' (session.writes.apply v.state.committed)

section Upheld

variable {meaning : (query : Q) → Statement κ α (A query)} {fate : Fate}
  {v : TxView τ ρ A κ α}
  {e : TxEvent τ ρ A} {s : Database κ α}
  {allowed : τ → φ → TxCall Q ρ → Prop}
  {G : Condition τ (TxCall Q ρ) (TxCall.Ans A) (Database κ α)}
  {J : φ → Session κ α → Table κ α → Prop}

omit [DecidableEq κ] in
theorem Upheld.own (h : Upheld init step J v)
    (hmay : (progress init step v.hist e.pid).Allows allowed e.task e.op) {tx : Nat}
    {session : Session κ α} (hsess : v.state.sessions.lookup tx = some session)
    (hop : e.op.tx = some tx) :
    (progress init step v.hist e.pid).running ∧
      J (progress init step v.hist e.pid).phase session v.state.committed := by
  have hrunning := h.running_self hmay hsess hop
  obtain ⟨tx', sess', htx', hsess', hJ⟩ := h.upheld hrunning
  rw [hmay.own tx hop] at htx'
  cases htx'
  rw [hsess] at hsess'
  cases hsess'
  exact ⟨hrunning, hJ⟩

theorem Upheld.after_self (h : Upheld init step J v)
    (hrules : Assertions meaning init step allowed G J)
    (hexec : exec meaning e.op fate v.state = some (e.ans, s))
    (hmay : (progress init step v.hist e.pid).Allows allowed e.task e.op)
    (hrunning : (progress init step (e :: v.hist) e.pid).running) :
    ∃ tx session, (progress init step (e :: v.hist) e.pid).tx = some tx ∧
      s.sessions.lookup tx = some session ∧
      J (progress init step (e :: v.hist) e.pid).phase session s.committed := by
  have hown : ∀ {tx session}, v.state.sessions.lookup tx = some session → e.op.tx = some tx →
      (progress init step v.hist e.pid).running ∧
        J (progress init step v.hist e.pid).phase session v.state.committed :=
    fun hs hop => h.own hmay hs hop
  have hok := hmay.phase
  have htx := hmay.own
  rw [progress_self] at hrunning ⊢
  obtain ⟨pid, t, op, a⟩ := e
  cases op with
  | beginTx =>
    rcases exec_beginTx hexec with ⟨rfl, rfl⟩ | ⟨rfl, -⟩
    · refine ⟨_, _, rfl, ?_, hrules.begun hok⟩
      rw [lookup_insert_eq, if_pos rfl]
    · cases hrunning
  | statement tx =>
    rcases exec_statement hexec with ⟨session, hsess, -, rfl, rfl⟩ | ⟨rfl, -⟩
    · refine ⟨tx, _, htx tx rfl, ?_, hrules.ran hok (hown hsess rfl).2⟩
      rw [lookup_insert_eq, if_pos rfl]
    · simp only [Progress.next, Option.isSome_none, Bool.and_false] at hrunning
      cases hrunning
  | reply result =>
    rw [exec_reply hexec]
    obtain ⟨tx, session, htx, hsess, hJ⟩ := h.upheld hrunning
    refine ⟨tx, session, htx, hsess, ?_⟩
    show J (step t (progress init step v.hist pid).phase (.reply result) ()) session _
    rw [hrules.replied]
    exact hJ
  | _ => cases hrunning

theorem Upheld.after_other (h : Upheld init step J v)
    (hrules : Assertions meaning init step allowed G J)
    (hexec : exec meaning e.op fate v.state = some (e.ans, s)) (hG : G v e)
    (hmay : (progress init step v.hist e.pid).Allows allowed e.task e.op)
    (hpid : e.pid ≠ pid) (hrunning : (progress init step v.hist pid).running) :
    ∃ tx session, (progress init step v.hist pid).tx = some tx ∧
      s.sessions.lookup tx = some session ∧
      J (progress init step v.hist pid).phase session s.committed := by
  obtain ⟨tx, session, htx, hsess, hJ⟩ := h.upheld hrunning
  have hkept := h.session_other hexec hmay hpid htx
  refine ⟨tx, session, htx, hkept.trans hsess, ?_⟩
  -- only a commit changes what the others see
  have hcommit : ∀ {tx' sess'}, e.op = .commit tx' →
      v.state.sessions.lookup tx' = some sess' →
      J (progress init step v.hist pid).phase session (sess'.writes.apply v.state.committed) := by
    intro tx' sess' hop hsess'
    obtain ⟨hrunning', hJ'⟩ := h.own hmay hsess' (by rw [hop]; rfl)
    refine hrules.stable hG hop hpid hmay.phase hrunning' hJ' hrunning hJ
      ⟨?_, h.sound.covered hsess', h.sound.covered hsess⟩
    intro lock hlock hlock'
    have hsame := h.sound.exclusive hsess' hsess hlock hlock'
    subst hsame
    exact hpid (h.distinct (hmay.own tx' (by rw [hop]; rfl)) htx)
  obtain ⟨pid', t, op, a⟩ := e
  cases op with
  | beginTx => rcases exec_beginTx hexec with ⟨-, rfl⟩ | ⟨-, rfl⟩ <;> exact hJ
  | statement =>
    rcases exec_statement hexec with ⟨sess', -, -, -, rfl⟩ | ⟨-, rfl⟩ <;> exact hJ
  | commit =>
    rcases exec_commit hexec with ⟨sess', hsess', rfl⟩ | ⟨-, rfl⟩
    · exact hcommit rfl hsess'
    · exact hJ
  | rollback =>
    rw [exec_rollback hexec]
    exact hJ
  | reply =>
    rw [exec_reply hexec]
    exact hJ

theorem Upheld.after (h : Upheld init step J v) (hrules : Assertions meaning init step allowed G J)
    (hexec : exec meaning e.op fate v.state = some (e.ans, s)) (hG : G v e)
    (hmay : (progress init step v.hist e.pid).Allows allowed e.task e.op) :
    Upheld init step J (v.after e s) where
  toOwned := h.toOwned.after hexec hmay
  upheld := by
    intro pid hrunning
    rw [View.after_hist] at hrunning ⊢
    rw [View.after_state]
    by_cases hpid : e.pid = pid
    · subst hpid
      exact h.after_self hrules hexec hmay hrunning
    · rw [progress_other hpid] at hrunning ⊢
      exact h.after_other hrules hexec hG hmay hpid hrunning

end Upheld

/-! ## Methods that end when a call fails -/

/-- What an answer teaches, and what a commit does. -/
structure Phases (φ : Type) {Q : Type} (A : Q → Type) where
  begun : φ
  failed : φ
  learn : φ → (query : Q) → A query → φ
  settle : φ → φ

/-- The phase after a call. -/
def Phases.after (m : Phases φ A) (p : φ) : (call : TxCall Q ρ) → call.Ans A → φ
  | .beginTx, some _ => m.begun
  | .beginTx, none => m.failed
  | .statement _ query, some answer => m.learn p query answer
  | .statement _ _, none => m.failed
  | .commit _, true => m.settle p
  | .commit _, false => m.failed
  | .rollback _, _ => p
  | .reply _, _ => p

section Phases

omit [DecidableEq κ]

variable {m : Phases φ A} {refused : (query : Q) → A query → Bool} {p target : φ}
  {call : TxCall Q ρ} {a : call.Ans A}

theorem Phases.failedCall_of_after (h : m.after p call a = m.failed) (hp : p ≠ m.failed)
    (hbegun : m.begun ≠ m.failed) (hsettle : m.settle p = m.failed → p = m.failed)
    (hlearn : ∀ query a, m.learn p query a = m.failed → p = m.failed ∨ refused query a) :
    failedCall refused call a := by
  cases call with
  | beginTx =>
    cases a with
    | none => rfl
    | some => exact absurd h hbegun
  | statement tx query =>
    cases a with
    | none => rfl
    | some a => exact (hlearn query a h).resolve_left hp
  | commit =>
    cases a with
    | false => rfl
    | true => exact absurd (hsettle h) hp
  | _ => exact absurd h hp

theorem Phases.commit_of_after (h : m.after p call a = target) (hp : p ≠ target)
    (hbegun : m.begun ≠ target) (hfail : m.failed ≠ target)
    (hlearn : ∀ query a, m.learn p query a = target → p = target) :
    m.settle p = target ∧ ∃ tx, (⟨call, a⟩ : Sigma (TxCall.Ans A)) = ⟨.commit tx, true⟩ := by
  cases call with
  | beginTx => cases a <;> first | exact absurd h hfail | exact absurd h hbegun
  | statement tx query =>
    cases a with
    | none => exact absurd h hfail
    | some a => exact absurd (hlearn query a h) hp
  | commit tx =>
    cases a with
    | false => exact absurd h hfail
    | true => exact ⟨h, tx, rfl⟩
  | _ => exact absurd h hp

theorem failed_learned {failed : φ}
    {hist : List (TxEvent τ ρ A)}
    (h : (progress init step hist pid).phase = failed) (hinit : init ≠ failed)
    (hstep : ∀ t p (call : TxCall Q ρ) (a : call.Ans A), step t p call a = failed →
      p ≠ failed → failedCall refused call a) :
    ∃ e ∈ hist, e.pid = pid ∧ failedCall refused e.op e.ans := by
  obtain ⟨e, old, hsuf, hpid, hbefore, hafter⟩ :=
    track_learned (P := fun p : Progress φ => p.phase = failed) h hinit
  exact ⟨e, hsuf.subset mem_cons_self, hpid, hstep e.task _ _ _ hafter hbefore⟩

end Phases

/-! ## Methods in transactions -/

/-- Tasks that talk to one database and may start at any time. -/
def transactions (meaning : (query : Q) → Statement κ α (A query))
    (code : τ → Prog (TxCall Q ρ) (TxCall.Ans A) Unit) :
    System τ (TxCall Q ρ) (TxCall.Ans A) (Database κ α) Fate where
  exec := exec meaning
  code := code
  may _ _ := true

omit [DecidableEq κ] in
/-- Nothing has happened yet, and the table holds `rows`. -/
def start (rows : Table κ α) : Config τ (TxCall Q ρ) (TxCall.Ans A) (Database κ α) where
  state := { committed := rows }
  hist := []
  procs := []

/-- The code of a method. -/
abbrev TxProg (A : Q → Type) (ρ α : Type) := Prog (TxCall Q ρ) (TxCall.Ans A) α

/-- Begin, or answer `failed`; roll back what was not committed. -/
def inTransaction (failed : ρ) (body : Nat → TxProg A ρ ρ) :
    TxProg A ρ Unit :=
  .call .beginTx fun
    | none => .call (.reply failed) fun _ => .ret ()
    | some tx =>
      body tx >>= fun result =>
        .call (.rollback tx) fun _ => .call (.reply result) fun _ => .ret ()

/-- Send a statement; if it fails the method answers `failed`. -/
def attempt (tx : Nat) (query : Q) (failed : ρ) (rest : A query → TxProg A ρ ρ) : TxProg A ρ ρ :=
  .call (.statement tx query) fun
    | none => .ret failed
    | some answer => rest answer

/-- Commit, and answer `result`, or `failed`. -/
def conclude (tx : Nat) (failed result : ρ) : TxProg A ρ ρ :=
  .call (.commit tx) fun ok => .ret (if ok then result else failed)

/-- A statement in a transaction of its own. -/
def autocommit (query : Q) (failed : ρ) (rest : A query → TxProg A ρ ρ) : TxProg A ρ ρ :=
  .call .beginTx fun
    | none => .ret failed
    | some tx =>
      .call (.statement tx query) fun
        | none => .ret failed
        | some answer => .call (.commit tx) fun ok => if ok then rest answer else .ret failed

section Methods

variable {meaning : (query : Q) → Statement κ α (A query)}
  {code : τ → TxProg A ρ Unit} {allowed : τ → φ → TxCall Q ρ → Prop}
  {answers : τ → φ → ρ → Prop}
  {G : Condition τ (TxCall Q ρ) (TxCall.Ans A) (Database κ α)}
  {J : φ → Session κ α → Table κ α → Prop} {rows : Table κ α}

/-- A method may always roll back, and answers as its phase says. -/
structure Closing (step : τ → φ → (call : TxCall Q ρ) → call.Ans A → φ)
    (allowed : τ → φ → TxCall Q ρ → Prop) (answers : τ → φ → ρ → Prop) (t : τ) : Prop where
  rollback : ∀ p tx, allowed t p (.rollback tx)
  rolled : ∀ p tx, step t p (.rollback tx) () = p
  reply : ∀ {p result}, answers t p result → allowed t p (.reply result)

/-- The body of a method follows the phases of its transaction. -/
def FollowsPhases (step : τ → φ → (call : TxCall Q ρ) → call.Ans A → φ)
    (allowed : τ → φ → TxCall Q ρ → Prop) (answers : τ → φ → ρ → Prop) (t : τ) (tx : Nat)
    (body : TxProg A ρ ρ) (p : Progress φ) : Prop :=
  Follows (Progress.next step t) (Progress.Allows allowed t)
    (fun result p => p.tx = some tx ∧ answers t p.phase result) body p

section Follows

omit [DecidableEq κ]

variable {t : τ} {tx : Nat} {p : Progress φ} {failed result : ρ}

theorem follows_ret (htx : p.tx = some tx) (h : answers t p.phase result) :
    FollowsPhases step allowed answers t tx (.ret result) p :=
  ⟨htx, h⟩

theorem follows_attempt {query : Q} {rest : A query → TxProg A ρ ρ}
    (htx : p.tx = some tx) (hok : allowed t p.phase (.statement tx query))
    (hfail : answers t (step t p.phase (.statement tx query) none) failed)
    (hrest : ∀ a, FollowsPhases step allowed answers t tx (rest a)
      (p.next step t (.statement tx query) (some a))) :
    FollowsPhases step allowed answers t tx (attempt tx query failed rest) p := by
  refine ⟨⟨?_, nofun, hok⟩, fun a => ?_⟩
  · rintro tx' ⟨⟩
    exact htx
  · cases a with
    | none => exact ⟨htx, hfail⟩
    | some a => exact hrest a

theorem follows_conclude (htx : p.tx = some tx) (hok : allowed t p.phase (.commit tx))
    (hfail : answers t (step t p.phase (.commit tx) false) failed)
    (hres : answers t (step t p.phase (.commit tx) true) result) :
    FollowsPhases step allowed answers t tx (conclude tx failed result) p := by
  refine ⟨⟨?_, nofun, hok⟩, fun ok => ?_⟩
  · rintro tx' ⟨⟩
    exact htx
  · cases ok with
    | true => exact ⟨htx, hres⟩
    | false => exact ⟨htx, hfail⟩

theorem follows_inTransaction (hclosing : Closing step allowed answers t)
    {body : Nat → TxProg A ρ ρ} (hbegin : allowed t init .beginTx)
    (hfail : answers t (step t init .beginTx none) failed)
    (hbody : ∀ tx, FollowsPhases step allowed answers t tx (body tx)
      ⟨some tx, true, step t init .beginTx (some tx)⟩) :
    Follows (Progress.next step t) (Progress.Allows allowed t) (fun _ _ => True)
      (inTransaction failed body) { phase := init } := by
  refine ⟨⟨nofun, fun _ => rfl, hbegin⟩, fun a => ?_⟩
  cases a with
  | none => exact ⟨⟨nofun, nofun, hclosing.reply hfail⟩, fun _ => trivial⟩
  | some tx =>
    refine Follows.bind (hbody tx) fun result p hp => ?_
    obtain ⟨htx, hans⟩ := hp
    refine ⟨⟨?_, nofun, hclosing.rollback _ _⟩, fun _ => ⟨⟨nofun, nofun, ?_⟩, fun _ => trivial⟩⟩
    · rintro tx' ⟨⟩
      exact htx
    · show allowed t (step t p.phase (.rollback tx) ()) (.reply result)
      rw [hclosing.rolled]
      exact hclosing.reply hans

end Follows

omit [DecidableEq κ] in
theorem upheld_start (rows : Table κ α) :
    Upheld init step J
      (start rows : Config τ (TxCall Q ρ) (TxCall.Ans A) (Database κ α)).toView where
  sound := ⟨nofun, nofun, nofun⟩
  issued := nofun
  distinct := nofun
  running := nofun
  upheld := nofun

/-- **What transactions may rely on along a run**: the assertions of their phases, if these are
stable. -/
theorem ensures_upheld (hrules : Assertions meaning init step allowed G J)
    (hcode : ∀ t, Follows (Progress.next step t) (Progress.Allows allowed t)
      (fun _ _ => True) (code t) { phase := init }) :
    (transactions meaning code).Ensures (start rows) G fun v e =>
      (G v e ∧ (progress init step v.hist e.pid).Allows allowed e.task e.op) ∧
        Upheld init step J v :=
  (ensures_follows hcode rfl rfl).trans
    (ensures_invariant
      (fun _ _ _ _ h hexec hG => h.after hrules hexec hG.1 hG.2) (upheld_start rows))

end Methods

end Progress

/-! ## A transaction alone -/

section Alone

variable {κ α Q ρ : Type} {A : Q → Type} [DecidableEq κ]
  {meaning : (query : Q) → Statement κ α (A query)}

/-- The database while its first transaction is the only one. -/
def alone (session : Session κ α) (committed : Table κ α) : Database κ α where
  committed := committed
  sessions := (∅ : Table Nat (Session κ α)).insert 0 session
  next := 1

theorem exec_alone_statement (query : Q) (session : Session κ α) (committed : Table κ α) :
    exec meaning (.statement 0 query : TxCall Q ρ) .done (alone session committed) =
      some (some ((meaning query).answer (session.view committed)),
        alone (session.run committed (meaning query)) committed) := by
  have hblock : ∀ locks, (alone session committed).blocked 0 locks = false := by
    intro locks
    simp only [Database.blocked, alone, AList.entries_insert_of_notMem (AList.notMem_empty 0),
      AList.empty_entries, any_cons, any_nil, bne_self_eq_false, Bool.false_and,
      Bool.or_false]
  have hget : (alone session committed).sessions.lookup 0 = some session := AList.lookup_insert _
  rw [exec, hget]
  dsimp only
  rw [alone] at hblock ⊢
  rw [hblock, if_neg Bool.false_ne_true, AList.insert_insert, alone]

theorem exec_alone_commit (session : Session κ α) (committed : Table κ α) :
    exec meaning (.commit 0 : TxCall Q ρ) .done (alone session committed) =
      some (true, (alone session committed).accept 0 session) := by
  have hget : (alone session committed).sessions.lookup 0 = some session := AList.lookup_insert _
  rw [exec, hget]
  rfl

/-- Every call has gone through. -/
def Unfailing (tr : List (Sigma (TxCall.Ans A (ρ := ρ)))) : Prop :=
  ∀ made ∈ tr, failedCall (fun _ _ => false) made.1 made.2 = false

/-- In the only open transaction the body answers `outcome.1`, leaves the rows `outcome.2`, and no
call has failed. -/
def ReturnsAlone (meaning : (query : Q) → Statement κ α (A query)) (body : TxProg A ρ ρ)
    (session : Session κ α) (t : Table κ α) (outcome : ρ × Table κ α) : Prop :=
  ∃ tr db, Prog.Runs (exec meaning) body (alone session t) tr outcome.1 db ∧ Unfailing tr ∧
    ∀ key, db.committed.lookup key = outcome.2.lookup key

/-- A method alone from the rows `t`, without a failed call. -/
def Alone (meaning : (query : Q) → Statement κ α (A query)) (method : TxProg A ρ Unit)
    (t : Table κ α) (outcome : ρ × Table κ α) : Prop :=
  ∃ tr db, Prog.Runs (exec meaning) method { committed := t }
      (tr ++ [⟨.reply outcome.1, ()⟩]) () db ∧ Unfailing tr ∧
    ∀ key, db.committed.lookup key = outcome.2.lookup key

section Rules

variable {session : Session κ α} {t t' : Table κ α} {failed result : ρ} {outcome : ρ × Table κ α}

theorem Unfailing.cons {call : TxCall Q ρ} {a : call.Ans A}
    {tr : List (Sigma (TxCall.Ans A (ρ := ρ)))}
    (h : failedCall (fun _ _ => false) call a = false) (htr : Unfailing tr) :
    Unfailing (⟨call, a⟩ :: tr) :=
  forall_mem_cons.mpr ⟨h, htr⟩

theorem alone_reply (result : ρ) :
    Alone meaning (.call (.reply result) fun _ => .ret ()) t (result, t) :=
  ⟨[], _, .call (x := .done) rfl (.ret () _), nofun, fun _ => rfl⟩

theorem returnsAlone_ret (result : ρ) : ReturnsAlone meaning (.ret result) session t (result, t) :=
  ⟨[], _, .ret result _, nofun, fun _ => rfl⟩

theorem returnsAlone_attempt {query : Q} {rest : A query → TxProg A ρ ρ}
    (h : ReturnsAlone meaning (rest ((meaning query).answer (session.view t)))
      (session.run t (meaning query)) t outcome) :
    ReturnsAlone meaning (attempt 0 query failed rest) session t outcome := by
  obtain ⟨tr, db, hruns, hok, hrows⟩ := h
  exact ⟨_, db, .call (exec_alone_statement query session t) hruns, hok.cons rfl, hrows⟩

theorem returnsAlone_conclude (h : ∀ key, (session.view t).lookup key = t'.lookup key) :
    ReturnsAlone meaning (conclude 0 failed result) session t (result, t') :=
  ⟨_, _, .call (exec_alone_commit session t) (.ret result _), Unfailing.cons rfl nofun, h⟩

theorem alone_inTransaction {body : Nat → TxProg A ρ ρ}
    (h : ReturnsAlone meaning (body 0) {} t outcome) :
    Alone meaning (inTransaction failed body) t outcome := by
  obtain ⟨tr, db, hruns, hok, hrows⟩ := h
  refine ⟨⟨.beginTx, some 0⟩ :: (tr ++ [⟨.rollback 0, ()⟩]), db.close 0, ?_, ?_, hrows⟩
  · have hbegin : exec meaning (.beginTx : TxCall Q ρ) .done { committed := t } =
        some (some 0, alone {} t) := rfl
    have hrollback : exec meaning (.rollback 0 : TxCall Q ρ) .done db = some ((), db.close 0) := rfl
    have hreply : exec meaning (.reply outcome.1) .done (db.close 0) = some ((), db.close 0) := rfl
    rw [cons_append, append_assoc]
    refine .call hbegin (Prog.runs_bind_iff.mpr ⟨tr, _, outcome.1, db, rfl, hruns, ?_⟩)
    exact .call hrollback (.call hreply (.ret () _))
  · refine Unfailing.cons rfl (forall_mem_append.mpr ⟨hok, Unfailing.cons rfl nofun⟩)

end Rules

end Alone

end Transact
