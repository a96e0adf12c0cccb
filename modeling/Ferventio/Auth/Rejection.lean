import Ferventio.Auth.Invariants

/-!
# A rejected revocation of an installation

`RevokeInstallation` removes what is bound to an installation when all of it has the caller's device
hash, and is rejected otherwise. The PostgreSQL store reads all device hashes before it deletes
anything. The in-memory store checks and deletes in the same loops, over the sessions, then the
pending logins, then the handoffs, each map in an order of Go's choice.

* **`rejected_revocation_iff`**: a rejected call changes nothing exactly when no artifact of the
  caller's device is visited before the first foreign one can be met.
-/

namespace Ferventio

namespace Memory

variable {H : String → String} {iid secret : String} {s : AuthDiskState}

/-! ## One loop -/

section Loop

variable {α : Type} {installation device : α → String} {hash : String}
  {entries : List (Row String α)} {t : Table String α}

/-- A row of the device. -/
def OwnRow (installation device : α → String) (iid hash : String) (row : α) :
    Prop :=
  installation row = iid ∧ secureHashEqual (device row) hash

/-- A row of the installation under another secret. -/
def ForeignRow (installation device : α → String) (iid hash : String) (row : α) :
    Prop :=
  installation row = iid ∧ secureHashEqual (device row) hash = false

theorem revokeRows_eq_self (h : ∀ e ∈ entries, ¬OwnRow installation device iid hash e.2) :
    (revokeRows installation device iid hash entries t).2 = t := by
  induction entries with
  | nil => rfl
  | cons e entries ih =>
    have hrest := ih fun e' he' => h e' (List.mem_cons_of_mem _ he')
    rw [revokeRows]
    split_ifs with hother hdev
    · exact hrest
    · rfl
    · refine absurd ⟨not_not.mp hother, ?_⟩ (h e List.mem_cons_self)
      simpa using hdev

theorem revokeRows_own {e : Row String α} (ht : t.lookup e.1 = some e.2)
    (he : OwnRow installation device iid hash e.2) :
    (revokeRows installation device iid hash (e :: entries) t).2 ≠ t := by
  intro heq
  have hget : (revokeRows installation device iid hash (e :: entries)
      t).2.lookup e.1 = some e.2 := by
    rw [heq]
    exact ht
  rw [revokeRows, if_neg (by simp [he.1]), if_neg (by simp [he.2])] at hget
  have herase := of_lookup_revokeRows hget
  rw [AList.lookup_erase] at herase
  cases herase

/-- The device has a row. -/
def HasOwn (installation device : α → String) (iid hash : String) (t : Table String α) : Prop :=
  ∃ e ∈ t.entries, OwnRow installation device iid hash e.2

/-- Another device has a row of the installation. -/
def HasForeign (installation device : α → String) (iid hash : String) (t : Table String α) : Prop :=
  ∃ e ∈ t.entries, ForeignRow installation device iid hash e.2

theorem revokeRows_stops (hperm : entries.Perm t.entries)
    (h : HasForeign installation device iid hash t) :
    (revokeRows installation device iid hash entries t).1 = false := by
  obtain ⟨e, he, hiid, hforeign⟩ := h
  rw [← Bool.not_eq_true, revokeRows_fst]
  intro hown
  rw [hown e (hperm.mem_iff.mpr he) hiid] at hforeign
  cases hforeign

theorem revokeRows_completes (hperm : entries.Perm t.entries)
    (h : ¬HasForeign installation device iid hash t) :
    (revokeRows installation device iid hash entries t).1 := by
  rw [revokeRows_fst]
  intro e he hiid
  by_contra hforeign
  exact h ⟨e, hperm.mem_iff.mp he, hiid, Bool.eq_false_iff.mpr hforeign⟩

theorem revokeRows_unchanged (hperm : entries.Perm t.entries)
    (h : ¬HasOwn installation device iid hash t) :
    (revokeRows installation device iid hash entries t).2 = t := by
  refine revokeRows_eq_self fun e he hown => ?_
  exact h ⟨e, hperm.mem_iff.mp he, hown⟩

theorem exists_visit (installation device : α → String) (iid hash : String) (t : Table String α) :
    ∃ entries : List (Row String α), entries.Perm t.entries ∧
      (HasOwn installation device iid hash t →
        (revokeRows installation device iid hash entries t).2 ≠ t) := by
  by_cases hown : HasOwn installation device iid hash t
  · obtain ⟨e, hmem, he⟩ := hown
    obtain ⟨front, back, hsplit⟩ := List.append_of_mem hmem
    refine ⟨e :: (front ++ back), ?_, fun _ => revokeRows_own (Table.mem_entries_iff.mp hmem) he⟩
    rw [hsplit]
    exact List.perm_middle.symm
  · exact ⟨t.entries, .refl _, fun h => absurd h hown⟩

end Loop

/-! ## The method -/

section Method

variable {hash : String}

/-- The device has a session. -/
abbrev OwnSession (iid hash : String) (s : AuthDiskState) : Prop :=
  HasOwn (·.installationID) (·.deviceHash) iid hash s.sessions

/-- The device has a pending login. -/
abbrev OwnPending (iid hash : String) (s : AuthDiskState) : Prop :=
  HasOwn (·.installationID) (·.deviceHash) iid hash s.pending

/-- The device has a handoff. -/
abbrev OwnHandoff (iid hash : String) (s : AuthDiskState) : Prop :=
  HasOwn (·.installationID) (·.deviceHash) iid hash s.handoffs

/-- Another device has a session. -/
abbrev ForeignSession (iid hash : String) (s : AuthDiskState) : Prop :=
  HasForeign (·.installationID) (·.deviceHash) iid hash s.sessions

/-- Another device has a pending login. -/
abbrev ForeignPending (iid hash : String) (s : AuthDiskState) : Prop :=
  HasForeign (·.installationID) (·.deviceHash) iid hash s.pending

/-- Another device has a handoff. -/
abbrev ForeignHandoff (iid hash : String) (s : AuthDiskState) : Prop :=
  HasForeign (·.installationID) (·.deviceHash) iid hash s.handoffs

/-- **No row of the caller is deleted before a foreign one is met**: the first map with a foreign
row, and those before it, have none of the caller. -/
structure CleanRejection (iid hash : String) (s : AuthDiskState) : Prop where
  sessions : ForeignSession iid hash s → ¬OwnSession iid hash s
  pending : ¬ForeignSession iid hash s →
    ForeignPending iid hash s →
    ¬OwnSession iid hash s ∧ ¬OwnPending iid hash s
  handoffs : ¬ForeignSession iid hash s →
    ¬ForeignPending iid hash s → ForeignHandoff iid hash s →
    ¬OwnSession iid hash s ∧ ¬OwnPending iid hash s ∧ ¬OwnHandoff iid hash s

/-- The rows that the loop leaves. -/
abbrev left {α : Type} (installation device : α → String) (installationID deviceHash : String)
    (entries : List (Row String α)) (t : Table String α) : Table String α :=
  (revokeRows installation device installationID deviceHash entries t).2

variable (visits : Visits s)

theorem visiting_foreignSession (h : ForeignSession iid (H secret) s) :
    revokeInstallation H iid secret s visits =
      (.error .authDeviceMismatch, { s with
        sessions := left (·.installationID) (·.deviceHash) iid
          (H secret) visits.sessions s.sessions }) := by
  have hstop := revokeRows_stops visits.sessions_perm h
  simp only [revokeInstallation, hstop, Bool.not_false, if_true]

theorem visiting_foreignPending (hsess : ¬ForeignSession iid (H secret) s)
    (h : ForeignPending iid (H secret) s) :
    revokeInstallation H iid secret s visits =
      (.error .authDeviceMismatch, { s with
        sessions := left (·.installationID) (·.deviceHash) iid
          (H secret) visits.sessions s.sessions
        pending := left (·.installationID) (·.deviceHash) iid
          (H secret) visits.pending s.pending }) := by
  have hdone := revokeRows_completes visits.sessions_perm hsess
  have hstop := revokeRows_stops visits.pending_perm h
  simp only [revokeInstallation, hdone, hstop, Bool.not_true, Bool.not_false, if_true,
    Bool.false_eq_true, if_false]

theorem visiting_foreignHandoff (hsess : ¬ForeignSession iid (H secret) s)
    (hpend : ¬ForeignPending iid (H secret) s) (h : ForeignHandoff iid (H secret) s) :
    revokeInstallation H iid secret s visits =
      (.error .authDeviceMismatch, { s with
        sessions := left (·.installationID) (·.deviceHash) iid
          (H secret) visits.sessions s.sessions
        pending := left (·.installationID) (·.deviceHash) iid
          (H secret) visits.pending s.pending
        handoffs := left (·.installationID) (·.deviceHash) iid
          (H secret) visits.handoffs s.handoffs }) := by
  have hdone := revokeRows_completes visits.sessions_perm hsess
  have hdone' := revokeRows_completes visits.pending_perm hpend
  have hstop := revokeRows_stops visits.handoffs_perm h
  simp only [revokeInstallation, hdone, hdone', hstop, Bool.not_true, Bool.not_false,
    if_true, Bool.false_eq_true, if_false]

theorem visiting_accepted (hsess : ¬ForeignSession iid (H secret) s)
    (hpend : ¬ForeignPending iid (H secret) s) (hho : ¬ForeignHandoff iid (H secret) s) :
    ∃ removed, (revokeInstallation H iid secret s visits).1 = .ok removed := by
  have hdone := revokeRows_completes visits.sessions_perm hsess
  have hdone' := revokeRows_completes visits.pending_perm hpend
  have hdone'' := revokeRows_completes visits.handoffs_perm hho
  simp only [revokeInstallation, hdone, hdone', hdone'', Bool.not_true, Bool.false_eq_true,
    if_false]
  exact ⟨_, rfl⟩

/-- A rejected call changes nothing, in the order `visits`. -/
def RejectsWhole (hashSecret : String → String) (iid secret : String)
    (s : AuthDiskState) (visits : Visits s) : Prop :=
  (revokeInstallation hashSecret iid secret s visits).1 =
      .error .authDeviceMismatch →
    (revokeInstallation hashSecret iid secret s visits).2 = s

theorem CleanRejection.rejectsWhole (h : CleanRejection iid (H secret) s) :
    RejectsWhole H iid secret s visits := by
  intro hrejected
  by_cases hsess : ForeignSession iid (H secret) s
  · rw [visiting_foreignSession visits hsess]
    simp only [left, revokeRows_unchanged visits.sessions_perm (h.sessions hsess)]
  by_cases hpend : ForeignPending iid (H secret) s
  · obtain ⟨hown, hown'⟩ := h.pending hsess hpend
    rw [visiting_foreignPending visits hsess hpend]
    simp only [left, revokeRows_unchanged visits.sessions_perm hown,
      revokeRows_unchanged visits.pending_perm hown']
  by_cases hho : ForeignHandoff iid (H secret) s
  · obtain ⟨hown, hown', hown''⟩ := h.handoffs hsess hpend hho
    rw [visiting_foreignHandoff visits hsess hpend hho]
    simp only [left, revokeRows_unchanged visits.sessions_perm hown,
      revokeRows_unchanged visits.pending_perm hown',
      revokeRows_unchanged visits.handoffs_perm hown'']
  · obtain ⟨removed, hacc⟩ := visiting_accepted visits hsess hpend hho
    rw [hacc] at hrejected
    cases hrejected

/-- The order that deletes the most is enough to test. -/
theorem cleanRejection_of_rejectsWhole
    (h : ∀ visits : Visits s, RejectsWhole H iid secret s visits) :
    CleanRejection iid (H secret) s := by
  obtain ⟨sessions, hsessions, hown⟩ := exists_visit (·.installationID) (·.deviceHash)
    iid (H secret) s.sessions
  obtain ⟨pending, hpendings, hown'⟩ := exists_visit (·.installationID) (·.deviceHash)
    iid (H secret) s.pending
  obtain ⟨handoffs, hhandoffs, hown''⟩ := exists_visit (·.installationID) (·.deviceHash)
    iid (H secret) s.handoffs
  have hwhole := h ⟨sessions, pending, handoffs, hsessions, hpendings, hhandoffs⟩
  unfold RejectsWhole at hwhole
  constructor
  · intro hsess howns
    rw [visiting_foreignSession _ hsess] at hwhole
    exact hown howns (congrArg AuthDiskState.sessions (hwhole rfl))
  · intro hsess hpend
    rw [visiting_foreignPending _ hsess hpend] at hwhole
    exact ⟨fun howns => hown howns (congrArg AuthDiskState.sessions (hwhole rfl)),
      fun howns => hown' howns (congrArg AuthDiskState.pending (hwhole rfl))⟩
  · intro hsess hpend hho
    rw [visiting_foreignHandoff _ hsess hpend hho] at hwhole
    exact ⟨fun howns => hown howns (congrArg AuthDiskState.sessions (hwhole rfl)),
      fun howns => hown' howns (congrArg AuthDiskState.pending (hwhole rfl)),
      fun howns => hown'' howns (congrArg AuthDiskState.handoffs (hwhole rfl))⟩

end Method

end Memory

theorem Postgres.rejected_unchanged {H : String → String} {x : Choice}
    {iid secret : String} {s : AuthDiskState}
    (h : (Postgres.execAuth H x (.revokeInstallation iid secret) s).1 =
      .error .authDeviceMismatch) :
    (Postgres.execAuth H x (.revokeInstallation iid secret) s).2 = s := by
  simp only [Postgres.execAuth, withFault] at h ⊢
  cases hfault : x.fault with
  | none =>
    simp only [hfault, answerAuth, revokeInstallation] at h ⊢
    split_ifs at h ⊢
    rfl
  | some fault =>
    cases fault with
    | refused =>
      rfl
    | answerLost =>
      simp only [hfault, failedAuth] at h
      cases h

/-- **A rejected revocation changes nothing**, in either store and every order, if and only if the
rejection is clean. -/
theorem rejected_revocation_iff (hashSecret : String → String)
    (iid secret : String) (s : AuthDiskState) :
    ((∀ visits : Memory.Visits s,
        (Memory.revokeInstallation hashSecret iid secret s visits).1 =
            .error .authDeviceMismatch →
          (Memory.revokeInstallation hashSecret iid secret s visits).2 =
            s) ∧
      ∀ x, (Postgres.execAuth hashSecret x (.revokeInstallation iid secret) s).1 =
          .error .authDeviceMismatch →
        (Postgres.execAuth hashSecret x (.revokeInstallation iid secret) s).2 =
          s) ↔
      Memory.CleanRejection iid (hashSecret secret) s := by
  constructor
  · rintro ⟨hmemory, -⟩
    exact Memory.cleanRejection_of_rejectsWhole hmemory
  · intro hclean
    exact ⟨fun visits => hclean.rejectsWhole visits, fun x => Postgres.rejected_unchanged⟩

/-- A login of the phone. -/
def phonePending (deviceHash : String) : PendingAuthRecord :=
  { installationID := "phone", deviceHash, appCallbackURI := "", createdAt := 1, expiresAt := 100 }

/-- Two devices log in under one name. -/
def twoLogins : AuthDiskState :=
  (execAuth .mem {} (.putPending "1" (phonePending "#a"))
    (execAuth .mem {} (.putPending "2" (phonePending "#b")) {}).2).2

/-- The revocation by the first device is rejected, and its own pending login is gone. -/
theorem mixed_logins_lost :
    AuthReached .mem (fun _ => True) twoLogins ∧
      (twoLogins.pending.lookup "#1").isSome ∧
      ∃ visits : Memory.Visits twoLogins,
        (Memory.revokeInstallation Env.mem.hashSecret "phone" "a" twoLogins
          visits).1 = .error .authDeviceMismatch ∧
        (Memory.revokeInstallation Env.mem.hashSecret "phone" "a" twoLogins
          visits).2.pending.lookup "#1" = none := by
  refine ⟨.call {} (.call {} .start trivial) trivial, by decide, .stored twoLogins, ?_, ?_⟩
  · decide
  · decide

end Ferventio
