import Ferventio.Delivery.Postgres

/-!
# The settings stores

`storage/memory/sync_store.go` and `storage/postgres/postgres_settings_sync.go`: the revisions of a
user's settings. The memory store keeps a current snapshot and a list of older ones for each user.
PostgreSQL keeps a row for each revision, and finds the current one by sorting. `Put` and `Restore`
answer a snapshot and an error, and sometimes both. A `jsonb` column gives back a canonical text of
the payload, so `Jsonb` is a parameter: what `json.Valid` accepts, and the canonical text.
-/

namespace Ferventio

variable {revision : Int} {snapshot : SettingsSyncSnapshot}

/-- How the code and the database read a JSON text. -/
structure Jsonb where
  valid : String → Bool
  canonical : String → String
  canonical_canonical : ∀ text, canonical (canonical text) = canonical text

/-- JSON texts that are all valid and are stored as they are. -/
def Jsonb.verbatim : Jsonb where
  valid _ := true
  canonical text := text
  canonical_canonical _ := rfl

/-- A write of an app. -/
structure SettingsPut where
  userID : String
  installationID : String
  baseRevision : Int
  force : Bool
  appVersion : String
  contentHash : String
  payload : String
deriving DecidableEq

/-- The answer to it. -/
abbrev SettingsAnswer := SettingsSyncSnapshot × Option GoError

/-- The revision that the next one is counted from. -/
def currentRevision (current : Option SettingsSyncSnapshot) : Int := current.elim 0 (·.revision)

/-- The snapshot that it makes. -/
def SettingsPut.next (put : SettingsPut) (now : Time) (current : Option SettingsSyncSnapshot) :
    SettingsSyncSnapshot where
  revision := currentRevision current + 1
  updatedAt := now
  updatedByInstallationID := put.installationID
  appVersion := put.appVersion
  contentHash := put.contentHash
  payload := put.payload

/-! ## In memory -/

namespace Memory

/-- The settings of all users. -/
abbrev SettingsSyncTable := Table String SettingsSyncUserState

/-- The latest snapshot. -/
def currentSettings (userID : String) (users : SettingsSyncTable) : Option SettingsSyncSnapshot :=
  (users.lookup userID).bind (·.current)

/-- Write, unless it is outdated. -/
def putLocked (now : Time) (put : SettingsPut) (users : SettingsSyncTable) :
    SettingsAnswer × SettingsSyncTable :=
  let userState := (users.lookup put.userID).getD {}
  if !put.force && put.baseRevision != currentRevision userState.current then
    ((userState.current.getD {}, some .settingsSyncConflict), users)
  else if userState.current.any (·.contentHash == put.contentHash) then
    ((userState.current.getD {}, none), users)
  else
    let next := put.next now userState.current
    let history := match userState.current with
      | none => userState.history
      | some current => (current :: userState.history).take maxSettingsSyncHistory
    ((next, none), users.insert put.userID { current := some next, history := history })

/-- The snapshots, the latest first. -/
def settingsHistory (userID : String) (users : SettingsSyncTable) : List SettingsSyncSnapshot :=
  match users.lookup userID with
  | none => []
  | some userState =>
    (userState.current.toList ++ userState.history).insertionSort fun a b => b.revision ≤ a.revision

/-- The current snapshot, or the first in the history. -/
def settingsSource (revision : Int) (userState : SettingsSyncUserState) :
    Option SettingsSyncSnapshot :=
  (userState.current.toList ++ userState.history).find? (·.revision == revision)

/-- Write an old snapshot again. -/
def restoreSettings (now : Time) (userID installationID : String) (revision : Int)
    (users : SettingsSyncTable) : SettingsAnswer × SettingsSyncTable :=
  match users.lookup userID with
  | none => (({}, some .settingsSyncRevisionNotFound), users)
  | some userState =>
    match settingsSource revision userState with
    | none => (({}, some .settingsSyncRevisionNotFound), users)
    | some source =>
      putLocked now
        { userID := userID
          installationID := installationID
          baseRevision := currentRevision userState.current
          force := true
          appVersion := source.appVersion
          contentHash := source.contentHash
          payload := source.payload } users

end Memory

/-! ## In PostgreSQL -/

namespace Postgres

/-- A stored snapshot. -/
structure SettingsSyncRow where
  updatedAt : Time
  updatedByInstallationID : String
  appVersion : String
  contentHash : String
  payload : String
deriving DecidableEq

/-- The snapshots by user and revision. -/
abbrev SettingsSyncTable := Table (String × Int) SettingsSyncRow

/-- Read a row. -/
def scanSettingsSyncSnapshot (revision : Int) (row : SettingsSyncRow) : SettingsSyncSnapshot where
  revision := revision
  updatedAt := row.updatedAt
  updatedByInstallationID := row.updatedByInstallationID
  appVersion := row.appVersion
  contentHash := row.contentHash
  payload := row.payload

/-- Write a row. -/
def settingsRow (jsonb : Jsonb) (snapshot : SettingsSyncSnapshot) : SettingsSyncRow where
  updatedAt := snapshot.updatedAt
  updatedByInstallationID := snapshot.updatedByInstallationID
  appVersion := snapshot.appVersion
  contentHash := snapshot.contentHash
  payload := jsonb.canonical snapshot.payload

/-- `SELECT … WHERE user_id = $1 ORDER BY revision DESC`. -/
def settingsSnapshots (userID : String) (t : SettingsSyncTable) : List SettingsSyncSnapshot :=
  (t.entries.filterMap fun e =>
    if e.1.1 = userID then some (scanSettingsSyncSnapshot e.1.2 e.2) else none).insertionSort
      fun a b => b.revision ≤ a.revision

/-- The latest snapshot. -/
def currentSettings (userID : String) (t : SettingsSyncTable) : Option SettingsSyncSnapshot :=
  (settingsSnapshots userID t).head?

/-- The snapshots, the latest first. -/
def settingsHistory (userID : String) (t : SettingsSyncTable) : List SettingsSyncSnapshot :=
  (settingsSnapshots userID t).take (maxSettingsSyncHistory + 1)

/-- `SELECT … WHERE user_id = $1 AND revision = $2`. -/
def settingsRevision (userID : String) (revision : Int) (t : SettingsSyncTable) :
    Option SettingsSyncSnapshot :=
  (t.lookup (userID, revision)).map (scanSettingsSyncSnapshot revision)

/-- The revisions not among the newest. -/
def staleRevision (userID : String) (t : SettingsSyncTable) (key : String × Int) : Bool :=
  key.1 == userID && !((settingsHistory userID t).map (·.revision)).contains key.2

/-- Delete the oldest snapshots. -/
def trimSettings (userID : String) (t : SettingsSyncTable) : SettingsSyncTable :=
  t.select fun key _ => !staleRevision userID t key

/-- Insert a revision and trim the old ones. -/
def insertSettings (jsonb : Jsonb) (operation userID : String) (next : SettingsSyncSnapshot)
    (t : SettingsSyncTable) : SettingsAnswer × SettingsSyncTable :=
  if (t.lookup (userID, next.revision)).isSome then
    (({}, some (fmtDatabase operation (some (.plain "duplicate key value")))), t)
  else
    ((next, none), trimSettings userID (t.insert (userID, next.revision) (settingsRow jsonb next)))

/-- Write, unless it is outdated. -/
def putSettings (jsonb : Jsonb) (now : Time) (put : SettingsPut) (t : SettingsSyncTable) :
    SettingsAnswer × SettingsSyncTable :=
  let current := currentSettings put.userID t
  if !put.force && put.baseRevision != currentRevision current then
    ((current.getD {}, some .settingsSyncConflict), t)
  else if current.any (·.contentHash == put.contentHash) then ((current.getD {}, none), t)
  else if !jsonb.valid put.payload then
    (({}, some (.plain "settings payload must contain valid JSON")), t)
  else insertSettings jsonb "insert settings snapshot" put.userID (put.next now current) t

/-- An old snapshot as the next one. -/
def restoredSnapshot (now : Time) (installationID : String) (source : SettingsSyncSnapshot)
    (current : Option SettingsSyncSnapshot) : SettingsSyncSnapshot where
  revision := currentRevision current + 1
  updatedAt := now
  updatedByInstallationID := installationID
  appVersion := source.appVersion
  contentHash := source.contentHash
  payload := source.payload

/-- Write an old snapshot again. -/
def restoreSettings (jsonb : Jsonb) (now : Time) (userID installationID : String) (revision : Int)
    (t : SettingsSyncTable) : SettingsAnswer × SettingsSyncTable :=
  match settingsRevision userID revision t with
  | none => (({}, some .settingsSyncRevisionNotFound), t)
  | some source =>
    insertSettings jsonb "insert restored settings snapshot" userID
      (restoredSnapshot now installationID source (currentSettings userID t)) t

end Postgres

/-! ## The rows of a user -/

open Table List

namespace Postgres

/-- A later revision. -/
def Newer (a b : SettingsSyncSnapshot) : Prop := b.revision < a.revision

instance : Std.Irrefl Newer := ⟨fun a => lt_irrefl a.revision⟩

instance : Std.Antisymm Newer := ⟨fun _ _ h h' => absurd h (lt_asymm h')⟩

section Snapshots

variable {uid : String} {t : SettingsSyncTable}

theorem mem_settingsSnapshots :
    snapshot ∈ settingsSnapshots uid t ↔
      settingsRevision uid snapshot.revision t = some snapshot := by
  rw [settingsSnapshots, mem_insertionSort, mem_filterMap, settingsRevision, Option.map_eq_some_iff]
  constructor
  · rintro ⟨⟨⟨user, revision⟩, row⟩, hmem, h⟩
    dsimp only at h
    split_ifs at h with huser
    cases h
    exact ⟨row, huser ▸ mem_entries_iff.mp hmem, rfl⟩
  · rintro ⟨row, hrow, h⟩
    refine ⟨⟨(uid, snapshot.revision), row⟩, mem_entries_iff.mpr hrow, ?_⟩
    rw [if_pos rfl, h]

theorem settingsSnapshots_descending (uid : String) (t : SettingsSyncTable) :
    (settingsSnapshots uid t).Pairwise Newer := by
  have htotal : Std.Total fun a b : SettingsSyncSnapshot => b.revision ≤ a.revision :=
    ⟨fun a b => le_total b.revision a.revision⟩
  have htrans : IsTrans SettingsSyncSnapshot fun a b => b.revision ≤ a.revision :=
    ⟨fun _ _ _ h h' => le_trans h' h⟩
  -- two rows of one user have different keys, so they differ in the revision
  have hdistinct : (t.entries.filterMap fun e =>
      if e.1.1 = uid then some (scanSettingsSyncSnapshot e.1.2 e.2) else none).Pairwise
        fun a b => a.revision ≠ b.revision := by
    rw [pairwise_filterMap]
    refine List.Pairwise.imp ?_ (nodupKeys_iff_pairwise.mp t.nodupKeys)
    rintro ⟨⟨user, revision⟩, row⟩ ⟨⟨user', revision'⟩, row'⟩ hkeys a ha b hb
    dsimp only at ha hb hkeys
    split_ifs at ha hb with huser huser'
    cases ha
    cases hb
    rintro (rfl : revision = revision')
    exact hkeys (by rw [huser, huser'])
  have hsort := pairwise_insertionSort (fun a b : SettingsSyncSnapshot =>
    b.revision ≤ a.revision) (t.entries.filterMap fun e =>
      if e.1.1 = uid then some (scanSettingsSyncSnapshot e.1.2 e.2) else none)
  have hperm := perm_insertionSort (fun a b : SettingsSyncSnapshot =>
    b.revision ≤ a.revision) (t.entries.filterMap fun e =>
      if e.1.1 = uid then some (scanSettingsSyncSnapshot e.1.2 e.2) else none)
  have hne := hperm.symm.pairwise hdistinct fun h => Ne.symm h
  exact (hsort.and hne).imp fun h => lt_of_le_of_ne h.1 (Ne.symm h.2)

theorem settingsSnapshots_eq {l : List SettingsSyncSnapshot} (hl : l.Pairwise Newer)
    (h : ∀ snapshot, settingsRevision uid snapshot.revision t = some snapshot ↔ snapshot ∈ l) :
    settingsSnapshots uid t = l := by
  refine (settingsSnapshots_descending uid t).eq_of_mem_iff hl ?_
  intro snapshot
  rw [mem_settingsSnapshots, h]

theorem settingsSnapshots_congr {t' : SettingsSyncTable}
    (h : ∀ revision, t'.lookup (uid, revision) = t.lookup (uid, revision)) :
    settingsSnapshots uid t' = settingsSnapshots uid t := by
  refine settingsSnapshots_eq (settingsSnapshots_descending uid t) fun snapshot => ?_
  rw [mem_settingsSnapshots, settingsRevision, settingsRevision, h]

theorem le_currentRevision (h : snapshot ∈ settingsSnapshots uid t) :
    snapshot.revision ≤ currentRevision (currentSettings uid t) := by
  have hdesc := settingsSnapshots_descending uid t
  rw [currentSettings]
  cases hlist : settingsSnapshots uid t with
  | nil =>
    rw [hlist] at h
    cases h
  | cons =>
    rw [hlist] at h hdesc
    rcases mem_cons.mp h with rfl | h
    · exact le_rfl
    · exact le_of_lt ((pairwise_cons.mp hdesc).1 snapshot h)

theorem settingsRevision_eq_find (revision : Int) :
    settingsRevision uid revision t = (settingsSnapshots uid t).find? (·.revision == revision) := by
  ext snapshot
  rw [List.find?_eq_some_iff_append]
  constructor
  · intro h
    have hrev : snapshot.revision = revision := by
      obtain ⟨row, -, rfl⟩ := Option.map_eq_some_iff.mp h
      rfl
    subst hrev
    obtain ⟨newer, older, hlist⟩ := append_of_mem (mem_settingsSnapshots.mpr h)
    refine ⟨beq_self_eq_true _, newer, older, hlist, fun a ha => ?_⟩
    have hdesc := settingsSnapshots_descending uid t
    rw [hlist, pairwise_append] at hdesc
    have hnewer : snapshot.revision < a.revision := hdesc.2.2 a ha _ mem_cons_self
    rw [Bool.not_eq_true', beq_eq_false_iff_ne]
    exact ne_of_gt hnewer
  · rintro ⟨hrev, newer, older, hlist, -⟩
    have hmem : snapshot ∈ settingsSnapshots uid t := by
      rw [hlist]
      exact mem_append_right _ mem_cons_self
    rw [← beq_iff_eq.mp hrev]
    exact mem_settingsSnapshots.mp hmem

/-! ## Writing -/

theorem settingsSnapshots_insert {row : SettingsSyncRow}
    (h : ∀ snapshot ∈ settingsSnapshots uid t, snapshot.revision < revision) :
    settingsSnapshots uid (t.insert (uid, revision) row) =
      scanSettingsSyncSnapshot revision row :: settingsSnapshots uid t := by
  refine settingsSnapshots_eq ?_ fun snapshot => ?_
  · exact pairwise_cons.mpr ⟨h, settingsSnapshots_descending uid t⟩
  · rw [settingsRevision, lookup_insert_eq, mem_cons, mem_settingsSnapshots]
    by_cases hrev : snapshot.revision = revision
    · rw [if_pos (by rw [hrev])]
      constructor
      · intro hsome
        rw [hrev] at hsome
        exact .inl (Option.some.inj hsome).symm
      · rintro (rfl | hold)
        · rfl
        · exact absurd (h snapshot (mem_settingsSnapshots.mpr hold)) (by omega)
    · rw [if_neg fun hkey => hrev (Prod.ext_iff.mp hkey).2]
      refine (or_iff_right ?_).symm
      rintro rfl
      exact hrev rfl

theorem staleRevision_iff :
    staleRevision uid t (uid, revision) = false ↔
      ∃ snapshot ∈ settingsHistory uid t, snapshot.revision = revision := by
  rw [staleRevision, beq_self_eq_true, Bool.true_and, Bool.not_eq_false', contains_iff_mem, mem_map]

theorem settingsSnapshots_trim (uid : String) (t : SettingsSyncTable) :
    settingsSnapshots uid (trimSettings uid t) = settingsHistory uid t := by
  refine settingsSnapshots_eq ?_ fun snapshot => ?_
  · exact (settingsSnapshots_descending uid t).sublist (take_sublist _ _)
  · rw [settingsRevision, trimSettings, lookup_select]
    constructor
    · intro h
      obtain ⟨row, hrow, hsnapshot⟩ := Option.map_eq_some_iff.mp h
      obtain ⟨hrow, hkept⟩ := Option.filter_eq_some_iff.mp hrow
      rw [Bool.not_eq_true'] at hkept
      obtain ⟨kept, hmem, hrev⟩ := staleRevision_iff.mp hkept
      have hstored := mem_settingsSnapshots.mp (mem_of_mem_take hmem)
      rw [hrev, settingsRevision, hrow, Option.map_some, hsnapshot] at hstored
      exact Option.some.inj hstored ▸ hmem
    · intro h
      have hstored := mem_settingsSnapshots.mp (mem_of_mem_take h)
      obtain ⟨row, hrow, hsnapshot⟩ := Option.map_eq_some_iff.mp hstored
      refine Option.map_eq_some_iff.mpr ⟨row, Option.filter_eq_some_iff.mpr ⟨hrow, ?_⟩, hsnapshot⟩
      rw [Bool.not_eq_true']
      exact staleRevision_iff.mpr ⟨snapshot, h, rfl⟩

theorem lookup_trimSettings_other {other : String} (h : other ≠ uid) (revision : Int) :
    (trimSettings uid t).lookup (other, revision) = t.lookup (other, revision) := by
  have hfresh : staleRevision uid t (other, revision) = false := by
    rw [staleRevision, beq_eq_false_iff_ne.mpr h, Bool.false_and]
  rw [trimSettings, lookup_select]
  cases t.lookup (other, revision) with
  | none => rfl
  | some => simp only [Option.filter_some, hfresh, Bool.not_false, if_true]

theorem newer_of_next (h : revision = currentRevision (currentSettings uid t) + 1) :
    (∀ snapshot ∈ settingsSnapshots uid t, snapshot.revision < revision) ∧
      t.lookup (uid, revision) = none := by
  have hnewest : ∀ snapshot ∈ settingsSnapshots uid t, snapshot.revision < revision := by
    intro snapshot hmem
    have hle := le_currentRevision hmem
    omega
  refine ⟨hnewest, ?_⟩
  rw [Option.eq_none_iff_forall_ne_some]
  intro row hrow
  have hstored : scanSettingsSyncSnapshot revision row ∈ settingsSnapshots uid t := by
    rw [mem_settingsSnapshots, settingsRevision]
    exact Option.map_eq_some_iff.mpr ⟨row, hrow, rfl⟩
  have hlt := hnewest _ hstored
  exact lt_irrefl revision hlt

theorem insertSettings_eq (jsonb : Jsonb) (operation : String) {next : SettingsSyncSnapshot}
    (hnext : next.revision = currentRevision (currentSettings uid t) + 1) :
    ∃ t', insertSettings jsonb operation uid next t = ((next, none), t') ∧
      settingsSnapshots uid t' =
        (scanSettingsSyncSnapshot next.revision (settingsRow jsonb next) ::
          settingsSnapshots uid t).take (maxSettingsSyncHistory + 1) ∧
      ∀ other, other ≠ uid → settingsSnapshots other t' = settingsSnapshots other t := by
  obtain ⟨hnewest, hnone⟩ := newer_of_next hnext
  refine ⟨_, if_neg (by rw [hnone]; exact Bool.false_ne_true), ?_, fun other hother => ?_⟩
  · rw [settingsSnapshots_trim, settingsHistory, settingsSnapshots_insert hnewest]
  · refine settingsSnapshots_congr fun revision => ?_
    rw [lookup_trimSettings_other hother, lookup_insert_eq,
      if_neg fun hkey => hother (Prod.ext_iff.mp hkey).1]

end Snapshots

end Postgres

end Ferventio
