import Ferventio.Settings.Store

/-!
# The two settings stores compared

A client does not look at the times of the snapshots nor at the formatting of the JSON payloads
(`shown`). The stores then answer alike as long as what they keep for each user looks alike
(`Agrees`), and every call keeps it so, with one exception. `Restore` in memory goes through
`putLocked`, which writes nothing when the content hash is the current one; in PostgreSQL it always
writes a new revision.

* **`settings_stores_agree_iff`**: when the stores answer a sequence of calls alike.
-/

namespace Ferventio

open Table List Memory

variable {revision : Int} {iid userID : String}

/-! ## Calls -/

/-- The methods. -/
inductive SettingsCall
  | current (userID : String)
  | put (put : SettingsPut)
  | history (userID : String)
  | restore (userID installationID : String) (revision : Int)

/-- Their results. -/
inductive SettingsResult
  | snapshot (found : Option SettingsSyncSnapshot)
  | answer (answer : SettingsAnswer)
  | snapshots (list : List SettingsSyncSnapshot)
deriving DecidableEq

/-- The memory store. -/
def Memory.serveSettings (now : Time) (call : SettingsCall) (users : SettingsSyncTable) :
    SettingsResult × SettingsSyncTable :=
  match call with
  | .current userID => (.snapshot (currentSettings userID users), users)
  | .history userID => (.snapshots (settingsHistory userID users), users)
  | .put put => (putLocked now put users).map .answer id
  | .restore userID installationID revision =>
    (restoreSettings now userID installationID revision users).map .answer id

/-- The database. -/
def Postgres.serveSettings (jsonb : Jsonb) (now : Time) (call : SettingsCall)
    (t : Postgres.SettingsSyncTable) : SettingsResult × Postgres.SettingsSyncTable :=
  match call with
  | .current userID => (.snapshot (currentSettings userID t), t)
  | .history userID => (.snapshots (settingsHistory userID t), t)
  | .put put => (putSettings jsonb now put t).map .answer id
  | .restore userID installationID revision =>
    (restoreSettings jsonb now userID installationID revision t).map .answer id

/-- The results of a sequence of calls. -/
def results {σ : Type} (serve : Time → SettingsCall → σ → SettingsResult × σ)
    (clock : Nat → Time) : Nat → List SettingsCall → σ → List SettingsResult
  | _, [], _ => []
  | n, call :: calls, s =>
    (serve (clock n) call s).1 :: results serve clock (n + 1) calls (serve (clock n) call s).2

/-! ## What a client compares -/

section Shown

variable (jsonb : Jsonb)

/-- Without its time, and with a canonical payload. -/
def SettingsSyncSnapshot.shown (snapshot : SettingsSyncSnapshot) : SettingsSyncSnapshot :=
  { snapshot with
    updatedAt := 0
    payload := jsonb.canonical snapshot.payload }

/-- The result as the app sees it. -/
def SettingsResult.shown : SettingsResult → SettingsResult
  | .snapshot found => .snapshot (found.map (·.shown jsonb))
  | .answer (latest, err) => .answer (latest.shown jsonb, err)
  | .snapshots list => .snapshots (list.map (·.shown jsonb))

variable {jsonb} {a b : SettingsSyncSnapshot} {current current' : Option SettingsSyncSnapshot}

theorem revision_of_shown (h : a.shown jsonb = b.shown jsonb) : a.revision = b.revision := by
  have hrev : (a.shown jsonb).revision = (b.shown jsonb).revision := by rw [h]
  exact hrev

theorem contentHash_of_shown (h : a.shown jsonb = b.shown jsonb) :
    a.contentHash = b.contentHash := by
  have hhash : (a.shown jsonb).contentHash = (b.shown jsonb).contentHash := by rw [h]
  exact hhash

section Current

variable (h : current.map (·.shown jsonb) = current'.map (·.shown jsonb))

include h

theorem currentRevision_of_shown : currentRevision current = currentRevision current' := by
  have hrev : ∀ c : Option SettingsSyncSnapshot,
      currentRevision c = (c.map (·.shown jsonb)).elim 0 (·.revision) := by
    intro c
    cases c <;> rfl
  rw [hrev, h, ← hrev]

theorem any_contentHash_of_shown (contentHash : String) :
    current.any (·.contentHash == contentHash) = current'.any (·.contentHash == contentHash) := by
  have hany : ∀ c : Option SettingsSyncSnapshot, c.any (·.contentHash == contentHash) =
      (c.map (·.shown jsonb)).any (·.contentHash == contentHash) := by
    intro c
    cases c <;> rfl
  rw [hany, h, ← hany]

theorem getD_of_shown : (current.getD {}).shown jsonb = (current'.getD {}).shown jsonb := by
  have hgetD : ∀ c : Option SettingsSyncSnapshot, (c.getD {}).shown jsonb =
      (c.map (·.shown jsonb)).getD (({} : SettingsSyncSnapshot).shown jsonb) := by
    intro c
    cases c <;> rfl
  rw [hgetD, h, ← hgetD]

end Current

theorem shown_scan (snapshot : SettingsSyncSnapshot) :
    (Postgres.scanSettingsSyncSnapshot snapshot.revision
      (Postgres.settingsRow jsonb snapshot)).shown jsonb = snapshot.shown jsonb := by
  rw [SettingsSyncSnapshot.shown, SettingsSyncSnapshot.shown, Postgres.scanSettingsSyncSnapshot,
    Postgres.settingsRow]
  dsimp only
  rw [jsonb.canonical_canonical]

theorem restored_shown {source source' : SettingsSyncSnapshot}
    (hsource : source'.shown jsonb = source.shown jsonb)
    (hrev : currentRevision current = currentRevision current') (now now' : Time)
    (userID iid : String) :
    (SettingsPut.next ⟨userID, iid, currentRevision current, true, source.appVersion,
        source.contentHash, source.payload⟩ now current).shown jsonb =
      (Postgres.restoredSnapshot now' iid source' current').shown jsonb := by
  have hpay : (source'.shown jsonb).payload = (source.shown jsonb).payload := by rw [hsource]
  have happ : (source'.shown jsonb).appVersion = (source.shown jsonb).appVersion := by
    rw [hsource]
  rw [SettingsPut.next, Postgres.restoredSnapshot, hrev, contentHash_of_shown hsource]
  simp only [SettingsSyncSnapshot.shown] at hpay happ ⊢
  rw [hpay, happ]

end Shown

/-! ## What the memory store keeps -/

namespace Memory

/-- The snapshots of a user, the current one first. -/
def settingsKept (userID : String) (users : SettingsSyncTable) : List SettingsSyncSnapshot :=
  (users.lookup userID).elim [] fun userState => userState.current.toList ++ userState.history

/-- Every user has current settings. -/
def Current (users : SettingsSyncTable) : Prop :=
  ∀ userID userState, users.lookup userID = some userState → userState.current ≠ none

variable {users : SettingsSyncTable} {userID : String}

theorem current_getD (h : Current users) (userID : String) :
    ((users.lookup userID).getD {}).current = (settingsKept userID users).head? := by
  rw [settingsKept]
  cases hstate : users.lookup userID with
  | none => rfl
  | some userState =>
    obtain ⟨current, hcur⟩ := Option.ne_none_iff_exists'.mp (h userID userState hstate)
    simp only [Option.getD_some, Option.elim_some, hcur, Option.toList_some, cons_append,
      List.head?_cons]

theorem currentSettings_eq (h : Current users) (userID : String) :
    currentSettings userID users = (settingsKept userID users).head? := by
  rw [← current_getD h, currentSettings]
  cases users.lookup userID <;> rfl

theorem settingsSource_eq (revision : Int) :
    (users.lookup userID).bind (settingsSource revision) =
      (settingsKept userID users).find? (·.revision == revision) := by
  rw [settingsKept]
  cases users.lookup userID <;> rfl

theorem settingsHistory_eq (h : (settingsKept userID users).Pairwise Postgres.Newer) :
    settingsHistory userID users = settingsKept userID users := by
  rw [settingsHistory]
  rw [settingsKept] at h ⊢
  cases hstate : users.lookup userID with
  | none => rfl
  | some =>
    rw [hstate] at h
    exact List.Pairwise.insertionSort_eq (h.imp le_of_lt)

theorem putLocked_write (now : Time) {put : SettingsPut} (hcur : Current users)
    (hbase : (!put.force && put.baseRevision !=
      currentRevision (settingsKept put.userID users).head?) = false)
    (hhash : (settingsKept put.userID users).head?.any (·.contentHash == put.contentHash) = false) :
    ∃ users', putLocked now put users =
        ((put.next now (settingsKept put.userID users).head?, none), users') ∧
      Current users' ∧
      settingsKept put.userID users' =
        (put.next now (settingsKept put.userID users).head? ::
          settingsKept put.userID users).take (maxSettingsSyncHistory + 1) ∧
      ∀ other, other ≠ put.userID → settingsKept other users' = settingsKept other users := by
  have hput : putLocked now put users =
      ((put.next now (settingsKept put.userID users).head?, none),
        users.insert put.userID
          { current := some (put.next now (settingsKept put.userID users).head?)
            history := (settingsKept put.userID users).head?.elim
              ((users.lookup put.userID).getD {}).history fun current =>
                (current :: ((users.lookup put.userID).getD {}).history).take
                  maxSettingsSyncHistory }) := by
    rw [putLocked]
    dsimp only
    rw [current_getD hcur, hbase, hhash]
    cases (settingsKept put.userID users).head? <;> rfl
  refine ⟨_, hput, ?_, ?_, ?_⟩
  · intro userID userState hstate
    rw [lookup_insert_eq] at hstate
    split_ifs at hstate with huser
    · cases hstate
      exact Option.some_ne_none _
    · exact hcur userID userState hstate
  · rw [settingsKept, lookup_insert_eq, if_pos rfl]
    rw [settingsKept]
    cases hstate : users.lookup put.userID with
    | none => rfl
    | some userState =>
      obtain ⟨current, hsome⟩ := Option.ne_none_iff_exists'.mp (hcur _ userState hstate)
      simp only [Option.getD_some, Option.elim_some, hsome, Option.toList_some, cons_append,
        nil_append, List.head?_cons, take_succ_cons]
  · intro other hother
    rw [settingsKept, lookup_insert_eq, if_neg hother, settingsKept]

theorem restoreSettings_eq {now : Time} (hcur : Current users) :
    restoreSettings now userID iid revision users =
      match (settingsKept userID users).find? (·.revision == revision) with
      | none => (({}, some .settingsSyncRevisionNotFound), users)
      | some source =>
        putLocked now
          { userID := userID
            installationID := iid
            baseRevision := currentRevision (settingsKept userID users).head?
            force := true
            appVersion := source.appVersion
            contentHash := source.contentHash
            payload := source.payload } users := by
  have hhead := current_getD hcur userID
  rw [restoreSettings, ← settingsSource_eq, ← hhead]
  cases users.lookup userID <;> rfl

end Memory

/-! ## Agreement -/

/-- Both stores hold the same settings. -/
structure Agrees (jsonb : Jsonb) (users : SettingsSyncTable)
    (t : Postgres.SettingsSyncTable) : Prop where
  current : Current users
  listed : ∀ userID, (settingsKept userID users).map (·.shown jsonb) =
    (Postgres.settingsSnapshots userID t).map (·.shown jsonb)
  bounded : ∀ userID, (settingsKept userID users).length ≤ maxSettingsSyncHistory + 1

namespace Agrees

variable {jsonb : Jsonb} {users users' : SettingsSyncTable}
  {t t' : Postgres.SettingsSyncTable} {now now' : Time}

theorem empty (jsonb : Jsonb) : Agrees jsonb ∅ ∅ where
  current := by
    intro userID userState h
    rw [lookup_empty] at h
    cases h
  listed _ := rfl
  bounded _ := Nat.zero_le _

variable (h : Agrees jsonb users t)

include h

theorem head (userID : String) :
    (settingsKept userID users).head?.map (·.shown jsonb) =
      (Postgres.currentSettings userID t).map (·.shown jsonb) := by
  rw [Postgres.currentSettings, ← List.head?_map, ← List.head?_map, h.listed]

theorem source (userID : String) (revision : Int) :
    ((settingsKept userID users).find? (·.revision == revision)).map (·.shown jsonb) =
      (Postgres.settingsRevision userID revision t).map (·.shown jsonb) := by
  have hfind : ∀ l : List SettingsSyncSnapshot,
      (l.find? (·.revision == revision)).map (·.shown jsonb) =
        (l.map (·.shown jsonb)).find? (·.revision == revision) := by
    intro l
    rw [List.find?_map]
    rfl
  rw [Postgres.settingsRevision_eq_find, hfind, hfind, h.listed]

theorem descending (userID : String) : (settingsKept userID users).Pairwise Postgres.Newer := by
  have hshown : ∀ l : List SettingsSyncSnapshot,
      (l.map (·.shown jsonb)).Pairwise Postgres.Newer ↔ l.Pairwise Postgres.Newer :=
    fun _ => pairwise_map
  rw [← hshown, h.listed, hshown]
  exact Postgres.settingsSnapshots_descending userID t

theorem write {next next' : SettingsSyncSnapshot} (hcur : Current users')
    (hkept : settingsKept userID users' =
      (next :: settingsKept userID users).take (maxSettingsSyncHistory + 1))
    (hkept_other : ∀ other, other ≠ userID → settingsKept other users' = settingsKept other users)
    (hlist : Postgres.settingsSnapshots userID t' =
      (next' :: Postgres.settingsSnapshots userID t).take (maxSettingsSyncHistory + 1))
    (hlisted_other : ∀ other, other ≠ userID →
      Postgres.settingsSnapshots other t' = Postgres.settingsSnapshots other t)
    (hnext : next.shown jsonb = next'.shown jsonb) : Agrees jsonb users' t' where
  current := hcur
  listed other := by
    by_cases hother : other = userID
    · subst hother
      rw [hkept, hlist, map_take, map_take, map_cons, map_cons, hnext, h.listed]
    · rw [hkept_other other hother, hlisted_other other hother, h.listed]
  bounded other := by
    by_cases hother : other = userID
    · subst hother
      rw [hkept]
      exact length_take_le _ _
    · rw [hkept_other other hother]
      exact h.bounded other

theorem putLocked_agrees {put : SettingsPut} (hvalid : jsonb.valid put.payload) :
    (SettingsResult.answer (putLocked now put users).1).shown jsonb =
        (SettingsResult.answer (Postgres.putSettings jsonb now' put t).1).shown jsonb ∧
      Agrees jsonb (putLocked now put users).2 (Postgres.putSettings jsonb now' put t).2 := by
  have hhead := h.head put.userID
  have hrev := currentRevision_of_shown hhead
  have hany := any_contentHash_of_shown hhead put.contentHash
  rw [Postgres.putSettings, ← hrev, ← hany]
  cases hbase : (!put.force &&
      put.baseRevision != currentRevision (settingsKept put.userID users).head?) with
  | true =>
    rw [putLocked]
    dsimp only
    rw [current_getD h.current, hbase, if_pos rfl, if_pos rfl]
    refine ⟨?_, h⟩
    rw [SettingsResult.shown, SettingsResult.shown, getD_of_shown hhead]
  | false =>
    rw [if_neg Bool.false_ne_true]
    cases hhash : (settingsKept put.userID users).head?.any (·.contentHash == put.contentHash) with
    | true =>
      rw [putLocked]
      dsimp only
      rw [current_getD h.current, hbase, hhash, if_neg Bool.false_ne_true, if_pos rfl, if_pos rfl]
      refine ⟨?_, h⟩
      rw [SettingsResult.shown, SettingsResult.shown, getD_of_shown hhead]
    | false =>
      rw [if_neg Bool.false_ne_true, if_neg (by rw [hvalid]; exact Bool.false_ne_true)]
      obtain ⟨users', hput, hcur, hkept, hkept_other⟩ := putLocked_write now h.current hbase hhash
      have hcount : (put.next now' (Postgres.currentSettings put.userID t)).revision =
          currentRevision (Postgres.currentSettings put.userID t) + 1 := rfl
      obtain ⟨t', hins, hlist, hlisted_other⟩ :=
        Postgres.insertSettings_eq jsonb "insert settings snapshot" hcount
      rw [hput, hins]
      have hnext : (put.next now (settingsKept put.userID users).head?).shown jsonb =
          (put.next now' (Postgres.currentSettings put.userID t)).shown jsonb := by
        rw [SettingsPut.next, SettingsPut.next, hrev]
        rfl
      refine ⟨?_, h.write hcur hkept hkept_other hlist hlisted_other ?_⟩
      · rw [SettingsResult.shown, SettingsResult.shown, hnext]
      · rw [hnext, shown_scan]

theorem restoreSettings_agrees
    (hchg : ∀ source,
      (settingsKept userID users).find? (·.revision == revision) = some source →
      (settingsKept userID users).head?.any (·.contentHash == source.contentHash) = false) :
    (SettingsResult.answer (restoreSettings now userID iid revision users).1).shown jsonb =
        (SettingsResult.answer (Postgres.restoreSettings jsonb now' userID iid revision
          t).1).shown jsonb ∧
      Agrees jsonb (restoreSettings now userID iid revision users).2
        (Postgres.restoreSettings jsonb now' userID iid revision t).2 := by
  have hrev := currentRevision_of_shown (h.head userID)
  have hsource := h.source userID revision
  rw [restoreSettings_eq h.current, Postgres.restoreSettings]
  cases hfind : (settingsKept userID users).find? (·.revision == revision) with
  | none =>
    rw [hfind, Option.map_none] at hsource
    rw [Option.map_eq_none_iff.mp hsource.symm]
    exact ⟨rfl, h⟩
  | some source =>
    rw [hfind, Option.map_some] at hsource
    obtain ⟨source', hfind', hsource⟩ := Option.map_eq_some_iff.mp hsource.symm
    rw [hfind']
    dsimp only
    let put : SettingsPut :=
      ⟨userID, iid, currentRevision (settingsKept userID users).head?, true,
        source.appVersion, source.contentHash, source.payload⟩
    have hhash : (settingsKept put.userID users).head?.any
        (·.contentHash == put.contentHash) = false := hchg source hfind
    obtain ⟨users', hput, hcur, hkept, hkept_other⟩ := putLocked_write now h.current rfl hhash
    have hcount : (Postgres.restoredSnapshot now' iid source'
        (Postgres.currentSettings userID t)).revision =
          currentRevision (Postgres.currentSettings userID t) + 1 := rfl
    obtain ⟨t', hins, hlist, hlisted_other⟩ :=
      Postgres.insertSettings_eq jsonb "insert restored settings snapshot" hcount
    rw [hput, hins]
    have hnext := restored_shown hsource hrev now now' userID iid
    refine ⟨?_, h.write hcur hkept hkept_other hlist hlisted_other ?_⟩
    · rw [SettingsResult.shown, SettingsResult.shown, hnext]
    · rw [hnext, shown_scan]

theorem restoreSettings_differs {source : SettingsSyncSnapshot}
    (hfind : (settingsKept userID users).find? (·.revision == revision) = some source)
    (hsame : (settingsKept userID users).head?.any (·.contentHash == source.contentHash) = true) :
    (SettingsResult.answer (restoreSettings now userID iid revision users).1).shown jsonb ≠
      (SettingsResult.answer (Postgres.restoreSettings jsonb now' userID iid revision
        t).1).shown jsonb := by
  have hrev := currentRevision_of_shown (h.head userID)
  have hsource := h.source userID revision
  rw [hfind, Option.map_some] at hsource
  obtain ⟨source', hfind', -⟩ := Option.map_eq_some_iff.mp hsource.symm
  have hcount : (Postgres.restoredSnapshot now' iid source'
      (Postgres.currentSettings userID t)).revision =
        currentRevision (Postgres.currentSettings userID t) + 1 := rfl
  obtain ⟨t', hins, -⟩ :=
    Postgres.insertSettings_eq jsonb "insert restored settings snapshot" hcount
  rw [restoreSettings_eq h.current, Postgres.restoreSettings, hfind, hfind']
  dsimp only
  rw [hins, putLocked]
  dsimp only
  rw [current_getD h.current, Bool.not_true, Bool.false_and, if_neg Bool.false_ne_true,
    if_pos hsame]
  intro heq
  rw [SettingsResult.shown, SettingsResult.shown, SettingsResult.answer.injEq, Prod.mk.injEq] at heq
  have hnext := revision_of_shown heq.1
  obtain ⟨current, hcur⟩ : ∃ current, (settingsKept userID users).head? = some current := by
    cases hhead : (settingsKept userID users).head? with
    | none =>
      rw [hhead] at hsame
      cases hsame
    | some current => exact ⟨current, rfl⟩
  rw [hcur] at hnext hrev
  have hcurrentRevision : current.revision = currentRevision (Postgres.currentSettings userID t) :=
    hrev
  have hplus : current.revision = currentRevision (Postgres.currentSettings userID t) + 1 := hnext
  omega

end Agrees

/-! ## Sequences of calls -/

/-- A `Restore` finds other contents than the current ones. -/
def restoreChanges (users : SettingsSyncTable) : SettingsCall → Bool
  | .restore userID _ revision =>
    ((users.lookup userID).bind (settingsSource revision)).all fun source =>
      !(currentSettings userID users).any (·.contentHash == source.contentHash)
  | _ => true

/-- Every `Restore` of a sequence does. -/
def EveryRestoreChanges (clock : Nat → Time) :
    Nat → List SettingsCall → SettingsSyncTable → Prop
  | _, [], _ => True
  | n, call :: calls, users =>
    restoreChanges users call ∧
      EveryRestoreChanges clock (n + 1) calls (serveSettings (clock n) call users).2

section Sequences

variable {jsonb : Jsonb} {users : SettingsSyncTable} {t : Postgres.SettingsSyncTable}
  {now now' : Time} {call : SettingsCall}

theorem serveSettings_agrees (now now' : Time) (h : Agrees jsonb users t)
    (hvalid : ∀ put, call = .put put → jsonb.valid put.payload) (hchg : restoreChanges users call) :
    (serveSettings now call users).1.shown jsonb =
        (Postgres.serveSettings jsonb now' call t).1.shown jsonb ∧
      Agrees jsonb (serveSettings now call users).2
        (Postgres.serveSettings jsonb now' call t).2 := by
  cases call with
  | current =>
    refine ⟨?_, h⟩
    rw [serveSettings, Postgres.serveSettings, SettingsResult.shown, SettingsResult.shown,
      currentSettings_eq h.current, h.head]
  | history userID =>
    refine ⟨?_, h⟩
    have hlen : (Postgres.settingsSnapshots userID t).length ≤ maxSettingsSyncHistory + 1 := by
      have hmap := congrArg List.length (h.listed userID)
      rw [length_map, length_map] at hmap
      exact hmap ▸ h.bounded userID
    rw [serveSettings, Postgres.serveSettings, SettingsResult.shown, SettingsResult.shown,
      settingsHistory_eq (h.descending userID), Postgres.settingsHistory,
      take_of_length_le hlen, h.listed]
  | put put => exact h.putLocked_agrees (hvalid put rfl)
  | restore =>
    refine h.restoreSettings_agrees fun source hfind => ?_
    rw [restoreChanges, settingsSource_eq, hfind, Option.all_some, Bool.not_eq_true',
      currentSettings_eq h.current] at hchg
    exact hchg

theorem serveSettings_differs (h : Agrees jsonb users t)
    (hchg : restoreChanges users call = false) :
    (serveSettings now call users).1.shown jsonb ≠
      (Postgres.serveSettings jsonb now' call t).1.shown jsonb := by
  cases call with
  | restore userID iid revision =>
    rw [restoreChanges, settingsSource_eq, currentSettings_eq h.current] at hchg
    cases hfind : (settingsKept userID users).find? (·.revision == revision) with
    | none =>
      rw [hfind] at hchg
      cases hchg
    | some =>
      rw [hfind, Option.all_some, Bool.not_eq_false'] at hchg
      exact h.restoreSettings_differs hfind hchg
  | _ => cases hchg

theorem results_agree_iff (h : Agrees jsonb users t) (clock clock' : Nat → Time) (n : Nat)
    {calls : List SettingsCall} (hvalid : ∀ put, .put put ∈ calls → jsonb.valid put.payload) :
    (results serveSettings clock n calls users).map (·.shown jsonb) =
        (results (Postgres.serveSettings jsonb) clock' n calls t).map (·.shown jsonb) ↔
      EveryRestoreChanges clock n calls users := by
  induction calls generalizing n users t with
  | nil => exact ⟨fun _ => trivial, fun _ => rfl⟩
  | cons call calls ih =>
    rw [results, results, map_cons, map_cons, List.cons.injEq, EveryRestoreChanges]
    have hcall : ∀ put, call = .put put → jsonb.valid put.payload :=
      fun put hput => hvalid put (hput ▸ mem_cons_self)
    have hcalls : ∀ put, .put put ∈ calls → jsonb.valid put.payload :=
      fun put hput => hvalid put (mem_cons_of_mem _ hput)
    cases hchg : restoreChanges users call with
    | true =>
      obtain ⟨hshown, hagrees⟩ := serveSettings_agrees (clock n) (clock' n) h hcall hchg
      rw [eq_true hshown, true_and, eq_self, true_and]
      exact ih hagrees (n + 1) hcalls
    | false =>
      refine iff_of_false (fun heq => ?_) fun heq => Bool.false_ne_true heq.1
      exact serveSettings_differs h hchg heq.1

/-- **The settings stores** answer alike, up to times and the formatting of the payloads, exactly
when every `Restore` restores other contents than the current ones. -/
theorem settings_stores_agree_iff (jsonb : Jsonb) (clock clock' : Nat → Time)
    (calls : List SettingsCall) (hvalid : ∀ put, .put put ∈ calls → jsonb.valid put.payload) :
    (results serveSettings clock 0 calls ∅).map (·.shown jsonb) =
        (results (Postgres.serveSettings jsonb) clock' 0 calls ∅).map (·.shown jsonb) ↔
      EveryRestoreChanges clock 0 calls ∅ :=
  results_agree_iff (Agrees.empty jsonb) clock clock' 0 hvalid

/-- A write of settings with the content hash `contentHash`. -/
def writeSettings (baseRevision : Int) (contentHash : String) : SettingsCall :=
  .put ⟨"user", "phone", baseRevision, false, "1.0", contentHash, contentHash⟩

/-- Restoring the older of two revisions is served alike. -/
theorem restored_older_alike :
    let calls := [writeSettings 0 "a", writeSettings 1 "b", .restore "user" "phone" 1]
    EveryRestoreChanges (fun _ => 0) 0 calls ∅ ∧
      (results serveSettings (fun _ => 0) 0 calls ∅).map (·.shown .verbatim) =
        (results (Postgres.serveSettings .verbatim) (fun _ => 0) 0 calls ∅).map
          (·.shown .verbatim) :=
  have hchg : EveryRestoreChanges (fun _ => 0) 0
      [writeSettings 0 "a", writeSettings 1 "b", .restore "user" "phone" 1] ∅ :=
    ⟨rfl, rfl, rfl, trivial⟩
  ⟨hchg, (settings_stores_agree_iff .verbatim _ _ _ fun _ _ => rfl).mpr hchg⟩

/-- Memory answers with the current revision, PostgreSQL with a new one. -/
theorem restored_current_differs :
    let calls := [writeSettings 0 "a", .restore "user" "phone" 1]
    (results serveSettings (fun _ => 0) 0 calls ∅).map (·.shown .verbatim) ≠
      (results (Postgres.serveSettings .verbatim) (fun _ => 0) 0 calls ∅).map
        (·.shown .verbatim) := by
  decide

end Sequences

end Ferventio
