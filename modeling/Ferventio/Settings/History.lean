import Ferventio.Settings.Agreement

/-!
# The history of a user's settings in memory

A `Put` or `Restore` either changes nothing or puts one snapshot in front of what its user has and
drops what is then too old (`Extends`). Everything about runs follows from that.

* **`settings_history_invariant`**: the history after any run.
-/

namespace Ferventio

open List

variable {m n : Int} {put : SettingsPut} {next : SettingsSyncSnapshot}

/-! ## Counting down -/

/-- From `n` down to `m`. -/
def countdown (n m : Int) : List Int :=
  (List.range (n - m + 1).toNat).map fun i : Nat => n - (i : Int)

theorem countdown_cons (h : m ≤ n + 1) : (n + 1) :: countdown n m = countdown (n + 1) m := by
  have hlen : (n + 1 - m + 1).toNat = (n - m + 1).toNat + 1 := by omega
  rw [countdown, countdown, hlen, range_succ_eq_map, map_cons, map_map]
  congr 1
  · simp
  · refine map_congr_left fun i _ => ?_
    simp only [Function.comp_apply]
    omega

theorem take_countdown (n m : Int) (k : Nat) :
    (countdown n m).take k = countdown n (max m (n - k + 1)) := by
  have hlen : min k (n - m + 1).toNat = (n - max m (n - k + 1) + 1).toNat := by omega
  rw [countdown, countdown, ← map_take, take_range, hlen]

theorem mem_countdown {i : Int} : i ∈ countdown n m ↔ m ≤ i ∧ i ≤ n := by
  simp only [countdown, mem_map, mem_range]
  constructor
  · rintro ⟨j, hj, rfl⟩
    omega
  · rintro ⟨hm, hn⟩
    exact ⟨(n - i).toNat, by omega, by omega⟩

theorem countdown_descending (n m : Int) : (countdown n m).Pairwise fun a b => b < a := by
  rw [countdown, pairwise_map]
  refine pairwise_lt_range.imp fun {i j} hij => ?_
  omega

/-! ## One call -/

/-- The user of a call. -/
def SettingsCall.userID : SettingsCall → String
  | .current userID => userID
  | .put request => request.userID
  | .history userID => userID
  | .restore userID _ _ => userID

namespace Memory

variable {users users' : SettingsSyncTable} {userID : String} {now : Time}

/-- The user's settings gain `next`; those of others stay. -/
structure Extends (userID : String) (next : SettingsSyncSnapshot)
    (users users' : SettingsSyncTable) : Prop where
  current : Current users'
  revision : next.revision = currentRevision (settingsKept userID users).head? + 1
  kept : settingsKept userID users' =
    (next :: settingsKept userID users).take (maxSettingsSyncHistory + 1)
  others : ∀ other, other ≠ userID → users'.lookup other = users.lookup other

theorem lookup_putLocked_other (now : Time) {other : String}
    (h : other ≠ put.userID) : (putLocked now put users).2.lookup other = users.lookup other := by
  rw [putLocked]
  dsimp only
  split_ifs
  · rfl
  · rfl
  · exact Table.lookup_insert_eq _ _ _ _ |>.trans (if_neg h)

/-- **`putLocked`** changes nothing, or writes what was put. -/
theorem putLocked_extends (now : Time) (put : SettingsPut) (h : Current users) :
    ((putLocked now put users).2 = users ∧
        ((putLocked now put users).1.2 = none →
          (settingsKept put.userID users).head?.any (·.contentHash == put.contentHash) = true)) ∨
      Extends put.userID (put.next now (settingsKept put.userID users).head?) users
        (putLocked now put users).2 := by
  cases hbase : (!put.force &&
      put.baseRevision != currentRevision (settingsKept put.userID users).head?) with
  | true =>
    left
    rw [putLocked]
    dsimp only
    rw [current_getD h, hbase, if_pos rfl]
    exact ⟨rfl, by simp⟩
  | false =>
    cases hhash : (settingsKept put.userID users).head?.any (·.contentHash == put.contentHash) with
    | true =>
      left
      rw [putLocked]
      dsimp only
      rw [current_getD h, hbase, hhash, if_neg Bool.false_ne_true, if_pos rfl]
      exact ⟨rfl, fun _ => rfl⟩
    | false =>
      right
      obtain ⟨users', hput, hcur, hkept, -⟩ := putLocked_write now h hbase hhash
      have hothers : ∀ other, other ≠ put.userID →
          (putLocked now put users).2.lookup other = users.lookup other :=
        fun other hother => lookup_putLocked_other now hother
      rw [hput] at hothers ⊢
      exact ⟨hcur, rfl, hkept, hothers⟩

/-- **One call** changes nothing or extends the settings of its user. -/
theorem serveSettings_extends (now : Time) (call : SettingsCall) (h : Current users) :
    (serveSettings now call users).2 = users ∨
      ∃ next, Extends call.userID next users (serveSettings now call users).2 ∧
        ((∃ put, call = .put put ∧ next.contentHash = put.contentHash ∧
            next.payload = put.payload) ∨
          ∃ source ∈ settingsKept call.userID users, next.contentHash = source.contentHash ∧
            next.payload = source.payload) := by
  cases call with
  | put put =>
    rcases putLocked_extends now put h with ⟨hsame, -⟩ | hext
    · exact .inl hsame
    · exact .inr ⟨_, hext, .inl ⟨put, rfl, rfl, rfl⟩⟩
  | restore userID iid revision =>
    have hrestore : (serveSettings now (.restore userID iid revision) users).2 =
        (restoreSettings now userID iid revision users).2 := rfl
    rw [hrestore, restoreSettings_eq h]
    cases hfind : (settingsKept userID users).find? (·.revision == revision) with
    | none => exact .inl rfl
    | some source =>
      dsimp only
      rcases putLocked_extends now
        ⟨userID, iid, currentRevision (settingsKept userID users).head?, true,
          source.appVersion, source.contentHash, source.payload⟩ h with ⟨hsame, -⟩ | hext
      · exact .inl hsame
      · exact .inr ⟨_, hext, .inr ⟨source, mem_of_find?_eq_some hfind, rfl, rfl⟩⟩
  | _ => exact .inl rfl

/-! ## Runs -/

/-- The store after calls. -/
def settingsAfter (calls : List (Time × SettingsCall)) (users : SettingsSyncTable) :
    SettingsSyncTable :=
  calls.foldl (fun users call => (serveSettings call.1 call.2 users).2) users

theorem settingsAfter_append (calls later : List (Time × SettingsCall))
    (users : SettingsSyncTable) :
    settingsAfter (calls ++ later) users = settingsAfter later (settingsAfter calls users) :=
  foldl_append

theorem settingsAfter_invariant {I : SettingsSyncTable → Prop} {calls : List (Time × SettingsCall)}
    (hcall : ∀ call ∈ calls, ∀ users, I users → I (serveSettings call.1 call.2 users).2)
    (h : I users) : I (settingsAfter calls users) := by
  induction calls generalizing users with
  | nil => exact h
  | cons call calls ih =>
    exact ih (fun call' hcall' => hcall call' (mem_cons_of_mem _ hcall'))
      (hcall call mem_cons_self users h)

/-- The revisions kept up to the current one, `n`. -/
def retainedRevisions (n : Int) : List Int := countdown n (max 1 (n - maxSettingsSyncHistory))

/-- Revisions count down without a gap. -/
structure Counted (users : SettingsSyncTable) : Prop where
  current : Current users
  positive : ∀ userID, 0 ≤ currentRevision (settingsKept userID users).head?
  revisions : ∀ userID, (settingsKept userID users).map (·.revision) =
    retainedRevisions (currentRevision (settingsKept userID users).head?)

theorem Counted.empty : Counted ∅ where
  current := by
    intro userID userState h
    rw [Table.lookup_empty] at h
    cases h
  positive _ := le_refl 0
  revisions _ := rfl

theorem settingsKept_congr (h : users'.lookup userID = users.lookup userID) :
    settingsKept userID users' = settingsKept userID users := by
  rw [settingsKept, settingsKept, h]

theorem Extends.head (h : Extends userID next users users') :
    (settingsKept userID users').head? = some next := by
  rw [h.kept, take_succ_cons, List.head?_cons]

theorem Counted.extends (h : Counted users)
    (hext : Extends userID next users users') : Counted users' where
  current := hext.current
  positive other := by
    by_cases hother : other = userID
    · subst hother
      rw [hext.head]
      have hpositive := h.positive other
      have hrev := hext.revision
      simp only [currentRevision, Option.elim_some] at hpositive hrev ⊢
      omega
    · rw [settingsKept_congr (hext.others other hother)]
      exact h.positive other
  revisions other := by
    by_cases hother : other = userID
    · subst hother
      have hpositive := h.positive other
      have hnext : currentRevision (some next) =
          currentRevision (settingsKept other users).head? + 1 := hext.revision
      rw [hext.head, hnext, hext.kept, map_take, map_cons, hext.revision,
        h.revisions, retainedRevisions, retainedRevisions, countdown_cons (by omega),
        take_countdown]
      congr 1
      have hlimit : ((maxSettingsSyncHistory + 1 : Nat) : Int) =
          (maxSettingsSyncHistory : Int) + 1 := rfl
      rw [hlimit]
      omega
    · rw [settingsKept_congr (hext.others other hother)]
      exact h.revisions other

theorem Counted.serve (h : Counted users) (now : Time) (call : SettingsCall) :
    Counted (serveSettings now call users).2 := by
  rcases serveSettings_extends now call h.current with hsame | ⟨next, hext, -⟩
  · rw [hsame]
    exact h
  · exact h.extends hext

theorem kept_revisions (calls : List (Time × SettingsCall)) : Counted (settingsAfter calls ∅) :=
  settingsAfter_invariant (fun call _ _ h => h.serve call.1 call.2) Counted.empty

section Counted

variable (h : Counted users)

include h

theorem Counted.descending (userID : String) :
    (settingsKept userID users).Pairwise Postgres.Newer := by
  have hmap : ((settingsKept userID users).map (·.revision)).Pairwise fun a b => b < a := by
    rw [h.revisions]
    exact countdown_descending _ _
  rw [pairwise_map] at hmap
  exact hmap

theorem Counted.settingsHistory_eq (userID : String) :
    settingsHistory userID users = settingsKept userID users :=
  Memory.settingsHistory_eq (h.descending userID)

theorem Counted.le_current {snapshot : SettingsSyncSnapshot}
    (hmem : snapshot ∈ settingsKept userID users) :
    snapshot.revision ≤ currentRevision (settingsKept userID users).head? := by
  have hrev := mem_map_of_mem (f := fun s : SettingsSyncSnapshot => s.revision) hmem
  rw [h.revisions] at hrev
  exact (mem_countdown.mp hrev).2

theorem Counted.unique {a b : SettingsSyncSnapshot}
    (ha : a ∈ settingsKept userID users) (hb : b ∈ settingsKept userID users)
    (hrev : a.revision = b.revision) : a = b := by
  have hnodup : ((settingsKept userID users).map (·.revision)).Nodup := by
    rw [h.revisions]
    exact (countdown_descending _ _).imp fun hlt heq => absurd heq (ne_of_gt hlt)
  exact inj_on_of_nodup_map hnodup ha hb hrev

/-- **A retained revision is never written again.** -/
theorem kept_stays (later : List (Time × SettingsCall)) (userID : String) :
    ∀ snapshot ∈ settingsKept userID (settingsAfter later users),
      snapshot ∈ settingsKept userID users ∨
        currentRevision (settingsKept userID users).head? < snapshot.revision := by
  -- the current revision does not fall, so what is new stays newer
  have hrun : Counted (settingsAfter later users) ∧
      currentRevision (settingsKept userID users).head? ≤
        currentRevision (settingsKept userID (settingsAfter later users)).head? ∧
      ∀ snapshot ∈ settingsKept userID (settingsAfter later users),
        snapshot ∈ settingsKept userID users ∨
          currentRevision (settingsKept userID users).head? < snapshot.revision := by
    refine settingsAfter_invariant (I := fun users' => Counted users' ∧
      currentRevision (settingsKept userID users).head? ≤
        currentRevision (settingsKept userID users').head? ∧
      ∀ snapshot ∈ settingsKept userID users', snapshot ∈ settingsKept userID users ∨
        currentRevision (settingsKept userID users).head? < snapshot.revision) ?_
      ⟨h, le_refl _, fun _ hmem => .inl hmem⟩
    rintro call - users' ⟨hcounted, hle, hold⟩
    have hserve := hcounted.serve call.1 call.2
    rcases serveSettings_extends call.1 call.2 hcounted.current with
      hsame | ⟨next, hext, -⟩
    · rw [hsame]
      exact ⟨hcounted, hle, hold⟩
    · refine ⟨hserve, ?_⟩
      by_cases huser : userID = call.2.userID
      · subst huser
        have hrev := hext.revision
        rw [hext.head, hext.kept]
        refine ⟨?_, fun snapshot hmem => ?_⟩
        · simp only [currentRevision, Option.elim_some] at hle hrev ⊢
          omega
        · rcases mem_cons.mp (mem_of_mem_take hmem) with rfl | hmem
          · right
            omega
          · exact hold snapshot hmem
      · rw [settingsKept_congr (hext.others userID huser)]
        exact ⟨hle, hold⟩
  exact hrun.2.2

theorem settingsAfter_other {later : List (Time × SettingsCall)}
    (hlater : ∀ call ∈ later, call.2.userID ≠ userID) :
    (settingsAfter later users).lookup userID = users.lookup userID := by
  have hrun : Counted (settingsAfter later users) ∧
      (settingsAfter later users).lookup userID = users.lookup userID := by
    refine settingsAfter_invariant
      (I := fun users' => Counted users' ∧ users'.lookup userID = users.lookup userID) ?_ ⟨h, rfl⟩
    rintro call hcall users' ⟨hcounted, hsame⟩
    refine ⟨hcounted.serve call.1 call.2, ?_⟩
    rcases serveSettings_extends call.1 call.2 hcounted.current with
      hkeep | ⟨next, hext, -⟩
    · rw [hkeep, hsame]
    · rw [hext.others userID (Ne.symm (hlater call hcall)), hsame]
  exact hrun.2

end Counted

theorem kept_was_put (calls : List (Time × SettingsCall)) (userID : String) :
    ∀ snapshot ∈ settingsKept userID (settingsAfter calls ∅), ∃ now put,
      (now, SettingsCall.put put) ∈ calls ∧ snapshot.contentHash = put.contentHash ∧
        snapshot.payload = put.payload := by
  have hrun : Counted (settingsAfter calls ∅) ∧ ∀ userID,
      ∀ snapshot ∈ settingsKept userID (settingsAfter calls ∅), ∃ now put,
        (now, SettingsCall.put put) ∈ calls ∧ snapshot.contentHash = put.contentHash ∧
          snapshot.payload = put.payload := by
    refine settingsAfter_invariant (I := fun users => Counted users ∧ ∀ userID,
      ∀ snapshot ∈ settingsKept userID users, ∃ now put,
        (now, SettingsCall.put put) ∈ calls ∧ snapshot.contentHash = put.contentHash ∧
          snapshot.payload = put.payload) ?_ ⟨Counted.empty, fun _ _ hmem => nomatch hmem⟩
    rintro ⟨now, call⟩ hcall users ⟨hcounted, hput⟩
    refine ⟨hcounted.serve now call, fun userID snapshot hmem => ?_⟩
    dsimp only at hmem
    rcases serveSettings_extends now call hcounted.current with
      hsame | ⟨next, hext, hcontents⟩
    · rw [hsame] at hmem
      exact hput userID snapshot hmem
    · by_cases huser : userID = call.userID
      · subst huser
        rw [hext.kept] at hmem
        rcases mem_cons.mp (mem_of_mem_take hmem) with rfl | hmem
        · rcases hcontents with ⟨put, rfl, hhash, hpay⟩ | ⟨source, hsource, hhash, hpay⟩
          · exact ⟨now, put, hcall, hhash, hpay⟩
          · obtain ⟨now', put, hmem', hhash', hpay'⟩ := hput _ source hsource
            exact ⟨now', put, hmem', hhash.trans hhash', hpay.trans hpay'⟩
        · exact hput _ snapshot hmem
      · rw [settingsKept_congr (hext.others userID huser)] at hmem
        exact hput userID snapshot hmem
  exact hrun.2 userID

/-- Equal hashes are those of equal payloads. -/
def HashesDetermine (calls : List (Time × SettingsCall)) : Prop :=
  ∀ now put now' put', (now, SettingsCall.put put) ∈ calls → (now', SettingsCall.put put') ∈ calls →
    put.contentHash = put'.contentHash → put.payload = put'.payload

theorem put_leaves_payload {calls : List (Time × SettingsCall)}
    (hhashes : HashesDetermine (calls ++ [(now, .put put)]))
    (hok : (putLocked now put (settingsAfter calls ∅)).1.2 = none) :
    ∃ current, currentSettings put.userID (putLocked now put (settingsAfter calls ∅)).2 =
        some current ∧ current.payload = put.payload := by
  have hcounted := kept_revisions calls
  rcases putLocked_extends now put hcounted.current with ⟨hsame, hhash⟩ | hext
  · -- nothing was written: the current snapshot was put earlier with the same hash
    rw [hsame, currentSettings_eq hcounted.current]
    obtain ⟨current, hcur, heq⟩ := (Option.any_eq_true _ _).mp (hhash hok)
    obtain ⟨now', put', hmem, hhash', hpay⟩ :=
      kept_was_put calls put.userID current (mem_of_head? hcur)
    refine ⟨current, hcur, hpay.trans ?_⟩
    refine hhashes now' put' now put (mem_append_left _ hmem) (mem_append_right _ mem_cons_self) ?_
    rw [← hhash', beq_iff_eq.mp heq]
  · rw [currentSettings_eq hext.current, hext.head]
    exact ⟨_, rfl, rfl⟩

/-- **The settings history** counts down from the current revision to the first one or to the
twentieth before it; a retained revision keeps its contents; calls of other users change nothing;
and where content hashes determine the payloads, a successful `Put` leaves its payload. -/
theorem settings_history_invariant (calls : List (Time × SettingsCall)) :
    (∀ userID current, currentSettings userID (settingsAfter calls ∅) = some current →
      (settingsHistory userID (settingsAfter calls ∅)).map (·.revision) =
        countdown current.revision (max 1 (current.revision - 20))) ∧
    (∀ later userID, ∀ a ∈ settingsHistory userID (settingsAfter calls ∅),
      ∀ b ∈ settingsHistory userID (settingsAfter (calls ++ later) ∅),
        a.revision = b.revision → a = b) ∧
    (∀ later userID, (∀ call ∈ later, call.2.userID ≠ userID) →
      (settingsAfter (calls ++ later) ∅).lookup userID =
        (settingsAfter calls ∅).lookup userID) ∧
    (∀ now put, HashesDetermine (calls ++ [(now, .put put)]) →
      (putLocked now put (settingsAfter calls ∅)).1.2 = none →
        ∃ current, currentSettings put.userID (putLocked now put (settingsAfter calls ∅)).2 =
          some current ∧ current.payload = put.payload) := by
  have hcounted := kept_revisions calls
  refine ⟨fun userID current hcur => ?_, fun later userID a ha b hb hrev => ?_,
    fun later userID hlater => ?_, fun now put => put_leaves_payload⟩
  · rw [currentSettings_eq hcounted.current] at hcur
    rw [hcounted.settingsHistory_eq, hcounted.revisions, hcur]
    rfl
  · rw [hcounted.settingsHistory_eq] at ha
    rw [(kept_revisions (calls ++ later)).settingsHistory_eq, settingsAfter_append] at hb
    rcases kept_stays hcounted later userID b hb with hkept | hnewer
    · exact hcounted.unique ha hkept hrev
    · have hle := hcounted.le_current ha
      omega
  · rw [settingsAfter_append]
    exact settingsAfter_other hcounted hlater

end Memory

end Ferventio
