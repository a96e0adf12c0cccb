import Ferventio.Device.SelfRevocation

/-!
# A user revokes all devices

`revokeAllMobileSessions` gathers the installations of a user: the caller's, those of the user's
sessions and those of the user's registrations. Everything of these installations is deleted by
their names alone. But two users may have used one name with different secrets, so what is deleted
may be another user's.

* **`revoke_all_confined_iff`**: when it stays with its user.
* **`shared_name_loses_registration`**: another user's registration is deleted.
-/

namespace Ferventio

open Prog Strings Table List Memory

variable {s' s : AuthDiskState} {p : AuthHandoffRecord → Bool}
  {iids ids installations : List String} {e : Row String AuthHandoffRecord}
  {secret uid iid key id : String} {swept : String → AuthHandoffRecord → Prop} {w0 w' w : World}
  {tr : Trace} {x : Choice} {env : Env} {handoff : AuthHandoffRecord}
  {entries : List (Row String AuthHandoffRecord)} {t : Table String AuthHandoffRecord}
  {α : Type}

/-! ## What a revocation reaches -/

/-- Rows have their own keys, and user ids have no white space around them. -/
structure Tidy (w : World) : Prop where
  credentials : ∀ {id cred}, w.auth.credentials.lookup id = some cred →
    cred.id = id ∧ trimSpace cred.userID = cred.userID
  registrations : ∀ {id reg}, w.registrations.lookup id = some reg →
    reg.installationID = id

/-- The credential that a call writes. -/
def writtenCredential : Call → Option AuthCredential
  | .auth (.putCredential credential) => some credential
  | .auth (.putCredentialAndHandoff credential _ _) => some credential
  | _ => none

/-- The user ids that are written have no white space around them. -/
def WritesTrimmed (_ : ServerView) (e : ServerEvent) : Prop :=
  ∀ cred, writtenCredential e.op = some cred → trimSpace cred.userID = cred.userID

theorem Tidy.after {v : ServerView} {e : ServerEvent} {x : Choice} (h : Tidy v.state)
    (hexec : exec env e.op x v.state = some (e.ans, w)) (hwrites : WritesTrimmed v e) : Tidy w where
  credentials := by
    intro id cred hget
    rw [exec_auth hexec] at hget
    obtain ⟨pid, task, call, a⟩ := e
    cases call with
    | auth =>
      rcases execAuth_credential hget with hold | ⟨rfl, rfl | ⟨code, r, rfl⟩⟩
      · exact h.credentials hold
      · exact ⟨rfl, hwrites cred rfl⟩
      · exact ⟨rfl, hwrites cred rfl⟩
    | _ => exact h.credentials hget
  registrations := by
    intro id reg hget
    rw [exec_registrations hexec] at hget
    obtain ⟨pid, task, call, a⟩ := e
    cases call with
    | registration =>
      rcases execRegistration_lookup hget with hold | ⟨upserted, -, rfl, rfl⟩
      · exact h.registrations hold
      · rfl
    | _ => exact h.registrations hget

theorem tidy_of_steps {may : ServerView → Task → Bool}
    {c : ServerConfiguration} (hw : Tidy w)
    (h : (server env may).Steps WritesTrimmed (started w) c) :
    Tidy c.state :=
  h.view_invariant (I := fun v => Tidy v.state) (fun _ _ _ _ hv hexec hG => hv.after hexec hG) hw

/-- The name of a user: trimmed, and not empty. -/
def UserName (uid : String) : Prop := trimSpace uid = uid ∧ uid ≠ ""

/-- The credential is one of the user's. -/
def OfUser (s : AuthDiskState) (uid cid : String) : Prop :=
  ∃ cred, s.credentials.lookup cid = some cred ∧ cred.userID = uid

/-- The user has a session at the installation. -/
def HasSession (s : AuthDiskState) (uid iid : String) : Prop :=
  ∃ key sess, s.sessions.lookup key = some sess ∧ OfUser s uid sess.credentialID ∧
    sess.installationID = iid

/-- The user has a handoff at the installation. -/
def HasHandoff (s : AuthDiskState) (uid iid : String) : Prop :=
  ∃ key handoff, s.handoffs.lookup key = some handoff ∧ OfUser s uid handoff.credentialID ∧
    handoff.installationID = iid

/-- The installations that a revocation gathers. -/
def Targeted (w : World) (caller uid iid : String) : Prop :=
  iid = caller ∨ HasSession w.auth uid iid ∨
    ∃ reg, w.registrations.lookup iid = some reg ∧ reg.userID = uid

/-- The stores trim the gathered names. -/
def TrimmedTarget (w : World) (caller uid iid : String) : Prop :=
  iid ≠ "" ∧ ∃ target, Targeted w caller uid target ∧ trimSpace target = iid

section Auth

theorem mem_credentialIDsOf : id ∈ credentialIDsOf uid s ↔ OfUser s uid id := by
  simp only [credentialIDsOf, mem_filterMap]
  constructor
  · rintro ⟨⟨key, cred⟩, hmem, hkey⟩
    split_ifs at hkey with huser
    cases hkey
    exact ⟨cred, mem_entries_iff.mp hmem, huser⟩
  · rintro ⟨cred, hget, huser⟩
    exact ⟨⟨id, cred⟩, mem_entries_iff.mpr hget, if_pos huser⟩

variable {credentialIDs : List String}

theorem mem_sessionInstallations (h : ∀ id, id ∈ credentialIDs ↔ OfUser s uid id) :
    iid ∈ (s.sessions.rows.filter (credentialIDs.contains ·.credentialID)).map
      (·.installationID) ↔ HasSession s uid iid := by
  simp only [mem_map, mem_filter, contains_iff_mem, mem_rows_iff, h]
  constructor
  · rintro ⟨sess, ⟨⟨key, hkey⟩, huser⟩, rfl⟩
    exact ⟨key, sess, hkey, huser, rfl⟩
  · rintro ⟨key, sess, hkey, huser, rfl⟩
    exact ⟨sess, ⟨⟨key, hkey⟩, huser⟩, rfl⟩

/-! ## Handoffs -/

theorem revokeHandoffs_append (credentialIDs : List String)
    (entries entries' : List (Row String AuthHandoffRecord))
    (installations : List String) (t : Table String AuthHandoffRecord) :
    revokeHandoffs credentialIDs (entries ++ entries') installations t =
      revokeHandoffs credentialIDs entries' (revokeHandoffs credentialIDs entries installations t).1
        (revokeHandoffs credentialIDs entries installations t).2 := by
  induction entries generalizing installations t with
  | nil => rfl
  | cons entry entries ih =>
    rw [cons_append, revokeHandoffs, revokeHandoffs]
    split
    · exact ih _ _
    · exact ih _ _

theorem mem_revokeHandoffs :
    iid ∈ (revokeHandoffs credentialIDs entries installations t).1 ↔
      iid ∈ installations ∨ ∃ e ∈ entries, e.2.credentialID ∈ credentialIDs ∧
        e.2.installationID = iid := by
  induction entries generalizing installations t with
  | nil => simp [revokeHandoffs]
  | cons entry entries ih =>
    rw [revokeHandoffs]
    split
    · rename_i hdel
      rw [Bool.or_eq_true, contains_iff_mem, contains_iff_mem] at hdel
      rw [ih]
      simp only [mem_cons, exists_eq_or_imp]
      constructor
      · rintro ((rfl | h) | h)
        · rcases hdel with hdel | hdel
          · exact .inr (.inl ⟨hdel, rfl⟩)
          · exact .inl hdel
        · exact .inl h
        · exact .inr (.inr h)
      · rintro (h | ⟨-, h⟩ | h)
        · exact .inl (.inr h)
        · exact .inl (.inl h.symm)
        · exact .inr h
    · rename_i hkept
      rw [Bool.or_eq_true, not_or, contains_iff_mem] at hkept
      rw [ih]
      simp only [mem_cons, exists_eq_or_imp, hkept.1, false_and, false_or]

theorem revokeHandoffs_lookup_other (h : key ∉ entries.map Sigma.fst) :
    (revokeHandoffs credentialIDs entries installations t).2.lookup key = t.lookup key := by
  induction entries generalizing installations t with
  | nil => rfl
  | cons entry entries ih =>
    rw [map_cons, mem_cons, not_or] at h
    rw [revokeHandoffs]
    split
    · rw [ih h.2, lookup_erase_eq, if_neg h.1]
    · exact ih h.2

/-- A row that a loop comes to before another. -/
def Earlier {α : Type} (entries : List (Row String α)) (e x : Row String α) : Prop :=
  ∃ before after, entries = before ++ x :: after ∧ e ∈ before

theorem Earlier.mem {entries : List (Row String α)}
    {e x : Row String α} (h : Earlier entries e x) : e ∈ entries := by
  obtain ⟨before, after, rfl, he⟩ := h
  exact mem_append_left _ he

/-- **A handoff of another user** is deleted for its installation: one of those given, or that of
one of the user's handoffs which the loop came to before. -/
theorem revokeHandoffs_kept_iff (hperm : entries.Perm t.entries)
    (hget : t.lookup key = some handoff) (hother : handoff.credentialID ∉ credentialIDs) :
    (revokeHandoffs credentialIDs entries installations t).2.lookup key = some handoff ↔
      handoff.installationID ∉ installations ∧
        ¬∃ e, Earlier entries e ⟨key, handoff⟩ ∧ e.2.credentialID ∈ credentialIDs ∧
          e.2.installationID = handoff.installationID := by
  obtain ⟨before, after, hentries⟩ := append_of_mem (hperm.mem_iff.mpr (mem_entries_iff.mpr hget))
  -- the row stands in the table once
  have hkeys : (entries.map Sigma.fst).Nodup := (hperm.map Sigma.fst).nodup_iff.mpr t.nodupKeys
  rw [hentries, map_append, map_cons, nodup_append, nodup_cons] at hkeys
  have hbefore : key ∉ before.map Sigma.fst := fun hmem => hkeys.2.2 key hmem key mem_cons_self rfl
  have hafter : key ∉ after.map Sigma.fst := hkeys.2.1.1
  have hearlier : ∀ e, Earlier entries e ⟨key, handoff⟩ ↔ e ∈ before := by
    intro e
    constructor
    · rintro ⟨before', after', hentries', he⟩
      rw [hentries, append_cons_inj_of_notMem] at hentries'
      · rw [hentries'.1]
        exact he
      · exact fun hmem => hbefore (mem_map_of_mem hmem)
      · exact fun hmem => hafter (mem_map_of_mem hmem)
    · exact fun he => ⟨before, after, hentries, he⟩
  simp only [hearlier]
  have hgathered : handoff.installationID ∈
      (revokeHandoffs credentialIDs before installations t).1 ↔ _ := mem_revokeHandoffs
  rw [hentries, revokeHandoffs_append, revokeHandoffs]
  split
  · rename_i hdel
    rw [Bool.or_eq_true, contains_iff_mem, contains_iff_mem] at hdel
    rw [revokeHandoffs_lookup_other hafter, lookup_erase_eq, if_pos rfl]
    constructor
    · rintro ⟨⟩
    · rintro ⟨hstart, hbefore'⟩
      rcases hgathered.mp (hdel.resolve_left hother) with h | h
      · exact absurd h hstart
      · exact absurd h hbefore'
  · rename_i hkept
    rw [Bool.or_eq_true, not_or, contains_iff_mem, contains_iff_mem, hgathered, not_or] at hkept
    rw [revokeHandoffs_lookup_other hafter, revokeHandoffs_lookup_other hbefore]
    exact ⟨fun _ => hkept.2, fun _ => hget⟩

/-- The orders in which the handoffs that satisfy `p` come first. -/
def Memory.Visits.first (p : AuthHandoffRecord → Bool) (s : AuthDiskState) : Visits s :=
  { Visits.stored s with
    handoffs := s.handoffs.entries.filter (p ·.2) ++ s.handoffs.entries.filter (!p ·.2)
    handoffs_perm := filter_append_perm _ _ }

theorem Memory.Visits.first_earlier
    {x : Row String AuthHandoffRecord} (he : s.handoffs.lookup e.1 = some e.2)
    (hx : s.handoffs.lookup x.1 = some x.2) (hpe : p e.2) (hpx : p x.2 = false) :
    Earlier (Visits.first p s).handoffs e x := by
  have hmem : x ∈ s.handoffs.entries.filter (!p ·.2) :=
    mem_filter.mpr ⟨mem_entries_iff.mpr hx, by rw [hpx]; rfl⟩
  obtain ⟨before, after, hsplit⟩ := append_of_mem hmem
  refine ⟨s.handoffs.entries.filter (p ·.2) ++ before, after, ?_, ?_⟩
  · rw [append_assoc, ← hsplit]
    rfl
  · exact mem_append_left _ (mem_filter.mpr ⟨mem_entries_iff.mpr he, hpe⟩)

theorem Memory.Visits.earlier_first {x : Row String AuthHandoffRecord}
    (h : Earlier (Visits.first p s).handoffs e x) (hpx : p x.2) : p e.2 := by
  obtain ⟨before, after, hsplit, he⟩ := h
  have hsplit : s.handoffs.entries.filter (p ·.2) ++ s.handoffs.entries.filter (!p ·.2) =
      before ++ x :: after := hsplit
  rcases append_eq_append_iff.mp hsplit with ⟨rest, rfl, hrest⟩ | ⟨rest, hfirst, -⟩
  · -- the row would stand in the second part
    have hmem : x ∈ s.handoffs.entries.filter (!p ·.2) := by
      rw [hrest]
      exact mem_append_right _ mem_cons_self
    rw [mem_filter, hpx] at hmem
    cases hmem.2
  · have hmem : e ∈ s.handoffs.entries.filter (p ·.2) := by
      rw [hfirst]
      exact mem_append_left _ he
    exact (mem_filter.mp hmem).2

/-! ## The login store -/

/-- What is left: the rows of others, except for the handoffs that are swept and the credentials
that nothing refers to. -/
structure Revoked (uid : String) (swept : String → AuthHandoffRecord → Prop)
    (s s' : AuthDiskState) : Prop where
  sessions : ∀ {key sess}, s'.sessions.lookup key = some sess ↔
    s.sessions.lookup key = some sess ∧ ¬OfUser s uid sess.credentialID
  handoffs : ∀ {key handoff}, s'.handoffs.lookup key = some handoff ↔
    s.handoffs.lookup key = some handoff ∧ ¬OfUser s uid handoff.credentialID ∧ ¬swept key handoff
  credentials : ∀ {id cred}, s'.credentials.lookup id = some cred ↔
    s.credentials.lookup id = some cred ∧ cred.userID ≠ uid ∧ credentialInUse id s'

theorem lookup_select_iff {p : String → α → Bool} {t : Table String α}
    {row : α} : (t.select p).lookup key = some row ↔ t.lookup key = some row ∧ p key row := by
  rw [lookup_select, Option.filter_eq_some_iff]

theorem mem_trimmedTargets :
    iid ∈ trimmedTargets ids ↔ iid ≠ "" ∧ ∃ id ∈ ids, trimSpace id = iid := by
  simp only [trimmedTargets, mem_filter, mem_map, bne_iff_ne, ne_eq]
  exact and_comm

/-- The memory store takes the installations of the user's sessions untrimmed, and those of handoffs
that it came to before. -/
def Memory.Swept (uid : String) (ids : List String) (s : AuthDiskState) (visits : Visits s)
    (key : String) (handoff : AuthHandoffRecord) : Prop :=
  handoff.installationID ∈ trimmedTargets ids ∨ HasSession s uid handoff.installationID ∨
    ∃ e, Earlier visits.handoffs e ⟨key, handoff⟩ ∧ OfUser s uid e.2.credentialID ∧
      e.2.installationID = handoff.installationID

theorem Memory.revokeAccount_revoked (huid : UserName uid)
    (ids : List String) (s : AuthDiskState) (visits : Visits s) :
    (∃ result, (revokeAccount uid ids s visits).1 = .ok result) ∧
      Revoked uid (Swept uid ids s visits) s (revokeAccount uid ids s visits).2 := by
  rw [revokeAccount, huid.1]
  dsimp only
  rw [if_neg huid.2]
  have huser : ∀ id, (credentialIDsOf uid s).contains id ↔ OfUser s uid id :=
    fun id => contains_iff_mem.trans mem_credentialIDsOf
  refine ⟨⟨_, rfl⟩, ?_, ?_, ?_⟩
  · intro key sess
    refine lookup_select_iff.trans (and_congr_right fun _ => ?_)
    rw [Bool.not_eq_true', ← Bool.not_eq_true, huser]
  · intro key handoff
    constructor
    · intro h
      have hget : s.handoffs.lookup key = some handoff := of_lookup_revokeHandoffs h
      have hother := revokeHandoffs_lookup h (visits.mem_handoffs.mpr hget)
      obtain ⟨hstart, hearlier⟩ := (revokeHandoffs_kept_iff visits.handoffs_perm hget hother).mp h
      rw [mem_append, mem_sessionInstallations fun _ => mem_credentialIDsOf, not_or] at hstart
      simp only [mem_credentialIDsOf] at hother hearlier
      exact ⟨hget, hother, not_or.mpr ⟨hstart.1, not_or.mpr ⟨hstart.2, hearlier⟩⟩⟩
    · rintro ⟨hget, hother, hkept⟩
      rw [Swept, not_or, not_or] at hkept
      refine (revokeHandoffs_kept_iff visits.handoffs_perm hget
        (mt mem_credentialIDsOf.mp hother)).mpr ?_
      rw [mem_append, mem_sessionInstallations fun _ => mem_credentialIDsOf, not_or]
      simp only [mem_credentialIDsOf]
      exact ⟨⟨hkept.1, hkept.2.1⟩, hkept.2.2⟩
  · intro id cred
    refine lookup_select_iff.trans ?_
    rw [lookup_select_iff, and_assoc]
    refine and_congr_right fun hget => and_congr_left fun _ => ?_
    rw [Bool.not_eq_true', ← Bool.not_eq_true, huser]
    constructor
    · exact fun hother hown => hother ⟨cred, hget, hown⟩
    · rintro hother ⟨cred', hget', hown⟩
      rw [hget] at hget'
      cases hget'
      exact hother hown

theorem Postgres.contains_sweptInstallations (ids : List String) (iid : String) :
    (compactStrings (compactStrings ids ++
      ((s.sessions.rows.filter ((credentialIDsOf uid s).contains ·.credentialID)).map
        (·.installationID)).dedup)).contains iid = true ↔
      iid ∈ trimmedTargets ids ∨ iid ≠ "" ∧
        ∃ target, HasSession s uid target ∧ trimSpace target = iid := by
  have hsess : ∀ target, target ∈ (s.sessions.rows.filter
      ((credentialIDsOf uid s).contains ·.credentialID)).map (·.installationID) ↔
      HasSession s uid target :=
    fun _ => mem_sessionInstallations fun _ => mem_credentialIDsOf
  have hcompact : ∀ target, target ∈ compactStrings ids ↔ target ∈ trimmedTargets ids := by
    intro target
    rw [← contains_iff_mem, contains_compactStrings, contains_iff_mem]
  rw [contains_compactStrings, contains_iff_mem, mem_trimmedTargets]
  simp only [mem_append, mem_dedup, hsess, hcompact, or_and_right, exists_or, and_or_left]
  refine or_congr_left ?_
  -- the names of the argument are trimmed once more
  simp only [mem_trimmedTargets]
  constructor
  · rintro ⟨hne, target, ⟨-, id, hid, rfl⟩, htarget⟩
    rw [trimSpace_trimSpace] at htarget
    exact ⟨hne, id, hid, htarget⟩
  · rintro ⟨hne, id, hid, rfl⟩
    exact ⟨hne, trimSpace id, ⟨hne, id, hid, rfl⟩, trimSpace_trimSpace id⟩

theorem Postgres.revokeAccount_revoked (huid : UserName uid) (ids : List String)
    (s : AuthDiskState) :
    (∃ result, (revokeAccount uid ids s).1 = .ok result) ∧
      Revoked uid (fun _ handoff =>
        handoff.installationID ∈ trimmedTargets ids ∨ handoff.installationID ≠ "" ∧
          ∃ target, HasSession s uid target ∧ trimSpace target = handoff.installationID) s
        (revokeAccount uid ids s).2 := by
  rw [revokeAccount, huid.1]
  dsimp only
  rw [if_neg huid.2]
  have huser : ∀ id, (credentialIDsOf uid s).contains id ↔ OfUser s uid id :=
    fun id => contains_iff_mem.trans mem_credentialIDsOf
  have hgone : ∀ id, (s.credentials.lookup id).any (·.userID == uid) = true ↔ OfUser s uid id := by
    intro id
    simp only [Option.any_eq_true, beq_iff_eq, OfUser]
  refine ⟨⟨_, rfl⟩, ?_, ?_, ?_⟩
  · intro key sess
    refine lookup_select_iff.trans ?_
    dsimp only
    rw [lookup_select_iff, and_assoc]
    refine and_congr_right fun _ => ?_
    rw [Bool.not_eq_true', Bool.not_eq_true', ← Bool.not_eq_true, ← Bool.not_eq_true, huser, hgone,
      and_self]
  · intro key handoff
    refine lookup_select_iff.trans ?_
    dsimp only
    rw [lookup_select_iff, and_assoc]
    refine and_congr_right fun _ => ?_
    rw [Bool.not_eq_true', Bool.not_eq_true', ← Bool.not_eq_true, ← Bool.not_eq_true, hgone,
      Bool.or_eq_true, huser, contains_sweptInstallations, not_or]
    exact ⟨fun h => h.1, fun h => ⟨h, h.1⟩⟩
  · intro id cred
    refine lookup_select_iff.trans ?_
    dsimp only [deleteCredentials]
    rw [lookup_select_iff, and_assoc]
    refine and_congr_right fun _ => and_congr_left fun _ => ?_
    rw [Bool.not_eq_true', beq_eq_false_iff_ne]

theorem Revoked.congr {swept' : String → AuthHandoffRecord → Prop}
    (h : Revoked uid swept s s') (hswept : ∀ key handoff, swept key handoff ↔ swept' key handoff) :
    Revoked uid swept' s s' :=
  ⟨h.sessions, fun {key handoff} => by rw [← hswept]; exact h.handoffs, h.credentials⟩

end Auth

/-- The handoffs of others that may be deleted. The memory store also takes the installations of the
user's sessions and handoffs. -/
def Swept (env : Env) (w : World) (caller uid : String) (handoff : AuthHandoffRecord) : Prop :=
  TrimmedTarget w caller uid handoff.installationID ∨
    env.backend = .memory ∧ (HasSession w.auth uid handoff.installationID ∨
      HasHandoff w.auth uid handoff.installationID)

section Calls

variable {caller : String}

variable (env) in
theorem execAuth_accountRevocationTargets {s : AuthDiskState} (hfault : x.fault = none)
    (huid : UserName uid)
    (hkeyed : ∀ {id cred}, s.credentials.lookup id = some cred → cred.id = id) :
    ∃ targets, execAuth env x (.accountRevocationTargets uid) s = (.ok targets, s) ∧
      ∀ iid, iid ∈ targets.installationIDs ↔ HasSession s uid iid := by
  unfold execAuth
  cases env.backend with
  | memory =>
    dsimp only [Memory.execAuth]
    rw [accountRevocationTargets, huid.1]
    dsimp only
    rw [if_neg huid.2]
    refine ⟨_, rfl, fun iid => ?_⟩
    rw [mem_insertionSort, mem_dedup]
    exact mem_sessionInstallations fun _ => mem_credentialIDsOf
  | postgres =>
    dsimp only [Postgres.execAuth]
    rw [withFault, hfault]
    dsimp only [Postgres.answerAuth]
    rw [Postgres.accountRevocationTargets, huid.1]
    dsimp only
    rw [if_neg huid.2]
    refine ⟨_, rfl, fun iid => ?_⟩
    rw [mem_insertionSort, mem_dedup]
    refine mem_sessionInstallations fun id => ?_
    simp only [mem_map, mem_insertionSort, mem_filter, beq_iff_eq, mem_rows_iff]
    constructor
    · rintro ⟨cred, ⟨⟨key, hkey⟩, huser⟩, rfl⟩
      rw [hkeyed hkey]
      exact ⟨cred, hkey, huser⟩
    · rintro ⟨cred, hget, huser⟩
      exact ⟨cred, ⟨⟨id, hget⟩, huser⟩, hkeyed hget⟩

section Reached

variable (htargets : ∀ iid, iid ∈ trimmedTargets ids ↔ TrimmedTarget w caller uid iid)

include htargets

theorem swept_of_memory (hbackend : env.backend = .memory) {visits : Visits w.auth}
    (h : Memory.Swept uid ids w.auth visits key handoff) : Swept env w caller uid handoff := by
  rcases h with htarget | hsess | ⟨e, hearlier, huser, hiid⟩
  · exact .inl ((htargets _).mp htarget)
  · exact .inr ⟨hbackend, .inl hsess⟩
  · exact .inr ⟨hbackend, .inr ⟨e.1, e.2, visits.mem_handoffs.mp hearlier.mem, huser, hiid⟩⟩

/-- The order that visits the user's handoffs first sweeps the most. -/
theorem swept_first (hget : w.auth.handoffs.lookup key = some handoff)
    (hother : ¬OfUser w.auth uid handoff.credentialID) (h : Swept env w caller uid handoff) :
    Memory.Swept uid ids w.auth (.first (fun handoff =>
      (credentialIDsOf uid w.auth).contains handoff.credentialID) w.auth) key handoff := by
  have huser : ∀ id, (credentialIDsOf uid w.auth).contains id ↔
      OfUser w.auth uid id := fun id => contains_iff_mem.trans mem_credentialIDsOf
  rcases h with htarget | ⟨-, hsess | ⟨key', own, hown, hofUser, hiid⟩⟩
  · exact .inl ((htargets _).mpr htarget)
  · exact .inr (.inl hsess)
  · refine .inr (.inr ⟨⟨key', own⟩, ?_, hofUser, hiid⟩)
    exact Visits.first_earlier hown hget ((huser _).mpr hofUser)
      (Bool.eq_false_iff.mpr (mt (huser _).mp hother))

theorem postgres_swept_iff (hbackend : env.backend = .postgres) (handoff : AuthHandoffRecord) :
    (handoff.installationID ∈ trimmedTargets ids ∨ handoff.installationID ≠ "" ∧
        ∃ target, HasSession w.auth uid target ∧ trimSpace target = handoff.installationID) ↔
      Swept env w caller uid handoff := by
  rw [Swept, htargets, hbackend]
  constructor
  · rintro (htarget | ⟨hne, target, hsess, htrim⟩)
    · exact .inl htarget
    · exact .inl ⟨hne, target, .inr (.inl hsess), htrim⟩
  · rintro (htarget | ⟨hmemory, -⟩)
    · exact .inl htarget
    · cases hmemory

variable (env) in
theorem execAuth_revokeAccount_revoked (hfault : x.fault = none) (huid : UserName uid) :
    (∃ result, (execAuth env x (.revokeAccount uid ids) w.auth).1 = .ok result) ∧
      ∃ swept, (∀ key handoff, swept key handoff → Swept env w caller uid handoff) ∧
        Revoked uid swept w.auth (execAuth env x (.revokeAccount uid ids) w.auth).2 := by
  unfold execAuth
  cases hbackend : env.backend with
  | memory =>
    obtain ⟨hok, hrevoked⟩ := revokeAccount_revoked huid ids w.auth (x.visits w.auth)
    exact ⟨hok, _, fun _ _ => swept_of_memory htargets hbackend, hrevoked⟩
  | postgres =>
    dsimp only [Postgres.execAuth]
    rw [withFault, hfault]
    obtain ⟨hok, hrevoked⟩ := Postgres.revokeAccount_revoked huid ids w.auth
    exact ⟨hok, _, fun _ handoff => (postgres_swept_iff htargets hbackend handoff).mp, hrevoked⟩

variable (env) in
theorem exists_revokeAccount_swept (huid : UserName uid) :
    ∃ x : Choice, x.fault = none ∧ Revoked uid (fun _ => Swept env w caller uid) w.auth
      (execAuth env x (.revokeAccount uid ids) w.auth).2 := by
  let x : Choice := { visits := fun s => .first (fun handoff =>
    (credentialIDsOf uid s).contains handoff.credentialID) s }
  refine ⟨x, rfl, ?_⟩
  unfold execAuth
  cases hbackend : env.backend with
  | memory =>
    obtain ⟨-, hrevoked⟩ := revokeAccount_revoked huid ids w.auth (x.visits w.auth)
    refine ⟨hrevoked.sessions, ?_, hrevoked.credentials⟩
    intro key handoff
    refine hrevoked.handoffs.trans (and_congr_right fun hget => and_congr_right fun hother => ?_)
    exact not_congr ⟨swept_of_memory htargets hbackend, swept_first htargets hget hother⟩
  | postgres =>
    obtain ⟨-, hrevoked⟩ := Postgres.revokeAccount_revoked huid ids w.auth
    exact hrevoked.congr fun _ handoff => postgres_swept_iff htargets hbackend handoff

end Reached

theorem execDelivery_deleteForInstallation_records (hfault : x.fault = none) {r : DeliveryRecord}
    {s : DeliveryDiskState} :
    (execDelivery env x (.deleteForInstallation iid) s).2.records.lookup key =
        some r ↔
      s.records.lookup key = some r ∧ r.installationID ≠ iid := by
  have hstate : (execDelivery env x (.deleteForInstallation iid) s).2.records =
      s.records.select fun _ r => r.installationID != iid := by
    unfold execDelivery
    cases env.backend with
    | memory => rfl
    | postgres =>
      dsimp only [Postgres.execDelivery]
      rw [withFault, hfault]
      rfl
  rw [hstate, lookup_select_iff, bne_iff_ne]

/-! ## The loops -/

/-- A call that concerns no repository and is no answer. -/
def Aside (env : Env) (call : Call) : Prop :=
  (∀ x (w : World), registrationsAfter env x w.registrations call = w.registrations ∧
    deliveriesAfter env x w.deliveries call = w.deliveries ∧ authAfter env x w.auth call = w.auth) ∧
  ∀ a, answers [⟨call, a⟩] = []

theorem answers_append (tr tr' : Trace) : answers (tr ++ tr') = answers tr ++ answers tr' :=
  filterMap_append

theorem runs_aside {p : Handler α} {a : α}
    (hp : p.Only (Aside env) fun _ _ => True) (h : Runs (execStored env) p w tr a w') :
    answers tr = [] ∧ SameStores w w' := by
  have hstep : ∀ call x w1 b w2, SameStores w w1 → Aside env call →
      execStored env call x w1 = some (b, w2) → True ∧ SameStores w w2 :=
    fun call x w1 b w2 hsame haside hcall =>
      ⟨trivial, hsame.trans (execStored_sameStores hcall (haside.1 x w1))⟩
  obtain ⟨hcalls, hsame⟩ := h.only hp hstep ⟨rfl, rfl, rfl⟩
  refine ⟨?_, hsame⟩
  clear h
  induction tr with
  | nil => rfl
  | cons e tr ih =>
    rw [← singleton_append, answers_append, (hcalls e mem_cons_self).2 e.2,
      ih fun e' he' => hcalls e' (mem_cons_of_mem _ he')]
    rfl

theorem revokeAccessTokens_aside (credentials : List AuthCredential) :
    (revokeAccessTokens env credentials).Only (Aside env) fun _ _ => True := by
  induction credentials with
  | nil => trivial
  | cons cred credentials ih =>
    refine .bind ?_ fun _ => ih
    have haside : ∀ call : EnvCall, (∀ a, answers [⟨.env call, a⟩] = []) → Aside env (.env call) :=
      fun call hans => ⟨fun _ _ => ⟨rfl, rfl, rfl⟩, hans⟩
    refine .perform_bind (haside _ fun _ => rfl) fun _ _ => ?_
    refine .perform_bind ⟨fun _ _ => ⟨rfl, rfl, rfl⟩, fun _ => rfl⟩ fun _ _ => ?_
    exact .perform_bind (haside _ fun _ => rfl) fun _ _ => trivial

theorem closeSockets_aside (iids : List String) :
    (closeSockets iids).Only (Aside env) fun _ _ => True := by
  induction iids with
  | nil => trivial
  | cons iid iids ih =>
    exact .perform_bind ⟨fun _ _ => ⟨rfl, rfl, rfl⟩, fun _ => rfl⟩ fun _ _ => ih

theorem deleteDeliveriesOf_runs {result : Result Unit}
    (h : Runs (execStored env) (deleteDeliveriesOf iids) w tr result w') :
    result = .ok () ∧ answers tr = [] ∧ w'.registrations = w.registrations ∧ w'.auth = w.auth ∧
      ∀ {key r}, w'.deliveries.records.lookup key = some r ↔
        w.deliveries.records.lookup key = some r ∧ r.installationID ∉ iids := by
  induction iids generalizing w tr with
  | nil =>
    obtain ⟨rfl, rfl, rfl⟩ := h.of_ret
    refine ⟨rfl, rfl, rfl, rfl, fun {key r} => ?_⟩
    exact ⟨fun hget => ⟨hget, not_mem_nil⟩, And.left⟩
  | cons iid iids ih =>
    obtain ⟨x, removed, w1, tr1, hcall, rfl, hrest⟩ := h.of_perform
    obtain ⟨hfault, rfl, rfl⟩ := execStored_delivery hcall
    obtain ⟨count, hcount⟩ := execDelivery_deleteForInstallation env hfault iid w.deliveries
    rw [hcount] at hrest
    obtain ⟨hok, hanswers, hregs, hauth, hrows⟩ := ih hrest
    refine ⟨hok, hanswers, hregs, hauth, fun {key r} => ?_⟩
    rw [hrows, execDelivery_deleteForInstallation_records hfault, mem_cons, not_or, and_assoc]

/-! ## The whole revocation -/

/-- The registrations that a revocation deletes. -/
def Unregistered (w : World) (caller uid iid : String) : Prop :=
  ∃ reg, w.registrations.lookup iid = some reg ∧ (reg.userID = uid ∨ TrimmedTarget w caller uid iid)

theorem mem_registered
    (hkeyed : ∀ {id reg}, w.registrations.lookup id = some reg → reg.installationID = id) :
    iid ∈ ((listed env w.registrations).filter (·.userID == uid)).map
        (·.installationID) ↔
      ∃ reg, w.registrations.lookup iid = some reg ∧ reg.userID = uid := by
  simp only [mem_map, mem_filter, beq_iff_eq, mem_listed_iff, mem_rows_iff]
  constructor
  · rintro ⟨_, ⟨⟨row, ⟨key, hkey⟩, rfl⟩, huser⟩, rfl⟩
    refine ⟨row, ?_, huser⟩
    rw [← hkeyed hkey] at hkey
    exact hkey
  · rintro ⟨row, hget, huser⟩
    have hid : row.installationID = iid := hkeyed hget
    exact ⟨publicRegistration row, ⟨⟨row, ⟨iid, hget⟩, rfl⟩, huser⟩, hid⟩

section Gathered

variable (hids : ∀ id, id ∈ ids ↔ Targeted w caller uid id)

include hids

theorem mem_trimmedTargets_gathered :
    iid ∈ trimmedTargets ids ↔ TrimmedTarget w caller uid iid := by
  simp only [mem_trimmedTargets, hids, TrimmedTarget]

theorem spared_gathered (huid : UserName uid) {row : Registration} :
    spared uid ids iid row ↔ row.userID ≠ uid ∧ ¬TrimmedTarget w caller uid iid := by
  rw [← mem_trimmedTargets_gathered hids, spared, huid.1, Bool.and_eq_true, Bool.or_eq_true,
    beq_iff_eq, bne_iff_ne, Bool.not_eq_true', ← Bool.not_eq_true, contains_iff_mem, and_comm]
  exact and_congr_left fun _ => or_iff_right huid.2

end Gathered

theorem mem_trimmedTargets_reached
    (hids : ∀ id, id ∈ ids ↔ Targeted w caller uid id ∨ Unregistered w caller uid id) :
    iid ∈ trimmedTargets ids ↔ TrimmedTarget w caller uid iid := by
  simp only [mem_trimmedTargets, hids]
  constructor
  · rintro ⟨hne, id, htargeted | ⟨reg, hget, huser | ⟨-, target, htarget, rfl⟩⟩, rfl⟩
    · exact ⟨hne, id, htargeted, rfl⟩
    · exact ⟨hne, id, .inr (.inr ⟨reg, hget, huser⟩), rfl⟩
    · rw [trimSpace_trimSpace] at hne ⊢
      exact ⟨hne, target, htarget, rfl⟩
  · rintro ⟨hne, target, htarget, rfl⟩
    exact ⟨hne, target, .inl htarget, rfl⟩

/-- The registrations and the queues afterwards. -/
structure Unqueued (caller uid : String) (w w' : World) : Prop where
  registrations : ∀ {id reg}, w'.registrations.lookup id = some reg ↔
    w.registrations.lookup id = some reg ∧ reg.userID ≠ uid ∧ ¬TrimmedTarget w caller uid id
  deliveries : ∀ {key r}, w'.deliveries.records.lookup key = some r ↔
    w.deliveries.records.lookup key = some r ∧
      ¬Targeted w caller uid r.installationID ∧
      ¬Unregistered w caller uid r.installationID

/-- The three stores afterwards. -/
structure AccountRevoked (caller uid : String) (swept : String → AuthHandoffRecord → Prop)
    (w w' : World) : Prop extends Unqueued caller uid w w' where
  logins : Revoked uid swept w.auth w'.auth

theorem closeSockets_respond_runs
    (h : Runs (execStored env) (closeSockets iids >>= fun _ =>
      respond 204 "" >>= fun _ => host .requestEventSubReconcile) w tr () w') :
    answers tr = [204] ∧ SameStores w w' := by
  obtain ⟨tr1, tr2, _, w1, rfl, hclose, hrest⟩ := h.of_bind
  obtain ⟨hanswers, hsame1⟩ := runs_aside (closeSockets_aside iids) hclose
  obtain ⟨x2, _, w2, tr3, hresp, rfl, hend⟩ := hrest.of_perform
  obtain ⟨x3, _, w3, tr4, hreconcile, rfl, hret⟩ := hend.of_call
  obtain ⟨rfl, -, rfl⟩ := hret.of_ret
  refine ⟨?_, (hsame1.trans (execStored_sameStores hresp ⟨rfl, rfl, rfl⟩)).trans
    (execStored_sameStores hreconcile ⟨rfl, rfl, rfl⟩)⟩
  rw [answers_append, hanswers]
  rfl

theorem exists_closeSockets_respond (iids : List String) (w : World) :
    ∃ tr w', Runs (execStored env) (closeSockets iids >>= fun _ =>
      respond 204 "" >>= fun _ => host .requestEventSubReconcile) w tr () w' := by
  have hclose : (closeSockets iids).Only (Answered env 0) fun _ _ => True := by
    induction iids with
    | nil => trivial
    | cons iid iids ih => exact .perform_bind answered_hub fun _ _ => ih
  have hend : (respond 204 "" >>= fun _ => host .requestEventSubReconcile).Only
      (Answered env 0) fun _ _ => True :=
    .perform_bind answered_respond fun _ _ => ⟨answered_reconcile, fun _ _ => trivial⟩
  obtain ⟨tr, _, w', hrun⟩ := exists_runs (hclose.bind fun _ => hend) w
  exact ⟨tr, w', hrun.mono fun _ _ _ r h => (execStored_of_execAt (a := r.1) h).2⟩

theorem revokeLogins_runs (hauth : w.auth = w0.auth)
    (htargets : ∀ iid, iid ∈ trimmedTargets ids ↔ TrimmedTarget w0 caller uid iid)
    (huid : UserName uid) (h : Runs (execStored env) (revokeLogins uid ids) w tr () w') :
    answers tr = [204] ∧ w'.registrations = w.registrations ∧ w'.deliveries = w.deliveries ∧
      ∃ swept, (∀ key handoff, swept key handoff → Swept env w0 caller uid handoff) ∧
        Revoked uid swept w0.auth w'.auth := by
  obtain ⟨x, ans, w1, tr1, hcall, rfl, hrest⟩ := h.of_perform
  obtain ⟨hfault, rfl, rfl⟩ := execStored_auth hcall
  obtain ⟨⟨result, hres⟩, hswept⟩ := execAuth_revokeAccount_revoked env htargets hfault huid
  rw [hauth, hres] at hrest
  obtain ⟨hanswers, hsame⟩ := closeSockets_respond_runs hrest
  refine ⟨hanswers, hsame.1, hsame.2.1, ?_⟩
  rw [hsame.2.2]
  exact hswept

theorem exists_revokeLogins (hauth : w.auth = w0.auth)
    (htargets : ∀ iid, iid ∈ trimmedTargets ids ↔ TrimmedTarget w0 caller uid iid)
    (huid : UserName uid) :
    ∃ tr w', Runs (execStored env) (revokeLogins uid ids) w tr () w' ∧
      w'.registrations = w.registrations ∧ w'.deliveries = w.deliveries ∧
      Revoked uid (fun _ => Swept env w0 caller uid) w0.auth w'.auth := by
  obtain ⟨x, hfault, hrevoked⟩ := exists_revokeAccount_swept env htargets huid
  obtain ⟨⟨result, hres⟩, -⟩ := execAuth_revokeAccount_revoked env htargets hfault huid
  rw [← hauth] at hres hrevoked ⊢
  obtain ⟨tr, w', hrun⟩ := exists_closeSockets_respond ids
    { w with auth := (execAuth env x (.revokeAccount uid ids) w.auth).2 }
  obtain ⟨-, hsame⟩ := closeSockets_respond_runs hrun
  have hcall : execStored env (.auth (.revokeAccount uid ids)) x w =
      some (.ok result, { w with auth := (execAuth env x (.revokeAccount uid ids) w.auth).2 }) := by
    rw [execStored, if_pos hfault, exec, hres]
  refine ⟨_, w', .call hcall hrun, hsame.1, hsame.2.1, ?_⟩
  rw [hsame.2.2]
  exact hrevoked

theorem revokeGathered_leads {credentials : List AuthCredential} {installationSet : List String}
    (huid : UserName uid) (hset : ∀ id, id ∈ installationSet ↔ Targeted w caller uid id)
    (h : Runs (execStored env) (revokeGathered env uid credentials installationSet) w tr () w') :
    ∃ before tr1 w1 ids, answers tr = answers tr1 ∧ Unqueued caller uid w w1 ∧ w1.auth = w.auth ∧
      (∀ iid, iid ∈ trimmedTargets ids ↔ TrimmedTarget w caller uid iid) ∧
      Leads (execStored env) (revokeGathered env uid credentials installationSet) w before
        (revokeLogins uid ids) w1 ∧
      Runs (execStored env) (revokeLogins uid ids) w1 tr1 () w' := by
  obtain ⟨tr1, tr2, _, w1, rfl, hrevoke, h1, hleads1⟩ := runs_bind_leads h
  obtain ⟨hanswers1, hsame1⟩ := runs_aside (revokeAccessTokens_aside credentials) hrevoke
  obtain ⟨x2, deleted, w2, tr3, hdelete, rfl, h2, hleads2⟩ := runs_perform_leads h1
  obtain ⟨hfault2, rfl, rfl⟩ := execStored_registration hdelete
  rw [execRegistration_deleteForAccount_answered hfault2, hsame1.1] at h2 hleads2
  dsimp only [deletedForAccount] at h2 hleads2
  obtain ⟨tr4, tr5, result, w3, rfl, hdequeue, h3, hleads3⟩ := runs_bind_leads h2
  obtain ⟨rfl, hanswers3, hregs3, hauth3, hrows3⟩ := deleteDeliveriesOf_runs hdequeue
  -- what was gathered, deleted and reached
  have hsort : ∀ id, id ∈ installationSet.insertionSort (· ≤ ·) ↔ Targeted w caller uid id :=
    fun id => (mem_insertionSort _).trans (hset id)
  have hspare : ∀ {id row}, spared uid (installationSet.insertionSort (· ≤ ·)) id row ↔
      row.userID ≠ uid ∧ ¬TrimmedTarget w caller uid id :=
    spared_gathered hsort huid
  have hreach : ∀ id, id ∈ (installationSet ++ (w.registrations.entries.filterMap fun e =>
      if spared uid (installationSet.insertionSort (· ≤ ·)) e.1 e.2 then none
      else some e.1).insertionSort (· ≤ ·)).dedup ↔
      Targeted w caller uid id ∨ Unregistered w caller uid id := by
    intro id
    rw [mem_dedup, mem_append, hset, mem_removed_iff]
    refine or_congr_right (exists_congr fun row => and_congr_right fun _ => ?_)
    rw [← Bool.not_eq_true, hspare, not_and_or, not_not, not_not]
  refine ⟨_, tr5, w3, _, ?_, ⟨?_, ?_⟩, hauth3.trans hsame1.2.2,
    fun _ => mem_trimmedTargets_reached fun id => (mem_insertionSort (· ≤ ·)).trans (hreach id),
    (hleads1.trans hleads2).trans hleads3, h3⟩
  · rw [answers_append, hanswers1]
    show answers (tr4 ++ tr5) = answers tr5
    rw [answers_append, hanswers3, nil_append]
  · intro id reg
    rw [hregs3, ← hspare]
    exact lookup_select_iff
  · intro key r
    rw [hrows3, hreach, not_or, ← hsame1.2.1]

theorem revokeAccountSessions_leads (htidy : Tidy w) (huid : UserName uid)
    (h : Runs (execStored env) (revokeAccountSessions env caller uid) w tr () w') :
    ∃ before tr1 w1 ids, answers tr = answers tr1 ∧ Unqueued caller uid w w1 ∧ w1.auth = w.auth ∧
      (∀ iid, iid ∈ trimmedTargets ids ↔ TrimmedTarget w caller uid iid) ∧
      Leads (execStored env) (revokeAccountSessions env caller uid) w before
        (revokeLogins uid ids) w1 ∧
      Runs (execStored env) (revokeLogins uid ids) w1 tr1 () w' := by
  -- the installations of the sessions and of the registrations
  obtain ⟨x1, targets, w1, tr1, hcall1, rfl, h1, hleads1⟩ := runs_perform_leads h
  obtain ⟨hfault1, rfl, rfl⟩ := execStored_auth hcall1
  obtain ⟨targets, heq, htargets⟩ := execAuth_accountRevocationTargets env hfault1 huid
    fun h => (htidy.credentials h).1
  rw [heq] at h1 hleads1
  obtain ⟨x2, regs, w2, tr2, hcall2, rfl, h2, hleads2⟩ := runs_perform_leads h1
  obtain ⟨hfault2, rfl, rfl⟩ := execStored_registration hcall2
  rw [execRegistration_list_answered hfault2, execRegistration_list.1] at h2 hleads2
  have hset : ∀ id, id ∈ (caller :: targets.installationIDs ++
      ((listed env w.registrations).filter (·.userID == uid)).map (·.installationID)).dedup ↔
      Targeted w caller uid id := by
    intro id
    rw [mem_dedup, cons_append, mem_cons, mem_append, htargets,
      mem_registered htidy.registrations, Targeted]
  obtain ⟨before, tr3, w3, ids, hanswers, hunqueued, hauth, hids, hleads3, hend⟩ :=
    revokeGathered_leads huid hset h2
  exact ⟨_, tr3, w3, ids, hanswers, hunqueued, hauth, hids, (hleads1.trans hleads2).trans hleads3,
    hend⟩

theorem revokeAccountSessions_runs (htidy : Tidy w) (huid : UserName uid)
    (h : Runs (execStored env) (revokeAccountSessions env caller uid) w tr () w') :
    answers tr = [204] ∧
      (∃ swept, (∀ key handoff, swept key handoff → Swept env w caller uid handoff) ∧
        AccountRevoked caller uid swept w w') ∧
      ∃ tr1 w1, Runs (execStored env) (revokeAccountSessions env caller uid) w tr1 () w1 ∧
        AccountRevoked caller uid (fun _ => Swept env w caller uid) w w1 := by
  obtain ⟨before, tr1, w1, ids, hanswers, hunqueued, hauth, hids, hleads, hend⟩ :=
    revokeAccountSessions_leads htidy huid h
  have hrevoked : ∀ {swept w2}, w2.registrations = w1.registrations →
      w2.deliveries = w1.deliveries → Revoked uid swept w.auth w2.auth →
      AccountRevoked caller uid swept w w2 := by
    intro swept w2 hregistrations hdels hlogins
    refine ⟨⟨?_, ?_⟩, hlogins⟩
    · rw [hregistrations]
      exact hunqueued.registrations
    · rw [hdels]
      exact hunqueued.deliveries
  obtain ⟨hserved, hregistrations, hdels, swept, hswept, hlogins⟩ :=
    revokeLogins_runs hauth hids huid hend
  obtain ⟨tr2, w2, hrun, hregistrations2, hdels2, hlogins2⟩ := exists_revokeLogins hauth hids huid
  exact ⟨hanswers.trans hserved, ⟨swept, hswept, hrevoked hregistrations hdels hlogins⟩, _,
    w2, hleads tr2 () w2 hrun, hrevoked hregistrations2 hdels2 hlogins2⟩

end Calls

/-! ## The caller -/

/-- The token is that of the user's session on this device. -/
def SignedIn (env : Env) (device : DeviceCredentials) (s : AuthDiskState) (uid : String) : Prop :=
  ∃ sess cred, s.sessions.lookup (env.hashSecret device.token) = some sess ∧
    s.credentials.lookup sess.credentialID = some cred ∧
    sess.installationID = trimSpace device.installationID ∧
    secureHashEqual sess.deviceHash (env.hashSecret (trimSpace device.deviceSecret)) ∧
    trimSpace cred.userID ≠ "" ∧ cred.userID = uid

/-- No session has the token. For PostgreSQL one without its credential is none. -/
def Unknown (env : Env) (device : DeviceCredentials) (s : AuthDiskState) : Prop :=
  ∀ sess, s.sessions.lookup (env.hashSecret device.token) = some sess →
    env.backend = .postgres ∧ s.credentials.lookup sess.credentialID = none

/-- The user that the registration of the caller names. -/
def RegisteredFor (env : Env) (iid secret : String) (t : RegistrationTable) (uid : String) : Prop :=
  ∃ reg, t.lookup iid = some reg ∧
    secretMatches env reg secret ∧ trimSpace reg.userID = uid ∧ uid ≠ ""

/-- **The user for whom a request is made**: that of the session, or that of the registration if
nothing is bound to the installation. -/
def Caller (env : Env) (device : DeviceCredentials) (w : World) (uid : String) : Prop :=
  env.cfg.authEnabled ∧ device.Complete ∧ (SignedIn env device w.auth uid ∨
    Unknown env device w.auth ∧ boundDevices (trimSpace device.installationID) w.auth = [] ∧
      RegisteredFor env (trimSpace device.installationID) (trimSpace device.deviceSecret)
        w.registrations uid)

section Request

variable {device : DeviceCredentials} {sess : AuthSessionRecord}

theorem not_signedIn_of_unknown (h : Unknown env device s) : ¬SignedIn env device s uid := by
  rintro ⟨sess, cred, hsess, hcred, -⟩
  rw [(h sess hsess).2] at hcred
  cases hcred

theorem Caller.named (htidy : Tidy w) (h : Caller env device w uid) : UserName uid := by
  obtain ⟨-, -, ⟨sess, cred, -, hcred, -, -, hnamed, rfl⟩ |
    ⟨-, -, reg, -, -, rfl, hnamed⟩⟩ := h
  · have htrimmed := (htidy.credentials hcred).2
    rw [htrimmed] at hnamed
    exact ⟨htrimmed, hnamed⟩
  · exact ⟨trimSpace_trimSpace _, hnamed⟩

theorem Caller.unique {uid' : String} (h : Caller env device w uid)
    (h' : Caller env device w uid') : uid = uid' := by
  obtain ⟨-, -, hsigned | ⟨hunknown, -, reg, hget, -, rfl, -⟩⟩ := h
  · obtain ⟨-, -, hsigned' | ⟨hunknown', -⟩⟩ := h'
    · obtain ⟨sess, cred, hsess, hcred, -, -, -, rfl⟩ := hsigned
      obtain ⟨sess', cred', hsess', hcred', -, -, -, rfl⟩ := hsigned'
      rw [hsess] at hsess'
      cases hsess'
      rw [hcred] at hcred'
      cases hcred'
      rfl
    · exact absurd hsigned (not_signedIn_of_unknown hunknown')
  · obtain ⟨-, -, hsigned' | ⟨-, -, reg', hget', -, rfl, -⟩⟩ := h'
    · exact absurd hsigned' (not_signedIn_of_unknown hunknown)
    · rw [hget] at hget'
      cases hget'
      rfl

/-- What the store may answer about the caller. -/
inductive AccountAnswer (env : Env) (device : DeviceCredentials) (s : AuthDiskState) :
    Result (String × Bool) → Prop
  | found {uid : String} (expired : Bool) (h : SignedIn env device s uid) :
      AccountAnswer env device s (.ok (uid, expired))
  | mismatch (hsigned : ∀ uid, ¬SignedIn env device s uid) (h : ¬Unknown env device s) :
      AccountAnswer env device s (.error .authDeviceMismatch)
  | notFound (hsigned : ∀ uid, ¬SignedIn env device s uid)
      (h : boundDevices (trimSpace device.installationID) s = [] → Unknown env device s) :
      AccountAnswer env device s (.error .authNotFound)

theorem mem_boundDevices (h : s.sessions.lookup key = some sess) :
    sess.deviceHash ∈ boundDevices sess.installationID s := by
  unfold boundDevices
  refine mem_append_left _ (mem_append_left _ (mem_map_of_mem ?_))
  exact mem_filter.mpr ⟨mem_rows_iff.mpr ⟨key, h⟩, beq_self_eq_true _⟩

theorem signedIn_iff (hsess : s.sessions.lookup (env.hashSecret device.token) = some sess) :
    SignedIn env device s uid ↔
      ∃ cred, s.credentials.lookup sess.credentialID = some cred ∧
        sess.installationID = trimSpace device.installationID ∧
        secureHashEqual sess.deviceHash (env.hashSecret (trimSpace device.deviceSecret)) ∧
        trimSpace cred.userID ≠ "" ∧ cred.userID = uid := by
  constructor
  · rintro ⟨sess', cred, hsess', h⟩
    rw [hsess] at hsess'
    cases hsess'
    exact ⟨cred, h⟩
  · rintro ⟨cred, h⟩
    exact ⟨sess, cred, hsess, h⟩

theorem execAuth_sessionAccount_state {token : String} :
    (execAuth env x (.sessionAccount token iid secret) s).2 = s := by
  unfold execAuth
  cases env.backend with
  | memory => rfl
  | postgres =>
    dsimp only [Postgres.execAuth, withFault]
    cases x.fault with
    | none => rfl
    | some fault => cases fault <;> rfl

theorem not_signedIn_of_mismatch
    (hsess : s.sessions.lookup (env.hashSecret device.token) = some sess)
    (hmis : sess.installationID ≠ trimSpace device.installationID ∨
      (!secureHashEqual sess.deviceHash (env.hashSecret (trimSpace device.deviceSecret)))) :
    ¬SignedIn env device s uid := by
  rw [signedIn_iff hsess]
  rintro ⟨cred, -, hiid, hdev, -⟩
  rcases hmis with hother | hother
  · exact hother hiid
  · rw [hdev] at hother
    cases hother

theorem accountAnswer_of_match (expired : Bool)
    (hsess : s.sessions.lookup (env.hashSecret device.token) = some sess)
    (hmatch : ¬(sess.installationID ≠ trimSpace device.installationID ∨
      (!secureHashEqual sess.deviceHash (env.hashSecret (trimSpace device.deviceSecret))))) :
    AccountAnswer env device s (match s.credentials.lookup sess.credentialID with
      | none => .error .authNotFound
      | some cred =>
        if trimSpace cred.userID = "" then .error .authNotFound
        else .ok (cred.userID, expired)) := by
  rw [not_or, not_ne_iff, Bool.not_eq_true, Bool.not_eq_false'] at hmatch
  have hbound : boundDevices (trimSpace device.installationID) s = [] → Unknown env device s := by
    intro hnone
    have hmem := mem_boundDevices hsess
    rw [hmatch.1, hnone] at hmem
    cases hmem
  cases hcred : s.credentials.lookup sess.credentialID with
  | none =>
    refine .notFound (fun uid => ?_) hbound
    rw [signedIn_iff hsess, hcred]
    rintro ⟨_, hnone, -⟩
    cases hnone
  | some cred =>
    dsimp only
    split_ifs with hblank
    · refine .notFound (fun uid => ?_) hbound
      rw [signedIn_iff hsess, hcred]
      rintro ⟨_, hsome, -, -, hnamed, -⟩
      cases hsome
      exact hnamed hblank
    · exact .found expired ⟨sess, cred, hsess, hcred, hmatch.1, hmatch.2, hblank, rfl⟩

theorem accountAnswer_of_unknown (h : Unknown env device s) :
    AccountAnswer env device s (.error .authNotFound) :=
  .notFound (fun _ => not_signedIn_of_unknown h) fun _ => h

theorem execAuth_sessionAccount_answer (hfault : x.fault = none) (s : AuthDiskState) :
    AccountAnswer env device s (execAuth env x (.sessionAccount device.token
      (trimSpace device.installationID) (trimSpace device.deviceSecret)) s).1 := by
  have hnone : s.sessions.lookup (env.hashSecret device.token) = none → Unknown env device s := by
    intro hnone sess hsess
    rw [hnone] at hsess
    cases hsess
  unfold execAuth
  cases hbackend : env.backend with
  | memory =>
    dsimp only [Memory.execAuth]
    rw [sessionAccount]
    cases hsess : s.sessions.lookup (env.hashSecret device.token) with
    | none => exact accountAnswer_of_unknown (hnone hsess)
    | some sess =>
      dsimp only
      split_ifs with hmis
      · refine .mismatch (fun _ => not_signedIn_of_mismatch hsess hmis) fun hunknown => ?_
        have hpostgres := (hunknown sess hsess).1
        rw [hbackend] at hpostgres
        cases hpostgres
      · exact accountAnswer_of_match _ hsess hmis
  | postgres =>
    dsimp only [Postgres.execAuth]
    rw [withFault, hfault]
    dsimp only [Postgres.answerAuth]
    rw [Postgres.sessionAccount]
    cases hsess : s.sessions.lookup (env.hashSecret device.token) with
    | none => exact accountAnswer_of_unknown (hnone hsess)
    | some sess =>
      dsimp only
      cases hcred : s.credentials.lookup sess.credentialID with
      | none =>
        refine accountAnswer_of_unknown fun sess' hsess' => ?_
        rw [hsess] at hsess'
        cases hsess'
        exact ⟨hbackend, hcred⟩
      | some cred =>
        dsimp only
        split
        · rename_i hmis
          refine .mismatch (fun _ => not_signedIn_of_mismatch hsess hmis) fun hunknown => ?_
          have hlost := (hunknown sess hsess).2
          rw [hcred] at hlost
          cases hlost
        · rename_i hmatch
          have hmatched := accountAnswer_of_match (decide (x.now > sess.expiresAt)) hsess hmatch
          rw [hcred] at hmatched
          exact hmatched

/-- The run goes on with the revocation, and so may any other. -/
def GoesOn (env : Env) (p : Handler Unit) (w : World) (tr : Trace) (w' : World)
    (iid uid : String) : Prop :=
  ∃ before tr1, answers tr = answers tr1 ∧
    Leads (execStored env) p w before (revokeAccountSessions env iid uid) w ∧
    Runs (execStored env) (revokeAccountSessions env iid uid) w tr1 () w'

theorem GoesOn.leads {p q : Handler Unit} {before tr' : Trace}
    (h : GoesOn env q w tr w' iid uid) (hleads : Leads (execStored env) p w before q w)
    (hanswers : answers tr' = answers tr) : GoesOn env p w tr' w' iid uid := by
  obtain ⟨before', tr1, hanswers', hleads', hrun⟩ := h
  exact ⟨before ++ before', tr1, hanswers.trans hanswers', hleads.trans hleads', hrun⟩

theorem revokeNamedAccount_cases
    (h : Runs (execStored env) (revokeNamedAccount env iid uid) w tr () w') :
    (uid = "" ∧ SameStores w w') ∨ uid ≠ "" ∧
      GoesOn env (revokeNamedAccount env iid uid) w tr w' iid uid := by
  by_cases hblank : uid = ""
  · rw [revokeNamedAccount, if_pos hblank] at h
    exact .inl ⟨hblank, (runs_respond h).2⟩
  · rw [revokeNamedAccount, if_neg hblank] at h ⊢
    exact .inr ⟨hblank, [], tr, rfl, fun _ _ _ hrun => hrun, h⟩

theorem revokeStaleAccount_cases
    (h : Runs (execStored env) (revokeStaleAccount env iid secret) w tr () w') :
    ((∀ uid, ¬RegisteredFor env iid secret w.registrations uid) ∧
        SameStores w w') ∨
      ∃ uid, RegisteredFor env iid secret w.registrations uid ∧
        GoesOn env (revokeStaleAccount env iid secret) w tr w' iid uid := by
  obtain ⟨x, ans, w1, tr1, hcall, rfl, hrest, hleads⟩ := runs_perform_leads h
  obtain ⟨hfault, rfl, rfl⟩ := execStored_registration hcall
  rw [execRegistration_authenticate_eq hfault] at hrest hleads
  dsimp only at hrest hleads
  cases hget : w.registrations.lookup iid with
  | none =>
    rw [hget] at hrest
    refine .inl ⟨fun uid => ?_, (runs_respond hrest).2⟩
    rintro ⟨reg, hreg, -⟩
    rw [hget] at hreg
    cases hreg
  | some reg =>
    rw [hget] at hrest hleads
    dsimp only at hrest hleads
    by_cases hmatches : secretMatches env reg secret
    · rw [hmatches] at hrest hleads
      rcases revokeNamedAccount_cases hrest with ⟨hblank, hsame⟩ | ⟨hnamed, hgoesOn⟩
      · refine .inl ⟨fun uid => ?_, hsame⟩
        rintro ⟨reg', hreg, -, rfl, hnamed⟩
        rw [hget] at hreg
        cases hreg
        exact hnamed hblank
      · exact .inr ⟨_, ⟨reg, hget, hmatches, rfl, hnamed⟩, hgoesOn.leads hleads rfl⟩
    · rw [Bool.not_eq_true] at hmatches
      rw [hmatches] at hrest
      refine .inl ⟨fun uid => ?_, (runs_respond hrest).2⟩
      rintro ⟨reg', hreg, hmatches', -⟩
      rw [hget] at hreg
      cases hreg
      rw [hmatches] at hmatches'
      cases hmatches'

/-- **The ways of a request**: it is made for nobody, or the account of its user is revoked. -/
theorem revokeAllMobileSessions_cases
    (h : Runs (execStored env) (revokeAllMobileSessions env device) w tr () w') :
    ((∀ uid, ¬Caller env device w uid) ∧ SameStores w w') ∨
      ∃ uid, Caller env device w uid ∧ GoesOn env (revokeAllMobileSessions env device) w tr w'
        (trimSpace device.installationID) uid := by
  rw [revokeAllMobileSessions, withAuthBroker] at h ⊢
  dsimp only at h ⊢
  by_cases hon : env.cfg.authEnabled
  swap
  · rw [if_neg hon] at h
    exact .inl ⟨fun uid hcaller => hon hcaller.1, (runs_respond h).2⟩
  rw [if_pos hon] at h ⊢
  by_cases hmiss : device.token = "" ∨ trimSpace device.installationID = "" ∨
      trimSpace device.deviceSecret = ""
  · rw [if_pos hmiss] at h
    refine .inl ⟨fun uid hcaller => ?_, (runs_respond h).2⟩
    rcases hmiss with hmiss | hmiss | hmiss
    · exact hcaller.2.1.token hmiss
    · exact hcaller.2.1.installationID hmiss
    · exact hcaller.2.1.deviceSecret hmiss
  rw [if_neg hmiss] at h ⊢
  rw [not_or, not_or] at hmiss
  have hcomp : device.Complete := ⟨hmiss.1, hmiss.2.1, hmiss.2.2⟩
  obtain ⟨x, ans, w1, tr1, hcall, rfl, hrest, hleads⟩ := runs_perform_leads h
  obtain ⟨hfault, hans, rfl⟩ := execStored_auth hcall
  rw [execAuth_sessionAccount_state] at hrest hleads
  have haccount : AccountAnswer env device w.auth ans :=
    hans ▸ execAuth_sessionAccount_answer hfault w.auth
  clear hans
  cases haccount with
  | found expired hsigned =>
    rename_i uid
    rcases revokeNamedAccount_cases hrest with ⟨rfl, -⟩ | ⟨-, hgoesOn⟩
    · obtain ⟨-, cred, -, -, -, -, hnamed, hblank⟩ := hsigned
      rw [hblank] at hnamed
      exact absurd rfl hnamed
    · exact .inr ⟨uid, ⟨hon, hcomp, .inl hsigned⟩, hgoesOn.leads hleads rfl⟩
  | mismatch hsigned hknown =>
    refine .inl ⟨?_, (runs_respond hrest).2⟩
    rintro uid ⟨-, -, hcaller | ⟨hcaller, -⟩⟩
    · exact hsigned uid hcaller
    · exact hknown hcaller
  | notFound hsigned hunknown =>
    obtain ⟨x', bound, w2, tr2, hbinding, rfl, hend, hleads'⟩ := runs_perform_leads hrest
    obtain ⟨hfault', rfl, rfl⟩ := execStored_auth hbinding
    rw [execAuth_installationBinding_eq hfault', installationBinding] at hend hleads'
    dsimp only at hend hleads'
    have hbound : boundDevices (trimSpace device.installationID) w.auth ≠ [] →
        ∀ uid, ¬Caller env device w uid := by
      rintro hbound uid ⟨-, -, hcaller | ⟨-, hunbound, -⟩⟩
      · exact hsigned uid hcaller
      · exact hbound hunbound
    split_ifs at hend hleads' with hown hother
    · refine .inl ⟨hbound fun hunbound => ?_, (runs_respond hend).2⟩
      rw [hunbound] at hown
      cases hown
    · exact .inl ⟨hbound hother, (runs_respond hend).2⟩
    · rw [ne_eq, not_not] at hother
      rcases revokeStaleAccount_cases hend with ⟨hnobody, hsame⟩ | ⟨uid, huser, hgoesOn⟩
      · refine .inl ⟨?_, hsame⟩
        rintro uid ⟨-, -, hcaller | ⟨-, -, hcaller⟩⟩
        · exact hsigned uid hcaller
        · exact hnobody uid hcaller
      · exact .inr ⟨uid, ⟨hon, hcomp, .inr ⟨hunknown hother, hother, huser⟩⟩,
          (hgoesOn.leads hleads' rfl).leads hleads rfl⟩

/-! ## Confinement -/

/-- Registered for another user, under another secret. -/
def Foreign (env : Env) (device : DeviceCredentials) (w : World) (uid iid : String) :
    Prop :=
  ∃ reg, w.registrations.lookup iid = some reg ∧
    reg.userID ≠ uid ∧
    secretMatches env reg (trimSpace device.deviceSecret) = false

/-- **The request is confined to its user.** Without a 204, or for nobody, it changes nothing; it
removes no session and no credential in use of another user, and nothing of a foreign
installation. -/
structure Confined (env : Env) (device : DeviceCredentials) (w : World) (tr : Trace)
    (w' : World) : Prop where
  refused : 204 ∉ answers tr → SameStores w w'
  nobody : (∀ uid, ¬Caller env device w uid) → SameStores w w'
  sessions : ∀ {uid key sess}, Caller env device w uid →
    w.auth.sessions.lookup key = some sess → ¬OfUser w.auth uid sess.credentialID →
      w'.auth.sessions.lookup key = some sess
  credentials : ∀ {uid id cred}, Caller env device w uid →
    w.auth.credentials.lookup id = some cred → cred.userID ≠ uid →
      credentialInUse id w.auth → w'.auth.credentials.lookup id = some cred
  registrations : ∀ {uid id reg}, Caller env device w uid →
    w.registrations.lookup id = some reg → Foreign env device w uid id →
      w'.registrations.lookup id = some reg
  deliveries : ∀ {uid key r}, Caller env device w uid →
    w.deliveries.records.lookup key = some r →
      Foreign env device w uid r.installationID → w'.deliveries.records.lookup key = some r

/-- No foreign installation is named among those gathered, and another user's credential keeps a
handoff that is not swept. -/
structure Confines (env : Env) (device : DeviceCredentials) (w : World) : Prop where
  registrations : ∀ {uid id}, Caller env device w uid → Foreign env device w uid id →
    ¬TrimmedTarget w (trimSpace device.installationID) uid id
  deliveries : ∀ {uid key r}, Caller env device w uid →
    w.deliveries.records.lookup key = some r →
      Foreign env device w uid r.installationID →
        ¬Targeted w (trimSpace device.installationID) uid r.installationID
  credentials : ∀ {uid id cred}, Caller env device w uid →
    w.auth.credentials.lookup id = some cred → cred.userID ≠ uid →
      (∃ key handoff, w.auth.handoffs.lookup key = some handoff ∧ handoff.credentialID = id) →
        (∃ key sess, w.auth.sessions.lookup key = some sess ∧ sess.credentialID = id) ∨
          ∃ key handoff, w.auth.handoffs.lookup key = some handoff ∧ handoff.credentialID = id ∧
            ¬Swept env w (trimSpace device.installationID) uid handoff

theorem Revoked.credential_iff {cred : AuthCredential} (h : Revoked uid swept s s')
    (hget : s.credentials.lookup id = some cred) (hother : cred.userID ≠ uid) :
    s'.credentials.lookup id = some cred ↔
      (∃ key sess, s.sessions.lookup key = some sess ∧ sess.credentialID = id) ∨
        ∃ key handoff, s.handoffs.lookup key = some handoff ∧ handoff.credentialID = id ∧
          ¬swept key handoff := by
  have hnot : ¬OfUser s uid id := by
    rintro ⟨cred', hget', huser⟩
    rw [hget] at hget'
    cases hget'
    exact hother huser
  rw [h.credentials, credentialInUse_iff]
  simp only [h.sessions, h.handoffs]
  constructor
  · rintro ⟨-, -, ⟨key, sess, ⟨hkey, -⟩, hid⟩ | ⟨key, handoff, ⟨hkey, -, hkept⟩, hid⟩⟩
    · exact .inl ⟨key, sess, hkey, hid⟩
    · exact .inr ⟨key, handoff, hkey, hid, hkept⟩
  · rintro (⟨key, sess, hkey, rfl⟩ | ⟨key, handoff, hkey, rfl, hkept⟩)
    · exact ⟨hget, hother, .inl ⟨key, sess, ⟨hkey, hnot⟩, rfl⟩⟩
    · exact ⟨hget, hother, .inr ⟨key, handoff, ⟨hkey, hnot, hkept⟩, rfl⟩⟩

theorem Foreign.userID_ne {reg : Registration} (h : Foreign env device w uid id)
    (hget : w.registrations.lookup id = some reg) : reg.userID ≠ uid := by
  obtain ⟨reg', hget', hother, -⟩ := h
  rw [hget] at hget'
  cases hget'
  exact hother

/-- **When requests to revoke everything are confined to their user**, in every order of the
rows. -/
theorem revoke_all_confined_iff (htidy : Tidy w)
    (h : Runs (execStored env) (revokeAllMobileSessions env device) w tr () w') :
    (∀ tr w', Runs (execStored env) (revokeAllMobileSessions env device) w tr () w' →
      Confined env device w tr w') ↔ Confines env device w := by
  constructor
  · intro hall
    rcases revokeAllMobileSessions_cases h with ⟨hnobody, -⟩ |
      ⟨uid, hcaller, before, tr1, -, hleads, hrevoke⟩
    · exact ⟨fun h => absurd h (hnobody _), fun h => absurd h (hnobody _),
        fun h => absurd h (hnobody _)⟩
    -- the run that sweeps as much as a run can
    obtain ⟨-, -, tr2, w2, hrun, hrevoked⟩ :=
      revokeAccountSessions_runs htidy (hcaller.named htidy) hrevoke
    have hconfined := hall _ w2 (hleads tr2 () w2 hrun)
    refine ⟨?_, ?_, ?_⟩
    · intro uid' id hcaller' hforeign
      obtain rfl := hcaller.unique hcaller'
      have ⟨reg, hget, _⟩ := hforeign
      exact (hrevoked.registrations.mp (hconfined.registrations hcaller hget hforeign)).2.2
    · intro uid' key r hcaller' hrec hforeign
      obtain rfl := hcaller.unique hcaller'
      exact (hrevoked.deliveries.mp (hconfined.deliveries hcaller hrec hforeign)).2.1
    · intro uid' id cred hcaller' hget hother hho
      obtain rfl := hcaller.unique hcaller'
      refine (hrevoked.logins.credential_iff hget hother).mp ?_
      exact hconfined.credentials hcaller hget hother (credentialInUse_iff.mpr (.inr hho))
  · intro hconfines tr w' h
    rcases revokeAllMobileSessions_cases h with ⟨hnobody, hsame⟩ |
      ⟨uid, hcaller, before, tr1, hanswers, -, hrevoke⟩
    · exact ⟨fun _ => hsame, fun _ => hsame, fun h => absurd h (hnobody _),
        fun h => absurd h (hnobody _), fun h => absurd h (hnobody _),
        fun h => absurd h (hnobody _)⟩
    obtain ⟨hserved, ⟨swept, hswept, hrevoked⟩, -⟩ :=
      revokeAccountSessions_runs htidy (hcaller.named htidy) hrevoke
    refine ⟨fun hrefused => ?_, fun hnobody => absurd hcaller (hnobody uid), ?_, ?_, ?_, ?_⟩
    · rw [hanswers, hserved] at hrefused
      exact absurd (mem_singleton.mpr rfl) hrefused
    · intro uid' key sess hcaller' hsession hother
      obtain rfl := hcaller.unique hcaller'
      exact hrevoked.logins.sessions.mpr ⟨hsession, hother⟩
    · intro uid' id cred hcaller' hget hother huse
      obtain rfl := hcaller.unique hcaller'
      refine (hrevoked.logins.credential_iff hget hother).mpr ?_
      rcases credentialInUse_iff.mp huse with hsession | hho
      · exact .inl hsession
      · rcases hconfines.credentials hcaller hget hother hho with hsession |
          ⟨key, handoff, hkey, hid, hkept⟩
        · exact .inl hsession
        · exact .inr ⟨key, handoff, hkey, hid, mt (hswept key handoff) hkept⟩
    · intro uid' id reg hcaller' hget hforeign
      obtain rfl := hcaller.unique hcaller'
      exact hrevoked.registrations.mpr ⟨hget, hforeign.userID_ne hget,
        hconfines.registrations hcaller hforeign⟩
    · intro uid' key r hcaller' hrec hforeign
      obtain rfl := hcaller.unique hcaller'
      refine hrevoked.deliveries.mpr ⟨hrec, hconfines.deliveries hcaller hrec hforeign, ?_⟩
      rintro ⟨reg, hget, huser | htarget⟩
      · exact hforeign.userID_ne hget huser
      · exact hconfines.registrations hcaller hforeign htarget

end Request

/-! ## Requests that are written out -/

/-- The secret of another device. -/
def otherSecret : String := "fedcba9876543210fedcba9876543210"

/-- Two users with a device each, and a delivery for the other one. -/
def twoUsers : World :=
  { registrations := AList.insert "tablet"
      { phone with
        installationID := "tablet", userID := "8", deviceSecretHash := "#" ++ otherSecret }
      (AList.insert "phone" phone ∅)
    deliveries :=
      { records := AList.insert "d"
          { id := "d", eventID := "e", installationID := "tablet", notification := {} } ∅ }
    auth :=
      { credentials := AList.insert "fc1_b" { viewerCredential with id := "fc1_b", userID := "8" }
          (AList.insert "fc1_a" viewerCredential ∅)
        sessions := AList.insert "#b"
          { credentialID := "fc1_b", installationID := "tablet", deviceHash := "#" ++ otherSecret
            createdAt := 0, expiresAt := hour }
          (AList.insert "#fsv1_a"
            { credentialID := "fc1_a", installationID := "phone", deviceHash := "#" ++ phoneSecret
              createdAt := 0, expiresAt := hour } ∅) } }

theorem twoUsers_tidy : Tidy twoUsers := by
  refine ⟨fun {id cred} h => ?_, fun {id reg} h => ?_⟩
  · simp only [twoUsers, lookup_insert_eq] at h
    split_ifs at h with hb ha <;> cases h
    · exact ⟨hb.symm, by decide⟩
    · exact ⟨ha.symm, by decide⟩
  · simp only [twoUsers, lookup_insert_eq] at h
    split_ifs at h with ht hp <;> cases h
    · exact ht.symm
    · exact hp.symm

theorem twoUsers_caller : Caller .pg phoneCaller twoUsers "7" :=
  ⟨rfl, phoneCaller_complete, .inl ⟨_, _, rfl, rfl, rfl, by decide, by decide, rfl⟩⟩

theorem twoUsers_targeted (h : Targeted twoUsers "phone" "7" id) : id = "phone" := by
  rcases h with rfl | ⟨key, sess, hsess, ⟨cred, hcred, huser⟩, rfl⟩ |
    ⟨reg, hget, huser⟩
  · rfl
  · simp only [twoUsers, lookup_insert_eq] at hsess
    split_ifs at hsess <;> cases hsess
    · cases hcred
      exact absurd huser (by decide)
    · rfl
  · simp only [twoUsers, lookup_insert_eq] at hget
    split_ifs at hget with ht hp <;> cases hget
    · exact absurd huser (by decide)
    · exact hp

theorem twoUsers_foreign (h : Foreign .pg phoneCaller twoUsers "7" id) : id = "tablet" := by
  obtain ⟨reg, hget, hother, -⟩ := h
  simp only [twoUsers, lookup_insert_eq] at hget
  split_ifs at hget with ht hp <;> cases hget
  · exact ht
  · exact absurd rfl hother

theorem twoUsers_confines : Confines .pg phoneCaller twoUsers := by
  refine ⟨?_, ?_, ?_⟩
  · intro uid id hcaller hforeign
    obtain rfl := twoUsers_caller.unique hcaller
    rintro ⟨-, target, htarget, rfl⟩
    rw [twoUsers_targeted htarget] at hforeign
    exact absurd (twoUsers_foreign hforeign) (by decide)
  · intro uid key r hcaller _ hforeign htarget
    obtain rfl := twoUsers_caller.unique hcaller
    rw [twoUsers_foreign hforeign] at htarget
    exact absurd (twoUsers_targeted htarget) (by decide)
  · rintro uid id cred hcaller hget hother ⟨key, handoff, hho, -⟩
    cases hho

/-- The other user keeps everything. -/
theorem twoUsers_confined :
    ∃ tr w', Runs (execStored .pg) (revokeAllMobileSessions .pg
        phoneCaller) twoUsers tr () w' ∧ answers tr = [204] ∧
      Confined .pg phoneCaller twoUsers tr w' := by
  have heval : ((Prog.eval (execStored .pg) (revokeAllMobileSessions
      .pg phoneCaller) (List.replicate 12 {}) twoUsers).map fun r => answers r.1) =
      some [204] := rfl
  obtain ⟨⟨tr, _, w'⟩, hrevoke, hserved⟩ := Option.map_eq_some_iff.mp heval
  have hrun := eval_runs hrevoke
  exact ⟨tr, w', hrun, hserved,
    (revoke_all_confined_iff twoUsers_tidy hrun).mpr twoUsers_confines tr w' hrun⟩

/-- The environment of another user's login. -/
def otherLoginChoice : Choice :=
  { loginChoice with
    token := some "b"
    validation := { clientID := "client", userID := "8", login := "other", expiresIn := 36000 } }

/-- A client signs in as `phone` with a secret of its own. -/
def signInPhone (env : Env) (deviceSecret token : String) : Handler Unit := do
  startMobileAuth env ⟨"phone", deviceSecret, "app:"⟩
  twitchOAuthCallback env ("fs1_" ++ token) "" "code"
  completeMobileAuth env ⟨"fh1_" ++ token, "fs1_" ++ token, "phone", deviceSecret⟩

/-- Another user signs in under that name, registers, and signs out. -/
def leaveRegistration (env : Env) : Handler Unit := do
  signInPhone env otherSecret "b"
  upsertRegistration env "phone"
    { phone with userID := "8", deviceSecret := otherSecret, deviceSecretHash := "" }
  deleteMobileSession env ⟨"fsv1_b", "phone", otherSecret⟩

/-- Two users have used one name. One of them deletes the registration of the other. -/
theorem shared_name_loses_registration :
    ∃ tr1 w1 tr2 w tr w',
      Runs (execStored .pg) (leaveRegistration .pg) {} tr1 ()
        w1 ∧
      Runs (execStored .pg) (signInPhone .pg phoneSecret "a") w1
        tr2 () w ∧
      Caller .pg phoneCaller w "7" ∧
      Foreign .pg phoneCaller w "7" "phone" ∧
      Runs (execStored .pg) (revokeAllMobileSessions .pg
        phoneCaller) w tr () w' ∧ answers tr = [204] ∧ w'.registrations.lookup "phone" = none := by
  have heval : ((Prog.eval (execStored .pg) (leaveRegistration .pg)
      (List.replicate 38 otherLoginChoice) {}).bind fun r1 =>
        (Prog.eval (execStored .pg) (signInPhone .pg phoneSecret "a")
          (List.replicate 22 loginChoice) r1.2.2).bind fun r2 =>
        (Prog.eval (execStored .pg) (revokeAllMobileSessions .pg
          phoneCaller) (List.replicate 12 {}) r2.2.2).map fun r =>
        (r2.2.2.auth.sessions.lookup "#fsv1_a",
          (r2.2.2.auth.credentials.lookup "fc1_a").map (·.userID),
          (r2.2.2.registrations.lookup "phone").map fun reg => (reg.userID,
            secretMatches .pg reg phoneSecret),
          answers r.1, r.2.2.registrations.lookup "phone")) =
      some (some { credentialID := "fc1_a", installationID := "phone"
                   deviceHash := "#" ++ phoneSecret, createdAt := 1, expiresAt := 1 + 720 * hour },
        some "7", some ("8", false), [204], none) := rfl
  obtain ⟨⟨tr1, _, w1⟩, hleave, heval⟩ := Option.bind_eq_some_iff.mp heval
  obtain ⟨⟨tr2, _, w⟩, hsignIn, heval⟩ := Option.bind_eq_some_iff.mp heval
  obtain ⟨⟨tr, _, w'⟩, hrevoke, heval⟩ := Option.map_eq_some_iff.mp heval
  simp only [Prod.mk.injEq] at heval
  obtain ⟨hsession, huser, hforeign, hserved, hlost⟩ := heval
  obtain ⟨cred, hcredential, huser⟩ := Option.map_eq_some_iff.mp huser
  obtain ⟨reg, hregistration, hforeign⟩ := Option.map_eq_some_iff.mp hforeign
  obtain ⟨hother, hsecret⟩ := Prod.mk.inj hforeign
  refine ⟨tr1, w1, tr2, w, tr, w', eval_runs hleave, eval_runs hsignIn,
    ⟨rfl, phoneCaller_complete, .inl ⟨_, cred, hsession, hcredential, rfl, by decide, ?_, huser⟩⟩,
    ⟨reg, hregistration, ?_, hsecret⟩, eval_runs hrevoke, hserved, hlost⟩
  · rw [huser]
    decide
  · rw [hother]
    decide

end Ferventio
