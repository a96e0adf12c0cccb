import Ferventio.Delivery.Laws

/-!
# What a login call does

Every call of the login stores writes at most one credential, pending login, handoff and session,
and apart from that only deletes, but never a credential that a session or a handoff still refers to
(`Prunes`).
`AuthWrite` lists the writes, and **`execAuth_write`** says that there are no others.
-/

namespace Ferventio

open Table Postgres

variable {r handoff : AuthHandoffRecord}
  {entries : List (Row String AuthHandoffRecord)}
  {installations credentialIDs iids : List String} {id iid hash uid key : String} {κ α : Type}
  {H : String → String} {t u s : AuthDiskState} {result : AccountRevocationResult}

/-- Every row of `t` is one of `s`. -/
structure Shrinks (s t : AuthDiskState) : Prop where
  credentials : ∀ {k c}, t.credentials.lookup k = some c → s.credentials.lookup k = some c
  pending : ∀ {k p}, t.pending.lookup k = some p → s.pending.lookup k = some p
  handoffs : ∀ {k h}, t.handoffs.lookup k = some h → s.handoffs.lookup k = some h
  sessions : ∀ {k r}, t.sessions.lookup k = some r → s.sessions.lookup k = some r

namespace Shrinks

theorem refl (s : AuthDiskState) : Shrinks s s := ⟨id, id, id, id⟩

theorem trans (h : Shrinks s t) (h' : Shrinks t u) : Shrinks s u :=
  ⟨fun hc => h.credentials (h'.credentials hc), fun hp => h.pending (h'.pending hp),
    fun hh => h.handoffs (h'.handoffs hh), fun hs => h.sessions (h'.sessions hs)⟩

end Shrinks

theorem of_lookup_select [DecidableEq κ] {p : κ → α → Bool} {t : Table κ α} {k : κ}
    {v : α} (h : (t.select p).lookup k = some v) : t.lookup k = some v := by
  rw [lookup_select, Option.filter_eq_some_iff] at h
  exact h.1

theorem of_lookup_erase [DecidableEq κ] {t : Table κ α} {k k' : κ} {v : α}
    (h : (t.erase k').lookup k = some v) : t.lookup k = some v := by
  rw [lookup_erase_eq] at h
  split_ifs at h
  exact h

/-! ## Deleting -/

theorem credentialInUse_iff :
    credentialInUse id s ↔
      (∃ key sess, s.sessions.lookup key = some sess ∧ sess.credentialID = id) ∨
        ∃ key handoff, s.handoffs.lookup key = some handoff ∧ handoff.credentialID = id := by
  simp only [credentialInUse, Bool.or_eq_true, List.any_eq_true, beq_iff_eq, mem_rows_iff]
  constructor
  · rintro (⟨sess, ⟨key, hkey⟩, hid⟩ | ⟨handoff, ⟨key, hkey⟩, hid⟩)
    · exact .inl ⟨key, sess, hkey, hid⟩
    · exact .inr ⟨key, handoff, hkey, hid⟩
  · rintro (⟨key, sess, hkey, hid⟩ | ⟨key, handoff, hkey, hid⟩)
    · exact .inl ⟨sess, ⟨key, hkey⟩, hid⟩
    · exact .inr ⟨handoff, ⟨key, hkey⟩, hid⟩

theorem credentialInUse_of_session {r : AuthSessionRecord}
    (h : s.sessions.lookup key = some r) : credentialInUse r.credentialID s :=
  credentialInUse_iff.mpr (.inl ⟨key, r, h, rfl⟩)

theorem credentialInUse_of_handoff
    (h : s.handoffs.lookup key = some r) : credentialInUse r.credentialID s :=
  credentialInUse_iff.mpr (.inr ⟨key, r, h, rfl⟩)

/-- **Deleting without harm**: no credential is lost that `t` refers to. -/
structure Prunes (s t : AuthDiskState) : Prop extends Shrinks s t where
  used : ∀ {id}, credentialInUse id t → t.credentials.lookup id = s.credentials.lookup id

namespace Prunes

theorem refl (s : AuthDiskState) : Prunes s s := ⟨.refl s, fun _ => rfl⟩

theorem trans (h : Prunes s t) (h' : Prunes t u) : Prunes s u := by
  refine ⟨h.toShrinks.trans h'.toShrinks, fun {id} hused => ?_⟩
  have hused' : credentialInUse id t := by
    rcases credentialInUse_iff.mp hused with ⟨key, sess, hkey, rfl⟩ | ⟨key, handoff, hkey, rfl⟩
    · exact credentialInUse_of_session (h'.sessions hkey)
    · exact credentialInUse_of_handoff (h'.handoffs hkey)
  rw [h'.used hused, h.used hused']

theorem rows (hc : t.credentials = s.credentials)
    (hp : ∀ {k p}, t.pending.lookup k = some p → s.pending.lookup k = some p)
    (hh : ∀ {k h}, t.handoffs.lookup k = some h → s.handoffs.lookup k = some h)
    (hs : ∀ {k r}, t.sessions.lookup k = some r → s.sessions.lookup k = some r) : Prunes s t := by
  refine ⟨⟨?_, hp, hh, hs⟩, ?_⟩
  · rw [hc]
    exact id
  · rw [hc]
    exact fun _ => rfl

end Prunes

theorem lookup_deleteOrphans (h : credentialInUse id s) :
    (deleteOrphans s).credentials.lookup id = s.credentials.lookup id := by
  rw [deleteOrphans, lookup_select]
  cases s.credentials.lookup id with
  | none => rfl
  | some => rw [Option.filter_some, h, if_pos rfl]

theorem deleteOrphans_prunes (s : AuthDiskState) : Prunes s (deleteOrphans s) :=
  ⟨⟨of_lookup_select, id, id, id⟩, fun hused => lookup_deleteOrphans hused⟩

theorem Prunes.orphans (h : Prunes s t) : Prunes s (deleteOrphans t) :=
  h.trans (deleteOrphans_prunes t)

theorem dropIfUnused_prunes (credID : String) (s : AuthDiskState) :
    Prunes s (dropIfUnused credID s) := by
  unfold dropIfUnused
  split_ifs with hused
  · exact .refl s
  · refine ⟨⟨of_lookup_erase, id, id, id⟩, fun {id} hid => ?_⟩
    rw [lookup_erase_eq, if_neg]
    rintro rfl
    exact hused hid

theorem Prunes.drop (h : Prunes s t) (credID : String) : Prunes s (dropIfUnused credID t) :=
  h.trans (dropIfUnused_prunes credID t)

/-! ## Writing -/

/-- **The writes of a call**, before it deletes anything. -/
inductive AuthWrite (hashSecret : String → String) (s : AuthDiskState) :
    AuthCall → AuthDiskState → Prop
  | none {call : AuthCall} : AuthWrite hashSecret s call s
  | credential (cred : AuthCredential) :
      AuthWrite hashSecret s (.putCredential cred)
        { s with credentials := s.credentials.insert cred.id cred }
  | pending (state : String) (r : PendingAuthRecord) :
      AuthWrite hashSecret s (.putPending state r)
        { s with pending := s.pending.insert (hashSecret state) r }
  | handoff (code : String) (r : AuthHandoffRecord) :
      AuthWrite hashSecret s (.putHandoff code r)
        { s with handoffs := s.handoffs.insert (hashSecret code) r }
  | issue {cred : AuthCredential} (code : String) {r : AuthHandoffRecord}
      (h : r.credentialID = cred.id) :
      AuthWrite hashSecret s (.putCredentialAndHandoff cred code r)
        { s with
          credentials := s.credentials.insert cred.id cred
          handoffs := s.handoffs.insert (hashSecret code) r }
  | session {cid : String} (iid secret : String) (ttl : Duration)
      (token : String) (now : Time) (h : s.credentials.lookup cid ≠ none) :
      AuthWrite hashSecret s (.createSession cid iid secret ttl)
        { s with
          sessions := s.sessions.insert (hashSecret token)
            { credentialID := cid, installationID := iid, deviceHash := hashSecret secret,
              createdAt := now, expiresAt := now + ttl } }
  | renew {token iid secret : String} {ttl : Duration}
      {r : AuthSessionRecord} (expiresAt : Time)
      (h : s.sessions.lookup (hashSecret token) = some r) :
      AuthWrite hashSecret s (.resolveSession token iid secret ttl)
        { s with
          sessions := s.sessions.insert (hashSecret token) { r with expiresAt := expiresAt } }

/-! ## The in-memory store -/

namespace Memory

theorem cleanupExpiredLocked_prunes (now : Time) (s : AuthDiskState) :
    Prunes s (cleanupExpiredLocked now s) :=
  Prunes.orphans (.rows rfl of_lookup_select of_lookup_select of_lookup_select)

theorem prunes_cleanup (h : Prunes s t) (now : Time) : Prunes s (cleanupExpiredLocked now t) :=
  h.trans (cleanupExpiredLocked_prunes now t)

theorem of_lookup_revokeRows {installation device : α → String} {v : α}
    {entries : List (Row String α)} {t : Table String α}
    (h : (revokeRows installation device iid hash entries t).2.lookup key =
      some v) : t.lookup key = some v := by
  induction entries generalizing t with
  | nil => exact h
  | cons entry entries ih =>
    rw [revokeRows] at h
    split_ifs at h
    · exact ih h
    · exact h
    · exact of_lookup_erase (ih h)

theorem revokeRows_fst {installation device : α → String}
    {entries : List (Row String α)} {t : Table String α} :
    (revokeRows installation device iid hash entries t).1 ↔
      ∀ e ∈ entries, installation e.2 = iid → secureHashEqual (device e.2) hash := by
  induction entries generalizing t with
  | nil => simp [revokeRows]
  | cons e entries ih =>
    rw [List.forall_mem_cons, revokeRows]
    by_cases hother : installation e.2 = iid
    · cases secureHashEqual (device e.2) hash with
      | true => simp [hother, ih]
      | false => simp [hother]
    · simp [hother, ih]

theorem of_lookup_revokeHandoffs {t : Table String AuthHandoffRecord}
    (h : (revokeHandoffs credentialIDs entries installations t).2.lookup key = some handoff) :
    t.lookup key = some handoff := by
  induction entries generalizing installations t with
  | nil => exact h
  | cons entry entries ih =>
    rw [revokeHandoffs] at h
    split_ifs at h
    · exact of_lookup_erase (ih h)
    · exact ih h

theorem revokeHandoffs_lookup {t : Table String AuthHandoffRecord}
    (h : (revokeHandoffs credentialIDs entries installations t).2.lookup key = some handoff)
    (hmem : ⟨key, handoff⟩ ∈ entries) : handoff.credentialID ∉ credentialIDs := by
  induction entries generalizing installations t with
  | nil => cases hmem
  | cons entry entries ih =>
    rw [revokeHandoffs] at h
    rcases List.mem_cons.mp hmem with rfl | hmem
    · split_ifs at h with hcond
      · have herased := of_lookup_revokeHandoffs h
        rw [lookup_erase_eq, if_pos rfl] at herased
        cases herased
      · simp only [Bool.or_eq_true, List.contains_iff_mem, not_or] at hcond
        exact hcond.1
    · split_ifs at h
      · exact ih h hmem
      · exact ih h hmem

theorem Visits.mem_sessions (visits : Visits s) {row : AuthSessionRecord} :
    ⟨key, row⟩ ∈ visits.sessions ↔ s.sessions.lookup key = some row :=
  visits.sessions_perm.mem_iff.trans mem_entries_iff

theorem Visits.mem_handoffs (visits : Visits s) {row : AuthHandoffRecord} :
    ⟨key, row⟩ ∈ visits.handoffs ↔ s.handoffs.lookup key = some row :=
  visits.handoffs_perm.mem_iff.trans mem_entries_iff

theorem revokeInstallation_prunes (iid secret : String) (s : AuthDiskState) (visits : Visits s) :
    Prunes s (revokeInstallation H iid secret s visits).2 := by
  simp only [revokeInstallation]
  split_ifs
  · exact .rows rfl id id of_lookup_revokeRows
  · exact .rows rfl of_lookup_revokeRows id of_lookup_revokeRows
  · exact .rows rfl of_lookup_revokeRows of_lookup_revokeRows of_lookup_revokeRows
  · exact Prunes.orphans (.rows rfl of_lookup_revokeRows of_lookup_revokeRows of_lookup_revokeRows)

theorem revokeAccount_prunes (uid : String) (iids : List String) (s : AuthDiskState)
    (visits : Visits s) : Prunes s (revokeAccount uid iids s visits).2 := by
  simp only [revokeAccount]
  split_ifs
  · exact .refl s
  · refine Prunes.orphans ⟨⟨of_lookup_select, of_lookup_select, of_lookup_revokeHandoffs,
      of_lookup_select⟩, fun {id} hused => ?_⟩
    -- what still refers to a credential does not refer to one of the user's
    have hspare : id ∉ credentialIDsOf (Strings.trimSpace uid) s := by
      rcases credentialInUse_iff.mp hused with ⟨key, sess, hkey, rfl⟩ | ⟨key, handoff, hkey, rfl⟩
      · rw [lookup_select, Option.filter_eq_some_iff] at hkey
        simpa using hkey.2
      · have hs := of_lookup_revokeHandoffs hkey
        exact revokeHandoffs_lookup hkey (visits.mem_handoffs.mpr hs)
    dsimp only
    rw [lookup_select]
    cases s.credentials.lookup id with
    | none => rfl
    | some => rw [Option.filter_some, if_pos (by simpa using hspare)]

theorem putHandoff_prunes (now : Time) (code : String) (r : AuthHandoffRecord) (s : AuthDiskState) :
    Prunes { s with handoffs := s.handoffs.insert (H code) r } (putHandoff H now code r s).2 := by
  have hreplace : Prunes { s with handoffs := s.handoffs.insert (H code) r }
      { s with handoffs := replaceHandoff (H code) r s.handoffs } := by
    refine .rows rfl id (fun {k h} hh => ?_) id
    simp only [replaceHandoff, lookup_insert_eq] at hh ⊢
    split_ifs at hh ⊢
    · exact hh
    · exact of_lookup_select hh
  have hclean := prunes_cleanup hreplace now
  simp only [putHandoff]
  split_ifs
  · refine prunes_cleanup (hclean.trans ?_) now
    exact .rows rfl id of_lookup_erase id
  · exact hclean

theorem createSession_write (now : Time) (random : Option String)
    (credID iid secret : String) (ttl : Duration) (s : AuthDiskState) :
    ∃ t, AuthWrite H s (.createSession credID iid secret ttl) t ∧
      Prunes t (createSession H now random credID iid secret ttl s).2 := by
  simp only [createSession]
  split_ifs with hcred
  · exact ⟨s, .none, .refl s⟩
  · exact ⟨s, .none, .refl s⟩
  · exact ⟨s, .none, .rows rfl id id of_lookup_select⟩
  · split
    · exact ⟨s, .none, .rows rfl id id of_lookup_select⟩
    · rename_i token _
      refine ⟨_, .session iid secret ttl token now ?_, prunes_cleanup ?_ now⟩
      · simpa using hcred
      · refine .rows rfl id id fun {k r} hr => ?_
        rw [lookup_insert_eq] at hr ⊢
        split_ifs at hr ⊢
        · exact hr
        · exact of_lookup_select hr

theorem resolveSession_write (now : Time) (token iid secret : String)
    (ttl : Duration) (s : AuthDiskState) :
    ∃ t, AuthWrite H s (.resolveSession token iid secret ttl) t ∧
      Prunes t (resolveSession H now token iid secret ttl s).2 := by
  simp only [resolveSession]
  split
  · exact ⟨s, .none, .refl s⟩
  · rename_i r hrow
    have herase : Prunes s { s with sessions := s.sessions.erase (H token) } :=
      .rows rfl id id of_lookup_erase
    split_ifs
    · exact ⟨s, .none, herase.drop r.credentialID⟩
    · exact ⟨s, .none, .refl s⟩
    · exact ⟨_, .renew _ hrow, .refl _⟩
    · exact ⟨s, .none, .refl s⟩

theorem deleteSession_prunes (token iid secret : String) (s : AuthDiskState) :
    Prunes s (deleteSession H token iid secret s).2 := by
  simp only [deleteSession]
  split
  · exact .refl s
  · rename_i r hrow
    have herase : Prunes s { s with sessions := s.sessions.erase (H token) } :=
      .rows rfl id id of_lookup_erase
    split_ifs
    · exact .refl s
    · exact herase.drop r.credentialID

theorem consumeHandoff_prunes (now : Time) (code iid secret state : String) (s : AuthDiskState) :
    Prunes s (consumeHandoff H now code iid secret state s).2 := by
  simp only [consumeHandoff]
  split
  · exact .refl s
  · split_ifs
    · exact .rows rfl id of_lookup_erase id
    · exact .refl s
    · exact .refl s
    · exact .rows rfl id of_lookup_erase id

theorem execAuth_write (x : Choice) (call : AuthCall) (s : AuthDiskState) :
    ∃ t, AuthWrite H s call t ∧ Prunes t (execAuth H x call s).2 := by
  cases call with
  | putPending state r =>
    have hclean := cleanupExpiredLocked_prunes x.now s
    simp only [execAuth, putPending]
    split_ifs
    · exact ⟨s, .none, hclean.trans (.rows rfl of_lookup_select id id)⟩
    · refine ⟨_, .pending state r, ⟨⟨hclean.credentials, fun {k p} hp => ?_, hclean.handoffs,
        hclean.sessions⟩, hclean.used⟩⟩
      rw [lookup_insert_eq] at hp ⊢
      split_ifs at hp ⊢
      · exact hp
      · exact hclean.pending (of_lookup_select hp)
  | consumePending =>
    refine ⟨s, .none, ?_⟩
    simp only [execAuth, consumePending]
    split
    · exact .refl s
    · split_ifs <;> exact .rows rfl of_lookup_erase id id
  | putHandoff code r => exact ⟨_, .handoff code r, putHandoff_prunes x.now code r s⟩
  | consumeHandoff code iid secret state =>
    exact ⟨s, .none, consumeHandoff_prunes x.now code iid secret state s⟩
  | putCredential cred => exact ⟨_, .credential cred, .refl _⟩
  | putCredentialAndHandoff cred code r =>
    simp only [execAuth, putCredentialAndHandoff]
    split_ifs with hmatch
    · exact ⟨s, .none, .refl s⟩
    · push Not at hmatch
      exact ⟨_, .issue code hmatch.2, putHandoff_prunes x.now code r
        { s with credentials := s.credentials.insert cred.id cred }⟩
  | createSession credID iid secret ttl =>
    exact createSession_write x.now x.token credID iid secret ttl s
  | resolveSession token iid secret ttl =>
    exact resolveSession_write x.now token iid secret ttl s
  | deleteSession token iid secret =>
    exact ⟨s, .none, deleteSession_prunes token iid secret s⟩
  | revokeInstallation iid secret =>
    exact ⟨s, .none, revokeInstallation_prunes iid secret s (x.visits s)⟩
  | revokeAccount uid iids =>
    exact ⟨s, .none, revokeAccount_prunes uid iids s (x.visits s)⟩
  | deleteCredentialIfUnused credID =>
    exact ⟨s, .none, dropIfUnused_prunes credID s⟩
  | _ => exact ⟨s, .none, .refl s⟩

end Memory

/-! ## The PostgreSQL store -/

namespace Postgres

theorem putHandoffTx_prunes {now : Time} {code : String}
    {s' : AuthDiskState} (h : putHandoffTx H now code r s = .ok s') :
    Prunes { s with handoffs := s.handoffs.insert (H code) r } s' := by
  simp only [putHandoffTx] at h
  split_ifs at h
  cases h
  refine .rows rfl id (fun {k h} hh => ?_) id
  simp only [lookup_insert_eq] at hh ⊢
  split_ifs at hh ⊢
  · exact hh
  · exact of_lookup_select (of_lookup_select hh)

theorem createSession_write (now : Time) (random : Option String)
    (credID iid secret : String) (ttl : Duration) (s : AuthDiskState) :
    ∃ t, AuthWrite H s (.createSession credID iid secret ttl) t ∧
      Prunes t (createSession H now random credID iid secret ttl s).2 := by
  simp only [createSession]
  split_ifs with hcred
  · exact ⟨s, .none, .refl s⟩
  · exact ⟨s, .none, .refl s⟩
  · exact ⟨s, .none, .refl s⟩
  · split
    · exact ⟨s, .none, .refl s⟩
    · rename_i token _
      split_ifs
      · exact ⟨s, .none, .refl s⟩
      · refine ⟨_, .session iid secret ttl token now ?_, Prunes.orphans ?_⟩
        · simpa using hcred
        · refine .rows rfl id id fun {k r} hr => ?_
          rw [lookup_insert_eq] at hr ⊢
          split_ifs at hr ⊢
          · exact hr
          · exact of_lookup_select (of_lookup_select hr)

theorem deleteCredentials_prunes (doomed : String → AuthCredential → Bool) (s : AuthDiskState) :
    Prunes s (deleteCredentials doomed s) := by
  refine ⟨⟨of_lookup_select, id, of_lookup_select, of_lookup_select⟩, fun {id} hused => ?_⟩
  have hspare : (s.credentials.lookup id).any (doomed id) = false := by
    rcases credentialInUse_iff.mp hused with ⟨key, row, hkey, rfl⟩ | ⟨key, row, hkey, rfl⟩
    · simp only [deleteCredentials] at hkey
      rw [lookup_select, Option.filter_eq_some_iff] at hkey
      simpa using hkey.2
    · simp only [deleteCredentials] at hkey
      rw [lookup_select, Option.filter_eq_some_iff] at hkey
      simpa using hkey.2
  simp only [deleteCredentials]
  rw [lookup_select]
  cases hid : s.credentials.lookup id with
  | none => rfl
  | some =>
    rw [hid, Option.any_some] at hspare
    rw [Option.filter_some, hspare]
    rfl

theorem revokeInstallation_prunes (iid secret : String) (s : AuthDiskState) :
    Prunes s (revokeInstallation H iid secret s).2 := by
  simp only [revokeInstallation]
  split_ifs
  · exact .refl s
  · exact .refl s
  · exact Prunes.orphans (.rows rfl of_lookup_select of_lookup_select of_lookup_select)

theorem revokeAccount_prunes (uid : String) (iids : List String)
    (s : AuthDiskState) : Prunes s (revokeAccount uid iids s).2 := by
  simp only [revokeAccount]
  split_ifs
  · exact .refl s
  · refine Prunes.orphans (Prunes.trans ?_ (deleteCredentials_prunes _ _))
    exact .rows rfl of_lookup_select of_lookup_select of_lookup_select

theorem answerAuth_write (x : Choice) (call : AuthCall) (s : AuthDiskState) :
    ∃ t, AuthWrite H s call t ∧ Prunes t (answerAuth H x call s).2 := by
  -- the calls that both stores serve alike
  have hmemory := @Memory.execAuth_write H x call s
  cases call with
  | putPending state r =>
    simp only [answerAuth, putPending]
    split_ifs
    · exact ⟨s, .none, .refl s⟩
    · exact ⟨s, .none, .refl s⟩
    · refine ⟨_, .pending state r, .rows rfl (fun {k p} hp => ?_) id id⟩
      rw [lookup_insert_eq] at hp ⊢
      split_ifs at hp ⊢
      · exact hp
      · exact of_lookup_select (of_lookup_select hp)
  | putHandoff code r =>
    simp only [answerAuth, putHandoff]
    split
    · exact ⟨s, .none, .refl s⟩
    · rename_i s' hs'
      exact ⟨_, .handoff code r, putHandoffTx_prunes hs'⟩
  | putCredentialAndHandoff cred code r =>
    simp only [answerAuth, putCredentialAndHandoff]
    split_ifs with hmatch
    · exact ⟨s, .none, .refl s⟩
    · push Not at hmatch
      split
      · exact ⟨s, .none, .refl s⟩
      · rename_i s' hs'
        exact ⟨_, .issue code hmatch.2, putHandoffTx_prunes hs'⟩
  | createSession credID iid secret ttl =>
    exact createSession_write x.now x.token credID iid secret ttl s
  | revokeInstallation iid secret =>
    exact ⟨s, .none, revokeInstallation_prunes iid secret s⟩
  | revokeAccount uid iids =>
    exact ⟨s, .none, revokeAccount_prunes uid iids s⟩
  | _ => exact hmemory

end Postgres

/-! ## Either store -/

section Either

variable {env : Env} {x : Choice} {call : AuthCall}

theorem execAuth_state {P : AuthDiskState → Prop} (hsame : P s)
    (hmemory : env.backend = .memory → P (Memory.execAuth env.hashSecret x call s).2)
    (hpostgres : env.backend = .postgres → P (answerAuth env.hashSecret x call s).2) :
    P (execAuth env x call s).2 := by
  unfold execAuth
  split
  · rename_i hb
    exact hmemory hb
  · rename_i hb
    simp only [Postgres.execAuth]
    rcases withFault_snd x (failedAuth call) s (answerAuth env.hashSecret x call s) with hs | hs
    · rw [hs]
      exact hsame
    · rw [hs]
      exact hpostgres hb

theorem execAuth_answered (h : (execAuth env x call s).1 ≠ failedAuth call) :
    execAuth env x call s = Memory.execAuth env.hashSecret x call s ∨
      execAuth env x call s = answerAuth env.hashSecret x call s := by
  unfold execAuth at h ⊢
  split
  · exact .inl rfl
  · rename_i hb
    rw [hb] at h
    rcases withFault_fst x (failedAuth call) s (answerAuth env.hashSecret x call s) with hf | hf
    · exact absurd hf h
    · exact .inr hf

theorem execAuth_unfaulted (env : Env) (h : x.fault = none) (call : AuthCall) (s : AuthDiskState) :
    execAuth env x call s = Memory.execAuth env.hashSecret x call s ∨
      execAuth env x call s = answerAuth env.hashSecret x call s := by
  unfold execAuth
  cases env.backend with
  | memory => exact .inl rfl
  | postgres =>
    dsimp only [Postgres.execAuth]
    rw [withFault, h]
    exact .inr rfl

/-- **A call writes at most what `AuthWrite` lists; the rest is deletion.** -/
theorem execAuth_write (env : Env) (x : Choice) (call : AuthCall) (s : AuthDiskState) :
    ∃ t, AuthWrite env.hashSecret s call t ∧ Prunes t (execAuth env x call s).2 :=
  execAuth_state (P := fun s' => ∃ t, AuthWrite env.hashSecret s call t ∧ Prunes t s')
    ⟨s, .none, .refl s⟩ (fun _ => Memory.execAuth_write x call s)
    fun _ => answerAuth_write x call s

variable {id : String} {cred : AuthCredential}

theorem execAuth_credential (h : (execAuth env x call s).2.credentials.lookup id = some cred) :
    s.credentials.lookup id = some cred ∨
      id = cred.id ∧ (call = .putCredential cred ∨
        ∃ code r, call = .putCredentialAndHandoff cred code r) := by
  obtain ⟨t, hwrite, hprune⟩ := execAuth_write env x call s
  have ht := hprune.credentials h
  cases hwrite with
  | credential =>
    rw [lookup_insert_eq] at ht
    split_ifs at ht with hid
    · cases ht
      exact .inr ⟨hid, .inl rfl⟩
    · exact .inl ht
  | issue code =>
    rw [lookup_insert_eq] at ht
    split_ifs at ht with hid
    · cases ht
      exact .inr ⟨hid, .inr ⟨code, _, rfl⟩⟩
    · exact .inl ht
  | _ => exact .inl ht

theorem execAuth_getCredential (h : (execAuth env x (.getCredential id) s).1 = .ok cred) :
    s.credentials.lookup id = some cred := by
  have hget : Memory.getCredential id s = .ok cred := by
    rcases execAuth_answered (by rw [h]; rintro ⟨⟩) with heq | heq
    · rw [heq] at h
      exact h
    · rw [heq] at h
      exact h
  unfold Memory.getCredential at hget
  split at hget
  · cases hget
  · rename_i hrow
    cases hget
    exact hrow

theorem execAuth_getCredential_state : (execAuth env x (.getCredential id) s).2 = s :=
  execAuth_state (P := (· = s)) rfl (fun _ => rfl) fun _ => rfl

theorem Memory.revokeAccount_deletes
    {visits : Memory.Visits s} (h : (Memory.revokeAccount uid iids s visits).1 = .ok result)
    (hc : (Memory.revokeAccount uid iids s visits).2.credentials.lookup id =
      some cred) : cred.userID ≠ Strings.trimSpace uid := by
  simp only [Memory.revokeAccount] at h hc
  split_ifs at h hc
  have hsel := (deleteOrphans_prunes _).credentials hc
  rw [lookup_select, Option.filter_eq_some_iff] at hsel
  obtain ⟨hlookup, hkept⟩ := hsel
  intro huser
  have hmem : id ∈ Memory.credentialIDsOf (Strings.trimSpace uid) s := by
    refine List.mem_filterMap.mpr ⟨⟨id, cred⟩, mem_entries_iff.mpr hlookup, ?_⟩
    exact if_pos huser
  rw [List.contains_iff_mem.mpr hmem] at hkept
  cases hkept

theorem Postgres.revokeAccount_deletes (h : (revokeAccount uid iids s).1 = .ok result)
    (hc : (revokeAccount uid iids s).2.credentials.lookup id =
      some cred) : cred.userID ≠ Strings.trimSpace uid := by
  simp only [revokeAccount] at h hc
  split_ifs at h hc
  have hsel := (deleteOrphans_prunes _).credentials hc
  simp only [deleteCredentials] at hsel
  rw [lookup_select, Option.filter_eq_some_iff] at hsel
  simpa using hsel.2

theorem execAuth_revokeAccount (h : (execAuth env x (.revokeAccount uid iids) s).1 = .ok result)
    (hc : (execAuth env x (.revokeAccount uid iids) s).2.credentials.lookup id =
      some cred) : cred.userID ≠ Strings.trimSpace uid := by
  rcases execAuth_answered (by rw [h]; rintro ⟨⟩) with heq | heq
  · rw [heq] at h hc
    exact Memory.revokeAccount_deletes h hc
  · rw [heq] at h hc
    exact revokeAccount_deletes h hc

end Either

end Ferventio
