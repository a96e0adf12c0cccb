import Ferventio.Auth.Laws

/-!
# What refers to a credential

A credential lives as long as a session or a handoff refers to it. The calls that sweep the store
(`AuthCall.sweeps`) delete every credential that nothing refers to.
-/

namespace Ferventio

open Table

variable {x : Choice} {credID state code id : String} {H : String → String}
  {record : AuthHandoffRecord} {removed : Nat} {s t : AuthDiskState}

/-- The credential of every handoff is stored. -/
def Backed (s : AuthDiskState) : Prop :=
  ∀ key record, s.handoffs.lookup key = some record →
    s.credentials.lookup record.credentialID ≠ none

theorem lookup_dropIfUnused (h : credID ≠ id) :
    (dropIfUnused credID s).credentials.lookup id = s.credentials.lookup id := by
  unfold dropIfUnused
  split_ifs
  · rfl
  · rw [lookup_erase_eq, if_neg (Ne.symm h)]

/-- The call deletes the credentials that nothing refers to. -/
def AuthCall.sweeps (backend : Backend) : AuthCall → Bool
  | createSession _ _ _ _ => true
  | revokeInstallation _ _ => true
  | revokeAccount _ _ => true
  | putPending _ _ => backend == .memory
  | putHandoff _ _ => backend == .memory
  | putCredentialAndHandoff _ _ _ => backend == .memory
  | _ => false

theorem lookup_insert_ne_none (cred : AuthCredential) (hid : s.credentials.lookup id ≠ none) :
    (s.credentials.insert cred.id cred).lookup id ≠ none := by
  rw [lookup_insert_eq]
  split_ifs
  · exact Option.some_ne_none _
  · exact hid

/-! ## The in-memory store -/

namespace Memory

section Keeps

variable (hsess : ∀ key record, s.sessions.lookup key = some record → record.credentialID ≠ id)

include hsess

theorem resolveSession_keeps (now : Time) (token iid secret : String) (ttl : Duration) :
    (resolveSession H now token iid secret ttl s).2.credentials.lookup id =
      s.credentials.lookup id := by
  simp only [resolveSession]
  split
  · rfl
  · rename_i record hrow
    split_ifs
    · exact lookup_dropIfUnused (hsess _ record hrow)
    · rfl
    · rfl
    · rfl

theorem deleteSession_keeps (token iid secret : String) :
    (deleteSession H token iid secret s).2.credentials.lookup id = s.credentials.lookup id := by
  simp only [deleteSession]
  split
  · rfl
  · rename_i record hrow
    split_ifs
    · rfl
    · exact lookup_dropIfUnused (hsess _ record hrow)

theorem execAuth_keeps {call : AuthCall} (hsweeps : call.sweeps .memory = false)
    (hdrop : call ≠ .deleteCredentialIfUnused id) (hid : s.credentials.lookup id ≠ none) :
    (execAuth H x call s).2.credentials.lookup id ≠ none := by
  cases call with
  | consumePending =>
    simp only [execAuth, consumePending]
    split
    · exact hid
    · split_ifs <;> exact hid
  | consumeHandoff =>
    simp only [execAuth, consumeHandoff]
    split
    · exact hid
    · split_ifs <;> exact hid
  | putCredential cred => exact lookup_insert_ne_none cred hid
  | resolveSession =>
    rw [execAuth, resolveSession_keeps hsess]
    exact hid
  | deleteSession =>
    rw [execAuth, deleteSession_keeps hsess]
    exact hid
  | deleteCredentialIfUnused =>
    rw [execAuth, deleteCredentialIfUnused, lookup_dropIfUnused fun heq => hdrop (by rw [heq])]
    exact hid
  | getPending => exact hid
  | getCredential => exact hid
  | credentialForInstallation => exact hid
  | sessionAccount => exact hid
  | installationBinding => exact hid
  | accountRevocationTargets => exact hid
  | _ => cases hsweeps

end Keeps

end Memory

/-! ## The PostgreSQL store -/

namespace Postgres

theorem putHandoffTx_credentials {now : Time}
    {s' : AuthDiskState} (htx : putHandoffTx H now code record s = .ok s') :
    s'.credentials = s.credentials := by
  simp only [putHandoffTx] at htx
  split_ifs at htx
  cases htx
  rfl

theorem answerAuth_keeps {call : AuthCall}
    (hsess : ∀ key record, s.sessions.lookup key = some record → record.credentialID ≠ id)
    (hsweeps : call.sweeps .postgres = false) (hdrop : call ≠ .deleteCredentialIfUnused id)
    (hid : s.credentials.lookup id ≠ none) :
    (answerAuth H x call s).2.credentials.lookup id ≠ none := by
  -- most calls are those of the in-memory store
  have hmemory : call.sweeps .memory = false →
      (Memory.execAuth H x call s).2.credentials.lookup id ≠ none :=
    fun hsweeps => Memory.execAuth_keeps hsess hsweeps hdrop hid
  cases call with
  | putPending =>
    simp only [answerAuth, putPending]
    split_ifs <;> exact hid
  | putHandoff code record =>
    simp only [answerAuth, putHandoff]
    split
    · exact hid
    · rename_i s' htx
      dsimp only
      rw [putHandoffTx_credentials htx]
      exact hid
  | putCredentialAndHandoff cred code record =>
    simp only [answerAuth, putCredentialAndHandoff]
    split_ifs
    · exact hid
    · split
      · exact hid
      · rename_i s' htx
        dsimp only
        rw [putHandoffTx_credentials htx]
        exact lookup_insert_ne_none cred hid
  | createSession => cases hsweeps
  | revokeInstallation => cases hsweeps
  | revokeAccount => cases hsweeps
  | _ => exact hmemory rfl

end Postgres

/-! ## Either store -/

section Either

variable {env : Env} {x : Choice} {call : AuthCall}

theorem execAuth_backed (h : Backed s) (hcall : ∀ code record, call ≠ .putHandoff code record) :
    Backed (execAuth env x call s).2 := by
  obtain ⟨t, hwrite, hprune⟩ := execAuth_write env x call s
  -- what the call deletes refers to nothing, so it is enough to look at what it writes
  suffices hback : Backed t by
    intro key record hrow
    rw [hprune.used (credentialInUse_of_handoff hrow)]
    exact hback key record (hprune.handoffs hrow)
  cases hwrite with
  | credential cred =>
    intro key record hrow
    exact lookup_insert_ne_none cred (h key record hrow)
  | handoff code record => exact absurd rfl (hcall code record)
  | @issue cred code record hmatch =>
    intro key r hr
    simp only [lookup_insert_eq] at hr ⊢
    by_cases hid : r.credentialID = cred.id
    · rw [if_pos hid]
      exact Option.some_ne_none _
    · rw [if_neg hid]
      split_ifs at hr
      · cases hr
        exact absurd hmatch hid
      · exact h key r hr
  | _ => exact h

/-- **A credential without a session survives** the calls that neither sweep nor name it. -/
theorem execAuth_keeps_credential (hsweeps : call.sweeps env.backend = false)
    (hdrop : call ≠ .deleteCredentialIfUnused id)
    (hsess : ∀ key record, s.sessions.lookup key = some record → record.credentialID ≠ id)
    (hid : s.credentials.lookup id ≠ none) :
    (execAuth env x call s).2.credentials.lookup id ≠ none :=
  execAuth_state (P := fun s' => s'.credentials.lookup id ≠ none) hid
    (fun hb => Memory.execAuth_keeps hsess (hb ▸ hsweeps) hdrop hid)
    fun hb => Postgres.answerAuth_keeps hsess (hb ▸ hsweeps) hdrop hid

variable {key iid secret : String} {record : AuthSessionRecord}

theorem execAuth_handoff {record : AuthHandoffRecord}
    (hcall : ∀ code record, call ≠ .putHandoff code record)
    (h : (execAuth env x call s).2.handoffs.lookup key = some record) :
    s.handoffs.lookup key = some record ∨
      ∃ cred code, call = .putCredentialAndHandoff cred code record ∧
        key = env.hashSecret code ∧ record.credentialID = cred.id := by
  obtain ⟨t, hwrite, hprune⟩ := execAuth_write env x call s
  have ht := hprune.handoffs h
  cases hwrite with
  | handoff code record => exact absurd rfl (hcall code record)
  | issue code hmatch =>
    rw [lookup_insert_eq] at ht
    split_ifs at ht with hkey
    · cases ht
      exact .inr ⟨_, code, rfl, hkey, hmatch⟩
    · exact .inl ht
  | _ => exact .inl ht

theorem execAuth_pending {record : PendingAuthRecord}
    (h : (execAuth env x call s).2.pending.lookup key = some record) :
    s.pending.lookup key = some record ∨
      ∃ state, call = .putPending state record ∧ key = env.hashSecret state := by
  obtain ⟨t, hwrite, hprune⟩ := execAuth_write env x call s
  have ht := hprune.pending h
  cases hwrite with
  | pending state =>
    rw [lookup_insert_eq] at ht
    split_ifs at ht with hkey
    · cases ht
      exact .inr ⟨state, rfl, hkey⟩
    · exact .inl ht
  | _ => exact .inl ht

theorem execAuth_session (h : (execAuth env x call s).2.sessions.lookup key = some record) :
    (∃ key0 record0, s.sessions.lookup key0 = some record0 ∧
        record0.credentialID = record.credentialID ∧
        record0.installationID = record.installationID ∧ record0.deviceHash = record.deviceHash) ∨
      ∃ secret ttl,
        call = .createSession record.credentialID record.installationID secret ttl ∧
          record.deviceHash = env.hashSecret secret := by
  obtain ⟨t, hwrite, hprune⟩ := execAuth_write env x call s
  have ht := hprune.sessions h
  cases hwrite with
  | session iid secret ttl =>
    rw [lookup_insert_eq] at ht
    split_ifs at ht
    · cases ht
      exact .inr ⟨secret, ttl, rfl, rfl⟩
    · exact .inl ⟨key, record, ht, rfl, rfl, rfl⟩
  | renew expiresAt hold =>
    rw [lookup_insert_eq] at ht
    split_ifs at ht
    · cases ht
      exact .inl ⟨_, _, hold, rfl, rfl, rfl⟩
    · exact .inl ⟨key, record, ht, rfl, rfl, rfl⟩
  | _ => exact .inl ⟨key, record, ht, rfl, rfl, rfl⟩

theorem execAuth_consumePending {record : PendingAuthRecord}
    (h : (execAuth env x (.consumePending state) s).1 = .ok record) :
    s.pending.lookup (env.hashSecret state) = some record ∧ x.now ≤ record.expiresAt ∧
      (execAuth env x (.consumePending state) s).2.pending.lookup (env.hashSecret state) =
        none := by
  have hcons : ∀ r : Result PendingAuthRecord × AuthDiskState,
      r = Memory.consumePending env.hashSecret x.now state s → r.1 = .ok record →
      s.pending.lookup (env.hashSecret state) = some record ∧ x.now ≤ record.expiresAt ∧
        r.2.pending.lookup (env.hashSecret state) = none := by
    rintro r rfl hr
    simp only [Memory.consumePending] at hr ⊢
    split at hr
    · cases hr
    · rename_i found hfound
      split_ifs at hr with hexp
      cases hr
      refine ⟨hfound, not_lt.mp hexp, ?_⟩
      simp only [hfound, if_neg hexp, lookup_erase_eq, if_true]
  rcases execAuth_answered (by rw [h]; rintro ⟨⟩) with heq | heq
  · exact hcons _ heq h
  · exact hcons _ heq h

theorem eq_of_secureHashEqual {left right : String} (h : ¬(!secureHashEqual left right)) :
    left = right := by
  simp only [secureHashEqual, Bool.not_eq_true', Bool.not_eq_false, Bool.and_eq_true,
    beq_iff_eq] at h
  exact h.2

/-- A handoff was redeemed. -/
structure Redeemed (env : Env) (code iid secret state : String)
    (record : AuthHandoffRecord) (now : Time) (s t : AuthDiskState) : Prop where
  stored : s.handoffs.lookup (env.hashSecret code) = some record
  deleted : t.handoffs.lookup (env.hashSecret code) = none
  inTime : now ≤ record.expiresAt
  installation : record.installationID = iid
  device : record.deviceHash = env.hashSecret secret
  state : record.stateHash = env.hashSecret state

/-- **A handoff is consumed once**, by its device, with its state, and not after its expiry. -/
theorem execAuth_consumeHandoff {record : AuthHandoffRecord}
    (h : (execAuth env x (.consumeHandoff code iid secret state) s).1 = .ok record) :
    Redeemed env code iid secret state record x.now s
      (execAuth env x (.consumeHandoff code iid secret state) s).2 := by
  have hcons : ∀ r : Result AuthHandoffRecord × AuthDiskState,
      r = Memory.consumeHandoff env.hashSecret x.now code iid secret state s →
      r.1 = .ok record →
      Redeemed env code iid secret state record x.now s r.2 := by
    rintro r rfl hr
    simp only [Memory.consumeHandoff] at hr
    split at hr
    · cases hr
    · rename_i found hfound
      split_ifs at hr with hexp hdev hstate
      cases hr
      have hdel : (Memory.consumeHandoff env.hashSecret x.now code iid secret
          state s).2.handoffs.lookup (env.hashSecret code) = none := by
        simp only [Memory.consumeHandoff, hfound, if_neg hexp, if_neg hdev, if_neg hstate,
          lookup_erase_eq, if_true]
      rw [not_or, not_not] at hdev
      exact ⟨hfound, hdel, not_lt.mp hexp, hdev.1, eq_of_secureHashEqual hdev.2,
        eq_of_secureHashEqual hstate⟩
  rcases execAuth_answered (by rw [h]; rintro ⟨⟩) with heq | heq
  · exact hcons _ heq h
  · exact hcons _ heq h

theorem execAuth_getCredential_notFound
    (h : (execAuth env x (.getCredential id) s).1 = .error .authNotFound) :
    s.credentials.lookup id = none := by
  have hget : Memory.getCredential id s = .error .authNotFound := by
    rcases execAuth_answered (by rw [h]; rintro ⟨⟩) with heq | heq
    · rw [heq] at h
      exact h
    · rw [heq] at h
      exact h
  unfold Memory.getCredential at hget
  split at hget
  · assumption
  · cases hget

theorem execAuth_createSession_notFound
    {ttl : Duration}
    (h : (execAuth env x (.createSession credID iid secret ttl) s).1 =
      .error .authNotFound) : s.credentials.lookup credID = none := by
  rcases execAuth_answered (by rw [h]; rintro ⟨⟩) with heq | heq
  · rw [heq] at h
    simp only [Memory.execAuth, Memory.createSession] at h
    split at h
    · exact Option.isNone_iff_eq_none.mp ‹_›
    · split at h
      · cases h
      · split at h
        · cases h
        · split at h <;> cases h
  · rw [heq] at h
    simp only [Postgres.answerAuth, Postgres.createSession] at h
    split at h
    · exact Option.isNone_iff_eq_none.mp ‹_›
    · split at h
      · cases h
      · split at h
        · cases h
        · split at h
          · cases h
          · split at h <;> cases h

theorem Memory.revokeRows_lookup {α : Type} {installation device : α → String}
    {hash : String} {row : α}
    {entries : List (Row String α)} {t : Table String α}
    (hok : (revokeRows installation device iid hash entries t).1)
    (h : (revokeRows installation device iid hash entries t).2.lookup key =
      some row) (hmem : ⟨key, row⟩ ∈ entries) : installation row ≠ iid := by
  induction entries generalizing t with
  | nil => cases hmem
  | cons entry entries ih =>
    rw [revokeRows] at hok h
    rcases List.mem_cons.mp hmem with rfl | hmem
    · split_ifs at hok h with hother hdev
      · exact hother
      · have herase := of_lookup_revokeRows h
        rw [lookup_erase_eq, if_pos rfl] at herase
        cases herase
    · split_ifs at hok h
      · exact ih hok h hmem
      · exact ih hok h hmem

theorem Memory.revokeInstallation_sessions
    {visits : Visits s} (h : (revokeInstallation H iid secret s visits).1 = .ok removed)
    (hr : (revokeInstallation H iid secret s visits).2.sessions.lookup key =
      some record) : record.installationID ≠ iid := by
  simp only [revokeInstallation] at h hr
  split_ifs at h hr with hok
  have hsess : s.sessions.lookup key = some record := of_lookup_revokeRows hr
  refine revokeRows_lookup ?_ hr (visits.mem_sessions.mpr hsess)
  simpa only [Bool.not_eq_true, Bool.not_eq_false'] using hok

theorem Postgres.revokeInstallation_sessions
    (h : (revokeInstallation H iid secret s).1 = .ok removed)
    (hr : (revokeInstallation H iid secret s).2.sessions.lookup key =
      some record) : record.installationID ≠ iid := by
  simp only [revokeInstallation] at h hr
  split_ifs at h hr with hmis hnone
  · -- nothing is bound to the installation
    rintro rfl
    have hmem : record.deviceHash ∈ boundDevices record.installationID s := by
      unfold boundDevices Memory.boundDevices
      rw [List.append_assoc]
      refine List.mem_append_left _ (List.mem_map.mpr ⟨record, List.mem_filter.mpr ⟨?_, ?_⟩, rfl⟩)
      · exact mem_rows_of_lookup hr
      · exact beq_self_eq_true _
    rw [hnone] at hmem
    cases hmem
  · have hsel : (s.sessions.select fun _ sess =>
        sess.installationID != iid).lookup key = some record := hr
    rw [lookup_select, Option.filter_eq_some_iff] at hsel
    simpa using hsel.2

theorem execAuth_revokeInstallation
    (h : (execAuth env x (.revokeInstallation iid secret) s).1 = .ok removed)
    (hr : (execAuth env x (.revokeInstallation iid secret) s).2.sessions.lookup
      key = some record) : record.installationID ≠ iid := by
  rcases execAuth_answered (by rw [h]; rintro ⟨⟩) with heq | heq
  · rw [heq] at h hr
    exact Memory.revokeInstallation_sessions h hr
  · rw [heq] at h hr
    exact Postgres.revokeInstallation_sessions h hr

end Either

end Ferventio
