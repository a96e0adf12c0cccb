import Ferventio.Auth.Invariants

/-!
# A live session is left alone

Sessions and credentials are deleted and replaced in many places. None of that reaches a session
that has not expired unless the call presents the session's own installation and secret, or revokes
its user (**`live_session_untouched`**).
-/

namespace Ferventio

open Strings Table List Postgres

variable {credential : AuthCredential} {u s t : AuthDiskState} {r : AuthHandoffRecord}
  {ttl : Duration} {key' secret token code key : String} {env : Env} {x : Choice}
  {sess : AuthSessionRecord} {H : String → String} {now : Time}

/-- The session and its credential are unchanged. -/
structure KeepsSession (key : String) (sess : AuthSessionRecord) (s t : AuthDiskState) : Prop where
  kept : t.sessions.lookup key = some sess
  credential : t.credentials.lookup sess.credentialID = s.credentials.lookup sess.credentialID

namespace KeepsSession

theorem refl (h : s.sessions.lookup key = some sess) : KeepsSession key sess s s := ⟨h, rfl⟩

variable (h : KeepsSession key sess s t)

include h

theorem trans (h' : KeepsSession key sess t u) : KeepsSession key sess s u :=
  ⟨h'.kept, h'.credential.trans h.credential⟩

theorem prunes (hprune : Prunes t u)
    (hsess : u.sessions.lookup key = some sess) : KeepsSession key sess s u :=
  ⟨hsess, (hprune.used (credentialInUse_of_session hsess)).trans h.credential⟩

theorem orphans : KeepsSession key sess s (deleteOrphans t) :=
  h.prunes (deleteOrphans_prunes t) h.kept

theorem drop (credID : String) : KeepsSession key sess s (dropIfUnused credID t) := by
  refine h.prunes (dropIfUnused_prunes credID t) ?_
  unfold dropIfUnused
  split_ifs
  · exact h.kept
  · exact h.kept

theorem cleanup (hlive : now ≤ sess.expiresAt) :
    KeepsSession key sess s (Memory.cleanupExpiredLocked now t) := by
  refine h.prunes (Memory.cleanupExpiredLocked_prunes now t) ?_
  have hsel : (t.sessions.select fun _ r => !(now > r.expiresAt)).lookup key = some sess := by
    rw [lookup_select, h.kept, Option.filter_some, if_pos]
    simpa using hlive
  exact hsel

end KeepsSession

/-! ## The calls of others -/

/-- The call names the installation with its secret. -/
def AuthCall.presents (installationID deviceSecret : String) : AuthCall → Bool
  | consumeHandoff _ i d _ => i == installationID && d == deviceSecret
  | credentialForInstallation i d => i == installationID && d == deviceSecret
  | createSession _ i d _ => i == installationID && d == deviceSecret
  | resolveSession _ i d _ => i == installationID && d == deviceSecret
  | sessionAccount _ i d => i == installationID && d == deviceSecret
  | deleteSession _ i d => i == installationID && d == deviceSecret
  | installationBinding i d => i == installationID && d == deviceSecret
  | revokeInstallation i d => i == installationID && d == deviceSecret
  | _ => false

/-- The call writes the credential. -/
def AuthCall.puts (credentialID : String) : AuthCall → Bool
  | putCredential credential => credential.id == credentialID
  | putCredentialAndHandoff credential _ _ => credential.id == credentialID
  | _ => false

/-- The call revokes the user's account. -/
def AuthCall.revokesUser (userID : String) : AuthCall → Bool
  | revokeAccount named _ => trimSpace named == userID
  | _ => false

/-- The session is of another installation or secret. -/
def AuthSessionRecord.Rejects (hashSecret : String → String) (sess : AuthSessionRecord)
    (iid secret : String) : Prop :=
  sess.installationID ≠ iid ∨ (!secureHashEqual sess.deviceHash (hashSecret secret))

theorem rejects_of_not_presents (hinj : Function.Injective H) {iid' secret' : String}
    (hbound : secureHashEqual sess.deviceHash (H secret))
    (h : (iid' == sess.installationID && secret' == secret) = false) :
    sess.Rejects H iid' secret' := by
  by_cases hiid : iid' = sess.installationID
  · right
    have hsecret : secret' ≠ secret := by simpa [hiid] using h
    simp only [secureHashEqual, Bool.and_eq_true, beq_iff_eq] at hbound
    have hhash : sess.deviceHash ≠ H secret' := by
      rw [hbound.2]
      exact fun heq => hsecret (hinj heq).symm
    simp [secureHashEqual, hhash]
  · exact .inl (Ne.symm hiid)

theorem Memory.revokeRows_keeps {α : Type} {installation device : α → String}
    {iid hash key : String} {row : α} {t : Table String α}
    {entries : List (Row String α)} (ht : t.lookup key = some row)
    (hrow : installation row ≠ iid ∨ (!secureHashEqual (device row) hash))
    (hentries : ∀ row', ⟨key, row'⟩ ∈ entries → row' = row) :
    (revokeRows installation device iid hash entries t).2.lookup key = some row := by
  induction entries generalizing t with
  | nil => exact ht
  | cons entry entries ih =>
    obtain ⟨key', row'⟩ := entry
    have hrest : ∀ row', ⟨key, row'⟩ ∈ entries → row' = row :=
      fun row' hmem => hentries row' (mem_cons_of_mem _ hmem)
    rw [revokeRows]
    split_ifs with hother hmis
    · exact ih ht hrest
    · exact ht
    · refine ih ?_ hrest
      rw [lookup_erase_eq, if_neg]
      · exact ht
      · rintro rfl
        obtain rfl := hentries row' mem_cons_self
        exact hrow.elim hother hmis

theorem not_mem_credentialIDsOf {uid id : String}
    (huser : ∀ credential, s.credentials.lookup id = some credential →
      credential.userID ≠ uid) : id ∉ Memory.credentialIDsOf uid s := by
  intro hmem
  obtain ⟨⟨id', credential⟩, hentry, hid⟩ := mem_filterMap.mp hmem
  split_ifs at hid with hname
  cases hid
  exact huser credential (mem_entries_iff.mp hentry) hname

theorem Postgres.deleteCredentials_keepsSession {doomed : String → AuthCredential → Bool}
    (h : KeepsSession key sess s t)
    (hspare : (t.credentials.lookup sess.credentialID).any (doomed sess.credentialID) =
      false) : KeepsSession key sess s (deleteCredentials doomed t) := by
  refine h.prunes (deleteCredentials_prunes doomed t) ?_
  simp only [deleteCredentials]
  rw [lookup_select, h.kept, Option.filter_some, hspare]
  rfl

section Calls

variable {iid secret : String} (h : s.sessions.lookup key = some sess)
include h

theorem keepsSession_erase (hkey : key ≠ key') :
    KeepsSession key sess s { s with sessions := s.sessions.erase key' } := by
  refine ⟨?_, rfl⟩
  rw [lookup_erase_eq, if_neg hkey]
  exact h

theorem keepsSession_insert {other : AuthSessionRecord} (hkey : key ≠ key') :
    KeepsSession key sess s { s with sessions := s.sessions.insert key' other } := by
  refine ⟨?_, rfl⟩
  rw [lookup_insert_eq, if_neg hkey]
  exact h

theorem Memory.resolveSession_keepsSession (hlive : now ≤ sess.expiresAt)
    (hrej : sess.Rejects H iid secret) :
    KeepsSession key sess s (Memory.resolveSession H now token iid secret ttl s).2 := by
  simp only [resolveSession]
  split
  · exact .refl h
  · rename_i r hrec
    by_cases hkey : key = H token
    · -- its own token does not help without its secret
      rw [← hkey, h] at hrec
      cases hrec
      unfold AuthSessionRecord.Rejects at hrej
      rw [if_neg (Int.not_lt.mpr hlive), if_pos hrej]
      exact .refl h
    · split_ifs
      · exact (keepsSession_erase h hkey).drop r.credentialID
      · exact .refl h
      · exact keepsSession_insert h hkey
      · exact .refl h

theorem Memory.deleteSession_keepsSession (hrej : sess.Rejects H iid secret) :
    KeepsSession key sess s (Memory.deleteSession H token iid secret s).2 := by
  simp only [deleteSession]
  split
  · exact .refl h
  · rename_i r hrec
    by_cases hkey : key = H token
    · rw [← hkey, h] at hrec
      cases hrec
      unfold AuthSessionRecord.Rejects at hrej
      rw [if_pos hrej]
      exact .refl h
    · split_ifs
      · exact .refl h
      · exact (keepsSession_erase h hkey).drop r.credentialID

section CreateSession

variable {random : Option String} {credID : String} {ttl : Duration}
  (hlive : now ≤ sess.expiresAt)
  (hrej : sess.Rejects H iid secret)
  (hfresh : (randomToken "fsv1_" random).map H ≠ some key)
include hlive hrej hfresh

theorem Memory.createSession_keepsSession :
    KeepsSession key sess s (Memory.createSession H now random credID iid secret ttl s).2 := by
  simp only [createSession]
  split_ifs with _ hmis hfull
  · exact .refl h
  · exact .refl h
  all_goals
    have hiid : sess.installationID ≠ iid := by
      rcases hrej with hother | hhash
      · exact hother
      · intro heq
        refine hmis (any_eq_true.mpr ⟨sess, mem_rows_of_lookup h, ?_⟩)
        simp only [Bool.and_eq_true, beq_iff_eq]
        exact ⟨⟨heq, by simpa using hlive⟩, hhash⟩
    have hsel : KeepsSession key sess s
        { s with sessions := s.sessions.select fun _ existing =>
          !(now > existing.expiresAt || existing.installationID == iid) } := by
      refine ⟨?_, rfl⟩
      rw [lookup_select, h, Option.filter_some, if_pos]
      simpa [hiid] using hlive
  · exact hsel
  · split
    · exact hsel
    · rename_i token htoken
      have hkey : key ≠ H token := fun heq => hfresh (by rw [heq, htoken]; rfl)
      exact (hsel.trans (keepsSession_insert hsel.kept hkey)).cleanup hlive

theorem Postgres.createSession_keepsSession :
    KeepsSession key sess s (createSession H now random credID iid secret ttl s).2 := by
  simp only [createSession]
  split_ifs with _ hmis hfull
  · exact .refl h
  · exact .refl h
  · exact .refl h
  · have hget : (s.sessions.select fun _ existing => !(existing.expiresAt < now)).lookup key =
        some sess := by
      rw [lookup_select, h, Option.filter_some, if_pos]
      simpa using hlive
    have hiid : sess.installationID ≠ iid := by
      rcases hrej with hother | hhash
      · exact hother
      · intro heq
        refine hmis (any_eq_true.mpr ⟨sess, mem_rows_of_lookup hget, ?_⟩)
        simp only [Bool.and_eq_true, beq_iff_eq]
        exact ⟨heq, hhash⟩
    split
    · exact .refl h
    · rename_i token htoken
      have hkey : key ≠ H token := fun heq => hfresh (by rw [heq, htoken]; rfl)
      split_ifs
      · exact .refl h
      · refine KeepsSession.orphans ⟨?_, rfl⟩
        rw [lookup_insert_eq, if_neg hkey, lookup_select, hget, Option.filter_some, if_pos]
        simp [hiid]

end CreateSession

/-! ## Revocation -/

theorem Memory.revokeInstallation_keepsSession
    (hrej : sess.Rejects H iid secret) (visits : Visits s) :
    KeepsSession key sess s (Memory.revokeInstallation H iid secret s visits).2 := by
  have hrow : (revokeRows (·.installationID) (·.deviceHash) iid
      (H secret) visits.sessions s.sessions).2.lookup key = some sess := by
    refine revokeRows_keeps h hrej fun row hmem => ?_
    rw [visits.mem_sessions, h] at hmem
    exact (Option.some.inj hmem).symm
  simp only [revokeInstallation]
  split_ifs
  · exact ⟨hrow, rfl⟩
  · exact ⟨hrow, rfl⟩
  · exact ⟨hrow, rfl⟩
  · exact KeepsSession.orphans ⟨hrow, rfl⟩

theorem Postgres.revokeInstallation_keepsSession (hrej : sess.Rejects H iid secret) :
    KeepsSession key sess s (revokeInstallation H iid secret s).2 := by
  simp only [revokeInstallation]
  split_ifs with hmis hnone
  · exact .refl h
  · exact .refl h
  · have hiid : sess.installationID ≠ iid := by
      rcases hrej with hother | hhash
      · exact hother
      · rintro rfl
        refine absurd (any_eq_true.mpr ⟨sess.deviceHash, ?_, hhash⟩) hmis
        refine mem_append_left _ (mem_append_left _ (mem_map.mpr ⟨sess, ?_, rfl⟩))
        exact mem_filter.mpr ⟨mem_rows_of_lookup h, beq_self_eq_true _⟩
    refine KeepsSession.orphans ⟨?_, rfl⟩
    rw [lookup_select, h, Option.filter_some, if_pos]
    simp [hiid]

section RevokeAccount

variable {uid : String} {iids : List String}
  (huser : ∀ credential, s.credentials.lookup sess.credentialID = some credential →
    credential.userID ≠ trimSpace uid)
include huser

theorem Memory.revokeAccount_keepsSession (visits : Visits s) :
    KeepsSession key sess s (Memory.revokeAccount uid iids s visits).2 := by
  have hspare := not_mem_credentialIDsOf huser
  simp only [revokeAccount]
  split_ifs
  · exact .refl h
  · refine KeepsSession.orphans ⟨?_, ?_⟩
    · rw [lookup_select, h, Option.filter_some, if_pos]
      simpa using hspare
    · dsimp only
      rw [lookup_select]
      cases s.credentials.lookup sess.credentialID with
      | none => rfl
      | some => rw [Option.filter_some, if_pos (by simpa using hspare)]

theorem Postgres.revokeAccount_keepsSession :
    KeepsSession key sess s (revokeAccount uid iids s).2 := by
  have hspare : sess.credentialID ∉ credentialIDsOf (trimSpace uid) s :=
    not_mem_credentialIDsOf huser
  simp only [revokeAccount]
  split_ifs
  · exact .refl h
  · have hsel : (s.sessions.select fun _ sess =>
        !(credentialIDsOf (trimSpace uid) s).contains sess.credentialID).lookup key =
        some sess := by
      rw [lookup_select, h, Option.filter_some, if_pos]
      simpa using hspare
    refine KeepsSession.orphans (deleteCredentials_keepsSession ⟨hsel, rfl⟩ ?_)
    dsimp only
    cases hcred : s.credentials.lookup sess.credentialID with
    | none => rfl
    | some credential => simpa using huser credential hcred

end RevokeAccount

end Calls

theorem keepsSession_put (h : s.sessions.lookup key = some sess)
    (hid : credential.id ≠ sess.credentialID) :
    KeepsSession key sess s
      { s with credentials := s.credentials.insert credential.id credential } := by
  refine ⟨h, ?_⟩
  rw [lookup_insert_eq, if_neg (Ne.symm hid)]

theorem Memory.putHandoff_keepsSession
    (h : s.sessions.lookup key = some sess) (hlive : now ≤ sess.expiresAt) :
    KeepsSession key sess s (Memory.putHandoff H now code r s).2 := by
  have hreplace : KeepsSession key sess s
      { s with handoffs := replaceHandoff (H code) r s.handoffs } := ⟨h, rfl⟩
  have hclean := hreplace.cleanup hlive
  simp only [putHandoff]
  split_ifs
  · refine KeepsSession.cleanup ?_ hlive
    exact ⟨hclean.kept, hclean.credential⟩
  · exact hclean

theorem Postgres.putHandoffTx_keepsSession {s' : AuthDiskState}
    (h : s.sessions.lookup key = some sess) (htx : putHandoffTx H now code r s = .ok s') :
    KeepsSession key sess s s' := by
  simp only [putHandoffTx] at htx
  split_ifs at htx
  cases htx
  exact ⟨h, rfl⟩

/-! ## Either store -/

section Others

variable {call : AuthCall} {secret : String} (hinj : Function.Injective env.hashSecret)
  (h : s.sessions.lookup key = some sess) (hlive : x.now ≤ sess.expiresAt)
  (hbound : secureHashEqual sess.deviceHash (env.hashSecret secret))
  (hpres : call.presents sess.installationID secret = false)
  (hputs : call.puts sess.credentialID = false)
  (huser : ∀ credential, s.credentials.lookup sess.credentialID = some credential →
    call.revokesUser credential.userID = false)
  (hfresh : (randomToken "fsv1_" x.token).map env.hashSecret ≠ some key)
include hinj h hlive hbound hpres hputs huser hfresh

theorem Memory.execAuth_keepsSession :
    KeepsSession key sess s (Memory.execAuth env.hashSecret x call s).2 := by
  cases call with
  | putPending =>
    have hclean := (KeepsSession.refl h).cleanup hlive
    simp only [execAuth, putPending]
    split_ifs
    · exact ⟨hclean.kept, hclean.credential⟩
    · exact ⟨hclean.kept, hclean.credential⟩
  | consumePending =>
    simp only [execAuth, consumePending]
    split
    · exact .refl h
    · split_ifs
      · exact ⟨h, rfl⟩
      · exact ⟨h, rfl⟩
  | putHandoff => exact putHandoff_keepsSession h hlive
  | consumeHandoff =>
    simp only [execAuth, consumeHandoff]
    split
    · exact .refl h
    · split_ifs
      · exact ⟨h, rfl⟩
      · exact .refl h
      · exact .refl h
      · exact ⟨h, rfl⟩
  | putCredential => exact keepsSession_put h (beq_eq_false_iff_ne.mp hputs)
  | putCredentialAndHandoff =>
    simp only [execAuth, putCredentialAndHandoff]
    split_ifs
    · exact .refl h
    · have hput := keepsSession_put h (beq_eq_false_iff_ne.mp hputs)
      exact hput.trans (putHandoff_keepsSession hput.kept hlive)
  | createSession =>
    exact createSession_keepsSession h hlive (rejects_of_not_presents hinj hbound hpres) hfresh
  | resolveSession =>
    exact resolveSession_keepsSession h hlive (rejects_of_not_presents hinj hbound hpres)
  | deleteSession =>
    exact deleteSession_keepsSession h (rejects_of_not_presents hinj hbound hpres)
  | revokeInstallation =>
    exact revokeInstallation_keepsSession h (rejects_of_not_presents hinj hbound hpres) (x.visits s)
  | revokeAccount =>
    refine revokeAccount_keepsSession h (fun credential hcred => ?_) (x.visits s)
    exact Ne.symm (beq_eq_false_iff_ne.mp (huser credential hcred))
  | deleteCredentialIfUnused credID => exact (KeepsSession.refl h).drop credID
  | _ => exact .refl h

theorem Postgres.answerAuth_keepsSession :
    KeepsSession key sess s (answerAuth env.hashSecret x call s).2 := by
  -- most calls are those of the in-memory store
  have hmemory := Memory.execAuth_keepsSession hinj h hlive hbound hpres hputs huser hfresh
  cases call with
  | putPending =>
    simp only [answerAuth, putPending]
    split_ifs
    · exact .refl h
    · exact .refl h
    · exact ⟨h, rfl⟩
  | putHandoff code r =>
    simp only [answerAuth, putHandoff]
    split
    · exact .refl h
    · rename_i s' htx
      exact putHandoffTx_keepsSession h htx
  | putCredentialAndHandoff credential code r =>
    simp only [answerAuth, putCredentialAndHandoff]
    split_ifs
    · exact .refl h
    · have hput := keepsSession_put h (beq_eq_false_iff_ne.mp hputs)
      split
      · exact .refl h
      · rename_i s' htx
        exact hput.trans (putHandoffTx_keepsSession hput.kept htx)
  | createSession =>
    exact createSession_keepsSession h hlive (rejects_of_not_presents hinj hbound hpres) hfresh
  | revokeInstallation =>
    exact revokeInstallation_keepsSession h (rejects_of_not_presents hinj hbound hpres)
  | revokeAccount =>
    refine revokeAccount_keepsSession h fun credential hcred => ?_
    exact Ne.symm (beq_eq_false_iff_ne.mp (huser credential hcred))
  | _ => exact hmemory

theorem execAuth_keepsSession : KeepsSession key sess s (execAuth env x call s).2 :=
  execAuth_state (.refl h)
    (fun _ => Memory.execAuth_keepsSession hinj h hlive hbound hpres hputs huser hfresh)
    fun _ => answerAuth_keepsSession hinj h hlive hbound hpres hputs huser hfresh

end Others

/-! ## Sequences of calls -/

/-- The store after a sequence of calls. -/
def authServed (env : Env) (calls : List (Choice × AuthCall)) (s : AuthDiskState) : AuthDiskState :=
  calls.foldl (fun s c => (execAuth env c.1 c.2 s).2) s

/-- A call by others, before the session expires. No random token is drawn twice. -/
structure ByOthers (token secret uid : String) (sess : AuthSessionRecord) (x : Choice)
    (call : AuthCall) : Prop where
  now : x.now ≤ sess.expiresAt
  fresh : randomToken "fsv1_" x.token ≠ some token
  device : call.presents sess.installationID secret = false
  user : call.revokesUser uid = false
  credential : call.puts sess.credentialID = false

theorem execAuth_resolveSession_ok (h : s.sessions.lookup (env.hashSecret token) = some sess)
    (hlive : x.now ≤ sess.expiresAt)
    (hbound : secureHashEqual sess.deviceHash (env.hashSecret secret)) (hfault : x.fault = none) :
    ∃ expiresAt, (execAuth env x (.resolveSession token sess.installationID secret ttl)
      s).1 = .ok { sess with expiresAt := expiresAt } := by
  have hmemory : ∃ expiresAt, (Memory.resolveSession env.hashSecret x.now token
      sess.installationID secret ttl s).1 = .ok { sess with expiresAt := expiresAt } := by
    simp only [Memory.resolveSession, h]
    rw [if_neg (Int.not_lt.mpr hlive), if_neg (by simp [hbound])]
    split_ifs
    · exact ⟨x.now + ttl, rfl⟩
    · exact ⟨sess.expiresAt, rfl⟩
  unfold execAuth
  split
  · exact hmemory
  · rw [Postgres.execAuth, withFault, hfault]
    exact hmemory

/-- **A live session is untouchable by others.** A session that has not expired and its credential
survive every sequence of calls that neither present its installation with its secret, nor revoke
its user, nor write its credential; and it can be resolved. -/
theorem live_session_untouched (hinj : Function.Injective env.hashSecret)
    (hsession : s.sessions.lookup (env.hashSecret token) = some sess)
    (hbound : secureHashEqual sess.deviceHash (env.hashSecret secret))
    (hcredential : s.credentials.lookup sess.credentialID = some credential)
    {calls : List (Choice × AuthCall)}
    (hcalls : ∀ c ∈ calls, ByOthers token secret credential.userID sess c.1 c.2) :
    (authServed env calls s).sessions.lookup (env.hashSecret token) = some sess ∧
      (authServed env calls s).credentials.lookup sess.credentialID = some credential ∧
      ∀ x ttl, x.now ≤ sess.expiresAt → x.fault = none →
        ∃ expiresAt, (execAuth env x (.resolveSession token sess.installationID secret ttl)
          (authServed env calls s)).1 = .ok { sess with expiresAt := expiresAt } := by
  have hkeeps : KeepsSession (env.hashSecret token) sess s (authServed env calls s) := by
    induction calls generalizing s with
    | nil => exact .refl hsession
    | cons c calls ih =>
      obtain ⟨hnow, hfresh, hdev, huser, hputs⟩ := hcalls c mem_cons_self
      have hstep : KeepsSession (env.hashSecret token) sess s (execAuth env c.1 c.2 s).2 := by
        refine execAuth_keepsSession hinj hsession hnow hbound hdev hputs ?_ ?_
        · intro found hfound
          rw [hcredential] at hfound
          cases hfound
          exact huser
        · intro heq
          obtain ⟨drawn, hdrawn, hhash⟩ := Option.map_eq_some_iff.mp heq
          exact hfresh (by rw [hdrawn, hinj hhash])
      refine hstep.trans (ih hstep.kept ?_ fun c' hc' => hcalls c' (mem_cons_of_mem c hc'))
      rw [hstep.credential]
      exact hcredential
  refine ⟨hkeeps.kept, hkeeps.credential.trans hcredential, fun x ttl hlive hfault => ?_⟩
  exact execAuth_resolveSession_ok hkeeps.kept hlive hbound hfault

theorem sample_hashSecret_injective (backend : Backend) :
    Function.Injective (Env.sample backend).hashSecret := by
  intro a b h
  have hlist := congrArg String.toList h
  simp only [Env.sample, String.toList_append, append_cancel_left_eq] at hlist
  exact String.toList_inj.mp hlist

/-- The session of the phone. -/
def phoneSession : AuthSessionRecord :=
  { credentialID := "credential", installationID := "phone", deviceHash := "#secret",
    createdAt := 1, expiresAt := 1 + hour }

/-- Calls of strangers. -/
def attempts : List (Choice × AuthCall) :=
  [({ now := 2 }, .revokeInstallation "phone" "guess"),
    ({ now := 3 }, .deleteSession "fsv1_token" "phone" "guess"),
    ({ now := 4 }, .createSession "credential" "phone" "guess" hour),
    ({ now := 5 }, .revokeAccount "other" ["phone"]),
    ({ now := 6 }, .deleteCredentialIfUnused "credential")]

theorem attempts_fail :
    (authServed Env.mem attempts signedInOnce).sessions.lookup "#fsv1_token" =
      some phoneSession := by
  have hsession : signedInOnce.sessions.lookup (Env.mem.hashSecret "fsv1_token") =
      some phoneSession := rfl
  have hbound : secureHashEqual phoneSession.deviceHash (Env.mem.hashSecret "secret") =
      true := rfl
  refine (live_session_untouched (sample_hashSecret_injective .memory) hsession hbound rfl ?_).1
  intro c hc
  simp only [attempts, mem_cons, not_mem_nil, or_false] at hc
  rcases hc with rfl | rfl | rfl | rfl | rfl
  all_goals constructor <;> decide

end Ferventio
