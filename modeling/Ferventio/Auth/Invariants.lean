import Ferventio.Auth.References

/-!
# The shape of the login store

Whatever operations were served, sessions refer to stored credentials, an installation has at most
one session, and there are at most `maxAuthSessions` of them (**`SessionsSound`**). With handoffs
that are issued together with their credential, and for devices with a hash, the same is true of
handoffs and pending logins, which are unique for a device (**`Represented`**). The two conditions
are the code's own: `PutHandoff` does not ask for the credential, and `secureHashEqual` finds no
records of a device with an empty hash.
-/

namespace Ferventio

open Table Memory Postgres

variable {cred : AuthCredential} {code : String} {env : Env} {x : Choice} {call : AuthCall}
  {s t : AuthDiskState} {H : String → String} {now : Time}

/-- The tables have the same rows, in whatever order. -/
structure AuthDiskState.Same (s t : AuthDiskState) : Prop where
  credentials : s.credentials.Same t.credentials
  sessions : s.sessions.Same t.sessions
  pending : s.pending.Same t.pending
  handoffs : s.handoffs.Same t.handoffs

/-- The states that calls lead to, whatever order the maps are walked in. -/
inductive AuthReached (env : Env) (may : AuthCall → Prop) : AuthDiskState → Prop
  | start : AuthReached env may {}
  | call (x : Choice) {call : AuthCall} {s : AuthDiskState} (h : AuthReached env may s)
      (hmay : may call) : AuthReached env may (execAuth env x call s).2
  | reorder {s t : AuthDiskState} (h : AuthReached env may s) (hsame : s.Same t) :
      AuthReached env may t

/-- The device that a login is pending for. -/
def PendingAuthRecord.device (record : PendingAuthRecord) : String × String :=
  (record.installationID, record.deviceHash)

/-- The device that a handoff is for. -/
def AuthHandoffRecord.device (record : AuthHandoffRecord) : String × String :=
  (record.installationID, record.deviceHash)

/-! ## Sessions -/

/-- Sessions have credentials, one for an installation, and not too many. -/
structure SessionsSound (s : AuthDiskState) : Prop where
  backed : s.sessions.Forall fun _ sess => s.credentials.lookup sess.credentialID ≠ none
  indexed : s.sessions.Indexed (·.installationID) maxAuthSessions

section CreateSession

variable {random : Option String} {credID iid secret : String}
  {ttl : Duration} (h : s.sessions.Indexed (·.installationID) maxAuthSessions)
include h

theorem Memory.createSession_indexed :
    (createSession H now random credID iid secret ttl
      s).2.sessions.Indexed (·.installationID) maxAuthSessions := by
  simp only [createSession]
  split_ifs with _ _ hfull
  · exact h
  · exact h
  · exact h.fewer of_lookup_select
  · split
    · exact h.fewer of_lookup_select
    · refine Table.Indexed.fewer ?_ (cleanupExpiredLocked_prunes now _).sessions
      refine h.replace of_lookup_select (fun key sess hsess => ?_) (Nat.lt_of_not_le hfull)
      rw [lookup_select, Option.filter_eq_some_iff] at hsess
      have hother := hsess.2
      simp only [Bool.not_eq_true', Bool.or_eq_false_iff, beq_eq_false_iff_ne] at hother
      exact hother.2

theorem Postgres.createSession_indexed :
    (createSession H now random credID iid secret ttl
      s).2.sessions.Indexed (·.installationID) maxAuthSessions := by
  simp only [createSession]
  split_ifs with _ hmis hfull
  · exact h
  · exact h
  · exact h
  · split
    · exact h
    · split_ifs
      · exact h
      · refine Table.Indexed.fewer ?_ (deleteOrphans_prunes _).sessions
        refine h.replace (fun hsess => of_lookup_select (of_lookup_select hsess))
          (fun key sess hsess hiid => ?_) (Nat.lt_of_not_le hfull)
        rw [lookup_select, Option.filter_eq_some_iff] at hsess
        obtain ⟨hlive, hdev⟩ := hsess
        -- a live session of the installation is one of the device, and those are deleted
        refine hmis (List.any_eq_true.mpr ⟨sess, mem_rows_of_lookup hlive, ?_⟩)
        have hhash : sess.deviceHash ≠ H secret := by
          simpa [hiid] using hdev
        simp [hiid, secureHashEqual, hhash]

end CreateSession

theorem execAuth_sessionsSound (h : SessionsSound s) : SessionsSound (execAuth env x call s).2 := by
  obtain ⟨t, hwrite, hprune⟩ := execAuth_write env x call s
  constructor
  · -- no credential in use is deleted, so it is enough to look at what is written
    intro key sess hsess
    rw [hprune.used (credentialInUse_of_session hsess)]
    have ht := hprune.sessions hsess
    cases hwrite with
    | credential cred => exact lookup_insert_ne_none cred (h.backed key sess ht)
    | issue => exact lookup_insert_ne_none _ (h.backed key sess ht)
    | session iid secret ttl token now hcred =>
      rw [lookup_insert_eq] at ht
      split_ifs at ht
      · cases ht
        exact hcred
      · exact h.backed key sess ht
    | renew expiresAt hrow =>
      rw [lookup_insert_eq] at ht
      split_ifs at ht
      · have hold := h.backed _ _ hrow
        cases ht
        exact hold
      · exact h.backed key sess ht
    | _ => exact h.backed key sess ht
  · cases hwrite with
    | session =>
      refine execAuth_state (P := fun s' => s'.sessions.Indexed (·.installationID) maxAuthSessions)
        h.indexed (fun _ => ?_) fun _ => ?_
      · exact createSession_indexed h.indexed
      · exact createSession_indexed h.indexed
    | renew expiresAt hrow =>
      refine Table.Indexed.fewer ?_ hprune.sessions
      exact h.indexed.rewrite hrow rfl
    | _ => exact h.indexed.fewer hprune.sessions

theorem SessionsSound.reordered (h : SessionsSound s) (hsame : s.Same t) : SessionsSound t where
  backed key sess hsession := by
    beta_reduce
    rw [← hsame.credentials]
    exact h.backed key sess ((hsame.sessions key).trans hsession)
  indexed := h.indexed.fewer fun {key _} hsession => (hsame.sessions key).trans hsession

theorem AuthReached.sessionsSound {may : AuthCall → Prop} (h : AuthReached env may s) :
    SessionsSound s := by
  induction h with
  | start => exact ⟨.empty, .empty⟩
  | call x _ _ ih => exact execAuth_sessionsSound ih
  | reorder _ hsame ih => exact ih.reordered hsame

/-! ## Pending logins and handoffs -/

/-- Records have a device hash, and a handoff comes with its credential. -/
def AuthCall.Regular : AuthCall → Prop
  | putPending _ r => r.deviceHash ≠ ""
  | putCredentialAndHandoff _ _ r => r.deviceHash ≠ ""
  | putHandoff _ _ => False
  | _ => True

/-- What the unique indexes and limits of both stores keep. -/
structure Represented (s : AuthDiskState) : Prop extends SessionsSound s where
  handoffsBacked : Backed s
  pendingIndexed : s.pending.Indexed PendingAuthRecord.device maxPendingAuthRecords
  handoffsIndexed : s.handoffs.Indexed AuthHandoffRecord.device maxAuthHandoffs

section PutPending

variable {state : String} {r : PendingAuthRecord}
  (h : s.pending.Indexed PendingAuthRecord.device maxPendingAuthRecords)
include h

theorem Memory.putPending_indexed (hdev : r.deviceHash ≠ "") :
    (putPending H now state r s).2.pending.Indexed PendingAuthRecord.device
      maxPendingAuthRecords := by
  have hclean := cleanupExpiredLocked_prunes now s
  simp only [putPending]
  split_ifs with hfull
  · exact h.fewer fun hp => hclean.pending (of_lookup_select hp)
  · refine h.replace (fun hp => hclean.pending (of_lookup_select hp))
      (fun key existing hp heq => ?_) (Nat.lt_of_not_le hfull)
    rw [lookup_select, Option.filter_eq_some_iff] at hp
    obtain ⟨hiid, hhash⟩ := Prod.mk.inj heq
    have hother := hp.2
    rw [hiid, hhash] at hother
    simp [secureHashEqual, hdev] at hother

theorem Postgres.putPending_indexed :
    (putPending H now state r s).2.pending.Indexed PendingAuthRecord.device
      maxPendingAuthRecords := by
  simp only [putPending]
  split_ifs with hfull
  · exact h
  · exact h
  · refine h.replace (fun hp => of_lookup_select (of_lookup_select hp))
      (fun key existing hp heq => ?_) (Nat.lt_of_not_le hfull)
    rw [lookup_select, Option.filter_eq_some_iff] at hp
    obtain ⟨hiid, hhash⟩ := Prod.mk.inj heq
    have hother := hp.2
    rw [hiid, hhash] at hother
    simp at hother

end PutPending

section PutHandoff

variable {code : String} {r : AuthHandoffRecord}
  (h : s.handoffs.Indexed AuthHandoffRecord.device maxAuthHandoffs)
include h

theorem Memory.putHandoff_indexed (hdev : r.deviceHash ≠ "") :
    (putHandoff H now code r s).2.handoffs.Indexed AuthHandoffRecord.device
      maxAuthHandoffs := by
  have hdistinct : (replaceHandoff (H code) r s.handoffs).Distinct
      AuthHandoffRecord.device := by
    refine (h.distinct.fewer of_lookup_select).insert fun key existing hh heq => ?_
    rw [lookup_select, Option.filter_eq_some_iff] at hh
    obtain ⟨hiid, hhash⟩ := Prod.mk.inj heq
    have hother := hh.2
    rw [hiid, hhash] at hother
    simp [secureHashEqual, hdev] at hother
  simp only [putHandoff]
  split_ifs with hfull
  · -- the new handoff is deleted again, and the others were there before
    refine h.fewer fun {key existing} hh => ?_
    have herase := (cleanupExpiredLocked_prunes now _).handoffs hh
    rw [lookup_erase_eq] at herase
    split_ifs at herase with hkey
    have hreplaced := (cleanupExpiredLocked_prunes now _).handoffs herase
    rw [replaceHandoff, lookup_insert_eq, if_neg hkey] at hreplaced
    exact of_lookup_select hreplaced
  · exact ⟨hdistinct.fewer (cleanupExpiredLocked_prunes now _).handoffs, Nat.le_of_not_lt hfull⟩

theorem Postgres.putHandoffTx_indexed {s' : AuthDiskState}
    (htx : putHandoffTx H now code r s = .ok s') :
    s'.handoffs.Indexed AuthHandoffRecord.device maxAuthHandoffs := by
  simp only [putHandoffTx] at htx
  split_ifs at htx with hfull
  cases htx
  refine h.replace (fun hh => of_lookup_select (of_lookup_select hh))
    (fun key existing hh heq => ?_) (Nat.lt_of_not_le hfull)
  rw [lookup_select, Option.filter_eq_some_iff] at hh
  obtain ⟨hiid, hhash⟩ := Prod.mk.inj heq
  have hother := hh.2
  rw [hiid, hhash] at hother
  simp at hother

end PutHandoff

theorem execAuth_pendingIndexed (hcall : call.Regular)
    (h : s.pending.Indexed PendingAuthRecord.device maxPendingAuthRecords) :
    (execAuth env x call s).2.pending.Indexed PendingAuthRecord.device maxPendingAuthRecords := by
  obtain ⟨t, hwrite, hprune⟩ := execAuth_write env x call s
  cases hwrite with
  | pending =>
    refine execAuth_state
      (P := fun s' => s'.pending.Indexed PendingAuthRecord.device maxPendingAuthRecords) h
      (fun _ => ?_) fun _ => ?_
    · exact putPending_indexed h hcall
    · exact putPending_indexed h
  | _ => exact h.fewer hprune.pending

theorem Memory.putCredentialAndHandoff_indexed {r : AuthHandoffRecord} (hdev : r.deviceHash ≠ "")
    (h : s.handoffs.Indexed AuthHandoffRecord.device maxAuthHandoffs) :
    (putCredentialAndHandoff H now cred code r s).2.handoffs.Indexed
      AuthHandoffRecord.device maxAuthHandoffs := by
  simp only [putCredentialAndHandoff]
  split_ifs
  · exact h
  · exact putHandoff_indexed
      (s := { s with credentials := s.credentials.insert cred.id cred }) h hdev

theorem Postgres.putCredentialAndHandoff_indexed
    {r : AuthHandoffRecord} (h : s.handoffs.Indexed AuthHandoffRecord.device maxAuthHandoffs) :
    (putCredentialAndHandoff H now cred code r s).2.handoffs.Indexed
      AuthHandoffRecord.device maxAuthHandoffs := by
  simp only [putCredentialAndHandoff]
  split_ifs
  · exact h
  · split
    · exact h
    · rename_i s' htx
      exact putHandoffTx_indexed
        (s := { s with credentials := s.credentials.insert cred.id cred }) h htx

theorem execAuth_handoffsIndexed (hcall : call.Regular)
    (h : s.handoffs.Indexed AuthHandoffRecord.device maxAuthHandoffs) :
    (execAuth env x call s).2.handoffs.Indexed AuthHandoffRecord.device maxAuthHandoffs := by
  obtain ⟨t, hwrite, hprune⟩ := execAuth_write env x call s
  cases hwrite with
  | handoff => exact absurd hcall id
  | issue =>
    refine execAuth_state
      (P := fun s' => s'.handoffs.Indexed AuthHandoffRecord.device maxAuthHandoffs) h
      (fun _ => ?_) fun _ => ?_
    · exact putCredentialAndHandoff_indexed hcall h
    · exact putCredentialAndHandoff_indexed h
  | _ => exact h.fewer hprune.handoffs

/-- **The representation invariant holds in every reachable state**, of either store. -/
theorem auth_store_represented (h : AuthReached env AuthCall.Regular s) : Represented s := by
  induction h with
  | start =>
    refine ⟨⟨.empty, .empty⟩, ?_, .empty, .empty⟩
    intro key r hrec
    rw [lookup_empty] at hrec
    cases hrec
  | call x _ hcall ih =>
    refine ⟨execAuth_sessionsSound ih.toSessionsSound, ?_,
      execAuth_pendingIndexed hcall ih.pendingIndexed,
      execAuth_handoffsIndexed hcall ih.handoffsIndexed⟩
    refine execAuth_backed ih.handoffsBacked fun code r heq => ?_
    rw [heq] at hcall
    exact hcall
  | reorder _ hsame ih =>
    refine ⟨ih.toSessionsSound.reordered hsame, fun key r hrec => ?_,
      ih.pendingIndexed.fewer fun {key _} h => (hsame.pending key).trans h,
      ih.handoffsIndexed.fewer fun {key _} h => (hsame.handoffs key).trans h⟩
    rw [← hsame.credentials]
    exact ih.handoffsBacked key r ((hsame.handoffs key).trans hrec)

/-- One device has signed in. -/
def signedInOnce : AuthDiskState :=
  let issued := (execAuth Env.mem {} (.putCredentialAndHandoff
    { id := "credential", clientID := "client", userID := "user", accessToken := "access",
      refreshToken := "refresh", accessExpiresAt := hour, lastValidatedAt := 1 } "code"
    { credentialID := "credential", installationID := "phone", deviceHash := "#secret",
      appCallbackURI := "", stateHash := "#state", createdAt := 1, expiresAt := hour }) {}).2
  (execAuth Env.mem { token := some "token" }
    (.createSession "credential" "phone" "secret" hour) issued).2

theorem signedInOnce_represented : signedInOnce.sessions.count = 1 ∧ Represented signedInOnce := by
  refine ⟨by decide, @auth_store_represented Env.mem _ ?_⟩
  refine .call _ (.call _ .start ?_) trivial
  show "#secret" ≠ ""
  decide

end Ferventio
