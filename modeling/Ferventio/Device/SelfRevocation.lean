import Ferventio.Auth.References
import Ferventio.OAuth.Lease
import Ferventio.Registration.Laws
import Ferventio.Server.Tasks

/-!
# A device revokes itself

`revokeMobileDevice` deletes the registration and the queue of the device before it asks the login
store, and the login store refuses when anything that is bound to the installation, also a login
that somebody else has only started, is bound to another secret. So a device may be refused after
half of the work was done.

* **`revokes_itself_iff`**: when the request is all or nothing.
* **`foreign_login_blocks_revocation`**: another client's `startMobileAuth` is enough.
-/

namespace Ferventio

open Prog Strings Table Memory

variable {sess : AuthSessionRecord} {call : Call} {status : Nat}
  {key text credID iid secret : String} {α : Type} {w w' : World} {now : Time} {x : Choice}
  {env : Env}

/-! ## Requests -/

/-- The meaning of the calls at one time, while storage succeeds. -/
def execAt (env : Env) (now : Time) (call : Call) (x : Choice) (w : World) :
    Option (call.Ans × World) :=
  if x.now = now then execStored env call x w else none

/-- The statuses of the answers. -/
def answers (tr : Trace) : List Nat :=
  tr.filterMap fun
    | ⟨.env (.respond status _), _⟩ => some status
    | _ => none

/-- The repositories are unchanged. -/
def SameStores (w w' : World) : Prop :=
  w'.registrations = w.registrations ∧ w'.deliveries = w.deliveries ∧ w'.auth = w.auth

theorem SameStores.trans {w w1 w' : World} (h : SameStores w w1) (h' : SameStores w1 w') :
    SameStores w w' :=
  ⟨h'.1.trans h.1, h'.2.1.trans h.2.1, h'.2.2.trans h.2.2⟩

section Calls

theorem execStored_of_execAt {a : call.Ans} (h : execAt env now call x w = some (a, w')) :
    x.now = now ∧ execStored env call x w = some (a, w') := by
  unfold execAt at h
  split_ifs at h with hnow
  exact ⟨hnow, h⟩

theorem execStored_sameStores {a : call.Ans} (h : execStored env call x w = some (a, w'))
    (hcall : registrationsAfter env x w.registrations call = w.registrations ∧
      deliveriesAfter env x w.deliveries call = w.deliveries ∧
      authAfter env x w.auth call = w.auth) : SameStores w w' := by
  obtain ⟨-, h⟩ := exec_of_execStored h
  exact ⟨(exec_registrations h).trans hcall.1, (exec_deliveries h).trans hcall.2.1,
    (exec_auth h).trans hcall.2.2⟩

/-- The call can be answered in every state. -/
def Answered (env : Env) (now : Time) (call : Call) : Prop :=
  ∀ w, ∃ x b w', execAt env now call x w = some (b, w')

theorem answered_of_exec
    (h : ∀ w, ∃ r, exec env call { now := now } w = some r) : Answered env now call := by
  intro w
  obtain ⟨⟨b, w'⟩, hexec⟩ := h w
  refine ⟨{ now := now }, b, w', ?_⟩
  rw [execAt, if_pos rfl, execStored, if_pos rfl]
  exact hexec

theorem answered_auth {call : AuthCall} : Answered env now (.auth call) :=
  answered_of_exec fun _ => ⟨_, rfl⟩

theorem answered_registration {call : RegistrationCall} : Answered env now (.registration call) :=
  answered_of_exec fun _ => ⟨_, rfl⟩

theorem answered_delivery {call : DeliveryCall} : Answered env now (.delivery call) :=
  answered_of_exec fun _ => ⟨_, rfl⟩

theorem answered_hub {call : HubCall} : Answered env now (.hub call) :=
  answered_of_exec fun _ => ⟨_, rfl⟩

theorem answered_respond : Answered env now (.env (.respond status text)) :=
  answered_of_exec fun _ => ⟨_, rfl⟩

theorem answered_reconcile : Answered env now (.env .requestEventSubReconcile) :=
  answered_of_exec fun _ => ⟨_, rfl⟩

theorem runs_respond {tr : Trace} (h : Runs (execStored env) (respond status text) w tr () w') :
    answers tr = [status] ∧ SameStores w w' := by
  obtain ⟨x, b, w1, tr1, hcall, rfl, hrest⟩ := h.of_call
  obtain ⟨rfl, -, rfl⟩ := hrest.of_ret
  exact ⟨rfl, execStored_sameStores hcall ⟨rfl, rfl, rfl⟩⟩

end Calls

/-! ## What the stores answer -/

/-- The registration has the secret. -/
def secretMatches (env : Env) (registration : Registration) (deviceSecret : String) : Bool :=
  match env.backend with
  | .memory => registrationSecretMatches env.hashSecret registration deviceSecret
  | .postgres => secureHashEqual registration.deviceSecretHash (env.hashSecret deviceSecret)

/-- Everything of the installation is bound to the secret. -/
structure Sole (env : Env) (iid secret : String) (s : AuthDiskState) : Prop where
  sessions : ∀ {key sess}, s.sessions.lookup key = some sess →
    sess.installationID = iid → secureHashEqual sess.deviceHash (env.hashSecret secret)
  pending : ∀ {key r}, s.pending.lookup key = some r →
    r.installationID = iid → secureHashEqual r.deviceHash (env.hashSecret secret)
  handoffs : ∀ {key handoff}, s.handoffs.lookup key = some handoff →
    handoff.installationID = iid → secureHashEqual handoff.deviceHash (env.hashSecret secret)

section Stores

theorem execRegistration_delete_eq (hfault : x.fault = none) (t : RegistrationTable) :
    execRegistration env x (.delete iid secret) t =
      match t.lookup iid with
      | none => (.error .registrationNotFound, t)
      | some reg =>
        if !secretMatches env reg secret then (.error .deviceSecretMismatch, t)
        else (.ok (), t.erase iid) := by
  unfold execRegistration secretMatches
  cases env.backend with
  | memory => rfl
  | postgres =>
    dsimp only [Postgres.execRegistration]
    rw [withFault, hfault]
    rfl

theorem execRegistration_authenticate_eq (hfault : x.fault = none) (t : RegistrationTable) :
    execRegistration env x (.authenticate iid secret) t =
      (match t.lookup iid with
        | none => .error .registrationNotFound
        | some reg =>
          if !secretMatches env reg secret then .error .deviceSecretMismatch
          else .ok (publicRegistration reg), t) := by
  unfold execRegistration secretMatches
  cases env.backend with
  | memory => rfl
  | postgres =>
    dsimp only [Postgres.execRegistration]
    rw [withFault, hfault]
    rfl

theorem execDelivery_deleteForInstallation (env : Env) (hfault : x.fault = none)
    (iid : String) (s : DeliveryDiskState) :
    ∃ removed, (execDelivery env x (.deleteForInstallation iid) s).1 = .ok removed := by
  unfold execDelivery
  cases env.backend with
  | memory => exact ⟨_, rfl⟩
  | postgres =>
    dsimp only [Postgres.execDelivery]
    rw [withFault, hfault]
    exact ⟨_, rfl⟩

theorem execAuth_resolveSession_eq (hfault : x.fault = none) (token : String) (ttl : Duration)
    (s : AuthDiskState) :
    execAuth env x (.resolveSession token iid secret ttl) s =
      resolveSession env.hashSecret x.now token iid secret ttl s := by
  unfold execAuth
  cases env.backend with
  | memory => rfl
  | postgres =>
    dsimp only [Postgres.execAuth]
    rw [withFault, hfault]
    rfl

theorem execAuth_installationBinding_eq (hfault : x.fault = none) (s : AuthDiskState) :
    execAuth env x (.installationBinding iid secret) s =
      (installationBinding env.hashSecret iid secret s, s) := by
  unfold execAuth
  cases env.backend with
  | memory => rfl
  | postgres =>
    dsimp only [Postgres.execAuth]
    rw [withFault, hfault]
    rfl

theorem all_bound_iff {installation device : α → String} {deviceHash : String}
    {t : Table String α} :
    (∀ hash ∈ (t.rows.filter (installation · == iid)).map device,
        secureHashEqual hash deviceHash) ↔
      ∀ {key row}, t.lookup key = some row → installation row = iid →
        secureHashEqual (device row) deviceHash := by
  simp only [List.mem_map, List.mem_filter, beq_iff_eq, mem_rows_iff]
  constructor
  · intro h key row hrow hiid
    exact h _ ⟨row, ⟨⟨key, hrow⟩, hiid⟩, rfl⟩
  · rintro h _ ⟨row, ⟨⟨key, hrow⟩, hiid⟩, rfl⟩
    exact h hrow hiid

theorem sole_iff {s : AuthDiskState} :
    Sole env iid secret s ↔ ∀ hash ∈ boundDevices iid s,
      secureHashEqual hash (env.hashSecret secret) := by
  unfold boundDevices
  simp only [List.mem_append, or_imp, forall_and]
  rw [all_bound_iff, all_bound_iff, all_bound_iff]
  exact ⟨fun h => ⟨⟨h.sessions, h.pending⟩, h.handoffs⟩, fun h => ⟨h.1.1, h.1.2, h.2⟩⟩

theorem revokeRows_table {installation device : α → String} {hash : String}
    {entries : List (Row String α)} {t : Table String α} (hperm : entries.Perm t.entries) :
    (revokeRows installation device iid hash entries t).1 ↔
      ∀ {key row}, t.lookup key = some row → installation row = iid →
        secureHashEqual (device row) hash := by
  rw [revokeRows_fst]
  constructor
  · exact fun h key row hrow => h ⟨key, row⟩ (hperm.mem_iff.mpr (mem_entries_iff.mpr hrow))
  · exact fun h e he => h (mem_entries_iff.mp (hperm.mem_iff.mp he))

theorem Memory.revokeInstallation_answer (s : AuthDiskState) (visits : Visits s) :
    (Sole env iid secret s ∧
        ∃ removed, (revokeInstallation env.hashSecret iid secret s visits).1 =
          .ok removed) ∨
      ¬Sole env iid secret s ∧
        (revokeInstallation env.hashSecret iid secret s visits).1 = .error .authDeviceMismatch := by
  rw [revokeInstallation]
  dsimp only
  split_ifs with hsessions hpend hhandoffs
  · refine .inr ⟨fun hsole => ?_, rfl⟩
    rw [(revokeRows_table visits.sessions_perm).mpr hsole.sessions] at hsessions
    cases hsessions
  · refine .inr ⟨fun hsole => ?_, rfl⟩
    rw [(revokeRows_table visits.pending_perm).mpr hsole.pending] at hpend
    cases hpend
  · refine .inr ⟨fun hsole => ?_, rfl⟩
    rw [(revokeRows_table visits.handoffs_perm).mpr hsole.handoffs] at hhandoffs
    cases hhandoffs
  · rw [Bool.not_eq_true, Bool.not_eq_false'] at hsessions hpend hhandoffs
    exact .inl ⟨⟨(revokeRows_table visits.sessions_perm).mp hsessions,
      (revokeRows_table visits.pending_perm).mp hpend,
      (revokeRows_table visits.handoffs_perm).mp hhandoffs⟩, _, rfl⟩

theorem Postgres.revokeInstallation_answer (s : AuthDiskState) :
    (Sole env iid secret s ∧
        ∃ removed, (revokeInstallation env.hashSecret iid secret s).1 =
          .ok removed) ∨
      ¬Sole env iid secret s ∧
        (revokeInstallation env.hashSecret iid secret s).1 = .error .authDeviceMismatch := by
  have hsole : Sole env iid secret s ↔
      ((boundDevices iid s).any fun device =>
        !secureHashEqual device (env.hashSecret secret)) = false := by
    rw [sole_iff, List.any_eq_false]
    exact forall₂_congr fun device _ => by rw [Bool.not_eq_true, Bool.not_eq_false']
  rw [revokeInstallation]
  dsimp only
  split_ifs with hmis hnone
  · refine .inr ⟨fun h => ?_, rfl⟩
    rw [hsole.mp h] at hmis
    cases hmis
  · exact .inl ⟨hsole.mpr (Bool.not_eq_true _ ▸ hmis), _, rfl⟩
  · exact .inl ⟨hsole.mpr (Bool.not_eq_true _ ▸ hmis), _, rfl⟩

theorem execAuth_revokeInstallation_answer (env : Env) (hfault : x.fault = none)
    (iid secret : String) (s : AuthDiskState) :
    (Sole env iid secret s ∧
        ∃ removed, (execAuth env x (.revokeInstallation iid secret) s).1 =
          .ok removed) ∨
      ¬Sole env iid secret s ∧
        (execAuth env x (.revokeInstallation iid secret) s).1 = .error .authDeviceMismatch := by
  unfold execAuth
  cases env.backend with
  | memory => exact revokeInstallation_answer s (x.visits s)
  | postgres =>
    dsimp only [Postgres.execAuth]
    rw [withFault, hfault]
    exact Postgres.revokeInstallation_answer s

end Stores

/-! ## The ways of a request -/

section Requests

variable {tr : Trace}

/-- The registration, if any, is the caller's. -/
def OwnRegistration (env : Env) (iid secret : String) (t : RegistrationTable) :
    Prop :=
  ∀ reg, t.lookup iid = some reg → secretMatches env reg secret

theorem revokeQueueAndLogin_cases
    (h : Runs (execStored env) (revokeQueueAndLogin iid secret) w tr () w') :
    w'.registrations = w.registrations ∧
      (Sole env iid secret w.auth ∧ answers tr = [204] ∧
          (∀ key sess, w'.auth.sessions.lookup key = some sess →
            sess.installationID ≠ iid) ∨
        ¬Sole env iid secret w.auth ∧ answers tr = [403]) := by
  obtain ⟨x, removed, w1, tr1, hcall, rfl, hlogin⟩ := h.of_perform
  obtain ⟨hfault, rfl, rfl⟩ := execStored_delivery hcall
  obtain ⟨count, hcount⟩ := execDelivery_deleteForInstallation env hfault iid w.deliveries
  rw [hcount] at hlogin
  obtain ⟨x', revoked, w2, tr2, hcall', rfl, hend⟩ := hlogin.of_perform
  obtain ⟨hfault', rfl, rfl⟩ := execStored_auth hcall'
  dsimp only at hend
  rcases execAuth_revokeInstallation_answer env hfault' iid secret w.auth with
    ⟨hsole, sessions, hok⟩ | ⟨hsole, herror⟩
  · rw [hok] at hend
    obtain ⟨x3, _, w3, tr3, hclose, rfl, hend3⟩ := hend.of_perform
    obtain ⟨x4, _, w4, tr4, hresp, rfl, hend4⟩ := hend3.of_perform
    obtain ⟨x5, _, w5, tr5, hreconcile, rfl, hend5⟩ := hend4.of_call
    obtain ⟨rfl, -, rfl⟩ := hend5.of_ret
    have hsame3 := execStored_sameStores hclose ⟨rfl, rfl, rfl⟩
    have hsame4 := execStored_sameStores hresp ⟨rfl, rfl, rfl⟩
    have hsame5 := execStored_sameStores hreconcile ⟨rfl, rfl, rfl⟩
    have hsame := (hsame3.trans hsame4).trans hsame5
    refine ⟨hsame.1, .inl ⟨hsole, rfl, fun key sess hsess => ?_⟩⟩
    rw [hsame.2.2] at hsess
    exact execAuth_revokeInstallation hok hsess
  · rw [herror] at hend
    obtain ⟨hans, hsame⟩ := runs_respond hend
    exact ⟨hsame.1, .inr ⟨hsole, hans⟩⟩

theorem revokeDevice_cases (h : Runs (execStored env) (revokeDevice iid secret) w tr () w') :
    (¬OwnRegistration env iid secret w.registrations ∧ answers tr = [403] ∧
        SameStores w w') ∨
      OwnRegistration env iid secret w.registrations ∧
        w'.registrations.lookup iid = none ∧
        (Sole env iid secret w.auth ∧ answers tr = [204] ∧
            (∀ key sess, w'.auth.sessions.lookup key = some sess →
              sess.installationID ≠ iid) ∨
          ¬Sole env iid secret w.auth ∧ answers tr = [403]) := by
  obtain ⟨x, deleted, w1, tr1, hcall, rfl, hrest⟩ := h.of_perform
  obtain ⟨hfault, rfl, rfl⟩ := execStored_registration hcall
  rw [execRegistration_delete_eq hfault] at hrest
  cases hget : w.registrations.lookup iid with
  | none =>
    rw [hget] at hrest
    have hown : OwnRegistration env iid secret w.registrations := by
      intro reg hreg
      rw [hget] at hreg
      cases hreg
    obtain ⟨hregs, hcases⟩ := revokeQueueAndLogin_cases hrest
    refine .inr ⟨hown, ?_, hcases⟩
    rw [hregs]
    exact hget
  | some reg =>
    rw [hget] at hrest
    dsimp only at hrest
    by_cases hmatch : secretMatches env reg secret
    · rw [hmatch] at hrest
      have hown : OwnRegistration env iid secret w.registrations := by
        intro reg' hreg
        rw [hget] at hreg
        cases hreg
        exact hmatch
      obtain ⟨hregs, hcases⟩ := revokeQueueAndLogin_cases hrest
      refine .inr ⟨hown, ?_, hcases⟩
      rw [hregs]
      exact (lookup_erase_eq ..).trans (if_pos rfl)
    · rw [Bool.not_eq_true] at hmatch
      rw [hmatch] at hrest
      obtain ⟨hans, hsame⟩ := runs_respond hrest
      refine .inl ⟨fun hown => ?_, hans, hsame⟩
      rw [hown reg hget] at hmatch
      cases hmatch

theorem revokeStaleDevice_cases
    (h : Runs (execStored env) (revokeStaleDevice iid secret) w tr () w') :
    (w.registrations.lookup iid = none ∧ answers tr = [204]) ∨
      (¬OwnRegistration env iid secret w.registrations ∧ answers tr = [403] ∧
        SameStores w w') ∨
      w.registrations.lookup iid ≠ none ∧
        OwnRegistration env iid secret w.registrations ∧
        ∃ tr1, answers tr = answers tr1 ∧
          Runs (execStored env) (revokeDevice iid secret) w tr1 () w' := by
  obtain ⟨x, ans, w1, tr1, hcall, rfl, hrest⟩ := h.of_perform
  obtain ⟨hfault, rfl, rfl⟩ := execStored_registration hcall
  rw [execRegistration_authenticate_eq hfault] at hrest
  dsimp only at hrest
  cases hget : w.registrations.lookup iid with
  | none =>
    rw [hget] at hrest
    exact .inl ⟨rfl, (runs_respond hrest).1⟩
  | some reg =>
    rw [hget] at hrest
    dsimp only at hrest
    by_cases hmatch : secretMatches env reg secret
    · rw [hmatch] at hrest
      refine .inr (.inr ⟨nofun, fun reg' hreg => ?_, tr1, rfl, hrest⟩)
      rw [hget] at hreg
      cases hreg
      exact hmatch
    · rw [Bool.not_eq_true] at hmatch
      rw [hmatch] at hrest
      obtain ⟨hans, hsame⟩ := runs_respond hrest
      refine .inr (.inl ⟨fun hown => ?_, hans, hsame⟩)
      rw [hown reg hget] at hmatch
      cases hmatch

/-- The token is that of a live session of the device. -/
def Live (env : Env) (now : Time) (device : DeviceCredentials) (s : AuthDiskState) : Prop :=
  ∃ sess, s.sessions.lookup (env.hashSecret device.token) = some sess ∧
    now ≤ sess.expiresAt ∧ sess.installationID = trimSpace device.installationID ∧
      secureHashEqual sess.deviceHash (env.hashSecret (trimSpace device.deviceSecret))

variable {s : AuthDiskState}

theorem sole_renewed {sess' : AuthSessionRecord} (hsess : s.sessions.lookup key = some sess)
    (hiid : sess'.installationID = sess.installationID)
    (hdev : sess'.deviceHash = sess.deviceHash) :
    Sole env iid secret { s with sessions := s.sessions.insert key sess' } ↔
      Sole env iid secret s := by
  constructor
  · intro h
    refine ⟨fun {key' row} hrow hbound => ?_, h.pending, h.handoffs⟩
    by_cases hkey : key' = key
    · rw [hkey, hsess] at hrow
      cases hrow
      rw [← hdev]
      refine h.sessions ((lookup_insert_eq ..).trans (if_pos rfl)) ?_
      rw [hiid, hbound]
    · exact h.sessions (((lookup_insert_eq ..).trans (if_neg hkey)).trans hrow) hbound
  · intro h
    refine ⟨fun {key' row} hrow hbound => ?_, h.pending, h.handoffs⟩
    dsimp only at hrow
    rw [lookup_insert_eq] at hrow
    split_ifs at hrow
    · cases hrow
      rw [hdev]
      exact h.sessions hsess (hiid.symm.trans hbound)
    · exact h.sessions hrow hbound

/-- **Resolving a session**: it is unknown, expired, another device's, or live. -/
theorem resolveSession_cases (device : DeviceCredentials) (ttl : Duration) (s : AuthDiskState) :
    let r := resolveSession env.hashSecret now device.token
      (trimSpace device.installationID) (trimSpace device.deviceSecret) ttl s
    (s.sessions.lookup (env.hashSecret device.token) = none ∧ r = (.error .authNotFound, s)) ∨
      (∃ sess, s.sessions.lookup (env.hashSecret device.token) = some sess ∧
        sess.expiresAt < now ∧ r = (.error .authExpired, dropIfUnused sess.credentialID
          { s with sessions := s.sessions.erase (env.hashSecret device.token) })) ∨
      (¬Live env now device s ∧
        (∀ sess, s.sessions.lookup (env.hashSecret device.token) = some sess →
          now ≤ sess.expiresAt) ∧ r = (.error .authDeviceMismatch, s)) ∨
      Live env now device s ∧ ∃ sess, r.1 = .ok sess ∧
        ∀ iid secret, Sole env iid secret r.2 ↔ Sole env iid secret s := by
  dsimp only
  rw [resolveSession]
  dsimp only
  cases hsess : s.sessions.lookup (env.hashSecret device.token) with
  | none => exact .inl ⟨rfl, rfl⟩
  | some sess =>
    dsimp only
    by_cases hexp : now > sess.expiresAt
    · rw [if_pos hexp]
      exact .inr (.inl ⟨sess, rfl, hexp, rfl⟩)
    rw [if_neg hexp]
    have hcur : now ≤ sess.expiresAt := Int.not_lt.mp hexp
    split_ifs with hmis hrenew
    · refine .inr (.inr (.inl ⟨?_, fun sess' h => ?_, rfl⟩))
      · rintro ⟨sess', hsess', -, hiid, hdev⟩
        rw [hsess] at hsess'
        cases hsess'
        rcases hmis with hother | hother
        · exact hother hiid
        · rw [hdev] at hother
          cases hother
      · cases h
        exact hcur
    all_goals
      rw [not_or, not_ne_iff, Bool.not_eq_true, Bool.not_eq_false'] at hmis
      have hlive : Live env now device s := ⟨sess, hsess, hcur, hmis.1, hmis.2⟩
    · exact .inr (.inr (.inr ⟨hlive, _, rfl, fun _ _ => sole_renewed hsess rfl rfl⟩))
    · exact .inr (.inr (.inr ⟨hlive, _, rfl, fun _ _ => Iff.rfl⟩))

theorem sole_dropIfUnused :
    Sole env iid secret (dropIfUnused credID s) ↔ Sole env iid secret s := by
  unfold dropIfUnused
  split
  · exact Iff.rfl
  · exact ⟨fun h => ⟨h.sessions, h.pending, h.handoffs⟩,
      fun h => ⟨h.sessions, h.pending, h.handoffs⟩⟩

theorem revokeUnknown_refused (h : Runs (execStored env) (revokeUnknown iid secret) w tr () w') :
    403 ∈ answers tr → SameStores w w' := by
  obtain ⟨x, ans, w1, tr1, hcall, rfl, hrest⟩ := h.of_perform
  obtain ⟨hfault, rfl, rfl⟩ := execStored_auth hcall
  rw [execAuth_installationBinding_eq hfault, installationBinding] at hrest
  dsimp only at hrest
  intro hrefused
  have hrefused : 403 ∈ answers tr1 := hrefused
  split_ifs at hrest with hbound hsome
  · obtain ⟨hans, -⟩ := runs_respond hrest
    rw [hans] at hrefused
    exact absurd hrefused (by decide)
  · exact (runs_respond hrest).2
  · rw [ne_eq, not_not] at hsome
    have hsole : Sole env iid secret w.auth := by
      rw [sole_iff, hsome]
      intro hash hhash
      cases hhash
    rcases revokeStaleDevice_cases hrest with ⟨-, hans⟩ | ⟨-, -, hsame⟩ |
      ⟨-, hown, tr2, heq, hdev⟩
    · rw [hans] at hrefused
      exact absurd hrefused (by decide)
    · exact hsame
    · rcases revokeDevice_cases hdev with ⟨-, -, hsame⟩ | ⟨-, -, ⟨-, hans, -⟩ | ⟨hforeign, -⟩⟩
      · exact hsame
      · rw [heq, hans] at hrefused
        exact absurd hrefused (by decide)
      · exact absurd hsole hforeign

/-- No credential is missing. -/
structure DeviceCredentials.Complete (device : DeviceCredentials) : Prop where
  token : device.token ≠ ""
  installationID : trimSpace device.installationID ≠ ""
  deviceSecret : trimSpace device.deviceSecret ≠ ""

variable {device : DeviceCredentials}

theorem DeviceCredentials.Complete.present (h : device.Complete) :
    ¬(device.token = "" ∨ trimSpace device.installationID = "" ∨
      trimSpace device.deviceSecret = "") := by
  rintro (hempty | hempty | hempty)
  · exact h.token hempty
  · exact h.installationID hempty
  · exact h.deviceSecret hempty

/-- **The ways of a request**: the session is live, or has expired, or a refusal changes nothing. -/
theorem revokeMobileDevice_cases (hon : env.cfg.authEnabled) (hcomp : device.Complete)
    (h : Runs (execAt env now) (revokeMobileDevice env device) w tr () w') :
    (Live env now device w.auth ∧ ∃ w1 tr1, w1.registrations = w.registrations ∧
        (Sole env (trimSpace device.installationID) (trimSpace device.deviceSecret) w1.auth ↔
          Sole env (trimSpace device.installationID) (trimSpace device.deviceSecret) w.auth) ∧
        answers tr = answers tr1 ∧ Runs (execStored env) (revokeDevice
          (trimSpace device.installationID) (trimSpace device.deviceSecret)) w1 tr1 () w') ∨
      (∃ sess, w.auth.sessions.lookup (env.hashSecret device.token) = some sess ∧
        sess.expiresAt < now ∧ ∃ w1 tr1, w1.registrations = w.registrations ∧
          w1.auth = dropIfUnused sess.credentialID
            { w.auth with sessions := w.auth.sessions.erase (env.hashSecret device.token) } ∧
          answers tr = answers tr1 ∧ Runs (execStored env) (revokeStaleDevice
            (trimSpace device.installationID) (trimSpace device.deviceSecret)) w1 tr1 () w') ∨
      (∀ sess, w.auth.sessions.lookup (env.hashSecret device.token) = some sess →
          now ≤ sess.expiresAt) ∧
        ¬Live env now device w.auth ∧ (403 ∈ answers tr → SameStores w w') := by
  rw [revokeMobileDevice, withAuthBroker, if_pos hon] at h
  dsimp only at h
  rw [if_neg hcomp.present] at h
  obtain ⟨x, resolved, w1, tr1, hcall, rfl, hrest⟩ := h.of_perform
  obtain ⟨rfl, hstored⟩ := execStored_of_execAt hcall
  obtain ⟨hfault, rfl, rfl⟩ := execStored_auth hstored
  have hrest := hrest.mono fun _ _ _ r h => (execStored_of_execAt (a := r.1) h).2
  rw [execAuth_resolveSession_eq hfault] at hrest
  rcases resolveSession_cases device env.cfg.authSessionTTL w.auth with ⟨hnone, hr⟩ |
    ⟨sess, hsess, hexp, hr⟩ | ⟨hlive, hcur, hr⟩ | ⟨hlive, sess, hr, hsole⟩
  · refine .inr (.inr ⟨fun sess hsess => ?_, ?_, ?_⟩)
    · rw [hnone] at hsess
      cases hsess
    · rintro ⟨sess, hsess, -⟩
      rw [hnone] at hsess
      cases hsess
    · rw [hr] at hrest
      have hunknown : Runs (execStored env) (revokeUnknown (trimSpace device.installationID)
        (trimSpace device.deviceSecret)) w tr1 () w' := hrest
      show 403 ∈ answers tr1 → SameStores w w'
      exact revokeUnknown_refused hunknown
  · rw [hr] at hrest
    refine .inr (.inl ⟨sess, hsess, hexp, _, tr1, ?_, ?_, ?_, hrest⟩) <;> rfl
  · rw [hr] at hrest
    exact .inr (.inr ⟨hcur, hlive, fun _ => (runs_respond hrest).2⟩)
  · rw [hr] at hrest
    refine .inl ⟨hlive, _, tr1, ?_, hsole _ _, ?_, hrest⟩ <;> rfl

/-! ## All or nothing -/

/-- **All or nothing**: the request is answered; with a live session by 204, leaving no session of
the installation; and a 403 changes nothing. -/
def RevokesItself (env : Env) (now : Time) (device : DeviceCredentials) (w : World) : Prop :=
  (∃ tr w', Runs (execAt env now) (revokeMobileDevice env device) w tr () w') ∧
    ∀ tr w', Runs (execAt env now) (revokeMobileDevice env device) w tr () w' →
      (Live env now device w.auth → answers tr = [204] ∧
        ∀ key sess, w'.auth.sessions.lookup key = some sess →
          sess.installationID ≠ trimSpace device.installationID) ∧
      (403 ∈ answers tr → SameStores w w')

/-- With a live session the registration, if any, and all logins of the installation have the
caller's secret; with an expired one there is no registration, or this holds apart from the
session. -/
def Unobstructed (env : Env) (now : Time) (device : DeviceCredentials) (w : World) : Prop :=
  let iid := trimSpace device.installationID
  let secret := trimSpace device.deviceSecret
  (Live env now device w.auth →
    OwnRegistration env iid secret w.registrations ∧
      Sole env iid secret w.auth) ∧
  ∀ sess, w.auth.sessions.lookup (env.hashSecret device.token) = some sess →
    sess.expiresAt < now →
      w.registrations.lookup iid = none ∨
        OwnRegistration env iid secret w.registrations ∧
          Sole env iid secret
            { w.auth with sessions := w.auth.sessions.erase (env.hashSecret device.token) }

theorem revokeDevice_answered (iid secret : String) :
    (revokeDevice iid secret).Only (Answered env now) fun _ _ => True := by
  refine .perform_bind answered_registration fun deleted _ => ?_
  dsimp only
  split
  · split <;> exact ⟨answered_respond, fun _ _ => trivial⟩
  refine .perform_bind answered_delivery fun removed _ => ?_
  cases removed with
  | error => exact ⟨answered_respond, fun _ _ => trivial⟩
  | ok count =>
    refine .perform_bind answered_auth fun revoked _ => ?_
    cases revoked with
    | error =>
      dsimp only
      split <;> exact ⟨answered_respond, fun _ _ => trivial⟩
    | ok =>
      refine .perform_bind answered_hub fun _ _ => ?_
      refine .perform_bind answered_respond fun _ _ => ?_
      exact ⟨answered_reconcile, fun _ _ => trivial⟩

theorem revokeStaleDevice_answered (iid secret : String) :
    (revokeStaleDevice iid secret).Only (Answered env now) fun _ _ => True := by
  refine .perform_bind answered_registration fun ans _ => ?_
  cases ans with
  | error =>
    dsimp only
    split_ifs <;> exact ⟨answered_respond, fun _ _ => trivial⟩
  | ok => exact revokeDevice_answered iid secret

theorem revokeMobileDevice_answered (device : DeviceCredentials) :
    (revokeMobileDevice env device).Only (Answered env now) fun _ _ => True := by
  have hresp : ∀ status text, (respond status text).Only (Answered env now) fun _ _ => True :=
    fun status text => ⟨answered_respond, fun _ _ => trivial⟩
  have hstale : (revokeStaleDevice (trimSpace device.installationID)
      (trimSpace device.deviceSecret)).Only (Answered env now) fun _ _ => True :=
    revokeStaleDevice_answered _ _
  rw [revokeMobileDevice, withAuthBroker]
  dsimp only
  split_ifs
  · exact hresp _ _
  · refine .perform_bind answered_auth fun resolved _ => ?_
    cases resolved with
    | ok => exact revokeDevice_answered _ _
    | error =>
      dsimp only
      split_ifs
      · exact hresp _ _
      · refine .perform_bind answered_auth fun bound _ => ?_
        split
        · exact hresp _ _
        · exact hstale
        · split_ifs
          · exact hresp _ _
          · exact hresp _ _
          · exact hstale
      · exact hstale
      · exact hresp _ _
  · exact hresp _ _

theorem live_current (hlive : Live env now device s)
    (hsess : s.sessions.lookup (env.hashSecret device.token) = some sess) :
    ¬sess.expiresAt < now := by
  obtain ⟨sess', hsess', hcur, -⟩ := hlive
  rw [hsess] at hsess'
  cases hsess'
  exact Int.not_lt.mpr hcur

theorem lookup_dropIfUnused_erase :
    (dropIfUnused credID { s with sessions := s.sessions.erase key }).sessions.lookup key =
      none := by
  unfold dropIfUnused
  split <;> exact (lookup_erase_eq ..).trans (if_pos rfl)

theorem revokeDevice_served (hown : OwnRegistration env iid secret w.registrations)
    (hsole : Sole env iid secret w.auth)
    (h : Runs (execStored env) (revokeDevice iid secret) w tr () w') :
    answers tr = [204] ∧ ∀ key sess, w'.auth.sessions.lookup key = some sess →
      sess.installationID ≠ iid := by
  rcases revokeDevice_cases h with ⟨hforeign, -⟩ | ⟨-, -, ⟨-, hdone⟩ | ⟨hforeign, -⟩⟩
  · exact absurd hown hforeign
  · exact hdone
  · exact absurd hsole hforeign

/-- **When a device revokes itself, all or nothing.** -/
theorem revokes_itself_iff (hon : env.cfg.authEnabled) (hcomp : device.Complete) :
    RevokesItself env now device w ↔ Unobstructed env now device w := by
  constructor
  · rintro ⟨⟨tr, w', hrun⟩, hall⟩
    obtain ⟨hserved, hunchanged⟩ := hall tr w' hrun
    rcases revokeMobileDevice_cases hon hcomp hrun with
      ⟨hlive, w1, tr1, hregistrations, hsole, hans, hdev⟩ |
      ⟨sess, hsession, hexp, w1, tr1, hregistrations, hauth, hans, hstale⟩ |
      ⟨hcur, hlive, -⟩
    · -- a device with a live sess is served
      refine ⟨fun _ => ?_, fun sess hsession hexp =>
        absurd hexp (live_current hlive hsession)⟩
      have hdone := (hserved hlive).1
      rw [hans] at hdone
      rcases revokeDevice_cases hdev with ⟨-, hrefused, -⟩ | ⟨hown, -, ⟨hbound, -⟩ | ⟨-, hrefused⟩⟩
      · rw [hrefused] at hdone
        cases hdone
      · rw [hregistrations] at hown
        exact ⟨hown, hsole.mp hbound⟩
      · rw [hrefused] at hdone
        cases hdone
    · -- a refusal would have changed something
      refine ⟨fun hlive => absurd hexp (live_current hlive hsession), fun sess' hsession' _ => ?_⟩
      rw [← hregistrations]
      have hsame : 403 ∈ answers tr1 → SameStores w w' := hans ▸ hunchanged
      rcases revokeStaleDevice_cases hstale with ⟨hnone, -⟩ | ⟨-, hrefused, hstores⟩ |
        ⟨-, hown, tr2, hans2, hdev⟩
      · exact .inl hnone
      · have hsessions := congrArg (·.sessions.lookup (env.hashSecret device.token))
          (hsame (by rw [hrefused]; decide)).2.2
        rw [hstores.2.2, hauth, hsession, lookup_dropIfUnused_erase] at hsessions
        cases hsessions
      · rcases revokeDevice_cases hdev with ⟨hforeign, -⟩ | ⟨-, hnone, ⟨hbound, -⟩ | ⟨-, hrefused⟩⟩
        · exact absurd hown hforeign
        · rw [hauth, sole_dropIfUnused] at hbound
          exact .inr ⟨hown, hbound⟩
        · have hregistrations' := (hsame (by rw [hans2, hrefused]; decide)).1
          rw [hregistrations', ← hregistrations] at hnone
          exact .inl hnone
    · exact ⟨fun h => absurd h hlive, fun sess hsession hexp =>
        absurd (hcur sess hsession) (Int.not_le.mpr hexp)⟩
  · rintro ⟨hlive, hexp⟩
    refine ⟨?_, fun tr w' hrun => ?_⟩
    · obtain ⟨tr, _, w', hrun⟩ := exists_runs (revokeMobileDevice_answered device) w
      exact ⟨tr, w', hrun⟩
    · rcases revokeMobileDevice_cases hon hcomp hrun with
        ⟨hlive', w1, tr1, hregistrations, hsole, hans, hdev⟩ |
        ⟨sess, hsession, hexp', w1, tr1, hregistrations, hauth, hans, hstale⟩ |
        ⟨-, hlive', hunchanged⟩
      · obtain ⟨hown, hbound⟩ := hlive hlive'
        rw [← hregistrations] at hown
        obtain ⟨hdone, hremoved⟩ := revokeDevice_served hown (hsole.mpr hbound) hdev
        rw [hans, hdone]
        exact ⟨fun _ => ⟨rfl, hremoved⟩, fun h => absurd h (by decide)⟩
      · refine ⟨fun hlive' => absurd hexp' (live_current hlive' hsession), fun hrefused => ?_⟩
        rw [hans] at hrefused
        rcases revokeStaleDevice_cases hstale with ⟨-, hdone⟩ | ⟨hforeign, -⟩ |
          ⟨hstored, -, tr2, hans2, hdev⟩
        · rw [hdone] at hrefused
          exact absurd hrefused (by decide)
        · rcases hexp sess hsession hexp' with hnone | ⟨hown, -⟩
          · refine absurd (fun reg hregistration => ?_) hforeign
            rw [hregistrations, hnone] at hregistration
            cases hregistration
          · rw [hregistrations] at hforeign
            exact absurd hown hforeign
        · rcases hexp sess hsession hexp' with hnone | ⟨hown, hbound⟩
          · rw [hregistrations] at hstored
            exact absurd hnone hstored
          · rw [← hregistrations] at hown
            rw [← sole_dropIfUnused, ← hauth] at hbound
            rw [hans2, (revokeDevice_served hown hbound hdev).1] at hrefused
            exact absurd hrefused (by decide)
      · exact ⟨fun h => absurd h hlive', hunchanged⟩

end Requests

/-! ## Requests that are written out -/

/-- The phone. -/
def phoneCaller : DeviceCredentials :=
  { token := "fsv1_a", installationID := "phone", deviceSecret := phoneSecret }

theorem phoneCaller_complete : phoneCaller.Complete := ⟨by decide, by decide, by decide⟩

/-- The phone is registered and signed in, alone. -/
def phoneBound : World :=
  { registrations := AList.insert "phone" phone ∅
    auth :=
      { sessions := AList.insert "#fsv1_a"
          { credentialID := "fc1_a", installationID := "phone", deviceHash := "#" ++ phoneSecret
            createdAt := 0, expiresAt := 24 * hour } ∅ } }

theorem phoneBound_unobstructed : Unobstructed .pg 1 phoneCaller phoneBound := by
  refine ⟨fun _ => ⟨fun reg h => ?_, fun {key sess} h _ => ?_, fun h => ?_, fun h => ?_⟩,
    fun sess h hexp => ?_⟩
  · cases h
    decide
  · simp only [phoneBound, lookup_insert_eq] at h
    split_ifs at h
    · cases h
      decide
    · cases h
  · cases h
  · cases h
  · cases h
    exact absurd hexp (by decide)

theorem phoneBound_revokes_itself :
    Unobstructed .pg 1 phoneCaller phoneBound ∧ RevokesItself .pg 1 phoneCaller phoneBound :=
  ⟨phoneBound_unobstructed,
    (revokes_itself_iff rfl phoneCaller_complete).mpr phoneBound_unobstructed⟩

/-- A random token, and Twitch's answers. -/
def loginChoice : Choice :=
  { token := some "a"
    tokenResponse := { accessToken := "access", refreshToken := "refresh", expiresIn := 36000 }
    validation := { clientID := "client", userID := "7", login := "viewer", expiresIn := 36000 } }

/-- The phone signs in and registers; another client starts a login as `phone`. -/
def foreignLogin (env : Env) : Handler Unit := do
  startMobileAuth env ⟨"phone", phoneSecret, "app:"⟩
  twitchOAuthCallback env "fs1_a" "" "code"
  completeMobileAuth env ⟨"fh1_a", "fs1_a", "phone", phoneSecret⟩
  upsertRegistration env "phone" { phone with deviceSecret := phoneSecret, deviceSecretHash := "" }
  startMobileAuth env ⟨"phone", "fedcba9876543210fedcba9876543210", "app:"⟩

/-- The revocation is refused after the registration was deleted. -/
theorem foreign_login_blocks_revocation :
    ∃ tr w tr' w', Runs (execAt .pg 1) (foreignLogin .pg) {}
        tr () w ∧ Live .pg 1 phoneCaller w.auth ∧
      (w.registrations.lookup "phone").isSome ∧
      Runs (execAt .pg 1) (revokeMobileDevice .pg phoneCaller) w
        tr' () w' ∧ answers tr' = [403] ∧ (w'.registrations.lookup "phone").isSome = false ∧
      (w'.auth.sessions.lookup "#fsv1_a").isSome := by
  have heval : ((Prog.eval (execAt .pg 1) (foreignLogin .pg)
      (List.replicate 41 loginChoice) {}).bind fun r =>
        (Prog.eval (execAt .pg 1)
          (revokeMobileDevice .pg phoneCaller) (List.replicate 5 {}) r.2.2).map
        fun r' => (r.2.2.auth.sessions.lookup "#fsv1_a",
          (r.2.2.registrations.lookup "phone").isSome, answers r'.1,
          (r'.2.2.registrations.lookup "phone").isSome,
          (r'.2.2.auth.sessions.lookup "#fsv1_a").isSome)) =
      some (some { credentialID := "fc1_a", installationID := "phone"
                   deviceHash := "#" ++ phoneSecret, createdAt := 1, expiresAt := 1 + 720 * hour },
        true, [403], false, true) := rfl
  obtain ⟨⟨tr, _, w⟩, hlogin, heval⟩ := Option.bind_eq_some_iff.mp heval
  obtain ⟨⟨tr', _, w'⟩, hrevoke, heval⟩ := Option.map_eq_some_iff.mp heval
  simp only [Prod.mk.injEq] at heval
  obtain ⟨hsession, hregd, hrefused, hdel, hkept⟩ := heval
  exact ⟨tr, w, tr', w', eval_runs hlogin, ⟨_, hsession, by decide, rfl, by decide⟩, hregd,
    eval_runs hrevoke, hrefused, hdel, hkept⟩

end Ferventio
