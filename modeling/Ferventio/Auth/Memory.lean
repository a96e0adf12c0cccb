import Ferventio.Registration.Store

/-!
# The in-memory login store

`storage/memory/auth_store.go`: Twitch credentials, the backend sessions that use them, pending
logins and the one-time handoffs from the browser to the app. The clock readings and random tokens
of a method are its arguments. A credential is kept as it is read, not sealed. It is kept only as
long as a session or a handoff refers to it: most writing methods end by deleting every credential
that nothing refers to (`deleteOrphans`).
-/

namespace Ferventio

/-- What an account revocation counts. -/
structure AccountRevocationResult where
  removedSessions : Nat := 0
  removedCredentials : Nat := 0
deriving DecidableEq

/-- `fmt.Errorf("generate secure token: %w", err)`. -/
def randomTokenError : GoError :=
  .wrapped "generate secure token" (.plain "random source failed")

/-- `randomToken` with what the random source gives, if it does. -/
def randomToken (start : String) (random : Option String) : Option String := random.map (start ++ ·)

/-- A session or a handoff refers to the credential. -/
def credentialInUse (credentialID : String) (s : AuthDiskState) : Bool :=
  s.sessions.rows.any (·.credentialID == credentialID) ||
    s.handoffs.rows.any (·.credentialID == credentialID)

/-- Delete the credentials that nothing refers to. -/
def deleteOrphans (s : AuthDiskState) : AuthDiskState :=
  { s with credentials := s.credentials.select fun id _ => credentialInUse id s }

/-- Delete one credential unless something refers to it. -/
def dropIfUnused (credentialID : String) (s : AuthDiskState) : AuthDiskState :=
  if credentialInUse credentialID s then s
  else { s with credentials := s.credentials.erase credentialID }

namespace Memory

open Strings

/-- The orders in which a method walks the maps; Go chooses them anew for every loop. -/
structure Visits (s : AuthDiskState) where
  sessions : List (Row String AuthSessionRecord)
  pending : List (Row String PendingAuthRecord)
  handoffs : List (Row String AuthHandoffRecord)
  sessions_perm : sessions.Perm s.sessions.entries
  pending_perm : pending.Perm s.pending.entries
  handoffs_perm : handoffs.Perm s.handoffs.entries

/-- The maps in the order of their tables. -/
def Visits.stored (s : AuthDiskState) : Visits s :=
  ⟨s.sessions.entries, s.pending.entries, s.handoffs.entries, .refl _, .refl _, .refl _⟩

/-- Delete what has expired, and the credentials of it. -/
def cleanupExpiredLocked (now : Time) (s : AuthDiskState) : AuthDiskState :=
  deleteOrphans { s with
    pending := s.pending.select fun _ record => !(now > record.expiresAt)
    handoffs := s.handoffs.select fun _ record => !(now > record.expiresAt)
    sessions := s.sessions.select fun _ record => !(now > record.expiresAt) }

/-! ## Pending logins and handoffs -/

variable (hashSecret : String → String)

/-- Store a login; it replaces those of the device. -/
def putPending (now : Time) (state : String)
    (record : PendingAuthRecord) (s : AuthDiskState) : Result Unit × AuthDiskState :=
  let s := cleanupExpiredLocked now s
  let pending := s.pending.select fun _ existing =>
    !(existing.installationID == record.installationID &&
      secureHashEqual existing.deviceHash record.deviceHash)
  if pending.count ≥ maxPendingAuthRecords then (.error .authCapacity, { s with pending })
  else (.ok (), { s with pending := pending.insert (hashSecret state) record })

/-- Look a login up by its state. -/
def getPending (now : Time) (state : String) (s : AuthDiskState) : Result PendingAuthRecord :=
  match s.pending.lookup (hashSecret state) with
  | none => .error .authNotFound
  | some record => if now > record.expiresAt then .error .authExpired else .ok record

/-- Take a login out of the store. -/
def consumePending (now : Time) (state : String)
    (s : AuthDiskState) : Result PendingAuthRecord × AuthDiskState :=
  match s.pending.lookup (hashSecret state) with
  | none => (.error .authNotFound, s)
  | some record =>
    let s := { s with pending := s.pending.erase (hashSecret state) }
    if now > record.expiresAt then (.error .authExpired, s) else (.ok record, s)

/-- A new handoff replaces the older ones of its device. -/
def replaceHandoff (codeHash : String) (record : AuthHandoffRecord)
    (t : Table String AuthHandoffRecord) : Table String AuthHandoffRecord :=
  (t.select fun _ existing =>
    !(existing.installationID == record.installationID &&
      secureHashEqual existing.deviceHash record.deviceHash)).insert codeHash record

/-- Store a handoff under the hash of its code. -/
def putHandoff (now : Time) (code : String)
    (record : AuthHandoffRecord) (s : AuthDiskState) : Result Unit × AuthDiskState :=
  let key := hashSecret code
  let s := cleanupExpiredLocked now { s with handoffs := replaceHandoff key record s.handoffs }
  if s.handoffs.count > maxAuthHandoffs then
    (.error .authCapacity, cleanupExpiredLocked now { s with handoffs := s.handoffs.erase key })
  else (.ok (), s)

/-- Redeem a handoff: one device, one state, once. -/
def consumeHandoff (now : Time)
    (code installationID deviceSecret state : String) (s : AuthDiskState) :
    Result AuthHandoffRecord × AuthDiskState :=
  let key := hashSecret code
  match s.handoffs.lookup key with
  | none => (.error .authNotFound, s)
  | some record =>
    if now > record.expiresAt then
      (.error .authExpired, { s with handoffs := s.handoffs.erase key })
    else if record.installationID ≠ installationID ∨
        !secureHashEqual record.deviceHash (hashSecret deviceSecret) then
      (.error .authDeviceMismatch, s)
    else if !secureHashEqual record.stateHash (hashSecret state) then
      (.error .authStateMismatch, s)
    else (.ok record, { s with handoffs := s.handoffs.erase key })

/-! ## Credentials -/

/-- Store a credential. -/
def putCredential (credential : AuthCredential) (s : AuthDiskState) :
    Result Unit × AuthDiskState :=
  (.ok (), { s with credentials := s.credentials.insert credential.id credential })

/-- Store both, or neither. -/
def putCredentialAndHandoff (now : Time) (credential : AuthCredential) (code : String)
    (record : AuthHandoffRecord) (s : AuthDiskState) : Result Unit × AuthDiskState :=
  if credential.id = "" ∨ record.credentialID ≠ credential.id then
    (.error (.plain "credential and handoff do not match"), s)
  else
    putHandoff hashSecret now code record
      { s with credentials := s.credentials.insert credential.id credential }

/-- Look a credential up. -/
def getCredential (id : String) (s : AuthDiskState) : Result AuthCredential :=
  match s.credentials.lookup id with
  | none => .error .authNotFound
  | some record => .ok record

/-- The credential of the device's first live session. -/
def credentialForInstallation (now : Time)
    (installationID deviceSecret : String) (s : AuthDiskState) (visits : Visits s) :
    Result AuthCredential :=
  match visits.sessions.find? fun session =>
      !(session.2.installationID != installationID || now > session.2.expiresAt ||
        !secureHashEqual session.2.deviceHash (hashSecret deviceSecret)) with
  | none => .error .authNotFound
  | some session =>
    match s.credentials.lookup session.2.credentialID with
    | none => .error .authNotFound
    | some credential => .ok credential

/-- Delete a credential that nothing refers to. -/
def deleteCredentialIfUnused (credentialID : String) (s : AuthDiskState) :
    Result Unit × AuthDiskState :=
  (.ok (), dropIfUnused credentialID s)

/-! ## Sessions -/

/-- Open a session; it replaces those of the installation. -/
def createSession (now : Time) (random : Option String)
    (credentialID installationID deviceSecret : String) (ttl : Duration) (s : AuthDiskState) :
    Result (String × Time) × AuthDiskState :=
  let deviceHash := hashSecret deviceSecret
  if (s.credentials.lookup credentialID).isNone then (.error .authNotFound, s)
  else if s.sessions.rows.any fun existing =>
      existing.installationID == installationID && !(now > existing.expiresAt) &&
        !secureHashEqual existing.deviceHash deviceHash then
    (.error .authDeviceMismatch, s)
  else
    let s := { s with sessions := s.sessions.select fun _ existing =>
      !(now > existing.expiresAt || existing.installationID == installationID) }
    if s.sessions.count ≥ maxAuthSessions then (.error .authCapacity, s)
    else
      match randomToken "fsv1_" random with
      | none => (.error randomTokenError, s)
      | some token =>
        let session : AuthSessionRecord :=
          { credentialID, installationID, deviceHash, createdAt := now, expiresAt := now + ttl }
        (.ok (token, now + ttl), cleanupExpiredLocked now
          { s with sessions := s.sessions.insert (hashSecret token) session })

/-- Check a session, and renew it. -/
def resolveSession (now : Time)
    (token installationID deviceSecret : String) (renewTTL : Duration) (s : AuthDiskState) :
    Result AuthSessionRecord × AuthDiskState :=
  let key := hashSecret token
  match s.sessions.lookup key with
  | none => (.error .authNotFound, s)
  | some record =>
    if now > record.expiresAt then
      (.error .authExpired,
        dropIfUnused record.credentialID { s with sessions := s.sessions.erase key })
    else if record.installationID ≠ installationID ∨
        !secureHashEqual record.deviceHash (hashSecret deviceSecret) then
      (.error .authDeviceMismatch, s)
    else if renewTTL > 0 ∧ record.expiresAt < now + renewTTL / 2 then
      let record := { record with expiresAt := now + renewTTL }
      (.ok record, { s with sessions := s.sessions.insert key record })
    else (.ok record, s)

/-- The user of a session, and whether it is live. -/
def sessionAccount (now : Time)
    (token installationID deviceSecret : String) (s : AuthDiskState) : Result (String × Bool) :=
  match s.sessions.lookup (hashSecret token) with
  | none => .error .authNotFound
  | some record =>
    if record.installationID ≠ installationID ∨
        !secureHashEqual record.deviceHash (hashSecret deviceSecret) then
      .error .authDeviceMismatch
    else
      match s.credentials.lookup record.credentialID with
      | none => .error .authNotFound
      | some credential =>
        if trimSpace credential.userID = "" then .error .authNotFound
        else .ok (credential.userID, decide (now > record.expiresAt))

/-- End a session of the device. -/
def deleteSession (token installationID deviceSecret : String)
    (s : AuthDiskState) : Result Unit × AuthDiskState :=
  let key := hashSecret token
  match s.sessions.lookup key with
  | none => (.error .authNotFound, s)
  | some record =>
    if record.installationID ≠ installationID ∨
        !secureHashEqual record.deviceHash (hashSecret deviceSecret) then
      (.error .authDeviceMismatch, s)
    else (.ok (), dropIfUnused record.credentialID { s with sessions := s.sessions.erase key })

/-- The device hashes of an installation. -/
def boundDevices (installationID : String) (s : AuthDiskState) : List String :=
  (s.sessions.rows.filter (·.installationID == installationID)).map (·.deviceHash) ++
    (s.pending.rows.filter (·.installationID == installationID)).map (·.deviceHash) ++
    (s.handoffs.rows.filter (·.installationID == installationID)).map (·.deviceHash)

/-- Whether the device is bound; an error if another is. -/
def installationBinding (installationID deviceSecret : String) (s : AuthDiskState) : Result Bool :=
  let devices := boundDevices installationID s
  if devices.any (secureHashEqual · (hashSecret deviceSecret)) then .ok true
  else if devices ≠ [] then .error .authDeviceMismatch
  else .error .authNotFound

/-! ## Revocation -/

/-- Delete an installation's rows one by one. A row under another secret stops the loop; those
before it stay deleted. -/
def revokeRows {α : Type} (installation device : α → String) (installationID deviceHash : String) :
    List (Row String α) → Table String α → Bool × Table String α
  | [], t => (true, t)
  | ⟨key, row⟩ :: rest, t =>
    if installation row ≠ installationID then
      revokeRows installation device installationID deviceHash rest t
    else if !secureHashEqual (device row) deviceHash then (false, t)
    else revokeRows installation device installationID deviceHash rest (t.erase key)

/-- Delete all of the installation that is the device's. -/
def revokeInstallation (installationID deviceSecret : String)
    (s : AuthDiskState) (visits : Visits s) : Result Nat × AuthDiskState :=
  let deviceHash := hashSecret deviceSecret
  let (ok, sessions) := revokeRows (·.installationID) (·.deviceHash) installationID deviceHash
    visits.sessions s.sessions
  let removedSessions := s.sessions.count - sessions.count
  let s' := { s with sessions }
  if !ok then (.error .authDeviceMismatch, s')
  else
    let (ok, pending) := revokeRows (·.installationID) (·.deviceHash) installationID deviceHash
      visits.pending s.pending
    let s' := { s' with pending }
    if !ok then (.error .authDeviceMismatch, s')
    else
      let (ok, handoffs) := revokeRows (·.installationID) (·.deviceHash) installationID deviceHash
        visits.handoffs s.handoffs
      let s' := { s' with handoffs }
      if !ok then (.error .authDeviceMismatch, s') else (.ok removedSessions, deleteOrphans s')

/-- The credentials of a user. -/
def credentialIDsOf (userID : String) (s : AuthDiskState) : List String :=
  s.credentials.entries.filterMap fun e => if e.2.userID = userID then some e.1 else none

/-- What an account revocation will reach. -/
def accountRevocationTargets (userID : String) (s : AuthDiskState) :
    Result AccountRevocationTargets :=
  let userID := trimSpace userID
  if userID = "" then .error .authNotFound
  else
    let credentialIDs := credentialIDsOf userID s
    let credentials := s.credentials.rows.filter (·.userID == userID)
    let installations := (s.sessions.rows.filter (credentialIDs.contains ·.credentialID)).map
      (·.installationID)
    .ok
      { installationIDs := installations.dedup.insertionSort (· ≤ ·)
        credentials := credentials.insertionSort fun a b => a.id ≤ b.id }

/-- Delete handoffs by credential and installation. An installation found on the way counts for
those that follow. -/
def revokeHandoffs (credentialIDs : List String) :
    List (Row String AuthHandoffRecord) → List String →
      Table String AuthHandoffRecord → List String × Table String AuthHandoffRecord
  | [], installations, t => (installations, t)
  | ⟨key, handoff⟩ :: rest, installations, t =>
    if credentialIDs.contains handoff.credentialID ||
        installations.contains handoff.installationID then
      revokeHandoffs credentialIDs rest (handoff.installationID :: installations) (t.erase key)
    else revokeHandoffs credentialIDs rest installations t

/-- Delete the user's logins and those at the installations. -/
def revokeAccount (userID : String) (extraInstallationIDs : List String) (s : AuthDiskState)
    (visits : Visits s) : Result AccountRevocationResult × AuthDiskState :=
  let userID := trimSpace userID
  if userID = "" then (.error .authNotFound, s)
  else
    let credentialIDs := credentialIDsOf userID s
    let doomed := s.sessions.rows.filter (credentialIDs.contains ·.credentialID)
    let installations := trimmedTargets extraInstallationIDs ++ doomed.map (·.installationID)
    let sessions := s.sessions.select fun _ session => !credentialIDs.contains session.credentialID
    let (installations, handoffs) :=
      revokeHandoffs credentialIDs visits.handoffs installations s.handoffs
    let pending := s.pending.select fun _ record => !installations.contains record.installationID
    let credentials := s.credentials.select fun id _ => !credentialIDs.contains id
    (.ok { removedSessions := doomed.length, removedCredentials := credentialIDs.length },
      deleteOrphans { sessions, handoffs, pending, credentials })

end Memory

end Ferventio
