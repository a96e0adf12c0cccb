import Ferventio.Auth.Memory

/-!
# The PostgreSQL login store

`storage/postgres/postgres_auth.go`. Every method is one transaction, so an error leaves the tables
as they were. Sessions and handoffs refer to their credential with `ON DELETE CASCADE`; an
installation has at most one session, and a device at most one pending login and one handoff.
-/

namespace Ferventio

namespace Postgres

open Strings

/-- Delete credentials with what refers to them. -/
def deleteCredentials (doomed : String → AuthCredential → Bool) (s : AuthDiskState) :
    AuthDiskState :=
  let gone := fun id => (s.credentials.lookup id).any (doomed id)
  { s with
    credentials := s.credentials.select fun id credential => !doomed id credential
    sessions := s.sessions.select fun _ session => !gone session.credentialID
    handoffs := s.handoffs.select fun _ handoff => !gone handoff.credentialID }

/-! ## Pending logins and handoffs -/

variable (hashSecret : String → String)

/-- Store a login; it replaces those of the device. -/
def putPending (now : Time) (state : String)
    (record : PendingAuthRecord) (s : AuthDiskState) : Result Unit × AuthDiskState :=
  let pending := (s.pending.select fun _ existing => !(existing.expiresAt < now)).select
    fun _ existing => !(existing.installationID == record.installationID &&
      existing.deviceHash == record.deviceHash)
  if pending.count ≥ maxPendingAuthRecords then (.error .authCapacity, s)
  else if (pending.lookup (hashSecret state)).isSome then
    (.error (fmtDatabase "insert pending auth" (some (.plain "duplicate key value"))), s)
  else (.ok (), { s with pending := pending.insert (hashSecret state) record })

/-- The row, unless it has expired. -/
def getPending := Memory.getPending

/-- The row is deleted, and the answer depends on its expiry. -/
def consumePending := Memory.consumePending

/-- The statements of a transaction; an error is rolled back. -/
def putHandoffTx (now : Time) (code : String)
    (record : AuthHandoffRecord) (s : AuthDiskState) : Result AuthDiskState :=
  let handoffs := (s.handoffs.select fun _ existing => !(existing.expiresAt < now)).select
    fun _ existing => !(existing.installationID == record.installationID &&
      existing.deviceHash == record.deviceHash)
  if handoffs.count ≥ maxAuthHandoffs then .error .authCapacity
  else if (handoffs.lookup (hashSecret code)).isSome then
    .error (fmtDatabase "insert auth handoff" (some (.plain "duplicate key value")))
  else if (s.credentials.lookup record.credentialID).isNone then
    .error (fmtDatabase "insert auth handoff" (some (.plain "foreign key violated")))
  else .ok { s with handoffs := handoffs.insert (hashSecret code) record }

/-- Store a handoff in a transaction. -/
def putHandoff (now : Time) (code : String)
    (record : AuthHandoffRecord) (s : AuthDiskState) : Result Unit × AuthDiskState :=
  match putHandoffTx hashSecret now code record s with
  | .error err => (.error err, s)
  | .ok s' => (.ok (), s')

/-- A row that has expired or fits is deleted. -/
def consumeHandoff := Memory.consumeHandoff

/-! ## Credentials -/

/-- An upsert. -/
def putCredential := Memory.putCredential

/-- Store both in one transaction. -/
def putCredentialAndHandoff (now : Time)
    (credential : AuthCredential) (code : String) (record : AuthHandoffRecord)
    (s : AuthDiskState) : Result Unit × AuthDiskState :=
  if credential.id = "" ∨ record.credentialID ≠ credential.id then
    (.error (.plain "credential and handoff do not match"), s)
  else
    match putHandoffTx hashSecret now code record
        { s with credentials := s.credentials.insert credential.id credential } with
    | .error err => (.error err, s)
    | .ok s' => (.ok (), s')

/-- The row. -/
def getCredential := Memory.getCredential

/-- The credential of the device's live session. -/
def credentialForInstallation (now : Time)
    (installationID deviceSecret : String) (s : AuthDiskState) : Result AuthCredential :=
  -- the unique index leaves at most one row, so its ORDER BY has nothing to order
  match s.sessions.rows.find? fun session =>
      session.installationID == installationID &&
        session.deviceHash == hashSecret deviceSecret && session.expiresAt > now &&
        (s.credentials.lookup session.credentialID).isSome with
  | none => .error .authNotFound
  | some session =>
    match s.credentials.lookup session.credentialID with
    | none => .error .authNotFound
    | some credential => .ok credential

/-- A deletion with two `NOT EXISTS` conditions. -/
def deleteCredentialIfUnused := Memory.deleteCredentialIfUnused

/-! ## Sessions -/

/-- Open a session; it replaces those of the device. -/
def createSession (now : Time) (random : Option String)
    (credentialID installationID deviceSecret : String) (ttl : Duration) (s : AuthDiskState) :
    Result (String × Time) × AuthDiskState :=
  let deviceHash := hashSecret deviceSecret
  if (s.credentials.lookup credentialID).isNone then (.error .authNotFound, s)
  else
    let live := s.sessions.select fun _ existing => !(existing.expiresAt < now)
    if live.rows.any fun existing => existing.installationID == installationID &&
        !secureHashEqual existing.deviceHash deviceHash then
      (.error .authDeviceMismatch, s)
    else
      let sessions := live.select fun _ existing =>
        !(existing.installationID == installationID && existing.deviceHash == deviceHash)
      if sessions.count ≥ maxAuthSessions then (.error .authCapacity, s)
      else
        match randomToken "fsv1_" random with
        | none => (.error randomTokenError, s)
        | some token =>
          let session : AuthSessionRecord :=
            { credentialID, installationID, deviceHash, createdAt := now, expiresAt := now + ttl }
          if (sessions.lookup (hashSecret token)).isSome then
            (.error (fmtDatabase "insert auth session" (some (.plain "duplicate key value"))), s)
          else
            (.ok (token, now + ttl),
              deleteOrphans { s with sessions := sessions.insert (hashSecret token) session })

/-- The checks of the memory store on the locked row. -/
def resolveSession := Memory.resolveSession

/-- The user of a session, and whether it is live. -/
def sessionAccount (now : Time)
    (token installationID deviceSecret : String) (s : AuthDiskState) : Result (String × Bool) :=
  match s.sessions.lookup (hashSecret token) with
  | none => .error .authNotFound
  | some record =>
    match s.credentials.lookup record.credentialID with
    | none => .error .authNotFound
    | some credential =>
      if record.installationID ≠ installationID ∨
          !secureHashEqual record.deviceHash (hashSecret deviceSecret) then
        .error .authDeviceMismatch
      else if trimSpace credential.userID = "" then .error .authNotFound
      else .ok (credential.userID, decide (now > record.expiresAt))

/-- The row is deleted if the device fits, then its credential if unused. -/
def deleteSession := Memory.deleteSession

/-- The device hashes of the three tables. -/
def boundDevices := Memory.boundDevices

/-- Whether one of these hashes is the device's. -/
def installationBinding := Memory.installationBinding

/-! ## Revocation -/

/-- Delete all of the installation, if it is the device's. -/
def revokeInstallation (installationID deviceSecret : String)
    (s : AuthDiskState) : Result Nat × AuthDiskState :=
  let devices := boundDevices installationID s
  if devices.any fun device => !secureHashEqual device (hashSecret deviceSecret) then
    (.error .authDeviceMismatch, s)
  else if devices = [] then (.ok 0, s)
  else
    let removedSessions := (s.sessions.rows.filter (·.installationID == installationID)).length
    (.ok removedSessions, deleteOrphans { s with
      sessions := s.sessions.select fun _ session => session.installationID != installationID
      pending := s.pending.select fun _ record => record.installationID != installationID
      handoffs := s.handoffs.select fun _ handoff => handoff.installationID != installationID })

/-- The identifiers of the user's credentials. -/
def credentialIDsOf := Memory.credentialIDsOf

/-- What an account revocation will reach. -/
def accountRevocationTargets (userID : String) (s : AuthDiskState) :
    Result AccountRevocationTargets :=
  let userID := trimSpace userID
  if userID = "" then .error .authNotFound
  else
    let credentials := (s.credentials.rows.filter (·.userID == userID)).insertionSort
      fun a b => a.id ≤ b.id
    let credentialIDs := credentials.map (·.id)
    let installations := (s.sessions.rows.filter (credentialIDs.contains ·.credentialID)).map
      (·.installationID)
    .ok { installationIDs := installations.dedup.insertionSort (· ≤ ·), credentials }

/-- Delete the user's logins and those at the installations. -/
def revokeAccount (userID : String) (extraInstallationIDs : List String) (s : AuthDiskState) :
    Result AccountRevocationResult × AuthDiskState :=
  let userID := trimSpace userID
  if userID = "" then (.error .authNotFound, s)
  else
    let credentialIDs := credentialIDsOf userID s
    let doomed := s.sessions.rows.filter (credentialIDs.contains ·.credentialID)
    let installations := compactStrings
      (compactStrings extraInstallationIDs ++ (doomed.map (·.installationID)).dedup)
    let s := { s with
      sessions := s.sessions.select fun _ session => !credentialIDs.contains session.credentialID
      handoffs := s.handoffs.select fun _ handoff =>
        !(credentialIDs.contains handoff.credentialID ||
          installations.contains handoff.installationID)
      pending := s.pending.select fun _ record => !installations.contains record.installationID }
    (.ok { removedSessions := doomed.length, removedCredentials := credentialIDs.length },
      deleteOrphans (deleteCredentials (fun _ credential => credential.userID == userID) s))

end Postgres

end Ferventio
