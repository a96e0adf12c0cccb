import Ferventio.Delivery.Postgres

/-!
# The registration stores

`storage/memory/store.go` and `storage/postgres/postgres_registration.go`: push registrations,
keyed by installation. A registration is written only by the holder of its device secret, which is
kept only as its hash and never read back. `hashSecret` is a parameter; the code uses SHA-256.
-/

namespace Ferventio

open Strings

/-- Equal, and not empty. -/
def secureHashEqual (left right : String) : Bool := left != "" && left == right

/-- Without the secrets. -/
def publicRegistration (registration : Registration) : Registration :=
  { registration with deviceSecret := "", deviceSecretHash := "" }

/-- The stored registrations. -/
abbrev RegistrationTable := Table String Registration

variable (hashSecret : String → String)

/-- The secret is replaced by its hash. -/
def sealedRegistration (registration : Registration) :
    Registration :=
  { registration with
    deviceSecretHash := hashSecret registration.deviceSecret
    deviceSecret := "" }

namespace Memory

/-- `secureEqual` compares the hashes of two non-empty secrets. -/
def secureEqual (left right : String) : Bool :=
  left.utf8ByteSize == right.utf8ByteSize && left != "" &&
    secureHashEqual (hashSecret left) (hashSecret right)

/-- The secret is the registration's. -/
def registrationSecretMatches (registration : Registration) (provided : String) : Bool :=
  if provided = "" then false
  else if registration.deviceSecretHash ≠ "" then
    secureHashEqual registration.deviceSecretHash (hashSecret provided)
  else secureEqual hashSecret registration.deviceSecret provided

/-- Store a registration of its owner. -/
def upsert (registration : Registration)
    (t : RegistrationTable) : Result Unit × RegistrationTable :=
  if registration.deviceSecret = "" then (.error .deviceSecretMismatch, t)
  else if (t.lookup registration.installationID).any fun existing =>
      !registrationSecretMatches hashSecret existing registration.deviceSecret then
    (.error .deviceSecretMismatch, t)
  else (.ok (), t.insert registration.installationID (sealedRegistration hashSecret registration))

/-- All registrations. -/
def list (t : RegistrationTable) : List Registration := t.rows.map publicRegistration

/-- Look a registration up. -/
def get (installationID : String) (t : RegistrationTable) : Result Registration :=
  match t.lookup installationID with
  | none => .error .registrationNotFound
  | some registration => .ok (publicRegistration registration)

/-- The same, for its owner. -/
def authenticate (installationID deviceSecret : String)
    (t : RegistrationTable) : Result Registration :=
  match t.lookup installationID with
  | none => .error .registrationNotFound
  | some registration =>
    if !registrationSecretMatches hashSecret registration deviceSecret then
      .error .deviceSecretMismatch
    else .ok (publicRegistration registration)

/-- Delete a registration of its owner. -/
def delete (installationID deviceSecret : String)
    (t : RegistrationTable) : Result Unit × RegistrationTable :=
  match t.lookup installationID with
  | none => (.error .registrationNotFound, t)
  | some registration =>
    if !registrationSecretMatches hashSecret registration deviceSecret then
      (.error .deviceSecretMismatch, t)
    else (.ok (), t.erase installationID)

/-- The names that are not blank. -/
def trimmedTargets (installationIDs : List String) : List String :=
  (installationIDs.map trimSpace).filter (· != "")

/-- Delete by user and by name. -/
def deleteForAccount (userID : String) (installationIDs : List String) (t : RegistrationTable) :
    Result (List String) × RegistrationTable :=
  let userID := trimSpace userID
  let targets := trimmedTargets installationIDs
  let keep := fun installationID (registration : Registration) =>
    !targets.contains installationID && (userID == "" || registration.userID != userID)
  let removed := t.entries.filterMap fun e => if keep e.1 e.2 then none else some e.1
  (.ok (removed.insertionSort (· ≤ ·)), t.select keep)

end Memory

namespace Postgres

/-- The push services. -/
def providers : List String := ["fcm", "unifiedpush", "embedded_socket", "apns"]

/-- Store a registration of its owner. -/
def upsert (hashSecret : String → String) (registration : Registration)
    (t : RegistrationTable) : Result Unit × RegistrationTable :=
  if trimSpace registration.installationID = "" ∨ registration.deviceSecret = "" then
    (.error .deviceSecretMismatch, t)
  else if (t.lookup registration.installationID).any fun existing =>
      !secureHashEqual existing.deviceSecretHash (hashSecret registration.deviceSecret) then
    (.error .deviceSecretMismatch, t)
  else if !providers.contains registration.provider then
    (.error (fmtDatabase "upsert registration" (some (.plain "check constraint violated"))), t)
  else (.ok (), t.insert registration.installationID (sealedRegistration hashSecret registration))

/-- All registrations, sorted. -/
def list (t : RegistrationTable) : List Registration :=
  (t.rows.insertionSort fun a b => a.installationID ≤ b.installationID).map publicRegistration

/-- Look a registration up. -/
def get (installationID : String) (t : RegistrationTable) : Result Registration :=
  match t.lookup installationID with
  | none => .error .registrationNotFound
  | some registration => .ok (publicRegistration registration)

/-- The same, for its owner. -/
def authenticate (installationID deviceSecret : String)
    (t : RegistrationTable) : Result Registration :=
  match t.lookup installationID with
  | none => .error .registrationNotFound
  | some registration =>
    if !secureHashEqual registration.deviceSecretHash (hashSecret deviceSecret) then
      .error .deviceSecretMismatch
    else .ok (publicRegistration registration)

/-- Delete a registration of its owner. -/
def delete (installationID deviceSecret : String)
    (t : RegistrationTable) : Result Unit × RegistrationTable :=
  match t.lookup installationID with
  | none => (.error .registrationNotFound, t)
  | some registration =>
    if !secureHashEqual registration.deviceSecretHash (hashSecret deviceSecret) then
      (.error .deviceSecretMismatch, t)
    else (.ok (), t.erase installationID)

/-- Trimmed, not blank, and distinct. -/
def compactStrings (values : List String) : List String :=
  ((values.map trimSpace).filter (· != "")).reverse.dedup.reverse

/-- Delete by user and by name. -/
def deleteForAccount (userID : String) (installationIDs : List String) (t : RegistrationTable) :
    Result (List String) × RegistrationTable :=
  let userID := trimSpace userID
  let installationIDs := compactStrings installationIDs
  let doomed := fun installationID (registration : Registration) =>
    (userID != "" && registration.userID == userID) || installationIDs.contains installationID
  let removed := t.entries.filterMap fun e => if doomed e.1 e.2 then some e.1 else none
  (.ok (removed.insertionSort (· ≤ ·)), t.select fun id registration => !doomed id registration)

end Postgres

end Ferventio
