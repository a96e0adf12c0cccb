import Ferventio.OAuth.Client
import Ferventio.Push.Code

/-!
# Registering an installation

`application/server.go`: the handlers that create, replace and delete a push registration. A
registration is bound to the Twitch user of the installation's session, its moderator channels to
what Twitch confirms, and its per-channel settings to its own channels.
-/

namespace Ferventio

open Strings

/-! ## Normalising a request -/

variable (env : Env)

/-- Trimmed, with defaults. -/
def normalizeRegistration (registration : Registration) : Registration :=
  let platform := env.toLower (trimSpace registration.platform)
  { registration with
    platform := if platform = "" then "android" else platform
    provider := env.toLower (trimSpace registration.provider)
    apnsDeviceToken := trimSpace registration.apnsDeviceToken
    endpoint := trimSpace registration.endpoint }

/-- The registrations that are accepted. -/
def validateRegistration (registration : Registration) : Result Unit :=
  match validateMobileDevice registration.installationID registration.deviceSecret with
  | .error err => .error err
  | .ok () =>
    if registration.platform = "android" then
      if registration.provider = "fcm" then
        if registration.firebaseInstallation = "" then
          .error (.plain "firebaseInstallationId is required for FCM")
        else .ok ()
      else if registration.provider = "unifiedpush" then
        if registration.endpoint = "" ∨ registration.p256dh = "" ∨ registration.auth = "" then
          .error (.plain "endpoint, p256dh and auth are required for UnifiedPush")
        else if !env.publicHTTPSURL registration.endpoint then
          .error (.plain "UnifiedPush endpoint must be a public HTTPS URL")
        else .ok ()
      else if registration.provider = "embedded_socket" then .ok ()
      else .error (.plain "android provider must be fcm, unifiedpush, or embedded_socket")
    else if registration.platform = "ios" then
      if registration.provider ≠ "apns" then .error (.plain "ios provider must be apns")
      else if registration.apnsDeviceToken = "" then
        .error (.plain "apnsDeviceToken is required for APNs")
      else .ok ()
    else .error (.plain "platform must be android or ios")

/-- The values that are allowed, up to case. -/
def intersectStrings (toLower : String → String) (values allowed : List String) : List String :=
  values.filter fun value => (allowed.map toLower).contains (toLower value)

/-- The channels by their lower-case identifiers. -/
def allowedChannels (toLower : String → String) (channelIDs : List String) :
    Table String String :=
  channelIDs.foldl (fun t id =>
    let id := trimSpace id
    if id ≠ "" then t.insert (toLower id) id else t) ∅

/-- The loop over the settings: one is kept under its channel's spelling when the channel is allowed
and `pick` accepts it, up to 100. -/
def collectChannels {α β : Type} (toLower : String → String) (allowed : Table String String)
    (pick : α → Option β) : List (Row String α) → Table String β → Table String β
  | [], result => result
  | ⟨rawChannelID, value⟩ :: rest, result =>
    match allowed.lookup (toLower (trimSpace rawChannelID)), pick value with
    | some channelID, some value =>
      let result : Table String β := result.insert channelID value
      if result.count ≥ 100 then result else collectChannels toLower allowed pick rest result
    | _, _ => collectChannels toLower allowed pick rest result

/-- The rules of known channels. -/
def normalizeNotificationChannelRules (toLower : String → String)
    (value : Table String (List String)) (channelIDs : List String) :
    Table String (List String) :=
  collectChannels toLower (allowedChannels toLower channelIDs)
    (fun rules => some (normalizeLimitedStrings toLower rules 32 64)) value.entries ∅

/-- The mutes of known channels. -/
def normalizeNotificationChannelMutedUntilEpochMillis (toLower : String → String)
    (value : Table String Int) (channelIDs : List String) : Table String Int :=
  collectChannels toLower (allowedChannels toLower channelIDs)
    (fun mutedUntil => if mutedUntil ≤ 0 then none else some mutedUntil) value.entries ∅

/-- The lists after their normalisation. -/
def normalizeRegistrationLists (registration : Registration) : Registration :=
  let channelIDs := normalizeLimitedStrings env.toLower registration.channelIDs 100 64
  { registration with
    channelIDs
    moderatorChannelIDs := intersectStrings env.toLower
      (normalizeLimitedStrings env.toLower registration.moderatorChannelIDs 100 64) channelIDs
    notificationRules := normalizeLimitedStrings env.toLower registration.notificationRules 32 64
    notificationChannelRules := normalizeNotificationChannelRules env.toLower
      registration.notificationChannelRules channelIDs
    notificationChannelMutedUntilEpochMillis :=
      normalizeNotificationChannelMutedUntilEpochMillis env.toLower
        registration.notificationChannelMutedUntilEpochMillis channelIDs
    highlightPhrases := normalizeLimitedStrings env.toLower registration.highlightPhrases 100 200
    selectedUserLogins :=
      normalizeLimitedStrings env.toLower registration.selectedUserLogins 100 50 }

/-- Without a session only the transport is kept. -/
def transportOnly (registration : Registration) : Registration :=
  { registration with
    userID := ""
    userLogin := ""
    channelIDs := []
    moderatorChannelIDs := []
    notificationRules := []
    notificationChannelRules := ∅
    notificationChannelMutedUntilEpochMillis := ∅
    highlightPhrases := []
    selectedUserLogins := [] }

/-! ## The handlers -/

/-- Those requested that Twitch confirms or, when it cannot be asked, that were confirmed before for
the user. -/
def verifiedModeratorChannels (credential : AuthCredential)
    (registration : Registration) : Handler (List String) := do
  match ← moderatedChannelIDs env credential.id with
  | .ok verified => pure (intersectStrings env.toLower registration.moderatorChannelIDs verified)
  | .error _ =>
    match ← store (.get registration.installationID) with
    | .error _ => pure []
    | .ok existing =>
      if existing.userID = credential.userID then
        pure (intersectStrings env.toLower registration.moderatorChannelIDs
          existing.moderatorChannelIDs)
      else pure []

/-- The write, its answer and the request to reconcile. -/
def saveRegistration (registration : Registration) : Handler Unit := do
  let now : Time ← host .now
  match ← store (.upsert { registration with updatedAt := now }) with
  | .error err =>
    if err.is .deviceSecretMismatch then respond 403 "device secret mismatch"
    else respond 500 "registration was not saved"
  | .ok () =>
    respond 200 ""
    host .requestEventSubReconcile

/-- Register an installation. -/
def upsertRegistration (installationID : String) (registration : Registration) :
    Handler Unit := do
  if registration.installationID ≠ installationID then
    respond 400 "installationId does not match URL"
  else
    let registration := normalizeRegistration env registration
    match validateRegistration env registration with
    | .error err => respond 400 err.text
    | .ok () =>
      if !(← host (.takeRateLimit registration.installationID registration.deviceSecret)) then
        respond 429 "rate limit exceeded"
      else
        let registration := normalizeRegistrationLists env registration
        if env.cfg.authEnabled then
          match ← authStore (.credentialForInstallation registration.installationID
              registration.deviceSecret) with
          | .error _ => respond 401 "active Twitch authorization is required"
          | .ok credential =>
            let moderatorChannelIDs ← verifiedModeratorChannels env credential registration
            saveRegistration { registration with
              userID := credential.userID
              userLogin := credential.login
              moderatorChannelIDs }
        else saveRegistration (transportOnly registration)

/-- Delete a registration. -/
def deleteRegistration (installationID deviceSecret : String) : Handler Unit := do
  match ← store (.delete installationID deviceSecret) with
  | .error err =>
    if err.is .registrationNotFound then respond 404 "registration not found"
    else if err.is .deviceSecretMismatch then respond 403 "device secret mismatch"
    else respond 500 "registration was not deleted"
  | .ok () =>
    let _ ← hub (.close installationID)
    respond 204 ""
    host .requestEventSubReconcile

end Ferventio
