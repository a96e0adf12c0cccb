import Ferventio.Registration.Handlers

/-!
# Signing a device in and out

`application/auth_handlers.go`: the OAuth callback, the completion of a login, leasing a token,
signing out, and the revocations of one device and of all of an account's devices.
-/

namespace Ferventio

open Strings

variable (env : Env)

/-- `requireAuthBroker`. -/
def withAuthBroker (handler : Handler Unit) : Handler Unit :=
  if env.cfg.authEnabled then handler
  else respond 503 "Ferventio OAuth broker is not configured"

/-- The answer for an error of the login store. -/
def writeAuthRecordError (err : GoError) : Handler Unit :=
  if err.is .authExpired then respond 401 "authentication record expired"
  else if err.is .authDeviceMismatch then respond 403 "device binding mismatch"
  else if err.is .authStateMismatch then respond 403 "OAuth state mismatch"
  else if err.is .authCapacity then respond 429 "authentication capacity exceeded"
  else if err.is .authNotFound then respond 401 "authentication record not found"
  else respond 500 "authentication storage failed"

/-- The answer when no token can be leased. -/
def writeOAuthLeaseError (err : GoError) : Handler Unit :=
  if err.is .oauthRevoked || err.is .authNotFound then
    respond 401 "Twitch authorization is no longer valid"
  else respond 502 "Twitch authorization is temporarily unavailable"

/-! ## Signing in -/

/-- The body of `startMobileAuth`. -/
structure MobileAuthStartRequest where
  installationID : String
  deviceSecret : String
  appCallbackURI : String
deriving DecidableEq

/-- Start a login. -/
def startMobileAuth (request : MobileAuthStartRequest) : Handler Unit :=
  withAuthBroker env do
    match validateMobileDevice request.installationID request.deviceSecret with
    | .error err => respond 400 err.text
    | .ok () =>
      if !(← host (.takeRateLimit request.installationID request.deviceSecret)) then
        respond 429 "rate limit exceeded"
      else
        match env.validateAppCallbackURI request.appCallbackURI with
        | .error err => respond 400 err.text
        | .ok () =>
          match ← host (.randomToken "fs1_" 32) with
          | .error _ => respond 500 "failed to create OAuth state"
          | .ok state =>
            let now : Time ← host .now
            match ← authStore (.putPending state
                { installationID := request.installationID
                  deviceHash := env.hashSecret request.deviceSecret
                  appCallbackURI := request.appCallbackURI
                  createdAt := now
                  expiresAt := now + env.cfg.authStateTTL }) with
            | .error err =>
              if err.is .authCapacity then respond 429 "too many pending OAuth sessions"
              else respond 500 "failed to start OAuth"
            | .ok () => respond 201 ""

/-- The callback of the browser. Every outcome after the login was found is a page; `text` is its
error code. -/
def twitchOAuthCallback (state denied code : String) : Handler Unit :=
  withAuthBroker env do
    let state := trimSpace state
    if state = "" then respond 400 "missing OAuth state"
    else
      match ← authStore (.consumePending state) with
      | .error _ => respond 400 "OAuth session is missing or expired"
      | .ok pending =>
        if trimSpace denied ≠ "" then respond 200 (trimSpace denied)
        else if trimSpace code = "" then respond 200 "missing_code"
        else
          match ← exchangeCode env (trimSpace code) with
          | .error _ => respond 200 "oauth_exchange_failed"
          | .ok credential =>
            match ← host (.randomToken "fh1_" 32) with
            | .error _ => respond 200 "server_random_failed"
            | .ok handoffCode =>
              let now : Time ← host .now
              match ← authStore (.putCredentialAndHandoff credential handoffCode
                  { credentialID := credential.id
                    installationID := pending.installationID
                    deviceHash := pending.deviceHash
                    appCallbackURI := pending.appCallbackURI
                    stateHash := env.hashSecret state
                    createdAt := now
                    expiresAt := now + env.cfg.authHandoffTTL }) with
              | .error _ => respond 200 "server_storage_failed"
              | .ok () => respond 200 ""

/-- The body of `completeMobileAuth`. -/
structure MobileAuthCompleteRequest where
  code : String
  state : String
  installationID : String
  deviceSecret : String
deriving DecidableEq

/-- `completeMobileAuth` after its handoff was consumed. -/
def completeHandoff (request : MobileAuthCompleteRequest)
    (handoff : AuthHandoffRecord) : Handler Unit := do
  match ← lease env handoff.credentialID false with
  | .error err =>
    let _ ← authStore (.deleteCredentialIfUnused handoff.credentialID)
    writeOAuthLeaseError err
  | .ok _ =>
    match ← authStore (.createSession handoff.credentialID request.installationID
        request.deviceSecret env.cfg.authSessionTTL) with
    | .error err =>
      let _ ← authStore (.deleteCredentialIfUnused handoff.credentialID)
      if err.is .authCapacity then respond 429 "too many mobile sessions"
      else respond 500 "failed to create mobile session"
    | .ok _ => respond 200 ""

/-- Redeem a handoff for a session. -/
def completeMobileAuth (request : MobileAuthCompleteRequest) : Handler Unit :=
  withAuthBroker env do
    match validateMobileDevice request.installationID request.deviceSecret with
    | .error err => respond 400 err.text
    | .ok () =>
      if !(← host (.takeRateLimit request.installationID request.deviceSecret)) then
        respond 429 "rate limit exceeded"
      else
        match ← authStore (.consumeHandoff (trimSpace request.code) request.installationID
            request.deviceSecret request.state) with
        | .error err => writeAuthRecordError err
        | .ok handoff => completeHandoff env request handoff

/-- The credentials that a request of a signed-in device carries. -/
structure DeviceCredentials where
  token : String
  installationID : String
  deviceSecret : String
deriving DecidableEq

/-- Hand out an access token. -/
def leaseMobileToken (device : DeviceCredentials) (forceRefresh : Bool) :
    Handler Unit :=
  withAuthBroker env do
    let installationID := trimSpace device.installationID
    let deviceSecret := trimSpace device.deviceSecret
    if device.token = "" ∨ installationID = "" ∨ deviceSecret = "" then
      respond 401 "missing backend session credentials"
    else
      match ← authStore (.resolveSession device.token installationID deviceSecret
          env.cfg.authSessionTTL) with
      | .error err => writeAuthRecordError err
      | .ok session =>
        match ← lease env session.credentialID forceRefresh with
        | .error err => writeOAuthLeaseError err
        | .ok _ => respond 200 ""

/-! ## Signing out -/

/-- Sign out. -/
def deleteMobileSession (device : DeviceCredentials) : Handler Unit :=
  withAuthBroker env do
    if device.token = "" then respond 401 "missing backend session"
    else
      match ← authStore (.deleteSession device.token (trimSpace device.installationID)
          (trimSpace device.deviceSecret)) with
      | .error err =>
        if err.is .authNotFound then respond 204 ""
        else if err.is .authDeviceMismatch then respond 403 "device binding mismatch"
        else respond 500 "failed to delete session"
      | .ok () => respond 204 ""

/-- The end of `revokeMobileDevice`: the queue and the logins are deleted, and the socket is
closed. -/
def revokeQueueAndLogin (installationID deviceSecret : String) : Handler Unit := do
  match ← deliveries (.deleteForInstallation installationID) with
  | .error _ => respond 500 "failed to delete device deliveries"
  | .ok _ =>
    match ← authStore (.revokeInstallation installationID deviceSecret) with
    | .error err =>
      if err.is .authDeviceMismatch then respond 403 "device binding mismatch"
      else respond 500 "failed to revoke device"
    | .ok _ =>
      let _ ← hub (.close installationID)
      respond 204 ""
      host .requestEventSubReconcile

/-- The deletions of `revokeMobileDevice`. -/
def revokeDevice (installationID deviceSecret : String) : Handler Unit := do
  let deleted ← store (.delete installationID deviceSecret)
  let failure : Option GoError := match deleted with
    | .ok () => none
    | .error err => if err.is .registrationNotFound then none else some err
  match failure with
  | some err =>
    if err.is .deviceSecretMismatch then respond 403 "device secret mismatch"
    else respond 500 "failed to delete device registration"
  | none => revokeQueueAndLogin installationID deviceSecret

/-- Without a live session the device must own its registration. -/
def revokeStaleDevice (installationID deviceSecret : String) : Handler Unit := do
  match ← store (.authenticate installationID deviceSecret) with
  | .error err =>
    if err.is .deviceSecretMismatch then respond 403 "device secret mismatch"
    else if err.is .registrationNotFound then respond 204 ""
    else respond 500 "failed to authenticate device registration"
  | .ok _ => revokeDevice installationID deviceSecret

/-- The way of a request whose session is unknown. -/
def revokeUnknown (installationID deviceSecret : String) : Handler Unit := do
  match ← authStore (.installationBinding installationID deviceSecret) with
  | .ok true => respond 401 "authentication record not found"
  | .ok false => revokeStaleDevice installationID deviceSecret
  | .error bindingErr =>
    if bindingErr.is .authDeviceMismatch then respond 403 "device binding mismatch"
    else if !bindingErr.is .authNotFound then respond 500 "authentication storage failed"
    else revokeStaleDevice installationID deviceSecret

/-- Delete everything of the calling device. -/
def revokeMobileDevice (device : DeviceCredentials) : Handler Unit :=
  withAuthBroker env do
    let installationID := trimSpace device.installationID
    let deviceSecret := trimSpace device.deviceSecret
    if device.token = "" ∨ installationID = "" ∨ deviceSecret = "" then
      respond 401 "missing backend session credentials"
    else
      match ← authStore (.resolveSession device.token installationID deviceSecret
          env.cfg.authSessionTTL) with
      | .ok _ => revokeDevice installationID deviceSecret
      | .error sessionErr =>
        if sessionErr.is .authDeviceMismatch then respond 403 "device binding mismatch"
        else if sessionErr.is .authNotFound then revokeUnknown installationID deviceSecret
        else if sessionErr.is .authExpired then revokeStaleDevice installationID deviceSecret
        else respond 500 "authentication storage failed"

/-! ## Signing out everywhere -/

/-- Twitch revokes the tokens; a failure is only logged. -/
def revokeAccessTokens (env : Env) : List AuthCredential → Handler Unit
  | [] => pure ()
  | credential :: credentials => do
    let _ ← revokeAccessToken env credential
    revokeAccessTokens env credentials

/-- Delete the queues; the first failure stops the loop. -/
def deleteDeliveriesOf : List String → Handler (Result Unit)
  | [] => pure (.ok ())
  | installationID :: installationIDs => do
    match ← deliveries (.deleteForInstallation installationID) with
    | .error err => pure (.error err)
    | .ok _ => deleteDeliveriesOf installationIDs

/-- Close the sockets of the installations. -/
def closeSockets : List String → Handler Unit
  | [] => pure ()
  | installationID :: installationIDs => do
    let _ ← hub (.close installationID)
    closeSockets installationIDs

/-- The end of `revokeAllMobileSessions`. -/
def revokeLogins (userID : String) (installationIDs : List String) : Handler Unit := do
  match ← authStore (.revokeAccount userID installationIDs) with
  | .error _ => respond 500 "failed to revoke account sessions"
  | .ok _ =>
    closeSockets installationIDs
    respond 204 ""
    host .requestEventSubReconcile

/-- Its deletions, once the installations are gathered. -/
def revokeGathered (userID : String) (credentials : List AuthCredential)
    (installationSet : List String) : Handler Unit := do
  revokeAccessTokens env credentials
  match ← store (.deleteForAccount userID (installationSet.insertionSort (· ≤ ·))) with
  | .error _ => respond 500 "failed to delete account registrations"
  | .ok removed =>
    let installationSet := (installationSet ++ removed).dedup
    match ← deleteDeliveriesOf installationSet with
    | .error _ => respond 500 "failed to delete account deliveries"
    | .ok () => revokeLogins userID (installationSet.insertionSort (· ≤ ·))

/-- Its part after the account is known. -/
def revokeAccountSessions (installationID userID : String) : Handler Unit := do
  let targets? ← authStore (.accountRevocationTargets userID)
  let targets : Result AccountRevocationTargets := match targets? with
    | .ok targets => .ok targets
    | .error err => if err.is .authNotFound then .ok ⟨[], []⟩ else .error err
  match targets with
  | .error _ => respond 500 "failed to enumerate account sessions"
  | .ok targets =>
    let registrations ← store .list
    let registered := (registrations.filter (·.userID == userID)).map (·.installationID)
    revokeGathered env userID targets.credentials
      (installationID :: targets.installationIDs ++ registered).dedup

/-- An account without a name cannot be revoked. -/
def revokeNamedAccount (installationID userID : String) : Handler Unit :=
  if userID = "" then respond 401 "Twitch account binding is missing"
  else revokeAccountSessions env installationID userID

/-- Without a session the account is that of the registration. -/
def revokeStaleAccount (installationID deviceSecret : String) : Handler Unit := do
  match ← store (.authenticate installationID deviceSecret) with
  | .error err =>
    if err.is .deviceSecretMismatch then respond 403 "device secret mismatch"
    else if err.is .registrationNotFound then respond 204 ""
    else respond 500 "failed to authenticate device registration"
  | .ok registration => revokeNamedAccount env installationID (trimSpace registration.userID)

/-- Delete everything of the calling user. -/
def revokeAllMobileSessions (device : DeviceCredentials) : Handler Unit :=
  withAuthBroker env do
    let installationID := trimSpace device.installationID
    let deviceSecret := trimSpace device.deviceSecret
    if device.token = "" ∨ installationID = "" ∨ deviceSecret = "" then
      respond 401 "missing backend session credentials"
    else
      match ← authStore (.sessionAccount device.token installationID deviceSecret) with
      | .ok (userID, _) => revokeNamedAccount env installationID userID
      | .error sessionErr =>
        if sessionErr.is .authDeviceMismatch then respond 403 "device binding mismatch"
        else if sessionErr.is .authNotFound then
          match ← authStore (.installationBinding installationID deviceSecret) with
          | .ok true => respond 401 "authentication record not found"
          | .ok false => revokeStaleAccount env installationID deviceSecret
          | .error bindingErr =>
            if bindingErr.is .authDeviceMismatch then respond 403 "device binding mismatch"
            else if !bindingErr.is .authNotFound then respond 500 "authentication storage failed"
            else revokeStaleAccount env installationID deviceSecret
        else respond 500 "authentication storage failed"

end Ferventio
