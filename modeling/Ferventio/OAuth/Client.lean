import Ferventio.Server.World

/-!
# The Twitch OAuth client

`application/twitch_oauth.go`: exchanging an authorization code, leasing a credential, and listing
the channels that a credential's user moderates. The paging of that list is one call.
-/

namespace Ferventio

open Strings

/-- `ensureScopes(actual, required) == nil`. -/
def ensureScopes (actual required : List String) : Result Unit :=
  let missing := required.filter fun scope => !actual.contains scope
  if missing ≠ [] then
    .error (.plain ("Twitch authorization is missing scopes: " ++ ", ".intercalate missing))
  else .ok ()

/-- Trimmed, distinct and sorted. -/
def normalizedScopes (scopes : List String) : List String :=
  (((scopes.map trimSpace).filter (· != "")).dedup).insertionSort (· ≤ ·)

/-- The smaller positive number. -/
def minPositiveInt64 (left right : Int) : Int :=
  if left ≤ 0 then right
  else if right ≤ 0 then left
  else if left < right then left
  else right

/-! ## Leasing -/

/-- For the server's client, the credential's user and every scope. -/
def validationMatches (cfg : ServerConfig) (credential : AuthCredential)
    (validation : TwitchValidationResponse) : Bool :=
  validation.clientID == cfg.twitchClientID && validation.userID == credential.userID &&
    (ensureScopes validation.scopes cfg.authScopes).isOk

/-- The credential after a validation. -/
def validatedCredential (now : Time) (validation : TwitchValidationResponse)
    (credential : AuthCredential) : AuthCredential :=
  { credential with
    login := validation.login
    scopes := normalizedScopes validation.scopes
    accessExpiresAt := now + durationSeconds validation.expiresIn
    lastValidatedAt := now
    updatedAt := now }

/-- The credential after a refresh. -/
def refreshedCredential (now : Time) (token : TwitchTokenResponse)
    (validation : TwitchValidationResponse) (credential : AuthCredential) : AuthCredential :=
  { credential with
    accessToken := token.accessToken
    refreshToken := token.refreshToken
    login := validation.login
    scopes := normalizedScopes validation.scopes
    accessExpiresAt := now +
      durationSeconds (minPositiveInt64 token.expiresIn validation.expiresIn)
    lastValidatedAt := now
    updatedAt := now }

variable (env : Env)

/-- The branch that exchanges the refresh token; new tokens are stored once validated. -/
def refreshCredential (now : Time) (credential : AuthCredential) :
    Handler (Result AuthCredential) := do
  match ← twitch (.requestToken (.refreshToken credential.refreshToken)) with
  | .error err => pure (.error err)
  | .ok refreshed =>
    match ← twitch (.validate refreshed.accessToken) with
    | .error err => pure (.error err)
    | .ok validation =>
      if !validationMatches env.cfg credential validation then pure (.error .oauthRevoked)
      else
        let credential := refreshedCredential now refreshed validation credential
        match ← authStore (.putCredential credential) with
        | .error err => pure (.error err)
        | .ok () => pure (.ok credential)

/-- How long before its expiry an access token is refreshed. -/
def refreshAhead (cfg : ServerConfig) : Duration :=
  if cfg.authAccessRefreshAhead ≤ 0 then 5 * minute else cfg.authAccessRefreshAhead

/-- `lease` between taking and releasing the credential's mutex. -/
def leaseLocked (credentialID : String) (forceRefresh : Bool) :
    Handler (Result AuthCredential) := do
  match ← authStore (.getCredential credentialID) with
  | .error err => pure (.error err)
  | .ok credential =>
    let now : Time ← host .now
    if forceRefresh ∨ credential.accessExpiresAt < now + refreshAhead env.cfg then
      refreshCredential env now credential
    else if now - credential.lastValidatedAt ≥ 55 * minute then
      match ← twitch (.validate credential.accessToken) with
      | .error err =>
        if err.is .oauthRevoked then refreshCredential env now credential else pure (.error err)
      | .ok validation =>
        if !validationMatches env.cfg credential validation then pure (.error .oauthRevoked)
        else
          let credential := validatedCredential now validation credential
          match ← authStore (.putCredential credential) with
          | .error err => pure (.error err)
          | .ok () => pure (.ok credential)
    else pure (.ok credential)

/-- Lease a token under the mutex. -/
def lease (credentialID : String) (forceRefresh : Bool) :
    Handler (Result AuthCredential) := do
  let mutex := Mutex.credential (env.lockStripe credentialID)
  let _ ← host (.lock mutex)
  let result ← leaseLocked env credentialID forceRefresh
  let _ ← host (.unlock mutex)
  pure result

/-! ## Signing in -/

/-- A credential for a code. -/
def exchangeCode (code : String) : Handler (Result AuthCredential) := do
  match ← twitch (.requestToken (.authorizationCode code)) with
  | .error err => pure (.error err)
  | .ok token =>
    match ← twitch (.validate token.accessToken) with
    | .error err => pure (.error err)
    | .ok validation =>
      if validation.clientID ≠ env.cfg.twitchClientID then
        pure (.error (.plain "Twitch returned a token for another client ID"))
      else
        match ensureScopes validation.scopes env.cfg.authScopes with
        | .error err => pure (.error err)
        | .ok () =>
          match ← host (.randomToken "fc1_" 24) with
          | .error err => pure (.error err)
          | .ok id =>
            let now : Time ← host .now
            pure (.ok
              { id := id
                clientID := validation.clientID
                userID := validation.userID
                login := validation.login
                scopes := normalizedScopes validation.scopes
                accessToken := token.accessToken
                refreshToken := token.refreshToken
                accessExpiresAt := now +
                  durationSeconds (minPositiveInt64 token.expiresIn validation.expiresIn)
                lastValidatedAt := now
                updatedAt := now })

/-- It holds the credential's mutex during its request. -/
def revokeAccessToken (env : Env) (credential : AuthCredential) : Handler (Result Unit) := do
  let mutex := Mutex.credential (env.lockStripe credential.id)
  let _ ← host (.lock mutex)
  let result ← twitch (.revokeAccessToken credential.accessToken)
  let _ ← host (.unlock mutex)
  pure result

/-! ## Moderated channels -/

/-- Trimmed, neither empty nor too long, each once up to case, at most `maxItems`. -/
def normalizeLimitedStrings (toLower : String → String) (values : List String)
    (maxItems maxLength : Nat) : List String :=
  go maxItems [] values
where
  /-- The loop, with the room that is left and the keys seen so far. -/
  go : Nat → List String → List String → List String
  | _, _, [] => []
  | room, seen, value :: values =>
    let value := trimSpace value
    if value = "" ∨ value.utf8ByteSize > maxLength ∨ seen.contains (toLower value) then
      go room seen values
    else
      match room with
      | 0 => [value]
      | 1 => [value]
      | room + 2 => value :: go (room + 1) (toLower value :: seen) values

/-- The channels that a user moderates. -/
def moderatedChannelIDs (credentialID : String) : Handler (Result (List String)) := do
  let now : Time ← host .now
  match ← host (.cachedModeratedChannels credentialID now) with
  | some ids => pure (.ok ids)
  | none =>
    match ← lease env credentialID false with
    | .error err => pure (.error err)
    | .ok credential =>
      match ← twitch (.moderatedChannels credential.userID credential.accessToken) with
      | .error err => pure (.error err)
      | .ok channels =>
        let ids := normalizeLimitedStrings env.toLower
          ((channels.map trimSpace).filter (· != "")) 1000 64
        let _ ← host (.cacheModeratedChannels credentialID ids (now + 5 * minute))
        pure (.ok ids)

end Ferventio
