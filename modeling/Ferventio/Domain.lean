import Mathlib.Algebra.Group.Nat.Defs
import Mathlib.Algebra.Group.Int.Defs
import Ferventio.Lib.Table

/-!
# Domain records

The records that the stores keep and the handlers pass around, with the errors they return. The
field names are those of the Go structures. Strings that range over a fixed set of words are
enumerations; instants and durations are integers, counted from Go's zero time, so that `IsZero`
is equality with `0`.
-/

namespace Ferventio

/-! ## Time -/

/-- An instant; `0` is Go's zero time. -/
abbrev Time := Int

/-- A length of time, in nanoseconds. -/
abbrev Duration := Int

/-- `time.Millisecond`. -/
def millisecond : Duration := 1000000
/-- `time.Second`. -/
def second : Duration := 1000000000
/-- `time.Minute`. -/
def minute : Duration := 60 * second
/-- `time.Hour`. -/
def hour : Duration := 60 * minute

/-- `time.Duration(n) * time.Second`, which wraps around at 64 bits. -/
def durationSeconds (n : Int) : Duration := Int.bmod (n * second) (2 ^ 64)

/-- The instant of the Unix epoch, counted from the zero time. -/
def unixEpoch : Time := 62135596800 * second

/-- `time.Time.UnixMilli`, which rounds towards minus infinity. -/
def unixMilli (t : Time) : Int := (t - unixEpoch) / millisecond

/-! ## Errors -/

/-- The errors that handlers and stores distinguish. -/
inductive GoError
  | registrationNotFound
  | deviceSecretMismatch
  | authNotFound
  | authExpired
  | authDeviceMismatch
  | authStateMismatch
  | authCapacity
  | oauthRevoked
  | settingsSyncConflict
  | settingsSyncRevisionNotFound
  | plain (text : String)
  | wrapped (context : String) (cause : GoError)
  | joined (first rest : GoError)
deriving DecidableEq

namespace GoError

/-- `err.Error()`. -/
def text : GoError → String
  | registrationNotFound => "registration not found"
  | deviceSecretMismatch => "device secret mismatch"
  | authNotFound => "authentication record not found"
  | authExpired => "authentication record expired"
  | authDeviceMismatch => "authentication device mismatch"
  | authStateMismatch => "authentication state mismatch"
  | authCapacity => "authentication store capacity exceeded"
  | oauthRevoked => "Twitch authorization is no longer valid"
  | settingsSyncConflict => "settings sync revision conflict"
  | settingsSyncRevisionNotFound => "settings sync revision not found"
  | plain text => text
  | wrapped context cause => context ++ ": " ++ cause.text
  | joined first rest => first.text ++ "\n" ++ rest.text

/-- `errors.Is(err, target)` for a sentinel `target`. -/
def is : GoError → GoError → Bool
  | wrapped context cause, target => wrapped context cause == target || cause.is target
  | joined first rest, target => joined first rest == target || first.is target || rest.is target
  | e, target => e == target

end GoError

/-- The answer of a Go function that returns `(α, error)`. -/
abbrev Result (α : Type) := Except GoError α

theorem result_bind_eq_ok {α β : Type} {x : Result α} {f : α → Result β} {b : β} :
    x >>= f = .ok b ↔ ∃ a, x = .ok a ∧ f a = .ok b := by
  cases x with
  | error => exact iff_of_false nofun fun ⟨a, h, _⟩ => nomatch h
  | ok a =>
    constructor
    · exact fun h => ⟨a, rfl, h⟩
    · rintro ⟨a', h, h'⟩
      cases h
      exact h'

/-- `errors.Join`, which is nil when there are no errors. -/
def joinErrors : List GoError → Result Unit
  | [] => .ok ()
  | err :: errs =>
    match joinErrors errs with
    | .ok () => .error err
    | .error rest => .error (.joined err rest)

theorem joinErrors_eq_ok {errs : List GoError} (h : joinErrors errs = .ok ()) : errs = [] := by
  cases errs with
  | nil => rfl
  | cons =>
    rw [joinErrors] at h
    split at h <;> cases h

/-! ## Deliveries -/

/-- The states of a delivery. -/
inductive DeliveryStatus
  | unset
  | pending
  | sent
  | acked
  | dead
deriving DecidableEq

/-- What is pushed to an app. -/
structure Notification where
  eventID : String := ""
  type : String := ""
  title : String := ""
  body : String := ""
  channelID : String := ""
  channelLogin : String := ""
  messageID : String := ""
  actorID : String := ""
  actorLogin : String := ""
  actorDisplayName : String := ""
  destination : String := ""
  silent : Bool := false
  createdAtEpochMillis : Int := 0
deriving DecidableEq

/-- A notification in the queue of an installation. -/
structure DeliveryRecord where
  id : String
  eventID : String
  installationID : String
  notification : Notification
  status : DeliveryStatus := .unset
  attemptCount : Nat := 0
  availableAt : Time := 0
  expiresAt : Time := 0
  createdAt : Time := 0
  sentAt : Time := 0
  ackedAt : Time := 0
  lastError : String := ""
deriving DecidableEq

/-- What was last announced of a channel. -/
structure ChannelNotificationState where
  title : String
  categoryName : String
  updatedAt : Time
deriving DecidableEq

/-- The limit of the queue. -/
def maxDeliveryRecords : Nat := 50000
/-- The limit of the seen messages. -/
def maxSeenEventRecords : Nat := 100000
/-- The limit of the inbox. -/
def maxEventSubInboxRecords : Nat := 100000

/-! ## EventSub messages -/

/-- A decoded JSON value; a number is the text that `%.0f` prints. -/
inductive Json
  | null
  | bool (b : Bool)
  | num (text : String)
  | str (s : String)
  | arr (items : List Json)
  | obj (fields : List (String × Json))

/-- The subscription that a message is about. -/
structure EventSubSubscriptionInfo where
  id : String := ""
  type : String := ""
  version : String := ""
  status : String := ""
  condition : List (String × String) := []

/-- The body of a message. -/
structure EventSubEnvelope where
  challenge : String := ""
  subscription : EventSubSubscriptionInfo := {}
  event : List (String × Json) := []

/-- The states of a message. -/
inductive EventSubInboxStatus
  | pending
  | dead
deriving DecidableEq

/-- A message in the inbox. -/
structure EventSubInboxRecord where
  messageID : String
  envelope : EventSubEnvelope
  status : EventSubInboxStatus
  attemptCount : Nat := 0
  availableAt : Time
  expiresAt : Time
  receivedAt : Time
  lastAttemptAt : Time := 0
  lastError : String := ""

/-- The four maps of the delivery store. -/
structure DeliveryDiskState where
  records : Table String DeliveryRecord := ∅
  seen : Table String Time := ∅
  eventSubInbox : Table String EventSubInboxRecord := ∅
  channelStates : Table String ChannelNotificationState := ∅

/-! ## Registrations -/

/-- A registered installation. -/
structure Registration where
  installationID : String
  deviceSecret : String := ""
  deviceSecretHash : String := ""
  provider : String := ""
  firebaseInstallation : String := ""
  apnsDeviceToken : String := ""
  endpoint : String := ""
  p256dh : String := ""
  auth : String := ""
  appVersion : String := ""
  platform : String := ""
  userID : String := ""
  userLogin : String := ""
  channelIDs : List String := []
  moderatorChannelIDs : List String := []
  notificationRules : List String := []
  notificationChannelRules : Table String (List String) := ∅
  notificationChannelMutedUntilEpochMillis : Table String Int := ∅
  highlightPhrases : List String := []
  selectedUserLogins : List String := []
  updatedAt : Time := 0

/-! ## Logins -/

/-- A Twitch credential, with its tokens in plain text. -/
structure AuthCredential where
  id : String
  clientID : String
  userID : String
  login : String := ""
  scopes : List String := []
  accessToken : String
  refreshToken : String
  accessExpiresAt : Time
  lastValidatedAt : Time
  updatedAt : Time := 0
deriving DecidableEq

/-- The session of a device. -/
structure AuthSessionRecord where
  credentialID : String
  installationID : String
  deviceHash : String
  createdAt : Time
  expiresAt : Time
deriving DecidableEq

/-- A login that was started. -/
structure PendingAuthRecord where
  installationID : String
  deviceHash : String
  appCallbackURI : String
  createdAt : Time
  expiresAt : Time
deriving DecidableEq

/-- A login that the app may complete. -/
structure AuthHandoffRecord where
  credentialID : String
  installationID : String
  deviceHash : String
  appCallbackURI : String
  stateHash : String
  createdAt : Time
  expiresAt : Time
deriving DecidableEq

/-- The login store, keyed by hashes of tokens, states and codes. -/
structure AuthDiskState where
  credentials : Table String AuthCredential := ∅
  sessions : Table String AuthSessionRecord := ∅
  pending : Table String PendingAuthRecord := ∅
  handoffs : Table String AuthHandoffRecord := ∅

/-- The limit of pending logins. -/
def maxPendingAuthRecords : Nat := 10000
/-- The limit of handoffs. -/
def maxAuthHandoffs : Nat := 10000
/-- The limit of sessions. -/
def maxAuthSessions : Nat := 100000

/-- What an account revocation reaches. -/
structure AccountRevocationTargets where
  installationIDs : List String
  credentials : List AuthCredential
deriving DecidableEq

/-! ## Settings -/

/-- The snapshots that are kept. -/
def maxSettingsSyncHistory : Nat := 20

/-- A revision of a user's settings. -/
structure SettingsSyncSnapshot where
  revision : Int := 0
  updatedAt : Time := 0
  updatedByInstallationID : String := ""
  appVersion : String := ""
  contentHash : String := ""
  payload : String := ""
deriving DecidableEq

/-- The settings of a user. -/
structure SettingsSyncUserState where
  current : Option SettingsSyncSnapshot := none
  history : List SettingsSyncSnapshot := []

end Ferventio
