import Mathlib.Algebra.GroupWithZero.Nat
import NexaStays.AccessTokens
import NexaStays.LoginStore
import NexaStays.PhoneChange
import NexaStays.RowOrder
import NexaStays.Secrets
import NexaStays.Sumsub

/-!
# The login by PIN

`verifyPin` checks the PIN of the account that is stored under the normal form of the number,
and logs in the account that `findAccountsByPhone` lists first with the requested type. The
lockouts, the trusted devices and the decision of the risk middleware stand in between.
-/
namespace NexaStays.PinLogin

open NexaStays.KeyedTable NexaStays.Transactions NexaStays.EntitySave NexaStays.PersonStore
open NexaStays.LoginStore NexaStays.AccessTokens NexaStays.Secrets NexaStays.RowOrder
open NexaStays.IdentityPhones
open NexaStays.PhoneChange (normalizedOrThrow)
open NexaStays.IdentityStore (AccountType PinAttempt TrustedDevice)
open NexaStays.SqlText (trim)
open NexaStays.Sumsub (slice)

structure PinConfig where
  hashes : Hashes
  attemptWindowMinutes : ℕ
  maxAttempts : ℕ
  baseLockoutSeconds : ℕ
  maxLockoutSeconds : ℕ

structure RefreshTokenContext where
  deviceId : Option String
  userAgent : Option String
  deriving DecidableEq, Repr

inductive RiskAuthLevel where
  | low | medium | high
  deriving DecidableEq, Repr

structure AdaptiveRiskDecision where
  riskScore : ℕ
  level : RiskAuthLevel
  reasonCodes : List String
  deriving DecidableEq, Repr

/-- `checkedId` is history, no part of the answer: the account whose PIN was checked and whose
lockout was consulted. -/
structure PinAnswer where
  accessToken : AccessToken
  accountType : AccountType
  userId : ℕ
  refreshToken : RefreshToken
  checkedId : ℕ
  deriving DecidableEq, Repr

def accountTypeText : AccountType → String
  | .consumer => "CONSUMER"
  | .driver => "DRIVER"
  | .courier => "COURIER"
  | .host => "HOST"
  | .merchant => "MERCHANT"
  | .admin => "ADMIN"

variable (config : PinConfig)

/-- `Math.ceil(ms / 1000)`, for a time that is left. -/
def ceilSeconds (ms : ℤ) : ℤ := (ms + 999) / 1000

structure PinLockoutStatus where
  locked : Bool
  retryAfterSeconds : ℤ
  lockedUntil : Option ℤ
  deriving DecidableEq, Repr

structure PinFailureResult extends PinLockoutStatus where
  attemptsRemaining : ℕ
  deriving DecidableEq, Repr

def getOrCreate (userId : ℕ) : Login PinAttempt := do
  let found ← Login.read fun s => s.pinAttempts.find? userId
  match found with
  | some attempt => pure attempt
  | none => do
    let now ← Login.now
    saveEntity (savedAttempt userId) .database ⟨userId, 0, 0, none, none, now⟩
    pure ⟨userId, 0, 0, none, none, now⟩

def getStatus (userId : ℕ) : Login PinLockoutStatus := do
  let attempt ← getOrCreate userId
  let now ← Login.now
  match attempt.lockoutUntil with
  | none => pure ⟨false, 0, none⟩
  | some lockoutUntil =>
    if lockoutUntil - now ≤ 0 then do
      saveEntity (savedAttempt userId) .database
        { attempt with
          lockoutUntil := none
          failedCount := 0
          firstFailedAt := none
          updatedAt := now }
      pure ⟨false, 0, none⟩
    else pure ⟨true, ceilSeconds (lockoutUntil - now), some lockoutUntil⟩

/-- The failures of the window that is running at `now`. -/
def windowOf (now : ℤ) (attempt : PinAttempt) : ℕ × Option ℤ :=
  match attempt.firstFailedAt with
  | none => (0, some now)
  | some first =>
    if config.attemptWindowMinutes * 60 * 1000 < now - first then (0, some now)
    else (attempt.failedCount, some first)

def lockoutSeconds (level : ℕ) : ℕ :=
  min (config.baseLockoutSeconds * 2 ^ (level - 1)) config.maxLockoutSeconds

def recordFailure (userId : ℕ) : Login PinFailureResult := do
  let attempt ← getOrCreate userId
  let now ← Login.now
  let count := (windowOf config now attempt).1 + 1
  if config.maxAttempts ≤ count then do
    let seconds := lockoutSeconds config (attempt.lockoutLevel + 1)
    saveEntity (savedAttempt userId) .database
      { attempt with
        lockoutLevel := attempt.lockoutLevel + 1
        lockoutUntil := some (now + seconds * 1000)
        failedCount := 0
        firstFailedAt := none
        updatedAt := now }
    pure ⟨⟨true, seconds, some (now + seconds * 1000)⟩, 0⟩
  else do
    saveEntity (savedAttempt userId) .database
      { attempt with
        failedCount := count
        firstFailedAt := (windowOf config now attempt).2
        updatedAt := now }
    pure ⟨⟨false, 0, none⟩, config.maxAttempts - count⟩

def recordSuccess (userId : ℕ) : Login Unit := do
  let found ← Login.read fun s => s.pinAttempts.find? userId
  match found with
  | none => pure ()
  | some attempt => do
    let now ← Login.now
    saveEntity (savedAttempt userId) .database
      { attempt with
        failedCount := 0
        lockoutLevel := 0
        lockoutUntil := none
        firstFailedAt := none
        updatedAt := now }

def normalizedPhone (phoneNumber : String) : Except LoginError String :=
  (normalizedOrThrow phoneNumber).mapError .person

/-- The accounts of a type that are stored under exactly this text. -/
def storedUnder (text : String) (requested : AccountType) (users : List User) : List User :=
  users.filter fun u => u.phoneNumber = some text ∧ u.accountType = some requested

def findAccount (phoneNumber normalized : String) (requested : AccountType) :
    Login (Option User) := do
  let account ← Login.findOne fun s => storedUnder normalized requested s.person.users.rows
  if account = none ∧ normalized ≠ phoneNumber then
    Login.findOne fun s => storedUnder phoneNumber requested s.person.users.rows
  else pure account

def noAccount (requested : AccountType) : LoginError :=
  .badRequest ("No " ++ accountTypeText requested ++ " account found for this phone number")

def lockedOut (accountId : ℕ) (status : PinLockoutStatus) : LoginError :=
  .refused
    { Refusal.of 429 "PIN_LOCKED_OUT" "Too many PIN attempts. Try again later." with
      accountId := some accountId
      retryAfterSeconds := some status.retryAfterSeconds
      lockedUntil := status.lockedUntil }

def pinInvalid (accountId attemptsRemaining : ℕ) : LoginError :=
  .refused
    { Refusal.of 401 "PIN_INVALID" "Invalid PIN" with
      accountId := some accountId
      attemptsRemaining := some attemptsRemaining }

/-- A wrong PIN is counted and refused. -/
def refusePin (userId : ℕ) : Login Unit := do
  let failure ← recordFailure config userId
  if failure.locked then Program.throw (lockedOut userId failure.toPinLockoutStatus)
  else Program.throw (pinInvalid userId failure.attemptsRemaining)

/-- The hash that replaces one of an older kind. -/
def rehash (userId : ℕ) (pin : String) : Login Unit := do
  let salt ← Program.receive
  let _ ← Login.update fun s => (s.person.users.find? userId).toList.map fun u =>
    .person (.user { u with pinHash := config.hashes.argon2Hash salt pin })

def renewHash (account : User) (pin : String) : Login Unit :=
  if (verifyPinHash config.hashes pin account.pinHash).needsRehash then rehash config account.id pin
  else pure ()

/-- The lockout and the PIN of the account. -/
def checkPin (account : User) (pin : String) : Login Unit := do
  let status ← getStatus account.id
  Program.require (status.locked = false) (lockedOut account.id status)
  if (verifyPinHash config.hashes pin account.pinHash).valid then do
    renewHash config account pin
    recordSuccess account.id
  else refusePin config account.id

def findAccountsByPhone (phoneNumber : String) : Login (List (ℕ × AccountType)) := do
  let rows ← findAll .database fun s => usersByPhone phoneNumber s.person
  pure (rows.map fun u => (u.id, u.accountType.getD .consumer))

def noSelected (requested : AccountType) (accounts : List (ℕ × AccountType)) : LoginError :=
  .badRequest ("No " ++ accountTypeText requested ++ " account for this phone. Available: " ++
    (if accounts = [] then "none"
      else ", ".intercalate (accounts.map fun a => accountTypeText a.2)) ++ ".")

def trimmedDevice (deviceId : Option String) : String := trim (deviceId.getD "")

def devicesOf (userId : ℕ) (deviceId : Option String) (s : LoginStore.Store) :
    List TrustedDevice :=
  s.trustedDevices.rows.filter fun d =>
    d.userId = userId ∧ d.deviceId = slice 120 (trimmedDevice deviceId)

def isTrustedDevice (userId : ℕ) (deviceId : Option String) : Login Bool :=
  if trimmedDevice deviceId = "" then pure false
  else do
    let trusted ← Login.findOne fun s => (devicesOf userId deviceId s).filter (·.trusted)
    pure trusted.isSome

def normalizedDeviceName (userAgent : Option String) : Option String :=
  if trim (userAgent.getD "") = "" then none else some (slice 120 (trim (userAgent.getD "")))

def upsertTrustedDevice (userId : ℕ) (ctx : RefreshTokenContext) (trusted : Bool) : Login Unit :=
  if trimmedDevice ctx.deviceId = "" then pure ()
  else do
    let now ← Login.now
    let existing ← Login.findOne (devicesOf userId ctx.deviceId)
    match existing with
    | none => do
      let _ ← Login.insert fun id => .trustedDevice
        ⟨id, userId, slice 120 (trimmedDevice ctx.deviceId), normalizedDeviceName ctx.userAgent,
          trusted, now⟩
    | some device =>
      saveEntity (savedDevice device.id) .database
        { device with
          lastSeenAt := now
          deviceName := (normalizedDeviceName ctx.userAgent).or device.deviceName
          trusted := trusted || device.trusted }

def newDevice : LoginError :=
  .refused
    { Refusal.of 401 "NEW_DEVICE_VERIFICATION_REQUIRED"
        "New device verification required. Please verify with OTP." with
      otpRequired := true }

def checkDevice (userId : ℕ) (ctx : RefreshTokenContext) : Login Unit := do
  let trusted ← isTrustedDevice userId ctx.deviceId
  upsertTrustedDevice userId ctx trusted
  Program.require (trusted = true) newDevice

def riskReview (accountId : ℕ) (decision : AdaptiveRiskDecision) : LoginError :=
  .refused
    { Refusal.of 403 "RISK_REVIEW_REQUIRED"
        "Login blocked due to high risk signals. Manual review is required." with
      accountId := some accountId
      riskScore := some decision.riskScore
      reasonCodes := decision.reasonCodes }

def checkRisk (accountId : ℕ) : Option AdaptiveRiskDecision → Login Unit
  | none => pure ()
  | some decision => Program.require (decision.level ≠ .high) (riskReview accountId decision)

/-- The identity on the row whose PIN was checked, or else that of the number. -/
def identityOf (account : User) (normalized : String) : Login ℕ :=
  match account.unifiedIdentityId with
  | some identityId => pure identityId
  | none => do
    let identity ← Login.onPerson (findOrCreateByPhone normalized)
    pure identity.id

def recordLogin (userId : ℕ) : Login Unit := do
  let now ← Login.now
  let _ ← Login.update fun s => (s.person.users.find? userId).toList.map fun u =>
    .person (.user { u with lastLoginAt := some (now : ℤ) })

def issueTokens (account : User) (selected : ℕ × AccountType) (normalized : String) :
    Login PinAnswer := do
  recordLogin selected.1
  let identityId ← identityOf account normalized
  let profile ← Login.onPerson (tokenProfileForUser selected.1)
  let refreshToken ← Login.onPerson (issueRefreshToken selected.1)
  pure
    { accessToken := issueAccountScopedToken selected.1 identityId selected.2 "pin_only" profile
      accountType := selected.2
      userId := selected.1
      refreshToken
      checkedId := account.id }

/-- The steps after the PIN. -/
def loginSelected (account : User) (normalized : String) (requested : AccountType)
    (ctx : RefreshTokenContext) (riskDecision : Option AdaptiveRiskDecision) :
    Login PinAnswer := do
  let accounts ← findAccountsByPhone normalized
  let selected ← Program.expect (accounts.find? fun a => a.2 = requested)
    (noSelected requested accounts)
  checkDevice selected.1 ctx
  checkRisk selected.1 riskDecision
  issueTokens account selected normalized

def verifyPin (phoneNumber pin : String) (accountType : Option AccountType)
    (ctx : RefreshTokenContext) (riskDecision : Option AdaptiveRiskDecision) :
    Login PinAnswer := do
  let normalized ← Program.ofExcept (normalizedPhone phoneNumber)
  let requested := accountType.getD .consumer
  let found ← findAccount phoneNumber normalized requested
  let account ← Program.expect found (noAccount requested)
  checkPin config account pin
  loginSelected account normalized requested ctx riskDecision

end NexaStays.PinLogin
