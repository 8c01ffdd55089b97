import NexaStays.IdentityOnboarding
import NexaStays.PinLogin
import NexaStays.ProfileCache
import NexaStays.SessionStore
import NexaStays.StaffLogin

/-!
# The login by a code

`verifyOtp` checks a code that was sent to a number, makes sure that the number has an identity
and a consumer account, and issues the token of a session of the number; where one account can
be chosen, it issues the tokens of that account as well. `selectAccount` exchanges the token of
the session for those of an account. A session token stands for its random text.
-/
namespace NexaStays.OtpLogin

open NexaStays.KeyedTable NexaStays.Transactions NexaStays.EntitySave NexaStays.PersonStore
open NexaStays.SessionStore NexaStays.IdentityPhones NexaStays.RowOrder NexaStays.Secrets
open NexaStays.IdentityOnboarding NexaStays.AccessTokens
open NexaStays.LoginStore (Login LoginError)
open NexaStays.IdentityStore (AccountType OtpCode OtpSession)
open NexaStays.PhoneChange (OtpConfig matchesCode otpsOf normalizedOrThrow)
open NexaStays.PhoneNumbers (phoneLookupCandidates)
open NexaStays.PinLogin (RefreshTokenContext upsertTrustedDevice normalizedPhone)
open NexaStays.ProfileCache (SessionKind)
open NexaStays.StaffLogin (isLockedOut recordFailure recordSuccess)
open NexaStays.Sumsub (truthy)

structure SessionConfig where
  otp : OtpConfig
  hashes : Hashes
  refreshTokenPepper : String
  refreshTokenExpiresIn : ℤ

variable (config : SessionConfig)

def consumersByPhone (phoneNumber : String) (s : PersonStore.Store) : List User :=
  (usersByPhone phoneNumber s).filter fun u => u.accountType = some .consumer

/-- `findForKyc`, and `findConsumerByPhone` of the logins. -/
def findForKyc (phoneNumber : String) : Personal (Option User) :=
  if phoneLookupCandidates phoneNumber.toList = [] then pure none
  else Personal.findOne (consumersByPhone phoneNumber)

/-- A consumer account, with the defaults of the columns. -/
def newConsumer (phoneNumber : String) (fullName : Option String) (nationality pinHash : String)
    (createdAt : ℤ) (id : ℕ) : User :=
  { id
    phoneNumber := some phoneNumber
    unifiedIdentityId := none
    fullName
    email := none
    nationality := some nationality
    city := none
    dateOfBirth := none
    profilePhotoUrl := none
    profileLockedAt := none
    accountType := some .consumer
    linkedUserId := none
    kycStatus := "PENDING"
    pinHash
    status := "ACTIVE"
    riskScore := 0
    lastLoginAt := none
    deletionStatus := .none
    deletionRequestedAt := none
    deletionScheduledFor := none
    piiAnonymizedAt := none
    createdAt
    rewardsTier := "standard"
    staffRole := .admin
    staffPasswordHash := none
    authzVersion := 1 }

/-- The insertion of an account, which may violate an index of the database. -/
def insertUser (row : ℕ → User) : Personal User := do
  let violated ← Program.receive
  Program.require (violated = 0) .uniqueViolation
  let id ← Personal.insert fun id => .user (row id)
  pure (row id)

/-- A consumer account whose PIN has the hash, and the identity of its number. -/
def createConsumer (phone : String) (fullName : Option String) (nationality : String)
    (pinHash : Personal String) : Personal User := do
  let user ← Personal.transaction (do
    let hash ← pinHash
    let now ← Personal.now
    insertUser (newConsumer phone fullName nationality hash now))
  match truthy user.phoneNumber with
  | none => pure user
  | some phoneNumber => do
    let _ ← findOrCreateByPhone phoneNumber
    pure user

/-- The hash of a PIN that nobody knows. -/
def tempPinHash : Personal String := do
  let now ← Personal.now
  let random ← Program.receive
  let salt ← Program.receive
  pure (config.hashes.argon2Hash salt ("kyc-temp-" ++ toString now ++ "-" ++ toString random))

def findOrCreateForKyc (phoneNumber : String) (fullName nationality : Option String) :
    Personal User := do
  let phone ← Program.ofExcept (normalizedOrThrow phoneNumber)
  let existing ← findForKyc phone
  match existing with
  | some existing => pure existing
  | none =>
    Program.attempt
      (createConsumer phone fullName (nationality.getD "MA") (tempPinHash config))
      fun e =>
        if e = .uniqueViolation then do
          let found ← findForKyc phone
          Program.expect found e
        else .throw e

structure SessionToken where
  sub : String
  phoneNumber : String
  type : SessionKind
  unifiedIdentityId : ℕ
  deriving DecidableEq, Repr

/-- The random text of a token. -/
def randomText (n : ℕ) : String := toString n

def hashRefreshToken (plain : String) : String := config.otp.digest config.refreshTokenPepper plain

def issueRefreshToken (userId : ℕ) (deviceId userAgent ip : Option String)
    (replaces : Option ℕ) : Access String := do
  let n ← Program.receive
  let now ← Access.now
  let _ ← Access.insert fun id => .refreshToken
    { id
      userId
      tokenHash := hashRefreshToken config (randomText n)
      deviceId
      userAgent
      ip
      revokedAt := none
      expiresAt := now + config.refreshTokenExpiresIn * 1000
      replaces }
  pure (randomText n)

def findAccountsByPhone (phoneNumber : String) : Personal (List (ℕ × AccountType)) :=
  if phoneLookupCandidates phoneNumber.toList = [] then pure []
  else do
    let rows ← findAll .database (usersByPhone phoneNumber)
    pure (rows.map fun u => (u.id, u.accountType.getD .consumer))

structure VerifyOptions where
  registrationRole : Option String
  accountId : Option ℕ
  deriving DecidableEq, Repr

def requestedRole (options : VerifyOptions) : Option String :=
  (options.registrationRole.map String.toLower).filter (· ≠ "")

def autoSelected (accounts : List (ℕ × AccountType)) : Option (ℕ × AccountType) :=
  match accounts with
  | [(id, .consumer)] => some (id, .consumer)
  | [(id, .driver)] => some (id, .driver)
  | [(id, .courier)] => some (id, .courier)
  | _ => none

def preferredByRole (options : VerifyOptions) (accounts : List (ℕ × AccountType)) :
    Option (ℕ × AccountType) :=
  if requestedRole options = some "driver" then accounts.find? fun a => a.2 = .driver
  else if requestedRole options = some "courier" then accounts.find? fun a => a.2 = .courier
  else none

/-- The account whose tokens are issued. -/
def selected (options : VerifyOptions) (accounts : List (ℕ × AccountType)) :
    Option (ℕ × AccountType) :=
  match options.accountId with
  | some accountId => accounts.find? fun a => a.1 = accountId
  | none =>
    match (autoSelected accounts).or (preferredByRole options accounts) with
    | some account => some account
    | none =>
      if requestedRole options = none then accounts.find? fun a => a.2 = .consumer else none

structure OtpAnswer where
  verified : Bool
  sessionToken : Option SessionToken
  accounts : List (ℕ × AccountType)
  account : Option (ℕ × AccountType)
  onboarding : Option IdentityOnboardingState
  accessToken : Option AccessToken
  refreshToken : Option String
  deriving DecidableEq, Repr

def notVerified : OtpAnswer :=
  { verified := false
    sessionToken := none
    accounts := []
    account := none
    onboarding := none
    accessToken := none
    refreshToken := none }

/-- The access token and the refresh token of an account. -/
def issueTokens (account : ℕ × AccountType) (unifiedIdentityId : ℕ) (ip : String)
    (ctx : RefreshTokenContext) : Access (AccessToken × String) := do
  let profile ← Access.onPerson (tokenProfileForUser account.1)
  let refreshToken ← issueRefreshToken config account.1 ctx.deviceId ctx.userAgent (some ip) none
  Access.onLogin (upsertTrustedDevice account.1 ctx true)
  pure (issueAccountScopedToken account.1 unifiedIdentityId account.2 "otp_pin" profile,
    refreshToken)

/-- The accounts of a number, with a consumer account among them. -/
def accountsOf (norm : String) : Personal (List (ℕ × AccountType)) := do
  let accounts ← findAccountsByPhone norm
  if accounts.any fun a => a.2 = .consumer then pure accounts
  else do
    let _ ← findOrCreateForKyc config norm none none
    findAccountsByPhone norm

/-- `getNexaProfileByPhone`; what it answers is left out. -/
def readNexaProfile (norm : String) : Personal Unit := do
  let identity ← findIdentityByPhoneOrLegacy norm
  match identity with
  | some identity => if identity.phoneNumber = none then Personal.read fun _ => () else pure ()
  | none => do
    let users ← findAll .database (usersByPhone norm)
    if users = [] then pure () else Personal.read fun _ => ()

def onboardingOf (identity : UnifiedIdentity) (consumer : Option User) (kyc : Option KycProfile) :
    IdentityOnboardingState :=
  deriveIdentityOnboardingState
    { kycProfileExists := kyc.isSome
      kycStatus := (kyc.map (·.status)).or (consumer.map (·.kycStatus))
      userKycStatus := consumer.map (·.kycStatus)
      identityVerificationStatus := some identity.identityVerificationStatus
      identityVerified := identity.identityVerified }

def kycOf : Option User → Personal (Option KycProfile)
  | none => pure none
  | some consumer => Personal.read fun s => s.kycProfiles.find? consumer.id

/-- `otpSessionMinutes`, in milliseconds. -/
def otpSessionMs : ℤ := 120 * 60 * 1000

/-- The account that a session is about. -/
def sessionUser (consumer : Option User) (accounts : List (ℕ × AccountType)) : Option ℕ :=
  match consumer with
  | some consumer => some consumer.id
  | none =>
    match accounts with
    | [(id, .consumer)] => some id
    | _ => none

/-- The session of a number, with the text of its token. -/
def openSession (norm : String) (userId : Option ℕ) : Access String := do
  let n ← Program.receive
  let now ← Access.now
  let _ ← Access.insert fun id => .otpSession
    { id
      phoneNumber := norm
      userId
      sessionToken := randomText n
      expiresAt := now + otpSessionMs
      consumed := false }
  pure (randomText n)

/-- What an accepted code opens. -/
def verified (norm ip : String) (ctx : RefreshTokenContext) (options : VerifyOptions) :
    Access OtpAnswer := do
  let identity ← Access.onPerson (findOrCreateByPhone norm)
  let accounts ← Access.onPerson (accountsOf config norm)
  let consumer ← Access.onPerson (findForKyc norm)
  let kyc ← Access.onPerson (kycOf consumer)
  Access.onPerson (readNexaProfile norm)
  let sub ← openSession norm (sessionUser consumer accounts)
  let answer : OtpAnswer :=
    { verified := true
      sessionToken := some ⟨sub, norm, .identitySession, identity.id⟩
      accounts
      account := none
      onboarding := some (onboardingOf identity consumer kyc)
      accessToken := none
      refreshToken := none }
  match selected options accounts with
  -- the lookup of a verification that could be reused changes nothing, and may fail
  | none => pure answer
  | some account => do
    let tokens ← issueTokens config account identity.id ip ctx
    pure { answer with
      account := some account
      accessToken := some tokens.1
      refreshToken := some tokens.2 }

/-- A code that does not match is counted. -/
def refuseCode (norm ip : String) (record : OtpCode) : Access OtpAnswer := do
  Access.onLogin (recordFailure norm ip)
  let now ← Access.now
  Access.onPerson (saveEntity (savedOtp record.id) .database
    { record with
      attempts := record.attempts + 1
      consumedAt := if 5 ≤ record.attempts + 1 then some (now : ℤ) else record.consumedAt })
  pure notVerified

def acceptCode (norm ip : String) (record : OtpCode) : Access Unit := do
  Access.onLogin (recordSuccess norm ip)
  let now ← Access.now
  Access.onPerson (saveEntity (savedOtp record.id) .database
    { record with consumedAt := some (now : ℤ) })

def tooManyAttempts : LoginError := .badRequest "Too many attempts. Try again later."

def verifyOtp (phoneNumber otp ip : String) (ctx : RefreshTokenContext)
    (options : VerifyOptions) : Access OtpAnswer := do
  let norm ← Program.ofExcept (normalizedPhone phoneNumber)
  let locked ← Access.onLogin (isLockedOut norm ip)
  Program.require (locked = false) tooManyAttempts
  let found ← Access.onPerson (Personal.findOne (otpsOf [norm]))
  match found with
  | none => do
    Access.onLogin (recordFailure norm ip)
    pure notVerified
  | some record =>
    if record.consumedAt.isSome then do
      Access.onLogin (recordFailure norm ip)
      pure notVerified
    else do
      let now ← Access.now
      if record.expiresAt < now then pure notVerified
      else if matchesCode config.otp otp record then do
        acceptCode norm ip record
        verified config norm ip ctx options
      else refuseCode norm ip record

structure SelectAnswer where
  accessToken : AccessToken
  refreshToken : String
  account : ℕ × AccountType
  deriving DecidableEq, Repr

/-- The session that a token names, as long as it can be used. -/
def usableSession (now : ℤ) (found : Option OtpSession) : Option OtpSession :=
  found.filter fun session => session.consumed = false ∧ ¬session.expiresAt < now

def notFoundForIdentity (accountId : ℕ) (accounts : List (ℕ × AccountType)) : LoginError :=
  .badRequest ("Account " ++ toString accountId ++ " not found for this identity. Available: " ++
    ", ".intercalate (accounts.map fun a => PinLogin.accountTypeText a.2))

/-- The token has been verified; it always names an identity. -/
def selectAccount (token : SessionToken) (accountId : ℕ) (ctx : RefreshTokenContext) (ip : String) :
    Access SelectAnswer := do
  let found ← Access.findOne fun s =>
    s.otpSessions.rows.filter fun session => session.sessionToken = token.sub
  let now ← Access.now
  let session ← Program.expect (usableSession now found)
    (.person (.unauthorized "Identity session expired or already used"))
  let accounts ← Access.onPerson (findAccountsByPhone session.phoneNumber)
  let account ← Program.expect (accounts.find? fun a => a.1 = accountId)
    (notFoundForIdentity accountId accounts)
  saveEntity (savedOtpSession session.id) .database { session with consumed := true }
  let tokens ← issueTokens config account token.unifiedIdentityId ip ctx
  pure ⟨tokens.1, tokens.2, account⟩

end NexaStays.OtpLogin
