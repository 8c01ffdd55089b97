import NexaStays.AuthzVersion
import NexaStays.OtpLogin

/-!
# The guards of an account

A request passes the guard of the access tokens, the guard of the account status, and on some
routes the guard that resolves the token of a session to an account. The status guard reads a
cached state; the operations that restrict an account raise its version, which drops the state.
-/
namespace NexaStays.AccountGuards

open NexaStays.KeyedTable NexaStays.Transactions NexaStays.EntitySave NexaStays.PersonStore
open NexaStays.SessionStore NexaStays.IdentityPhones NexaStays.AccessTokens NexaStays.OtpLogin
open NexaStays.AuthzVersion (AuthzState cacheTtlMs stateOf unknownState)
open NexaStays.IdentityStore (AccountType CacheEntry)
open NexaStays.LoginStore (Login LoginError)
open NexaStays.ProfileCache (SessionKind isKycRoute isGetMe isConsentRoute)
open NexaStays.StaffLogin (StaffConfig ensureIdentityForAdminUser)
open NexaStays.SqlText (trim)
open NexaStays.Sumsub (truthy)

def invalidate (userId : ℕ) : Access Unit := Access.memorise [.uncache userId]

/-- `increment({ id }, 'authz_version', 1)`. -/
def incrementVersion (userId : ℕ) : Personal Unit := do
  let _ ← Personal.update fun s => (s.users.find? userId).toList.map fun u =>
    .user { u with authzVersion := u.authzVersion + 1 }

def bump (userId : ℕ) : Access ℤ := do
  Access.onPerson (incrementVersion userId)
  invalidate userId
  let row ← Access.read fun s => s.users.find? userId
  pure ((row.map (·.authzVersion)).getD 1)

def cacheEntry (user : User) (now : ℕ) : CacheEntry :=
  { userId := user.id
    version := user.authzVersion
    status := user.status
    accountType := user.accountType
    staffRole := user.staffRole
    expiresAt := now + cacheTtlMs }

def getAuthzState (userId : ℕ) : Access AuthzState := do
  let cached ← Access.remembered fun s => s.authzCache.find? userId
  let now ← Access.now
  match cached.filter fun entry => (now : ℤ) < entry.expiresAt with
  | some entry => pure (stateOf entry)
  | none => do
    let user ← Access.read fun s => s.users.find? userId
    match user with
    | none => pure unknownState
    | some user => do
      let now ← Access.now
      Access.memorise [.cache (cacheEntry user now)]
      pure (stateOf (cacheEntry user now))

/-- `RESTRICTED_ACCOUNT_STATUSES`. -/
def restrictedAccountStatuses : List String := ["SUSPENDED", "FROZEN", "BANNED"]

def isRestrictedAccountStatus (status : String) : Bool :=
  status.toUpper ∈ restrictedAccountStatuses

/-- `auditService.logAction`. -/
def logAction : Access Unit := Access.read fun _ => ()

def userNotFound : LoginError := .person (.notFound "User not found")

/-- `userRepository.findOne({ where: { id } })` and what `save` writes of the status. -/
def saveStatus (id : ℕ) (status : String) : Access Unit := do
  let found ← Access.read fun s => s.users.find? id
  let user ← Program.expect found userNotFound
  Access.onPerson (saveEntity (savedUser id) .database { user with status })

def updateStatus (id : ℕ) (status : String) : Access Unit := do
  saveStatus id status
  if status = "FROZEN" ∨ status = "SUSPENDED" ∨ status = "BANNED" then do
    let _ ← bump id
    logAction
  else logAction

/-- The wallet of an account is locked. -/
def lockWallet (userId : ℕ) : Access Unit := do
  let wallet ← Access.read fun s => s.wallets.find? userId
  match wallet with
  | none => pure ()
  | some wallet => saveEntity (savedWallet userId) .database { wallet with status := "LOCKED" }

def freezeUser (userId : ℕ) : Access Unit := do
  saveStatus userId "FROZEN"
  let _ ← bump userId
  lockWallet userId
  logAction

def revokeAllForUser (userId : ℕ) : Access Unit := do
  let now ← Access.now
  let _ ← Access.update fun s =>
    (s.refreshTokens.rows.filter fun t => t.userId = userId).map fun t =>
      .refreshToken { t with revokedAt := some (now : ℤ) }

structure RefreshAnswer where
  accessToken : AccessToken
  refreshToken : String
  deriving DecidableEq, Repr

section Rotation

variable (config : SessionConfig) (staff : StaffConfig)

/-- The identity of the account, or that of its number, or a new one for an administrator. -/
def identityOf (user : User) : Personal (Option ℕ) :=
  match user.unifiedIdentityId with
  | some identityId => pure (some identityId)
  | none =>
    match truthy user.phoneNumber with
    | some phoneNumber => do
      let identity ← findOrCreateByPhone phoneNumber
      pure (some identity.id)
    | none =>
      if user.accountType = some .admin then do
        let identityId ← ensureIdentityForAdminUser staff user.id
        pure (some identityId)
      else pure none

/-- The profile that the access token is issued with. -/
def rotationProfile (user : User) : Personal (Option TokenProfile) :=
  if user.accountType = some .admin then
    pure (some ⟨some (staffJwtClaims user.staffRole).1, (staffJwtClaims user.staffRole).2,
      user.authzVersion⟩)
  else tokenProfileForUser user.id

def refreshUnauthorized (message : String) : LoginError := .person (.unauthorized message)

/-- `refresh`, where no rotation of the token is under way. -/
def refresh (refreshTokenPlain : String) (deviceId userAgent ip : Option String) :
    Access RefreshAnswer := do
  let found ← Access.findOne fun s =>
    s.refreshTokens.rows.filter fun t => t.tokenHash = hashRefreshToken config refreshTokenPlain
  let row ← Program.expect found (refreshUnauthorized "Invalid refresh token")
  if row.revokedAt.isSome then do
    revokeAllForUser row.userId
    Program.throw (refreshUnauthorized "Refresh token was reused; all sessions revoked")
  else do
    let now ← Access.now
    Program.require (¬row.expiresAt < now) (refreshUnauthorized "Refresh token expired")
    Program.require (truthy deviceId = none ∨ truthy row.deviceId = none ∨ row.deviceId = deviceId)
      (refreshUnauthorized "Device mismatch")
    let read ← Access.read fun s => s.users.find? row.userId
    let user ← Program.expect read (refreshUnauthorized "User not found")
    let now ← Access.now
    saveEntity (savedRefreshToken row.id) .database { row with revokedAt := some (now : ℤ) }
    let newRefresh ← issueRefreshToken config row.userId (deviceId.or row.deviceId)
      (userAgent.or row.userAgent) (ip.or row.ip) (some row.id)
    let named ← Access.onPerson (identityOf staff user)
    let identityId ← Program.expect named (refreshUnauthorized "User identity not found")
    let profile ← Access.onPerson (rotationProfile user)
    pure
      { accessToken := issueAccountScopedToken user.id identityId
          (user.accountType.getD .consumer) "otp_pin" profile
        refreshToken := newRefresh }

end Rotation

/-- The payload of a token that the service has signed. -/
inductive JwtPayload where
  | account (token : AccessToken)
  | session (token : SessionToken)
  deriving DecidableEq, Repr

/-- The `authorization` header. -/
inductive Authorization where
  | missing
  | malformed
  /-- a bearer token whose signature, issuer or audience is refused -/
  | invalid
  | signed (payload : JwtPayload) (expiresAt : ℤ)
  deriving DecidableEq, Repr

/-- What the guards read of a request and of its route; `resolvesOtpSession` says that the route
uses the guard that resolves sessions. -/
structure Request where
  isPublic : Bool
  resolvesOtpSession : Bool
  authorization : Authorization
  path : List Char
  fullName : Option String
  nationality : Option String
  deriving DecidableEq, Repr

/-- `userId` of a request: an account, the text of a session token, or the empty text. -/
inductive UserId where
  | account (id : ℕ)
  | sessionToken (text : String)
  | empty
  deriving DecidableEq, Repr

/-- `request.user`. -/
structure RequestUser where
  userId : UserId
  type : Option SessionKind
  phoneNumber : Option String
  deriving DecidableEq, Repr

/-- `JwtStrategy.validate`. -/
def validate : JwtPayload → RequestUser
  | .account token => ⟨.account token.sub, none, none⟩
  | .session token => ⟨.sessionToken token.sub, some token.type, some token.phoneNumber⟩

def guardUnauthorized (message : String) : LoginError := .person (.unauthorized message)

/-- `JwtAuthGuard`: the user of the request, none on a public route. -/
def jwtAuthGuard (r : Request) : Access (Option RequestUser) :=
  if r.isPublic then pure none
  else
    match r.authorization with
    | .missing => Program.throw (guardUnauthorized "No authorization token provided")
    | .malformed => Program.throw (guardUnauthorized "Invalid authorization header format")
    | .invalid => Program.throw (guardUnauthorized "Invalid or expired token")
    | .signed payload expiresAt => do
      let now ← Access.now
      Program.require ((now : ℤ) < expiresAt) (guardUnauthorized "Invalid or expired token")
      pure (some (validate payload))

def accessRevoked : LoginError := guardUnauthorized "Account access revoked"

/-- The state of an account lets it pass. -/
def assertAccountNotRestricted (state : AuthzState) : Access Unit := do
  Program.require (¬(state.status = "UNKNOWN" ∧ state.authzVersion = -1)) accessRevoked
  Program.require (isRestrictedAccountStatus state.status = false) accessRevoked

/-- `AccountStatusGuard`. -/
def accountStatusGuard (r : Request) (user : Option RequestUser) : Access Unit :=
  if r.isPublic then pure ()
  else
    match user with
    | none => pure ()
    | some user =>
      if user.userId = .empty ∨ user.type.isSome then pure ()
      else
        match user.userId with
        | .account id => do
          let state ← getAuthzState id
          assertAccountNotRestricted state
        -- a text that is no account id is refused by the database
        | _ => Program.throw .database

section Resolver

variable (config : SessionConfig)

def resolveUser (r : Request) (phoneNumber : String) : Personal (Option User) :=
  if isKycRoute r.path then do
    let user ← findOrCreateForKyc config phoneNumber r.fullName r.nationality
    pure (some user)
  else if isConsentRoute r.path then do
    let found ← findForKyc phoneNumber
    match found with
    | some user => pure (some user)
    | none => do
      let user ← findOrCreateForKyc config phoneNumber none none
      pure (some user)
  else findForKyc phoneNumber

/-- The user of a session, with the account of its number. -/
def resolveSession (r : Request) (user : RequestUser) : Access RequestUser :=
  if trim (user.phoneNumber.getD "") = "" then
    if isConsentRoute r.path ∨ isKycRoute r.path then
      Program.throw (guardUnauthorized
        "Phone number missing from session token; obtain a new OTP session.")
    else pure user
  else do
    let resolved ← Access.onPerson (resolveUser config r (user.phoneNumber.getD ""))
    match resolved with
    | some account => pure { user with userId := .account account.id }
    | none =>
      if isGetMe r.path then pure { user with userId := .empty }
      else Program.throw (.person (.notFound "Complete KYC first to create your account"))

/-- `OtpSessionResolverGuard`. -/
def otpSessionResolverGuard (r : Request) : Option RequestUser → Access (Option RequestUser)
  | none => pure none
  | some user =>
    if user.type = none then pure (some user)
    else do
      let resolved ← resolveSession config r user
      pure (some resolved)

/-- The guards of a route: the user that the request runs with. -/
def canActivate (r : Request) : Access (Option RequestUser) := do
  let user ← jwtAuthGuard r
  accountStatusGuard r user
  if r.resolvesOtpSession then otpSessionResolverGuard config r user else pure user

end Resolver

end NexaStays.AccountGuards
