import Mathlib.Algebra.GroupWithZero.Nat
import NexaStays.AccessTokens
import NexaStays.LoginStore
import NexaStays.Secrets
import NexaStays.Sumsub

/-!
# The login of the staff

`createSupportAgent` stores an account with the hash of its password, `adminLogin` compares a
submitted password with it. The password is hashed as it was given and compared without the
blanks around it, so what passes is never one text alone.
-/
namespace NexaStays.StaffLogin

open NexaStays.KeyedTable NexaStays.Transactions NexaStays.EntitySave NexaStays.PersonStore
open NexaStays.LoginStore NexaStays.AccessTokens NexaStays.Secrets NexaStays.Phases
open NexaStays.IdentityStore (AccountType StaffRole OtpAttempt)
open NexaStays.SqlText (trim)
open NexaStays.Sumsub (newKycProfile)

structure StaffConfig where
  hashes : Hashes
  toLowerCase : String → String
  adminEmails : List String
  adminPasswordHash : String
  adminPassword : String
  production : Bool
  /-- The first 16 digits of the SHA-256 of a text. -/
  digest : String → String

variable (config : StaffConfig)

/-- `(email || '').trim().toLowerCase()`. -/
def normalizedEmail (email : String) : String := config.toLowerCase (trim email)

structure CreateSupportAgentDto where
  email : String
  fullName : String
  password : String
  deriving DecidableEq, Repr

/-- `text.length`, in units of sixteen bits. -/
def unitLength (text : String) : ℕ :=
  (text.toList.map fun c => if c.toNat < 65536 then 1 else 2).sum

/-- An account without a phone number, with the defaults of the columns. -/
def staffAccount (email fullName pinHash : String) (staffPasswordHash : Option String)
    (staffRole : StaffRole) (createdAt : ℤ) (id : ℕ) : User :=
  { id
    phoneNumber := none
    unifiedIdentityId := none
    fullName := some fullName
    email := some email
    nationality := none
    city := none
    dateOfBirth := none
    profilePhotoUrl := none
    profileLockedAt := none
    accountType := some .admin
    linkedUserId := none
    kycStatus := "APPROVED"
    pinHash
    status := "ACTIVE"
    riskScore := 0
    lastLoginAt := none
    deletionStatus := .none
    deletionRequestedAt := none
    deletionScheduledFor := none
    piiAnonymizedAt := none
    createdAt
    rewardsTier := "standard"
    staffRole
    staffPasswordHash
    authzVersion := 1 }

def accountsByEmail (email : String) (s : PersonStore.Store) : List User :=
  s.users.rows.filter fun u => u.email = some email

/-- The identity of a member of the staff. -/
def staffIdentity (user : User) (id : ℕ) : UnifiedIdentity :=
  { id
    phoneNumber := none
    fullName := user.fullName
    email := (user.email.map (normalizedEmail config)).filter (· ≠ "")
    dateOfBirth := none
    city := none
    address := none
    profilePhotoUrl := none
    preferredLanguage := none
    identityVerified := true
    identityVerificationStatus := "APPROVED"
    kycStatus := "APPROVED"
    accountStatus := "ACTIVE"
    linkedServices := [.admin] }

def linkWrite (userId identityId : ℕ) (s : PersonStore.Store) : List PersonStore.Write :=
  (s.users.find? userId).toList.map fun u => .user { u with unifiedIdentityId := some identityId }

def ensureIdentityForAdminUser (userId : ℕ) : Personal ℕ := do
  let found ← Personal.read fun s => s.users.find? userId
  let user ← Program.expect found (.notFound "User not found")
  match user.unifiedIdentityId with
  | some identityId => pure identityId
  | none => do
    let identityId ← Personal.insert fun id => .identity (staffIdentity config user id)
    let _ ← Personal.update (linkWrite userId identityId)
    pure identityId

/-- The checks of `createSupportAgent`. -/
def checkAgent (email fullName password : String) : Personal Unit := do
  Program.require (email ≠ "") (.badRequest "Email is required")
  Program.require (fullName ≠ "") (.badRequest "Full name is required")
  Program.require (10 ≤ unitLength password) (.badRequest "Password must be at least 10 characters")
  Program.require (email ∉ config.adminEmails)
    (.badRequest "This email is reserved for Super Admin bootstrap")
  let existing ← Personal.findOne (accountsByEmail email)
  Program.require (existing = none) (.conflict "Email already in use")

/-- The two first answers are the salts, the third one is the random PIN. -/
def createSupportAgent (input : CreateSupportAgentDto) : Personal User := do
  let email := normalizedEmail config input.email
  let fullName := trim input.fullName
  checkAgent config email fullName input.password
  let pinSalt ← Program.receive
  let passwordSalt ← Program.receive
  let pin ← Program.receive
  let now ← Personal.now
  let row := staffAccount email fullName (config.hashes.argon2Hash pinSalt (toString pin))
    (some (config.hashes.argon2Hash passwordSalt input.password)) .supportAgent now
  let id ← Personal.insert fun id => .user (row id)
  let _ ← ensureIdentityForAdminUser config id
  pure (row id)

def lockoutWindowMs : ℤ := 15 * 60 * 1000

def attemptsOf (phoneNumber ip : String) (s : LoginStore.Store) : List OtpAttempt :=
  s.otpAttempts.rows.filter fun a => a.phoneNumber = phoneNumber ∧ a.ip = ip

def getOrCreateAttempt (phoneNumber ip : String) : Login OtpAttempt := do
  let found ← Login.findOne (attemptsOf phoneNumber ip)
  match found with
  | some record => pure record
  | none => do
    let now ← Login.now
    let id ← Login.insert fun id => .otpAttempt ⟨id, phoneNumber, ip, 0, none, now⟩
    pure ⟨id, phoneNumber, ip, 0, none, now⟩

def isLockedOut (phoneNumber ip : String) : Login Bool := do
  let record ← getOrCreateAttempt phoneNumber ip
  match record.lockedUntil with
  | none => pure false
  | some lockedUntil => do
    let now ← Login.now
    if lockedUntil ≤ now then do
      saveEntity (savedOtpAttempt record.id) .database
        { record with lockedUntil := none, failedCount := 0, updatedAt := now }
      pure false
    else pure true

/-- The counter after a failure. -/
def failedOnce (now : ℤ) (record : OtpAttempt) : OtpAttempt :=
  let count := (if record.updatedAt < now - lockoutWindowMs then 0 else record.failedCount) + 1
  { record with
    failedCount := count
    updatedAt := now
    lockedUntil := if 5 ≤ count then some (now + lockoutWindowMs) else record.lockedUntil }

def recordFailure (phoneNumber ip : String) : Login Unit := do
  let record ← getOrCreateAttempt phoneNumber ip
  let now ← Login.now
  saveEntity (savedOtpAttempt record.id) .database (failedOnce now record)

def recordSuccess (phoneNumber ip : String) : Login Unit := do
  let found ← Login.findOne (attemptsOf phoneNumber ip)
  match found with
  | none => pure ()
  | some record => do
    let now ← Login.now
    saveEntity (savedOtpAttempt record.id) .database
      { record with failedCount := 0, lockedUntil := none, updatedAt := now }

def lockKey (email : String) : String := "a:" ++ config.digest (if email = "" then "unknown" else email)

structure StaffUser where
  id : ℕ
  email : Option String
  fullName : Option String
  role : StaffRole
  roles : List StaffRole
  staffRole : StaffRole
  deriving DecidableEq, Repr

structure StaffSession where
  accessToken : AccessToken
  refreshToken : RefreshToken
  user : StaffUser
  deriving DecidableEq, Repr

/-- The KYC profile of a member of the staff. -/
def adminKyc (userId : ℕ) (reviewedBy : String) (now : ℤ) (found : Option KycProfile) : KycProfile :=
  match found with
  | none =>
    { newKycProfile userId "" with
      level := "TIER_2"
      status := "VERIFIED"
      provider := some "ADMIN"
      source := none
      reviewedAt := some now
      reviewedBy := some reviewedBy }
  | some row =>
    { row with
      status := "VERIFIED"
      level := if row.level = "" ∨ row.level = "NONE" then "TIER_2" else row.level
      reviewedAt := some now
      reviewedBy := some reviewedBy }

def ensureAdminVerifiedKycRow (userId : ℕ) (adminEmail : String) : Personal Unit := do
  let now ← Personal.now
  let found ← Personal.read fun s => s.kycProfiles.find? userId
  saveEntity (savedKycProfile userId) .database (adminKyc userId ("admin:" ++ adminEmail) now found)

/-- The role and the roles in the answer, from the profile or else from the row. -/
def sessionRoles (user : User) (profile : Option TokenProfile) : StaffRole × List StaffRole :=
  match profile with
  | some ⟨some role, roles, _⟩ => (role, roles)
  | _ => staffJwtClaims user.staffRole

def sessionProfile (user : User) (profile : Option TokenProfile) : TokenProfile :=
  ⟨some (sessionRoles user profile).1, (sessionRoles user profile).2,
    (profile.map (·.authzVersion)).getD user.authzVersion⟩

/-- The entity was read before its identity was ensured, and is saved as a whole. -/
def issueAdminDashboardSession (user : User) (email : String) (now : ℤ) :
    Personal StaffSession := do
  let _ ← ensureIdentityForAdminUser config user.id
  ensureAdminVerifiedKycRow user.id email
  saveEntity (savedUser user.id) .database { user with lastLoginAt := some now }
  let profile ← tokenProfileForUser user.id
  let identityId ← ensureIdentityForAdminUser config user.id
  let refreshToken ← issueRefreshToken user.id
  pure
    { accessToken := issueAccountScopedToken user.id identityId .admin "pin_only"
        (some (sessionProfile user profile))
      refreshToken
      user :=
        { id := user.id
          email := user.email
          fullName := user.fullName
          role := (sessionRoles user profile).1
          roles := (sessionRoles user profile).2
          staffRole := (staffJwtClaims user.staffRole).1 } }

/-- The account may log in with the password. -/
def admitted (password : String) (user : User) : Bool :=
  user.accountType = some .admin && user.staffPasswordHash.any fun hash =>
    hash ≠ "" && verifyPasswordSecret config.hashes password hash false

def refuse (key ip : String) : Login (Option StaffSession) := do
  recordFailure key ip
  pure none

def loginProvisionedStaff (email password key ip : String) : Login (Option StaffSession) := do
  let found ← Login.findOne fun s => accountsByEmail email s.person
  match found.filter (admitted config password) with
  | none => refuse key ip
  | some user => do
    recordSuccess key ip
    let now ← Login.now
    let session ← Login.onPerson (issueAdminDashboardSession config user email now)
    pure (some session)

/-- What the password of the administrators is compared with; nothing where their login is
disabled. -/
def storedAdminPassword : Option String :=
  if config.production ∧ config.adminPasswordHash = "" then none
  else if config.adminPasswordHash = "" ∧ config.adminPassword = "" then none
  else some (if config.adminPasswordHash = "" then config.adminPassword
    else config.adminPasswordHash)

/-- The account of an administrator, which the login creates or makes one. -/
def bootstrapAccount (email : String) (now : ℤ) : Personal User := do
  let salt ← Program.receive
  let pin ← Program.receive
  let found ← Personal.findOne (accountsByEmail email)
  match found with
  | none => do
    let row := staffAccount email "Admin User" (config.hashes.argon2Hash salt (toString pin)) none
      .admin now
    let id ← Personal.insert fun id => .user (row id)
    pure (row id)
  | some user => do
    let admin :=
      { user with accountType := some .admin, phoneNumber := none, kycStatus := "APPROVED" }
    saveEntity (savedUser user.id) .database admin
    pure admin

def loginBootstrap (email password key ip : String) : Login (Option StaffSession) :=
  match storedAdminPassword config with
  | none => pure none
  | some stored =>
    if verifyPasswordSecret config.hashes password stored
        (¬config.production ∧ config.adminPasswordHash = "") then do
      recordSuccess key ip
      let now ← Login.now
      let session ← Login.onPerson (do
        let user ← bootstrapAccount config email now
        issueAdminDashboardSession config user email now)
      pure (some session)
    else refuse key ip

def adminLogin (email password ip : String) : Login (Option StaffSession) := do
  let normalized := normalizedEmail config email
  let locked ← isLockedOut (lockKey config normalized) ip
  Program.require (locked = false) (.badRequest "Too many attempts. Try again later.")
  if normalized ∈ config.adminEmails then
    loginBootstrap config normalized password (lockKey config normalized) ip
  else loginProvisionedStaff config normalized password (lockKey config normalized) ip

end NexaStays.StaffLogin
