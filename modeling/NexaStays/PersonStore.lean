import NexaStays.EntitySave
import NexaStays.IdentityStore

/-!
# The tables of a person

A person has one unified identity, phone numbers and any number of accounts. Row types, the
committed store and its row writes, for the functions that read or change personal data. A
row is found by its identifier, except where a unique column of the entity identifies it: a
phone number by its normal form, a KYC profile by its user. An instant is its distance in
milliseconds from the epoch, a calendar date its text. The columns that the database fills by
itself are left out, and those that no modelled function uses.
-/
namespace NexaStays.PersonStore

open NexaStays.KeyedTable NexaStays.Transactions NexaStays.EntitySave
open NexaStays.IdentityStore (AccountType OtpCode StaffRole)

inductive DeletionStatus where
  | none | pending | anonymized
  deriving DecidableEq, Repr

structure User where
  id : ℕ
  phoneNumber : Option String
  unifiedIdentityId : Option ℕ
  fullName : Option String
  email : Option String
  nationality : Option String
  city : Option String
  dateOfBirth : Option String
  profilePhotoUrl : Option String
  profileLockedAt : Option ℤ
  accountType : Option AccountType
  linkedUserId : Option ℕ
  kycStatus : String
  pinHash : String
  status : String
  riskScore : ℤ
  lastLoginAt : Option ℤ
  deletionStatus : DeletionStatus
  deletionRequestedAt : Option ℤ
  deletionScheduledFor : Option ℤ
  piiAnonymizedAt : Option ℤ
  createdAt : ℤ
  rewardsTier : String
  staffRole : StaffRole
  staffPasswordHash : Option String
  authzVersion : ℤ
  deriving DecidableEq, Repr

structure UnifiedIdentity where
  id : ℕ
  phoneNumber : Option String
  fullName : Option String
  email : Option String
  dateOfBirth : Option String
  city : Option String
  address : Option String
  profilePhotoUrl : Option String
  preferredLanguage : Option String
  identityVerified : Bool
  identityVerificationStatus : String
  kycStatus : String
  accountStatus : String
  linkedServices : List AccountType
  deriving DecidableEq, Repr

structure IdentityPhoneNumber where
  identityId : ℕ
  phoneNumber : String
  normalizedPhoneNumber : String
  isPrimary : Bool
  isVerified : Bool
  verifiedAt : Option ℤ
  deriving DecidableEq, Repr

structure KycProfile where
  userId : ℕ
  level : String
  status : String
  provider : Option String
  source : Option String
  reference : Option String
  lastWebhookEventType : Option String
  lastWebhookReceivedAt : Option ℤ
  lastProviderEventAt : Option ℤ
  reviewedAt : Option ℤ
  reviewedBy : Option String
  rejectionReason : Option String
  documentType : Option String
  documentCountry : Option String
  nationalIdNumberHash : Option String
  nationalIdNumberExtracted : Option String
  fullName : Option String
  dateOfBirth : Option String
  nationality : Option String
  email : Option String
  documentValidUntil : Option String
  providerLevelName : Option String
  providerReviewStatus : Option String
  providerReviewAnswer : Option String
  providerAttemptCnt : Option ℤ
  providerInspectionId : Option String
  deriving DecidableEq, Repr

structure RefreshToken where
  id : ℕ
  userId : ℕ
  revokedAt : Option ℤ
  deriving DecidableEq, Repr

structure Store where
  users : Table User.id
  identities : Table UnifiedIdentity.id
  phones : Table IdentityPhoneNumber.normalizedPhoneNumber
  kycProfiles : Table KycProfile.userId
  otps : Table OtpCode.id
  refreshTokens : Table RefreshToken.id

/-- What a statement locks; `advisory` is the lock of `pg_advisory_xact_lock` on a text. -/
inductive Key where
  | user (id : ℕ)
  | identity (id : ℕ)
  | phone (normalizedPhoneNumber : String)
  | kycProfile (userId : ℕ)
  | otp (id : ℕ)
  | refreshToken (id : ℕ)
  | advisory (text : String)
  deriving DecidableEq, Repr

/-- The write of one row: inserted or overwritten. -/
inductive Write where
  | user (row : User)
  | identity (row : UnifiedIdentity)
  | phone (row : IdentityPhoneNumber)
  | kycProfile (row : KycProfile)
  | otp (row : OtpCode)
  | refreshToken (row : RefreshToken)
  deriving DecidableEq, Repr

def Write.key : Write → Key
  | .user u => .user u.id
  | .identity i => .identity i.id
  | .phone p => .phone p.normalizedPhoneNumber
  | .kycProfile k => .kycProfile k.userId
  | .otp o => .otp o.id
  | .refreshToken t => .refreshToken t.id

namespace Store

def write (s : Store) : Write → Store
  | .user u => { s with users := s.users.put u }
  | .identity i => { s with identities := s.identities.put i }
  | .phone p => { s with phones := s.phones.put p }
  | .kycProfile k => { s with kycProfiles := s.kycProfiles.put k }
  | .otp o => { s with otps := s.otps.put o }
  | .refreshToken t => { s with refreshTokens := s.refreshTokens.put t }

/-- The text of an advisory lock is always there to be locked. -/
def present (s : Store) : Key → Bool
  | .user id => (s.users.find? id).isSome
  | .identity id => (s.identities.find? id).isSome
  | .phone normalized => (s.phones.find? normalized).isSome
  | .kycProfile userId => (s.kycProfiles.find? userId).isSome
  | .otp id => (s.otps.find? id).isSome
  | .refreshToken id => (s.refreshTokens.find? id).isSome
  | .advisory _ => true

/-- A new deployment. -/
def blank : Store :=
  { users := .empty
    identities := .empty
    phones := .empty
    kycProfiles := .empty
    otps := .empty
    refreshTokens := .empty }

end Store

instance : Storage Store Key Write where
  write := Store.write
  keyOf := Write.key
  present := Store.present

@[simp] theorem storage_write (s : Store) (w : Write) : Storage.write s w = s.write w := rfl

@[simp] theorem storage_keyOf (w : Write) : Storage.keyOf Store w = w.key := rfl

@[simp] theorem storage_present (s : Store) (k : Key) : Storage.present s k = s.present k := rfl

/-- What a call throws: the HTTP exceptions of the service, a violated unique constraint
(PostgreSQL's `23505`), or another failing statement. -/
inductive PersonError where
  | unauthorized (message : String)
  | badRequest (message : String)
  | forbidden (code message : String)
  | notFound (message : String)
  | conflict (message : String)
  | serviceUnavailable (message : String)
  | uniqueViolation
  | database
  deriving DecidableEq, Repr

/-- The programs that work on personal data. -/
abbrev Personal := Program Store Key Write PersonError

namespace Personal

abbrev read {α : Type} (f : Store → α) : Personal α := Program.query .database f

abbrev findOne {α : Type} (f : Store → List α) : Personal (Option α) :=
  Program.findOne .database f

abbrev update (ws : Store → List Write) : Personal (List Write) := Program.writeRows .database ws

abbrev insert (row : ℕ → Write) : Personal ℕ := Program.insertRow .database row

abbrev transaction {α : Type} (p : Personal α) : Personal α := Program.transaction .database p

/-- `Date.now()`. -/
abbrev now : Personal ℕ := Program.receive

end Personal

instance : Columns User where
  merge old new row :=
    { id := column old.id new.id row.id
      phoneNumber := column old.phoneNumber new.phoneNumber row.phoneNumber
      unifiedIdentityId := column old.unifiedIdentityId new.unifiedIdentityId row.unifiedIdentityId
      fullName := column old.fullName new.fullName row.fullName
      email := column old.email new.email row.email
      nationality := column old.nationality new.nationality row.nationality
      city := column old.city new.city row.city
      dateOfBirth := column old.dateOfBirth new.dateOfBirth row.dateOfBirth
      profilePhotoUrl := column old.profilePhotoUrl new.profilePhotoUrl row.profilePhotoUrl
      profileLockedAt := column old.profileLockedAt new.profileLockedAt row.profileLockedAt
      accountType := column old.accountType new.accountType row.accountType
      linkedUserId := column old.linkedUserId new.linkedUserId row.linkedUserId
      kycStatus := column old.kycStatus new.kycStatus row.kycStatus
      pinHash := column old.pinHash new.pinHash row.pinHash
      status := column old.status new.status row.status
      riskScore := column old.riskScore new.riskScore row.riskScore
      lastLoginAt := column old.lastLoginAt new.lastLoginAt row.lastLoginAt
      deletionStatus := column old.deletionStatus new.deletionStatus row.deletionStatus
      deletionRequestedAt :=
        column old.deletionRequestedAt new.deletionRequestedAt row.deletionRequestedAt
      deletionScheduledFor :=
        column old.deletionScheduledFor new.deletionScheduledFor row.deletionScheduledFor
      piiAnonymizedAt := column old.piiAnonymizedAt new.piiAnonymizedAt row.piiAnonymizedAt
      createdAt := column old.createdAt new.createdAt row.createdAt
      rewardsTier := column old.rewardsTier new.rewardsTier row.rewardsTier
      staffRole := column old.staffRole new.staffRole row.staffRole
      staffPasswordHash := column old.staffPasswordHash new.staffPasswordHash row.staffPasswordHash
      authzVersion := column old.authzVersion new.authzVersion row.authzVersion }
  merge_self old new := by simp only [column_self]

instance : Columns IdentityPhoneNumber where
  merge old new row :=
    { identityId := column old.identityId new.identityId row.identityId
      phoneNumber := column old.phoneNumber new.phoneNumber row.phoneNumber
      normalizedPhoneNumber :=
        column old.normalizedPhoneNumber new.normalizedPhoneNumber row.normalizedPhoneNumber
      isPrimary := column old.isPrimary new.isPrimary row.isPrimary
      isVerified := column old.isVerified new.isVerified row.isVerified
      verifiedAt := column old.verifiedAt new.verifiedAt row.verifiedAt }
  merge_self old new := by simp only [column_self]

instance : Columns OtpCode where
  merge old new row :=
    { id := column old.id new.id row.id
      phoneNumber := column old.phoneNumber new.phoneNumber row.phoneNumber
      code := column old.code new.code row.code
      expiresAt := column old.expiresAt new.expiresAt row.expiresAt
      attempts := column old.attempts new.attempts row.attempts
      consumedAt := column old.consumedAt new.consumedAt row.consumedAt
      createdAt := column old.createdAt new.createdAt row.createdAt }
  merge_self old new := by simp only [column_self]

instance : Columns KycProfile where
  merge old new row :=
    { userId := column old.userId new.userId row.userId
      level := column old.level new.level row.level
      status := column old.status new.status row.status
      provider := column old.provider new.provider row.provider
      source := column old.source new.source row.source
      reference := column old.reference new.reference row.reference
      lastWebhookEventType :=
        column old.lastWebhookEventType new.lastWebhookEventType row.lastWebhookEventType
      lastWebhookReceivedAt :=
        column old.lastWebhookReceivedAt new.lastWebhookReceivedAt row.lastWebhookReceivedAt
      lastProviderEventAt :=
        column old.lastProviderEventAt new.lastProviderEventAt row.lastProviderEventAt
      reviewedAt := column old.reviewedAt new.reviewedAt row.reviewedAt
      reviewedBy := column old.reviewedBy new.reviewedBy row.reviewedBy
      rejectionReason := column old.rejectionReason new.rejectionReason row.rejectionReason
      documentType := column old.documentType new.documentType row.documentType
      documentCountry := column old.documentCountry new.documentCountry row.documentCountry
      nationalIdNumberHash :=
        column old.nationalIdNumberHash new.nationalIdNumberHash row.nationalIdNumberHash
      nationalIdNumberExtracted := column old.nationalIdNumberExtracted
        new.nationalIdNumberExtracted row.nationalIdNumberExtracted
      fullName := column old.fullName new.fullName row.fullName
      dateOfBirth := column old.dateOfBirth new.dateOfBirth row.dateOfBirth
      nationality := column old.nationality new.nationality row.nationality
      email := column old.email new.email row.email
      documentValidUntil :=
        column old.documentValidUntil new.documentValidUntil row.documentValidUntil
      providerLevelName := column old.providerLevelName new.providerLevelName row.providerLevelName
      providerReviewStatus :=
        column old.providerReviewStatus new.providerReviewStatus row.providerReviewStatus
      providerReviewAnswer :=
        column old.providerReviewAnswer new.providerReviewAnswer row.providerReviewAnswer
      providerAttemptCnt :=
        column old.providerAttemptCnt new.providerAttemptCnt row.providerAttemptCnt
      providerInspectionId :=
        column old.providerInspectionId new.providerInspectionId row.providerInspectionId }
  merge_self old new := by simp only [column_self]

def savedUser (id : ℕ) : Saved Store Write User := ⟨fun s => s.users.find? id, .user⟩

def savedPhone (normalizedPhoneNumber : String) : Saved Store Write IdentityPhoneNumber :=
  ⟨fun s => s.phones.find? normalizedPhoneNumber, .phone⟩

def savedOtp (id : ℕ) : Saved Store Write OtpCode := ⟨fun s => s.otps.find? id, .otp⟩

def savedKycProfile (userId : ℕ) : Saved Store Write KycProfile :=
  ⟨fun s => s.kycProfiles.find? userId, .kycProfile⟩

end NexaStays.PersonStore
