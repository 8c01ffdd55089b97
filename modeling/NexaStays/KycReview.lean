import NexaStays.IdentityPhones
import NexaStays.KycStore
import NexaStays.ProviderSync

/-!
# Decisions on KYC cases and the identity snapshots

`approve` and `reject` decide a case, `resyncFromSumsub` takes over the state at the provider,
`submitKyc` opens a case again, and the webhook applies what the provider decided. A case is
known by its user. `getSnapshot` answers from a cache; `approve` and `resyncFromSumsub` are the
only ones that invalidate it.
-/
namespace NexaStays.KycReview

open NexaStays.KeyedTable NexaStays.Transactions NexaStays.EntitySave NexaStays.PersonStore
open NexaStays.IdentityPhones NexaStays.Sumsub NexaStays.ProviderSync NexaStays.KycStore
open NexaStays.SqlText (trim)
open NexaStays.AccountDeletion (isDateText)

def kycTierToLevel (tierKey : String) : ℕ :=
  (([("NONE", 0), ("BASIC", 1), ("STANDARD", 2), ("FULL", 3)] : List (String × ℕ)).lookup
    tierKey.toUpper).getD 0

/-- The snapshot of a user whose row has the columns given, from its case. `updated_at` of the
user is not modelled. -/
def snapshotOf (user : User) (kyc : Option KycProfile) : IdentitySnapshot :=
  { userId := user.id
    unifiedIdentityId := user.unifiedIdentityId
    kycStatus := ((kyc.map (·.status)).getD user.kycStatus).toUpper
    kycLevel := kycTierToLevel ((kyc.map (·.level)).getD "NONE").toUpper
    kycTier := ((kyc.map (·.level)).getD "NONE").toUpper
    kycProvider := kyc.bind (·.provider)
    updatedAt := (kyc.bind (·.reviewedAt)).or (kyc.bind (·.lastWebhookReceivedAt)) }

def noSnapshot (userId : ℕ) : IdentitySnapshot :=
  { userId
    unifiedIdentityId := none
    kycStatus := "PENDING"
    kycLevel := 0
    kycTier := "NONE"
    kycProvider := none
    updatedAt := none }

def loadSnapshot (userId : ℕ) : Personal IdentitySnapshot := do
  let user ← Personal.read fun s => s.users.find? userId
  match user with
  | none => pure (noSnapshot userId)
  | some user => do
    let kyc ← Personal.read fun s => s.kycProfiles.find? userId
    pure (snapshotOf user kyc)

def getSnapshot (userId : ℕ) : Review IdentitySnapshot := do
  let cached ← Review.remembered fun s => s.snapshots.find? userId
  match cached with
  | some snapshot => pure snapshot
  | none => do
    let snapshot ← Review.onPerson (loadSnapshot userId)
    Review.memorise [.snapshot snapshot]
    pure snapshot

def invalidate (userId : ℕ) : Review Unit := Review.memorise [.forget userId]

/-- `updateKycStatus(identityId, true, 'VERIFIED')`. -/
def updateKycStatus (identityId : ℕ) : Personal Unit := do
  let _ ← Personal.update fun s => (s.identities.find? identityId).toList.map fun i =>
    .identity { i with
      identityVerified := true
      kycStatus := "VERIFIED"
      identityVerificationStatus := "APPROVED" }

def reusableOf (identityId : ℕ) (kyc : KycProfile) (now : ℤ)
    (existing : Option ReusableIdentityVerification) : ReusableIdentityVerification :=
  { unifiedIdentityId := identityId
    kycProvider := kyc.provider
    verificationReference := kyc.reference
    kycStatus := "VERIFIED"
    verificationStatus := "APPROVED"
    identityVerified := true
    verificationLevel := some kyc.level
    documentType := kyc.documentType
    firstVerifiedAt := (existing.bind (·.firstVerifiedAt)).or (some now)
    lastVerifiedAt := some now
    -- the expiry date is `null` for every profile
    expiryDate := none
    reusableAcrossServices := true
    reuseBlockReason := none }

def upsertFromKycProfile (identityId : ℕ) (kyc : KycProfile) : Review Unit := do
  let now ← Program.receive
  let existing ← Review.read fun s => s.reusable.find? identityId
  let _ ← Review.update fun _ => [.reusable (reusableOf identityId kyc now existing)]

def syncFromKycApproval (phoneNumber : String) (kyc : KycProfile) : Review Unit := do
  let identity ← Review.onPerson (findOrCreateByPhone phoneNumber)
  upsertFromKycProfile identity.id kyc
  Review.onPerson (updateKycStatus identity.id)

/-- `auditService.logAction`. -/
def logAction : Review Unit := Review.read fun _ => ()

def caseNotFound : PersonError := .notFound "KYC case not found"

/-- The case with a decision of the administrator. -/
def decidedKyc (status reviewedBy : String) (reason : Option String) (now : ℤ) (kyc : KycProfile) :
    KycProfile :=
  { kyc with
    status
    reviewedAt := some now
    reviewedBy := some reviewedBy
    rejectionReason := reason }

/-- The case, saved with a decision. -/
def decide (status : String) (userId : ℕ) (reviewedBy : String) (reason : Option String) :
    Personal KycProfile := do
  let found ← Personal.read fun s => s.kycProfiles.find? userId
  let kyc ← Program.expect found caseNotFound
  let now ← Personal.now
  let decided := decidedKyc status reviewedBy reason now kyc
  saveEntity (savedKycProfile userId) .database decided
  pure decided

/-- The non-fatal part of an approval. -/
def syncReuse (phoneNumber : Option String) (kyc : KycProfile) : Review Unit :=
  match truthy phoneNumber with
  | none => pure ()
  | some phoneNumber => Program.attempt (syncFromKycApproval phoneNumber kyc) fun _ => pure ()

/-- The account of an approved case; the lock is set where the row that was read had none. -/
def approveAccount (userId : ℕ) (user : Option User) : Personal Unit := do
  let now ← Personal.now
  let _ ← Personal.update fun s => (s.users.find? userId).toList.map fun u =>
    .user { u with
      kycStatus := "APPROVED"
      profileLockedAt := if user.any (·.profileLockedAt = none) then some (now : ℤ)
        else u.profileLockedAt }

def approve (userId : ℕ) (reviewedBy : String) : Review Unit := do
  let kyc ← Review.onPerson (decide "VERIFIED" userId reviewedBy none)
  let user ← Review.read fun s => s.person.users.find? userId
  syncReuse (user.bind (·.phoneNumber)) kyc
  Review.onPerson (approveAccount userId user)
  logAction
  invalidate userId
  -- the identity of the account is read for the event that is published
  Review.read fun _ => ()

def reject (userId : ℕ) (reason reviewedBy : String) : Review Unit := do
  let _ ← Review.onPerson (decide "REJECTED" userId reviewedBy (some reason))
  Review.onPerson (do
    let _ ← Personal.update fun s => (s.users.find? userId).toList.map fun u =>
      .user { u with kycStatus := "REJECTED" })
  logAction

section Provider

variable (config : WebhookConfig) (configured : Bool)

def notThroughSumsub : PersonError := .badRequest "This case was not verified through Sumsub"

def resyncFromSumsub (userId : ℕ) (answers : ProviderAnswers) : Review ReviewAnswer := do
  let found ← Review.read fun s => s.person.kycProfiles.find? userId
  let kyc ← Program.expect found caseNotFound
  Program.require ((kyc.provider.getD "").toUpper = "SUMSUB") notThroughSumsub
  let sync ← Review.onPerson
    (syncSumsubDossier config configured userId (kyc.source.getD "PAY").toUpper answers)
  logAction
  invalidate userId
  let row ← Review.read fun s => s.person.kycProfiles.find? userId
  let _ ← Program.expect row caseNotFound
  pure sync

end Provider

structure SubmitKycDto where
  fullName : Option String
  dateOfBirth : Option String
  nationality : Option String
  documentCountry : Option String
  nationalIdNumber : Option String
  email : Option String
  city : Option String
  source : Option String
  deriving DecidableEq, Repr

def countryOf (candidate : Option String) : Option String :=
  let code := (trim (candidate.getD "")).toUpper
  if code = "OTHER" then none else if isAlpha2 code.toList then some code else none

def resolveDocumentCountry (payload : SubmitKycDto) : Except PersonError String :=
  match (countryOf payload.documentCountry).or (countryOf payload.nationality) with
  | some code => .ok code
  | none => .error (.badRequest "document_country must be ISO-3166 alpha-2 (e.g. MA)")

/-- A text that is given and not blank, without the blanks around it and cut. -/
def given (n : ℕ) (value : Option String) : Option String :=
  (value.filter fun text => trim text ≠ "").map fun text => slice n (trim text)

/-- The column of the profile for a text that is given and not empty. -/
def entered (n : ℕ) (value column : Option String) : Option String :=
  match truthy value with
  | some text => some (slice n (trim text))
  | none => column

def submittedSource (source column : Option String) : Option String :=
  let known := (given 20 (source.map (·.toUpper))).filter (· ∈ ["PAY", "GO", "STAYS"])
  (known.or (truthy column)).or (some "PAY")

variable (hashNationalId : String → String) (toDate : String → Option String)

def submittedKyc (payload : SubmitKycDto) (country : String) (kyc : KycProfile) : KycProfile :=
  { kyc with
    status := "PENDING"
    fullName := entered 200 payload.fullName kyc.fullName
    dateOfBirth := entered 16 payload.dateOfBirth kyc.dateOfBirth
    nationality := entered 10 payload.nationality kyc.nationality
    documentCountry := some country
    nationalIdNumberHash :=
      ((truthy payload.nationalIdNumber).map hashNationalId).or kyc.nationalIdNumberHash
    email := (given 150 payload.email).or kyc.email
    source := submittedSource payload.source kyc.source }

/-- A date of birth that is given in the form of a date and is none is an invalid one, which the
database refuses. -/
def submittedDob (payload : SubmitKycDto) (user : User) : Except PersonError (Option String) :=
  match (payload.dateOfBirth.map trim).filter fun text => isDateText text.toList with
  | none => .ok user.dateOfBirth
  | some text =>
    match toDate text with
    | some date => .ok (some date)
    | none => .error .database

def submittedUser (payload : SubmitKycDto) (country : String) (dateOfBirth : Option String)
    (user : User) : User :=
  { user with
    fullName := (given 100 payload.fullName).or user.fullName
    dateOfBirth
    nationality :=
      if filled ((given 10 payload.nationality).or user.nationality) then
        (given 10 payload.nationality).or user.nationality
      else some country
    email := (given 150 payload.email).or user.email
    city := (given 100 payload.city).or user.city
    kycStatus := "PENDING" }

/-- A profile that `submitKyc` creates, with the defaults of the columns. -/
def newCase (userId : ℕ) : KycProfile :=
  { newKycProfile userId "" with
    provider := none
    source := none }

def submitKyc (userId : ℕ) (payload : SubmitKycDto) : Personal KycProfile := do
  let found ← Personal.read fun s => s.users.find? userId
  let user ← Program.expect found (.notFound "User not found")
  let existing ← Personal.read fun s => s.kycProfiles.find? userId
  let country ← Program.ofExcept (resolveDocumentCountry payload)
  let kyc := submittedKyc hashNationalId payload country (existing.getD (newCase userId))
  saveKyc existing kyc
  let dateOfBirth ← Program.ofExcept (submittedDob toDate payload user)
  saveEntity (savedUser userId) .database (submittedUser payload country dateOfBirth user)
  pure kyc

end NexaStays.KycReview
