import NexaStays.Sumsub

/-!
# Calls that ask the provider

`syncSumsubStatus` and `syncSumsubDossier` ask the provider for the state of an applicant and
apply the answer as the webhook does, but outside of a transaction and without the lock;
`createSumsubSdkToken` asks for a token between its reads and its saves. The answers of the
provider are given with the call.
-/
namespace NexaStays.ProviderSync

open NexaStays.Transactions NexaStays.EntitySave NexaStays.PersonStore NexaStays.Sumsub
open NexaStays.IdentityOnboarding

/-- What the provider answers to the request for an applicant. -/
inductive ApplicantAnswer where
  | notFound
  | failed (text : String)
  | invalidJson
  | applicant (id : Option String) (applicant : SumsubApplicant)
  deriving DecidableEq, Repr

/-- `status` is what the request for the status of the applicant answers, or its failure. -/
structure ProviderAnswers where
  applicant : ApplicantAnswer
  status : Except String (Option String × Option ReviewResult)
  fetched : Option SumsubApplicant

def pendingSumsubSyncResult (userId : ℕ) (source : String) : ReviewAnswer :=
  { userId
    source := some source
    reviewStatus := none
    reviewAnswer := none
    status := "PENDING"
    kycProfileStatus := "PENDING"
    onboarding := deriveIdentityOnboardingState
      { kycProfileExists := true
        kycStatus := some "PENDING"
        userKycStatus := none
        identityVerificationStatus := none
        identityVerified := false } }

/-- `${source}_${userId}`. -/
def externalUserId (source : String) (userId : ℕ) : String := source ++ "_" ++ toString userId

/-- What the sync calls `applySumsubReviewStatus` with. -/
def syncParams (eventType source : String) (userId : ℕ) (applicantId : String)
    (applicant : SumsubApplicant) (status : Option String × Option ReviewResult)
    (fetched : Option SumsubApplicant) : ReviewParams :=
  { userId
    source
    applicantId := some applicantId
    externalUserId := applicant.externalUserId.or (some (externalUserId source userId))
    eventType := some eventType
    reviewStatus := status.1
    reviewResult := status.2
    providerDateOfBirth := extractSumsubIsoDob applicant
    providerApplicant := some applicant
    fetched }

section Programs

variable (config : WebhookConfig) (configured : Bool)

/-- `persistSumsubDossierArtifacts` without the time of an event. -/
def persistDossier (userId : ℕ) (applicantId : String) : Personal Unit := do
  let found ← Personal.read fun s => s.kycProfiles.find? userId
  match found with
  | none => pure ()
  | some kyc => do
    let reference := if isObjectId applicantId then some applicantId else kyc.reference
    let _ ← Personal.update fun s => (s.kycProfiles.find? userId).toList.map fun row =>
      .kycProfile { row with reference }

/-- The two synchronisations; `dossier` tells whether the artefacts are persisted, too. -/
def syncApplicant (eventType : String) (dossier : Bool) (userId : ℕ) (source : String)
    (answers : ProviderAnswers) : Personal ReviewAnswer := do
  Program.require (configured = true) (.badRequest "Sumsub is not configured on the server")
  match answers.applicant with
  | .notFound => pure (pendingSumsubSyncResult userId source)
  | .failed text => .throw (.badRequest ("Sumsub request failed: " ++ text))
  | .invalidJson => .throw (.badRequest "Sumsub applicant response invalid JSON")
  | .applicant none _ => pure (pendingSumsubSyncResult userId source)
  | .applicant (some applicantId) applicant => do
    let status ← Program.ofExcept (answers.status.mapError PersonError.badRequest)
    let result ← applySumsubReviewStatus config.hashNationalId config.toDate
      (syncParams eventType source userId applicantId applicant status answers.fetched)
    if dossier then persistDossier userId applicantId else pure ()
    pure result

def syncSumsubStatus (userId : ℕ) (source : String) (answers : ProviderAnswers) :
    Personal ReviewAnswer :=
  syncApplicant config configured "sumsubStatusSync" false userId source answers

def syncSumsubDossier (userId : ℕ) (source : String) (answers : ProviderAnswers) :
    Personal ReviewAnswer :=
  syncApplicant config configured "sumsubDossierSync" true userId source answers

end Programs

/-- The status of a verification that no token takes back. -/
def isProtected (status : String) : Bool := status.toUpper ∈ ["APPROVED", "VERIFIED"]

/-- A profile that is created for a token, with the defaults of the columns. -/
def untouchedKyc (userId : ℕ) : KycProfile :=
  { newKycProfile userId "" with
    provider := none
    source := none }

/-- The profile with the reference of the token. -/
def mintedKyc (userId : ℕ) (source : String) (tokenUser : Option String) (kyc : KycProfile) :
    KycProfile :=
  { kyc with
    provider := some "SUMSUB"
    source := some source
    reference := some (tokenUser.getD (externalUserId source userId))
    status := if kyc.status = "" then "PENDING" else kyc.status }

/-- The provider is asked between the reads, with the number and the email of the account; it
answers the user of the token, or the text of a failure. -/
def createSumsubSdkToken (userId : ℕ) (source : String)
    (answers : ℕ → Except String (Option String)) : Personal Unit := do
  let found ← Personal.read fun s => s.users.find? userId
  let user ← Program.expect found (.notFound "User not found")
  let n ← Program.receive
  let tokenUser ← Program.ofExcept ((answers n).mapError PersonError.badRequest)
  let existing ← Personal.read fun s => s.kycProfiles.find? userId
  let kyc := mintedKyc userId source tokenUser (existing.getD (untouchedKyc userId))
  let account := if isProtected user.kycStatus ∨ isProtected kyc.status then user
    else { user with kycStatus := "PENDING" }
  saveKyc existing kyc
  saveEntity (savedUser userId) .database account

end NexaStays.ProviderSync
