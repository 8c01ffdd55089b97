import NexaStays.KycReview
import NexaStays.ProfileSync

/-!
# The reuse of a verification by the services

`useExistingKyc` tells a service whether the verification of an identity may be used again. It
reads the one row of the identity and nothing of its cases.
-/
namespace NexaStays.KycReuse

open NexaStays.KeyedTable NexaStays.Transactions NexaStays.KycStore
open NexaStays.ProfileSync (NexaService)
open NexaStays.Sumsub (truthy)

structure ServiceKycPolicy where
  service : NexaService
  allowsReuse : Bool
  minVerificationLevel : Option String
  acceptedDocumentTypes : Option (List String)
  requiresStepUpVerification : Bool
  canPrefillIdentityReadonly : Bool
  deriving DecidableEq, Repr

/-- What all policies have in common. -/
def reusePolicy (service : NexaService) (requiresStepUpVerification : Bool) : ServiceKycPolicy :=
  { service
    allowsReuse := true
    minVerificationLevel := none
    acceptedDocumentTypes := none
    requiresStepUpVerification
    canPrefillIdentityReadonly := true }

def getServicePolicy : NexaService → ServiceKycPolicy
  | .pay => reusePolicy .pay false
  | .go => reusePolicy .go false
  | .stays => reusePolicy .stays false
  | .courier => reusePolicy .courier false
  | .driver => reusePolicy .driver true
  | .host => reusePolicy .host false
  | .merchant => reusePolicy .merchant false

section Reuse

variable (toDay : String → Option ℤ) (today : ℤ)

/-- `toDay` is the day of a date; a text that is none is never over. -/
def isIdentityDocumentExpired (verification : Option ReusableIdentityVerification) : Bool :=
  (verification.bind fun v => v.expiryDate.bind toDay).any fun day => day < today

def isVerified (v : ReusableIdentityVerification) : Bool :=
  v.verificationStatus = "APPROVED" ∨ v.kycStatus = "VERIFIED" ∨ v.kycStatus = "APPROVED"

/-- A requirement of the policy that is not met by what the row has. -/
def refusedBy (policy : ServiceKycPolicy) (v : ReusableIdentityVerification) : Bool :=
  ((truthy policy.minVerificationLevel).any fun minimum =>
    (truthy v.verificationLevel).any fun level => level ≠ minimum) ||
  ((policy.acceptedDocumentTypes.filter (· ≠ [])).any fun accepted =>
    (truthy v.documentType).any fun documentType => documentType ∉ accepted)

def isKycReusableForService (verification : Option ReusableIdentityVerification)
    (service : NexaService) : Bool :=
  match verification with
  | none => false
  | some v =>
    (getServicePolicy service).allowsReuse && isVerified v && v.identityVerified &&
      v.reusableAcrossServices && (truthy v.reuseBlockReason).isNone &&
      !isIdentityDocumentExpired toDay today verification && !refusedBy (getServicePolicy service) v

structure KycReuseResult where
  useExistingKyc : Bool
  canSkipIdentityStep : Bool
  canPrefillIdentityReadonly : Bool
  requireStepUpVerification : Bool
  isDocumentExpired : Bool
  isReusableForService : Bool
  blockReason : Option String
  verification : Option ReusableIdentityVerification
  deriving DecidableEq, Repr

def blockReasonOf (verification : Option ReusableIdentityVerification) (service : NexaService) :
    Option String :=
  match verification with
  | none => some "NO_REUSABLE_KYC"
  | some v =>
    if ¬isVerified v then some "NOT_VERIFIED"
    else if (truthy v.reuseBlockReason).isSome then v.reuseBlockReason
    else if isIdentityDocumentExpired toDay today verification then some "EXPIRED"
    else if ¬(getServicePolicy service).allowsReuse then some "POLICY"
    else none

def reuseResult (verification : Option ReusableIdentityVerification) (service : NexaService) :
    KycReuseResult :=
  let policy := getServicePolicy service
  let isDocumentExpired := isIdentityDocumentExpired toDay today verification
  let isReusableForService := isKycReusableForService toDay today verification service
  let blockReason := blockReasonOf toDay today verification service
  let useExistingKyc := isReusableForService && blockReason.isNone
  { useExistingKyc
    canSkipIdentityStep := useExistingKyc && !policy.requiresStepUpVerification
    canPrefillIdentityReadonly :=
      policy.canPrefillIdentityReadonly && verification.any isVerified && !isDocumentExpired
    requireStepUpVerification := policy.requiresStepUpVerification
    isDocumentExpired
    isReusableForService
    blockReason
    verification }

def useExistingKyc (unifiedIdentityId : ℕ) (service : NexaService) : Review KycReuseResult := do
  let verification ← Review.read fun s => s.reusable.find? unifiedIdentityId
  pure (reuseResult toDay today verification service)

/-- Without a row nothing is used again. -/
theorem exists_of_useExistingKyc {verification : Option ReusableIdentityVerification}
    {service : NexaService}
    (h : (reuseResult toDay today verification service).useExistingKyc = true) :
    ∃ v, verification = some v := by
  cases verification with
  | none => simp [reuseResult, isKycReusableForService] at h
  | some v => exact ⟨v, rfl⟩

/-- What an administrator has just approved is used again by every service. -/
theorem useExistingKyc_reusableOf (identityId : ℕ) (kyc : PersonStore.KycProfile) (now : ℤ)
    (existing : Option ReusableIdentityVerification) (service : NexaService) :
    (reuseResult toDay today (some (KycReview.reusableOf identityId kyc now existing))
      service).useExistingKyc = true := by
  have hpolicy : (getServicePolicy service).allowsReuse = true ∧
      (getServicePolicy service).minVerificationLevel = none ∧
      (getServicePolicy service).acceptedDocumentTypes = none := by
    cases service <;> exact ⟨rfl, rfl, rfl⟩
  simp [reuseResult, isKycReusableForService, blockReasonOf, refusedBy, isVerified,
    isIdentityDocumentExpired, KycReview.reusableOf, hpolicy, truthy]

end Reuse

end NexaStays.KycReuse
