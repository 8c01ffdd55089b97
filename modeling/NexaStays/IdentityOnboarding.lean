import Mathlib.Data.Option.Basic

/-!
# The onboarding state of an account

What is told of a person's verification: the status of the account's KYC profile, which the
account itself or its unified identity may lift to approved.
-/
namespace NexaStays.IdentityOnboarding

inductive IdentityVerificationStatus where
  | notStarted | pending | underReview | approved | rejected | expired
  deriving DecidableEq, Repr

def toIdentityVerificationStatus (legacy : Option String) : IdentityVerificationStatus :=
  match (legacy.getD "PENDING").toUpper with
  | "APPROVED" => .approved
  | "VERIFIED" => .approved
  | "REJECTED" => .rejected
  | "EXPIRED" => .expired
  | "UNDER_REVIEW" => .underReview
  | "SUBMITTED" => .underReview
  | "NONE" => .notStarted
  | "" => .notStarted
  | _ => .pending

inductive IdentityOnboardingNext where
  | registration
  deriving DecidableEq, Repr

structure IdentityOnboardingState where
  required : Bool
  status : IdentityVerificationStatus
  next : Option IdentityOnboardingNext
  deriving DecidableEq, Repr

structure IdentityOnboardingSource where
  kycProfileExists : Bool
  kycStatus : Option String
  userKycStatus : Option String
  identityVerificationStatus : Option String
  identityVerified : Bool
  deriving DecidableEq, Repr

/-- The unified identity is approved. -/
def identityApproved (source : IdentityOnboardingSource) : Bool :=
  source.identityVerified ∨
    toIdentityVerificationStatus source.identityVerificationStatus = .approved

/-- `users.kyc_status` is approved. -/
def userRowApproved (source : IdentityOnboardingSource) : Bool :=
  source.userKycStatus ≠ none ∧ toIdentityVerificationStatus source.userKycStatus = .approved

def onboardingStatus (source : IdentityOnboardingSource) : IdentityVerificationStatus :=
  if source.kycProfileExists then
    if (identityApproved source ∨ userRowApproved source) ∧
        toIdentityVerificationStatus source.kycStatus ≠ .rejected ∧
        toIdentityVerificationStatus source.kycStatus ≠ .expired then .approved
    else toIdentityVerificationStatus source.kycStatus
  else if identityApproved source ∨ toIdentityVerificationStatus source.kycStatus = .approved then
    .approved
  else .notStarted

def deriveIdentityOnboardingState (source : IdentityOnboardingSource) : IdentityOnboardingState :=
  let status := onboardingStatus source
  { required := status ≠ .approved
    status
    next := if status ≠ .approved then some .registration else none }

theorem deriveIdentityOnboardingState_status (source : IdentityOnboardingSource) :
    (deriveIdentityOnboardingState source).status = onboardingStatus source := rfl

/-- A profile with a final negative status is not lifted. -/
theorem onboardingStatus_rejected {source : IdentityOnboardingSource}
    (hexists : source.kycProfileExists = true)
    (hrejected : toIdentityVerificationStatus source.kycStatus = .rejected) :
    onboardingStatus source = .rejected := by
  simp [onboardingStatus, hexists, hrejected]

end NexaStays.IdentityOnboarding
