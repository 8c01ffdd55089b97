import NexaStays.HostingStore
import NexaStays.PhoneNumbers

/-!
# The review of a host

A user applies to become a host; an administrator approves or rejects the application, and
may freeze the listings of an approved host. Only `approve` locks the profile; the other
functions read it, check its status and save it.
-/
namespace NexaStays.HostReview

open NexaStays.KeyedTable NexaStays.Transactions NexaStays.EntitySave NexaStays.HostingStore
open NexaStays.Phases NexaStays.Snapshots NexaStays.Phases.Protocol
open NexaStays.Database (StaysError)

/-- The authenticated user; `kycStatus` is that of the identity snapshot. -/
structure UserContext where
  userId : ℕ
  phoneNumber : Option String
  email : Option String
  kycStatus : Option String
  deriving DecidableEq, Repr

structure SubmitHostOnboardingDto where
  fullName : Option String
  phone : Option String
  email : Option String
  city : Option String
  hostType : Option String
  useExistingKyc : Option Bool
  hostingPoliciesAccepted : Option Bool
  identityReused : Option Bool
  documentType : Option String
  documentNumberHash : Option String
  documentFrontAssetId : Option String
  documentBackAssetId : Option String
  selfieAssetId : Option String
  deriving DecidableEq, Repr

structure SubmitHostOnboardingContext where
  source : OnboardingSource
  submittedFrom : String
  requirePolicies : Bool
  deriving DecidableEq, Repr

/-- `meetsHostIdentityReuse` of the identity snapshot. -/
def isIdentityVerified (user : UserContext) : Bool :=
  user.kycStatus.any fun status => status.toUpper = "APPROVED" ∨ status.toUpper = "VERIFIED"

/-- `text?.trim()` is there and not empty. -/
def filled (text : Option String) : Bool := text.any fun t => SqlText.trim t ≠ ""

/-- A document that is named was uploaded before; the media storage answers with 0 if it has
none of the candidates. -/
def assertOwnedAsset (check : Option String × String) : Hosting Unit :=
  if filled check.1 then do
    let found ← Program.receive
    Program.require (found ≠ 0) (.badRequest
      ("Invalid " ++ check.2 ++ " asset_id — upload the document first as this user"))
  else pure ()

def assertOwnedVerificationAssets (dto : SubmitHostOnboardingDto) : Hosting Unit :=
  Program.forEach assertOwnedAsset [(dto.documentFrontAssetId, "id_front"),
    (dto.documentBackAssetId, "id_back"), (dto.selfieAssetId, "selfie")]

structure SubmitResponse where
  id : ℕ
  applicationStatus : ApplicationStatus
  identityStatus : IdentityStatus
  message : String
  deriving DecidableEq, Repr

def toSubmitResponse (profile : HostProfile) (message : String) : SubmitResponse :=
  ⟨profile.id, profile.applicationStatus, profile.identityStatus, message⟩

/-- `hostProfileRepo.create({ … })`; the row has no number before it is saved. -/
def createProfile (user : UserContext) (context : SubmitHostOnboardingContext) : HostProfile :=
  { id := 0
    userId := user.userId
    hostVerificationStatus := .pending
    applicationStatus := .draft
    identityStatus := .verified
    source := context.source
    submittedFrom := some context.submittedFrom
    fullName := none
    email := none
    phone := none
    city := none
    hostType := none
    hostingPoliciesAcceptedAt := none
    identityReused := true
    listingFrozen := false
    documentType := none
    documentNumberHash := none
    documentFrontAssetId := none
    documentBackAssetId := none
    selfieAssetId := none
    submittedAt := none
    reviewedAt := none
    reviewedBy := none
    rejectionReason := none }

/-- The identity fields of a submitted profile: its status, and whether KYC was reused. -/
def identityOf (user : UserContext) (dto : SubmitHostOnboardingDto) : IdentityStatus × Bool :=
  if dto.useExistingKyc = some true ∧ isIdentityVerified user then (.verified, true)
  else if dto.documentFrontAssetId.any (· ≠ "") ∧ dto.selfieAssetId.any (· ≠ "") then
    (if isIdentityVerified user then .verified else .pending, false)
  else (.verified, dto.identityReused.getD true)

/-- The profile as it is submitted, with a phone number in normal form. -/
def submitted (user : UserContext) (dto : SubmitHostOnboardingDto)
    (context : SubmitHostOnboardingContext) (phone : String) (acceptedAt now : ℕ)
    (profile : HostProfile) : HostProfile :=
  { profile with
    fullName := dto.fullName.or profile.fullName
    email := dto.email.or (user.email.or profile.email)
    phone := some phone
    city := dto.city.or profile.city
    hostType := dto.hostType.or profile.hostType
    source := context.source
    submittedFrom := some context.submittedFrom
    documentType := dto.documentType.or profile.documentType
    documentNumberHash := dto.documentNumberHash.or profile.documentNumberHash
    documentFrontAssetId := dto.documentFrontAssetId.or profile.documentFrontAssetId
    documentBackAssetId := dto.documentBackAssetId.or profile.documentBackAssetId
    selfieAssetId := dto.selfieAssetId.or profile.selfieAssetId
    identityStatus := (identityOf user dto).1
    identityReused := (identityOf user dto).2
    hostingPoliciesAcceptedAt := if dto.hostingPoliciesAccepted = some true then some acceptedAt
      else profile.hostingPoliciesAcceptedAt
    applicationStatus := .pending
    hostVerificationStatus := .pending
    submittedAt := some now
    reviewedAt := none
    reviewedBy := none
    rejectionReason := none }

/-- `normalizePhoneOrThrow` of the stays service, which has the normalizer too. -/
def normalizePhoneOrThrow (raw : String) : Except StaysError String :=
  let result := PhoneNumbers.validatePhoneNumber raw.toList
  if result.valid then .ok (String.ofList (result.normalized.getD []))
  else .error (.badRequest (result.error.getD "Invalid phone number"))

/-- The table of profiles, for the row of `profile`. -/
def profileTable (id : ℕ) : Saved Store Write HostProfile :=
  ⟨fun s => s.hostProfiles.find? id, .hostProfile⟩

def saveProfile (profile : HostProfile) : Hosting Unit :=
  saveEntity (profileTable profile.id) .database profile

/-- The save, which returns the entity. -/
def savedProfile (profile : HostProfile) : Hosting HostProfile := do
  saveProfile profile
  pure profile

/-- The number is taken, or the user has a profile. -/
def taken (s : Store) (id userId : ℕ) : Bool :=
  (s.hostProfiles.find? id).isSome || s.hostProfiles.rows.any (·.userId = userId)

/-- The insertion of a profile; `user_id` is unique. -/
def insertProfile (profile : HostProfile) : Hosting HostProfile :=
  .choose fun id => .update
    (fun s => if taken s id profile.userId then [] else [.hostProfile { profile with id }])
    (fun s => if taken s id profile.userId then .throw .database else .pure { profile with id })
    (.throw .database)

def submittedMessage : String :=
  "Host onboarding submitted. Your application will be reviewed shortly."

/-- The submission, from the phone number on. -/
def submitProfile (user : UserContext) (dto : SubmitHostOnboardingDto)
    (context : SubmitHostOnboardingContext) (save : HostProfile → Hosting HostProfile)
    (profile : HostProfile) : Hosting SubmitResponse := do
  let phone := dto.phone.or user.phoneNumber
  Program.require (filled phone)
    (.badRequest "A verified phone number is required to submit host onboarding")
  let phone ← Program.ofExcept (normalizePhoneOrThrow (phone.getD ""))
  let acceptedAt ← Hosting.now
  let now ← Hosting.now
  let saved ← save (submitted user dto context phone acceptedAt now profile)
  pure (toSubmitResponse saved submittedMessage)

/-- The submission of a profile that was read. -/
def resubmit (user : UserContext) (dto : SubmitHostOnboardingDto)
    (context : SubmitHostOnboardingContext) (profile : HostProfile) : Hosting SubmitResponse :=
  match profile.applicationStatus with
  | .approved => .throw (.conflict "You already have an approved host account")
  | .pending => pure (toSubmitResponse profile "Host onboarding status retrieved")
  | _ => submitProfile user dto context savedProfile profile

def submitHostOnboarding (user : UserContext) (dto : SubmitHostOnboardingDto)
    (context : SubmitHostOnboardingContext) : Hosting SubmitResponse := do
  Program.require (isIdentityVerified user ∨ dto.useExistingKyc ≠ some true ∧
      filled dto.documentFrontAssetId ∧ filled dto.selfieAssetId)
    (.forbidden ("Identity verification required. " ++
      "Complete KYC in Nexa Identity or upload ID documents."))
  Program.require (¬context.requirePolicies ∨ dto.hostingPoliciesAccepted = some true)
    (.badRequest "You must accept hosting policies to apply")
  assertOwnedVerificationAssets dto
  let profile ← Hosting.findOne fun s => s.hostProfiles.rows.filter (·.userId = user.userId)
  match profile with
  | some profile => resubmit user dto context profile
  | none => submitProfile user dto context insertProfile (createProfile user context)

/-- What the review functions do with a profile that was read: check it, edit it, save it. -/
def revise (check : HostProfile → Except StaysError Unit) (edit : ℕ → HostProfile → HostProfile)
    (profile : HostProfile) : Hosting HostProfile := do
  Program.ofExcept (check profile)
  let now ← Hosting.now
  saveProfile (edit now profile)
  pure (edit now profile)

/-- The name of a status in an error. -/
def statusText : ApplicationStatus → String
  | .notStarted => "NOT_STARTED"
  | .draft => "DRAFT"
  | .pending => "PENDING"
  | .approved => "APPROVED"
  | .rejected => "REJECTED"

/-- An application can be decided on while it is pending or a draft. -/
def undecided (verb : String) (profile : HostProfile) : Except StaysError Unit :=
  if profile.applicationStatus = .pending ∨ profile.applicationStatus = .draft then .ok ()
  else .error (.badRequest ("Cannot " ++ verb ++ " host onboarding with status " ++
    statusText profile.applicationStatus))

def approvedBy (reviewedBy now : ℕ) (profile : HostProfile) : HostProfile :=
  { profile with
    applicationStatus := .approved
    hostVerificationStatus := .approved
    reviewedAt := some now
    reviewedBy := some reviewedBy
    rejectionReason := none }

def rejectedBy (reviewedBy : ℕ) (reason : String) (now : ℕ) (profile : HostProfile) : HostProfile :=
  { profile with
    applicationStatus := .rejected
    hostVerificationStatus := .rejected
    reviewedAt := some now
    reviewedBy := some reviewedBy
    rejectionReason := some (if reason = "" then "Rejected by admin" else reason) }

def onlyApproved (profile : HostProfile) : Except StaysError Unit :=
  if profile.hostVerificationStatus = .approved then .ok ()
  else .error (.badRequest "Only approved hosts can be frozen")

def withFrozen (frozen : Bool) (_ : ℕ) (profile : HostProfile) : HostProfile :=
  { profile with listingFrozen := frozen }

def profileNotFound : StaysError := .notFound "Host profile not found"

def approve (profileId reviewedBy : ℕ) : Hosting HostProfile := do
  let profile ← Hosting.transaction do
    let locked ← Hosting.lockRow (.hostProfile profileId) fun s => s.hostProfiles.find? profileId
    let locked ← Program.expect locked profileNotFound
    revise (undecided "approve") (approvedBy reviewedBy) locked
  Hosting.audit reviewedBy "HOST_PROFILE" profileId "HOST_ONBOARDING_APPROVED"
  pure profile

/-- The functions that take no lock. -/
def reviseUnlocked (profileId actorUserId : ℕ) (check : HostProfile → Except StaysError Unit)
    (edit : ℕ → HostProfile → HostProfile) (action : String) : Hosting HostProfile := do
  let profile ← Hosting.read fun s => s.hostProfiles.find? profileId
  let profile ← Program.expect profile profileNotFound
  let profile ← revise check edit profile
  Hosting.audit actorUserId "HOST_PROFILE" profileId action
  pure profile

def reject (profileId : ℕ) (reason : String) (reviewedBy : ℕ) : Hosting HostProfile :=
  reviseUnlocked profileId reviewedBy (undecided "reject") (rejectedBy reviewedBy reason)
    "HOST_ONBOARDING_REJECTED"

structure FreezeResponse where
  listingFrozen : Bool
  message : String
  deriving DecidableEq, Repr

def freezeHost (hostProfileId adminUserId : ℕ) : Hosting FreezeResponse := do
  let _ ← reviseUnlocked hostProfileId adminUserId onlyApproved (withFrozen true)
    "HOST_LISTING_FROZEN"
  pure ⟨true, "Host listing access frozen. They can still book."⟩

def unfreezeHost (hostProfileId adminUserId : ℕ) : Hosting FreezeResponse := do
  let _ ← reviseUnlocked hostProfileId adminUserId (fun _ => .ok ()) (withFrozen false)
    "HOST_LISTING_UNFROZEN"
  pure ⟨false, "Host can list again."⟩

inductive HostCall where
  | submitHostOnboarding (user : UserContext) (dto : SubmitHostOnboardingDto)
    (context : SubmitHostOnboardingContext)
  | approve (profileId reviewedBy : ℕ)
  | reject (profileId : ℕ) (reason : String) (reviewedBy : ℕ)
  | freezeHost (hostProfileId adminUserId : ℕ)
  | unfreezeHost (hostProfileId adminUserId : ℕ)
  deriving DecidableEq, Repr

/-- What a call returns: a decision returns the profile as it was saved. -/
inductive HostAnswer where
  | submitted (response : SubmitResponse)
  | profile (profile : HostProfile)
  | frozen (response : FreezeResponse)
  deriving DecidableEq, Repr

def HostCall.program : HostCall → Hosting HostAnswer
  | .submitHostOnboarding user dto context =>
    .submitted <$> HostReview.submitHostOnboarding user dto context
  | .approve profileId reviewedBy => .profile <$> HostReview.approve profileId reviewedBy
  | .reject profileId reason reviewedBy => .profile <$> HostReview.reject profileId reason reviewedBy
  | .freezeHost profileId adminUserId => .frozen <$> HostReview.freezeHost profileId adminUserId
  | .unfreezeHost profileId adminUserId => .frozen <$> HostReview.unfreezeHost profileId adminUserId

abbrev HostSystem := System HostCall Store Key Write StaysError HostAnswer

/-- Between the read of the profile `id` and its save. -/
inductive ProfileSpan (id : ℕ) (p : Hosting HostAnswer) : Prop where
  | resubmit {user dto context profile} (row : profile.id = id)
    (inside : Inside (resubmit user dto context profile) p)
  | revise {check edit profile} (row : profile.id = id)
    (inside : Inside (revise check edit profile) p)
  | approve {check edit profile} (row : profile.id = id)
    (inside : Inside (closing .database (revise check edit profile)) p)

/-- What a call may make of the profile. -/
inductive ReviewLaw : HostCall → Option HostProfile → HostProfile → Prop where
  | create {user dto context phone acceptedAt now id} :
    ReviewLaw (.submitHostOnboarding user dto context) none
      { submitted user dto context phone acceptedAt now (createProfile user context) with id }
  | submit {user dto context phone acceptedAt now v} (pending : v.applicationStatus ≠ .pending)
    (approved : v.applicationStatus ≠ .approved) :
    ReviewLaw (.submitHostOnboarding user dto context) (some v)
      (submitted user dto context phone acceptedAt now v)
  | approve {profileId reviewedBy now v} (check : undecided "approve" v = .ok ()) :
    ReviewLaw (.approve profileId reviewedBy) (some v) (approvedBy reviewedBy now v)
  | reject {profileId reason reviewedBy now v} (check : undecided "reject" v = .ok ()) :
    ReviewLaw (.reject profileId reason reviewedBy) (some v) (rejectedBy reviewedBy reason now v)
  | freeze {profileId adminUserId now v} (check : onlyApproved v = .ok ()) :
    ReviewLaw (.freezeHost profileId adminUserId) (some v) (withFrozen true now v)
  | unfreeze {profileId adminUserId now v} :
    ReviewLaw (.unfreezeHost profileId adminUserId) (some v) (withFrozen false now v)

/-- The profile `id`. -/
def profileView (id : ℕ) (s : Store) : Option HostProfile := s.hostProfiles.find? id

/-- The changes of the profile `id`. -/
abbrev review (id : ℕ) : Protocol Store Key Write StaysError HostAnswer
    (Spot HostCall HostProfile) :=
  changes (profileView id) ReviewLaw (ProfileSpan id)

section Refinement

variable {profileId : ℕ} {c : HostCall}

theorem spares_of_ne {row : HostProfile} (h : row.id ≠ profileId) :
    Spares (profileView profileId) (Write.hostProfile row) := by
  intro s
  simp [profileView, Store.write, Ne.symm h]

/-- The save of a profile that the call holds. -/
theorem refines_saveProfile {β : Type} {ctx : Hosting Unit → Hosting β} {v new : HostProfile}
    {Q : Except StaysError Unit → Session Key Write → Spot HostCall HostProfile → Prop}
    (hid : new.id = profileId) (hlaw : ReviewLaw c (some v) new) (hQ : ∀ r, Q r .idle (.idle c)) :
    (loose (review profileId) fun _ => True).Refines ctx Q (saveProfile new) .idle
      (.holding c v) := by
  subst hid
  refine refines_saveEntity (fun _ => trivial) rfl (fun s _ => ?_) hlaw (hQ _) (hQ _)
  simp [profileView, Store.write, profileTable]

theorem leaves_saveProfile {new : HostProfile} (h : new.id ≠ profileId) :
    Leaves (profileView profileId) (saveProfile new) := by
  refine leaves_saveEntity (spares_of_ne h) fun s row old hrow => spares_of_ne ?_
  have hid : (Columns.merge old new row).id = new.id := by
    have hkey : row.id = new.id := Table.key_of_find? hrow
    simp only [Columns.merge, column, hkey, ite_self]
  rwa [hid]

theorem leaves_audit {actor : ℕ} {entityType action : String} {entityId : ℕ} :
    Leaves (profileView profileId) (Hosting.audit actor entityType entityId action) :=
  (Leaves.insertRow fun _ _ => rfl).bind fun _ => trivial

variable {check : HostProfile → Except StaysError Unit} {edit : ℕ → HostProfile → HostProfile}

theorem leaves_revise (hedit : ∀ now v, (edit now v).id = v.id) {v : HostProfile}
    (h : v.id ≠ profileId) : Leaves (profileView profileId) (revise check edit v) :=
  Leaves.ofExcept.bind fun _ => Leaves.receive.bind fun now =>
    (leaves_saveProfile (by rwa [hedit])).bind fun _ => trivial

/-- A profile that was read, checked and saved. -/
theorem refines_revise (hedit : ∀ now v, (edit now v).id = v.id) {v : HostProfile}
    (hid : v.id = profileId) (hcheck : check v = .ok ())
    (hlaw : ∀ now, ReviewLaw c (some v) (edit now v))
    {Q : Except StaysError HostProfile → Session Key Write → Spot HostCall HostProfile → Prop}
    (hQ : ∀ r, Q r .idle (.idle c)) :
    (loose (review profileId) fun _ => True).Refines id Q (revise check edit v) .idle
      (.holding c v) := by
  unfold revise
  rw [hcheck]
  refine Refines.receive trivial fun s now _ => .stay ?_
  refine Refines.handle (refines_saveProfile ((hedit now v).trans hid) (hlaw now) fun r => ?_)
  cases r with
  | ok _ => exact hQ _
  | error e => exact hQ _

/-- The same in a transaction. -/
theorem refines_closing_revise (hedit : ∀ now v, (edit now v).id = v.id) {v : HostProfile}
    (hid : v.id = profileId) (hcheck : check v = .ok ())
    (hlaw : ∀ now, ReviewLaw c (some v) (edit now v)) {ses : Session Key Write}
    (hactive : ses.active = true) (hpending : ses.pending = [])
    {Q : Except StaysError HostProfile → Session Key Write → Spot HostCall HostProfile → Prop}
    (hQ : ∀ r, Q r .idle (.idle c)) :
    (loose (review profileId) fun _ => True).Refines id Q
      (closing .database (revise check edit v)) ses (.holding c v) := by
  have hput : ∀ now s, profileView profileId s = some v →
      profileView profileId (publish s [.hostProfile (edit now v)]) = some (edit now v) := by
    intro now s _
    simp [profileView, Store.write, hedit, hid]
  have hfind : ∀ now, (profileTable (edit now v).id).find = profileView profileId := by
    intro now
    funext s
    rw [profileTable, hedit, hid]
    rfl
  have hblock : closing .database (revise check edit v) = Program.choose fun now =>
      closing .database (saveProfile (edit now v) >>= fun _ => pure (edit now v)) := by
    rw [revise, hcheck]
    rfl
  rw [hblock]
  refine ⟨trivial, fun s now _ => .stay (Refines.handle (Refines.handle
    (refines_saveEntity_active (fun _ => trivial) (hfind now) (hput now) hactive hpending
      (fun ses' hses' => ?_) ?_)))⟩
  · exact refines_commit (fun _ => trivial) hses' (hlaw now) (hQ _) (hQ _)
  · exact ⟨trivial, fun s _ => .stay (hQ _)⟩

/-- A function that reads the profile and revises it, without a lock. -/
theorem refines_reviseUnlocked (hedit : ∀ now v, (edit now v).id = v.id)
    (hlaw : ∀ v now, check v = .ok () → ReviewLaw c (some v) (edit now v))
    {hostProfileId actor : ℕ} {action : String} {ctx : Hosting HostProfile → Hosting HostAnswer}
    (hctx : ∀ (block : Hosting HostProfile) p, Inside block p → Inside block (ctx p))
    {Q : Except StaysError HostProfile → Session Key Write → Spot HostCall HostProfile → Prop}
    (hQ : ∀ r ses, Q r ses (.idle c)) :
    (review profileId).Refines ctx Q (reviseUnlocked hostProfileId actor check edit action) .idle
      (.idle c) := by
  have hrest : ∀ {β : Type} {ctx' : Hosting β → Hosting HostAnswer} {p : Hosting β}
      {R : Except StaysError β → Session Key Write → Spot HostCall HostProfile → Prop},
      Leaves (profileView profileId) p → (∀ r ses, R r ses (.idle c)) →
      (review profileId).Refines ctx' R p .idle (.idle c) := fun hp hR =>
    refines_leaves hp (by simp [Session.idle]) fun r ses _ => hR r ses
  refine Refines.query at_idle (fun s _ => ?_) (.stay (hQ _ _))
  cases hfind : s.hostProfiles.find? hostProfileId with
  | none => exact .stay (hQ _ _)
  | some v =>
    rw [expect_some]
    by_cases hid : v.id = profileId
    · cases hcheck : check v with
      | error e =>
        rw [revise, hcheck]
        exact .stay (hQ _ _)
      | ok u =>
        have hread : profileView profileId s = some v := by
          rw [profileView, ← hid, Table.key_of_find? hfind, hfind]
        refine goes_read_bind hread
          (fun q hres hq => .revise hid (hctx _ _ (inside_of_residue hres hq)))
          (refines_revise hedit hid hcheck (fun now => hlaw v now hcheck) fun r => ?_)
        cases r with
        | ok saved => exact hrest (leaves_audit.bind fun _ => trivial) hQ
        | error e => exact hQ _ _
    · exact .stay (hrest ((leaves_revise hedit hid).bind fun _ => leaves_audit.bind
        fun _ => trivial) hQ)

/-- What holds where a transaction has ended. -/
def Ended (profileId : ℕ) (c : HostCall) {β : Type} (_ : Except StaysError β)
    (ses : Session Key Write) (g : Spot HostCall HostProfile) : Prop :=
  g = .idle c ∧ ∀ w ∈ ses.pending, Spares (profileView profileId) w

theorem ended_idle {β : Type} {r : Except StaysError β} : Ended profileId c r .idle (.idle c) :=
  ⟨rfl, by simp [Session.idle]⟩

/-- The transaction of an approval, from its lock on. -/
theorem refines_approveLocked {hostProfileId reviewedBy : ℕ} {s : Store} {ses : Session Key Write}
    (hactive : ses.active = true) (hpending : ses.pending = [])
    {β : Type} {f : HostProfile → Hosting β} {g : β → HostAnswer} :
    (review profileId).Goes (.idle (.approve hostProfileId reviewedBy)) s []
      ((review profileId).Refines (fun q => g <$> (q >>= f))
        (Ended profileId (.approve hostProfileId reviewedBy))
        (closing .database (Program.expect (s.hostProfiles.find? hostProfileId) profileNotFound >>=
          revise (undecided "approve") (approvedBy reviewedBy))) ses) := by
  have hspared : ∀ w ∈ ses.pending, Spares (profileView profileId) w := by simp [hpending]
  have hedit : ∀ now v, (approvedBy reviewedBy now v).id = v.id := fun _ _ => rfl
  cases hfind : s.hostProfiles.find? hostProfileId with
  | none => exact .stay (refines_leaves (by trivial) hspared fun _ _ h => ⟨rfl, h⟩)
  | some v =>
    rw [expect_some]
    by_cases hid : v.id = profileId
    · cases hcheck : undecided "approve" v with
      | error e =>
        rw [revise, hcheck]
        exact .stay (refines_leaves (by trivial) hspared fun _ _ h => ⟨rfl, h⟩)
      | ok u =>
        have hread : profileView profileId s = some v := by
          rw [profileView, ← hid, Table.key_of_find? hfind, hfind]
        refine goes_read hread (fun q hres hq => .approve hid
          ((inside_of_residue hres hq : Inside _ (q >>= f)).handle)) ?_
        exact refines_closing_revise hedit hid hcheck (fun now => .approve hcheck)
          hactive hpending fun _ => ended_idle
    · exact .stay (refines_leaves (leaves_revise hedit hid).closing hspared
        fun _ _ h => ⟨rfl, h⟩)

theorem refines_approve {hostProfileId reviewedBy : ℕ} :
    (review profileId).Refines id (review profileId).Done
      (HostAnswer.profile <$> approve hostProfileId reviewedBy) .idle
      (.idle (.approve hostProfileId reviewedBy)) := by
  refine refines_answer (Refines.bind (Q := Ended profileId (.approve hostProfileId reviewedBy)) ?_
    (fun b ses g h => ?_) fun e ses g h => ?_)
  · refine ⟨at_idle, fun s _ => .stay ⟨at_idle, fun s _ => ?_, .stay ?_⟩⟩
    · exact refines_approveLocked (by unfold Session.acquire; split_ifs <;> rfl)
        (by unfold Session.acquire; split_ifs <;> rfl)
    · exact ⟨at_idle, fun s _ => .stay ended_idle⟩
  · obtain ⟨rfl, hpending⟩ := h
    exact refines_rest_of hpending (leaves_audit.bind fun _ => trivial)
  · obtain ⟨rfl, -⟩ := h
    exact at_idle

variable {user : UserContext} {dto : SubmitHostOnboardingDto} {context : SubmitHostOnboardingContext}

theorem leaves_submitProfile {save : HostProfile → Hosting HostProfile} {profile : HostProfile}
    (hsave : ∀ phone acceptedAt now, Leaves (profileView profileId)
      (save (submitted user dto context phone acceptedAt now profile))) :
    Leaves (profileView profileId) (submitProfile user dto context save profile) :=
  Leaves.require.bind fun _ => Leaves.ofExcept.bind fun phone => Leaves.receive.bind fun acceptedAt =>
    Leaves.receive.bind fun now => (hsave phone acceptedAt now).bind fun _ => trivial

theorem leaves_resubmit {v : HostProfile} (h : v.id ≠ profileId) :
    Leaves (profileView profileId) (resubmit user dto context v) := by
  unfold resubmit
  split
  · trivial
  · trivial
  · refine leaves_submitProfile fun phone acceptedAt now => ?_
    have hid : (submitted user dto context phone acceptedAt now v).id ≠ profileId := h
    exact (leaves_saveProfile hid).bind fun _ => trivial

/-- A submission ends at once, or it has read a profile that may be submitted. -/
theorem resubmit_cases (v : HostProfile) : (∃ b, resubmit user dto context v = .pure b) ∨
    (∃ e, resubmit user dto context v = .throw e) ∨
      v.applicationStatus ≠ .pending ∧ v.applicationStatus ≠ .approved ∧
        ∃ phone, resubmit user dto context v = Program.choose fun acceptedAt =>
          Program.choose fun now =>
            savedProfile (submitted user dto context phone acceptedAt now v) >>= fun saved =>
              pure (toSubmitResponse saved submittedMessage) := by
  have hsubmit : v.applicationStatus ≠ .pending → v.applicationStatus ≠ .approved →
      resubmit user dto context v = submitProfile user dto context savedProfile v := by
    intro hpending happroved
    unfold resubmit
    split <;> simp_all
  by_cases hpending : v.applicationStatus = .pending
  · exact Or.inl ⟨_, by simp only [resubmit, hpending]; rfl⟩
  · by_cases happroved : v.applicationStatus = .approved
    · exact Or.inr (Or.inl ⟨_, by simp only [resubmit, happroved]; rfl⟩)
    · rw [hsubmit hpending happroved, submitProfile]
      by_cases hphone : filled (dto.phone.or user.phoneNumber) = true
      · cases hnormal : normalizePhoneOrThrow ((dto.phone.or user.phoneNumber).getD "") with
        | error e =>
          refine Or.inr (Or.inl ⟨e, ?_⟩)
          simp only [Program.require, if_pos hphone]
          rfl
        | ok phone =>
          refine Or.inr (Or.inr ⟨hpending, happroved, phone, ?_⟩)
          simp only [Program.require, if_pos hphone]
          rfl
      · refine Or.inr (Or.inl ⟨.badRequest
          "A verified phone number is required to submit host onboarding", ?_⟩)
        simp only [Program.require, if_neg hphone]
        rfl

/-- The submission of a profile that the call has read and that may be submitted. -/
theorem refines_resubmit {v : HostProfile} (hid : v.id = profileId) {phone : String}
    (hpending : v.applicationStatus ≠ .pending) (happroved : v.applicationStatus ≠ .approved)
    {Q : Except StaysError SubmitResponse → Session Key Write → Spot HostCall HostProfile → Prop}
    (hQ : ∀ r, Q r .idle (.idle (.submitHostOnboarding user dto context))) :
    (loose (review profileId) fun _ => True).Refines id Q
      (Program.choose fun acceptedAt => Program.choose fun now =>
        savedProfile (submitted user dto context phone acceptedAt now v) >>= fun saved =>
          pure (toSubmitResponse saved submittedMessage)) .idle
      (.holding (.submitHostOnboarding user dto context) v) := by
  refine ⟨trivial, fun s acceptedAt _ => .stay ⟨trivial, fun s now _ => .stay ?_⟩⟩
  refine Refines.handle (Refines.handle (refines_saveProfile hid
    (.submit hpending happroved) fun r => ?_))
  cases r with
  | ok _ => exact hQ _
  | error e => exact hQ _

/-- The insertion of a profile. -/
theorem refines_insertProfile {row : HostProfile}
    (hlaw : ∀ id, ReviewLaw c none { row with id }) {ctx : Hosting HostProfile → Hosting HostAnswer}
    {Q : Except StaysError HostProfile → Session Key Write → Spot HostCall HostProfile → Prop}
    (hQ : ∀ r, Q r .idle (.idle c)) :
    (review profileId).Refines ctx Q (insertProfile row) .idle (.idle c) := by
  have hview : ∀ s : Store, (Session.idle : Session Key Write).view s = s := fun _ => rfl
  refine ⟨at_idle, fun s n _ => .stay ⟨at_idle, fun s _ => ?_, .stay (hQ _)⟩⟩
  rw [hview]
  by_cases htaken : taken s n row.userId = true
  · simp only [htaken, if_true]
    exact .stay (hQ _)
  · simp only [htaken, Bool.false_eq_true, if_false]
    refine .step ?_ (hQ (.ok _))
    by_cases hid : n = profileId
    · subst hid
      refine .create ?_ ?_ (hlaw n)
      · simp only [taken, Bool.or_eq_true, not_or, Bool.not_eq_true, Option.isSome_eq_false_iff,
          Option.isNone_iff_eq_none] at htaken
        exact htaken.1
      · simp [profileView, Session.visible, Session.idle, Store.write]
    · refine .frame ?_
      simp [profileView, Session.visible, Session.idle, Store.write, Ne.symm hid]

/-- The documents are looked up in the media storage. -/
theorem refines_assets {ctx : Hosting Unit → Hosting HostAnswer} :
    (review profileId).Refines ctx (fun _ ses g => ses = .idle ∧ g = .idle c)
      (assertOwnedVerificationAssets dto) .idle (.idle c) := by
  have hround : ∀ check ctx, (review profileId).Refines ctx
      (fun _ ses g => ses = .idle ∧ g = .idle c) (assertOwnedAsset check) .idle (.idle c) := by
    intro check ctx
    unfold assertOwnedAsset
    split_ifs
    · refine ⟨at_idle, fun s n _ => .stay ?_⟩
      by_cases hfound : n ≠ 0
      · simp only [Program.handle, Program.require, if_pos hfound]
        exact ⟨rfl, rfl⟩
      · simp only [Program.handle, Program.require, if_neg hfound]
        exact ⟨rfl, rfl⟩
    · exact ⟨rfl, rfl⟩
  exact refines_forEach (fun check _ ctx => (hround check ctx).mono fun r ses g h => by
    cases r <;> exact h) ⟨rfl, rfl⟩

/-- The profile of the user that was found. -/
theorem goes_resubmit {s : Store} {v : HostProfile} (hrow : v ∈ s.hostProfiles.rows) :
    (review profileId).Goes (.idle (.submitHostOnboarding user dto context)) s []
      ((review profileId).Refines (fun q => HostAnswer.submitted <$> q)
        (DoneWith (review profileId) HostAnswer.submitted) (resubmit user dto context v) .idle) := by
  by_cases hid : v.id = profileId
  · have hread : profileView profileId s = some v := by
      rw [profileView, ← hid, Table.find?_key hrow]
    obtain ⟨b, hblock⟩ | ⟨e, hblock⟩ | ⟨hpending, happroved, phone, hblock⟩ :=
      resubmit_cases v
    · rw [hblock]
      exact .stay doneWith_idle
    · rw [hblock]
      exact .stay doneWith_idle
    · refine goes_read hread (fun q hres hq => .resubmit hid
        (inside_of_residue (f := fun b => pure (HostAnswer.submitted b)) hres hq)) ?_
      rw [hblock]
      exact refines_resubmit hid hpending happroved fun r => doneWith_idle
  · exact .stay (refines_rest (leaves_resubmit hid))

/-- The submission of a user without a profile. -/
theorem refines_submitNew {ctx : Hosting SubmitResponse → Hosting HostAnswer} :
    (review profileId).Refines ctx (DoneWith (review profileId) HostAnswer.submitted)
      (submitProfile user dto context insertProfile (createProfile user context)) .idle
      (.idle (.submitHostOnboarding user dto context)) := by
  refine Refines.require (fun _ => ?_) fun _ => doneWith_idle
  cases hphone : normalizePhoneOrThrow ((dto.phone.or user.phoneNumber).getD "") with
  | error e => exact doneWith_idle
  | ok phone =>
    refine Refines.receive at_idle fun s acceptedAt _ => .stay
      (Refines.receive at_idle fun s now _ => .stay ?_)
    refine Refines.handle (refines_insertProfile (fun id => .create) fun r => ?_)
    cases r with
    | ok saved =>
      have hdone : DoneWith (review profileId) HostAnswer.submitted
          (.ok (toSubmitResponse saved submittedMessage)) .idle
          (.idle (.submitHostOnboarding user dto context)) := doneWith_idle
      exact hdone
    | error e =>
      have hdone : DoneWith (review profileId) HostAnswer.submitted (.error e) .idle
          (.idle (.submitHostOnboarding user dto context)) := doneWith_idle
      exact hdone

theorem refines_submit : (review profileId).Refines id (review profileId).Done
    (HostAnswer.submitted <$> submitHostOnboarding user dto context) .idle
    (.idle (.submitHostOnboarding user dto context)) := by
  refine refines_answer (Refines.require (fun _ => ?_) fun _ => doneWith_idle)
  refine Refines.require (fun _ => ?_) fun _ => doneWith_idle
  refine Refines.bind refines_assets (fun _ ses g h => ?_) fun e ses g h => ?_
  · obtain ⟨rfl, rfl⟩ := h
    refine ⟨at_idle, fun s n _ => .stay ⟨at_idle, fun s _ => ?_, .stay doneWith_idle⟩⟩
    cases hfound : Program.pick n (s.hostProfiles.rows.filter (·.userId = user.userId)) with
    | some v =>
      have hrow := (List.mem_filter.mp (Program.mem_of_pick hfound)).1
      simpa only [Program.handle, Session.view, Session.idle, publish_nil, hfound] using
        goes_resubmit hrow
    | none =>
      simpa only [Program.handle, Session.view, Session.idle, publish_nil, hfound] using
        Goes.stay refines_submitNew
  · obtain ⟨rfl, rfl⟩ := h
    exact doneWith_idle

/-- Every call reads the profile and changes it as the law says. -/
theorem program_refines (profileId : ℕ) (c : HostCall) :
    (review profileId).Refines id (review profileId).Done c.program .idle (.idle c) := by
  cases c with
  | submitHostOnboarding user dto context => exact refines_submit
  | approve hostProfileId reviewedBy => exact refines_approve
  | reject hostProfileId reason reviewedBy =>
    have hedit : ∀ now v, (rejectedBy reviewedBy reason now v).id = v.id := fun _ _ => rfl
    exact refines_answer (refines_reviseUnlocked hedit (fun v now hcheck => .reject hcheck)
      (fun _ _ h => h.handle) fun _ _ => doneWith_idle)
  | freezeHost hostProfileId adminUserId =>
    have hedit : ∀ now v, (withFrozen true now v).id = v.id := fun _ _ => rfl
    exact refines_answer (Refines.bind (Q := fun _ _ g => g = .idle (.freezeHost _ _))
      (refines_reviseUnlocked hedit (fun v now hcheck => .freeze hcheck)
        (fun _ _ h => h.handle.handle) fun _ _ => rfl)
      (fun _ _ _ h => h ▸ doneWith_idle) fun _ _ _ h => h ▸ doneWith_idle)
  | unfreezeHost hostProfileId adminUserId =>
    have hedit : ∀ now v, (withFrozen false now v).id = v.id := fun _ _ => rfl
    exact refines_answer (Refines.bind (Q := fun _ _ g => g = .idle (.unfreezeHost _ _))
      (refines_reviseUnlocked hedit (fun v now _ => .unfreeze)
        (fun _ _ h => h.handle.handle) fun _ _ => rfl)
      (fun _ _ _ h => h ▸ doneWith_idle) fun _ _ _ h => h ▸ doneWith_idle)

end Refinement

/-- The verdict of a profile: both statuses, and who reviewed it, when and why. -/
def verdict (v : HostProfile) :
    ApplicationStatus × VerificationStatus × Option ℕ × Option ℕ × Option String :=
  (v.applicationStatus, v.hostVerificationStatus, v.reviewedAt, v.reviewedBy, v.rejectionReason)

/-- An administrator has decided on the application. -/
def Decided (v : HostProfile) : Prop :=
  v.applicationStatus = .approved ∨ v.applicationStatus = .rejected

/-- A profile is approved in both statuses or in neither. -/
def Agrees (v : HostProfile) : Prop :=
  v.applicationStatus = .approved ↔ v.hostVerificationStatus = .approved

instance : DecidablePred Agrees := fun _ => inferInstanceAs (Decidable (_ ↔ _))

def HostCall.IsSubmission : HostCall → Prop
  | .submitHostOnboarding _ _ _ => True
  | _ => False

def HostCall.IsUnfreeze : HostCall → Prop
  | .unfreezeHost _ _ => True
  | _ => False

theorem undecided_iff {verb : String} {v : HostProfile} :
    undecided verb v = .ok () ↔ v.applicationStatus = .pending ∨ v.applicationStatus = .draft := by
  unfold undecided
  split_ifs with h <;> simp [h]

theorem not_decided {verb : String} {v : HostProfile} (h : undecided verb v = .ok ()) :
    ¬Decided v := by
  rintro (hyes | hyes)
  · simp [undecided_iff, hyes] at h
  · simp [undecided_iff, hyes] at h

theorem ReviewLaw.agrees {c : HostCall} {o : Option HostProfile} {v' : HostProfile}
    (h : ReviewLaw c o v') (ho : ∀ v ∈ o, Agrees v) : Agrees v' := by
  cases h with
  | create | submit => simp [Agrees, submitted]
  | approve => simp [Agrees, approvedBy]
  | reject => simp [Agrees, rejectedBy]
  | freeze | unfreeze =>
    have hold := ho _ (Option.mem_def.mpr rfl)
    exact hold

theorem ReviewLaw.verdict {c : HostCall} {v v' : HostProfile} (h : ReviewLaw c (some v) v')
    (hdecided : Decided v) : verdict v' = verdict v ∨ c.IsSubmission := by
  cases h with
  | submit => exact Or.inr trivial
  | approve check => exact absurd hdecided (not_decided check)
  | reject check => exact absurd hdecided (not_decided check)
  | freeze | unfreeze => exact Or.inl rfl

theorem ReviewLaw.frozen {c : HostCall} {v v' : HostProfile} (h : ReviewLaw c (some v) v')
    (hfrozen : v.listingFrozen = true) : v'.listingFrozen = true ∨ c.IsUnfreeze := by
  cases h with
  | submit | approve | reject => exact Or.inl hfrozen
  | freeze => exact Or.inl rfl
  | unfreeze => exact Or.inr trivial

theorem decided_congr {v v' : HostProfile} (h : verdict v' = verdict v) (hv : Decided v) :
    Decided v' := by
  have hstatus : v'.applicationStatus = v.applicationStatus := congrArg Prod.fst h
  rwa [Decided, hstatus]

/-- No call saves the profile `id` while another one is between its read of it and its save. -/
abbrev SavesApart (id : ℕ) : HostSystem → Action → Prop := Apart (ProfileSpan id)

/-- A run in which no call of the kind `kind` changes the profile `id`. -/
abbrev RunWithout (id : ℕ) (kind : HostCall → Prop) (calls : List HostCall) :
    HostSystem → HostSystem → Prop :=
  System.Run fun sys a => SavesApart id sys a ∧ Without (profileView id) kind calls sys a

/-- In a run without a save between a read and a save of the profile, the statuses agree. A
decision stands until the profile is submitted again, and a freeze until the host is
unfrozen. -/
theorem decisions_stand (id : ℕ) {s : Store} {calls : List HostCall}
    (hs : ∀ v ∈ profileView id s, Agrees v) {sys : HostSystem}
    (hrun : System.Run (SavesApart id) (launch HostCall.program s calls) sys) :
    (∀ v ∈ profileView id sys.store, Agrees v) ∧ ∀ v ∈ profileView id sys.store, ∀ sys',
      (Decided v → RunWithout id HostCall.IsSubmission calls sys sys' →
        ∃ v' ∈ profileView id sys'.store, verdict v' = verdict v) ∧
      (v.listingFrozen = true → RunWithout id HostCall.IsUnfreeze calls sys sys' →
        ∃ v' ∈ profileView id sys'.store, v'.listingFrozen = true) := by
  have hok : ∀ sys a, SavesApart id sys a → Apart (ProfileSpan id) sys a := fun _ _ h => h
  refine ⟨holds_of_run hok (program_refines id) (fun c o v hlaw ho => hlaw.agrees ho) hs hrun,
    fun v hv sys' => ⟨fun hdecided hrun' => ?_, fun hfrozen hrun' => ?_⟩⟩
  · have hlaw : ∀ c w w', ReviewLaw c (some w) w' → verdict w = verdict v →
        verdict w' = verdict v ∨ c.IsSubmission := by
      intro c w w' hlawful hw
      have hsame := hlawful.verdict (decided_congr hw hdecided)
      rwa [hw] at hsame
    exact stands_of_run hok (program_refines id) hlaw hrun hrun' ⟨v, hv, rfl⟩
  · exact stands_of_run hok (program_refines id) (fun c w w' h => h.frozen) hrun hrun'
      ⟨v, hv, hfrozen⟩

/-- The profile 1 as it waits for its review. -/
def sampleProfile : HostProfile :=
  { createProfile ⟨7, some "+212612345678", none, some "VERIFIED"⟩ ⟨.web, "web", false⟩ with
    id := 1
    applicationStatus := .pending
    submittedAt := some 0 }

def sampleStore : Store := publish .blank [.hostProfile sampleProfile]

/-- The profile is approved, and the call goes on to write its audit log. -/
theorem approval_stands :
    let approved := after (launch HostCall.program sampleStore [.approve 1 9])
      (System.turns 0 0 6)
    let audited := after approved (System.turns 0 6 1)
    (∀ v ∈ profileView 1 approved.store, Agrees v) ∧
      ∃ v ∈ profileView 1 audited.store, verdict v = verdict (approvedBy 9 2 sampleProfile) := by
  intro approved audited
  have hnone : ∀ j, j ≠ 0 →
      (launch HostCall.program sampleStore [.approve 1 9]).threads[j]? = none := by
    intro j hj
    exact List.getElem?_eq_none (by simp [launch]; omega)
  have hrun : System.Run (SavesApart 1) (launch HostCall.program sampleStore [.approve 1 9])
      approved := by
    refine run_solo (i := 0) (by decide +kernel) (by decide) fun sys' a ha hsame => ?_
    obtain ⟨n, rfl⟩ := eq_run_of_mem_turns ha
    exact apart_alone fun j hj => (hsame j hj).trans (hnone j hj)
  have hrun' : RunWithout 1 HostCall.IsSubmission [.approve 1 9] approved audited := by
    refine run_solo (i := 0) (by decide +kernel) (by decide) fun sys' a ha hsame => ?_
    obtain ⟨n, rfl⟩ := eq_run_of_mem_turns ha
    refine ⟨apart_alone fun j hj => ?_, fun c sys'' hc hkind _ => ?_⟩
    · have hj0 : j ≠ 0 := hj
      rw [hsame j hj, after_others (by simp [System.turns, System.mover]; omega), hnone j hj]
    · obtain rfl := Option.some.inj hc
      exact hkind.elim
  obtain ⟨hagrees, hstand⟩ := decisions_stand 1 (by decide +kernel) hrun
  refine ⟨hagrees, ?_⟩
  exact (hstand (approvedBy 9 2 sampleProfile) (by decide +kernel) audited).1 (Or.inl rfl) hrun'

/-- A rejection that has read the profile replaces the approval that has returned since. -/
theorem approval_replaced :
    let calls : List HostCall := [.approve 1 9, .reject 1 "No documents" 8]
    let approved := after (launch HostCall.program sampleStore calls)
      ([.run 1 0] ++ System.turns 0 0 7)
    let rejected := after approved (System.turns 1 0 4)
    System.Run (fun _ _ => True) (launch HostCall.program sampleStore calls) approved ∧
      System.Run (fun _ _ => True) approved rejected ∧
      answerOf approved 0 = some (.profile (approvedBy 9 2 sampleProfile)) ∧
      profileView 1 approved.store = some (approvedBy 9 2 sampleProfile) ∧
      profileView 1 rejected.store = some (rejectedBy 8 "No documents" 0 sampleProfile) ∧
      ∀ c ∈ calls, ¬c.IsSubmission := by
  refine ⟨run_after (by decide +kernel), run_after (by decide +kernel), by decide +kernel,
    by decide +kernel, by decide +kernel, ?_⟩
  simp [HostCall.IsSubmission]

end NexaStays.HostReview
