import NexaStays.AccountDeletion

/-!
# The webhooks of the verification provider

`processSumsubWebhook` applies the events of an applicant to the KYC profile and the account
of a person, in one transaction under an advisory lock, unless an event is not newer than the
last one that was applied. What the provider tells of the person fills blank columns only. An
approval goes on to the unified identity. A field of a payload that has not the type that is
read counts as absent.
-/
namespace NexaStays.Sumsub

open NexaStays.KeyedTable NexaStays.Transactions NexaStays.EntitySave NexaStays.PersonStore
open NexaStays.IdentityOnboarding
open NexaStays.SqlText (trim anySuffix)
open NexaStays.PhoneNumbers (tryNormalizePhoneNumber)
open NexaStays.AccountDeletion (firstTen isDateText)

/-- `text || null`. -/
def truthy (text : Option String) : Option String := text.filter (· ≠ "")

/-- `Boolean(text?.trim())`. -/
def filled (text : Option String) : Bool := (text.map trim).any (· ≠ "")

def slice (n : ℕ) (text : String) : String := String.ofList (text.toList.take n)

/-- `str`: the trimmed text, unless it is blank. -/
def str (v : Option String) : Option String := truthy (v.map trim)

def isAlpha2 : List Char → Bool
  | [a, b] => a.isUpper && b.isUpper
  | _ => false

/-- The text in capitals, if it is a code of two letters. -/
def alpha2 (text : String) : Option String :=
  if isAlpha2 (trim text).toUpper.toList then some (trim text).toUpper else none

/-- `SUMSUB_ALPHA3_TO_ALPHA2`. -/
def sumsubAlpha3ToAlpha2 : List (String × String) :=
  [("MAR", "MA"), ("FRA", "FR"), ("ESP", "ES"), ("DZA", "DZ"), ("TUN", "TN"), ("BEL", "BE"),
    ("NLD", "NL"), ("ITA", "IT"), ("DEU", "DE"), ("GBR", "GB"), ("USA", "US"), ("CAN", "CA"),
    ("PRT", "PT"), ("CHE", "CH"), ("SAU", "SA"), ("ARE", "AE"), ("QAT", "QA"), ("EGY", "EG"),
    ("TUR", "TR"), ("SEN", "SN"), ("CIV", "CI"), ("MRT", "MR")]

def normalizeCountryCode (value : Option String) : Option String :=
  value.bind fun text => (alpha2 text).or (sumsubAlpha3ToAlpha2.lookup (trim text).toUpper)

def normalizeIsoDob (value : Option String) : Option String :=
  value.bind fun text => if isDateText (firstTen text) then some (String.ofList (firstTen text))
    else none

structure SumsubDocument where
  idDocType : Option String
  country : Option String
  number : Option String
  validUntil : Option String
  firstName : Option String
  middleName : Option String
  lastName : Option String
  deriving DecidableEq, Repr

/-- `info` and `fixedInfo`. -/
structure SumsubInfo where
  dob : Option String
  country : Option String
  nationality : Option String
  email : Option String
  firstName : Option String
  middleName : Option String
  lastName : Option String
  idDocs : List SumsubDocument
  deriving DecidableEq, Repr

/-- `rejectLabels` and `json` are the texts of `JSON.stringify`. -/
structure ReviewResult where
  reviewAnswer : Option String
  rejectLabels : Option String
  json : String
  deriving DecidableEq, Repr

structure SumsubReview where
  levelName : Option String
  reviewStatus : Option String
  reviewResult : Option ReviewResult
  attemptCnt : Option ℤ
  deriving DecidableEq, Repr

structure SumsubApplicant where
  externalUserId : Option String
  dob : Option String
  email : Option String
  phone : Option String
  levelName : Option String
  inspectionId : Option String
  info : Option SumsubInfo
  fixedInfo : Option SumsubInfo
  review : Option SumsubReview
  deriving DecidableEq, Repr

structure SumsubIdentityFields where
  dateOfBirth : Option String
  fullName : Option String
  nationality : Option String
  documentType : Option String
  documentCountry : Option String
  documentNumber : Option String
  documentValidUntil : Option String
  email : Option String
  phone : Option String
  levelName : Option String
  reviewStatus : Option String
  reviewAnswer : Option String
  attemptCnt : Option ℤ
  inspectionId : Option String
  deriving DecidableEq, Repr

def SumsubIdentityFields.empty : SumsubIdentityFields :=
  ⟨none, none, none, none, none, none, none, none, none, none, none, none, none, none⟩

def extractSumsubIsoDob (applicant : SumsubApplicant) : Option String :=
  ((normalizeIsoDob (applicant.info.bind (·.dob))).or
    (normalizeIsoDob (applicant.fixedInfo.bind (·.dob)))).or (normalizeIsoDob applicant.dob)

def mapSumsubDocType (raw country : Option String) : Option String :=
  (str raw).bind fun text =>
    match text.toUpper with
    | "ID_CARD" => if country = some "MA" then some "CNIE" else some "NATIONAL_ID"
    | "PASSPORT" => some "PASSPORT"
    | "DRIVERS" => some "DRIVING_LICENSE"
    | "DRIVERS_LICENSE" => some "DRIVING_LICENSE"
    | "DRIVING_LICENSE" => some "DRIVING_LICENSE"
    | "RESIDENCE_PERMIT" => some "RESIDENCE_PERMIT"
    | other => some (slice 50 other)

def nameFrom (firstName middleName lastName : Option String) : Option String :=
  let parts := [firstName, middleName, lastName].filterMap str
  if parts = [] then none else some (slice 200 (" ".intercalate parts))

def infoName (info : SumsubInfo) : Option String :=
  nameFrom info.firstName info.middleName info.lastName

def primaryDoc (applicant : SumsubApplicant) : Option SumsubDocument :=
  (applicant.info.map (·.idDocs)).bind fun docs =>
    docs.find? fun d => d.idDocType.any (· ≠ "SELFIE")

def documentCountryOf (applicant : SumsubApplicant) : Option String :=
  ((normalizeCountryCode ((primaryDoc applicant).bind (·.country))).or
    (normalizeCountryCode (applicant.info.bind (·.country)))).or
    (normalizeCountryCode (applicant.fixedInfo.bind (·.country)))

def nationalityOf (applicant : SumsubApplicant) : Option String :=
  ((normalizeCountryCode (applicant.info.bind (·.nationality))).or
    (normalizeCountryCode (applicant.fixedInfo.bind (·.nationality)))).or
    (documentCountryOf applicant)

def extractSumsubIdentity (applicant : Option SumsubApplicant) : SumsubIdentityFields :=
  match applicant with
  | none => .empty
  | some a =>
    { dateOfBirth := extractSumsubIsoDob a
      fullName := ((a.info.bind infoName).or (a.fixedInfo.bind infoName)).or
        ((primaryDoc a).bind fun d => nameFrom d.firstName d.middleName d.lastName)
      nationality := nationalityOf a
      documentType := mapSumsubDocType ((primaryDoc a).bind (·.idDocType)) (documentCountryOf a)
      documentCountry := documentCountryOf a
      documentNumber := (str ((primaryDoc a).bind (·.number))).map (slice 64)
      documentValidUntil := normalizeIsoDob (str ((primaryDoc a).bind (·.validUntil)))
      email := ((str a.email).map (slice 150)).or
        ((str (a.info.bind (·.email))).map (slice 150))
      phone := (str a.phone).map (slice 30)
      levelName := ((str (a.review.bind (·.levelName))).map (slice 120)).or
        ((str a.levelName).map (slice 120))
      reviewStatus := (str (a.review.bind (·.reviewStatus))).map (slice 40)
      reviewAnswer := (str ((a.review.bind (·.reviewResult)).bind (·.reviewAnswer))).map fun text =>
        (slice 20 text).toUpper
      attemptCnt := a.review.bind (·.attemptCnt)
      inspectionId := (str a.inspectionId).map (slice 64) }

def kycIdentityIsComplete (kyc : KycProfile) : Bool :=
  (normalizeIsoDob kyc.dateOfBirth).isSome ∧ filled kyc.fullName ∧ filled kyc.nationality ∧
    filled kyc.documentType ∧ filled kyc.documentCountry ∧ filled kyc.nationalIdNumberExtracted

def hasIdentityPii (id : SumsubIdentityFields) : Bool :=
  [id.dateOfBirth, id.fullName, id.nationality, id.documentType, id.documentCountry,
    id.documentNumber, id.documentValidUntil, id.email, id.phone].any Option.isSome

/-- The provider's answer before the payload, but for the data of the review. -/
def richer (fromApi fromPayload : SumsubIdentityFields) : SumsubIdentityFields :=
  { dateOfBirth := fromApi.dateOfBirth.or fromPayload.dateOfBirth
    fullName := fromApi.fullName.or fromPayload.fullName
    nationality := fromApi.nationality.or fromPayload.nationality
    documentType := fromApi.documentType.or fromPayload.documentType
    documentCountry := fromApi.documentCountry.or fromPayload.documentCountry
    documentNumber := fromApi.documentNumber.or fromPayload.documentNumber
    documentValidUntil := fromApi.documentValidUntil.or fromPayload.documentValidUntil
    email := fromApi.email.or fromPayload.email
    phone := fromApi.phone.or fromPayload.phone
    levelName := fromPayload.levelName.or fromApi.levelName
    reviewStatus := fromPayload.reviewStatus.or fromApi.reviewStatus
    reviewAnswer := fromPayload.reviewAnswer.or fromApi.reviewAnswer
    attemptCnt := fromPayload.attemptCnt.or fromApi.attemptCnt
    inspectionId := fromPayload.inspectionId.or fromApi.inspectionId }

/-- What `applySumsubReviewStatus` is called with. `fetched` is what the provider answers if the
applicant is asked for, unless the request fails. -/
structure ReviewParams where
  userId : ℕ
  source : String
  applicantId : Option String
  externalUserId : Option String
  eventType : Option String
  reviewStatus : Option String
  reviewResult : Option ReviewResult
  providerDateOfBirth : Option String
  providerApplicant : Option SumsubApplicant
  fetched : Option SumsubApplicant
  deriving DecidableEq, Repr

def payloadIdentity (params : ReviewParams) : SumsubIdentityFields :=
  let fromPayload := extractSumsubIdentity params.providerApplicant
  { fromPayload with
    dateOfBirth := fromPayload.dateOfBirth.or (normalizeIsoDob params.providerDateOfBirth) }

def resolveSumsubIdentity (params : ReviewParams) (kyc : KycProfile) : SumsubIdentityFields :=
  if kycIdentityIsComplete kyc ∨ hasIdentityPii (payloadIdentity params) ∨
      str params.applicantId = none then payloadIdentity params
  else
    match params.fetched with
    | some applicant => richer (extractSumsubIdentity (some applicant)) (payloadIdentity params)
    | none => payloadIdentity params

inductive SumsubDecision where
  | approved | rejected | pending
  deriving DecidableEq, Repr

/-- `haystack.includes(needle)`. -/
def includes (needle haystack : String) : Bool :=
  anySuffix (fun rest => needle.toList.isPrefixOf rest) haystack.toList

def mapSumsubEventToKycStatus (eventType reviewStatus reviewAnswer : Option String) :
    SumsubDecision :=
  let eventType := (eventType.getD "").toLower
  let reviewAnswer := (reviewAnswer.getD "").toUpper
  if reviewAnswer = "GREEN" then .approved
  else if reviewAnswer = "RED" then .rejected
  else if (reviewStatus.getD "").toLower = "completed" then
    if includes "workflowfailed" eventType ∨ includes "deactivated" eventType ∨
        includes "deleted" eventType then .rejected
    else .approved
  else .pending

def ReviewParams.reviewAnswer (params : ReviewParams) : Option String :=
  params.reviewResult.bind (·.reviewAnswer)

def ReviewParams.decision (params : ReviewParams) : SumsubDecision :=
  mapSumsubEventToKycStatus params.eventType params.reviewStatus params.reviewAnswer

/-- A column that is filled only where it is blank. -/
def fill (column value : Option String) : Option String :=
  if filled column then column else value.or column

def fillDate (column value : Option String) : Option String :=
  if (normalizeIsoDob column).isSome then column else value.or column

section Review

variable (hashNationalId : String → String)

def applyProviderIdentityToKyc (kyc : KycProfile) (id : SumsubIdentityFields) : KycProfile :=
  { kyc with
    dateOfBirth := fillDate kyc.dateOfBirth id.dateOfBirth
    fullName := fill kyc.fullName id.fullName
    nationality := fill kyc.nationality id.nationality
    documentType := fill kyc.documentType id.documentType
    documentCountry := fill kyc.documentCountry id.documentCountry
    nationalIdNumberExtracted := fill kyc.nationalIdNumberExtracted id.documentNumber
    nationalIdNumberHash :=
      if filled kyc.nationalIdNumberExtracted ∨ (truthy kyc.nationalIdNumberHash).isSome then
        kyc.nationalIdNumberHash
      else (id.documentNumber.map hashNationalId).or kyc.nationalIdNumberHash
    documentValidUntil := fillDate kyc.documentValidUntil id.documentValidUntil
    email := fill kyc.email id.email }

def applyProviderMetaToKyc (kyc : KycProfile) (id : SumsubIdentityFields) : KycProfile :=
  { kyc with
    providerLevelName := id.levelName.or kyc.providerLevelName
    providerReviewStatus := id.reviewStatus.or kyc.providerReviewStatus
    providerReviewAnswer := id.reviewAnswer.or kyc.providerReviewAnswer
    providerAttemptCnt := id.attemptCnt.or kyc.providerAttemptCnt
    providerInspectionId := id.inspectionId.or kyc.providerInspectionId }

def resolveIssuerCountryCode (kyc : KycProfile) (user : Option User) : Option String :=
  ((kyc.documentCountry.bind alpha2).or ((user.bind (·.nationality)).bind alpha2)).or
    (kyc.nationality.bind alpha2)

def promoteTierBasicIfNone (level : String) : String :=
  if (trim level).toUpper = "" ∨ (trim level).toUpper = "NONE" then "BASIC" else level

/-- A profile that is created, with the defaults of the columns. -/
def newKycProfile (userId : ℕ) (source : String) : KycProfile :=
  { userId
    level := "NONE"
    status := "PENDING"
    provider := some "SUMSUB"
    source := some source
    reference := none
    lastWebhookEventType := none
    lastWebhookReceivedAt := none
    lastProviderEventAt := none
    reviewedAt := none
    reviewedBy := none
    rejectionReason := none
    documentType := none
    documentCountry := none
    nationalIdNumberHash := none
    nationalIdNumberExtracted := none
    fullName := none
    dateOfBirth := none
    nationality := none
    email := none
    documentValidUntil := none
    providerLevelName := none
    providerReviewStatus := none
    providerReviewAnswer := none
    providerAttemptCnt := none
    providerInspectionId := none }

/-- The profile with the data of the event. -/
def receivedKyc (params : ReviewParams) (now : ℤ) (found : Option KycProfile) : KycProfile :=
  let kyc := found.getD (newKycProfile params.userId params.source)
  let source := (truthy kyc.source).getD params.source
  { kyc with
    provider := some "SUMSUB"
    source := some source
    reference := some ((params.applicantId.or params.externalUserId).getD
      (source ++ "_" ++ toString params.userId))
    lastWebhookEventType := truthy (some (slice 100 (params.eventType.getD "sumsubStatusSync")))
    lastWebhookReceivedAt := some now }

def providerKyc (params : ReviewParams) (now : ℤ) (found : Option KycProfile) : KycProfile :=
  let kyc := receivedKyc params now found
  let id := resolveSumsubIdentity params kyc
  applyProviderMetaToKyc (applyProviderIdentityToKyc hashNationalId kyc id) id

/-- `profileStatus`; without the country of the issuer an approval is reviewed by hand. -/
def profileStatus (decision : SumsubDecision) (country : Option String) : String :=
  match decision with
  | .approved => if country.isSome then "VERIFIED" else "UNDER_REVIEW"
  | .rejected => "REJECTED"
  | .pending => "PENDING"

def isFinal (params : ReviewParams) : Bool :=
  (params.reviewStatus.map String.toLower) = some "completed" ∨
    params.reviewAnswer = some "GREEN" ∨ params.reviewAnswer = some "RED"

def rejectionReasonOf (params : ReviewParams) (old : Option String) : Option String :=
  match params.decision with
  | .rejected => some (slice 2000 (((params.reviewResult.bind (·.rejectLabels)).or
      (params.reviewResult.map (·.json))).getD "\x7b\x7d"))
  | .approved => none
  | .pending => old

/-- The profile that is saved. -/
def reviewedKyc (params : ReviewParams) (now reviewedAt : ℤ) (found : Option KycProfile)
    (user : Option User) : KycProfile :=
  let kyc := providerKyc hashNationalId params now found
  let country := resolveIssuerCountryCode kyc user
  { kyc with
    documentCountry :=
      if params.decision = .approved then fill kyc.documentCountry country else kyc.documentCountry
    level := if params.decision = .approved ∧ country.isSome then promoteTierBasicIfNone kyc.level
      else kyc.level
    status := profileStatus params.decision country
    reviewedAt := if isFinal params then some reviewedAt else kyc.reviewedAt
    reviewedBy := if isFinal params then some "sumsub" else kyc.reviewedBy
    rejectionReason := rejectionReasonOf params kyc.rejectionReason }

end Review

/-- The account's date of birth; an invalid date makes the statement fail. -/
def accountDob (toDate : String → Option String) (user : User) (kyc : KycProfile) :
    Except PersonError (Option String) :=
  if user.dateOfBirth.isNone ∧ isDateText (trim (kyc.dateOfBirth.getD "")).toList then
    match toDate (trim (kyc.dateOfBirth.getD "")) with
    | some date => .ok (some date)
    | none => .error .database
  else .ok user.dateOfBirth

/-- The account, with what the profile knows of the person. -/
def reviewedUser (kyc : KycProfile) (phone : Option String) (dateOfBirth : Option String)
    (lockedAt : ℤ) (user : User) : User :=
  { user with
    kycStatus := kyc.status
    fullName := fill user.fullName ((str kyc.fullName).map (slice 100))
    email := fill user.email ((str kyc.email).map (slice 150))
    phoneNumber := fill user.phoneNumber ((phone.bind fun p =>
      tryNormalizePhoneNumber p.toList).map fun norm => String.ofList (norm.take 30))
    dateOfBirth
    nationality := fill user.nationality ((str kyc.nationality).map (slice 10))
    profileLockedAt :=
      if kyc.status = "VERIFIED" ∧ user.profileLockedAt = none then some lockedAt
      else user.profileLockedAt }

/-- `COALESCE(NULLIF(BTRIM(COALESCE(column, '')), ''), value)`. -/
def coalesceBlank (column value : Option String) : Option String :=
  let spaces : List Char → List Char := List.dropWhile (· = ' ')
  let trimmed := String.ofList (spaces (spaces ((column.getD "").toList)).reverse).reverse
  (truthy (some trimmed)).or value

def approvedIdentity (user : User) (dateOfBirth : Option String) (i : UnifiedIdentity) :
    UnifiedIdentity :=
  { i with
    identityVerified := true
    identityVerificationStatus := "APPROVED"
    fullName := coalesceBlank i.fullName user.fullName
    email := coalesceBlank i.email user.email
    dateOfBirth := i.dateOfBirth.or dateOfBirth }

/-- The date of birth that an identity without one gets; an invalid date makes the statement
fail. -/
def identityDob (toDate : String → Option String) (user : User) (kyc : KycProfile) :
    Except PersonError (Option String) :=
  match (normalizeIsoDob kyc.dateOfBirth).or (normalizeIsoDob user.dateOfBirth) with
  | none => .ok none
  | some text =>
    match toDate text with
    | some date => .ok (some date)
    | none => .error .database

structure ReviewAnswer where
  userId : ℕ
  source : Option String
  reviewStatus : Option String
  reviewAnswer : Option String
  status : String
  kycProfileStatus : String
  onboarding : IdentityOnboardingState
  deriving DecidableEq, Repr

def answerFor (params : ReviewParams) (kyc : KycProfile) : ReviewAnswer :=
  { userId := params.userId
    source := kyc.source
    reviewStatus := params.reviewStatus
    reviewAnswer := params.reviewAnswer
    status := kyc.status
    kycProfileStatus := kyc.status
    onboarding := deriveIdentityOnboardingState
      { kycProfileExists := true
        kycStatus := some kyc.status
        userKycStatus := none
        identityVerificationStatus := none
        identityVerified := false } }

section Programs

variable (hashNationalId : String → String) (toDate : String → Option String)

/-- A new profile is inserted: its account has to be there, and no other profile of it. -/
def saveKyc (found : Option KycProfile) (kyc : KycProfile) : Personal Unit :=
  match found with
  | some _ => saveEntity (savedKycProfile kyc.userId) .database kyc
  | none => do
    let written ← Personal.update fun s =>
      if (s.users.find? kyc.userId).isSome ∧ s.kycProfiles.find? kyc.userId = none then
        [.kycProfile kyc]
      else []
    Program.require (written ≠ []) .database

def approveIdentity (user : User) (kyc : KycProfile) : Personal Unit :=
  match user.unifiedIdentityId with
  | none => pure ()
  | some identityId =>
    if kyc.status = "VERIFIED" then do
      let dateOfBirth ← Program.ofExcept (identityDob toDate user kyc)
      let _ ← Personal.update fun s => (s.identities.find? identityId).toList.map fun i =>
        .identity (approvedIdentity user dateOfBirth i)
    else pure ()

def applySumsubReviewStatus (params : ReviewParams) : Personal ReviewAnswer := do
  let found ← Personal.read fun s => s.kycProfiles.find? params.userId
  let now ← Personal.now
  let user ← Personal.read fun s => s.users.find? params.userId
  let reviewedAt ← Personal.now
  let kyc := reviewedKyc hashNationalId params now reviewedAt found user
  saveKyc found kyc
  match user with
  | none => pure (answerFor params kyc)
  | some user => do
    let dateOfBirth ← Program.ofExcept (accountDob toDate user kyc)
    let lockedAt ← Personal.now
    let phone := (resolveSumsubIdentity params (receivedKyc params now found)).phone
    let account := reviewedUser kyc phone dateOfBirth lockedAt user
    saveEntity (savedUser user.id) .database account
    approveIdentity toDate account kyc
    pure (answerFor params kyc)

end Programs

/-- `type` is the name of the event. `createdAtMs` and `createdAt` are `some none` where they
are no texts; `review` is the result under `review`. -/
structure SumsubEvent where
  externalUserId : Option String
  type : Option String
  reviewStatus : Option String
  applicantId : Option String
  applicant : Option SumsubApplicant
  reviewResult : Option ReviewResult
  review : Option ReviewResult
  levelName : Option String
  inspectionId : Option String
  createdAtMs : Option (Option String)
  createdAt : Option (Option String)
  deriving DecidableEq, Repr

/-- A delivery of an event. `digest` is the outcome of `verifySumsubWebhookDigest`. -/
structure Delivery where
  event : SumsubEvent
  digest : Except String Unit
  fetched : Option SumsubApplicant

def SumsubEvent.externalId (event : SumsubEvent) : Option String :=
  (truthy event.externalUserId).or (truthy (event.applicant.bind (·.externalUserId)))

/-- The part after the last `_`. -/
def extractUserIdFromExternalId (externalUserId : String) : String :=
  String.ofList (externalUserId.toList.reverse.takeWhile (· ≠ '_')).reverse

def extractSourceFromExternalId (externalUserId : Option String) : String :=
  match externalUserId with
  | none => "PAY"
  | some text =>
    let source := (String.ofList (text.toList.takeWhile (· ≠ '_'))).toUpper
    if '_' ∈ text.toList ∧ source ∈ ["PAY", "GO", "STAYS"] then source else "PAY"

def SumsubEvent.userId (event : SumsubEvent) : Option String :=
  truthy (event.externalId.map extractUserIdFromExternalId)

def SumsubEvent.result (event : SumsubEvent) : Option ReviewResult :=
  event.reviewResult.or event.review

/-- The review in `providerApplicant`. -/
def SumsubEvent.providerReview (event : SumsubEvent) : Option SumsubReview :=
  let review := event.applicant.bind (·.review)
  if event.reviewStatus.isSome ∨ event.result.isSome then
    some { levelName := event.levelName.or (review.bind (·.levelName))
           reviewStatus := event.reviewStatus.or (review.bind (·.reviewStatus))
           reviewResult := event.result.or (review.bind (·.reviewResult))
           attemptCnt := review.bind (·.attemptCnt) }
  else review

/-- `providerApplicant`; one without keys tells as little as none. -/
def SumsubEvent.providerApplicant (event : SumsubEvent) : SumsubApplicant :=
  let applicant := event.applicant.getD ⟨none, none, none, none, none, none, none, none, none⟩
  { applicant with
    levelName := event.levelName.or applicant.levelName
    inspectionId := event.inspectionId.or applicant.inspectionId
    review := event.providerReview }

/-- `/[+-]\d{2}:?\d{2}$/` or a `Z` at the end, of the reversed text. -/
def hasZone : List Char → Bool
  | 'Z' :: _ => true
  | a :: b :: ':' :: c :: d :: sign :: _ =>
    [a, b, c, d].all Char.isDigit && (sign = '+' || sign = '-')
  | a :: b :: c :: d :: sign :: _ =>
    [a, b, c, d].all Char.isDigit && (sign = '+' || sign = '-')
  | _ => false

/-- `text.replace(' ', 'T')`. -/
def replaceBlank : List Char → List Char
  | [] => []
  | c :: rest => if c = ' ' then 'T' :: rest else c :: replaceBlank rest

def SumsubEvent.eventTime (event : SumsubEvent) : String :=
  match event.createdAtMs.or event.createdAt with
  | some (some text) => String.ofList (replaceBlank (trim text).toList)
  | _ => ""

/-- `toTime` reads a date and time, as the constructor `Date` does. -/
def SumsubEvent.providerEventAt (toTime : String → Option ℤ) (event : SumsubEvent) : Option ℤ :=
  if event.eventTime = "" then none
  else if hasZone event.eventTime.toList.reverse then toTime event.eventTime
  else toTime (event.eventTime ++ "Z")

/-- What the webhook calls `applySumsubReviewStatus` with. -/
def Delivery.params (d : Delivery) (userId : ℕ) : ReviewParams :=
  { userId
    source := extractSourceFromExternalId d.event.externalId
    applicantId := d.event.applicantId
    externalUserId := d.event.externalId
    eventType := d.event.type
    reviewStatus := d.event.reviewStatus
    reviewResult := d.event.result
    providerDateOfBirth := extractSumsubIsoDob d.event.providerApplicant
    providerApplicant := some d.event.providerApplicant
    fetched := d.fetched }

def shouldSyncDossierMediaOnWebhook (eventType : Option String) : Bool :=
  (eventType.getD "").toLower ∈ ["applicantreviewed", "applicantpending",
    "applicantpersonalinfochanged", "applicantworkflowcompleted", "applicantworkflowfailed"]

/-- `/^[a-f0-9]{24}$/i`. -/
def isObjectId (text : String) : Bool :=
  text.toList.length = 24 ∧ text.toList.all fun c => c.isDigit ∨ c.toLower ∈ "abcdef".toList

/-- `reason` tells why nothing was updated. -/
structure WebhookAnswer where
  received : Bool
  updated : Bool
  reason : Option String
  eventType : Option String
  review : Option ReviewAnswer
  deriving DecidableEq, Repr

/-- How the texts of a payload are read; an identifier is a number here. -/
structure WebhookConfig where
  readId : String → Option ℕ
  toTime : String → Option ℤ
  toDate : String → Option String
  hashNationalId : String → String

section Webhook

variable (config : WebhookConfig)

/-- The event is not newer than the last one that was applied. -/
def isStale (providerEventAt : ℤ) (previous : Option KycProfile) : Bool :=
  (previous.bind (·.lastProviderEventAt)).any fun last => providerEventAt ≤ last

def applyEvent (d : Delivery) (userIdText : String) (providerEventAt : ℤ) :
    Personal (Option ReviewAnswer) := do
  let _ ← Program.lockRow .database (.advisory ("sumsub-kyc:" ++ userIdText)) fun _ => ()
  let userId ← Program.expect (config.readId userIdText) .database
  let previous ← Personal.read fun s => s.kycProfiles.find? userId
  if isStale providerEventAt previous then pure none
  else do
    let applied ← applySumsubReviewStatus config.hashNationalId config.toDate (d.params userId)
    let _ ← Personal.update fun s => (s.kycProfiles.find? userId).toList.map fun kyc =>
      .kycProfile { kyc with lastProviderEventAt := some providerEventAt }
    pure (some applied)

/-- `persistSumsubDossierArtifacts`, as far as it concerns the columns of the profile: it takes
over the applicant's identifier, unless a newer event has been applied since. -/
def persistSumsubDossierArtifacts (userId : ℕ) (applicantId : String) (providerEventAt : ℤ) :
    Personal Unit := do
  let found ← Personal.read fun s => s.kycProfiles.find? userId
  match found with
  | none => pure ()
  | some kyc => do
    let reference := if isObjectId applicantId then some applicantId else kyc.reference
    let _ ← Personal.update fun s => ((s.kycProfiles.find? userId).filter fun row =>
      row.lastProviderEventAt = some providerEventAt).toList.map fun row =>
        .kycProfile { row with reference }

def syncDossier (d : Delivery) (userId : ℕ) (providerEventAt : ℤ) : Personal Unit :=
  match truthy d.event.applicantId with
  | none => pure ()
  | some applicantId =>
    if shouldSyncDossierMediaOnWebhook d.event.type then
      Program.attempt (persistSumsubDossierArtifacts userId applicantId providerEventAt)
        fun _ => pure ()
    else pure ()

def processSumsubWebhook (d : Delivery) : Personal WebhookAnswer := do
  Program.ofExcept (d.digest.mapError PersonError.badRequest)
  match d.event.userId with
  | none => pure ⟨true, false, some "missing external user id", none, none⟩
  | some userIdText => do
    let providerEventAt ← Program.expect (d.event.providerEventAt config.toTime)
      (.badRequest "Missing or invalid Sumsub event timestamp")
    let result ← Program.attempt
      (Personal.transaction (applyEvent config d userIdText providerEventAt))
      fun _ => .throw (.serviceUnavailable "KYC status update temporarily unavailable")
    match result with
    | none => pure ⟨true, false, some "duplicate_or_stale_event", d.event.type, none⟩
    | some review => do
      syncDossier d review.userId providerEventAt
      pure ⟨true, true, none, d.event.type, some review⟩

end Webhook

end NexaStays.Sumsub
