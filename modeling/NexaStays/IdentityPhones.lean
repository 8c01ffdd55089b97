import NexaStays.PersonStore
import NexaStays.PhoneNumbers

/-!
# The phone numbers of an identity

`attachPhoneNumberToIdentity` and `setPrimaryPhoneNumber` keep the table of the numbers,
`findOrCreateByPhone` finds the identity of a number there, or under a legacy form on the
identity itself, or creates one. A number is stored once: an insertion of a number that is
there violates the unique index, and waits while another transaction is about to store it.
-/
namespace NexaStays.IdentityPhones

open NexaStays.KeyedTable NexaStays.Transactions NexaStays.EntitySave NexaStays.PersonStore
open NexaStays.IdentityStore (AccountType IdentityError)
open NexaStays.PhoneNumbers (normalizePhoneNumber tryNormalizePhoneNumber phoneLookupCandidates)

/-- The exception of `normalizePhoneNumber`, which is no HTTP exception. -/
def normalizedOrError (rawPhone : String) : Except PersonError String :=
  match normalizePhoneNumber rawPhone.toList with
  | .ok normalized => .ok (String.ofList normalized)
  | .error message => .error (.badRequest message)

def tryNormalized (rawPhone : List Char) : Option String :=
  (tryNormalizePhoneNumber rawPhone).map String.ofList

def alreadyLinked : PersonError :=
  .conflict "This phone number is already linked to another identity"

structure AttachOptions where
  isPrimary : Option Bool
  isVerified : Option Bool
  deriving DecidableEq, Repr

def phonesOf (identityId : ℕ) (s : Store) : List IdentityPhoneNumber :=
  s.phones.rows.filter fun p => p.identityId = identityId

/-- `repo.update({ identity_id }, { is_primary: false })`. -/
def clearPrimary (identityId : ℕ) : Personal Unit := do
  let _ ← Personal.update fun s =>
    (phonesOf identityId s).map fun p => .phone { p with isPrimary := false }

/-- The insertion of a number, unless it is there; it returns what it has written. -/
def insertUnique (row : IdentityPhoneNumber) : Personal (List Write) :=
  Personal.update fun s =>
    if (s.phones.find? row.normalizedPhoneNumber).isSome then [] else [.phone row]

/-- After a violated constraint: in a transaction, which is aborted then, no statement works. -/
def recoverAttached (managed : Bool) (row : IdentityPhoneNumber) :
    Personal IdentityPhoneNumber := do
  Program.require (managed = false) .database
  let found ← Personal.read fun s => s.phones.find? row.normalizedPhoneNumber
  let existingRow ← Program.expect found alreadyLinked
  Program.require (existingRow.identityId = row.identityId) alreadyLinked
  pure existingRow

def saveNumber (managed : Bool) (row : IdentityPhoneNumber) : Personal IdentityPhoneNumber := do
  let written ← insertUnique row
  if written = [] then recoverAttached managed row else pure row

/-- A number that becomes the primary one takes the place of the others. -/
def insertNumber (managed : Bool) (row : IdentityPhoneNumber) : Personal IdentityPhoneNumber :=
  if row.isPrimary then do
    clearPrimary row.identityId
    saveNumber managed row
  else saveNumber managed row

def newNumber (identityId : ℕ) (rawPhone normalized : String) (isPrimary isVerified : Bool)
    (now : ℕ) : IdentityPhoneNumber :=
  { identityId
    phoneNumber := rawPhone
    normalizedPhoneNumber := normalized
    isPrimary
    isVerified
    verifiedAt := if isVerified then some now else none }

/-- A number that is not stored yet. -/
def attachNew (managed : Bool) (identityId : ℕ) (rawPhone normalized : String)
    (options : AttachOptions) : Personal IdentityPhoneNumber := do
  let count ← Personal.read fun s => (phonesOf identityId s).length
  let now ← Personal.now
  insertNumber managed (newNumber identityId rawPhone normalized
    (options.isPrimary.getD (count = 0)) (options.isVerified.getD false) now)

/-- A number that is stored. -/
def attachExisting (identityId : ℕ) (existing : IdentityPhoneNumber) :
    Personal IdentityPhoneNumber := do
  Program.require (existing.identityId = identityId) alreadyLinked
  pure existing

/-- `managed`: the statements belong to a transaction of the caller. -/
def attachPhoneNumberToIdentity (managed : Bool) (identityId : ℕ) (rawPhone : String)
    (options : AttachOptions) : Personal IdentityPhoneNumber := do
  let identity ← Personal.read fun s => s.identities.find? identityId
  let _ ← Program.expect identity (.notFound "Identity not found")
  let normalized ← Program.ofExcept (normalizedOrError rawPhone)
  let existing ← Personal.read fun s => s.phones.find? normalized
  match existing with
  | some existing => attachExisting identityId existing
  | none => attachNew managed identityId rawPhone normalized options

def setPrimaryPhoneNumber (identityId : ℕ) (rawPhone : String) :
    Personal IdentityPhoneNumber := do
  let normalized ← Program.ofExcept (normalizedOrError rawPhone)
  let found ← Personal.read fun s =>
    (s.phones.find? normalized).filter fun p => p.identityId = identityId
  let row ← Program.expect found (.notFound "Phone number not found for this identity")
  clearPrimary identityId
  saveEntity (savedPhone row.normalizedPhoneNumber) .database { row with isPrimary := true }
  pure { row with isPrimary := true }

/-- `identityPhoneNumbersService.findIdentityByPhone`. -/
def identityByPhone (rawPhone : List Char) (s : Store) : Option UnifiedIdentity := do
  let normalized ← tryNormalized rawPhone
  let row ← s.phones.find? normalized
  s.identities.find? row.identityId

/-- The identities that have a text as their own number. -/
def legacyIdentities (candidate : List Char) (s : Store) : List UnifiedIdentity :=
  s.identities.rows.filter fun i => i.phoneNumber = some (String.ofList candidate)

/-- The loop of `findIdentityByPhoneOrLegacy`. -/
def findByCandidates : List (List Char) → Personal (Option UnifiedIdentity)
  | [] => pure none
  | candidate :: candidates => do
    let viaTable ← Personal.read (identityByPhone candidate)
    match viaTable with
    | some identity => pure (some identity)
    | none => do
      let legacy ← Personal.findOne (legacyIdentities candidate)
      match legacy with
      | some identity => pure (some identity)
      | none => findByCandidates candidates

def findIdentityByPhoneOrLegacy (phoneNumber : String) : Personal (Option UnifiedIdentity) :=
  findByCandidates (phoneLookupCandidates phoneNumber.toList)

def ensurePhoneAttached (identityId : ℕ) (rawPhone : String) : Personal Unit :=
  Program.attempt
    (do let _ ← attachPhoneNumberToIdentity true identityId rawPhone ⟨none, some true⟩)
    fun e => if e = .uniqueViolation ∨ e = alreadyLinked then pure () else .throw e

/-- Texts are compared character by character. -/
scoped instance lawfulBEq_text : LawfulBEq (List Char) := inferInstance

/-- The accounts that are stored under a form of the number. -/
def usersByPhone (phoneNumber : String) (s : Store) : List User :=
  s.users.rows.filter fun u => u.phoneNumber.any fun p =>
    p.toList ∈ phoneLookupCandidates phoneNumber.toList

/-- The account types of an identity, each once. -/
def servicesOf (identityId : ℕ) (s : Store) : List AccountType :=
  ((s.users.rows.filter fun u => u.unifiedIdentityId = some identityId).map fun u =>
    u.accountType.getD .consumer).eraseDups

/-- A statement of another connection of the pool: it may fail, and what it writes is seen at
once. -/
def onOtherConnection (ws : Store → List Write) : Personal Unit := do
  let _ ← Personal.read fun _ => ()
  Program.send ws fun _ => ()

def linkWrites (phoneNumber : String) (identityId : ℕ) (s : Store) : List Write :=
  ((usersByPhone phoneNumber s).filter fun u => u.unifiedIdentityId = none).map fun u =>
    .user { u with unifiedIdentityId := some identityId }

def serviceWrites (identityId : ℕ) (s : Store) : List Write :=
  (s.identities.find? identityId).toList.map fun i =>
    .identity { i with linkedServices := servicesOf identityId s }

/-- `created`: the identity is not committed yet, and the other connection does not see it. -/
def linkUsersToIdentity (created : Bool) (phoneNumber : String) (identityId : ℕ) :
    Personal Unit :=
  if phoneLookupCandidates phoneNumber.toList = [] then pure ()
  else do
    onOtherConnection (linkWrites phoneNumber identityId)
    onOtherConnection fun s => if created then [] else serviceWrites identityId s

/-- `orderBy`: consumers first, then by age. -/
def beforeUser (u v : User) : Bool :=
  if u.accountType = some .consumer then
    v.accountType ≠ some .consumer ∨ u.createdAt ≤ v.createdAt
  else v.accountType ≠ some .consumer ∧ u.createdAt ≤ v.createdAt

/-- The identity of a number that no account is stored under. -/
def emptyIdentity (phoneNumber : String) (id : ℕ) : UnifiedIdentity :=
  { id
    phoneNumber := some phoneNumber
    fullName := none
    email := none
    dateOfBirth := none
    city := none
    address := none
    profilePhotoUrl := none
    preferredLanguage := none
    identityVerified := false
    identityVerificationStatus := "NOT_STARTED"
    kycStatus := "PENDING"
    accountStatus := "ACTIVE"
    linkedServices := [] }

def legacyVerified (best : User) : Bool :=
  best.kycStatus.toUpper = "APPROVED" ∨ best.kycStatus.toUpper = "VERIFIED"

/-- The identity of the accounts that are stored under a number. -/
def identityOfUsers (phoneNumber : String) (best : User) (users : List User) (id : ℕ) :
    UnifiedIdentity :=
  { emptyIdentity phoneNumber id with
    fullName := best.fullName
    email := best.email
    dateOfBirth := best.dateOfBirth
    city := best.city
    profilePhotoUrl := best.profilePhotoUrl
    identityVerified := legacyVerified best
    kycStatus := best.kycStatus
    identityVerificationStatus :=
      if legacyVerified best then "APPROVED"
      else if best.kycStatus.toUpper = "REJECTED" then "REJECTED"
      else "PENDING"
    accountStatus := best.status
    linkedServices := (users.map fun u => u.accountType.getD .consumer).eraseDups }

def createIdentity (phoneNumber : String) : Personal UnifiedIdentity := do
  let users ← Personal.read fun s => (usersByPhone phoneNumber s).mergeSort beforeUser
  match users with
  | [] => do
    let id ← Personal.insert fun id => .identity (emptyIdentity phoneNumber id)
    ensurePhoneAttached id phoneNumber
    pure (emptyIdentity phoneNumber id)
  | best :: _ => do
    let id ← Personal.insert fun id => .identity (identityOfUsers phoneNumber best users id)
    linkUsersToIdentity true phoneNumber id
    ensurePhoneAttached id phoneNumber
    pure (identityOfUsers phoneNumber best users id)

def useIdentity (phoneNumber : String) (existing : UnifiedIdentity) :
    Personal UnifiedIdentity := do
  linkUsersToIdentity false phoneNumber existing.id
  ensurePhoneAttached existing.id phoneNumber
  pure existing

/-- `tryNormalizePhoneNumber(phoneNumber) ?? phoneNumber`. -/
def lockText (phoneNumber : String) : String :=
  (tryNormalized phoneNumber.toList).getD phoneNumber

def findOrCreateUnderLock (phoneNumber : String) : Personal UnifiedIdentity := do
  let _ ← Program.lockRow .database (.advisory (lockText phoneNumber)) fun _ => ()
  let existing ← findIdentityByPhoneOrLegacy phoneNumber
  match existing with
  | some existing => useIdentity phoneNumber existing
  | none => createIdentity phoneNumber

def findOrCreateByPhone (phoneNumber : String) : Personal UnifiedIdentity :=
  Personal.transaction (findOrCreateUnderLock phoneNumber)

end NexaStays.IdentityPhones
