import NexaStays.PersonStore

/-!
# Shared profile fields

The accounts of a person share profile fields, which are kept on the unified identity and
copied to every linked account. `updateProfile` checks the lock of the calling account and
passes what was submitted to `updateSharedProfile`, which decides field by field what the
identity takes over. An audit entry goes to a table of its own: its insertion is a statement
that may fail.
-/
namespace NexaStays.ProfileSync

open NexaStays.KeyedTable NexaStays.Transactions NexaStays.EntitySave NexaStays.Sequences
open NexaStays.Phases NexaStays.PersonStore
open NexaStays.IdentityStore (AccountType)

inductive NexaService where
  | pay | go | stays | driver | courier | host | merchant
  deriving DecidableEq, Repr

inductive ConflictStrategy where
  | unifiedWins | latestWins | verifiedWins | noOverwrite | manualResolve
  deriving DecidableEq, Repr

inductive SharedField where
  | fullName | email | dateOfBirth | city | address | profilePhotoUrl | preferredLanguage
  deriving DecidableEq, Repr

structure FieldSyncRule where
  writableFromServices : List NexaService
  requiresVerification : Bool
  conflictStrategy : ConflictStrategy
  auditRequired : Bool
  deriving DecidableEq, Repr

def sharedFields : List SharedField :=
  [.fullName, .email, .dateOfBirth, .city, .address, .profilePhotoUrl, .preferredLanguage]

def allServices : List NexaService := [.pay, .go, .stays, .driver, .courier, .host, .merchant]

/-- `PROFILE_SYNC_RULES`. -/
def profileSyncRules : SharedField → FieldSyncRule
  | .fullName => ⟨allServices, true, .verifiedWins, true⟩
  | .email => ⟨allServices, false, .latestWins, true⟩
  | .dateOfBirth => ⟨allServices, true, .verifiedWins, true⟩
  | .city => ⟨allServices, false, .latestWins, false⟩
  | .address => ⟨allServices, false, .latestWins, false⟩
  | .profilePhotoUrl => ⟨allServices, false, .latestWins, true⟩
  | .preferredLanguage => ⟨allServices, false, .latestWins, false⟩

def canWriteFromService (field : SharedField) (service : NexaService) : Bool :=
  service ∈ (profileSyncRules field).writableFromServices

def accountTypeToService : Option AccountType → NexaService
  | some .driver => .driver
  | some .courier => .courier
  | some .host => .host
  | some .merchant => .merchant
  | _ => .pay

/-- What is submitted for a field: nothing, or `null`, or a text. -/
abbrev Submitted := Option (Option String)

/-- A value on its way to a column; an invalid `Date` makes the statement fail. -/
inductive FieldValue where
  | null
  | text (value : String)
  | invalidDate
  deriving DecidableEq, Repr

def FieldValue.column : FieldValue → Option String
  | .text value => some value
  | _ => none

def FieldValue.isEmpty (v : FieldValue) : Bool := v = .null ∨ v = .text ""

/-- The value of a column is missing. -/
def emptyColumn (c : Option String) : Bool := c = none ∨ c = some ""

def submittedValue (v : Submitted) : Option FieldValue :=
  v.map fun | none => .null | some value => .text value

/-- `new Date(text)`, where `toDate` is the date that the column keeps of it. -/
def dateValue (toDate : String → Option String) (text : String) : FieldValue :=
  match toDate text with
  | some date => .text date
  | none => .invalidDate

/-- Values for some of the shared fields. -/
abbrev Fields := SharedField → Option FieldValue

/-- A column that is set if there is a value for it. -/
def setTo (v : Option FieldValue) (c : Option String) : Option String :=
  match v with
  | some value => value.column
  | none => c

def identityField (i : UnifiedIdentity) : SharedField → Option String
  | .fullName => i.fullName
  | .email => i.email
  | .dateOfBirth => i.dateOfBirth
  | .city => i.city
  | .address => i.address
  | .profilePhotoUrl => i.profilePhotoUrl
  | .preferredLanguage => i.preferredLanguage

/-- `update(id, payload)` of an identity. -/
def setIdentity (p : Fields) (i : UnifiedIdentity) : UnifiedIdentity :=
  { i with
    fullName := setTo (p .fullName) i.fullName
    email := setTo (p .email) i.email
    dateOfBirth := setTo (p .dateOfBirth) i.dateOfBirth
    city := setTo (p .city) i.city
    address := setTo (p .address) i.address
    profilePhotoUrl := setTo (p .profilePhotoUrl) i.profilePhotoUrl
    preferredLanguage := setTo (p .preferredLanguage) i.preferredLanguage }

/-- The fields that an account has a column of its own for. -/
inductive UserField where
  | fullName | email | city | dateOfBirth | profilePhotoUrl
  deriving DecidableEq, Repr

def UserField.shared : UserField → SharedField
  | .fullName => .fullName
  | .email => .email
  | .city => .city
  | .dateOfBirth => .dateOfBirth
  | .profilePhotoUrl => .profilePhotoUrl

/-- `allowed` of `propagateToUsers`. -/
def allowed : List UserField := [.fullName, .email, .city, .dateOfBirth, .profilePhotoUrl]

def userField (u : User) : UserField → Option String
  | .fullName => u.fullName
  | .email => u.email
  | .city => u.city
  | .dateOfBirth => u.dateOfBirth
  | .profilePhotoUrl => u.profilePhotoUrl

/-- `set(payload)` of an account. -/
def setUser (p : Fields) (u : User) : User :=
  { u with
    fullName := setTo (p .fullName) u.fullName
    email := setTo (p .email) u.email
    city := setTo (p .city) u.city
    dateOfBirth := setTo (p .dateOfBirth) u.dateOfBirth
    profilePhotoUrl := setTo (p .profilePhotoUrl) u.profilePhotoUrl }

inductive Resolution where
  | apply | skip
  deriving DecidableEq, Repr

def resolveConflict (current : Option String) (incoming : FieldValue) (identityVerified : Bool)
    (strategy : ConflictStrategy) : Resolution :=
  if incoming.isEmpty ∧ ¬emptyColumn current then .skip
  else if emptyColumn current then .apply
  else
    match strategy with
    | .unifiedWins => .apply
    | .noOverwrite => .skip
    | .latestWins => .apply
    | .verifiedWins => if identityVerified then .apply else .skip
    | .manualResolve => .skip

def lockedFields (profileLocked : Bool) : List SharedField :=
  if profileLocked then [.fullName, .dateOfBirth] else []

/-- The `payload` that the loop over the submitted fields collects. -/
def sharedPayload (identity : UnifiedIdentity) (updates : Fields) (service : NexaService)
    (profileLocked : Bool) : Fields := fun key =>
  match updates key with
  | none => none
  | some value =>
    if ¬canWriteFromService key service then none
    else if (profileSyncRules key).requiresVerification ∧ key ∈ lockedFields profileLocked then none
    else
      match resolveConflict (identityField identity key) value identity.identityVerified
        (profileSyncRules key).conflictStrategy with
      | .apply => some value
      | .skip => none

def identityWrites (identityId : ℕ) (p : Fields) (s : Store) : List Write :=
  (s.identities.find? identityId).toList.map fun i => .identity (setIdentity p i)

def userWrites (identityId : ℕ) (p : Fields) (s : Store) : List Write :=
  (s.users.rows.filter fun u => u.unifiedIdentityId = some identityId).map fun u =>
    .user (setUser p u)

/-- `auditService.audit`. -/
def audit (key : SharedField) (p : Fields) : Personal Unit :=
  if (p key).isSome ∧ (profileSyncRules key).auditRequired then Personal.read fun _ => ()
  else pure ()

def updateIdentity (identityId : ℕ) (p : Fields) : Personal Unit :=
  if sharedFields.any fun key => (p key).isSome then do
    Program.require (p .dateOfBirth ≠ some .invalidDate) .database
    let _ ← Personal.update (identityWrites identityId p)
    Program.forEach (fun key => audit key p) sharedFields
  else pure ()

def propagateToUsers (identityId : ℕ) (p : Fields) : Personal Unit :=
  if allowed.any fun key => (p key.shared).isSome then do
    let _ ← Personal.update (userWrites identityId p)
  else pure ()

def updateSharedProfile (updates : Fields) (service : NexaService) (profileLocked : Bool)
    (identityId : ℕ) : Personal Unit := do
  let found ← Personal.read fun s => s.identities.find? identityId
  let identity ← Program.expect found (.notFound "Unified identity not found")
  updateIdentity identityId (sharedPayload identity updates service profileLocked)
  propagateToUsers identityId (sharedPayload identity updates service profileLocked)

structure UpdateProfileDto where
  fullName : Submitted
  email : Submitted
  nationality : Submitted
  city : Submitted
  address : Submitted
  preferredLanguage : Submitted
  dateOfBirth : Submitted
  profilePhotoUrl : Submitted
  deriving DecidableEq, Repr

/-- `isProfileLocked`. -/
def isProfileLocked (user : User) : Bool :=
  user.kycStatus.toUpper = "APPROVED" ∨ user.kycStatus.toUpper = "VERIFIED" ∨
    user.profileLockedAt.isSome

def profileLocked : PersonError :=
  .forbidden "PROFILE_LOCKED"
    "KYC verified: full name and date of birth are locked. Contact support to update."

/-- `currentDob`. -/
def currentDob (user : User) : Option String :=
  (user.dateOfBirth.filter (· ≠ "")).map fun date => String.ofList (date.toList.take 10)

def checkLocked (user : User) (payload : UpdateProfileDto) : Except PersonError Unit :=
  if isProfileLocked user then
    if payload.fullName.join ≠ none ∧ payload.fullName.join ≠ user.fullName then
      .error profileLocked
    else if payload.dateOfBirth.join ≠ none ∧ payload.dateOfBirth.join ≠ currentDob user then
      .error profileLocked
    else .ok ()
  else .ok ()

/-- `x || null`. -/
def orNull : FieldValue → FieldValue
  | .text "" => .null
  | v => v

section UpdateProfile

variable (toDate : String → Option String)

def sharedUpdates (payload : UpdateProfileDto) : Fields
  | .fullName => submittedValue payload.fullName
  | .email => submittedValue payload.email
  | .dateOfBirth => (payload.dateOfBirth.join.filter (· ≠ "")).map (dateValue toDate)
  | .city => submittedValue payload.city
  | .address => submittedValue payload.address
  | .profilePhotoUrl => submittedValue payload.profilePhotoUrl
  | .preferredLanguage => submittedValue payload.preferredLanguage

/-- What an account without an identity takes over. -/
def ownPayload (user : User) (payload : UpdateProfileDto) : Fields
  | .fullName => if isProfileLocked user then none else sharedUpdates toDate payload .fullName
  | .dateOfBirth =>
    if isProfileLocked user then none else sharedUpdates toDate payload .dateOfBirth
  | .city => (sharedUpdates toDate payload .city).map orNull
  | key => sharedUpdates toDate payload key

/-- The part before the nationality; it returns the entity that the call goes on with. -/
def updateShared (user : User) (payload : UpdateProfileDto) : Personal User :=
  match user.unifiedIdentityId with
  | some identityId => do
    updateSharedProfile (sharedUpdates toDate payload) (accountTypeToService user.accountType)
      (isProfileLocked user) identityId
    pure user
  | none => do
    Program.require (ownPayload toDate user payload .dateOfBirth ≠ some .invalidDate) .database
    saveEntity (savedUser user.id) .database (setUser (ownPayload toDate user payload) user)
    pure (setUser (ownPayload toDate user payload) user)

def saveNationality (user : User) (payload : UpdateProfileDto) : Personal Unit :=
  match payload.nationality with
  | some nationality => saveEntity (savedUser user.id) .database { user with nationality }
  | none => pure ()

def updateProfile (userId : ℕ) (payload : UpdateProfileDto) : Personal User := do
  let found ← Personal.read fun s => s.users.find? userId
  let user ← Program.expect found (.notFound "User not found")
  Program.ofExcept (checkLocked user payload)
  let entity ← updateShared toDate user payload
  saveNationality entity payload
  let updated ← Personal.read fun s => s.users.find? userId
  Program.expect updated .database

end UpdateProfile

/-- A call of `updateProfile`. -/
structure ProfileCall where
  userId : ℕ
  payload : UpdateProfileDto
  deriving DecidableEq, Repr

def program (toDate : String → Option String) (c : ProfileCall) : Personal User :=
  updateProfile toDate c.userId c.payload

theorem setUser_id (p : Fields) (u : User) : (setUser p u).id = u.id := rfl

theorem setUser_field (p : Fields) (u : User) (f : UserField) :
    userField (setUser p u) f = setTo (p f.shared) (userField u f) := by
  cases f <;> rfl

theorem setIdentity_field (p : Fields) (i : UnifiedIdentity) (key : SharedField) :
    identityField (setIdentity p i) key = setTo (p key) (identityField i key) := by
  cases key <;> rfl

/-- Nothing is set where there is no value. -/
theorem setUser_none {p : Fields} (u : User) (h : ∀ f : UserField, p f.shared = none) :
    setUser p u = u := by
  have hname := h .fullName
  have hemail := h .email
  have hcity := h .city
  have hdate := h .dateOfBirth
  have hphoto := h .profilePhotoUrl
  simp only [UserField.shared] at hname hemail hcity hdate hphoto
  simp [setUser, setTo, hname, hemail, hcity, hdate, hphoto]

theorem setIdentity_none {p : Fields} (i : UnifiedIdentity) (h : ∀ key, p key = none) :
    setIdentity p i = i := by
  simp [setIdentity, setTo, h]

theorem publish_users (s : Store) (rows : List User) :
    publish s (rows.map Write.user) = { s with users := s.users.putAll rows } := by
  induction rows generalizing s with
  | nil => rfl
  | cons row rows ih => rw [List.map_cons, publish_cons, ih]; rfl

/-- The store after the identity and its accounts have taken over `p`. -/
def synced (identityId : ℕ) (p : Fields) (s : Store) : Store :=
  publish (publish s (identityWrites identityId p s))
    (userWrites identityId p (publish s (identityWrites identityId p s)))

section Synced

variable {identityId : ℕ} {p : Fields} {s : Store}

theorem identityUpdated_users :
    (publish s (identityWrites identityId p s)).users = s.users := by
  rw [identityWrites]
  cases s.identities.find? identityId <;> rfl

theorem identityUpdated_find (j : ℕ) :
    (publish s (identityWrites identityId p s)).identities.find? j =
      (s.identities.find? j).map fun i => if i.id = identityId then setIdentity p i else i := by
  have hid : ∀ i, s.identities.find? j = some i → i.id = j := fun i h => Table.key_of_find? h
  rw [identityWrites]
  cases hfound : s.identities.find? identityId with
  | none =>
    simp only [Option.toList_none, List.map_nil, publish_nil]
    cases hj : s.identities.find? j with
    | none => rfl
    | some i =>
      have hne : i.id ≠ identityId := by
        intro heq
        rw [← hid i hj, heq, hfound] at hj
        cases hj
      simp [hne]
  | some i =>
    simp only [Option.toList_some, List.map_cons, List.map_nil, publish_cons, publish_nil,
      storage_write, Store.write, Table.find?_put]
    have hi : i.id = identityId := Table.key_of_find? hfound
    have hkey : (setIdentity p i).id = identityId := hi
    by_cases hj : j = identityId
    · subst hj
      simp [hkey, hi, hfound]
    · rw [if_neg (by rwa [hkey])]
      cases hfoundj : s.identities.find? j with
      | none => rfl
      | some i' =>
        have hne : i'.id ≠ identityId := by rw [hid i' hfoundj]; exact hj
        simp [hne]

theorem userWrites_eq : userWrites identityId p s =
    ((s.users.rows.filter fun u => u.unifiedIdentityId = some identityId).map (setUser p)).map
      Write.user := by
  rw [List.map_map]
  rfl

theorem synced_identities :
    (synced identityId p s).identities =
      (publish s (identityWrites identityId p s)).identities := by
  rw [synced, userWrites_eq, publish_users]

theorem synced_users : (synced identityId p s).users =
    s.users.putAll ((s.users.rows.filter fun u => u.unifiedIdentityId = some identityId).map
      (setUser p)) := by
  rw [synced, userWrites_eq, publish_users, identityUpdated_users]

theorem synced_find_identity (j : ℕ) : (synced identityId p s).identities.find? j =
    (s.identities.find? j).map fun i => if i.id = identityId then setIdentity p i else i := by
  rw [synced_identities, identityUpdated_find]

theorem synced_find_user (j : ℕ) : (synced identityId p s).users.find? j =
    (s.users.find? j).map fun u =>
      if u.unifiedIdentityId = some identityId then setUser p u else u := by
  rw [synced_users, Table.find?_update (setUser_id p)]
  simp

theorem mem_synced_users {x : User} : x ∈ (synced identityId p s).users.rows ↔
    ∃ u ∈ s.users.rows,
      x = if u.unifiedIdentityId = some identityId then setUser p u else u := by
  rw [synced_users, Table.mem_update (setUser_id p)]
  simp

end Synced

theorem putAll_self {ρ κ : Type} [DecidableEq κ] {key : ρ → κ} {t : Table key} {rows : List ρ}
    (h : ∀ r ∈ rows, t.find? (key r) = some r) : t.putAll rows = t := by
  induction rows with
  | nil => rfl
  | cons r rows ih =>
    rw [Table.putAll_cons, Table.put_self (h r List.mem_cons_self)]
    exact ih fun r' hr' => h r' (List.mem_cons_of_mem r hr')

section Calls

variable {law : Store → Store → Prop} {identityId : ℕ} {p : Fields} {s : Store}

theorem identityWrites_none (h : ∀ key, p key = none) :
    publish s (identityWrites identityId p s) = s := by
  rw [identityWrites]
  cases hfound : s.identities.find? identityId with
  | none => rfl
  | some i =>
    have hkey : i.id = identityId := Table.key_of_find? hfound
    have hput : s.identities.put i = s.identities := Table.put_self (hkey ▸ hfound)
    simp only [Option.toList_some, List.map_cons, List.map_nil, publish_cons, publish_nil,
      storage_write, Store.write, setIdentity_none i h, hput]

theorem userWrites_none (h : ∀ f : UserField, p f.shared = none) :
    publish s (userWrites identityId p s) = s := by
  have hid : (s.users.rows.filter fun u => u.unifiedIdentityId = some identityId).map (setUser p) =
      s.users.rows.filter fun u => u.unifiedIdentityId = some identityId := by
    refine (List.map_congr_left fun u _ => ?_).trans (List.map_id _)
    exact setUser_none u h
  rw [userWrites_eq, hid, publish_users,
    putAll_self fun r hr => Table.find?_of_mem_filter hr]

theorem returns_audit (key : SharedField) :
    Returns law (fun _ t => t = s) (audit key p) s := by
  rw [audit]
  split_ifs
  · exact Returns.query rfl
  · exact Returns.pure rfl

/-- No statement is made with an invalid date. -/
def ValidDate (p : Fields) : Prop := p .dateOfBirth ≠ some .invalidDate

theorem returns_updateIdentity
    (hlaw : ValidDate p → law s (publish s (identityWrites identityId p s))) :
    Returns law (fun _ t => ValidDate p ∧ t = publish s (identityWrites identityId p s))
      (updateIdentity identityId p) s := by
  rw [updateIdentity]
  split_ifs with hany
  · refine Returns.bind (P := fun _ t => ValidDate p ∧ t = s)
      (Returns.require fun hvalid => ⟨hvalid, rfl⟩) fun _ t ht => ?_
    obtain ⟨hvalid, rfl⟩ := ht
    refine Returns.bind (P := fun _ u => u = publish t (identityWrites identityId p t))
      (Returns.writeRows (hlaw hvalid) rfl) fun _ u hu => ?_
    obtain rfl := hu
    exact Returns.forEach (fun key _ => returns_audit key) ⟨hvalid, rfl⟩
  · have hnone : ∀ key, p key = none := by
      intro key
      have hkey : key ∈ sharedFields := by cases key <;> decide
      by_contra hsome
      exact hany (List.any_eq_true.mpr ⟨key, hkey, Option.isSome_iff_ne_none.mpr hsome⟩)
    refine Returns.pure ⟨fun hinvalid => ?_, (identityWrites_none hnone).symm⟩
    rw [hnone] at hinvalid
    cases hinvalid

theorem returns_propagateToUsers (hlaw : law s (publish s (userWrites identityId p s))) :
    Returns law (fun _ t => t = publish s (userWrites identityId p s))
      (propagateToUsers identityId p) s := by
  rw [propagateToUsers]
  split_ifs with hany
  · refine Returns.bind (P := fun _ u => u = publish s (userWrites identityId p s))
      (Returns.writeRows hlaw rfl) fun _ u hu => ?_
    exact Returns.pure hu
  · refine Returns.pure (userWrites_none fun f => ?_).symm
    have hf : f ∈ allowed := by cases f <;> decide
    by_contra hsome
    exact hany (List.any_eq_true.mpr ⟨f, hf, Option.isSome_iff_ne_none.mpr hsome⟩)

/-- The identity and its accounts take over what passes the checks. -/
theorem returns_updateSharedProfile {updates : Fields} {service : NexaService} {locked : Bool}
    (hlaw : ∀ i, s.identities.find? identityId = some i →
      ValidDate (sharedPayload i updates service locked) →
      law s (publish s (identityWrites identityId (sharedPayload i updates service locked) s)) ∧
      law (publish s (identityWrites identityId (sharedPayload i updates service locked) s))
        (synced identityId (sharedPayload i updates service locked) s)) :
    Returns law (fun _ t => ∃ i, s.identities.find? identityId = some i ∧
        ValidDate (sharedPayload i updates service locked) ∧
        t = synced identityId (sharedPayload i updates service locked) s)
      (updateSharedProfile updates service locked identityId) s := by
  refine Returns.bind (P := fun found t => found = s.identities.find? identityId ∧ t = s)
    (Returns.query ⟨rfl, rfl⟩) fun found t ht => ?_
  obtain ⟨rfl, rfl⟩ := ht
  refine Returns.bind (P := fun i u => t.identities.find? identityId = some i ∧ u = t)
    (Returns.expect fun i hi => ⟨hi, rfl⟩) fun i u hu => ?_
  obtain ⟨hi, rfl⟩ := hu
  refine (returns_updateIdentity fun hvalid => (hlaw i hi hvalid).1).bind fun _ t ht => ?_
  obtain ⟨hvalid, rfl⟩ := ht
  exact (returns_propagateToUsers (hlaw i hi hvalid).2).mono fun _ t ht => ⟨i, hi, hvalid, ht⟩

variable {user : User} {payload : UpdateProfileDto} {toDate : String → Option String}

/-- The store after the entity has been saved with a submitted nationality. -/
def withNationality (user : User) (payload : UpdateProfileDto) (s : Store) : Store :=
  match payload.nationality with
  | some nationality => publish s [.user { user with nationality }]
  | none => s

theorem returns_save {new old : User} (hid : old.id = user.id)
    (hfound : s.users.find? user.id = some old) (hlaw : law s (publish s [.user new])) :
    Returns law (fun _ t => t = publish s [.user new])
      (saveEntity (savedUser user.id) .database new : Personal Unit) s := by
  refine returns_saveEntity hfound ?_ hlaw rfl
  have hput : s.users.put old = s.users := Table.put_self (hid ▸ hfound)
  simp only [savedUser, publish_cons, publish_nil, storage_write, Store.write, hput]

theorem returns_saveNationality {old : User} (hid : old.id = user.id)
    (hfound : s.users.find? user.id = some old) (hlaw : law s (withNationality user payload s)) :
    Returns law (fun _ t => t = withNationality user payload s)
      (saveNationality user payload) s := by
  rw [saveNationality]
  unfold withNationality at *
  cases hnat : payload.nationality with
  | none => exact Returns.pure rfl
  | some nationality =>
    simp only [hnat] at hlaw
    exact returns_save hid hfound hlaw

/-- What `updateSharedProfile` lets a call change. -/
def calledPayload (toDate : String → Option String) (user : User) (payload : UpdateProfileDto)
    (i : UnifiedIdentity) : Fields :=
  sharedPayload i (sharedUpdates toDate payload) (accountTypeToService user.accountType)
    (isProfileLocked user)

/-- The entity of an account without an identity, with what was submitted. -/
def ownUpdated (toDate : String → Option String) (user : User) (payload : UpdateProfileDto) :
    User :=
  setUser (ownPayload toDate user payload) user

/-- The store that a call leaves when it returns. -/
inductive Updated (toDate : String → Option String) (userId : ℕ) (payload : UpdateProfileDto)
    (s : Store) : Store → Prop where
  | linked {user : User} {identityId : ℕ} {i : UnifiedIdentity} (found : s.users.find? userId = some user)
      (identity : user.unifiedIdentityId = some identityId)
      (row : s.identities.find? identityId = some i) :
      Updated toDate userId payload s
        (withNationality user payload (synced identityId (calledPayload toDate user payload i) s))
  | own {user : User} (found : s.users.find? userId = some user)
      (identity : user.unifiedIdentityId = none) :
      Updated toDate userId payload s (withNationality (ownUpdated toDate user payload) payload
        (publish s [.user (ownUpdated toDate user payload)]))

/-- A call makes its changes in this order: the identity, its accounts, the row of the caller. -/
theorem returns_updateProfile {userId : ℕ}
    (hlinked : ∀ user identityId i, s.users.find? userId = some user →
      checkLocked user payload = .ok () →
      user.unifiedIdentityId = some identityId → s.identities.find? identityId = some i →
      ValidDate (calledPayload toDate user payload i) →
      law s (publish s (identityWrites identityId (calledPayload toDate user payload i) s)) ∧
      law (publish s (identityWrites identityId (calledPayload toDate user payload i) s))
        (synced identityId (calledPayload toDate user payload i) s) ∧
      law (synced identityId (calledPayload toDate user payload i) s) (withNationality user payload
        (synced identityId (calledPayload toDate user payload i) s)))
    (hown : ∀ user, s.users.find? userId = some user → user.unifiedIdentityId = none →
      law s (publish s [.user (ownUpdated toDate user payload)]) ∧
      law (publish s [.user (ownUpdated toDate user payload)])
        (withNationality (ownUpdated toDate user payload) payload
          (publish s [.user (ownUpdated toDate user payload)]))) :
    Returns law (fun _ t => Updated toDate userId payload s t)
      (updateProfile toDate userId payload) s := by
  refine Returns.bind (P := fun found t => found = s.users.find? userId ∧ t = s)
    (Returns.query ⟨rfl, rfl⟩) fun found t ht => ?_
  obtain ⟨rfl, rfl⟩ := ht
  refine Returns.bind (P := fun user u => t.users.find? userId = some user ∧ u = t)
    (Returns.expect fun user huser => ⟨huser, rfl⟩) fun user u hu => ?_
  obtain ⟨hfound, rfl⟩ := hu
  refine Returns.bind (P := fun _ t => checkLocked user payload = .ok () ∧ t = u)
    (Returns.ofExcept fun b hb => ⟨hb, rfl⟩) fun _ t ht => ?_
  obtain ⟨hcheck, rfl⟩ := ht
  have hkey : user.id = userId := Table.key_of_find? hfound
  have hfound' : t.users.find? user.id = some user := hkey ▸ hfound
  -- the rest of the call, from the entity on
  have hrest : ∀ entity old u, old.id = entity.id → u.users.find? entity.id = some old →
      law u (withNationality entity payload u) →
      Updated toDate userId payload t (withNationality entity payload u) →
      Returns law (fun _ t' => Updated toDate userId payload t t')
        ((saveNationality entity payload).handle (fun _ =>
          (Personal.read fun s => s.users.find? userId) >>= fun updated =>
            Program.expect updated .database) .throw) u := by
    intro entity old u hid hu hlaw hupdated
    refine (returns_saveNationality hid hu hlaw).bind fun _ t' ht' => ?_
    obtain rfl := ht'
    refine Returns.bind (P := fun _ t' => t' = withNationality entity payload u)
      (Returns.query rfl) fun _ t' ht' => ?_
    obtain rfl := ht'
    exact Returns.expect fun _ _ => hupdated
  cases hidentity : user.unifiedIdentityId with
  | none =>
    obtain ⟨hlaw₁, hlaw₂⟩ := hown user hfound hidentity
    refine Returns.bind (P := fun entity u => entity = ownUpdated toDate user payload ∧
      u = publish t [.user (ownUpdated toDate user payload)]) ?_ fun entity u hu => ?_
    · rw [updateShared, hidentity]
      refine Returns.bind (P := fun _ u => u = t) (Returns.require fun _ => rfl) fun _ u hu => ?_
      obtain rfl := hu
      refine (returns_save rfl hfound' hlaw₁).bind fun _ t' ht' => ?_
      obtain rfl := ht'
      exact Returns.pure ⟨rfl, rfl⟩
    · obtain ⟨rfl, rfl⟩ := hu
      refine hrest _ (ownUpdated toDate user payload) _ rfl ?_ hlaw₂ (.own hfound hidentity)
      simp [Store.write]
  | some identityId =>
    refine Returns.bind (P := fun entity u => entity = user ∧
      ∃ i, t.identities.find? identityId = some i ∧
        ValidDate (calledPayload toDate user payload i) ∧
        u = synced identityId (calledPayload toDate user payload i) t) ?_ fun entity u hu => ?_
    · rw [updateShared, hidentity]
      refine (returns_updateSharedProfile fun i hi hvalid => ?_).bind fun _ t' ht' => ?_
      · obtain ⟨h₁, h₂, -⟩ := hlinked user identityId i hfound hcheck hidentity hi hvalid
        exact ⟨h₁, h₂⟩
      · exact Returns.pure ⟨rfl, ht'⟩
    · obtain ⟨rfl, i, hi, hvalid, rfl⟩ := hu
      obtain ⟨-, -, hlaw⟩ := hlinked entity identityId i hfound hcheck hidentity hi hvalid
      refine hrest entity (setUser (calledPayload toDate entity payload i) entity) _ rfl ?_ hlaw
        (.linked hfound hidentity hi)
      rw [synced_find_user, hfound', Option.map_some, if_pos hidentity]

end Calls

end NexaStays.ProfileSync
