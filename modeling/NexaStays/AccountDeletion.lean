import Mathlib.Data.Fintype.EquivFin
import NexaStays.IdentityOnboarding
import NexaStays.PhoneNumbers
import NexaStays.SharedProfile

/-!
# The deletion of an account

`requestAccountDeletion` overwrites the personal data of the account's row. `getMe` answers
with personal data of the row, of the unified identity, of the KYC profile and of a linked
account. Whether anything of it is still told after the deletion is a question about two
databases that differ in nothing but names, addresses of mail and dates of birth.
-/
namespace NexaStays.AccountDeletion

open NexaStays.KeyedTable NexaStays.Transactions NexaStays.EntitySave NexaStays.Sequences
open NexaStays.Phases NexaStays.PersonStore NexaStays.IdentityOnboarding
open NexaStays.IdentityStore (AccountType)
open NexaStays.PhoneNumbers (trimmed)
open NexaStays.ProfileSync (isProfileLocked)

/-- `roleUsesConsumerForPayout`. -/
def roleUsesConsumerForPayout (accountType : Option AccountType) : Bool :=
  accountType = some .driver ∨ accountType = some .courier ∨ accountType = some .host

/-- `s.trim().slice(0, 10)`. -/
def firstTen (s : String) : List Char := (trimmed s.toList).take 10

/-- `/^\d{4}-\d{2}-\d{2}$/`. -/
def isDateText : List Char → Bool
  | [a, b, c, d, '-', e, f, '-', g, h] => [a, b, c, d, e, f, g, h].all Char.isDigit
  | _ => false

def formatDob (value : Option String) : Option String :=
  match value with
  | none => none
  | some s => if isDateText (firstTen s) then some (String.ofList (firstTen s)) else none

structure LinkedUser where
  id : ℕ
  fullName : Option String
  phoneNumber : Option String
  deriving DecidableEq, Repr

/-- What `getMe` answers, but for the time of the last change. -/
structure Me where
  id : ℕ
  phoneNumber : Option String
  fullName : Option String
  email : Option String
  city : Option String
  dateOfBirth : Option String
  profilePhotoUrl : Option String
  address : Option String
  preferredLanguage : Option String
  accountType : AccountType
  unifiedIdentityId : Option ℕ
  linkedUserId : Option ℕ
  kycStatus : String
  onboarding : IdentityOnboardingState
  status : String
  riskScore : ℤ
  lastLoginAt : Option ℤ
  createdAt : ℤ
  nationality : Option String
  profileLocked : Bool
  lockedFields : List String
  deletionStatus : DeletionStatus
  deletionRequestedAt : Option ℤ
  deletionScheduledFor : Option ℤ
  piiAnonymizedAt : Option ℤ
  rewardsTier : String
  linkedUser : Option LinkedUser
  deriving DecidableEq, Repr

def linkedUserOf (linked : User) : LinkedUser := ⟨linked.id, linked.fullName, linked.phoneNumber⟩

def onboardingSource (user : User) (identity : Option UnifiedIdentity)
    (kycProfile : Option KycProfile) : IdentityOnboardingSource :=
  { kycProfileExists := kycProfile.isSome
    kycStatus := some ((kycProfile.map (·.status)).getD user.kycStatus)
    userKycStatus := some user.kycStatus
    identityVerificationStatus := identity.map (·.identityVerificationStatus)
    identityVerified := (identity.map (·.identityVerified)).getD false }

/-- The answer of `getMe`, from the rows that it reads; `a ?? b` is `a.or b`. -/
def meOf (user : User) (linked : Option User) (identity : Option UnifiedIdentity)
    (kycProfile : Option KycProfile) : Me :=
  { id := user.id
    phoneNumber := user.phoneNumber
    fullName := (identity.bind (·.fullName)).or user.fullName
    email := (identity.bind (·.email)).or user.email
    city := (identity.bind (·.city)).or user.city
    dateOfBirth := ((formatDob (identity.bind (·.dateOfBirth))).or (formatDob user.dateOfBirth)).or
      (formatDob (kycProfile.bind (·.dateOfBirth)))
    profilePhotoUrl := (identity.bind (·.profilePhotoUrl)).or user.profilePhotoUrl
    address := identity.bind (·.address)
    preferredLanguage := identity.bind (·.preferredLanguage)
    accountType := user.accountType.getD .consumer
    unifiedIdentityId := user.unifiedIdentityId
    linkedUserId := user.linkedUserId.or (linked.map (·.id))
    kycStatus := user.kycStatus
    onboarding := deriveIdentityOnboardingState (onboardingSource user identity kycProfile)
    status := user.status
    riskScore := user.riskScore
    lastLoginAt := user.lastLoginAt
    createdAt := user.createdAt
    nationality := user.nationality
    profileLocked := isProfileLocked user
    lockedFields := if isProfileLocked user then ["full_name", "date_of_birth"] else []
    deletionStatus := user.deletionStatus
    deletionRequestedAt := user.deletionRequestedAt
    deletionScheduledFor := user.deletionScheduledFor
    piiAnonymizedAt := user.piiAnonymizedAt
    rewardsTier := user.rewardsTier
    linkedUser := linked.map linkedUserOf }

/-- The consumer accounts that `getConsumerForIdentity` chooses from. -/
def payoutAccounts (user : User) (s : Store) : List User :=
  match user.unifiedIdentityId with
  | some identityId =>
    if roleUsesConsumerForPayout user.accountType then
      s.users.rows.filter fun u =>
        u.unifiedIdentityId = some identityId ∧ u.accountType = some .consumer
    else []
  | none => []

/-- The relation `linked_user`. -/
def linkedByRow (user : User) (s : Store) : Option User := user.linkedUserId.bind s.users.find?

def identityOf (user : User) (s : Store) : Option UnifiedIdentity :=
  user.unifiedIdentityId.bind s.identities.find?

/-- Where the source asks for no consumer account or identity, a query finds none. -/
def getMe (userId : ℕ) : Personal Me := do
  let found ← Personal.read fun s => (s.users.find? userId).map fun u => (u, linkedByRow u s)
  let (user, linkedUser) ← Program.expect found (.notFound "User not found")
  let consumer ← Personal.findOne (payoutAccounts user)
  let identity ← Personal.read (identityOf user)
  let kycProfile ← Personal.read fun s => s.kycProfiles.find? user.id
  pure (meOf user (consumer.or linkedUser) identity kycProfile)

structure DeletionAnswer where
  status : DeletionStatus
  requestedAt : Option ℤ
  scheduledFor : Option ℤ
  piiAnonymizedAt : Option ℤ
  note : Option String
  deriving DecidableEq, Repr

/-- A request for deletion, with what the clock says when it is carried out. -/
structure DeletionCall where
  userId : ℕ
  pin : String
  reason : Option String
  now : ℤ
  deriving DecidableEq, Repr

def anonymizedPhone (seed : String) : String :=
  String.ofList (("DEL".toList ++ (seed.toList.filter (· ≠ '-')).take 10).take 20)

def retentionMs : ℤ := 30 * 24 * 60 * 60 * 1000

/-- The row that is left of an account. -/
def deletedUser (now : ℤ) (user : User) : User :=
  { user with
    deletionStatus := .pending
    deletionRequestedAt := some now
    deletionScheduledFor := some (now + retentionMs)
    piiAnonymizedAt := some now
    fullName := some "Deleted User"
    email := some ""
    city := none
    dateOfBirth := none
    profilePhotoUrl := none
    status := "DELETION_PENDING"
    phoneNumber := some (anonymizedPhone (toString user.id)) }

def answerOf (user : User) (note : Option String) : DeletionAnswer :=
  ⟨user.deletionStatus, user.deletionRequestedAt, user.deletionScheduledFor, user.piiAnonymizedAt,
    note⟩

section Deletion

-- `verifyPinHash(pin, hash).valid`
variable (verifyPinHash : String → String → Bool)

def assertReauthPin (userId : ℕ) (pin : String) : Personal Unit := do
  let found ← Personal.read fun s => s.users.find? userId
  let user ← Program.expect found (.notFound "User not found")
  Program.require (verifyPinHash pin user.pinHash = true)
    (.unauthorized "Re-authentication failed")

def getDeletionStatus (userId : ℕ) : Personal DeletionAnswer := do
  let found ← Personal.read fun s => s.users.find? userId
  let user ← Program.expect found (.notFound "User not found")
  pure (answerOf user none)

/-- The sessions of the account that are open. -/
def revokeSessions (userId : ℕ) (now : ℤ) (s : Store) : List Write :=
  (s.refreshTokens.rows.filter fun t => t.userId = userId ∧ t.revokedAt = none).map fun t =>
    .refreshToken { t with revokedAt := some now }

def eraseAccount (user : User) (c : DeletionCall) : Personal DeletionAnswer := do
  saveEntity (savedUser user.id) .database (deletedUser c.now user)
  let _ ← Personal.update (revokeSessions c.userId c.now)
  pure (answerOf (deletedUser c.now user) (c.reason.filter (· ≠ "")))

def requestAccountDeletion (c : DeletionCall) : Personal DeletionAnswer := do
  assertReauthPin verifyPinHash c.userId c.pin
  let found ← Personal.read fun s => s.users.find? c.userId
  let user ← Program.expect found (.notFound "User not found")
  if user.deletionStatus = .pending then getDeletionStatus c.userId
  else eraseAccount user c

end Deletion

/-- A deletion that ran alone has returned and left the store `t`. -/
def Deletes (verifyPinHash : String → String → Bool) (c : DeletionCall) (s t : Store) : Prop :=
  ∃ sys : System DeletionCall Store Key Write PersonError DeletionAnswer,
    System.Run (fun _ _ => True) (launch (requestAccountDeletion verifyPinHash) s [c]) sys ∧
      (∃ thread ∈ sys.threads, ∃ a, thread.program = .pure a) ∧ sys.store = t

/-- `getMe` can answer `m`. -/
def Answers (userId : ℕ) (s : Store) (m : Me) : Prop :=
  ∃ sys : System ℕ Store Key Write PersonError Me,
    System.Run (fun _ _ => True) (launch getMe s [userId]) sys ∧
      ∃ thread ∈ sys.threads, thread.program = .pure m

/-- The store after the account has been erased. -/
def erased (user : User) (c : DeletionCall) (s : Store) : Store :=
  publish (publish s [.user (deletedUser c.now user)])
    (revokeSessions c.userId c.now (publish s [.user (deletedUser c.now user)]))

/-- The store that a deletion leaves. -/
def afterDeletion (user : User) (c : DeletionCall) (s : Store) : Store :=
  if user.deletionStatus = .pending then s else erased user c s

section Calls

variable {verifyPinHash : String → String → Bool} {c : DeletionCall} {s t : Store} {userId : ℕ}

/-- The linked account of an answer; `n` is the choice among several consumer accounts. -/
def linkedAccount (n : ℕ) (user : User) (s : Store) : Option User :=
  (Program.pick n (payoutAccounts user s)).or (linkedByRow user s)

theorem returns_getMe : Returns (fun _ _ => True) (fun m t => t = s ∧ ∃ n user,
    s.users.find? userId = some user ∧ m = meOf user (linkedAccount n user s) (identityOf user s)
      (s.kycProfiles.find? user.id)) (getMe userId) s := by
  refine Returns.bind (P := fun found t => t = s ∧
    found = (s.users.find? userId).map fun u => (u, linkedByRow u s))
    (Returns.query ⟨rfl, rfl⟩) fun found t ht => ?_
  obtain ⟨rfl, rfl⟩ := ht
  refine Returns.bind (P := fun b u => u = t ∧ t.users.find? userId = some b.1 ∧
    b.2 = linkedByRow b.1 t) (Returns.expect fun b hb => ?_) fun b u hu => ?_
  · obtain ⟨user, huser, rfl⟩ := Option.map_eq_some_iff.mp hb
    exact ⟨rfl, huser, rfl⟩
  obtain ⟨rfl, hfound, hlinked⟩ := hu
  refine Returns.bind (P := fun consumer t => t = u ∧
    ∃ n, consumer = Program.pick n (payoutAccounts b.1 u))
    (Returns.findOne fun n => ⟨rfl, n, rfl⟩) fun consumer t ht => ?_
  obtain ⟨rfl, n, rfl⟩ := ht
  refine Returns.bind (P := fun identity u => u = t ∧ identity = identityOf b.1 t)
    (Returns.query ⟨rfl, rfl⟩) fun identity u hu => ?_
  obtain ⟨rfl, rfl⟩ := hu
  refine Returns.bind (P := fun kyc t => t = u ∧ kyc = u.kycProfiles.find? b.1.id)
    (Returns.query ⟨rfl, rfl⟩) fun kyc t ht => ?_
  obtain ⟨rfl, rfl⟩ := ht
  exact Returns.pure ⟨rfl, n, b.1, hfound, by rw [linkedAccount, hlinked]⟩

/-- `getMe` answers for the user that is stored, and changes nothing. -/
theorem answers_iff {m : Me} : Answers userId s m ↔ ∃ n user, s.users.find? userId = some user ∧
    m = meOf user (linkedAccount n user s) (identityOf user s) (s.kycProfiles.find? user.id) := by
  constructor
  · rintro ⟨sys, hrun, thread, hthread, hm⟩
    exact ((chain_and_return returns_getMe hrun).2 thread hthread m hm).2
  · rintro ⟨n, user, hfound, rfl⟩
    have hread := solo_query (τ := ℕ) (c := userId) (s := s) (e := PersonError.database)
      (fun s => (s.users.find? userId).map fun u => (u, linkedByRow u s)) fun found =>
        Program.expect found (.notFound "User not found") >>= fun b =>
          Personal.findOne (payoutAccounts b.1) >>= fun consumer =>
            Personal.read (identityOf b.1) >>= fun identity =>
              Personal.read (fun s => s.kycProfiles.find? b.1.id) >>= fun kycProfile =>
                pure (meOf b.1 (consumer.or b.2) identity kycProfile)
    rw [hfound] at hread
    have hfind := solo_findOne (τ := ℕ) (c := userId) (s := s) (e := PersonError.database) n
      (payoutAccounts user) fun consumer =>
        Personal.read (identityOf user) >>= fun identity =>
          Personal.read (fun s => s.kycProfiles.find? user.id) >>= fun kycProfile =>
            pure (meOf user (consumer.or (linkedByRow user s)) identity kycProfile)
    have hidentity := solo_query (τ := ℕ) (c := userId) (s := s) (e := PersonError.database)
      (identityOf user) fun identity =>
        Personal.read (fun s => s.kycProfiles.find? user.id) >>= fun kycProfile =>
          pure (meOf user (linkedAccount n user s) identity kycProfile)
    have hkyc := solo_query (τ := ℕ) (c := userId) (s := s) (e := PersonError.database)
      (fun s => s.kycProfiles.find? user.id) fun kycProfile =>
        pure (meOf user (linkedAccount n user s) (identityOf user s) kycProfile)
    exact ⟨_, ((hread.trans hfind).trans hidentity).trans hkyc, _, List.mem_singleton.mpr rfl, rfl⟩

theorem put_found {old : User} (hfound : s.users.find? userId = some old) :
    publish s [.user old] = s := by
  have hput : s.users.put old = s.users := Table.put_self (Table.key_of_find? hfound ▸ hfound)
  simp only [publish_cons, publish_nil, storage_write, Store.write, hput]

theorem returns_requestAccountDeletion : Returns (fun _ _ => True) (fun _ t => ∃ user,
      s.users.find? c.userId = some user ∧ verifyPinHash c.pin user.pinHash = true ∧
        t = afterDeletion user c s)
    (requestAccountDeletion verifyPinHash c) s := by
  refine Returns.bind (P := fun _ t => t = s ∧ ∃ user, s.users.find? c.userId = some user ∧
    verifyPinHash c.pin user.pinHash = true) ?_ fun _ t ht => ?_
  · refine Returns.bind (P := fun found t => t = s ∧ found = s.users.find? c.userId)
      (Returns.query ⟨rfl, rfl⟩) fun found t ht => ?_
    obtain ⟨rfl, rfl⟩ := ht
    refine Returns.bind (P := fun user u => u = t ∧ t.users.find? c.userId = some user)
      (Returns.expect fun user huser => ⟨rfl, huser⟩) fun user u hu => ?_
    obtain ⟨rfl, huser⟩ := hu
    exact Returns.require fun hpin => ⟨rfl, user, huser, hpin⟩
  obtain ⟨rfl, user, huser, hpin⟩ := ht
  refine Returns.bind (P := fun found u => u = t ∧ found = t.users.find? c.userId)
    (Returns.query ⟨rfl, rfl⟩) fun found u hu => ?_
  obtain ⟨rfl, rfl⟩ := hu
  refine Returns.bind (P := fun found t => t = u ∧ found = user)
    (Returns.expect fun found hfound => ⟨rfl, Option.some.inj (hfound.symm.trans huser)⟩)
    fun found t ht => ?_
  obtain ⟨rfl, rfl⟩ := ht
  by_cases hpending : found.deletionStatus = .pending
  · simp only [if_pos hpending]
    refine Returns.bind (P := fun _ u => u = t) (Returns.query rfl) fun _ u hu => ?_
    obtain rfl := hu
    refine Returns.bind (P := fun _ t => t = u) (Returns.expect fun _ _ => rfl) fun _ t ht => ?_
    obtain rfl := ht
    exact Returns.pure ⟨found, huser, hpin, by rw [afterDeletion, if_pos hpending]⟩
  · simp only [if_neg hpending]
    have hkey : found.id = c.userId := Table.key_of_find? huser
    refine (ProfileSync.returns_save rfl (hkey ▸ huser) trivial).bind
      fun _ u hu => ?_
    obtain rfl := hu
    refine Returns.bind (P := fun _ u => u = erased found c t)
      (Returns.writeRows trivial rfl) fun _ u hu => ?_
    obtain rfl := hu
    exact Returns.pure ⟨found, huser, hpin, by rw [afterDeletion, if_neg hpending]⟩

/-- A deletion returns where the PIN is right. -/
theorem deletes_iff : Deletes verifyPinHash c s t ↔ ∃ user, s.users.find? c.userId = some user ∧
    verifyPinHash c.pin user.pinHash = true ∧ t = afterDeletion user c s := by
  constructor
  · rintro ⟨sys, hrun, ⟨thread, hthread, a, ha⟩, rfl⟩
    exact (chain_and_return returns_requestAccountDeletion hrun).2 thread hthread a ha
  rintro ⟨user, huser, hpin, rfl⟩
  have hkey : user.id = c.userId := Table.key_of_find? huser
  have hrest := solo_query (τ := DeletionCall) (c := c) (s := s) (e := PersonError.database)
    (fun s => s.users.find? c.userId) fun found =>
      Program.expect found (.notFound "User not found") >>= fun user =>
        if user.deletionStatus = .pending then getDeletionStatus c.userId else eraseAccount user c
  have hcheck := solo_query (τ := DeletionCall) (c := c) (s := s) (e := PersonError.database)
    (fun s => s.users.find? c.userId) fun found =>
      (Program.expect found (.notFound "User not found") >>= fun user =>
        Program.require (verifyPinHash c.pin user.pinHash = true)
          (.unauthorized "Re-authentication failed")) >>= fun _ =>
      (Personal.read fun s => s.users.find? c.userId) >>= fun found =>
        Program.expect found (.notFound "User not found") >>= fun user =>
          if user.deletionStatus = .pending then getDeletionStatus c.userId
          else eraseAccount user c
  rw [huser] at hrest hcheck
  have hpass : (Program.require (verifyPinHash c.pin user.pinHash = true)
      (.unauthorized "Re-authentication failed") : Personal Unit) = .pure () := if_pos hpin
  have hstart : System.Run (fun _ _ => True) (launch (requestAccountDeletion verifyPinHash) s [c])
      (solo c s (if user.deletionStatus = .pending then getDeletionStatus c.userId
        else eraseAccount user c)) := by
    refine System.Run.trans hcheck (System.Run.trans ?_ hrest)
    simp only [Program.expect, bind, Program.handle, hpass]
    exact .refl _
  by_cases hpending : user.deletionStatus = .pending
  · rw [if_pos hpending] at hstart
    have hstatus := solo_query (τ := DeletionCall) (c := c) (s := s) (e := PersonError.database)
      (fun s => s.users.find? c.userId) fun found =>
        Program.expect found (.notFound "User not found") >>= fun user =>
          pure (answerOf user none)
    rw [huser] at hstatus
    refine ⟨_, hstart.trans hstatus, ⟨_, List.mem_singleton.mpr rfl, _, rfl⟩, ?_⟩
    rw [afterDeletion, if_pos hpending]
    rfl
  · rw [if_neg hpending] at hstart
    have hrow : (savedUser user.id).find s = some user := by
      rw [hkey]
      exact huser
    have hsave := solo_saveEntity (τ := DeletionCall) (c := c) (e := PersonError.database)
      (w := deletedUser c.now user) hrow (put_found huser) fun _ =>
        Personal.update (revokeSessions c.userId c.now) >>= fun _ =>
          pure (answerOf (deletedUser c.now user) (c.reason.filter (· ≠ "")))
    have hrevoke := solo_writeRows (τ := DeletionCall) (c := c) (e := PersonError.database)
      (s := publish s [.user (deletedUser c.now user)]) (revokeSessions c.userId c.now) fun _ =>
        (pure (answerOf (deletedUser c.now user) (c.reason.filter (· ≠ ""))) :
          Personal DeletionAnswer)
    refine ⟨_, (hstart.trans hsave).trans hrevoke, ⟨_, List.mem_singleton.mpr rfl, _, rfl⟩, ?_⟩
    rw [afterDeletion, if_neg hpending]
    rfl

end Calls

def maskUser (u : User) : User := { u with fullName := none, email := none, dateOfBirth := none }

def maskIdentity (i : UnifiedIdentity) : UnifiedIdentity :=
  { i with fullName := none, email := none, dateOfBirth := none }

def maskKyc (k : KycProfile) : KycProfile :=
  { k with fullName := none, email := none, dateOfBirth := none }

theorem maskUser_id (u : User) : (maskUser u).id = u.id := rfl

theorem maskIdentity_id (i : UnifiedIdentity) : (maskIdentity i).id = i.id := rfl

theorem maskKyc_userId (k : KycProfile) : (maskKyc k).userId = k.userId := rfl

/-- What a deletion and an answer depend on is not masked. -/
theorem unmasked {u v : User} (h : maskUser u = maskUser v) :
    u.deletionStatus = v.deletionStatus ∧ u.unifiedIdentityId = v.unifiedIdentityId ∧
      u.linkedUserId = v.linkedUserId ∧ u.accountType = v.accountType := by
  simp only [maskUser, User.mk.injEq] at h
  simp [h]

/-- The databases are the same but for names, addresses of mail and dates of birth. -/
structure SameBut (s s' : Store) : Prop where
  users : s.users.rows.map maskUser = s'.users.rows.map maskUser
  identities : s.identities.rows.map maskIdentity = s'.identities.rows.map maskIdentity
  kycProfiles : s.kycProfiles.rows.map maskKyc = s'.kycProfiles.rows.map maskKyc
  phones : s.phones = s'.phones
  otps : s.otps = s'.otps
  refreshTokens : s.refreshTokens = s'.refreshTokens

section Masks

variable {ρ κ : Type} [DecidableEq κ] {key : ρ → κ} {mask : ρ → ρ}

theorem find?_mask (hmask : ∀ r, key (mask r) = key r) {t t' : Table key}
    (h : t.rows.map mask = t'.rows.map mask) (k : κ) :
    (t.find? k).map mask = (t'.find? k).map mask := by
  have hfind : ∀ t : Table key,
      (t.find? k).map mask = (t.rows.map mask).find? fun r => key r = k := by
    intro t
    rw [List.find?_map, Table.find?]
    have hsame : ((fun r => decide (key r = k)) ∘ mask) = fun r => decide (key r = k) := by
      funext r
      simp only [Function.comp_apply, hmask]
    rw [hsame]
  rw [hfind, hfind, h]

theorem mask_put {t : Table key} {r a : ρ} (h : t.find? (key r) = some a) (hr : mask a = mask r) :
    t.rows.map mask = (t.put r).rows.map mask := by
  rw [Table.rows_put_of_present h, List.map_map]
  refine List.map_congr_left fun x hx => ?_
  by_cases hk : key x = key r
  · have hxa : x = a :=
      t.eq_of_key_eq hx (Table.mem_of_find? h) (hk.trans (Table.key_of_find? h).symm)
    rw [Function.comp_apply, if_pos hk, hxa, hr]
  · simp [hk]

end Masks

/-- The two databases cannot be told apart by what `getMe` answers after the deletion. -/
def Hidden (verifyPinHash : String → String → Bool) (c : DeletionCall) (s : Store) : Prop :=
  ∀ s' t t', SameBut s s' → Deletes verifyPinHash c s t → Deletes verifyPinHash c s' t' →
    ∀ m, Answers c.userId t m ↔ Answers c.userId t' m

/-- No deletion is pending, and personal data is in the row of the account alone: it has no
identity, no KYC profile and no other account linked to it. -/
def Alone (userId : ℕ) (s : Store) : Prop :=
  ∀ user, s.users.find? userId = some user → user.deletionStatus ≠ .pending ∧
    identityOf user s = none ∧ s.kycProfiles.find? userId = none ∧
      ∀ n linked, linkedAccount n user s = some linked → linked.id = userId

section Linked

variable {c : DeletionCall} {s s' : Store} {user user' linked : User}

theorem mem_payoutAccounts : linked ∈ payoutAccounts user s ↔
    ∃ identityId, user.unifiedIdentityId = some identityId ∧
      roleUsesConsumerForPayout user.accountType = true ∧ linked ∈ s.users.rows ∧
        linked.unifiedIdentityId = some identityId ∧ linked.accountType = some .consumer := by
  rw [payoutAccounts]
  cases user.unifiedIdentityId with
  | none => simp
  | some identityId =>
    by_cases hrole : roleUsesConsumerForPayout user.accountType = true
    · simp [hrole]
    · simp [hrole]

/-- An account whose role needs a consumer account is none itself. -/
theorem not_own_payout (h : user ∈ payoutAccounts user s) : False := by
  obtain ⟨-, -, hrole, -, -, hconsumer⟩ := mem_payoutAccounts.mp h
  rw [hconsumer] at hrole
  cases hrole

theorem mem_of_linkedAccount {n : ℕ} (h : linkedAccount n user s = some linked) :
    linked ∈ s.users.rows := by
  rw [linkedAccount] at h
  cases hpick : Program.pick n (payoutAccounts user s) with
  | some a =>
    rw [hpick, Option.some_or] at h
    obtain rfl := Option.some.inj h
    obtain ⟨-, -, -, hmem, -⟩ := mem_payoutAccounts.mp (Program.mem_of_pick hpick)
    exact hmem
  | none =>
    rw [hpick, Option.none_or, linkedByRow] at h
    obtain ⟨id, -, hfind⟩ := Option.bind_eq_some_iff.mp h
    exact Table.mem_of_find? hfind

theorem linkedAccount_of_nil {n : ℕ} (h : payoutAccounts user s = []) :
    linkedAccount n user s = linkedByRow user s := by
  rw [linkedAccount, h]
  rfl

theorem payoutAccounts_of_alone (hfound : s.users.find? c.userId = some user)
    (h : ∀ n linked, linkedAccount n user s = some linked → linked.id = c.userId) :
    payoutAccounts user s = [] := by
  rw [List.eq_nil_iff_forall_not_mem]
  intro x hx
  obtain ⟨n, hn⟩ := exists_pick hx
  have hid := h n x (by rw [linkedAccount, hn, Option.some_or])
  obtain ⟨-, -, -, hmem, -⟩ := mem_payoutAccounts.mp hx
  have hfind := Table.find?_key hmem
  rw [hid, hfound] at hfind
  obtain rfl := Option.some.inj hfind
  exact not_own_payout hx

theorem publish_tokens (s : Store) (rows : List RefreshToken) :
    publish s (rows.map Write.refreshToken) =
      { s with refreshTokens := s.refreshTokens.putAll rows } := by
  induction rows generalizing s with
  | nil => rfl
  | cons row rows ih => rw [List.map_cons, publish_cons, ih]; rfl

/-- The sessions aside, the deletion writes one row. -/
theorem erased_eq : ∃ tokens, erased user c s =
    { s with users := s.users.put (deletedUser c.now user), refreshTokens := tokens } := by
  have hrows : revokeSessions c.userId c.now (publish s [.user (deletedUser c.now user)]) =
      ((s.refreshTokens.rows.filter fun t => t.userId = c.userId ∧ t.revokedAt = none).map
        fun t => { t with revokedAt := some c.now }).map Write.refreshToken := by
    rw [List.map_map]
    rfl
  rw [erased, hrows, publish_tokens]
  exact ⟨_, rfl⟩

theorem erased_users : (erased user c s).users = s.users.put (deletedUser c.now user) := by
  obtain ⟨tokens, h⟩ := erased_eq (c := c) (s := s)
  rw [h]

theorem erased_identities : (erased user c s).identities = s.identities := by
  obtain ⟨tokens, h⟩ := erased_eq (c := c) (s := s)
  rw [h]

theorem erased_kycProfiles : (erased user c s).kycProfiles = s.kycProfiles := by
  obtain ⟨tokens, h⟩ := erased_eq (c := c) (s := s)
  rw [h]

theorem find_erased (hfound : s.users.find? c.userId = some user) (id : ℕ) :
    (erased user c s).users.find? id =
      if id = c.userId then some (deletedUser c.now user) else s.users.find? id := by
  have hid : user.id = c.userId := Table.key_of_find? hfound
  have hkey : (deletedUser c.now user).id = c.userId := hid
  rw [erased_users, Table.find?_put]
  by_cases hid : id = c.userId
  · rw [if_pos hid, if_pos (hid.trans hkey.symm)]
  · rw [if_neg hid, if_neg fun h => hid (h.trans hkey)]

/-- The answers about an account that was alone tell its new row and nothing else. -/
theorem answers_alone (hfound : s.users.find? c.userId = some user)
    (hidentity : identityOf user s = none) (hkyc : s.kycProfiles.find? c.userId = none)
    (hpayout : payoutAccounts user s = [])
    (hrow : ∀ linked, linkedByRow user s = some linked → linked.id = c.userId) (m : Me) :
    Answers c.userId (erased user c s) m ↔ m = meOf (deletedUser c.now user)
      (if user.linkedUserId = some c.userId then some (deletedUser c.now user) else none)
        none none := by
  have hkey : user.id = c.userId := Table.key_of_find? hfound
  have hdeleted : (erased user c s).users.find? c.userId = some (deletedUser c.now user) := by
    rw [find_erased hfound, if_pos rfl]
  have hidentity' : identityOf (deletedUser c.now user) (erased user c s) = none := by
    rw [identityOf, erased_identities]
    exact hidentity
  have hkyc' : (erased user c s).kycProfiles.find? (deletedUser c.now user).id = none := by
    rw [erased_kycProfiles]
    exact hkey ▸ hkyc
  have hpayout' : payoutAccounts (deletedUser c.now user) (erased user c s) = [] := by
    rw [List.eq_nil_iff_forall_not_mem]
    intro x hx
    have hx' := hx
    obtain ⟨identityId, hlinked, hrole, hmem, hrest⟩ := mem_payoutAccounts.mp hx
    rw [erased_users] at hmem
    obtain rfl | ⟨hmem, -⟩ := Table.mem_put.mp hmem
    · exact not_own_payout hx'
    · have hnil : x ∈ payoutAccounts user s :=
        mem_payoutAccounts.mpr ⟨identityId, hlinked, hrole, hmem, hrest⟩
      rw [hpayout] at hnil
      cases hnil
  have hlinked' : linkedByRow (deletedUser c.now user) (erased user c s) =
      if user.linkedUserId = some c.userId then some (deletedUser c.now user) else none := by
    have hsame : (deletedUser c.now user).linkedUserId = user.linkedUserId := rfl
    rw [linkedByRow, hsame]
    cases hid : user.linkedUserId with
    | none => simp
    | some id =>
      rw [Option.bind_some, find_erased hfound]
      by_cases hself : id = c.userId
      · rw [if_pos hself, if_pos (congrArg some hself)]
      · rw [if_neg hself, if_neg fun h => hself (Option.some.inj h)]
        cases hother : s.users.find? id with
        | none => rfl
        | some linked =>
          have hlinked := hrow linked (by rw [linkedByRow, hid, Option.bind_some, hother])
          rw [Table.key_of_find? hother] at hlinked
          exact absurd hlinked hself
  rw [answers_iff]
  constructor
  · rintro ⟨n, found, hfound', rfl⟩
    obtain rfl := Option.some.inj (hdeleted.symm.trans hfound')
    rw [linkedAccount_of_nil hpayout', hlinked', hidentity', hkyc']
  · rintro rfl
    refine ⟨0, _, hdeleted, ?_⟩
    rw [linkedAccount_of_nil hpayout', hlinked', hidentity', hkyc']

end Linked

section Hiding

variable {verifyPinHash : String → String → Bool} {c : DeletionCall} {s s' : Store}
  {user user' : User}

theorem SameBut.refl (s : Store) : SameBut s s := ⟨rfl, rfl, rfl, rfl, rfl, rfl⟩

theorem sameBut_user {old new : User} (hfound : s.users.find? new.id = some old)
    (hmask : maskUser old = maskUser new) : SameBut s (publish s [.user new]) :=
  { SameBut.refl s with users := mask_put hfound hmask }

theorem sameBut_identity {old new : UnifiedIdentity}
    (hfound : s.identities.find? new.id = some old) (hmask : maskIdentity old = maskIdentity new) :
    SameBut s (publish s [.identity new]) :=
  { SameBut.refl s with identities := mask_put hfound hmask }

theorem sameBut_kycProfile {old new : KycProfile}
    (hfound : s.kycProfiles.find? new.userId = some old) (hmask : maskKyc old = maskKyc new) :
    SameBut s (publish s [.kycProfile new]) :=
  { SameBut.refl s with kycProfiles := mask_put hfound hmask }

/-- Nothing of a row that differs in personal values is left. -/
theorem deletedUser_of_mask (h : maskUser user = maskUser user') (now : ℤ) :
    deletedUser now user = deletedUser now user' := by
  have hmasked : ∀ u, deletedUser now u = deletedUser now (maskUser u) := fun _ => rfl
  rw [hmasked user, hmasked user', h]

theorem hidden_of_alone (h : Alone c.userId s) : Hidden verifyPinHash c s := by
  intro s' t t' hsame hdeletes hdeletes' m
  obtain ⟨user, hfound, -, rfl⟩ := deletes_iff.mp hdeletes
  obtain ⟨user', hfound', -, rfl⟩ := deletes_iff.mp hdeletes'
  obtain ⟨hpending, hidentity, hkyc, hlinked⟩ := h user hfound
  have hmask : maskUser user = maskUser user' := by
    have hrows := find?_mask maskUser_id hsame.users c.userId
    rw [hfound, hfound'] at hrows
    exact Option.some.inj hrows
  obtain ⟨hsameStatus, hsameIdentity, hsameLinked, hsameType⟩ := unmasked hmask.symm
  have hpayout := payoutAccounts_of_alone hfound hlinked
  have hrow : ∀ linked, linkedByRow user s = some linked → linked.id = c.userId :=
    fun linked hl => hlinked 0 linked (by rw [linkedAccount_of_nil hpayout, hl])
  have hidentity' : identityOf user' s' = none := by
    rw [identityOf] at hidentity ⊢
    rw [hsameIdentity]
    cases hid : user.unifiedIdentityId with
    | none => rfl
    | some id =>
      have hfind := find?_mask maskIdentity_id hsame.identities id
      rw [hid, Option.bind_some] at hidentity
      rw [hidentity, Option.map_none] at hfind
      exact Option.map_eq_none_iff.mp hfind.symm
  have hkyc' : s'.kycProfiles.find? c.userId = none := by
    have hfind := find?_mask maskKyc_userId hsame.kycProfiles c.userId
    rw [hkyc, Option.map_none] at hfind
    exact Option.map_eq_none_iff.mp hfind.symm
  have hpayout' : payoutAccounts user' s' = [] := by
    rw [List.eq_nil_iff_forall_not_mem]
    intro x hx
    obtain ⟨identityId, hid, hrole, hmem, hxid, hxtype⟩ := mem_payoutAccounts.mp hx
    have hxmask : maskUser x ∈ s.users.rows.map maskUser := by
      rw [hsame.users]
      exact List.mem_map_of_mem hmem
    obtain ⟨y, hy, hxy⟩ := List.mem_map.mp hxmask
    obtain ⟨-, hyid, -, hytype⟩ := unmasked hxy
    have hnil : y ∈ payoutAccounts user s := mem_payoutAccounts.mpr
      ⟨identityId, hsameIdentity ▸ hid, hsameType ▸ hrole, hy, hyid.trans hxid, hytype.trans hxtype⟩
    rw [hpayout] at hnil
    cases hnil
  have hrow' : ∀ linked, linkedByRow user' s' = some linked → linked.id = c.userId := by
    intro linked hl
    rw [linkedByRow, hsameLinked] at hl
    obtain ⟨id, hid, hfind'⟩ := Option.bind_eq_some_iff.mp hl
    have hfind := find?_mask maskUser_id hsame.users id
    rw [hfind', Option.map_some] at hfind
    obtain ⟨x, hx, -⟩ := Option.map_eq_some_iff.mp hfind
    have hxid := hrow x (by rw [linkedByRow, hid, Option.bind_some, hx])
    rw [Table.key_of_find? hx] at hxid
    exact (Table.key_of_find? hfind').trans hxid
  rw [afterDeletion, if_neg hpending, afterDeletion, if_neg (by rwa [hsameStatus]),
    answers_alone hfound hidentity hkyc hpayout hrow,
    answers_alone hfound' hidentity' hkyc' hpayout' hrow', deletedUser_of_mask hmask, hsameLinked]

/-- A text that is not the given one. -/
theorem exists_other_text (o : Option String) : ∃ x : String, some x ≠ o := by
  by_cases h : o = some "A"
  · exact ⟨"B", by rw [h]; decide⟩
  · exact ⟨"A", fun h' => h h'.symm⟩

/-- An answer that only one of the databases gives. -/
theorem not_hidden {t t' : Store} {m : Me} (hsame : SameBut s s')
    (hdeletes : Deletes verifyPinHash c s t) (hdeletes' : Deletes verifyPinHash c s' t')
    (hanswers : Answers c.userId t' m) (hnot : ¬Answers c.userId t m) :
    ¬Hidden verifyPinHash c s :=
  fun h => hnot ((h s' t t' hsame hdeletes hdeletes' m).mpr hanswers)

/-- The row of the account after the call. -/
def leftUser (user : User) (c : DeletionCall) : User :=
  if user.deletionStatus = .pending then user else deletedUser c.now user

theorem find_after (hfound : s.users.find? c.userId = some user) :
    (afterDeletion user c s).users.find? c.userId = some (leftUser user c) := by
  rw [afterDeletion, leftUser]
  split_ifs
  · exact hfound
  · rw [find_erased hfound, if_pos rfl]

theorem after_identities : (afterDeletion user c s).identities = s.identities := by
  rw [afterDeletion]
  split_ifs
  · rfl
  · exact erased_identities

theorem leftUser_identity : (leftUser user c).unifiedIdentityId = user.unifiedIdentityId := by
  rw [leftUser]
  split_ifs <;> rfl

/-- Every answer about the account is about its row. -/
theorem answers_after (hfound : s.users.find? c.userId = some user) {m : Me} :
    Answers c.userId (afterDeletion user c s) m ↔
      ∃ n, m = meOf (leftUser user c) (linkedAccount n (leftUser user c) (afterDeletion user c s))
        (identityOf user s) ((afterDeletion user c s).kycProfiles.find? (leftUser user c).id) := by
  have hidentity : identityOf (leftUser user c) (afterDeletion user c s) = identityOf user s := by
    rw [identityOf, identityOf, leftUser_identity, after_identities]
  rw [answers_iff]
  constructor
  · rintro ⟨n, found, hfound', rfl⟩
    obtain rfl := Option.some.inj ((find_after hfound).symm.trans hfound')
    exact ⟨n, by rw [hidentity]⟩
  · rintro ⟨n, rfl⟩
    exact ⟨n, leftUser user c, find_after hfound, by rw [hidentity]⟩

theorem no_identity (hfound : s.users.find? c.userId = some user)
    (hpin : verifyPinHash c.pin user.pinHash = true) (h : Hidden verifyPinHash c s) :
    identityOf user s = none := by
  by_contra hsome
  obtain ⟨identity, hidentity⟩ := Option.ne_none_iff_exists'.mp hsome
  obtain ⟨id, hid, hrow⟩ := Option.bind_eq_some_iff.mp hidentity
  obtain ⟨x, hx⟩ := exists_other_text (identity.fullName.or (leftUser user c).fullName)
  let renamed : UnifiedIdentity := { identity with fullName := some x }
  have hrowId : identity.id = id := Table.key_of_find? hrow
  have hkey : renamed.id = id := hrowId
  have hold : s.identities.find? renamed.id = some identity := by
    rw [hkey]
    exact hrow
  have hsame : SameBut s (publish s [.identity renamed]) := sameBut_identity hold rfl
  have hfound' : (publish s [.identity renamed]).users.find? c.userId = some user := hfound
  have hidentity' : identityOf user (publish s [.identity renamed]) = some renamed := by
    rw [identityOf, hid, Option.bind_some, ← hkey]
    simp [Store.write]
  refine not_hidden hsame (deletes_iff.mpr ⟨user, hfound, hpin, rfl⟩)
    (deletes_iff.mpr ⟨user, hfound', hpin, rfl⟩) ((answers_after hfound').mpr ⟨0, rfl⟩)
    (fun hanswers => ?_) h
  obtain ⟨n, hm⟩ := (answers_after hfound).mp hanswers
  have hname := congrArg Me.fullName hm
  rw [hidentity, hidentity'] at hname
  exact hx hname

theorem not_pending (hfound : s.users.find? c.userId = some user)
    (hpin : verifyPinHash c.pin user.pinHash = true) (h : Hidden verifyPinHash c s)
    (hidentity : identityOf user s = none) : user.deletionStatus ≠ .pending := by
  intro hpending
  obtain ⟨x, hx⟩ := exists_other_text user.fullName
  let renamed : User := { user with fullName := some x }
  have hid : user.id = c.userId := Table.key_of_find? hfound
  have hkey : renamed.id = c.userId := hid
  have hold : s.users.find? renamed.id = some user := by
    rw [hkey]
    exact hfound
  have hsame : SameBut s (publish s [.user renamed]) := sameBut_user hold rfl
  have hfound' : (publish s [.user renamed]).users.find? c.userId = some renamed := by
    rw [← hkey]
    simp [Store.write]
  have hidentity' : identityOf renamed (publish s [.user renamed]) = none := hidentity
  have hleft : leftUser user c = user := if_pos hpending
  have hleft' : leftUser renamed c = renamed := if_pos hpending
  refine not_hidden hsame (deletes_iff.mpr ⟨user, hfound, hpin, rfl⟩)
    (deletes_iff.mpr ⟨renamed, hfound', hpin, rfl⟩) ((answers_after hfound').mpr ⟨0, rfl⟩)
    (fun hanswers => ?_) h
  obtain ⟨n, hm⟩ := (answers_after hfound).mp hanswers
  have hname := congrArg Me.fullName hm
  rw [hidentity, hidentity', hleft, hleft'] at hname
  exact hx hname

theorem no_kycProfile (hfound : s.users.find? c.userId = some user)
    (hpin : verifyPinHash c.pin user.pinHash = true) (h : Hidden verifyPinHash c s)
    (hidentity : identityOf user s = none) (hpending : user.deletionStatus ≠ .pending) :
    s.kycProfiles.find? c.userId = none := by
  by_contra hsome
  obtain ⟨profile, hprofile⟩ := Option.ne_none_iff_exists'.mp hsome
  have hother : ∃ x, formatDob (some x) = some x ∧ some x ≠ formatDob profile.dateOfBirth := by
    by_cases hdate : formatDob profile.dateOfBirth = some "2000-01-01"
    · exact ⟨"2000-01-02", rfl, by rw [hdate]; decide⟩
    · exact ⟨"2000-01-01", rfl, fun h => hdate h.symm⟩
  obtain ⟨x, hformat, hx⟩ := hother
  let dated : KycProfile := { profile with dateOfBirth := some x }
  have hprofileId : profile.userId = c.userId := Table.key_of_find? hprofile
  have hkey : dated.userId = c.userId := hprofileId
  have hold : s.kycProfiles.find? dated.userId = some profile := by
    rw [hkey]
    exact hprofile
  have hsame : SameBut s (publish s [.kycProfile dated]) := sameBut_kycProfile hold rfl
  have hfound' : (publish s [.kycProfile dated]).users.find? c.userId = some user := hfound
  have hidentity' : identityOf user (publish s [.kycProfile dated]) = none := hidentity
  have hid : user.id = c.userId := Table.key_of_find? hfound
  have hleft : leftUser user c = deletedUser c.now user := if_neg hpending
  have hdeleted : (deletedUser c.now user).id = c.userId := hid
  have hprofiles : ∀ s, (afterDeletion user c s).kycProfiles = s.kycProfiles := by
    intro s
    rw [afterDeletion, if_neg hpending, erased_kycProfiles]
  have hdated : (publish s [.kycProfile dated]).kycProfiles.find? c.userId = some dated := by
    rw [← hkey]
    simp [Store.write]
  refine not_hidden hsame (deletes_iff.mpr ⟨user, hfound, hpin, rfl⟩)
    (deletes_iff.mpr ⟨user, hfound', hpin, rfl⟩) ((answers_after hfound').mpr ⟨0, rfl⟩)
    (fun hanswers => ?_) h
  obtain ⟨n, hm⟩ := (answers_after hfound).mp hanswers
  have hdate := congrArg Me.dateOfBirth hm
  rw [hidentity, hidentity', hleft, hprofiles, hprofiles, hdeleted, hprofile, hdated] at hdate
  have hshown : formatDob (some x) = formatDob profile.dateOfBirth := hdate
  rw [hformat] at hshown
  exact hx hshown

/-- The account that an answer links to is there also under another name. -/
theorem linked_renamed {n : ℕ} {linked : User} {x : String}
    (hfound : s.users.find? c.userId = some user)
    (hlinked : linkedAccount n user s = some linked) (hother : linked.id ≠ c.userId) :
    ∃ n', linkedAccount n' (deletedUser c.now user)
      (erased user c (publish s [.user { linked with fullName := some x }])) =
        some { linked with fullName := some x } := by
  have hid : user.id = c.userId := Table.key_of_find? hfound
  let renamed : User := { linked with fullName := some x }
  let s' : Store := publish s [.user renamed]
  have hfound' : s'.users.find? c.userId = some user := by
    rw [← hfound]
    exact Table.find?_put_of_ne (Ne.symm hother)
  have hmem : renamed ∈ (erased user c s').users.rows := by
    rw [erased_users]
    refine Table.mem_put.mpr (.inr ⟨Table.mem_put_self s.users renamed, ?_⟩)
    exact fun h => hother (h.trans hid)
  cases hpick : Program.pick n (payoutAccounts user s) with
  | some a =>
    rw [linkedAccount, hpick, Option.some_or] at hlinked
    obtain rfl := Option.some.inj hlinked
    obtain ⟨identityId, huser, hrole, -, hrest⟩ := mem_payoutAccounts.mp (Program.mem_of_pick hpick)
    have hmember : renamed ∈ payoutAccounts (deletedUser c.now user) (erased user c s') :=
      mem_payoutAccounts.mpr ⟨identityId, huser, hrole, hmem, hrest⟩
    obtain ⟨n', hn'⟩ := exists_pick hmember
    exact ⟨n', by rw [linkedAccount, hn', Option.some_or]⟩
  | none =>
    have hnil : payoutAccounts user s = [] := Program.pick_eq_none hpick
    rw [linkedAccount_of_nil hnil, linkedByRow] at hlinked
    obtain ⟨id, hrow, hfind⟩ := Option.bind_eq_some_iff.mp hlinked
    have hlinkedId : linked.id = id := Table.key_of_find? hfind
    have hnil' : payoutAccounts (deletedUser c.now user) (erased user c s') = [] := by
      rw [List.eq_nil_iff_forall_not_mem]
      intro y hy
      have hy' := hy
      obtain ⟨identityId, huser, hrole, hrows, hrest⟩ := mem_payoutAccounts.mp hy
      have hempty : ∀ z, z ∈ s.users.rows → z.unifiedIdentityId = some identityId ∧
          z.accountType = some .consumer → False := by
        intro z hz hzrest
        have hz' : z ∈ payoutAccounts user s :=
          mem_payoutAccounts.mpr ⟨identityId, huser, hrole, hz, hzrest⟩
        rw [hnil] at hz'
        cases hz'
      rw [erased_users] at hrows
      obtain rfl | ⟨hrows, -⟩ := Table.mem_put.mp hrows
      · exact not_own_payout hy'
      · obtain rfl | ⟨hrows, -⟩ := Table.mem_put.mp hrows
        · exact hempty linked (Table.mem_of_find? hfind) hrest
        · exact hempty y hrows hrest
    refine ⟨0, ?_⟩
    have hlinkedRow : (deletedUser c.now user).linkedUserId = some id := hrow
    rw [linkedAccount_of_nil hnil', linkedByRow, hlinkedRow, Option.bind_some, ← hlinkedId]
    exact Table.find?_key hmem

theorem no_linked (hfound : s.users.find? c.userId = some user)
    (hpin : verifyPinHash c.pin user.pinHash = true) (h : Hidden verifyPinHash c s)
    (hpending : user.deletionStatus ≠ .pending) (n : ℕ) (linked : User)
    (hlinked : linkedAccount n user s = some linked) : linked.id = c.userId := by
  by_contra hother
  -- a name that no account has
  obtain ⟨x, hx⟩ := Infinite.exists_notMem_finset
    ((afterDeletion user c s).users.rows.map fun u => u.fullName.getD "").toFinset
  have hfresh : ∀ u ∈ (afterDeletion user c s).users.rows, u.fullName ≠ some x := by
    intro u hu hname
    refine hx (List.mem_toFinset.mpr (List.mem_map.mpr ⟨u, hu, ?_⟩))
    rw [hname, Option.getD_some]
  let renamed : User := { linked with fullName := some x }
  have hmem := mem_of_linkedAccount hlinked
  have hold : s.users.find? renamed.id = some linked := Table.find?_key hmem
  have hsame : SameBut s (publish s [.user renamed]) := sameBut_user hold rfl
  have hfound' : (publish s [.user renamed]).users.find? c.userId = some user := by
    rw [← hfound]
    exact Table.find?_put_of_ne (Ne.symm hother)
  have hafter : ∀ s, afterDeletion user c s = erased user c s := fun _ => if_neg hpending
  have hleft : leftUser user c = deletedUser c.now user := if_neg hpending
  obtain ⟨n', hn'⟩ := linked_renamed (x := x) hfound hlinked hother
  refine not_hidden hsame (deletes_iff.mpr ⟨user, hfound, hpin, rfl⟩)
    (deletes_iff.mpr ⟨user, hfound', hpin, rfl⟩) ((answers_after hfound').mpr ⟨n', rfl⟩)
    (fun hanswers => ?_) h
  obtain ⟨k, hm⟩ := (answers_after hfound).mp hanswers
  have hshown := congrArg Me.linkedUser hm
  rw [hleft, hafter (publish s [.user renamed])] at hshown
  have hrenamed : (linkedAccount n' (deletedUser c.now user)
      (erased user c (publish s [.user renamed]))).map linkedUserOf =
        (linkedAccount k (deletedUser c.now user) (afterDeletion user c s)).map linkedUserOf :=
    hshown
  rw [hn', Option.map_some] at hrenamed
  obtain ⟨y, hy, hyname⟩ := Option.map_eq_some_iff.mp hrenamed.symm
  exact hfresh y (mem_of_linkedAccount hy) (congrArg LinkedUser.fullName hyname)

/-- A deletion that returns hides the person if and only if personal data was in the row of the
account alone and no deletion was pending. -/
theorem hidden_iff_alone {t : Store} (hdeletes : Deletes verifyPinHash c s t) :
    Hidden verifyPinHash c s ↔ Alone c.userId s := by
  obtain ⟨user, hfound, hpin, -⟩ := deletes_iff.mp hdeletes
  refine ⟨fun h => ?_, hidden_of_alone⟩
  have hidentity := no_identity hfound hpin h
  have hpending := not_pending hfound hpin h hidentity
  intro user' hfound'
  obtain rfl := Option.some.inj (hfound.symm.trans hfound')
  exact ⟨hpending, hidentity, no_kycProfile hfound hpin h hidentity hpending,
    no_linked hfound hpin h hpending⟩

end Hiding

/-- Every PIN is right. -/
def anyPin (_ _ : String) : Bool := true

def deletion : DeletionCall := ⟨1, "1234", none, 1000⟩

/-- An account without an identity. -/
def stranger : User :=
  { SharedProfile.account 1 .consumer "PENDING" with unifiedIdentityId := none }

def oneAccount : Store := { Store.blank with users := .ofRows [stranger] }

theorem find_stranger : oneAccount.users.find? 1 = some stranger := rfl

theorem stranger_hidden : Hidden anyPin deletion oneAccount := by
  refine (hidden_iff_alone (deletes_iff.mpr ⟨stranger, find_stranger, rfl, rfl⟩)).mpr ?_
  intro user hfound
  obtain rfl := Option.some.inj (find_stranger.symm.trans hfound)
  exact ⟨by decide, rfl, rfl, fun n linked h => nomatch h⟩

/-- Where there is an identity, `getMe` still tells its name and date of birth. -/
theorem name_told : ∃ t m, Deletes anyPin deletion SharedProfile.twoAccounts t ∧
    Answers 1 t m ∧ m.fullName = some "Amal Idrissi" ∧ m.dateOfBirth = some "1990-01-01" ∧
    ¬Hidden anyPin deletion SharedProfile.twoAccounts := by
  have hfound : SharedProfile.twoAccounts.users.find? deletion.userId =
      some (SharedProfile.account 1 .consumer "VERIFIED") := rfl
  have hidentity : identityOf (SharedProfile.account 1 .consumer "VERIFIED")
      SharedProfile.twoAccounts = some SharedProfile.amal := rfl
  have hdeletes : Deletes anyPin deletion SharedProfile.twoAccounts
      (afterDeletion (SharedProfile.account 1 .consumer "VERIFIED") deletion
        SharedProfile.twoAccounts) := deletes_iff.mpr ⟨_, hfound, rfl, rfl⟩
  refine ⟨_, _, hdeletes, (answers_after hfound).mpr ⟨0, rfl⟩, ?_, ?_, fun h => ?_⟩
  · rw [hidentity]
    rfl
  · rw [hidentity]
    decide +kernel
  · have hnone := no_identity hfound rfl h
    rw [hidentity] at hnone
    cases hnone

end NexaStays.AccountDeletion
