import NexaStays.Embedding
import NexaStays.IdentityPhones

/-!
# The tables of the logins

The tables of a person, with the trusted devices and the counters of failed attempts. The
programs on the tables of a person run here as they are.
-/
namespace NexaStays.LoginStore

open NexaStays.KeyedTable NexaStays.Transactions NexaStays.EntitySave NexaStays.Embedding
open NexaStays.PersonStore (PersonError Personal)
open NexaStays.IdentityStore (TrustedDevice PinAttempt OtpAttempt)

structure Store where
  person : PersonStore.Store
  trustedDevices : Table TrustedDevice.id
  pinAttempts : Table PinAttempt.userId
  otpAttempts : Table OtpAttempt.id

inductive Key where
  | person (key : PersonStore.Key)
  | trustedDevice (id : ℕ)
  | pinAttempt (userId : ℕ)
  | otpAttempt (id : ℕ)
  deriving DecidableEq, Repr

inductive Write where
  | person (write : PersonStore.Write)
  | trustedDevice (row : TrustedDevice)
  | pinAttempt (row : PinAttempt)
  | otpAttempt (row : OtpAttempt)
  deriving DecidableEq, Repr

def Write.key : Write → Key
  | .person w => .person w.key
  | .trustedDevice d => .trustedDevice d.id
  | .pinAttempt a => .pinAttempt a.userId
  | .otpAttempt a => .otpAttempt a.id

namespace Store

def write (s : Store) : Write → Store
  | .person w => { s with person := s.person.write w }
  | .trustedDevice d => { s with trustedDevices := s.trustedDevices.put d }
  | .pinAttempt a => { s with pinAttempts := s.pinAttempts.put a }
  | .otpAttempt a => { s with otpAttempts := s.otpAttempts.put a }

def present (s : Store) : Key → Bool
  | .person key => s.person.present key
  | .trustedDevice id => (s.trustedDevices.find? id).isSome
  | .pinAttempt userId => (s.pinAttempts.find? userId).isSome
  | .otpAttempt id => (s.otpAttempts.find? id).isSome

/-- A new deployment. -/
def blank : Store :=
  { person := .blank
    trustedDevices := .empty
    pinAttempts := .empty
    otpAttempts := .empty }

end Store

instance : Storage Store Key Write where
  write := Store.write
  keyOf := Write.key
  present := Store.present

@[simp] theorem storage_write (s : Store) (w : Write) : Storage.write s w = s.write w := rfl

@[simp] theorem storage_keyOf (w : Write) : Storage.keyOf Store w = w.key := rfl

@[simp] theorem storage_present (s : Store) (k : Key) : Storage.present s k = s.present k := rfl

/-- The body of an exception that carries more than a message. -/
structure Refusal where
  status : ℕ
  code : String
  message : String
  accountId : Option ℕ
  retryAfterSeconds : Option ℤ
  lockedUntil : Option ℤ
  attemptsRemaining : Option ℕ
  otpRequired : Bool
  riskScore : Option ℕ
  reasonCodes : List String
  deriving DecidableEq, Repr

def Refusal.of (status : ℕ) (code message : String) : Refusal :=
  { status
    code
    message
    accountId := none
    retryAfterSeconds := none
    lockedUntil := none
    attemptsRemaining := none
    otpRequired := false
    riskScore := none
    reasonCodes := [] }

inductive LoginError where
  | person (e : PersonError)
  | refused (body : Refusal)
  deriving DecidableEq, Repr

def LoginError.database : LoginError := .person .database

def LoginError.badRequest (message : String) : LoginError := .person (.badRequest message)

/-- The programs of the logins. -/
abbrev Login := Program Store Key Write LoginError

/-- The tables of a person, as a part of the store. -/
def personal : Part PersonStore.Store Store PersonStore.Key Key PersonStore.Write Write PersonError
    LoginError where
  get := Store.person
  write := .person
  key := .person
  error := .person
  get_write _ _ := rfl
  keyOf_write _ := rfl
  present_key _ _ := rfl

namespace Login

abbrev read {α : Type} (f : Store → α) : Login α := Program.query .database f

abbrev findOne {α : Type} (f : Store → List α) : Login (Option α) := Program.findOne .database f

abbrev update (ws : Store → List Write) : Login (List Write) := Program.writeRows .database ws

abbrev insert (row : ℕ → Write) : Login ℕ := Program.insertRow .database row

/-- `Date.now()`. -/
abbrev now : Login ℕ := Program.receive

/-- A service that works on the tables of a person. -/
abbrev onPerson {α : Type} (p : Personal α) : Login α := within personal p

end Login

instance : Columns PinAttempt where
  merge old new row :=
    { userId := column old.userId new.userId row.userId
      failedCount := column old.failedCount new.failedCount row.failedCount
      lockoutLevel := column old.lockoutLevel new.lockoutLevel row.lockoutLevel
      firstFailedAt := column old.firstFailedAt new.firstFailedAt row.firstFailedAt
      lockoutUntil := column old.lockoutUntil new.lockoutUntil row.lockoutUntil
      updatedAt := column old.updatedAt new.updatedAt row.updatedAt }
  merge_self old new := by simp only [column_self]

instance : Columns TrustedDevice where
  merge old new row :=
    { id := column old.id new.id row.id
      userId := column old.userId new.userId row.userId
      deviceId := column old.deviceId new.deviceId row.deviceId
      deviceName := column old.deviceName new.deviceName row.deviceName
      trusted := column old.trusted new.trusted row.trusted
      lastSeenAt := column old.lastSeenAt new.lastSeenAt row.lastSeenAt }
  merge_self old new := by simp only [column_self]

instance : Columns OtpAttempt where
  merge old new row :=
    { id := column old.id new.id row.id
      phoneNumber := column old.phoneNumber new.phoneNumber row.phoneNumber
      ip := column old.ip new.ip row.ip
      failedCount := column old.failedCount new.failedCount row.failedCount
      lockedUntil := column old.lockedUntil new.lockedUntil row.lockedUntil
      updatedAt := column old.updatedAt new.updatedAt row.updatedAt }
  merge_self old new := by simp only [column_self]

def savedAttempt (userId : ℕ) : Saved Store Write PinAttempt :=
  ⟨fun s => s.pinAttempts.find? userId, .pinAttempt⟩

def savedDevice (id : ℕ) : Saved Store Write TrustedDevice :=
  ⟨fun s => s.trustedDevices.find? id, .trustedDevice⟩

def savedOtpAttempt (id : ℕ) : Saved Store Write OtpAttempt :=
  ⟨fun s => s.otpAttempts.find? id, .otpAttempt⟩

end NexaStays.LoginStore
