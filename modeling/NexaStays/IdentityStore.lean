import Mathlib.Data.Int.Notation
import NexaStays.KeyedTable
import NexaStays.Transactions

/-!
# The tables of the identity service

Row types, the committed store with what a server process keeps in memory, and its row
writes. Identifiers are numbers and an instant is its distance in milliseconds from the
epoch. Columns that no modelled function reads are left out. `OtpComparison` and
`PinEvent` are histories: calls add to them and nothing reads them.
-/
namespace NexaStays.IdentityStore

open NexaStays.KeyedTable NexaStays.Transactions

inductive AccountType where
  | consumer | driver | courier | host | merchant | admin
  deriving DecidableEq, Repr

inductive StaffRole where
  | admin | supportAgent
  deriving DecidableEq, Repr

/-- Old rows have no `account_type`. -/
structure User where
  id : ℕ
  phoneNumber : Option String
  unifiedIdentityId : Option ℕ
  accountType : Option AccountType
  staffRole : StaffRole
  pinHash : String
  status : String
  authzVersion : ℤ
  lastLoginAt : Option ℤ
  deriving DecidableEq, Repr

structure UnifiedIdentity where
  id : ℕ
  phoneNumber : Option String
  deriving DecidableEq, Repr

structure IdentityPhoneNumber where
  id : ℕ
  identityId : ℕ
  normalizedPhoneNumber : String
  deriving DecidableEq, Repr

structure OtpCode where
  id : ℕ
  phoneNumber : String
  code : String
  expiresAt : ℤ
  attempts : ℕ
  consumedAt : Option ℤ
  createdAt : ℤ
  deriving DecidableEq, Repr

structure OtpAttempt where
  id : ℕ
  phoneNumber : String
  ip : String
  failedCount : ℕ
  lockedUntil : Option ℤ
  updatedAt : ℤ
  deriving DecidableEq, Repr

structure OtpSession where
  id : ℕ
  phoneNumber : String
  userId : Option ℕ
  sessionToken : String
  expiresAt : ℤ
  consumed : Bool
  deriving DecidableEq, Repr

/-- `replaces` is history, not a column: the token that a rotation issued this one for. -/
structure RefreshToken where
  id : ℕ
  userId : ℕ
  tokenHash : String
  deviceId : Option String
  userAgent : Option String
  ip : Option String
  revokedAt : Option ℤ
  expiresAt : ℤ
  replaces : Option ℕ
  deriving DecidableEq, Repr

structure TrustedDevice where
  id : ℕ
  userId : ℕ
  deviceId : String
  deviceName : Option String
  trusted : Bool
  lastSeenAt : ℤ
  deriving DecidableEq, Repr

structure PinAttempt where
  userId : ℕ
  failedCount : ℕ
  lockoutLevel : ℕ
  firstFailedAt : Option ℤ
  lockoutUntil : Option ℤ
  updatedAt : ℤ
  deriving DecidableEq, Repr

/-- An entry of the cache that a process keeps of the privileges of its users. -/
structure CacheEntry where
  userId : ℕ
  version : ℤ
  status : String
  accountType : Option AccountType
  staffRole : StaffRole
  expiresAt : ℤ
  deriving DecidableEq, Repr

/-- A rotation that a process has under way, by the hash of its token. -/
structure InFlight where
  process : ℕ
  tokenHash : String
  deriving DecidableEq, Repr

/-- A submitted code was compared with the code of an OTP row. -/
structure OtpComparison where
  seq : ℕ
  otpId : ℕ
  matched : Bool
  deriving DecidableEq, Repr

/-- A submitted PIN was compared and was wrong or right; the user was locked out. -/
inductive PinOutcome where
  | wrong | right
  | lockout (seconds : ℕ)
  deriving DecidableEq, Repr

structure PinEvent where
  seq : ℕ
  userId : ℕ
  outcome : PinOutcome
  deriving DecidableEq, Repr

structure Store where
  users : Table User.id
  identities : Table UnifiedIdentity.id
  phones : Table IdentityPhoneNumber.id
  otps : Table OtpCode.id
  otpAttempts : Table OtpAttempt.id
  otpSessions : Table OtpSession.id
  refreshTokens : Table RefreshToken.id
  trustedDevices : Table TrustedDevice.id
  pinAttempts : Table PinAttempt.userId
  authzCache : Table CacheEntry.userId
  refreshInFlight : Table fun r : InFlight => (r.process, r.tokenHash)
  comparisons : Table OtpComparison.seq
  pinHistory : Table PinEvent.seq

inductive Key where
  | user (id : ℕ)
  | identity (id : ℕ)
  | phone (id : ℕ)
  | otp (id : ℕ)
  | otpAttempt (id : ℕ)
  | otpSession (id : ℕ)
  | refreshToken (id : ℕ)
  | trustedDevice (id : ℕ)
  | pinAttempt (userId : ℕ)
  | cache (userId : ℕ)
  | inFlight (process : ℕ) (tokenHash : String)
  | comparison (seq : ℕ)
  | pinEvent (seq : ℕ)
  deriving DecidableEq, Repr

/-- The write of one row: inserted or overwritten, or deleted. -/
inductive Write where
  | user (row : User)
  | identity (row : UnifiedIdentity)
  | phone (row : IdentityPhoneNumber)
  | otp (row : OtpCode)
  | otpAttempt (row : OtpAttempt)
  | otpSession (row : OtpSession)
  | refreshToken (row : RefreshToken)
  | trustedDevice (row : TrustedDevice)
  | pinAttempt (row : PinAttempt)
  | cache (row : CacheEntry)
  | uncache (userId : ℕ)
  | inFlight (row : InFlight)
  | landed (row : InFlight)
  | comparison (row : OtpComparison)
  | pinEvent (row : PinEvent)
  deriving DecidableEq, Repr

def Write.key : Write → Key
  | .user u => .user u.id
  | .identity i => .identity i.id
  | .phone p => .phone p.id
  | .otp o => .otp o.id
  | .otpAttempt a => .otpAttempt a.id
  | .otpSession o => .otpSession o.id
  | .refreshToken r => .refreshToken r.id
  | .trustedDevice d => .trustedDevice d.id
  | .pinAttempt a => .pinAttempt a.userId
  | .cache e => .cache e.userId
  | .uncache userId => .cache userId
  | .inFlight r | .landed r => .inFlight r.process r.tokenHash
  | .comparison c => .comparison c.seq
  | .pinEvent e => .pinEvent e.seq

namespace Store

def write (s : Store) : Write → Store
  | .user u => { s with users := s.users.put u }
  | .identity i => { s with identities := s.identities.put i }
  | .phone p => { s with phones := s.phones.put p }
  | .otp o => { s with otps := s.otps.put o }
  | .otpAttempt a => { s with otpAttempts := s.otpAttempts.put a }
  | .otpSession o => { s with otpSessions := s.otpSessions.put o }
  | .refreshToken r => { s with refreshTokens := s.refreshTokens.put r }
  | .trustedDevice d => { s with trustedDevices := s.trustedDevices.put d }
  | .pinAttempt a => { s with pinAttempts := s.pinAttempts.put a }
  | .cache e => { s with authzCache := s.authzCache.put e }
  | .uncache userId => { s with authzCache := s.authzCache.delete userId }
  | .inFlight r => { s with refreshInFlight := s.refreshInFlight.put r }
  | .landed r => { s with refreshInFlight := s.refreshInFlight.delete (r.process, r.tokenHash) }
  | .comparison c => { s with comparisons := s.comparisons.put c }
  | .pinEvent e => { s with pinHistory := s.pinHistory.put e }

def present (s : Store) : Key → Bool
  | .user id => (s.users.find? id).isSome
  | .identity id => (s.identities.find? id).isSome
  | .phone id => (s.phones.find? id).isSome
  | .otp id => (s.otps.find? id).isSome
  | .otpAttempt id => (s.otpAttempts.find? id).isSome
  | .otpSession id => (s.otpSessions.find? id).isSome
  | .refreshToken id => (s.refreshTokens.find? id).isSome
  | .trustedDevice id => (s.trustedDevices.find? id).isSome
  | .pinAttempt userId => (s.pinAttempts.find? userId).isSome
  | .cache userId => (s.authzCache.find? userId).isSome
  | .inFlight process tokenHash => (s.refreshInFlight.find? (process, tokenHash)).isSome
  | .comparison seq => (s.comparisons.find? seq).isSome
  | .pinEvent seq => (s.pinHistory.find? seq).isSome

/-- A new deployment. -/
def blank : Store :=
  { users := .empty
    identities := .empty
    phones := .empty
    otps := .empty
    otpAttempts := .empty
    otpSessions := .empty
    refreshTokens := .empty
    trustedDevices := .empty
    pinAttempts := .empty
    authzCache := .empty
    refreshInFlight := .empty
    comparisons := .empty
    pinHistory := .empty }

end Store

instance : Storage Store Key Write where
  write := Store.write
  keyOf := Write.key
  present := Store.present

@[simp] theorem storage_write (s : Store) (w : Write) : Storage.write s w = s.write w := rfl

@[simp] theorem storage_keyOf (w : Write) : Storage.keyOf Store w = w.key := rfl

@[simp] theorem storage_present (s : Store) (k : Key) : Storage.present s k = s.present k := rfl

/-- What a call throws: the HTTP exceptions of the service, or a failing statement. -/
inductive IdentityError where
  | unauthorized (message : String)
  | badRequest (message : String)
  | conflict (message : String)
  | forbidden (message : String)
  | tooManyRequests (message : String)
  | database
  deriving DecidableEq, Repr

/-- The programs of the identity service. -/
abbrev Identity := Program Store Key Write IdentityError

namespace Identity

abbrev read {α : Type} (f : Store → α) : Identity α := Program.query .database f

abbrev findOne {α : Type} (f : Store → List α) : Identity (Option α) :=
  Program.findOne .database f

abbrev update (ws : Store → List Write) : Identity (List Write) := Program.writeRows .database ws

abbrev insert (row : ℕ → Write) : Identity ℕ := Program.insertRow .database row

/-- `Date.now()`. -/
abbrev now : Identity ℕ := Program.receive

/-- What the process has in memory: it is read at once and cannot fail. -/
abbrev remembered {α : Type} (f : Store → α) : Identity α := Program.send (fun _ => []) f

/-- What the process keeps in memory from now on. -/
abbrev memorise (ws : List Write) : Identity Unit := Program.send (fun _ => ws) fun _ => ()

end Identity

end NexaStays.IdentityStore
