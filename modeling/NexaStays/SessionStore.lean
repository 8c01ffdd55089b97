import NexaStays.LoginStore

/-!
# The tables of the sessions

The tables of the logins, with the sessions that a verified number opens, the refresh tokens
with the columns of a rotation, the wallets, and the cache of a process that keeps what its
guards have read of the accounts.
-/
namespace NexaStays.SessionStore

open NexaStays.KeyedTable NexaStays.Transactions NexaStays.EntitySave NexaStays.Embedding
open NexaStays.PersonStore (Personal)
open NexaStays.LoginStore (Login LoginError)
open NexaStays.IdentityStore (OtpSession RefreshToken CacheEntry)

structure Wallet where
  userId : ℕ
  status : String
  deriving DecidableEq, Repr

structure Store where
  login : LoginStore.Store
  otpSessions : Table OtpSession.id
  refreshTokens : Table RefreshToken.id
  wallets : Table Wallet.userId
  authzCache : Table CacheEntry.userId

inductive Key where
  | login (key : LoginStore.Key)
  | otpSession (id : ℕ)
  | refreshToken (id : ℕ)
  | wallet (userId : ℕ)
  | cache (userId : ℕ)
  deriving DecidableEq, Repr

inductive Write where
  | login (write : LoginStore.Write)
  | otpSession (row : OtpSession)
  | refreshToken (row : RefreshToken)
  | wallet (row : Wallet)
  | cache (entry : CacheEntry)
  | uncache (userId : ℕ)
  deriving DecidableEq, Repr

def Write.key : Write → Key
  | .login w => .login w.key
  | .otpSession o => .otpSession o.id
  | .refreshToken t => .refreshToken t.id
  | .wallet w => .wallet w.userId
  | .cache e => .cache e.userId
  | .uncache userId => .cache userId

namespace Store

abbrev users (s : Store) : Table PersonStore.User.id := s.login.person.users

def write (s : Store) : Write → Store
  | .login w => { s with login := s.login.write w }
  | .otpSession o => { s with otpSessions := s.otpSessions.put o }
  | .refreshToken t => { s with refreshTokens := s.refreshTokens.put t }
  | .wallet w => { s with wallets := s.wallets.put w }
  | .cache e => { s with authzCache := s.authzCache.put e }
  | .uncache userId => { s with authzCache := s.authzCache.delete userId }

def present (s : Store) : Key → Bool
  | .login key => s.login.present key
  | .otpSession id => (s.otpSessions.find? id).isSome
  | .refreshToken id => (s.refreshTokens.find? id).isSome
  | .wallet userId => (s.wallets.find? userId).isSome
  | .cache userId => (s.authzCache.find? userId).isSome

/-- The store of the tables of a person, without a session. -/
def of (person : PersonStore.Store) : Store :=
  { login := { LoginStore.Store.blank with person }
    otpSessions := .empty
    refreshTokens := .empty
    wallets := .empty
    authzCache := .empty }

end Store

instance : Storage Store Key Write where
  write := Store.write
  keyOf := Write.key
  present := Store.present

@[simp] theorem storage_write (s : Store) (w : Write) : Storage.write s w = s.write w := rfl

@[simp] theorem storage_keyOf (w : Write) : Storage.keyOf Store w = w.key := rfl

@[simp] theorem storage_present (s : Store) (k : Key) : Storage.present s k = s.present k := rfl

/-- The programs of the sessions. -/
abbrev Access := Program Store Key Write LoginError

/-- The tables of the logins, as a part of the store. -/
def logins : Part LoginStore.Store Store LoginStore.Key Key LoginStore.Write Write LoginError
    LoginError where
  get := Store.login
  write := .login
  key := .login
  error := id
  get_write _ _ := rfl
  keyOf_write _ := rfl
  present_key _ _ := rfl

namespace Access

abbrev read {α : Type} (f : Store → α) : Access α := Program.query .database f

abbrev findOne {α : Type} (f : Store → List α) : Access (Option α) := Program.findOne .database f

abbrev update (ws : Store → List Write) : Access (List Write) := Program.writeRows .database ws

abbrev insert (row : ℕ → Write) : Access ℕ := Program.insertRow .database row

/-- `Date.now()`. -/
abbrev now : Access ℕ := Program.receive

/-- What the process has in memory. -/
abbrev remembered {α : Type} (f : Store → α) : Access α := Program.send (fun _ => []) f

/-- What the process keeps in memory from now on. -/
abbrev memorise (ws : List Write) : Access Unit := Program.send (fun _ => ws) fun _ => ()

/-- A service that works on the tables of the logins. -/
abbrev onLogin {α : Type} (p : Login α) : Access α := within logins p

/-- A service that works on the tables of a person. -/
abbrev onPerson {α : Type} (p : Personal α) : Access α := onLogin (Login.onPerson p)

end Access

instance : Columns OtpSession where
  merge old new row :=
    { id := column old.id new.id row.id
      phoneNumber := column old.phoneNumber new.phoneNumber row.phoneNumber
      userId := column old.userId new.userId row.userId
      sessionToken := column old.sessionToken new.sessionToken row.sessionToken
      expiresAt := column old.expiresAt new.expiresAt row.expiresAt
      consumed := column old.consumed new.consumed row.consumed }
  merge_self old new := by simp only [column_self]

instance : Columns RefreshToken where
  merge old new row :=
    { id := column old.id new.id row.id
      userId := column old.userId new.userId row.userId
      tokenHash := column old.tokenHash new.tokenHash row.tokenHash
      deviceId := column old.deviceId new.deviceId row.deviceId
      userAgent := column old.userAgent new.userAgent row.userAgent
      ip := column old.ip new.ip row.ip
      revokedAt := column old.revokedAt new.revokedAt row.revokedAt
      expiresAt := column old.expiresAt new.expiresAt row.expiresAt
      replaces := column old.replaces new.replaces row.replaces }
  merge_self old new := by simp only [column_self]

instance : Columns Wallet where
  merge old new row :=
    { userId := column old.userId new.userId row.userId
      status := column old.status new.status row.status }
  merge_self old new := by simp only [column_self]

def savedOtpSession (id : ℕ) : Saved Store Write OtpSession :=
  ⟨fun s => s.otpSessions.find? id, .otpSession⟩

def savedRefreshToken (id : ℕ) : Saved Store Write RefreshToken :=
  ⟨fun s => s.refreshTokens.find? id, .refreshToken⟩

def savedWallet (userId : ℕ) : Saved Store Write Wallet :=
  ⟨fun s => s.wallets.find? userId, .wallet⟩

end NexaStays.SessionStore
