import NexaStays.IdentityPhones

/-!
# Tokens of an account

What an access token says, the profile of the account that it is issued with, and the refresh
tokens. A refresh token is known by its row; its text and hash are left out.
-/
namespace NexaStays.AccessTokens

open NexaStays.KeyedTable NexaStays.Transactions NexaStays.PersonStore
open NexaStays.IdentityStore (AccountType StaffRole)

/-- The claims of an access token. -/
structure AccessToken where
  sub : ℕ
  unifiedIdentityId : ℕ
  accountType : AccountType
  authMethod : String
  role : Option StaffRole
  roles : List StaffRole
  av : Option ℤ
  deriving DecidableEq, Repr

structure TokenProfile where
  role : Option StaffRole
  roles : List StaffRole
  authzVersion : ℤ
  deriving DecidableEq, Repr

/-- `staffJwtClaims`: the role of a member of the staff and the list of its roles. -/
def staffJwtClaims (staffRole : StaffRole) : StaffRole × List StaffRole := (staffRole, [staffRole])

/-- The parts of the profile that a token is issued with. -/
def tokenProfile (user : User) : TokenProfile :=
  if user.accountType = some .admin then
    ⟨some (staffJwtClaims user.staffRole).1, (staffJwtClaims user.staffRole).2, user.authzVersion⟩
  else ⟨none, [], user.authzVersion⟩

def tokenProfileForUser (userId : ℕ) : Personal (Option TokenProfile) := do
  let user ← Personal.read fun s => s.users.find? userId
  match user with
  | none => pure none
  | some user => do
    let _ ← Personal.read fun s => s.kycProfiles.find? userId
    pure (some (tokenProfile user))

def isStaff (accountType : AccountType) (profile : Option TokenProfile) : Bool :=
  accountType = .admin ∨ profile.any fun p => p.role.isSome ∨ p.roles ≠ []

/-- The role in the token of a member of the staff. -/
def staffOf (profile : Option TokenProfile) : StaffRole :=
  if profile.any fun p => p.role = some .supportAgent ∨ .supportAgent ∈ p.roles then .supportAgent
  else .admin

def issueAccountScopedToken (accountId unifiedIdentityId : ℕ) (accountType : AccountType)
    (authMethod : String) (profile : Option TokenProfile) : AccessToken :=
  { sub := accountId
    unifiedIdentityId
    accountType
    authMethod
    role := if accountType = .admin then some (staffJwtClaims (staffOf profile)).1
      else profile.bind (·.role)
    roles := if accountType = .admin then (staffJwtClaims (staffOf profile)).2
      else (profile.map (·.roles)).getD []
    av := if isStaff accountType profile then some ((profile.map (·.authzVersion)).getD 1)
      else none }

def issueRefreshToken (userId : ℕ) : Personal RefreshToken := do
  let id ← Personal.insert fun id => .refreshToken ⟨id, userId, none⟩
  pure ⟨id, userId, none⟩

end NexaStays.AccessTokens
