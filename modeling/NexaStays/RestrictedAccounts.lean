import NexaStays.AccountFrame
import NexaStays.AccountGuards
import NexaStays.PhoneResolution
import NexaStays.StaffPassword

/-!
# Restricted accounts are locked out

A request of an account is refused once the account is restricted: the guard of the status
reads the row, or a state that was cached before, and the operations that restrict an account
drop that state. The guard that resolves sessions asks for no status, so a session of a number
opens the account of the number, restricted or not. The accounts are locked out as long as no
request comes with a session of a number that a restricted account is stored under, and no
restriction stops before the state is dropped.
-/
namespace NexaStays.RestrictedAccounts

open NexaStays.KeyedTable NexaStays.Transactions NexaStays.EntitySave NexaStays.Completions
open NexaStays.Sequences NexaStays.RowInvariants NexaStays.OtpLogin NexaStays.AccountFrame
open NexaStays.AccountGuards NexaStays.SessionStore
open NexaStays.PersonStore (User savedUser)
open NexaStays.IdentityStore (CacheEntry)
open NexaStays.AuthzVersion (AuthzState stateOf unknownState)
open NexaStays.LoginStore (LoginError)
open NexaStays.AccessTokens (AccessToken)
open NexaStays.PinLogin (RefreshTokenContext)
open NexaStays.PhoneChange (normalizedOrThrow)
open NexaStays.StaffLogin (StaffConfig)
open NexaStays.ProfileCache (isKycRoute isGetMe isConsentRoute)

inductive Call where
  | verifyOtp (phoneNumber otp ip : String) (ctx : RefreshTokenContext) (options : VerifyOptions)
  | refresh (refreshToken : String) (deviceId userAgent ip : Option String)
  | updateStatus (id : ℕ) (status : String)
  | freezeUser (id : ℕ)
  | request (r : Request)

inductive Answer where
  | otp (answer : OtpAnswer)
  | refreshed (answer : RefreshAnswer)
  | success
  | admitted (user : Option RequestUser)
  deriving DecidableEq, Repr

def program (config : SessionConfig) (staff : StaffConfig) : Call → Access Answer
  | .verifyOtp phoneNumber otp ip ctx options => do
    let answer ← verifyOtp config phoneNumber otp ip ctx options
    pure (.otp answer)
  | .refresh refreshToken deviceId userAgent ip => do
    let answer ← refresh config staff refreshToken deviceId userAgent ip
    pure (.refreshed answer)
  | .updateStatus id status => do
    updateStatus id status
    pure .success
  | .freezeUser id => do
    freezeUser id
    pure .success
  | .request r => do
    let user ← canActivate config r
    pure (.admitted user)

/-- A call with the store before it, and its result. -/
abbrev Entry := Turn Call Store × Except LoginError Answer

def Restricted (status : String) : Prop := status ∈ restrictedAccountStatuses

/-- The tokens that an answer hands out. -/
def Answer.tokens : Answer → List JwtPayload
  | .otp answer =>
    answer.sessionToken.toList.map .session ++ answer.accessToken.toList.map .account
  | .refreshed answer => [.account answer.accessToken]
  | _ => []

def Issued (log : List Entry) (payload : JwtPayload) : Prop :=
  ∃ entry ∈ log, ∃ answer, entry.2 = .ok answer ∧ payload ∈ answer.tokens

/-- A request with a token that was issued runs as no restricted account. -/
def LockedOut (log : List Entry) (entry : Entry) : Prop :=
  ∀ r payload expiresAt user id account, entry.1.call = .request r → r.isPublic = false →
    r.authorization = .signed payload expiresAt → Issued log payload →
    entry.2 = .ok (.admitted (some user)) → user.userId = .account id →
    entry.1.before.users.find? id = some account → ¬Restricted account.status

/-- No restricted consumer account is stored under a form of the number. -/
def NumberFree (phoneNumber : String) (s : PersonStore.Store) : Prop :=
  ∀ form, form = phoneNumber ∨ normalizedOrThrow phoneNumber = .ok form →
    ∀ u ∈ consumersByPhone form s, ¬Restricted u.status

/-- The account is restricted after the call only if it was before. -/
def Unchanged (id : ℕ) (s t : Store) : Prop :=
  ∀ before account, s.users.find? id = some before → t.users.find? id = some account →
    Restricted account.status → Restricted before.status

/-- A restriction that is carried out, or that leaves nothing behind in the cache. -/
def Settles (id : ℕ) (entry : Entry) : Prop :=
  entry.2 = .ok .success ∨ entry.1.before.authzCache.find? id = none ∨
    Unchanged id entry.1.before entry.1.after

def Clean (entry : Entry) : Prop :=
  match entry.1.call with
  | .request r => ∀ token expiresAt, r.authorization = .signed (.session token) expiresAt →
      r.isPublic = false → r.resolvesOtpSession = true →
        NumberFree token.phoneNumber entry.1.before.login.person
  | .updateStatus id status => Restricted status → Settles id entry
  | .freezeUser id => Settles id entry
  | _ => True

/-- The entry refuses its account, if that is restricted. -/
def Fits (s : Store) (e : CacheEntry) : Prop :=
  ∀ account, s.users.find? e.userId = some account → Restricted account.status →
    isRestrictedAccountStatus e.status = true

def CacheSound (s : Store) : Prop := ∀ e ∈ s.authzCache.rows, Fits s e

theorem isRestricted_of_restricted {status : String} (h : Restricted status) :
    isRestrictedAccountStatus status = true := by
  simp only [Restricted, restrictedAccountStatuses, List.mem_cons, List.not_mem_nil, or_false] at h
  obtain rfl | rfl | rfl := h <;> decide +kernel

theorem not_restricted_active : ¬Restricted "ACTIVE" := by
  simp [Restricted, restrictedAccountStatuses]

section Frame

variable (s₀ : Store)

structure Stands (s : Store) : Prop where
  person : AccountsStand s₀.login.person s.login.person
  cached : ∀ e ∈ s.authzCache.rows, Fits s₀ e

def StandsWrite : Write → Prop
  | .login (.person w) => StandingWrite s₀.login.person w
  | .cache e => Fits s₀ e
  | _ => True

variable {s₀}

theorem stands_self (h : CacheSound s₀) : Stands s₀ s₀ := ⟨accountsStand_self, h⟩

theorem stands_write (s : Store) (w : Write) (hw : StandsWrite s₀ w) (hs : Stands s₀ s) :
    Stands s₀ (Storage.write s w) := by
  cases w with
  | login w =>
    cases w with
    | person w => exact ⟨accountsStand_write hw hs.person, hs.cached⟩
    | _ => exact ⟨⟨hs.person.rows, hs.person.kept⟩, hs.cached⟩
  | cache e =>
    refine ⟨hs.person, fun e' he' => ?_⟩
    obtain rfl | ⟨he', -⟩ := Table.mem_put.mp he'
    · exact hw
    · exact hs.cached e' he'
  | uncache id => exact ⟨hs.person, fun e he => hs.cached e (Table.mem_delete.mp he).1⟩
  | _ => exact ⟨hs.person, hs.cached⟩

/-- The account as it was before. -/
theorem standing_before {s : Store} (hs : Stands s₀ s) {id : ℕ} {account : User}
    (h : s.users.find? id = some account) :
    (∃ before, s₀.users.find? id = some before ∧ SameAccount before account) ∨
      s₀.users.find? id = none ∧ account.status = "ACTIVE" := by
  have hstanding := hs.person.rows account (Table.mem_of_find? h)
  rw [Standing, Table.key_of_find? h] at hstanding
  cases hbefore : s₀.users.find? id with
  | some before =>
    rw [show s₀.login.person.users.find? id = some before from hbefore] at hstanding
    exact .inl ⟨before, rfl, hstanding⟩
  | none =>
    rw [show s₀.login.person.users.find? id = none from hbefore] at hstanding
    exact .inr ⟨rfl, hstanding.1⟩

theorem cacheSound_of_stands {s : Store} (hs : Stands s₀ s) : CacheSound s := by
  intro e he account haccount hrestricted
  obtain ⟨before, hbefore, hsame⟩ | ⟨-, hactive⟩ := standing_before hs haccount
  · exact hs.cached e he before hbefore (hsame.status ▸ hrestricted)
  · exact absurd (hactive ▸ hrestricted) not_restricted_active

theorem carries_stands : Carries (AccountsStand s₀.login.person) (StandingWrite s₀.login.person)
    (Stands s₀) (StandsWrite s₀) where
  admits := admits_standing
  person _ hs := hs.person
  write _ hw := hw
  otpAttempt _ := trivial
  trustedDevice _ := trivial
  otpSession _ := trivial
  refreshToken _ := trivial

end Frame

section Calls

variable {s₀ : Store} (config : SessionConfig) (staff : StaffConfig)

theorem upholds_identityOf {user : User} :
    Upholds (AccountsStand s₀.login.person) (StandingWrite s₀.login.person) (fun _ => True)
      (identityOf staff user) := by
  rw [identityOf.eq_def]
  split
  · exact Upholds.pure trivial
  · split
    · exact admits_standing.findOrCreateByPhone.bind fun _ _ => Upholds.pure trivial
    · split
      · exact (upholds_ensureAdminIdentity admits_standing staff).bind fun _ _ =>
          Upholds.pure trivial
      · exact Upholds.pure trivial

theorem upholds_rotationProfile {user : User} :
    Upholds (AccountsStand s₀.login.person) (StandingWrite s₀.login.person) (fun _ => True)
      (rotationProfile user) := by
  rw [rotationProfile]
  split
  · exact Upholds.pure trivial
  · exact upholds_tokenProfile.mono fun _ _ => trivial

theorem upholds_revokeAll {userId : ℕ} :
    Upholds (Stands s₀) (StandsWrite s₀) (fun _ => True) (revokeAllForUser userId) := by
  refine Upholds.receive.bind fun now _ => (Upholds.writeRows fun s _ w hw => ?_).bind fun _ _ =>
    Upholds.pure trivial
  obtain ⟨t, -, rfl⟩ := List.mem_map.mp hw
  trivial

theorem upholds_saveToken {id : ℕ} {new : IdentityStore.RefreshToken} :
    Upholds (Stands s₀) (StandsWrite s₀) (fun _ => True)
      (saveEntity (savedRefreshToken id) .database new : Access Unit) :=
  upholds_saveEntity trivial fun _ _ _ _ _ => trivial

theorem upholds_refresh {refreshToken : String} {deviceId userAgent ip : Option String} :
    Upholds (Stands s₀) (StandsWrite s₀) (fun _ => True)
      (refresh config staff refreshToken deviceId userAgent ip) := by
  refine (Upholds.findOne (Q := fun _ => True) trivial fun _ _ _ _ => trivial).bind fun found _ =>
    Upholds.expect.bind fun row _ => ?_
  split
  · exact upholds_revokeAll.bind fun _ _ => Upholds.throw
  · exact Upholds.receive.bind fun now _ => Upholds.require.bind fun _ _ =>
      Upholds.require.bind fun _ _ =>
      (Upholds.query (Q := fun _ => True) fun _ _ => trivial).bind fun read _ =>
      Upholds.expect.bind fun user _ => Upholds.receive.bind fun now _ =>
      upholds_saveToken.bind fun _ _ =>
      (upholds_issueRefreshToken config carries_stands).bind fun _ _ =>
      (carries_stands.onPerson (upholds_identityOf staff)).bind fun named _ =>
      Upholds.expect.bind fun identityId _ =>
      (carries_stands.onPerson upholds_rotationProfile).bind fun _ _ => Upholds.pure trivial

/-- The state that is answered refuses the account, if that is restricted. -/
def Refuses (s₀ : Store) (id : ℕ) (state : AuthzState) : Prop :=
  ∀ account, s₀.users.find? id = some account → Restricted account.status →
    isRestrictedAccountStatus state.status = true

theorem upholds_getAuthzState {id : ℕ} :
    Upholds (Stands s₀) (StandsWrite s₀) (Refuses s₀ id) (getAuthzState id) := by
  have hcache : Upholds (Stands s₀) (StandsWrite s₀)
      (fun cached => ∀ e, cached = some e → Refuses s₀ id (stateOf e))
      (Access.remembered fun s => s.authzCache.find? id) := by
    refine Upholds.remembered fun s hs e he => ?_
    have hfits := hs.cached e (Table.mem_of_find? he)
    rw [Fits, Table.key_of_find? he] at hfits
    exact hfits
  refine hcache.bind fun cached hcached => Upholds.receive.bind fun now _ => ?_
  cases hfresh : cached.filter fun entry => (now : ℤ) < entry.expiresAt with
  | some e => exact Upholds.pure (hcached e (Option.eq_some_of_filter_eq_some hfresh))
  | none =>
    refine Upholds.bind (Q := fun found => ∃ s, Stands s₀ s ∧ s.users.find? id = found)
      (Upholds.query fun s hs => ⟨s, hs, rfl⟩) fun found hfound => ?_
    obtain ⟨s, hs, hfound⟩ := hfound
    cases found with
    | none =>
      refine Upholds.pure fun account haccount _ => ?_
      rw [show s₀.users.find? id = none from hs.person.kept id hfound] at haccount
      cases haccount
    | some user =>
      have hrefuses : ∀ account, s₀.users.find? id = some account → Restricted account.status →
          isRestrictedAccountStatus user.status = true := by
        intro account haccount hrestricted
        obtain ⟨before, hbefore, hsame⟩ | ⟨hnone, -⟩ := standing_before hs hfound
        · rw [haccount] at hbefore
          obtain rfl := Option.some.inj hbefore
          rw [hsame.status]
          exact isRestricted_of_restricted hrestricted
        · rw [hnone] at haccount
          cases haccount
      refine Upholds.receive.bind fun now _ =>
        (Upholds.send fun s _ w hw => ?_).bind fun _ _ => Upholds.pure hrefuses
      rw [List.mem_singleton.mp hw]
      intro account haccount
      have hid : user.id = id := Table.key_of_find? hfound
      rw [show (cacheEntry user now).userId = id from hid] at haccount
      exact hrefuses account haccount

/-- The user runs as no restricted account. -/
def Unrestricted (s₀ : Store) (user : RequestUser) : Prop :=
  ∀ id account, user.userId = .account id → s₀.users.find? id = some account →
    ¬Restricted account.status

theorem upholds_accountStatusGuard {r : Request} {user : RequestUser} (hpublic : r.isPublic = false) :
    Upholds (Stands s₀) (StandsWrite s₀)
      (fun _ => user.type = none → Unrestricted s₀ user) (accountStatusGuard r (some user)) := by
  rw [accountStatusGuard]
  simp only [hpublic, Bool.false_eq_true, if_false]
  split
  next hskipped =>
    refine Upholds.pure fun hnone id account haccount => ?_
    obtain hempty | hsession := hskipped
    · rw [hempty] at haccount
      cases haccount
    · rw [hnone] at hsession
      cases hsession
  next =>
    split
    next id hid =>
      refine upholds_getAuthzState.bind fun state hstate =>
        Upholds.require.bind fun _ _ => Upholds.require.mono fun _ hpass _ id' account haccount => ?_
      rw [hid] at haccount
      obtain rfl := UserId.account.inj haccount
      intro hfound hrestricted
      rw [hstate account hfound hrestricted] at hpass
      cases hpass
    next => exact Upholds.throw

/-- A consumer account of a number under which none is restricted. -/
theorem unrestricted_of_consumer {s : PersonStore.Store} {phoneNumber form : String}
    (hs : AccountsStand s₀.login.person s) (hfree : NumberFree phoneNumber s₀.login.person)
    (hform : form = phoneNumber ∨ normalizedOrThrow phoneNumber = .ok form) {u : User}
    (hu : u ∈ consumersByPhone form s) {account : User} (haccount : s₀.users.find? u.id = some account) :
    ¬Restricted account.status := by
  obtain ⟨hmem, hconsumer⟩ := List.mem_filter.mp hu
  obtain ⟨hrow, hphone⟩ := List.mem_filter.mp hmem
  have hstanding := hs.rows u hrow
  rw [Standing, show s₀.login.person.users.find? u.id = some account from haccount] at hstanding
  refine hfree form hform account (List.mem_filter.mpr ⟨List.mem_filter.mpr
    ⟨Table.mem_of_find? haccount, ?_⟩, ?_⟩)
  · rw [← hstanding.phoneNumber]
    exact hphone
  · rw [← hstanding.accountType]
    exact hconsumer

/-- What `resolveUser` answers. -/
def Resolved (s₀ : Store) (found : Option User) : Prop :=
  ∀ u, found = some u → ∀ account, s₀.users.find? u.id = some account → ¬Restricted account.status

theorem upholds_findOrCreate {phoneNumber : String} {fullName nationality : Option String}
    (hfree : NumberFree phoneNumber s₀.login.person) :
    Upholds (AccountsStand s₀.login.person) (StandingWrite s₀.login.person)
      (fun u => Resolved s₀ (some u)) (findOrCreateForKyc config phoneNumber fullName nationality) := by
  refine (admits_standing.findOrCreateForKyc config).mono fun u hu v hv account haccount => ?_
  obtain rfl := Option.some.inj hv
  obtain ⟨norm, s, hnorm, hs, hmem⟩ | ⟨norm, hash, now, id, ⟨s, hs, hid⟩, rfl⟩ := hu
  · exact unrestricted_of_consumer hs hfree (.inr hnorm) hmem haccount
  · have hnone : s₀.users.find? id = none := hs.kept id hid
    have hfound : s₀.users.find? id = some account := haccount
    rw [hnone] at hfound
    cases hfound

theorem upholds_found {phoneNumber : String} (hfree : NumberFree phoneNumber s₀.login.person) :
    Upholds (AccountsStand s₀.login.person) (StandingWrite s₀.login.person) (Resolved s₀)
      (findForKyc phoneNumber) :=
  upholds_findForKyc.mono fun _ hfound u hu account haccount => by
    obtain ⟨s, hs, hmem⟩ := hfound u hu
    exact unrestricted_of_consumer hs hfree (.inl rfl) hmem haccount

theorem upholds_resolveUser {r : Request} {phoneNumber : String}
    (hfree : NumberFree phoneNumber s₀.login.person) :
    Upholds (AccountsStand s₀.login.person) (StandingWrite s₀.login.person) (Resolved s₀)
      (resolveUser config r phoneNumber) := by
  rw [resolveUser]
  split
  · exact (upholds_findOrCreate config hfree).bind fun u hu => Upholds.pure hu
  · split
    · refine (upholds_found hfree).bind fun found hfound => ?_
      cases found with
      | some u => exact Upholds.pure hfound
      | none => exact (upholds_findOrCreate config hfree).bind fun u hu => Upholds.pure hu
    · exact upholds_found hfree

theorem upholds_resolveSession {r : Request} {token : SessionToken}
    (hfree : NumberFree token.phoneNumber s₀.login.person) :
    Upholds (Stands s₀) (StandsWrite s₀) (Unrestricted s₀)
      (resolveSession config r (validate (.session token))) := by
  have hsession : Unrestricted s₀ (validate (.session token)) := fun id account h => nomatch h
  rw [resolveSession]
  split
  · split
    · exact Upholds.throw
    · exact Upholds.pure hsession
  · refine (carries_stands.onPerson (upholds_resolveUser config hfree)).bind fun resolved hresolved => ?_
    cases resolved with
    | some account =>
      refine Upholds.pure fun id account' hid haccount => ?_
      obtain rfl := UserId.account.inj hid
      exact hresolved account rfl account' haccount
    | none =>
      simp only
      split
      · exact Upholds.pure fun id account h => nomatch h
      · exact Upholds.throw

/-- What the guards let through. -/
def Admitted (s₀ : Store) (r : Request) (user : Option RequestUser) : Prop :=
  r.isPublic = false → ∀ u, user = some u → Unrestricted s₀ u

/-- No session of the request names a restricted account. -/
def SessionFree (s₀ : Store) (r : Request) : Prop :=
  ∀ token expiresAt, r.authorization = .signed (.session token) expiresAt →
    r.isPublic = false → r.resolvesOtpSession = true → NumberFree token.phoneNumber s₀.login.person

theorem upholds_jwtAuthGuard {r : Request} :
    Upholds (Stands s₀) (StandsWrite s₀)
      (fun user => r.isPublic = true ∧ user = none ∨ r.isPublic = false ∧
        ∃ payload expiresAt, r.authorization = .signed payload expiresAt ∧
          user = some (validate payload)) (jwtAuthGuard r) := by
  rw [jwtAuthGuard]
  by_cases hpublic : r.isPublic = true
  · rw [if_pos hpublic]
    exact Upholds.pure (.inl ⟨hpublic, rfl⟩)
  · rw [if_neg hpublic]
    split
    · exact Upholds.throw
    · exact Upholds.throw
    · exact Upholds.throw
    next payload expiresAt hsigned =>
      exact Upholds.receive.bind fun _ _ => Upholds.require.bind fun _ _ =>
        Upholds.pure (.inr ⟨Bool.not_eq_true _ ▸ hpublic, payload, expiresAt, hsigned, rfl⟩)

theorem upholds_canActivate {r : Request} (hfree : SessionFree s₀ r) :
    Upholds (Stands s₀) (StandsWrite s₀) (Admitted s₀ r) (canActivate config r) := by
  refine upholds_jwtAuthGuard.bind fun user huser => ?_
  obtain ⟨hpublic, rfl⟩ | ⟨hpublic, payload, expiresAt, hsigned, rfl⟩ := huser
  · have hnone : Admitted s₀ r none := fun h => by
      rw [hpublic] at h
      cases h
    have hguard : accountStatusGuard r none = pure () := by
      rw [accountStatusGuard, if_pos hpublic]
    rw [hguard]
    refine (Upholds.pure (Q := fun _ => True) trivial).bind fun _ _ => ?_
    split <;> exact Upholds.pure hnone
  · refine (upholds_accountStatusGuard hpublic).bind fun _ hguard => ?_
    cases payload with
    | account token =>
      have hadmitted : Admitted s₀ r (some (validate (.account token))) := by
        intro _ u hu
        rw [← Option.some.inj hu]
        exact hguard rfl
      split <;> exact Upholds.pure hadmitted
    | session token =>
      split
      next hresolves =>
        refine (upholds_resolveSession config (hfree token expiresAt hsigned hpublic hresolves)).bind
          fun user huser => Upholds.pure fun _ u hu => ?_
        rw [← Option.some.inj hu]
        exact huser
      next =>
        refine Upholds.pure fun _ u hu => ?_
        rw [← Option.some.inj hu]
        exact fun id account h => nomatch h

end Calls

section Changes

variable (s₀ : Store) (exempt : ℕ → Prop)

/-- A row of an account that was there, restricted only if it was or may be. -/
def Derived (u : User) : Prop :=
  ∃ before, s₀.users.find? u.id = some before ∧
    (¬exempt u.id → Restricted u.status → Restricted before.status)

/-- The statuses of the accounts that are not exempt, and nothing new in the cache. -/
structure StatusKept (s : Store) : Prop where
  rows : ∀ u ∈ s.users.rows, Derived s₀ exempt u
  cached : ∀ e ∈ s.authzCache.rows, e ∈ s₀.authzCache.rows

def StatusWrite : Write → Prop
  | .login (.person (.user u)) => Derived s₀ exempt u
  | .cache _ => False
  | _ => True

variable {s₀ exempt}

theorem statusKept_self : StatusKept s₀ exempt s₀ :=
  ⟨fun u hu => ⟨u, Table.find?_key hu, fun _ h => h⟩, fun _ he => he⟩

theorem statusKept_write (s : Store) (w : Write) (hw : StatusWrite s₀ exempt w)
    (hs : StatusKept s₀ exempt s) : StatusKept s₀ exempt (Storage.write s w) := by
  cases w with
  | login w =>
    cases w with
    | person w =>
      cases w with
      | user u =>
        refine ⟨fun v hv => ?_, hs.cached⟩
        obtain rfl | ⟨hv, -⟩ := Table.mem_put.mp hv
        · exact hw
        · exact hs.rows v hv
      | _ => exact ⟨hs.rows, hs.cached⟩
    | _ => exact ⟨hs.rows, hs.cached⟩
  | cache e => exact hw.elim
  | uncache id => exact ⟨hs.rows, fun e he => hs.cached e (Table.mem_delete.mp he).1⟩
  | _ => exact ⟨hs.rows, hs.cached⟩

/-- The cache stays sound where it has nothing of an exempt account. -/
theorem cacheSound_of_kept {s : Store} (hsound : CacheSound s₀) (hs : StatusKept s₀ exempt s)
    (hexempt : ∀ e ∈ s.authzCache.rows, exempt e.userId → Unchanged e.userId s₀ s) :
    CacheSound s := by
  intro e he account haccount hrestricted
  obtain ⟨before, hbefore, hstatus⟩ := hs.rows account (Table.mem_of_find? haccount)
  rw [Table.key_of_find? haccount] at hbefore hstatus
  by_cases h : exempt e.userId
  · exact hsound e (hs.cached e he) before hbefore
      (hexempt e he h before account hbefore haccount hrestricted)
  · exact hsound e (hs.cached e he) before hbefore (hstatus h hrestricted)

variable {id : ℕ} {status : String}

theorem derived_of_status {s : Store} (hs : StatusKept s₀ exempt s) {row u : User}
    (hrow : s.users.find? id = some row) (hid : u.id = id)
    (hstatus : u.status = row.status ∨ u.status = status)
    (hexempt : Restricted status → exempt id) : Derived s₀ exempt u := by
  obtain ⟨before, hbefore, hkept⟩ := hs.rows row (Table.mem_of_find? hrow)
  rw [Table.key_of_find? hrow] at hbefore hkept
  refine ⟨before, hid ▸ hbefore, fun hnot hrestricted => ?_⟩
  rw [hid] at hnot
  obtain h | h := hstatus
  · exact hkept hnot (h ▸ hrestricted)
  · exact absurd (hexempt (h ▸ hrestricted)) hnot

/-- The same on the tables of a person. -/
def personI (I : Store → Prop) (s : PersonStore.Store) : Prop := ∃ t, I t ∧ t.login.person = s

def personW (W : Write → Prop) (w : PersonStore.Write) : Prop := W (.login (.person w))

theorem upholds_onPerson {I : Store → Prop} {W : Write → Prop} {α : Type} {Q : α → Prop}
    {p : PersonStore.Personal α} (h : Upholds (personI I) (personW W) Q p) :
    Upholds I W Q (Access.onPerson p) := by
  refine upholds_within logins (I := loginI I) (W := loginW W) (fun s hs => ⟨s, hs, rfl⟩)
    (fun _ hw => hw) ?_
  refine upholds_within LoginStore.personal (fun s hs => ?_) (fun _ hw => hw) h
  obtain ⟨t, ht, rfl⟩ := hs
  exact ⟨t, ht, rfl⟩

theorem upholds_saveStatus (hexempt : Restricted status → exempt id) :
    Upholds (StatusKept s₀ exempt) (StatusWrite s₀ exempt) (fun _ => True) (saveStatus id status) := by
  refine Upholds.bind (Q := fun found => ∃ s, StatusKept s₀ exempt s ∧ s.users.find? id = found)
    (Upholds.query fun s hs => ⟨s, hs, rfl⟩) fun found hfound => Upholds.expect.bind fun user huser => ?_
  obtain ⟨s, hs, hfound⟩ := hfound
  rw [huser] at hfound
  have hid : user.id = id := Table.key_of_find? hfound
  refine upholds_onPerson (upholds_saveEntity ?_ fun t row old ht hrow => ?_)
  · exact derived_of_status hs hfound hid (.inr rfl) hexempt
  · obtain ⟨t, ht, rfl⟩ := ht
    have hrowid : row.id = id := Table.key_of_find? hrow
    refine derived_of_status ht hrow ?_ ?_ hexempt
    · simp only [Columns.merge, column]
      split
      · exact hrowid
      · exact hid
    · simp only [Columns.merge, column]
      split
      · exact .inl rfl
      · exact .inr rfl

theorem upholds_bump : Upholds (StatusKept s₀ exempt) (StatusWrite s₀ exempt) (fun _ => True)
    (bump id) := by
  refine (upholds_onPerson (Q := fun _ => True) ((Upholds.writeRows fun s hs w hw => ?_).bind
    fun _ _ => Upholds.pure trivial)).bind fun _ _ => (Upholds.send fun s _ w hw => ?_).bind
    fun _ _ => (Upholds.query (Q := fun _ => True) fun _ _ => trivial).bind fun _ _ =>
      Upholds.pure trivial
  · obtain ⟨t, ht, rfl⟩ := hs
    obtain ⟨u, hu, rfl⟩ := List.mem_map.mp hw
    exact ht.rows u (Table.mem_of_find? (Option.mem_toList.mp hu))
  · rw [List.mem_singleton.mp hw]
    trivial

theorem upholds_updateStatus (hexempt : Restricted status → exempt id) :
    Upholds (StatusKept s₀ exempt) (StatusWrite s₀ exempt) (fun _ => True)
      (updateStatus id status) := by
  refine (upholds_saveStatus hexempt).bind fun _ _ => ?_
  split
  · exact upholds_bump.bind fun _ _ => Upholds.query fun _ _ => trivial
  · exact Upholds.query fun _ _ => trivial

theorem upholds_lockWallet {I : Store → Prop} {W : Write → Prop} (hwallet : ∀ row, W (.wallet row)) :
    Upholds I W (fun _ => True) (lockWallet id) := by
  refine (Upholds.query (Q := fun _ => True) fun _ _ => trivial).bind fun wallet _ => ?_
  cases wallet with
  | none => exact Upholds.pure trivial
  | some wallet => exact upholds_saveEntity (hwallet _) fun _ _ _ _ _ => hwallet _

theorem upholds_freezeUser (hexempt : exempt id) :
    Upholds (StatusKept s₀ exempt) (StatusWrite s₀ exempt) (fun _ => True) (freezeUser id) :=
  (upholds_saveStatus fun _ => hexempt).bind fun _ _ => upholds_bump.bind fun _ _ =>
    (upholds_lockWallet fun _ => trivial).bind fun _ _ => Upholds.query fun _ _ => trivial

end Changes

section Drops

/-- A write that adds nothing to the cache. -/
def NoEntry (w : Write) : Prop := ∀ e, w ≠ .cache e

def Dropped (id : ℕ) (s : Store) : Prop := s.authzCache.find? id = none

theorem dropped_write {id : ℕ} (s : Store) (w : Write) (hw : NoEntry w) (hs : Dropped id s) :
    Dropped id (Storage.write s w) := by
  cases w with
  | cache e => exact absurd rfl (hw e)
  | uncache other =>
    simp only [Dropped, storage_write, Store.write, Table.find?_delete]
    split
    · rfl
    · exact hs
  | _ => exact hs

variable {id : ℕ} {status : String} {I : Store → Prop} {α : Type} {s : Store}
  {ses : Session Key Write}

/-- What the calls have written and will write adds nothing to the cache. -/
def Quiet (I : Store → Prop) (ses : Session Key Write) (s : Store) : Prop :=
  (∀ w ∈ ses.pending, NoEntry w) ∧ I s

theorem quiet_of_upholds {p : Access α} (hI : ∀ s w, NoEntry w → I s → I (Storage.write s w))
    (h : Upholds I NoEntry (fun _ => True) p) (hs : Quiet I ses s) :
    MustEnd (Value fun _ => Quiet I) p ses s :=
  (mustEnd_of_upholds hI h hs.1 hs.2).mono fun _ _ _ hr _ _ => hr.2

theorem upholds_person {p : PersonStore.Personal α} :
    Upholds I NoEntry (fun _ => True) (Access.onPerson p) :=
  upholds_onPerson (upholds_any (fun _ _ h => nomatch h) p)

theorem quiet_saveStatus : MustEnd (Value fun _ => Quiet fun _ => True)
    (saveStatus id status) .idle s := by
  refine quiet_of_upholds (fun _ _ _ _ => trivial) ?_ ⟨by simp [Session.idle], trivial⟩
  exact (Upholds.query (Q := fun _ => True) fun _ _ => trivial).bind fun _ _ =>
    Upholds.expect.bind fun _ _ => upholds_person

theorem quiet_bump (hs : Quiet (fun _ => True) ses s) :
    MustEnd (Value fun _ => Quiet (Dropped id)) (bump id) ses s := by
  have hincrement : MustEnd (Value fun _ => Quiet fun _ => True)
      (Access.onPerson (incrementVersion id)) ses s :=
    quiet_of_upholds (fun _ _ _ _ => trivial) upholds_person hs
  refine hincrement.bind fun _ ses s hs => ?_
  have hinvalidate : MustEnd (Value fun _ => Quiet (Dropped id)) (invalidate id) ses s := by
    intro _ _
    refine ⟨hs.1, ?_⟩
    simp [Dropped, publish, Store.write]
  refine hinvalidate.bind fun _ ses s hs => quiet_of_upholds dropped_write ?_ hs
  exact (Upholds.query (Q := fun _ => True) fun _ _ => trivial).bind fun _ _ => Upholds.pure trivial

theorem dropped_updateStatus (hrestricted : Restricted status) :
    MustEnd (Value fun _ _ t => Dropped id t) (updateStatus id status) .idle s := by
  have hbumps : status = "FROZEN" ∨ status = "SUSPENDED" ∨ status = "BANNED" := by
    simp only [Restricted, restrictedAccountStatuses, List.mem_cons, List.not_mem_nil,
      or_false] at hrestricted
    tauto
  refine quiet_saveStatus.bind fun _ ses s hs => ?_
  rw [if_pos hbumps]
  refine (quiet_bump hs).bind fun _ ses s hs => ?_
  exact (quiet_of_upholds dropped_write (Upholds.query fun _ _ => trivial) hs).mono
    fun _ _ _ h a ha => (h a ha).2

theorem dropped_freezeUser : MustEnd (Value fun _ _ t => Dropped id t) (freezeUser id) .idle s := by
  refine quiet_saveStatus.bind fun _ ses s hs => (quiet_bump hs).bind fun _ ses s hs => ?_
  refine MustEnd.bind (P := fun _ => Quiet (Dropped id)) (quiet_of_upholds dropped_write
    (upholds_lockWallet fun _ _ h => nomatch h) hs) fun _ ses s hs => ?_
  exact (quiet_of_upholds dropped_write (Upholds.query fun _ _ => trivial) hs).mono
    fun _ _ _ h a ha => (h a ha).2

end Drops

section Runs

variable {config : SessionConfig} {staff : StaffConfig}

theorem sound_of_upholds {s : Store} {α : Type} {Q : α → Prop} {p : Access α} {k : α → Answer}
    (hs : CacheSound s) (h : Upholds (Stands s) (StandsWrite s) Q p) :
    MustEnd (fun r _ t => (∀ answer, r = .ok answer → ∃ a, Q a ∧ answer = k a) ∧ CacheSound t)
      (p >>= fun a => pure (k a)) .idle s := by
  have hbind : Upholds (Stands s) (StandsWrite s) (fun answer => ∃ a, Q a ∧ answer = k a)
      (p >>= fun a => pure (k a)) := h.bind fun a ha => Upholds.pure ⟨a, ha, rfl⟩
  exact (idle_of_upholds stands_write hbind (stands_self hs)).mono
    fun _ _ _ hr => ⟨hr.1, cacheSound_of_stands hr.2⟩

/-- A change of the status keeps the cache sound. -/
theorem sound_of_change {s t : Store} {id : ℕ} {call : Call} {r : Except LoginError Answer}
    {p : Access Unit} (hs : CacheSound s)
    (h : Upholds (StatusKept s (· = id)) (StatusWrite s (· = id)) (fun _ => True) p)
    (hdropped : MustEnd (Value fun _ _ t => Dropped id t) p .idle s)
    (hsettles : Settles id (⟨call, s, t⟩, r)) :
    MustEnd (fun r' _ t' => r' = r → t' = t → CacheSound t')
      (p >>= fun _ => pure .success) .idle s := by
  have hkept := idle_of_upholds statusKept_write h statusKept_self
  refine MustEnd.handle (hkept.and hdropped) (fun _ ses u hu => ?_) fun e ses u hu => ?_
  · intro _ _
    refine cacheSound_of_kept hs hu.1.2 fun e he hid => ?_
    have hnone : u.authzCache.find? id = none := hu.2 () rfl
    rw [← hid, Table.find?_key he] at hnone
    cases hnone
  · intro hr ht
    refine cacheSound_of_kept hs hu.1.2 fun e' he hid => ?_
    obtain hok | hcache | hunchanged := hsettles
    · rw [← hr] at hok
      cases hok
    · have hnone : s.authzCache.find? id = none := hcache
      rw [← hid, Table.find?_key (hu.1.2.cached e' he)] at hnone
      cases hnone
    · rw [hid, ht]
      exact hunchanged

/-- What a call leaves in the cache, and whom it lets through. -/
theorem step {call : Call} {s t : Store} {r : Except LoginError Answer} (hs : CacheSound s)
    (hclean : Clean (⟨call, s, t⟩, r)) :
    MustEnd (fun r' _ t' => r' = r → t' = t →
        CacheSound t' ∧ ∀ log, LockedOut log (⟨call, s, t⟩, r))
      (program config staff call) .idle s := by
  cases call with
  | verifyOtp phoneNumber otp ip ctx options =>
    refine (sound_of_upholds hs (upholds_verifyOtp config carries_stands)).mono
      fun _ _ _ h _ _ => ⟨h.2, fun log request _ _ _ _ _ hcall => nomatch hcall⟩
  | refresh refreshToken deviceId userAgent ip =>
    refine (sound_of_upholds hs (upholds_refresh config staff)).mono
      fun _ _ _ h _ _ => ⟨h.2, fun log request _ _ _ _ _ hcall => nomatch hcall⟩
  | updateStatus id status =>
    have hlocked : ∀ log, LockedOut log (⟨.updateStatus id status, s, t⟩, r) :=
      fun log request _ _ _ _ _ hcall => nomatch hcall
    by_cases hrestricted : Restricted status
    · exact (sound_of_change hs (upholds_updateStatus fun _ => rfl)
        (dropped_updateStatus hrestricted) (hclean hrestricted)).mono
        fun _ _ _ h hr ht => ⟨h hr ht, hlocked⟩
    · have hkept : Upholds (StatusKept s fun _ => False) (StatusWrite s fun _ => False)
          (fun _ => True) (updateStatus id status) :=
        upholds_updateStatus fun h => absurd h hrestricted
      have hupdate := idle_of_upholds statusKept_write hkept statusKept_self
      exact MustEnd.handle hupdate
        (fun _ _ _ h _ _ => ⟨cacheSound_of_kept hs h.2 fun _ _ hfalse => hfalse.elim, hlocked⟩)
        fun _ _ _ h _ _ => ⟨cacheSound_of_kept hs h.2 fun _ _ hfalse => hfalse.elim, hlocked⟩
  | freezeUser id =>
    exact (sound_of_change hs (upholds_freezeUser rfl) dropped_freezeUser hclean).mono
      fun _ _ _ h hr ht => ⟨h hr ht, fun log request _ _ _ _ _ hcall => nomatch hcall⟩
  | request request =>
    refine (sound_of_upholds hs (upholds_canActivate config hclean)).mono
      fun _ _ _ h hr _ => ⟨h.2, ?_⟩
    intro log request' payload expiresAt user id account hcall hpublic _ _ hanswer huser haccount
    obtain rfl := Call.request.inj hcall
    obtain ⟨admitted, hadmitted, heq⟩ := h.1 _ (hr.trans hanswer)
    obtain rfl := Answer.admitted.inj heq
    exact hadmitted hpublic user rfl id account huser haccount

/-- A sequence of calls on one process, each to its end. -/
theorem restricted_locked_out {s t : Store} {log : List Entry}
    (hlog : Log (program config staff) s log t) (hs : ∀ id, s.authzCache.find? id = none)
    (hclean : Always (fun _ => Clean) log) : Always LockedOut log := by
  have hempty : CacheSound s := by
    intro e he
    have hfound := Table.find?_key he
    rw [hs] at hfound
    cases hfound
  refine (hlog.always (I := fun _ => CacheSound) hempty hclean fun log call s r t hok hsound h => ?_).2
  obtain ⟨sys, thread, hrun, hthread, hresult, rfl⟩ := h
  obtain ⟨ses, hend⟩ := result_of_run (step hsound hok) hrun hthread hresult
  obtain ⟨hsound', hlocked⟩ := hend rfl rfl
  exact ⟨hsound', hlocked log⟩

end Runs

section Sample

def sampleHashes : Secrets.Hashes :=
  { argon2Hash := fun _ text => "$argon2id$" ++ text
    argon2Verify := fun hash text => hash = "$argon2id$" ++ text
    argon2NeedsRehash := fun _ => false
    bcryptCompare := fun _ _ => false }

def sampleSessions : SessionConfig :=
  { otp := PhoneChange.sampleConfig
    hashes := sampleHashes
    refreshTokenPepper := "pepper"
    refreshTokenExpiresIn := 2592000 }

def sampleProgram : Call → Access Answer := program sampleSessions StaffPassword.sampleConfig

/-- An account with its identity, and a code that was sent to its number. -/
def codeSent : Store := .of (PhoneResolution.person "+212600000001")

def login : Call := .verifyOtp "+212600000001" "111111" "0.0.0.0" ⟨none, none⟩ ⟨none, none⟩

/-- A request of the verification, which resolves the session. -/
def submission (payload : JwtPayload) : Call :=
  .request
    { isPublic := false
      resolvesOtpSession := true
      authorization := .signed payload 7200000
      path := "/api/v1/kyc/submit".toList
      fullName := none
      nationality := none }

/-- The store after a call of `n` statements. -/
def left (s : Store) (call : Call) (n : ℕ) : Store :=
  (Phases.after (solo call s (sampleProgram call)) (System.turns 0 0 n)).store

def sessionToken : SessionToken := ⟨"31", "+212600000001", .identitySession, 1⟩

def accessToken : AccessToken := ⟨1, 1, .consumer, "otp_pin", none, [], none⟩

def loginAnswer : OtpAnswer :=
  { verified := true
    sessionToken := some sessionToken
    accounts := [(1, .consumer)]
    account := some (1, .consumer)
    onboarding := some ⟨false, .approved, none⟩
    accessToken := some accessToken
    refreshToken := some "36" }

/-- The account of the session. -/
def sessionUser : RequestUser := ⟨.account 1, some .identitySession, some "+212600000001"⟩

theorem log_login : Log sampleProgram codeSent
    [(⟨login, codeSent, left codeSent login 39⟩, .ok (.otp loginAnswer))] (left codeSent login 39) :=
  Log.nil.call login 39 (by decide +kernel) (by decide +kernel)

theorem nothing_cached (id : ℕ) : codeSent.authzCache.find? id = none := rfl

/-- The access token opens the account until it is frozen. -/
theorem locked_out_frozen : ∃ log t, Log sampleProgram codeSent log t ∧ log.length = 4 ∧
    Always LockedOut log := by
  have hlog := ((log_login.call (submission (.account accessToken)) 6
    (r := .ok (.admitted (some (validate (.account accessToken))))) (by decide +kernel)
    (by decide +kernel)).call (.freezeUser 1) 8 (r := .ok .success) (by decide +kernel)
    (by decide +kernel)).call (submission (.account accessToken)) 6 (r := .error accessRevoked)
    (by decide +kernel) (by decide +kernel)
  refine ⟨_, _, hlog, rfl, restricted_locked_out hlog nothing_cached ?_⟩
  have hlogin : Clean (⟨login, codeSent, left codeSent login 39⟩, .ok (.otp loginAnswer)) := trivial
  have hrequest : ∀ {s t : Store} {r : Except LoginError Answer},
      Clean (⟨submission (.account accessToken), s, t⟩, r) := fun token _ h => nomatch h
  exact always_snoc.mpr ⟨always_snoc.mpr ⟨always_snoc.mpr ⟨always_snoc.mpr
    ⟨always_nil, hlogin⟩, hrequest⟩, .inl rfl⟩, hrequest⟩

/-- The session of the number opens the account that is frozen. -/
theorem frozen_account_admitted : ∃ log t, Log sampleProgram codeSent log t ∧
    (∀ id, codeSent.authzCache.find? id = none) ∧ ¬Always LockedOut log := by
  have hlog := (log_login.call (.freezeUser 1) 8 (r := .ok .success) (by decide +kernel)
    (by decide +kernel)).call (submission (.session sessionToken)) 3
    (r := .ok (.admitted (some sessionUser))) (by decide +kernel) (by decide +kernel)
  refine ⟨_, _, hlog, nothing_cached, fun hlocked => ?_⟩
  have hfrozen : (left (left codeSent login 39) (.freezeUser 1) 8).users.find? 1 =
      some { SharedProfile.account 1 .consumer "VERIFIED" with status := "FROZEN", authzVersion := 2 } := by
    decide +kernel
  refine (always_snoc.mp hlocked).2 _ (.session sessionToken) 7200000 sessionUser 1 _ rfl rfl rfl
    ⟨_, List.mem_append_left _ (List.mem_singleton.mpr rfl), .otp loginAnswer, rfl, ?_⟩ rfl rfl
    hfrozen ?_
  · exact List.mem_cons_self
  · simp [Restricted, restrictedAccountStatuses]

end Sample

end NexaStays.RestrictedAccounts
