import NexaStays.AccountGuards
import NexaStays.Correspondences

/-!
# Services on two tables of accounts

The authorization version, the lookups by phone number and the keys of cached profiles read tables
that have the columns they need; the logins and the guards work on the tables of a person. A
service that stands on both does the same on both.
-/
namespace NexaStays.AccountTables

open NexaStays.KeyedTable NexaStays.Transactions NexaStays.Completions NexaStays.Embedding
open NexaStays.Correspondences NexaStays.RowOrder NexaStays.IdentityPhones
open NexaStays.IdentityStore (Identity IdentityError AccountType)
open NexaStays.PersonStore (Personal PersonError)
open NexaStays.LoginStore (Login LoginError)
open NexaStays.SessionStore (Access)
open NexaStays.AuthzVersion (AuthzCall AuthzAnswer)
open NexaStays.PhoneNumbers (phoneLookupCandidates trimmed)
open NexaStays.ProfileCache (FindOrCreateForKyc GuardError idText isKycRoute isGetMe isConsentRoute)
open NexaStays.OtpLogin (SessionConfig)

/-- The columns of an account that both tables have. -/
def account (u : PersonStore.User) : IdentityStore.User :=
  { id := u.id
    phoneNumber := u.phoneNumber
    unifiedIdentityId := u.unifiedIdentityId
    accountType := u.accountType
    staffRole := u.staffRole
    pinHash := u.pinHash
    status := u.status
    authzVersion := u.authzVersion
    lastLoginAt := u.lastLoginAt }

structure SameAccounts (s : IdentityStore.Store) (t : SessionStore.Store) : Prop where
  users : s.users.rows = t.users.rows.map account
  cache : s.authzCache = t.authzCache

inductive SameWrite : IdentityStore.Write → SessionStore.Write → Prop where
  | user (u : PersonStore.User) : SameWrite (.user (account u)) (.login (.person (.user u)))
  | cache (entry : IdentityStore.CacheEntry) : SameWrite (.cache entry) (.cache entry)
  | uncache (userId : ℕ) : SameWrite (.uncache userId) (.uncache userId)

section Accounts

variable {s : IdentityStore.Store} {t : SessionStore.Store}

theorem find?_account (h : s.users.rows = t.users.rows.map account) (id : ℕ) :
    s.users.find? id = (t.users.find? id).map account :=
  Table.find?_map (fun _ => rfl) h id

end Accounts

/-- The tables with the accounts and the cache of a process. -/
def accounts : Correspondence IdentityStore.Store SessionStore.Store IdentityStore.Key
    SessionStore.Key IdentityStore.Write SessionStore.Write IdentityError LoginError where
  store := SameAccounts
  write := SameWrite
  error e e' := e = .database ∧ e' = .database
  store_write := by
    rintro s t w w' ⟨husers, hcache⟩ (u | entry | userId)
    · exact ⟨Table.rows_put_map (fun _ => rfl) husers u, hcache⟩
    · exact ⟨husers, congrArg (Table.put · entry) hcache⟩
    · exact ⟨husers, congrArg (Table.delete · userId) hcache⟩
  present_keyOf := by
    rintro s t w w' ⟨husers, hcache⟩ (u | entry | userId)
    · have hfind := find?_account husers u.id
      exact (congrArg Option.isSome hfind).trans Option.isSome_map
    · exact congrArg (fun c => (Table.find? c entry.userId).isSome) hcache
    · exact congrArg (fun c => (Table.find? c userId).isSome) hcache

theorem invalidate_corresponds (userId : ℕ) : Corresponds accounts (fun _ _ => True)
    (AuthzVersion.invalidate userId) (AccountGuards.invalidate userId) :=
  .send (fun _ _ _ => .cons (.uncache userId) .nil) fun _ _ _ => trivial

theorem incrementVersion_corresponds (userId : ℕ) : Corresponds accounts (fun _ _ => True)
    (Identity.update (AuthzVersion.incrementVersion userId))
    (Access.onPerson (AccountGuards.incrementVersion userId)) := by
  refine .update (fun s t h => ?_) (fun _ _ _ => .pure trivial) (.throw ⟨rfl, rfl⟩)
  rw [AuthzVersion.incrementVersion, find?_account h.users]
  show List.Forall₂ SameWrite _ ((((t.users.find? userId).toList.map _).map _).map _)
  cases t.users.find? userId with
  | none => exact .nil
  | some u => exact .cons (.user { u with authzVersion := u.authzVersion + 1 }) .nil

theorem bump_corresponds (userId : ℕ) :
    Corresponds accounts Eq (AuthzVersion.bump userId) (AccountGuards.bump userId) := by
  refine (incrementVersion_corresponds userId).bind fun _ _ _ => ?_
  refine (invalidate_corresponds userId).bind fun _ _ _ => ?_
  refine (Corresponds.query (c := accounts) (V := fun a b => a = b.map account) ⟨rfl, rfl⟩
    fun s t h => find?_account h.users userId).bind ?_
  rintro _ row rfl
  cases row with
  | none => exact .pure rfl
  | some u => exact .pure rfl

theorem getAuthzState_corresponds (userId : ℕ) :
    Corresponds accounts Eq (AuthzVersion.getAuthzState userId)
      (AccountGuards.getAuthzState userId) := by
  refine (Corresponds.send (c := accounts) (V := Eq) (fun _ _ _ => .nil) fun s t h =>
    congrArg (Table.find? · userId) h.cache).bind ?_
  rintro cached _ rfl
  refine Corresponds.receive.bind ?_
  rintro now _ rfl
  cases cached.filter fun entry => (now : ℤ) < entry.expiresAt with
  | some entry => exact .pure rfl
  | none =>
    refine (Corresponds.query (c := accounts)
      (V := fun a b => a = b.map account ∧ ∀ u ∈ b, u.id = userId) ⟨rfl, rfl⟩ fun s t h =>
        ⟨find?_account h.users userId, fun u hu => Table.key_of_find? (t := t.users) hu⟩).bind ?_
    rintro _ (_ | u) ⟨rfl, hid⟩
    · exact .pure rfl
    · obtain rfl := hid u rfl
      refine Corresponds.receive.bind ?_
      rintro now _ rfl
      exact (Corresponds.send (c := accounts) (V := fun _ _ => True)
        (fun _ _ _ => .cons (.cache _) .nil) fun _ _ _ => trivial).bind fun _ _ _ => .pure rfl

/-- The two calls, on the tables of the sessions. -/
def onSessions : AuthzCall → Access AuthzAnswer
  | .bump userId => .version <$> AccountGuards.bump userId
  | .getAuthzState userId => .state <$> AccountGuards.getAuthzState userId

/-- What is so of every end of a call is so where the guards make it. -/
theorem mustEnd_onSessions {call : AuthzCall} {s : IdentityStore.Store} {t : SessionStore.Store}
    {Q : Except IdentityError AuthzAnswer → Session IdentityStore.Key IdentityStore.Write →
      IdentityStore.Store → Prop}
    (h : SameAccounts s t) (hend : MustEnd Q call.program .idle s) :
    MustEnd (Follows accounts Eq Q) (onSessions call) .idle t := by
  refine Corresponds.mustEnd ?_ h Paired.idle hend
  cases call with
  | bump userId => exact (bump_corresponds userId).bind fun _ _ hv => .pure (congrArg _ hv)
  | getAuthzState userId =>
    exact (getAuthzState_corresponds userId).bind fun _ _ hv => .pure (congrArg _ hv)

/-- The columns of a token that both tables have. -/
def token (r : IdentityStore.RefreshToken) : PersonStore.RefreshToken :=
  ⟨r.id, r.userId, r.revokedAt⟩

inductive SameToken : PersonStore.Write → SessionStore.Write → Prop where
  | refreshToken {row : PersonStore.RefreshToken} {r : IdentityStore.RefreshToken}
    (columns : row = token r) : SameToken (.refreshToken row) (.refreshToken r)

/-- The tables with the refresh tokens. -/
def tokens : Correspondence PersonStore.Store SessionStore.Store PersonStore.Key SessionStore.Key
    PersonStore.Write SessionStore.Write PersonError LoginError where
  store s t := s.refreshTokens.rows = t.refreshTokens.rows.map token
  write := SameToken
  error e e' := e = .database ∧ e' = .database
  store_write := by
    rintro s t w w' h (@⟨_, r, rfl⟩)
    exact Table.rows_put_map (fun _ => rfl) h r
  present_keyOf := by
    rintro s t w w' h (@⟨_, r, rfl⟩)
    have hfind : s.refreshTokens.find? r.id = (t.refreshTokens.find? r.id).map token :=
      Table.find?_map (fun _ => rfl) h r.id
    exact (congrArg Option.isSome hfind).trans Option.isSome_map

/-- A session has its refresh token in both tables. -/
theorem issueRefreshToken_corresponds (config : SessionConfig) (userId : ℕ)
    (deviceId userAgent ip : Option String) (replaces : Option ℕ) :
    Corresponds tokens (fun row _ => row.userId = userId ∧ row.revokedAt = none)
      (AccessTokens.issueRefreshToken userId)
      (OtpLogin.issueRefreshToken config userId deviceId userAgent ip replaces) :=
  .ask fun _ => .ask fun _ => .insert (fun _ => .refreshToken rfl) (fun _ => .pure ⟨rfl, rfl⟩)
    (.throw ⟨rfl, rfl⟩)

section Phones

variable {s : IdentityStore.Store} {t : PersonStore.Store} (phoneNumber : String)

theorem rows_byPhone (h : s.users.rows = t.users.rows.map account) :
    s.users.rows.filter (fun u => u.phoneNumber.any
      (·.toList ∈ phoneLookupCandidates phoneNumber.toList)) =
      (usersByPhone phoneNumber t).map account := by
  rw [h, List.filter_map]
  rfl

theorem findAccountsByPhone_perm (h : s.users.rows = t.users.rows.map account) :
    MustEnd (Value fun accounts _ _ =>
        accounts.Perm (PhoneNumbers.findAccountsByPhone s phoneNumber.toList))
      (OtpLogin.findAccountsByPhone phoneNumber) .idle t := by
  rw [PhoneNumbers.findAccountsByPhone, rows_byPhone phoneNumber h, List.map_map,
    OtpLogin.findAccountsByPhone]
  split_ifs with hnone
  · refine MustEnd.pure ?_
    simp [usersByPhone, hnone]
  · refine MustEnd.bind (mustEnd_findAll (P := fun rows _ _ =>
      rows.Perm (usersByPhone phoneNumber t)) fun n => arranged_perm n _) ?_
    exact fun rows _ _ hrows => MustEnd.pure (hrows.map _)

/-- The logins by a PIN look up a number that has candidates. -/
theorem findAccountsByPhone_login (h : phoneLookupCandidates phoneNumber.toList ≠ []) :
    PinLogin.findAccountsByPhone phoneNumber =
      Login.onPerson (OtpLogin.findAccountsByPhone phoneNumber) := by
  rw [OtpLogin.findAccountsByPhone, if_neg h]
  rfl

theorem findForKyc_findConsumerByPhone (h : s.users.rows = t.users.rows.map account) :
    MustEnd (fun result _ _ => result = .error .database ∨ ∃ found n, result = .ok found ∧
        PhoneNumbers.findConsumerByPhone n s phoneNumber.toList = found.map account)
      (OtpLogin.findForKyc phoneNumber) .idle t := by
  have hrows : s.users.rows.filter (fun u => u.phoneNumber.any
      (·.toList ∈ phoneLookupCandidates phoneNumber.toList) && u.accountType = some .consumer) =
      (OtpLogin.consumersByPhone phoneNumber t).map account := by
    rw [h, List.filter_map, OtpLogin.consumersByPhone, usersByPhone, List.filter_filter]
    simp only [Bool.and_comm, Function.comp_def]
    rfl
  rw [OtpLogin.findForKyc]
  split_ifs with hnone
  · refine Or.inr ⟨none, 0, rfl, ?_⟩
    simp [PhoneNumbers.findConsumerByPhone, hnone, Program.pick]
  · refine fun n => ⟨Or.inr ⟨_, n, rfl, ?_⟩, Or.inl rfl⟩
    rw [PhoneNumbers.findConsumerByPhone, hrows, Program.pick_map]
    rfl

end Phones

section Guards

/-- `userId` of a request, as a text. -/
def userIdText : AccountGuards.UserId → List Char
  | .account id => idText id
  | .sessionToken text => text.toList
  | .empty => []

def requestUser (user : AccountGuards.RequestUser) (pendingRegistration : Bool) :
    ProfileCache.RequestUser :=
  { userId := userIdText user.userId
    type := user.type
    phoneNumber := user.phoneNumber.map String.toList
    pendingRegistration }

inductive SamePayload : AccountGuards.JwtPayload → ProfileCache.JwtPayload → Prop where
  | account {token payload} (sub : payload.sub = idText token.sub) (type : payload.type = none)
    (phoneNumber : payload.phoneNumber = none) : SamePayload (.account token) payload
  | session {token payload} (sub : payload.sub = token.sub.toList)
    (type : payload.type = some token.type)
    (phoneNumber : payload.phoneNumber = some token.phoneNumber.toList) :
    SamePayload (.session token) payload

theorem validate_requestUser {payload : AccountGuards.JwtPayload}
    {payload' : ProfileCache.JwtPayload} (h : SamePayload payload payload') :
    ProfileCache.validate payload' = requestUser (AccountGuards.validate payload) false := by
  cases h with
  | account hsub htype hphone | session hsub htype hphone =>
    rw [ProfileCache.validate, hsub, htype, hphone]
    rfl

/-- What the resolution of an account comes to; any failure of `findOrCreateForKyc` is one. -/
inductive SameAccount : Except PersonError (Option PersonStore.User) →
    Except GuardError (Option ℕ) → Prop where
  | ok (user : Option PersonStore.User) : SameAccount (.ok user) (.ok (user.map (·.id)))
  | service (e : PersonError) (e' : IdentityError) : SameAccount (.error e) (.error (.service e'))

inductive SameAnswer : Except LoginError (Option AccountGuards.RequestUser) →
    Except GuardError ProfileCache.RequestUser → Prop where
  | ok (user : AccountGuards.RequestUser) (pendingRegistration : Bool) :
    SameAnswer (.ok (some user)) (.ok (requestUser user pendingRegistration))
  | unauthorized (message : String) :
    SameAnswer (.error (.person (.unauthorized message))) (.error (.unauthorized message))
  | notFound (message : String) :
    SameAnswer (.error (.person (.notFound message))) (.error (.notFound message))
  | service (e : LoginError) (e' : IdentityError) : SameAnswer (.error e) (.error (.service e'))

variable {s : IdentityStore.Store} {r : AccountGuards.Request} {r' : ProfileCache.Request}
  (config : SessionConfig)

/-- The account of a number, where `findOrCreateForKyc` answers what the program has got. -/
theorem resolveUser_sameAccount {t : PersonStore.Store} (phoneNumber : String)
    (h : s.users.rows = t.users.rows.map account) (hpath : r'.path = r.path) :
    MustEnd (fun result _ _ => result = .error .database ∨
        ∃ (findOrCreateForKyc : FindOrCreateForKyc) (n : ℕ), SameAccount result
          (ProfileCache.resolveUser findOrCreateForKyc n s r' phoneNumber.toList))
      (AccountGuards.resolveUser config r phoneNumber) .idle t := by
  have hfound : ∀ {found : Option PersonStore.User} {n : ℕ},
      PhoneNumbers.findConsumerByPhone n s phoneNumber.toList = found.map account →
      (PhoneNumbers.findConsumerByPhone n s phoneNumber.toList).map (·.id) =
        found.map (·.id) := by
    intro found n hn
    rw [hn, Option.map_map]
    rfl
  rw [AccountGuards.resolveUser]
  simp only [ProfileCache.resolveUser, hpath]
  split_ifs with hkyc hconsent
  · refine MustEnd.andThen (MustEnd.of_forall (Q := fun _ _ _ => True) (fun _ _ _ => trivial) _ _ _)
      (fun user _ _ _ => Or.inr ?_) fun e _ _ _ => Or.inr ?_
    · exact ⟨fun _ _ _ _ => .ok user.id, 0, .ok (some user)⟩
    · exact ⟨fun _ _ _ _ => .error (.service .database), 0, .service e .database⟩
  · refine MustEnd.andThen (findForKyc_findConsumerByPhone phoneNumber h)
      (fun found _ _ hresult => ?_) fun e _ _ hresult => ?_
    · obtain hdatabase | ⟨_, n, hok, hn⟩ := hresult
      · cases hdatabase
      obtain rfl := Except.ok.inj hok
      cases found with
      | some user =>
        refine Or.inr ⟨fun _ _ _ _ => .error (.service .database), n, ?_⟩
        rw [hn]
        exact .ok (some user)
      | none =>
        refine MustEnd.andThen
          (MustEnd.of_forall (Q := fun _ _ _ => True) (fun _ _ _ => trivial) _ _ _)
          (fun user _ _ _ => Or.inr ?_) fun e _ _ _ => Or.inr ?_
        · refine ⟨fun _ _ _ _ => .ok user.id, n, ?_⟩
          rw [hn]
          exact .ok (some user)
        · refine ⟨fun _ _ _ _ => .error (.service .database), n, ?_⟩
          rw [hn]
          exact .service e .database
    · obtain hdatabase | ⟨_, _, hok, _⟩ := hresult
      · exact Or.inl hdatabase
      · cases hok
  · refine (findForKyc_findConsumerByPhone phoneNumber h).mono fun result _ _ hresult => ?_
    obtain rfl | ⟨found, n, rfl, hn⟩ := hresult
    · exact Or.inl rfl
    · refine Or.inr ⟨fun _ _ _ _ => .error (.service .database), n, ?_⟩
      rw [hfound hn]
      exact .ok found

/-- A program on the tables of a person, whose result is all that counts. -/
theorem mustEnd_onPerson {α : Type} {Q : Except PersonError α → Prop} {p : Personal α}
    {t : SessionStore.Store} (h : MustEnd (fun result _ _ => Q result) p .idle t.login.person) :
    MustEnd (fun result _ _ => ∃ result', result = result'.mapError LoginError.person ∧ Q result')
      (Access.onPerson p) .idle t := by
  have hlogin : MustEnd (fun r _ _ => ∃ r' : Except PersonError α,
      r = r'.mapError LoginStore.personal.error ∧ Q r') (Login.onPerson p) .idle t.login :=
    (mustEnd_within h .idle).mono fun _ _ _ hr => hr.imp fun _ ⟨_, heq, _, hQ⟩ => ⟨heq, hQ⟩
  refine (mustEnd_within hlogin .idle).mono fun r _ _ hr => ?_
  obtain ⟨_, -, rfl, -, r', rfl, hQ⟩ := hr
  refine ⟨r', ?_, hQ⟩
  cases r' <;> rfl

theorem trim_eq_empty {text : String} :
    SqlText.trim text = "" ↔ trimmed text.toList = [] := by
  rw [SqlText.trim, trimmed, ← String.toList_inj, String.toList_ofList]
  rfl

/-- The session is resolved to the account that the keys of cached profiles name. -/
theorem resolveSession_sameAnswer {t : SessionStore.Store} {user : AccountGuards.RequestUser}
    {p : Access AccountGuards.RequestUser} (hp : AccountGuards.resolveSession config r user = p)
    (h : s.users.rows = t.users.rows.map account) (hpath : r'.path = r.path)
    (hvalidate : ProfileCache.validate r'.payload = requestUser user false)
    (htype : user.type ≠ none) :
    MustEnd (fun result _ _ => result = .error .database ∨
        ∃ (findOrCreateForKyc : FindOrCreateForKyc) (n : ℕ), SameAnswer (result.map some)
          (ProfileCache.canActivate findOrCreateForKyc n s r')) p .idle t := by
  subst hp
  have hphone : (user.phoneNumber.map String.toList).getD [] =
      (user.phoneNumber.getD "").toList := by
    cases user.phoneNumber <;> rfl
  simp only [ProfileCache.canActivate, hvalidate, requestUser, if_neg htype, hphone, hpath,
    ← trim_eq_empty]
  rw [AccountGuards.resolveSession]
  by_cases hempty : SqlText.trim (user.phoneNumber.getD "") = ""
  · simp only [if_pos hempty]
    by_cases hroute : isConsentRoute r.path = true ∨ isKycRoute r.path = true
    · simp only [if_pos hroute]
      exact Or.inr ⟨fun _ _ _ _ => .error (.service .database), 0, .unauthorized _⟩
    · simp only [if_neg hroute]
      exact Or.inr ⟨fun _ _ _ _ => .error (.service .database), 0, .ok user false⟩
  simp only [if_neg hempty]
  refine MustEnd.andThen (mustEnd_onPerson (resolveUser_sameAccount config _ h hpath))
    (fun resolved _ _ hresult => ?_) fun e _ _ hresult => ?_
  · obtain ⟨result, hresolved, hdatabase | ⟨findOrCreateForKyc, n, hsame⟩⟩ := hresult
    · rw [hdatabase] at hresolved
      cases hresolved
    generalize hid : ProfileCache.resolveUser findOrCreateForKyc n s r' _ = id at hsame
    cases hsame with
    | service e e' => cases hresolved
    | ok found =>
      obtain rfl := Except.ok.inj hresolved
      cases resolved with
      | some account =>
        refine Or.inr ⟨findOrCreateForKyc, n, ?_⟩
        rw [hid]
        exact .ok { user with userId := .account account.id } false
      | none =>
        by_cases hme : isGetMe r.path = true
        · simp only [if_pos hme]
          refine Or.inr ⟨findOrCreateForKyc, n, ?_⟩
          rw [hid]
          exact .ok { user with userId := .empty } true
        · simp only [if_neg hme]
          refine Or.inr ⟨findOrCreateForKyc, n, ?_⟩
          rw [hid]
          exact .notFound _
  · obtain ⟨result, hresolved, hdatabase | ⟨findOrCreateForKyc, n, hsame⟩⟩ := hresult
    · rw [hdatabase] at hresolved
      obtain rfl := Except.error.inj hresolved
      exact Or.inl rfl
    · refine Or.inr ⟨findOrCreateForKyc, n, ?_⟩
      generalize hid : ProfileCache.resolveUser findOrCreateForKyc n s r' _ = id at hsame
      cases hsame with
      | service e' e'' => exact .service _ _
      | ok found => cases hresolved

/-- The guard lets a session pass as the user that the keys of cached profiles name. -/
theorem otpSessionResolverGuard_sameAnswer {t : SessionStore.Store}
    {payload : AccountGuards.JwtPayload} (h : s.users.rows = t.users.rows.map account)
    (hpath : r'.path = r.path) (hpayload : SamePayload payload r'.payload) :
    MustEnd (fun result _ _ => result = .error .database ∨
        ∃ (findOrCreateForKyc : FindOrCreateForKyc) (n : ℕ),
          SameAnswer result (ProfileCache.canActivate findOrCreateForKyc n s r'))
      (AccountGuards.otpSessionResolverGuard config r (some (AccountGuards.validate payload)))
      .idle t := by
  have hvalidate := validate_requestUser hpayload
  rw [AccountGuards.otpSessionResolverGuard]
  by_cases htype : (AccountGuards.validate payload).type = none
  · rw [if_pos htype]
    refine Or.inr ⟨fun _ _ _ _ => .error (.service .database), 0, ?_⟩
    simp only [ProfileCache.canActivate, hvalidate, requestUser, if_pos htype]
    exact .ok (AccountGuards.validate payload) false
  rw [if_neg htype]
  generalize hp : AccountGuards.resolveSession config r _ = p
  refine MustEnd.andThen (resolveSession_sameAnswer config hp h hpath hvalidate htype)
    (fun user _ _ hresult => ?_) fun e _ _ hresult => ?_
  · obtain hdatabase | hsame := hresult
    · cases hdatabase
    · exact Or.inr hsame
  · obtain hdatabase | hsame := hresult
    · obtain rfl := Except.error.inj hdatabase
      exact Or.inl rfl
    · exact Or.inr hsame

end Guards

end NexaStays.AccountTables
