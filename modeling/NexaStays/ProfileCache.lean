import Mathlib.Data.List.Infix
import NexaStays.PhoneNumbers

/-!
# The cache of profile responses

`GET users/me` and `GET users/me/header` are answered from a cache. The token of a request
names its user; for the token of an OTP session a guard looks the account up by the phone
number and fills the user id in, an empty one where no account exists yet. The cache key is
made of the path and of that user id.
-/
namespace NexaStays.ProfileCache

open NexaStays.Transactions NexaStays.IdentityStore NexaStays.PhoneNumbers

inductive SessionKind where
  | otpSession | identitySession
  deriving DecidableEq, Repr

/-- The payload of a token that the service has signed; an account's token has no session
kind. The subject is an account id or a session token. -/
structure JwtPayload where
  sub : List Char
  sub_ne : sub ≠ []
  type : Option SessionKind
  phoneNumber : Option (List Char)
  deriving DecidableEq

/-- `request.user`. -/
structure RequestUser where
  userId : List Char
  type : Option SessionKind
  phoneNumber : Option (List Char)
  pendingRegistration : Bool
  deriving DecidableEq, Repr

/-- `JwtStrategy.validate`. -/
def validate (payload : JwtPayload) : RequestUser :=
  { userId := payload.sub
    type := payload.type
    phoneNumber := payload.phoneNumber
    pendingRegistration := false }

/-- A `GET` request, its query as names with the texts of their values. -/
structure Request where
  url : List Char
  query : List (String × String)
  fullName : Option (List Char)
  nationality : Option (List Char)
  payload : JwtPayload

/-- `url.split('?')[0]`. -/
def Request.path (r : Request) : List Char := r.url.takeWhile (· ≠ '?')

/-- `path.includes(part)`. -/
def includesText (path : List Char) (part : String) : Bool :=
  path.tails.any fun tail => part.toList.isPrefixOf tail

/-- What the guard throws, and what the creation of an account throws. -/
inductive GuardError where
  | unauthorized (message : String)
  | notFound (message : String)
  | service (error : IdentityError)
  deriving DecidableEq, Repr

def isKycRoute (path : List Char) : Bool :=
  includesText path "/kyc/submit" || includesText path "/kyc/upload/document" ||
    includesText path "/kyc/upload/selfie" || includesText path "/kyc/sumsub/token" ||
    includesText path "/kyc/sumsub/access-token"

def isGetMe (path : List Char) : Bool :=
  includesText path "/users/me" && "/me".toList.isSuffixOf path

def isConsentRoute (path : List Char) : Bool :=
  includesText path "/me/consents/current" ||
    includesText path "/me/consents/accept-mandatory" ||
    includesText path "/me/consents/marketing"

/-- The text of an account id. -/
def idText (id : ℕ) : List Char := Nat.toDigits 10 id

theorem idText_ne (id : ℕ) : idText id ≠ [] := Nat.toDigits_ne_nil

/-- `usersService.findOrCreateForKyc`: the account of a phone number, made if missing. -/
abbrev FindOrCreateForKyc :=
  Store → List Char → Option (List Char) → Option (List Char) → Except GuardError ℕ

/-- `resolvedUser`; `findConsumerByPhone` is the query of `findForKyc`. -/
def resolveUser (findOrCreateForKyc : FindOrCreateForKyc) (n : ℕ) (s : Store) (r : Request)
    (phoneNumber : List Char) : Except GuardError (Option ℕ) :=
  if isKycRoute r.path then
    (findOrCreateForKyc s phoneNumber r.fullName r.nationality).map some
  else if isConsentRoute r.path then
    match findConsumerByPhone n s phoneNumber with
    | some user => .ok (some user.id)
    | none => (findOrCreateForKyc s phoneNumber none none).map some
  else .ok ((findConsumerByPhone n s phoneNumber).map (·.id))

/-- `OtpSessionResolverGuard.canActivate`: the user that the request goes on with. -/
def canActivate (findOrCreateForKyc : FindOrCreateForKyc) (n : ℕ) (s : Store) (r : Request) :
    Except GuardError RequestUser :=
  let user := validate r.payload
  if user.type = none then .ok user
  else if trimmed (user.phoneNumber.getD []) = [] then
    if isConsentRoute r.path ∨ isKycRoute r.path then
      .error (.unauthorized
        "Phone number missing from session token; obtain a new OTP session.")
    else .ok user
  else
    match resolveUser findOrCreateForKyc n s r (user.phoneNumber.getD []) with
    | .error e => .error e
    | .ok (some id) => .ok { user with userId := idText id }
    | .ok none =>
      if isGetMe r.path then .ok { user with userId := [], pendingRegistration := true }
      else .error (.notFound "Complete KYC first to create your account")

/-- `path.replace(/^\/[^/]+\//, '')`: a first segment that another one follows is dropped. -/
def normalizedPath (path : List Char) : List Char :=
  match path with
  | '/' :: rest =>
    match rest.dropWhile (· ≠ '/') with
    | '/' :: tail => if rest.takeWhile (· ≠ '/') = [] then path else tail
    | _ => path
  | _ => path

def queryString (query : List (String × String)) : List Char :=
  ['&'].intercalate ((query.mergeSort fun a b => a.1 ≤ b.1).map fun p =>
    p.1.toList ++ '=' :: p.2.toList)

/-- What follows `cache:` and the path. -/
def keyEnd (path : List Char) (query : List Char) (userId : List Char) : List Char :=
  if includesText path "admin" ∧ includesText path "applications" then
    ":q:".toList ++ (if query = [] then "all".toList else query)
  else if userId ≠ [] then ":user:".toList ++ userId
  else if query ≠ [] then ":q:".toList ++ query
  else []

def buildCacheKey (r : Request) (user : RequestUser) : List Char :=
  "cache:".toList ++ (normalizedPath r.path ++
    keyEnd (normalizedPath r.path) (queryString r.query) user.userId)

/-- The routes of `getMe` and `getHeader`, under both names of the controller. -/
def routes : List (List Char) :=
  ["/api/v1/users/me".toList, "/api/v1/pay/users/me".toList,
    "/api/v1/users/me/header".toList, "/api/v1/pay/users/me/header".toList]

/-- The router ignores case and a slash at the end. -/
def Routed (path : List Char) : Prop :=
  ∃ route ∈ routes, path.map Char.toLower = route ∨ path.map Char.toLower = route ++ ['/']

/-- A request that the guards let through, with the state of the database it met. -/
structure Arrival (findOrCreateForKyc : FindOrCreateForKyc) where
  request : Request
  store : Store
  n : ℕ
  user : RequestUser
  routed : Routed request.path
  admitted : canActivate findOrCreateForKyc n store request = .ok user

/-- The person who asks: a user, or a phone number while no account exists. -/
inductive Principal where
  | user (userId : List Char)
  | phone (phoneNumber : List Char)
  deriving DecidableEq, Repr

namespace Arrival

variable {findOrCreateForKyc : FindOrCreateForKyc}

def key (a : Arrival findOrCreateForKyc) : List Char := buildCacheKey a.request a.user

def principal (a : Arrival findOrCreateForKyc) : Principal :=
  if a.user.pendingRegistration then .phone (a.user.phoneNumber.getD [])
  else .user a.user.userId

/-- A session that has a phone number, and no account is stored under it. -/
def Unregistered (a : Arrival findOrCreateForKyc) : Prop :=
  a.request.payload.type ≠ none ∧ trimmed (a.request.payload.phoneNumber.getD []) ≠ [] ∧
    resolveUser findOrCreateForKyc a.n a.store a.request
      (a.request.payload.phoneNumber.getD []) = .ok none

/-- An unregistered session goes on without a user id, every other request with one. -/
theorem user_cases (a : Arrival findOrCreateForKyc) :
    (a.Unregistered ∧ isGetMe a.request.path = true ∧
      a.user = { validate a.request.payload with userId := [], pendingRegistration := true }) ∨
    (¬a.Unregistered ∧ a.user.userId ≠ [] ∧ a.user.pendingRegistration = false) := by
  have hadmitted := a.admitted
  unfold canActivate at hadmitted
  dsimp only at hadmitted
  by_cases htype : (validate a.request.payload).type = none
  · rw [if_pos htype] at hadmitted
    rw [← Except.ok.inj hadmitted]
    exact .inr ⟨fun h => h.1 htype, a.request.payload.sub_ne, rfl⟩
  rw [if_neg htype] at hadmitted
  by_cases hphone : trimmed ((validate a.request.payload).phoneNumber.getD []) = []
  · rw [if_pos hphone] at hadmitted
    split_ifs at hadmitted
    rw [← Except.ok.inj hadmitted]
    exact .inr ⟨fun h => h.2.1 hphone, a.request.payload.sub_ne, rfl⟩
  rw [if_neg hphone] at hadmitted
  cases hresolved : resolveUser findOrCreateForKyc a.n a.store a.request
    ((validate a.request.payload).phoneNumber.getD []) with
  | error e => simp [hresolved] at hadmitted
  | ok found =>
    cases found with
    | some id =>
      simp only [hresolved] at hadmitted
      rw [← Except.ok.inj hadmitted]
      refine .inr ⟨fun h => ?_, idText_ne id, rfl⟩
      have hnone := h.2.2.symm.trans hresolved
      cases hnone
    | none =>
      simp only [hresolved] at hadmitted
      split_ifs at hadmitted with hme
      exact .inl ⟨⟨htype, hphone, hresolved⟩, hme, (Except.ok.inj hadmitted).symm⟩

end Arrival

theorem normalizedPath_suffix (path : List Char) : normalizedPath path <:+ path := by
  unfold normalizedPath
  split
  · rename_i rest
    split
    · rename_i tail htail
      split_ifs
      · exact List.suffix_rfl
      · have hdrop : rest.dropWhile (· ≠ '/') <:+ rest := List.dropWhile_suffix _
        rw [htail] at hdrop
        exact ((List.suffix_cons '/' tail).trans hdrop).trans (List.suffix_cons '/' rest)
    · exact List.suffix_rfl
  · exact List.suffix_rfl

theorem includesText_iff {path : List Char} {part : String} :
    includesText path part = true ↔ part.toList <:+: path := by
  rw [includesText, List.any_eq_true]
  constructor
  · rintro ⟨tail, htail, hpart⟩
    exact (List.isPrefixOf_iff_prefix.mp hpart).isInfix.trans
      ((List.mem_tails _ _).mp htail).isInfix
  · rintro ⟨before, after, h⟩
    refine ⟨part.toList ++ after, (List.mem_tails _ _).mpr ⟨before, ?_⟩, ?_⟩
    · rw [← h, List.append_assoc]
    · exact List.isPrefixOf_iff_prefix.mpr ⟨after, rfl⟩

/-- No route has a colon or the word `admin` in it. -/
theorem routed_facts {path : List Char} (h : Routed path) :
    ':' ∉ path ∧ includesText (normalizedPath path) "admin" = false := by
  have hroutes : ∀ route ∈ routes, ':' ∉ route ++ ['/'] ∧
      includesText (route ++ ['/']) "admin" = false := by decide
  obtain ⟨route, hroute, hpath⟩ := h
  have hlower : path.map Char.toLower <:+: route ++ ['/'] := by
    obtain hpath | hpath := hpath
    · rw [hpath]
      exact (List.prefix_append route ['/']).isInfix
    · rw [hpath]
  constructor
  · intro hcolon
    have hmem : ':' ∈ path.map Char.toLower := List.mem_map.mpr ⟨':', hcolon, by decide⟩
    exact (hroutes route hroute).1 (hlower.subset hmem)
  · by_contra hadmin
    rw [Bool.not_eq_false, includesText_iff] at hadmin
    have hinfix := ((hadmin.trans (normalizedPath_suffix path).isInfix).map Char.toLower).trans hlower
    have htext : "admin".toList.map Char.toLower = "admin".toList := by decide
    rw [htext, ← includesText_iff, (hroutes route hroute).2] at hinfix
    cases hinfix

/-- The parts before and from the first colon. -/
theorem append_inj_colon {p q d e : List Char} (hp : ':' ∉ p) (hq : ':' ∉ q)
    (hd : d = [] ∨ ∃ t, d = ':' :: t) (he : e = [] ∨ ∃ t, e = ':' :: t)
    (h : p ++ d = q ++ e) : p = q ∧ d = e := by
  induction p generalizing q with
  | nil =>
    cases q with
    | nil => exact ⟨rfl, h⟩
    | cons c q =>
      obtain rfl | ⟨t, rfl⟩ := hd
      · cases h
      · obtain ⟨rfl, -⟩ := List.cons.inj h
        exact absurd List.mem_cons_self hq
  | cons b p ih =>
    cases q with
    | nil =>
      obtain rfl | ⟨t, rfl⟩ := he
      · cases h
      · obtain ⟨rfl, -⟩ := List.cons.inj h
        exact absurd List.mem_cons_self hp
    | cons c q =>
      obtain ⟨rfl, htail⟩ := List.cons.inj h
      obtain ⟨rfl, rfl⟩ := ih (fun hm => hp (List.mem_cons_of_mem b hm))
        (fun hm => hq (List.mem_cons_of_mem b hm)) htail
      exact ⟨rfl, rfl⟩

theorem keyEnd_cases (path query userId : List Char) :
    keyEnd path query userId = [] ∨ ∃ t, keyEnd path query userId = ':' :: t := by
  rw [keyEnd]
  split_ifs <;> simp

namespace Arrival

variable {findOrCreateForKyc : FindOrCreateForKyc}

/-- Requests with one key whose user ids differ have none. -/
theorem userId_of_key {a b : Arrival findOrCreateForKyc} (h : a.key = b.key)
    (ha : a.user.userId ≠ []) : b.user.userId = a.user.userId := by
  have hcolon : ∀ c : Arrival findOrCreateForKyc, ':' ∉ normalizedPath c.request.path :=
    fun c hm => (routed_facts c.routed).1 ((normalizedPath_suffix _).subset hm)
  have hend : ∀ c : Arrival findOrCreateForKyc,
      keyEnd (normalizedPath c.request.path) (queryString c.request.query) c.user.userId =
        if c.user.userId ≠ [] then ":user:".toList ++ c.user.userId
        else if queryString c.request.query ≠ [] then ":q:".toList ++ queryString c.request.query
        else [] := by
    intro c
    have hadmin : ¬(false = true ∧
        includesText (normalizedPath c.request.path) "applications" = true) := by simp
    rw [keyEnd, (routed_facts c.routed).2, if_neg hadmin]
  obtain ⟨-, hends⟩ := append_inj_colon (hcolon a) (hcolon b) (keyEnd_cases _ _ _)
    (keyEnd_cases _ _ _) (List.append_cancel_left h)
  rw [hend a, hend b, if_pos ha] at hends
  by_cases hb : b.user.userId = []
  · simp only [hb, ne_eq, not_true_eq_false, if_false] at hends
    by_cases hquery : queryString b.request.query = []
    · simp [hquery] at hends
    · simp [hquery] at hends
  · rw [if_pos hb] at hends
    exact (List.append_cancel_left hends).symm

theorem principal_of_key {a b : Arrival findOrCreateForKyc} (h : a.key = b.key)
    (ha : ¬a.Unregistered) : a.principal = b.principal := by
  obtain ⟨hun, -⟩ | ⟨-, hid, hpending⟩ := a.user_cases
  · exact absurd hun ha
  have hsame := userId_of_key h hid
  obtain ⟨-, -, hb⟩ | ⟨-, -, hb⟩ := b.user_cases
  · rw [hb] at hsame
    exact absurd hsame.symm hid
  · simp [principal, hpending, hb, hsame]

/-- Two phone numbers, one of which is not `p`. -/
def otherPhone (p : List Char) : List Char :=
  if p = "+212600000001".toList then "+212600000002".toList else "+212600000001".toList

theorem otherPhone_facts (p : List Char) :
    otherPhone p ≠ p ∧ trimmed (otherPhone p) ≠ [] := by
  rw [otherPhone]
  split_ifs with h
  · rw [h]
    decide
  · exact ⟨fun h' => h h'.symm, by decide⟩

/-- The same request of a session with another phone number, in an empty database. -/
theorem exists_other {a : Arrival findOrCreateForKyc} (h : a.Unregistered) :
    ∃ b : Arrival findOrCreateForKyc, a.key = b.key ∧ a.principal ≠ b.principal := by
  obtain ⟨-, hme, huser⟩ | ⟨hun, -⟩ := a.user_cases
  swap
  · exact absurd h hun
  obtain ⟨htype, -, hresolved⟩ := h
  obtain ⟨hother, htrimmed⟩ := otherPhone_facts (a.request.payload.phoneNumber.getD [])
  have hkyc : isKycRoute a.request.path = false := by
    by_contra hkyc
    rw [Bool.not_eq_false] at hkyc
    rw [resolveUser, if_pos hkyc] at hresolved
    cases hmade : findOrCreateForKyc a.store (a.request.payload.phoneNumber.getD [])
      a.request.fullName a.request.nationality <;> simp [hmade, Except.map] at hresolved
  have hconsent : isConsentRoute a.request.path = false := by
    by_contra hconsent
    rw [Bool.not_eq_false] at hconsent
    rw [resolveUser, if_neg (by simp [hkyc]), if_pos hconsent] at hresolved
    cases hfound : findConsumerByPhone a.n a.store (a.request.payload.phoneNumber.getD []) with
    | some user => simp [hfound] at hresolved
    | none =>
      cases hmade : findOrCreateForKyc a.store (a.request.payload.phoneNumber.getD []) none none <;>
        simp [hfound, hmade, Except.map] at hresolved
  let payload : JwtPayload :=
    { a.request.payload with
      phoneNumber := some (otherPhone (a.request.payload.phoneNumber.getD [])) }
  let request : Request := { a.request with payload }
  have hpath : request.path = a.request.path := rfl
  have hadmitted : canActivate findOrCreateForKyc 0 Store.blank request =
      .ok { validate payload with userId := [], pendingRegistration := true } := by
    have hnone : resolveUser findOrCreateForKyc 0 Store.blank request
        (otherPhone (a.request.payload.phoneNumber.getD [])) = .ok none := by
      rw [resolveUser, hpath, hkyc, hconsent]
      rfl
    have htype' : (validate request.payload).type ≠ none := htype
    have htrimmed' : trimmed ((validate request.payload).phoneNumber.getD []) ≠ [] := htrimmed
    have hresolved' : resolveUser findOrCreateForKyc 0 Store.blank request
      ((validate request.payload).phoneNumber.getD []) = .ok none := hnone
    unfold canActivate
    dsimp only
    rw [if_neg htype', if_neg htrimmed', hresolved']
    exact if_pos hme
  refine ⟨⟨request, Store.blank, 0, _, a.routed, hadmitted⟩, ?_, ?_⟩
  · rw [key, huser]
    rfl
  · rw [principal, huser]
    simpa [principal, validate, payload] using hother.symm

end Arrival

/-- What the interceptor keeps under each key. -/
abbrev Cache (V : Type) := List Char → Option V

/-- The caches that requests leave, where `handle` answers them: an answer is stored under the
key of its request, at any later time, and entries expire. -/
inductive Filled {findOrCreateForKyc : FindOrCreateForKyc} {V : Type}
    (handle : Arrival findOrCreateForKyc → V) : Cache V → Prop where
  | empty : Filled handle fun _ => none
  | set {cache} (filled : Filled handle cache) (a : Arrival findOrCreateForKyc) :
      Filled handle (Function.update cache a.key (some (handle a)))
  | expire {cache} (filled : Filled handle cache) (key : List Char) :
      Filled handle (Function.update cache key none)

theorem Filled.computed {findOrCreateForKyc : FindOrCreateForKyc} {V : Type}
    {handle : Arrival findOrCreateForKyc → V} {cache : Cache V} (h : Filled handle cache)
    {key : List Char} {v : V} (hv : cache key = some v) :
    ∃ a : Arrival findOrCreateForKyc, a.key = key ∧ v = handle a := by
  induction h with
  | empty => cases hv
  | set filled a ih =>
    by_cases hkey : key = a.key
    · subst hkey
      rw [Function.update_self] at hv
      exact ⟨a, rfl, (Option.some.inj hv).symm⟩
    · rw [Function.update_of_ne hkey] at hv
      exact ih hv
  | expire filled expired ih =>
    by_cases hkey : key = expired
    · subst hkey
      rw [Function.update_self] at hv
      cases hv
    · rw [Function.update_of_ne hkey] at hv
      exact ih hv

/-- A request has its key to itself, and is served what was computed for its own person,
unless it comes from a session without an account. -/
theorem key_of_principal {findOrCreateForKyc : FindOrCreateForKyc}
    (a : Arrival findOrCreateForKyc) :
    ((∀ b : Arrival findOrCreateForKyc, a.key = b.key → a.principal = b.principal) ↔
      ¬a.Unregistered) ∧
    (¬a.Unregistered → ∀ (V : Type) (handle : Arrival findOrCreateForKyc → V) (cache : Cache V),
      Filled handle cache → ∀ v, cache a.key = some v →
        ∃ b : Arrival findOrCreateForKyc, v = handle b ∧ b.principal = a.principal) := by
  refine ⟨⟨fun h hun => ?_, fun hun b hkey => Arrival.principal_of_key hkey hun⟩, ?_⟩
  · obtain ⟨b, hkey, hne⟩ := Arrival.exists_other hun
    exact hne (h b hkey)
  · intro hun V handle cache hfilled v hv
    obtain ⟨b, hkey, rfl⟩ := hfilled.computed hv
    exact ⟨b, rfl, (Arrival.principal_of_key hkey.symm hun).symm⟩

/-- A session of a phone number without an account asks for the profile. -/
def newcomer (phoneNumber : String) : Request :=
  { url := "/api/v1/users/me".toList
    query := []
    fullName := none
    nationality := none
    payload :=
      { sub := "token".toList
        sub_ne := by decide
        type := some .otpSession
        phoneNumber := some phoneNumber.toList } }

/-- How the guard lets it through. -/
def admitted (phoneNumber : String) : RequestUser :=
  { userId := []
    type := some .otpSession
    phoneNumber := some phoneNumber.toList
    pendingRegistration := true }

/-- Two newcomers share a key. -/
theorem newcomers_share_key :
    ∃ (findOrCreateForKyc : FindOrCreateForKyc) (a b : Arrival findOrCreateForKyc),
      a.request = newcomer "+212600000001" ∧ b.request = newcomer "+212600000002" ∧
      a.key = b.key ∧ a.principal = .phone "+212600000001".toList ∧
      b.principal = .phone "+212600000002".toList := by
  refine ⟨fun _ _ _ _ => .error (.service .database),
    ⟨newcomer "+212600000001", Store.blank, 0, admitted "+212600000001", ?_, ?_⟩,
    ⟨newcomer "+212600000002", Store.blank, 0, admitted "+212600000002", ?_, ?_⟩,
    rfl, rfl, ?_, ?_, ?_⟩
  · exact ⟨_, List.mem_cons_self, .inl (by decide +kernel)⟩
  · decide +kernel
  · exact ⟨_, List.mem_cons_self, .inl (by decide +kernel)⟩
  all_goals decide +kernel

end NexaStays.ProfileCache
