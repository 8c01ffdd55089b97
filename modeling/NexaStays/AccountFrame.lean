import NexaStays.OtpLogin
import NexaStays.RowInvariants

/-!
# What the logins leave of an account

The services behind a login link an account to an identity and create consumer accounts; they
change no status, number or type of an account that is there.
-/
namespace NexaStays.AccountFrame

open NexaStays.KeyedTable NexaStays.Transactions NexaStays.EntitySave NexaStays.PersonStore
open NexaStays.IdentityPhones NexaStays.RowOrder NexaStays.RowInvariants NexaStays.OtpLogin
open NexaStays.AccessTokens
open NexaStays.SessionStore (Access logins savedOtpSession)
open NexaStays.IdentityStore (AccountType OtpCode)
open NexaStays.PhoneChange (normalizedOrThrow)
open NexaStays.PhoneNumbers (phoneLookupCandidates)

section Identity

variable {I : PersonStore.Store → Prop} {W : Write → Prop}

theorem upholds_clearPrimary (hphone : ∀ row, W (.phone row)) {identityId : ℕ} :
    Upholds I W (fun _ => True) (clearPrimary identityId) := by
  refine (Upholds.writeRows fun s _ w hw => ?_).bind fun _ _ => Upholds.pure trivial
  obtain ⟨p, -, rfl⟩ := List.mem_map.mp hw
  exact hphone _

theorem upholds_saveNumber (hphone : ∀ row, W (.phone row)) {managed : Bool}
    {row : IdentityPhoneNumber} : Upholds I W (fun _ => True) (saveNumber managed row) := by
  refine (Upholds.writeRows fun s _ w hw => ?_).bind fun written _ => ?_
  · split at hw
    · cases hw
    · rw [List.mem_singleton.mp hw]
      exact hphone row
  · by_cases hwritten : written = []
    · simp only [if_pos hwritten]
      exact Upholds.require.bind fun _ _ =>
        (Upholds.query (Q := fun _ => True) fun _ _ => trivial).bind fun _ _ =>
          Upholds.expect.bind fun _ _ => Upholds.require.bind fun _ _ => Upholds.pure trivial
    · simp only [if_neg hwritten]
      exact Upholds.pure trivial

theorem upholds_attach (hphone : ∀ row, W (.phone row)) {managed : Bool} {identityId : ℕ}
    {rawPhone : String} {options : AttachOptions} :
    Upholds I W (fun _ => True)
      (attachPhoneNumberToIdentity managed identityId rawPhone options) := by
  refine (Upholds.query (Q := fun _ => True) fun _ _ => trivial).bind fun _ _ =>
    Upholds.expect.bind fun _ _ => Upholds.ofExcept.bind fun normalized _ =>
      (Upholds.query (Q := fun _ => True) fun _ _ => trivial).bind fun existing _ => ?_
  cases existing with
  | some existing => exact Upholds.require.bind fun _ _ => Upholds.pure trivial
  | none =>
    refine (Upholds.query (Q := fun _ => True) fun _ _ => trivial).bind fun count _ =>
      Upholds.receive.bind fun now _ => ?_
    rw [insertNumber]
    split
    · exact (upholds_clearPrimary hphone).bind fun _ _ => upholds_saveNumber hphone
    · exact upholds_saveNumber hphone

theorem upholds_ensurePhoneAttached (hphone : ∀ row, W (.phone row)) {identityId : ℕ}
    {rawPhone : String} : Upholds I W (fun _ => True) (ensurePhoneAttached identityId rawPhone) := by
  refine Upholds.attempt ((upholds_attach hphone).bind fun _ _ => Upholds.pure trivial) fun e => ?_
  split
  · exact Upholds.pure trivial
  · exact Upholds.throw

theorem upholds_findByCandidates {candidates : List (List Char)} :
    Upholds I W (fun _ => True) (findByCandidates candidates) := by
  induction candidates with
  | nil => exact Upholds.pure trivial
  | cons candidate candidates ih =>
    refine (Upholds.query (Q := fun _ => True) fun _ _ => trivial).bind fun viaTable _ => ?_
    cases viaTable with
    | some identity => exact Upholds.pure trivial
    | none =>
      refine (Upholds.findOne (Q := fun _ => True) trivial fun _ _ _ _ => trivial).bind
        fun legacy _ => ?_
      cases legacy with
      | some identity => exact Upholds.pure trivial
      | none => exact ih

/-- An account without an identity may be linked to one. -/
def Links (I : PersonStore.Store → Prop) (W : Write → Prop) : Prop :=
  ∀ s u identityId, I s → u ∈ s.users.rows → u.unifiedIdentityId = none →
    W (.user { u with unifiedIdentityId := some identityId })

theorem upholds_onOtherConnection {ws : PersonStore.Store → List Write}
    (h : ∀ s, I s → ∀ w ∈ ws s, W w) : Upholds I W (fun _ => True) (onOtherConnection ws) :=
  (Upholds.query (Q := fun _ => True) fun _ _ => trivial).bind fun _ _ => Upholds.send h

theorem upholds_linkUsers (hidentity : ∀ row, W (.identity row)) (hlinks : Links I W)
    {created : Bool} {phoneNumber : String} {identityId : ℕ} :
    Upholds I W (fun _ => True) (linkUsersToIdentity created phoneNumber identityId) := by
  rw [linkUsersToIdentity]
  split
  · exact Upholds.pure trivial
  · refine (upholds_onOtherConnection fun s hs w hw => ?_).bind fun _ _ =>
      upholds_onOtherConnection fun s _ w hw => ?_
    · obtain ⟨u, hu, rfl⟩ := List.mem_map.mp hw
      obtain ⟨hu, hnone⟩ := List.mem_filter.mp hu
      exact hlinks s u identityId hs (List.mem_of_mem_filter hu) (of_decide_eq_true hnone)
    · split at hw
      · cases hw
      · obtain ⟨i, -, rfl⟩ := List.mem_map.mp hw
        exact hidentity _

theorem upholds_createIdentity (hphone : ∀ row, W (.phone row))
    (hidentity : ∀ row, W (.identity row)) (hlinks : Links I W) {phoneNumber : String} :
    Upholds I W (fun _ => True) (createIdentity phoneNumber) := by
  refine (Upholds.query (Q := fun _ => True) fun _ _ => trivial).bind fun users _ => ?_
  cases users with
  | nil =>
    exact (Upholds.insertRow fun _ _ _ _ => hidentity _).bind fun _ _ =>
      (upholds_ensurePhoneAttached hphone).bind fun _ _ => Upholds.pure trivial
  | cons best users =>
    exact (Upholds.insertRow fun _ _ _ _ => hidentity _).bind fun _ _ =>
      (upholds_linkUsers hidentity hlinks).bind fun _ _ =>
        (upholds_ensurePhoneAttached hphone).bind fun _ _ => Upholds.pure trivial

theorem upholds_findOrCreateByPhone (hphone : ∀ row, W (.phone row))
    (hidentity : ∀ row, W (.identity row)) (hlinks : Links I W) {phoneNumber : String} :
    Upholds I W (fun _ => True) (findOrCreateByPhone phoneNumber) := by
  refine Upholds.transaction ((Upholds.lockRow (Q := fun _ => True) fun _ _ => trivial).bind
    fun _ _ => upholds_findByCandidates.bind fun existing _ => ?_)
  cases existing with
  | some existing =>
    exact (upholds_linkUsers hidentity hlinks).bind fun _ _ =>
      (upholds_ensurePhoneAttached hphone).bind fun _ _ => Upholds.pure trivial
  | none => exact upholds_createIdentity hphone hidentity hlinks

/-- What `findForKyc` answers. -/
def FoundConsumer (I : PersonStore.Store → Prop) (phoneNumber : String) (found : Option User) : Prop :=
  ∀ u, found = some u → ∃ s, I s ∧ u ∈ consumersByPhone phoneNumber s

theorem upholds_findForKyc {phoneNumber : String} :
    Upholds I W (FoundConsumer I phoneNumber) (findForKyc phoneNumber) := by
  rw [findForKyc]
  split
  · exact Upholds.pure fun u h => nomatch h
  · refine Upholds.findOne (fun u h => nomatch h) fun s u hs hu v hv => ?_
    rw [← Option.some.inj hv]
    exact ⟨s, hs, hu⟩

variable (config : SessionConfig)

/-- An account that may be inserted. -/
def Inserts (I : PersonStore.Store → Prop) (W : Write → Prop) (row : ℕ → User) : Prop :=
  ∀ s id, I s → s.users.find? id = none → W (.user (row id))

/-- An id that no account had. -/
def Free (I : PersonStore.Store → Prop) (id : ℕ) : Prop := ∃ s, I s ∧ s.users.find? id = none

theorem upholds_insertUser {row : ℕ → User} (hid : ∀ id, (row id).id = id) (h : Inserts I W row) :
    Upholds I W (fun u => ∃ id, Free I id ∧ u = row id) (insertUser row) := by
  have hfree : ∀ {s : PersonStore.Store} {n : ℕ},
      Storage.present s (Storage.keyOf PersonStore.Store (Write.user (row n))) = false →
        s.users.find? n = none := by
    intro s n hn
    simpa [Write.key, Store.present, hid] using hn
  refine Upholds.receive.bind fun _ _ => Upholds.require.bind fun _ _ =>
    (Upholds.insertRow_free fun s n hs hn => h s n hs (hfree hn)).bind fun id hid => ?_
  obtain ⟨s, hs, hn⟩ := hid
  exact Upholds.pure ⟨id, ⟨s, hs, hfree hn⟩, rfl⟩

theorem upholds_createConsumer (hphone : ∀ row, W (.phone row))
    (hidentity : ∀ row, W (.identity row)) (hlinks : Links I W) {phone nationality : String}
    {fullName : Option String} {pinHash : Personal String}
    (hpin : Upholds I W (fun _ => True) pinHash)
    (hnew : ∀ hash now, Inserts I W (newConsumer phone fullName nationality hash now)) :
    Upholds I W (fun u => ∃ hash now id, Free I id ∧
        u = newConsumer phone fullName nationality hash now id)
      (createConsumer phone fullName nationality pinHash) := by
  refine Upholds.bind (Q := fun u => ∃ hash now id, Free I id ∧
        u = newConsumer phone fullName nationality hash now id)
    (Upholds.transaction (hpin.bind fun hash _ => Upholds.receive.bind fun now _ =>
      (upholds_insertUser (fun _ => rfl) (hnew hash now)).mono fun u hu => ⟨hash, now, hu⟩))
    fun user huser => ?_
  split
  · exact Upholds.pure huser
  · exact (upholds_findOrCreateByPhone hphone hidentity hlinks).bind fun _ _ => Upholds.pure huser

theorem upholds_tempPinHash : Upholds I W (fun _ => True) (tempPinHash config) :=
  Upholds.receive.bind fun _ _ => Upholds.receive.bind fun _ _ => Upholds.receive.bind fun _ _ =>
    Upholds.pure trivial

/-- The answer is a consumer account of the number, or a new one. -/
theorem upholds_findOrCreateForKyc (hphone : ∀ row, W (.phone row))
    (hidentity : ∀ row, W (.identity row)) (hlinks : Links I W) {phoneNumber : String}
    {fullName nationality : Option String}
    (hnew : ∀ phone hash now, Inserts I W
      (newConsumer phone fullName (nationality.getD "MA") hash now)) :
    Upholds I W (fun u =>
        (∃ norm s, normalizedOrThrow phoneNumber = .ok norm ∧ I s ∧ u ∈ consumersByPhone norm s) ∨
          ∃ norm hash now id, Free I id ∧
            u = newConsumer norm fullName (nationality.getD "MA") hash now id)
      (findOrCreateForKyc config phoneNumber fullName nationality) := by
  refine Upholds.ofExcept.bind fun norm hnorm => upholds_findForKyc.bind fun existing hexisting => ?_
  cases existing with
  | some existing =>
    obtain ⟨s, hs, hmem⟩ := hexisting existing rfl
    exact Upholds.pure (.inl ⟨norm, s, hnorm, hs, hmem⟩)
  | none =>
    refine Upholds.attempt ((upholds_createConsumer hphone hidentity hlinks
      (upholds_tempPinHash config) (hnew norm)).mono fun u hu => ?_) fun e => ?_
    · obtain ⟨hash, now, id, hfree, rfl⟩ := hu
      exact .inr ⟨norm, hash, now, id, hfree, rfl⟩
    · split
      · refine upholds_findForKyc.bind fun found hfound => Upholds.expect.mono fun u hu => ?_
        obtain ⟨s, hs, hmem⟩ := hfound u hu
        exact .inl ⟨norm, s, hnorm, hs, hmem⟩
      · exact Upholds.throw

end Identity

/-- The columns of an account that the logins leave alone. -/
structure SameAccount (u u' : User) : Prop where
  id : u'.id = u.id
  status : u'.status = u.status
  phoneNumber : u'.phoneNumber = u.phoneNumber
  accountType : u'.accountType = u.accountType

/-- Writes that the logins make. -/
structure Admits (I : PersonStore.Store → Prop) (W : Write → Prop) : Prop where
  other : ∀ w, (∀ u, w ≠ .user u) → W w
  same : ∀ s u u', I s → u ∈ s.users.rows → SameAccount u u' → W (.user u')
  consumers : ∀ phone fullName nationality hash now,
    Inserts I W (newConsumer phone fullName nationality hash now)

/-- An account that was listed for a number. -/
def Listed (I : PersonStore.Store → Prop) (account : ℕ × AccountType) : Prop :=
  ∃ s u, I s ∧ u ∈ s.users.rows ∧ u.phoneNumber ≠ none ∧
    account = (u.id, u.accountType.getD .consumer)

/-- The profile of an account, as it was read. -/
def Profiled (I : PersonStore.Store → Prop) (userId : ℕ) (profile : Option TokenProfile) : Prop :=
  ∀ p, profile = some p → ∃ s u, I s ∧ s.users.find? userId = some u ∧ p = tokenProfile u

/-- A token of an account that was listed for a number. -/
def OfListed (I : PersonStore.Store → Prop) (token : AccessToken) : Prop :=
  ∃ account identityId authMethod profile, Listed I account ∧ Profiled I account.1 profile ∧
    token = issueAccountScopedToken account.1 identityId account.2 authMethod profile

section Admitted

variable {I : PersonStore.Store → Prop} {W : Write → Prop}

namespace Admits

theorem phone (h : Admits I W) (row : IdentityPhoneNumber) : W (.phone row) :=
  h.other _ fun _ hu => nomatch hu

theorem identity (h : Admits I W) (row : UnifiedIdentity) : W (.identity row) :=
  h.other _ fun _ hu => nomatch hu

theorem links (h : Admits I W) : Links I W :=
  fun s u _ hs hu _ => h.same s u _ hs hu ⟨rfl, rfl, rfl, rfl⟩

theorem findOrCreateByPhone (h : Admits I W) {phoneNumber : String} :
    Upholds I W (fun _ => True) (IdentityPhones.findOrCreateByPhone phoneNumber) :=
  upholds_findOrCreateByPhone h.phone h.identity h.links

theorem findOrCreateForKyc (h : Admits I W) (config : SessionConfig) {phoneNumber : String}
    {fullName nationality : Option String} :
    Upholds I W (fun u =>
        (∃ norm s, normalizedOrThrow phoneNumber = .ok norm ∧ I s ∧ u ∈ consumersByPhone norm s) ∨
          ∃ norm hash now id, Free I id ∧
            u = newConsumer norm fullName (nationality.getD "MA") hash now id)
      (OtpLogin.findOrCreateForKyc config phoneNumber fullName nationality) :=
  upholds_findOrCreateForKyc config h.phone h.identity h.links fun phone hash now =>
    h.consumers phone fullName (nationality.getD "MA") hash now

/-- The update of an account that is found by its id. -/
theorem touch (h : Admits I W) {userId : ℕ} {change : User → User}
    (hsame : ∀ u, SameAccount u (change u)) {s : PersonStore.Store} (hs : I s) {w : Write}
    (hw : w ∈ (s.users.find? userId).toList.map fun u => Write.user (change u)) : W w := by
  obtain ⟨u, hu, rfl⟩ := List.mem_map.mp hw
  exact h.same s u _ hs (Table.mem_of_find? (Option.mem_toList.mp hu)) (hsame u)

end Admits

theorem upholds_tokenProfile {userId : ℕ} :
    Upholds I W (Profiled I userId) (tokenProfileForUser userId) := by
  refine Upholds.bind (Q := fun found => ∀ u, found = some u → ∃ s, I s ∧ s.users.find? userId = some u)
    (Upholds.query fun s hs u hu => ⟨s, hs, hu⟩) fun found hfound => ?_
  cases found with
  | none => exact Upholds.pure fun p h => nomatch h
  | some u =>
    obtain ⟨s, hs, hu⟩ := hfound u rfl
    refine (Upholds.query (Q := fun _ => True) fun _ _ => trivial).bind fun _ _ =>
      Upholds.pure fun p hp => ⟨s, u, hs, hu, (Option.some.inj hp).symm⟩

theorem upholds_findAccounts {phoneNumber : String} :
    Upholds I W (fun accounts => ∀ a ∈ accounts, Listed I a)
      (OtpLogin.findAccountsByPhone phoneNumber) := by
  rw [OtpLogin.findAccountsByPhone]
  split
  · exact Upholds.pure fun a ha => nomatch ha
  · refine Upholds.bind (Q := fun rows => ∃ s, I s ∧ ∀ u ∈ rows, u ∈ usersByPhone phoneNumber s)
      (Upholds.findAll fun s n hs => ⟨s, hs, fun u hu => mem_arranged.mp hu⟩) fun rows hrows => ?_
    obtain ⟨s, hs, hrows⟩ := hrows
    refine Upholds.pure fun a ha => ?_
    obtain ⟨u, hu, rfl⟩ := List.mem_map.mp ha
    obtain ⟨hmem, hphone⟩ := List.mem_filter.mp (hrows u hu)
    refine ⟨s, u, hs, hmem, fun hnone => ?_, rfl⟩
    rw [hnone] at hphone
    cases hphone

variable (config : SessionConfig)

theorem upholds_accountsOf (h : Admits I W) {norm : String} :
    Upholds I W (fun accounts => ∀ a ∈ accounts, Listed I a) (accountsOf config norm) := by
  refine upholds_findAccounts.bind fun accounts haccounts => ?_
  split
  · exact Upholds.pure haccounts
  · exact (h.findOrCreateForKyc config).bind fun _ _ => upholds_findAccounts

theorem upholds_readNexaProfile {norm : String} :
    Upholds I W (fun _ => True) (readNexaProfile norm) := by
  refine upholds_findByCandidates.bind fun identity _ => ?_
  cases identity with
  | some identity =>
    simp only
    split
    · exact Upholds.query fun _ _ => trivial
    · exact Upholds.pure trivial
  | none =>
    refine (Upholds.findAll (Q := fun _ => True) fun _ _ _ => trivial).bind fun users _ => ?_
    split
    · exact Upholds.pure trivial
    · exact Upholds.query fun _ _ => trivial

theorem upholds_kycOf {consumer : Option User} : Upholds I W (fun _ => True) (kycOf consumer) := by
  cases consumer with
  | none => exact Upholds.pure trivial
  | some consumer => exact Upholds.query fun _ _ => trivial

theorem upholds_ensureAdminIdentity (h : Admits I W) (staff : StaffLogin.StaffConfig)
    {userId : ℕ} :
    Upholds I W (fun _ => True) (StaffLogin.ensureIdentityForAdminUser staff userId) := by
  refine (Upholds.query (Q := fun _ => True) fun _ _ => trivial).bind fun found _ =>
    Upholds.expect.bind fun user _ => ?_
  split
  · exact Upholds.pure trivial
  · refine (Upholds.insertRow fun _ _ _ _ => h.identity _).bind fun id _ =>
      (Upholds.writeRows fun s hs w hw => ?_).bind fun _ _ => Upholds.pure trivial
    exact h.touch (fun u => (⟨rfl, rfl, rfl, rfl⟩ :
      SameAccount u { u with unifiedIdentityId := some id })) hs hw

theorem upholds_savedOtp (h : Admits I W) {id : ℕ} {new : OtpCode} :
    Upholds I W (fun _ => True) (saveEntity (savedOtp id) .database new : Personal Unit) :=
  upholds_saveEntity (h.other _ fun _ hu => nomatch hu)
    fun _ _ _ _ _ => h.other _ fun _ hu => nomatch hu

end Admitted

/-- Invariants and writes of the store of the sessions that go with those of the persons. -/
structure Carries (I : PersonStore.Store → Prop) (W : Write → Prop)
    (I' : SessionStore.Store → Prop) (W' : SessionStore.Write → Prop) : Prop where
  admits : Admits I W
  person : ∀ s, I' s → I s.login.person
  write : ∀ w, W w → W' (.login (.person w))
  otpAttempt : ∀ row, W' (.login (.otpAttempt row))
  trustedDevice : ∀ row, W' (.login (.trustedDevice row))
  otpSession : ∀ row, W' (.otpSession row)
  refreshToken : ∀ row, W' (.refreshToken row)

section Sessions

variable {I : PersonStore.Store → Prop} {W : Write → Prop} {I' : SessionStore.Store → Prop}
  {W' : SessionStore.Write → Prop} {α : Type} {Q : α → Prop}

/-- The same on the store of the logins. -/
def loginI (I' : SessionStore.Store → Prop) (s : LoginStore.Store) : Prop :=
  ∃ t, I' t ∧ t.login = s

def loginW (W' : SessionStore.Write → Prop) (w : LoginStore.Write) : Prop := W' (.login w)

namespace Carries

theorem onLogin {p : LoginStore.Login α} (h : Upholds (loginI I') (loginW W') Q p) :
    Upholds I' W' Q (Access.onLogin p) :=
  upholds_within logins (fun s hs => ⟨s, hs, rfl⟩) (fun _ hw => hw) h

theorem onPerson (hc : Carries I W I' W') {p : Personal α} (h : Upholds I W Q p) :
    Upholds I' W' Q (Access.onPerson p) := by
  refine onLogin (upholds_within LoginStore.personal (fun s hs => ?_) (fun w hw => hc.write w hw) h)
  obtain ⟨t, ht, rfl⟩ := hs
  exact hc.person t ht

theorem getOrCreateAttempt (hc : Carries I W I' W') {phoneNumber ip : String} :
    Upholds (loginI I') (loginW W') (fun _ => True)
      (StaffLogin.getOrCreateAttempt phoneNumber ip) := by
  refine (Upholds.findOne (Q := fun _ => True) trivial fun _ _ _ _ => trivial).bind
    fun found _ => ?_
  cases found with
  | some record => exact Upholds.pure trivial
  | none =>
    exact Upholds.receive.bind fun now _ =>
      (Upholds.insertRow (W := loginW W') fun _ _ _ _ => hc.otpAttempt _).bind fun _ _ => Upholds.pure trivial

theorem saveAttempt (hc : Carries I W I' W') {id : ℕ} {new : IdentityStore.OtpAttempt} :
    Upholds (loginI I') (loginW W') (fun _ => True)
      (saveEntity (LoginStore.savedOtpAttempt id) .database new : LoginStore.Login Unit) :=
  upholds_saveEntity (hc.otpAttempt _) fun _ _ _ _ _ => hc.otpAttempt _

theorem isLockedOut (hc : Carries I W I' W') {phoneNumber ip : String} :
    Upholds (loginI I') (loginW W') (fun _ => True) (StaffLogin.isLockedOut phoneNumber ip) := by
  refine hc.getOrCreateAttempt.bind fun record _ => ?_
  split
  · exact Upholds.pure trivial
  · refine Upholds.receive.bind fun now _ => ?_
    split
    · exact hc.saveAttempt.bind fun _ _ => Upholds.pure trivial
    · exact Upholds.pure trivial

theorem recordFailure (hc : Carries I W I' W') {phoneNumber ip : String} :
    Upholds (loginI I') (loginW W') (fun _ => True) (StaffLogin.recordFailure phoneNumber ip) :=
  hc.getOrCreateAttempt.bind fun _ _ => Upholds.receive.bind fun _ _ => hc.saveAttempt

theorem recordSuccess (hc : Carries I W I' W') {phoneNumber ip : String} :
    Upholds (loginI I') (loginW W') (fun _ => True) (StaffLogin.recordSuccess phoneNumber ip) := by
  refine (Upholds.findOne (Q := fun _ => True) trivial fun _ _ _ _ => trivial).bind
    fun found _ => ?_
  cases found with
  | none => exact Upholds.pure trivial
  | some record => exact Upholds.receive.bind fun _ _ => hc.saveAttempt

theorem upsertTrustedDevice (hc : Carries I W I' W') {userId : ℕ}
    {ctx : PinLogin.RefreshTokenContext} {trusted : Bool} :
    Upholds (loginI I') (loginW W') (fun _ => True)
      (PinLogin.upsertTrustedDevice userId ctx trusted) := by
  rw [PinLogin.upsertTrustedDevice]
  split
  · exact Upholds.pure trivial
  · refine Upholds.receive.bind fun now _ =>
      (Upholds.findOne (Q := fun _ => True) trivial fun _ _ _ _ => trivial).bind
        fun existing _ => ?_
    cases existing with
    | none =>
      exact (Upholds.insertRow (W := loginW W') fun _ _ _ _ => hc.trustedDevice _).bind fun _ _ =>
        Upholds.pure trivial
    | some device =>
      exact upholds_saveEntity (hc.trustedDevice _) fun _ _ _ _ _ => hc.trustedDevice _

end Carries

variable (config : SessionConfig)

theorem upholds_issueRefreshToken (hc : Carries I W I' W') {userId : ℕ}
    {deviceId userAgent ip : Option String} {replaces : Option ℕ} :
    Upholds I' W' (fun _ => True)
      (OtpLogin.issueRefreshToken config userId deviceId userAgent ip replaces) :=
  Upholds.receive.bind fun _ _ => Upholds.receive.bind fun _ _ =>
    (Upholds.insertRow fun _ _ _ _ => hc.refreshToken _).bind fun _ _ =>
      Upholds.pure (Q := fun _ => True) trivial

theorem upholds_issueTokens (hc : Carries I W I' W') {account : ℕ × AccountType}
    (haccount : Listed I account) {identityId : ℕ} {ip : String}
    {ctx : PinLogin.RefreshTokenContext} :
    Upholds I' W' (fun tokens => OfListed I tokens.1)
      (OtpLogin.issueTokens config account identityId ip ctx) :=
  (hc.onPerson upholds_tokenProfile).bind fun profile hprofile =>
    (upholds_issueRefreshToken config hc).bind fun _ _ =>
      (Carries.onLogin hc.upsertTrustedDevice).bind fun _ _ =>
        Upholds.pure ⟨account, identityId, _, profile, haccount, hprofile, rfl⟩

theorem mem_of_selected {options : VerifyOptions} {accounts : List (ℕ × AccountType)}
    {account : ℕ × AccountType} (h : selected options accounts = some account) :
    account ∈ accounts := by
  rw [selected] at h
  split at h
  · exact List.mem_of_find?_eq_some h
  · split at h
    next found hfound =>
      rw [Option.or_eq_some_iff] at hfound
      obtain rfl := Option.some.inj h
      obtain hauto | ⟨-, hpreferred⟩ := hfound
      · rw [autoSelected.eq_def] at hauto
        split at hauto <;> cases hauto
        all_goals exact List.mem_singleton.mpr rfl
      · rw [preferredByRole] at hpreferred
        split at hpreferred
        · exact List.mem_of_find?_eq_some hpreferred
        · split at hpreferred
          · exact List.mem_of_find?_eq_some hpreferred
          · cases hpreferred
    next =>
      split at h
      · exact List.mem_of_find?_eq_some h
      · cases h

/-- The token of a session, or of a listed account. -/
def AnswersListed (I : PersonStore.Store → Prop) (answer : OtpAnswer) : Prop :=
  ∀ token, answer.accessToken = some token → OfListed I token

theorem upholds_verified (hc : Carries I W I' W') {norm ip : String}
    {ctx : PinLogin.RefreshTokenContext} {options : VerifyOptions} :
    Upholds I' W' (AnswersListed I) (verified config norm ip ctx options) := by
  refine (hc.onPerson hc.admits.findOrCreateByPhone).bind fun identity _ =>
    (hc.onPerson (upholds_accountsOf config hc.admits)).bind fun accounts haccounts =>
    (hc.onPerson upholds_findForKyc).bind fun consumer _ =>
    (hc.onPerson upholds_kycOf).bind fun kyc _ =>
    (hc.onPerson upholds_readNexaProfile).bind fun _ _ => ?_
  have hopen : Upholds I' W' (fun _ => True) (openSession norm (sessionUser consumer accounts)) :=
    Upholds.receive.bind fun _ _ => Upholds.receive.bind fun _ _ =>
      (Upholds.insertRow fun _ _ _ _ => hc.otpSession _).bind fun _ _ => Upholds.pure trivial
  refine hopen.bind fun sub _ => ?_
  cases hselected : selected options accounts with
  | none => exact Upholds.pure fun token h => nomatch h
  | some account =>
    refine (upholds_issueTokens config hc (haccounts account (mem_of_selected hselected))).bind
      fun tokens htokens => Upholds.pure fun token h => ?_
    rw [← Option.some.inj h]
    exact htokens

theorem upholds_verifyOtp (hc : Carries I W I' W') {phoneNumber otp ip : String}
    {ctx : PinLogin.RefreshTokenContext} {options : VerifyOptions} :
    Upholds I' W' (AnswersListed I) (verifyOtp config phoneNumber otp ip ctx options) := by
  have hrefused : AnswersListed I notVerified := fun token h => nomatch h
  refine Upholds.ofExcept.bind fun norm _ => (Carries.onLogin hc.isLockedOut).bind fun locked _ =>
    Upholds.require.bind fun _ _ =>
    (hc.onPerson (Upholds.findOne (Q := fun _ => True) trivial fun _ _ _ _ => trivial)).bind
      fun found _ => ?_
  have hfailed : Upholds I' W' (AnswersListed I)
      (do
        Access.onLogin (StaffLogin.recordFailure norm ip)
        pure notVerified) :=
    (Carries.onLogin hc.recordFailure).bind fun _ _ => Upholds.pure hrefused
  cases found with
  | none => exact hfailed
  | some record =>
    simp only
    split
    · exact hfailed
    · refine Upholds.receive.bind fun now _ => ?_
      split
      · exact Upholds.pure hrefused
      · split
        · exact Upholds.bind (Q := fun _ => True) ((Carries.onLogin hc.recordSuccess).bind fun _ _ =>
            Upholds.receive.bind fun _ _ => hc.onPerson (upholds_savedOtp hc.admits))
            fun _ _ => upholds_verified config hc
        · exact (Carries.onLogin hc.recordFailure).bind fun _ _ => Upholds.receive.bind fun _ _ =>
            (hc.onPerson (upholds_savedOtp hc.admits)).bind fun _ _ => Upholds.pure hrefused

end Sessions

section Standing

variable (s₀ : PersonStore.Store)

/-- An account is as it was, or it is a new consumer account. -/
def Standing (u : User) : Prop :=
  match s₀.users.find? u.id with
  | some u₀ => SameAccount u₀ u
  | none => u.status = "ACTIVE" ∧ u.accountType = some .consumer

def StandingWrite (w : Write) : Prop := ∀ u, w = .user u → Standing s₀ u

structure AccountsStand (s : PersonStore.Store) : Prop where
  rows : ∀ u ∈ s.users.rows, Standing s₀ u
  kept : ∀ id, s.users.find? id = none → s₀.users.find? id = none

variable {s₀}

theorem accountsStand_self : AccountsStand s₀ s₀ := by
  refine ⟨fun u hu => ?_, fun _ h => h⟩
  rw [Standing, Table.find?_key hu]
  exact ⟨rfl, rfl, rfl, rfl⟩

theorem accountsStand_write {s : PersonStore.Store} {w : Write} (hw : StandingWrite s₀ w)
    (hs : AccountsStand s₀ s) : AccountsStand s₀ (s.write w) := by
  cases w with
  | user v =>
    refine ⟨fun u hu => ?_, fun id hid => ?_⟩
    · obtain hu | hu := Table.mem_put.mp hu
      · rw [hu]
        exact hw v rfl
      · exact hs.rows u hu.1
    · refine hs.kept id ?_
      simp only [Store.write, Table.find?_put] at hid
      split at hid
      · cases hid
      · exact hid
  | _ => exact ⟨hs.rows, hs.kept⟩

theorem standing_same {u u' : User} (h : Standing s₀ u) (hsame : SameAccount u u') :
    Standing s₀ u' := by
  rw [Standing, hsame.id]
  rw [Standing] at h
  cases hu₀ : s₀.users.find? u.id with
  | some u₀ =>
    simp only [hu₀] at h
    exact ⟨hsame.id.trans h.id, hsame.status.trans h.status,
      hsame.phoneNumber.trans h.phoneNumber, hsame.accountType.trans h.accountType⟩
  | none =>
    simp only [hu₀] at h
    exact ⟨hsame.status.trans h.1, hsame.accountType.trans h.2⟩

theorem admits_standing : Admits (AccountsStand s₀) (StandingWrite s₀) where
  other w h u hu := absurd hu (h u)
  same s u u' hs hu hsame v hv := by
    obtain rfl := Write.user.inj hv
    exact standing_same (hs.rows u hu) hsame
  consumers phone fullName nationality hash now s id hs hid v hv := by
    obtain rfl := Write.user.inj hv
    have hnone : s₀.users.find? id = none := hs.kept id hid
    simp [Standing, newConsumer, hnone]

end Standing

end NexaStays.AccountFrame
