import NexaStays.PhoneResolution
import NexaStays.PinLogin

/-!
# Whose account a PIN opens

The account whose PIN is checked is stored exactly under a text, the account that is logged in
under any form of the number. They are the same in every login exactly when no other account of
the requested type is stored under one of the forms.
-/
namespace NexaStays.PinAccount

open NexaStays.KeyedTable NexaStays.Transactions NexaStays.EntitySave NexaStays.PersonStore
open NexaStays.Sequences NexaStays.Completions NexaStays.Snapshots NexaStays.Embedding
open NexaStays.Phases NexaStays.LoginStore NexaStays.AccessTokens NexaStays.Secrets
open NexaStays.RowOrder NexaStays.IdentityPhones NexaStays.PinLogin
open NexaStays.PhoneChange (normalizedOrThrow)
open NexaStays.IdentityStore (AccountType PinAttempt TrustedDevice)

variable (config : PinConfig)

/-- The call may check the PIN of the account. -/
def Checked (phoneNumber normalized : String) (requested : AccountType) (users : List User)
    (u : User) : Prop :=
  u ∈ storedUnder normalized requested users ∨
    storedUnder normalized requested users = [] ∧ normalized ≠ phoneNumber ∧
      u ∈ storedUnder phoneNumber requested users

/-- The account is stored under a form of the number; without a type it is a consumer account. -/
def Listed (normalized : String) (requested : AccountType) (u : User) : Prop :=
  u.phoneNumber.any (fun p => p.toList ∈ PhoneNumbers.phoneLookupCandidates normalized.toList) =
    true ∧ u.accountType.getD .consumer = requested

/-- No account that a PIN opens is checked in the place of another one. -/
def Unambiguous (users : List User) : Prop :=
  ∀ phoneNumber normalized requested, normalizedPhone phoneNumber = .ok normalized →
    ∀ u, Checked phoneNumber normalized requested users u →
      (∃ pin, (verifyPinHash config.hashes pin u.pinHash).valid = true) →
      ∀ u' ∈ users, Listed normalized requested u' → u'.id = u.id

/-- The account in the answer and in the tokens is the one whose PIN was checked. -/
def Own (answer : PinAnswer) : Prop :=
  answer.userId = answer.checkedId ∧ answer.accessToken.sub = answer.checkedId ∧
    answer.refreshToken.userId = answer.checkedId

/-- Every login on these accounts that is answered opens the account of the PIN. -/
def OpensOwn (users : Table User.id) : Prop :=
  ∀ (s : LoginStore.Store), s.person.users = users →
    ∀ phoneNumber pin accountType ctx riskDecision sys answer,
      System.Run (fun _ _ => True)
        (solo () s (verifyPin config phoneNumber pin accountType ctx riskDecision)) sys →
      answerOf sys 0 = some answer → Own answer

/-- The tables of the persons and the devices. -/
def loginView (s : LoginStore.Store) :
    Option (PersonStore.Store × Table TrustedDevice.id) :=
  some (s.person, s.trustedDevices)

theorem plain_saveAttempt {userId : ℕ} {attempt : PinAttempt} :
    Plain loginView (saveEntity (savedAttempt userId) LoginError.database attempt : Login Unit) :=
  plain_saveEntity fun _ _ => rfl

theorem plain_getOrCreate (userId : ℕ) : Plain loginView (getOrCreate userId) := by
  refine Plain.query.bind fun found => ?_
  cases found with
  | some attempt => trivial
  | none => exact Plain.receive.bind fun now => plain_saveAttempt.bind fun _ => trivial

theorem plain_getStatus (userId : ℕ) : Plain loginView (getStatus userId) := by
  refine (plain_getOrCreate userId).bind fun attempt => Plain.receive.bind fun now => ?_
  cases attempt.lockoutUntil with
  | none => trivial
  | some lockoutUntil =>
    by_cases hover : lockoutUntil - now ≤ 0
    · simp only [if_pos hover]
      exact plain_saveAttempt.bind fun _ => trivial
    · simp only [if_neg hover]
      trivial

theorem plain_recordSuccess (userId : ℕ) : Plain loginView (recordSuccess userId) := by
  refine Plain.query.bind fun found => ?_
  cases found with
  | none => trivial
  | some attempt => exact Plain.receive.bind fun now => plain_saveAttempt

/-- The accounts are the same but for their PINs. -/
def SameAccounts (users users' : List User) : Prop :=
  ∀ u' ∈ users', ∃ u ∈ users, u.id = u'.id ∧ u.phoneNumber = u'.phoneNumber ∧
    u.accountType = u'.accountType

theorem sameAccounts_rehash {s : LoginStore.Store} (userId : ℕ) (hash : String) :
    SameAccounts s.person.users.rows (publish s ((s.person.users.find? userId).toList.map fun u =>
      LoginStore.Write.person (.user { u with pinHash := hash }))).person.users.rows := by
  intro u' hu'
  cases hfound : s.person.users.find? userId with
  | none =>
    rw [hfound] at hu'
    exact ⟨u', hu', rfl, rfl, rfl⟩
  | some u =>
    rw [hfound] at hu'
    have hput : u' ∈ (s.person.users.put { u with pinHash := hash }).rows := hu'
    obtain rfl | ⟨hmem, -⟩ := Table.mem_put.mp hput
    · exact ⟨u, Table.mem_of_find? hfound, rfl, rfl, rfl⟩
    · exact ⟨u', hmem, rfl, rfl, rfl⟩

theorem mustEnd_rehash {s : LoginStore.Store} (userId : ℕ) (pin : String) :
    MustEnd (Value fun _ ses t => ses = .idle ∧
      SameAccounts s.person.users.rows t.person.users.rows) (rehash config userId pin) .idle s := by
  refine MustEnd.bind (P := fun _ ses t => ses = .idle ∧ t = s)
    (MustEnd.receive fun n => ⟨rfl, rfl⟩) fun salt ses t ht => ?_
  obtain ⟨rfl, rfl⟩ := ht
  exact MustEnd.bind (P := fun _ ses u => ses = .idle ∧
      SameAccounts t.person.users.rows u.person.users.rows)
    (MustEnd.writeRows ⟨rfl, sameAccounts_rehash userId _⟩) fun _ ses u hu => MustEnd.pure hu

theorem mustEnd_checkPin {s : LoginStore.Store} (account : User) (pin : String) :
    MustEnd (Value fun _ ses t => ses = .idle ∧
      (verifyPinHash config.hashes pin account.pinHash).valid = true ∧
      SameAccounts s.person.users.rows t.person.users.rows)
      (checkPin config account pin) .idle s := by
  refine MustEnd.bind (P := fun _ ses t => ses = .idle ∧ t.person = s.person) ?_
    fun status ses t ht => ?_
  · exact (mustEnd_of_plain (plain_getStatus account.id) rfl).mono fun _ _ _ hr _ _ =>
      ⟨hr.1, (Prod.mk.inj (Option.some.inj hr.2)).1⟩
  obtain ⟨rfl, hperson⟩ := ht
  refine (MustEnd.require (P := fun _ ses u => ses = .idle ∧ u = t) fun _ => ⟨rfl, rfl⟩).bind
    fun _ ses u hu => ?_
  obtain ⟨rfl, rfl⟩ := hu
  rw [← hperson]
  by_cases hvalid : (verifyPinHash config.hashes pin account.pinHash).valid = true
  · simp only [if_pos hvalid]
    refine MustEnd.bind (P := fun _ ses (t : LoginStore.Store) => ses = .idle ∧
      SameAccounts u.person.users.rows t.person.users.rows) ?_ fun _ ses t ht => ?_
    · by_cases hrehash : (verifyPinHash config.hashes pin account.pinHash).needsRehash = true
      · rw [renewHash, if_pos hrehash]
        exact mustEnd_rehash config account.id pin
      · rw [renewHash, if_neg hrehash]
        exact MustEnd.pure ⟨rfl, fun u' hu' => ⟨u', hu', rfl, rfl, rfl⟩⟩
    · obtain ⟨rfl, hsame⟩ := ht
      refine (mustEnd_of_plain (plain_recordSuccess account.id) rfl).mono fun _ ses v hr _ _ => ?_
      obtain ⟨rfl, hview⟩ := hr
      rw [(Prod.mk.inj (Option.some.inj hview)).1]
      exact ⟨rfl, hvalid, hsame⟩
  · simp only [if_neg hvalid]
    refine (MustEnd.any (recordFailure config account.id)).bind fun failure ses t _ => ?_
    by_cases hlocked : failure.locked = true
    · rw [if_pos hlocked]
      exact fun _ ha => nomatch ha
    · rw [if_neg hlocked]
      exact fun _ ha => nomatch ha

theorem mustEnd_findAccount {s : LoginStore.Store} (phoneNumber normalized : String)
    (requested : AccountType) :
    MustEnd (Value fun found ses t => ses = .idle ∧ t = s ∧ ∀ u, found = some u →
      Checked phoneNumber normalized requested s.person.users.rows u)
      (findAccount phoneNumber normalized requested) .idle s := by
  refine (MustEnd.findOne (P := fun found ses t => ses = .idle ∧ t = s ∧
    ∃ n, found = Program.pick n (storedUnder normalized requested s.person.users.rows))
    fun n => ⟨rfl, rfl, n, rfl⟩).bind fun found ses t ht => ?_
  obtain ⟨rfl, rfl, n, rfl⟩ := ht
  by_cases hnone : Program.pick n (storedUnder normalized requested t.person.users.rows) = none ∧
      normalized ≠ phoneNumber
  · rw [if_pos hnone]
    refine MustEnd.findOne fun m => ⟨rfl, rfl, fun u hu => ?_⟩
    exact .inr ⟨Program.pick_eq_none hnone.1, hnone.2, Program.mem_of_pick hu⟩
  · rw [if_neg hnone]
    exact MustEnd.pure ⟨rfl, rfl, fun u hu => .inl (Program.mem_of_pick hu)⟩

/-- The tokens are those of the account that was selected. -/
theorem mustEnd_issueTokens {account : User} {selected : ℕ × AccountType} (normalized : String)
    (hselected : selected.1 = account.id) (ses : Session LoginStore.Key LoginStore.Write)
    (s : LoginStore.Store) :
    MustEnd (Value fun answer _ _ => Own answer) (issueTokens account selected normalized) ses s := by
  unfold issueTokens
  refine (MustEnd.any (recordLogin selected.1)).bind fun _ _ _ _ => ?_
  refine (MustEnd.any (identityOf account normalized)).bind fun identityId _ _ _ => ?_
  refine (MustEnd.any (Login.onPerson (tokenProfileForUser selected.1))).bind
    fun profile ses t _ => ?_
  have htoken : MustEnd (Value fun token _ _ => token.userId = selected.1)
      (Login.onPerson (issueRefreshToken selected.1)) ses t :=
    ⟨fun n _ => MustEnd.pure rfl, fun _ ha => by cases ha⟩
  exact htoken.bind fun token _ _ hid => MustEnd.pure ⟨hselected, hselected, hid.trans hselected⟩

/-- The accounts of the number are those that are listed under it. -/
theorem mustEnd_findAccounts {s : LoginStore.Store} {account : User} {normalized : String}
    {requested : AccountType}
    (hlisted : ∀ u ∈ s.person.users.rows, Listed normalized requested u → u.id = account.id) :
    MustEnd (Value fun accounts _ _ => ∀ a ∈ accounts, a.2 = requested → a.1 = account.id)
      (findAccountsByPhone normalized) .idle s := by
  unfold findAccountsByPhone
  refine MustEnd.bind (P := fun rows _ _ => ∀ u ∈ rows, u ∈ usersByPhone normalized s.person)
    (mustEnd_findAll fun n u hu => mem_arranged.mp hu) fun rows _ _ hrows => ?_
  refine MustEnd.pure fun a ha hrequested => ?_
  obtain ⟨u, hu, rfl⟩ := List.mem_map.mp ha
  obtain ⟨hmem, hphone⟩ := List.mem_filter.mp (hrows u hu)
  exact hlisted u hmem ⟨hphone, hrequested⟩

-- what the checks do does not matter, so their programs stay folded
attribute [local irreducible] checkDevice checkRisk in
theorem mustEnd_loginSelected {s : LoginStore.Store} {account : User} {normalized : String}
    {requested : AccountType} {ctx : RefreshTokenContext}
    {riskDecision : Option AdaptiveRiskDecision}
    (hlisted : ∀ u ∈ s.person.users.rows, Listed normalized requested u → u.id = account.id) :
    MustEnd (Value fun answer _ _ => Own answer)
      (loginSelected account normalized requested ctx riskDecision) .idle s := by
  unfold loginSelected
  refine (mustEnd_findAccounts hlisted).bind fun accounts ses t haccounts => ?_
  have hselect : MustEnd (Value fun selected _ _ => selected.1 = account.id)
      (Program.expect (accounts.find? fun a => a.2 = requested) (noSelected requested accounts) :
        Login (ℕ × AccountType)) ses t := by
    refine MustEnd.expect fun selected hfind => ?_
    exact haccounts selected (List.mem_of_find?_eq_some hfind) (by simpa using List.find?_some hfind)
  refine hselect.bind fun selected _ _ hselected => ?_
  refine (MustEnd.any (checkDevice selected.1 ctx)).bind fun _ _ _ _ => ?_
  refine (MustEnd.any (checkRisk selected.1 riskDecision)).bind fun _ ses t _ => ?_
  exact mustEnd_issueTokens normalized hselected ses t

theorem opensOwn_of_unambiguous {users : Table User.id} (h : Unambiguous config users.rows) :
    OpensOwn config users := by
  intro s hs phoneNumber pin accountType ctx riskDecision sys answer hrun hanswer
  subst hs
  have hend : MustEnd (Value fun answer _ _ => Own answer)
      (verifyPin config phoneNumber pin accountType ctx riskDecision) .idle s := by
    refine MustEnd.bind (P := fun normalized ses t => ses = .idle ∧ t = s ∧
      normalizedPhone phoneNumber = .ok normalized) ?_ fun normalized ses t ht => ?_
    · cases hnormal : normalizedPhone phoneNumber with
      | ok normalized => exact MustEnd.pure ⟨rfl, rfl, rfl⟩
      | error e => exact fun _ ha => nomatch ha
    obtain ⟨rfl, rfl, hnormal⟩ := ht
    refine (mustEnd_findAccount phoneNumber normalized _).bind fun found ses u hu => ?_
    obtain ⟨rfl, rfl, hchecked⟩ := hu
    refine (MustEnd.expect (P := fun account ses v => ses = .idle ∧ v = u ∧
      Checked phoneNumber normalized (accountType.getD .consumer) u.person.users.rows account)
      fun account hfound => ⟨rfl, rfl, hchecked account hfound⟩).bind fun account ses v hv => ?_
    obtain ⟨rfl, rfl, hchecked⟩ := hv
    refine (mustEnd_checkPin config account pin).bind fun _ ses w hw => ?_
    obtain ⟨rfl, hvalid, hsame⟩ := hw
    refine mustEnd_loginSelected fun x hx hlisted => ?_
    obtain ⟨x', hx', hid, hphone, htype⟩ := hsame x hx
    rw [← hid]
    exact h phoneNumber normalized _ hnormal account hchecked ⟨pin, hvalid⟩ x' hx'
      ⟨by rw [hphone]; exact hlisted.1, by rw [htype]; exact hlisted.2⟩
  obtain ⟨_, hown⟩ := value_of_run hend hrun hanswer
  exact hown

/-- A device that the account has trusted. -/
def sampleDevice (userId : ℕ) : TrustedDevice := ⟨0, userId, "device", none, true, 0⟩

def sampleContext : RefreshTokenContext := ⟨some "device", none⟩

/-- No failed attempts, and one trusted device. -/
def storeWith (users : Table User.id) (userId : ℕ) : LoginStore.Store :=
  { LoginStore.Store.blank with
    person := { PersonStore.Store.blank with users := users }
    trustedDevices := .ofRows [sampleDevice userId] }

theorem canEnd_recordSuccess (userId : ℕ) : CanEnd (recordSuccess userId) := by
  refine CanEnd.query.bind fun found => ?_
  cases found with
  | none => exact CanEnd.pure
  | some attempt => exact CanEnd.receive.bind fun now => canEnd_saveEntity

theorem mayEnd_getStatus {s : LoginStore.Store} {userId : ℕ}
    (hattempts : s.pinAttempts.find? userId = none) :
    MayEnd (Reaches fun status ses t => status.locked = false ∧ ses = .idle ∧
      loginView t = loginView s) (getStatus userId) .idle s := by
  have hend : MayEnd (Reaches fun status _ _ => status.locked = false) (getStatus userId)
      .idle s := by
    refine MayEnd.bind (P := fun attempt ses _ => attempt.lockoutUntil = none ∧ Outside ses) ?_
      fun attempt ses t ht => ?_
    · refine (MayEnd.query (P := fun found ses _ => found = none ∧ Outside ses)
        ⟨hattempts, outside_idle⟩).bind fun found ses t ht => ?_
      obtain ⟨rfl, hses⟩ := ht
      refine (CanEnd.receive ses t hses).bind fun now ses t hses => ?_
      exact (canEnd_saveEntity ses t hses).bind fun _ ses t hses => MayEnd.pure ⟨rfl, hses⟩
    · obtain ⟨hnone, hses⟩ := ht
      refine (CanEnd.receive ses t hses).bind fun now ses t hses => ?_
      rw [hnone]
      exact MayEnd.pure rfl
  exact mayEnd_of_plain hend (plain_getStatus userId) rfl

theorem mayEnd_rehash {s : LoginStore.Store} {u u' : User} (pin : String) (hne : u'.id ≠ u.id)
    (hu' : s.person.users.find? u'.id = some u') :
    MayEnd (Reaches fun _ ses t => ses = .idle ∧ t.person.users.find? u'.id = some u' ∧
      t.trustedDevices = s.trustedDevices) (rehash config u.id pin) .idle s := by
  refine (MayEnd.receive (P := fun _ ses t => ses = .idle ∧ t = s) 0 ⟨rfl, rfl⟩).bind
    fun salt ses t ht => ?_
  obtain ⟨rfl, rfl⟩ := ht
  refine MayEnd.bind (P := fun _ ses v => ses = .idle ∧ v.person.users.find? u'.id = some u' ∧
    v.trustedDevices = t.trustedDevices) (MayEnd.writeRows ⟨rfl, ?_⟩) fun _ _ _ hv =>
      MayEnd.pure hv
  simp only [Session.view, Session.idle, publish_nil, Session.visible]
  cases hfound : t.person.users.find? u.id with
  | none => exact ⟨hu', rfl⟩
  | some row =>
    refine ⟨?_, rfl⟩
    have hput : (t.person.users.put { row with
        pinHash := config.hashes.argon2Hash salt pin }).find? u'.id = some u' := by
      rw [Table.find?_put_of_ne, hu']
      show u'.id ≠ row.id
      rw [Table.key_of_find? hfound]
      exact hne
    exact hput

theorem mayEnd_checkPin {s : LoginStore.Store} {u : User} (u' : User) {pin : String}
    (hattempts : s.pinAttempts.find? u.id = none) (hne : u'.id ≠ u.id)
    (hu' : s.person.users.find? u'.id = some u')
    (hvalid : (verifyPinHash config.hashes pin u.pinHash).valid = true) :
    MayEnd (Reaches fun _ ses t => ses = .idle ∧ t.person.users.find? u'.id = some u' ∧
      t.trustedDevices = s.trustedDevices) (checkPin config u pin) .idle s := by
  refine (mayEnd_getStatus hattempts).bind fun status ses t ht => ?_
  obtain ⟨hlocked, rfl, hview⟩ := ht
  obtain ⟨hperson, hdevices⟩ := Prod.mk.inj (Option.some.inj hview)
  simp only [hlocked, hvalid, Program.require, if_true]
  show MayEnd _ (renewHash config u pin >>= fun _ => recordSuccess u.id) .idle t
  rw [← hperson] at hu'
  rw [← hdevices]
  refine MayEnd.bind (P := fun _ ses (v : LoginStore.Store) => ses = .idle ∧
    v.person.users.find? u'.id = some u' ∧ v.trustedDevices = t.trustedDevices) ?_
    fun _ ses v hv => ?_
  · by_cases hrehash : (verifyPinHash config.hashes pin u.pinHash).needsRehash = true
    · rw [renewHash, if_pos hrehash]
      exact mayEnd_rehash config pin hne hu'
    · rw [renewHash, if_neg hrehash]
      exact MayEnd.pure ⟨rfl, hu', rfl⟩
  · obtain ⟨rfl, hfind, hsame⟩ := hv
    refine (mayEnd_of_plain (canEnd_recordSuccess u.id .idle v outside_idle)
      (plain_recordSuccess u.id) rfl).mono fun r ses w hr => ?_
    obtain ⟨b, hr, -, rfl, hview⟩ := hr
    obtain ⟨hperson, hdevices⟩ := Prod.mk.inj (Option.some.inj hview)
    exact ⟨b, hr, rfl, by rw [hperson, hfind], by rw [hdevices, hsame]⟩

theorem mayEnd_checkDevice {s : LoginStore.Store} {userId : ℕ}
    (hdevices : s.trustedDevices = .ofRows [sampleDevice userId]) :
    MayEnd (Reaches fun _ ses _ => Outside ses) (checkDevice userId sampleContext) .idle s := by
  have hdevice : trimmedDevice sampleContext.deviceId ≠ "" := by decide
  have hslice : Sumsub.slice 120 (trimmedDevice sampleContext.deviceId) = "device" := by decide
  have hrows : devicesOf userId sampleContext.deviceId s = [sampleDevice userId] := by
    rw [devicesOf, hdevices, hslice]
    simp [Table.ofRows, Table.put, Table.putRows, Table.empty, sampleDevice]
  refine MayEnd.bind (P := fun trusted ses t => trusted = true ∧ Outside ses ∧ t = s) ?_
    fun trusted ses t ht => ?_
  · rw [isTrustedDevice, if_neg hdevice]
    refine (MayEnd.findOne (P := fun found ses t => found = some (sampleDevice userId) ∧
      ses = .idle ∧ t = s) 0 ⟨?_, rfl, rfl⟩).bind fun found ses t ht => ?_
    · show Program.pick 0 ((devicesOf userId sampleContext.deviceId s).filter (·.trusted)) = _
      rw [hrows]
      rfl
    · obtain ⟨rfl, rfl, rfl⟩ := ht
      exact MayEnd.pure ⟨rfl, outside_idle, rfl⟩
  · obtain ⟨rfl, hses, rfl⟩ := ht
    have hupsert : CanEnd (upsertTrustedDevice userId sampleContext true) := by
      rw [upsertTrustedDevice, if_neg hdevice]
      refine CanEnd.receive.bind fun now => CanEnd.findOne.bind fun existing => ?_
      cases existing with
      | none =>
        refine CanEnd.bind (CanEnd.insertRow fun u => ?_) fun _ => CanEnd.pure
        obtain ⟨n, hn⟩ := u.trustedDevices.exists_absent
        exact ⟨n, by simp [LoginStore.Write.key, LoginStore.Store.present, hn]⟩
      | some device => exact canEnd_saveEntity
    exact (hupsert ses t hses).bind fun _ ses t hses => MayEnd.pure hses

attribute [local irreducible] findOrCreateByPhone in
theorem canEnd_identityOf {account : User} {normalized : String}
    (hnormal : normalizedOrError normalized = .ok normalized) :
    CanEnd (identityOf account normalized) := by
  unfold identityOf
  cases account.unifiedIdentityId with
  | some identityId => exact CanEnd.pure
  | none =>
    exact (canEnd_within (PhoneResolution.canEnd_findOrCreate hnormal)).bind fun _ => CanEnd.pure

theorem canEnd_tokenProfile (userId : ℕ) : CanEnd (tokenProfileForUser userId) := by
  refine CanEnd.query.bind fun user => ?_
  cases user with
  | none => exact CanEnd.pure
  | some user => exact CanEnd.query.bind fun _ => CanEnd.pure

theorem canEnd_issueRefreshToken (userId : ℕ) : CanEnd (issueRefreshToken userId) := by
  refine CanEnd.bind (CanEnd.insertRow fun s => ?_) fun _ => CanEnd.pure
  obtain ⟨n, hn⟩ := s.refreshTokens.exists_absent
  exact ⟨n, by simp [PersonStore.Write.key, PersonStore.Store.present, hn]⟩

theorem mayEnd_issueTokens {ses : Session LoginStore.Key LoginStore.Write} {s : LoginStore.Store}
    (account : User) (selected : ℕ × AccountType) {normalized : String} (hses : Outside ses)
    (hnormal : normalizedOrError normalized = .ok normalized) :
    MayEnd (Reaches fun answer _ _ => answer.userId = selected.1 ∧ answer.checkedId = account.id)
      (issueTokens account selected normalized) ses s := by
  have hlogin : CanEnd (recordLogin selected.1) :=
    CanEnd.receive.bind fun now => CanEnd.writeRows.bind fun _ => CanEnd.pure
  refine (hlogin ses s hses).bind fun _ ses s hses => ?_
  refine (canEnd_identityOf hnormal ses s hses).bind fun identityId ses s hses => ?_
  refine (canEnd_within (canEnd_tokenProfile selected.1) ses s hses).bind
    fun profile ses s hses => ?_
  refine (canEnd_within (canEnd_issueRefreshToken selected.1) ses s hses).bind
    fun token ses s hses => ?_
  exact MayEnd.pure ⟨rfl, rfl⟩

theorem mayEnd_loginSelected {s : LoginStore.Store} {account u' : User} {normalized : String}
    {requested : AccountType} (hu' : s.person.users.find? u'.id = some u')
    (hlisted : Listed normalized requested u')
    (hdevices : s.trustedDevices = .ofRows [sampleDevice u'.id])
    (hnormal : normalizedOrError normalized = .ok normalized) :
    MayEnd (Reaches fun answer _ _ => answer.userId = u'.id ∧ answer.checkedId = account.id)
      (loginSelected account normalized requested sampleContext none) .idle s := by
  have hmem : u' ∈ usersByPhone normalized s.person :=
    List.mem_filter.mpr ⟨Table.mem_of_find? hu', hlisted.1⟩
  refine MayEnd.bind (P := fun accounts ses t => accounts.find? (fun a => a.2 = requested) =
    some (u'.id, requested) ∧ ses = .idle ∧ t = s) ?_ fun accounts ses t ht => ?_
  · refine (mayEnd_findAll (P := fun rows ses t =>
      rows = u' :: (usersByPhone normalized s.person).erase u' ∧ ses = .idle ∧ t = s)
      (List.perm_cons_erase hmem).symm ⟨rfl, rfl, rfl⟩).bind fun rows ses t ht => ?_
    obtain ⟨rfl, rfl, rfl⟩ := ht
    exact MayEnd.pure ⟨by simp [hlisted.2], rfl, rfl⟩
  obtain ⟨hfind, rfl, rfl⟩ := ht
  refine (MayEnd.expect (P := fun selected ses v => selected = (u'.id, requested) ∧ ses = .idle ∧
    v = t) hfind ⟨rfl, rfl, rfl⟩).bind fun selected ses v hv => ?_
  obtain ⟨rfl, rfl, rfl⟩ := hv
  refine (mayEnd_checkDevice hdevices).bind fun _ ses w hses => ?_
  exact (MayEnd.pure (P := fun _ ses _ => Outside ses) hses).bind fun _ ses w hses =>
    mayEnd_issueTokens account (u'.id, requested) hses hnormal

theorem unambiguous_of_opensOwn {users : Table User.id} (h : OpensOwn config users) :
    Unambiguous config users.rows := by
  intro phoneNumber normalized requested hnormal u hchecked hpin u' hu' hlisted
  obtain ⟨pin, hvalid⟩ := hpin
  by_contra hne
  have hnormal' : normalizedOrError normalized = .ok normalized := by
    have hthrow : normalizedOrThrow phoneNumber = .ok normalized := by
      cases hraw : normalizedOrThrow phoneNumber with
      | error e => rw [normalizedPhone, hraw] at hnormal; cases hnormal
      | ok n =>
        rw [normalizedPhone, hraw] at hnormal
        exact congrArg Except.ok (Except.ok.inj hnormal)
    exact PhoneResolution.normal_of_normalized hthrow
  have hstart : MayEnd (Reaches fun answer _ _ => answer.userId = u'.id ∧ answer.checkedId = u.id)
      (verifyPin config phoneNumber pin (some requested) sampleContext none) .idle
      (storeWith users u'.id) := by
    refine (MayEnd.ofExcept (P := fun n ses t => n = normalized ∧ ses = .idle ∧
      t = storeWith users u'.id) hnormal ⟨rfl, rfl, rfl⟩).bind fun n ses t ht => ?_
    obtain ⟨rfl, rfl, rfl⟩ := ht
    refine MayEnd.bind (P := fun found ses t => found = some u ∧ ses = .idle ∧
      t = storeWith users u'.id) ?_ fun found ses t ht => ?_
    · obtain hexact | ⟨hnone, hother, hraw⟩ := hchecked
      · obtain ⟨k, hk⟩ := exists_pick hexact
        refine (MayEnd.findOne (P := fun found ses t => found = some u ∧ ses = .idle ∧
          t = storeWith users u'.id) k ⟨hk, rfl, rfl⟩).bind fun found ses t ht => ?_
        obtain ⟨rfl, rfl, rfl⟩ := ht
        exact MayEnd.pure ⟨rfl, rfl, rfl⟩
      · obtain ⟨k, hk⟩ := exists_pick hraw
        refine (MayEnd.findOne (P := fun found ses t => found = none ∧ ses = .idle ∧
          t = storeWith users u'.id) 0 ⟨?_, rfl, rfl⟩).bind fun found ses t ht => ?_
        · show Program.pick 0 (storedUnder n requested users.rows) = none
          rw [hnone]
          rfl
        · obtain ⟨rfl, rfl, rfl⟩ := ht
          rw [if_pos ⟨rfl, hother⟩]
          exact MayEnd.findOne k ⟨hk, rfl, rfl⟩
    obtain ⟨rfl, rfl, rfl⟩ := ht
    refine (MayEnd.expect (P := fun account ses t => account = u ∧ ses = .idle ∧
      t = storeWith users u'.id) rfl ⟨rfl, rfl, rfl⟩).bind fun account ses t ht => ?_
    obtain ⟨rfl, rfl, rfl⟩ := ht
    refine (mayEnd_checkPin config u' rfl hne (Table.find?_key hu') hvalid).bind
      fun _ ses t ht => ?_
    obtain ⟨rfl, hfind, hdevices⟩ := ht
    exact mayEnd_loginSelected hfind hlisted hdevices hnormal'
  obtain ⟨sys, answer, hrun, hanswer, hid, hchecked⟩ := run_of_mayEnd (c := ()) hstart
  have hown := h (storeWith users u'.id) rfl phoneNumber pin (some requested) sampleContext none
    sys answer hrun hanswer
  exact hne (by rw [← hid, hown.1, hchecked])

/-- Every PIN opens its own account exactly when no account that a PIN opens has another one of
its type under a form of its number. -/
theorem opens_own_iff (users : Table User.id) :
    OpensOwn config users ↔ Unambiguous config users.rows :=
  ⟨unambiguous_of_opensOwn config, opensOwn_of_unambiguous config⟩

/-- PINs that are stored as they are. -/
def sampleConfig : PinConfig :=
  { hashes :=
      { argon2Hash := fun _ text => "$argon2id$" ++ text
        argon2Verify := fun hash text => hash = "$argon2id$" ++ text
        argon2NeedsRehash := fun _ => false
        bcryptCompare := fun text hash => text = hash }
    attemptWindowMinutes := 15
    maxAttempts := 5
    baseLockoutSeconds := 60
    maxLockoutSeconds := 3600 }

def storedAs (id : ℕ) (phoneNumber pin : String) : User :=
  { SharedProfile.account id .consumer "PENDING" with
    phoneNumber := some phoneNumber
    pinHash := pin }

/-- Two consumer accounts of one number, the second one stored in the national form. -/
def twoForms : Table User.id :=
  .ofRows [storedAs 1 "+212612345678" "1111", storedAs 2 "0612345678" "2222"]

/-- The PIN of the first account may open the second one. -/
theorem national_form_opened : ¬OpensOwn sampleConfig twoForms := by
  intro h
  have hid : (2 : ℕ) = 1 := unambiguous_of_opensOwn sampleConfig h "+212612345678" "+212612345678"
    .consumer (by decide +kernel) (storedAs 1 "+212612345678" "1111") (.inl (by decide +kernel))
    ⟨"1111", by decide +kernel⟩ (storedAs 2 "0612345678" "2222") (by decide +kernel)
    ⟨by decide +kernel, rfl⟩
  omega

end NexaStays.PinAccount
