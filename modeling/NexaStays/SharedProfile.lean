import NexaStays.ProfileSync

/-!
# What an update leaves of the shared profile

First, whether the accounts of an identity agree with it after an update as they did before.
Second, whether an update leaves a locked account its name and date of birth.
-/
namespace NexaStays.SharedProfile

open NexaStays.KeyedTable NexaStays.Transactions NexaStays.EntitySave NexaStays.Sequences
open NexaStays.Phases NexaStays.PersonStore NexaStays.ProfileSync

section Payload

variable {toDate : String → Option String} {user : User} {payload : UpdateProfileDto}
  {i : UnifiedIdentity} {key : SharedField} {v : FieldValue}

theorem canWrite_of_account (key : SharedField) (user : User) :
    canWriteFromService key (accountTypeToService user.accountType) = true := by
  have hall : ∀ key service, canWriteFromService key service = true := by
    intro key service
    cases key <;> cases service <;> rfl
  exact hall key _

/-- A submitted value is taken over unless its field is locked or a conflict is resolved
against it. -/
theorem calledPayload_eq_some : calledPayload toDate user payload i key = some v ↔
    sharedUpdates toDate payload key = some v ∧
      ¬((profileSyncRules key).requiresVerification = true ∧
        key ∈ lockedFields (isProfileLocked user)) ∧
      resolveConflict (identityField i key) v i.identityVerified
        (profileSyncRules key).conflictStrategy = .apply := by
  rw [calledPayload, sharedPayload]
  cases hupdate : sharedUpdates toDate payload key with
  | none => simp
  | some value =>
    have hwrite := canWrite_of_account key user
    simp only [hwrite, not_true_eq_false, if_false]
    split_ifs with hlocked
    · simp [hlocked]
    · cases hresolve : resolveConflict (identityField i key) value i.identityVerified
        (profileSyncRules key).conflictStrategy with
      | apply =>
        constructor
        · intro h
          obtain rfl := Option.some.inj h
          exact ⟨rfl, hlocked, hresolve⟩
        · exact fun h => h.1
      | skip =>
        constructor
        · exact fun h => nomatch h
        · rintro ⟨h, -, happly⟩
          obtain rfl := Option.some.inj h
          rw [hresolve] at happly
          cases happly

/-- A locked account passes on neither name nor date of birth. -/
theorem calledPayload_locked (hlocked : isProfileLocked user = true) :
    calledPayload toDate user payload i .fullName = none ∧
      calledPayload toDate user payload i .dateOfBirth = none := by
  constructor
  all_goals
    rw [Option.eq_none_iff_forall_ne_some]
    intro v hv
    refine (calledPayload_eq_some.mp hv).2.1 ⟨rfl, ?_⟩
    simp [hlocked, lockedFields]

end Payload

def amal : UnifiedIdentity :=
  { id := 1
    phoneNumber := some "+212600000001"
    fullName := some "Amal Idrissi"
    email := some "amal@example.com"
    dateOfBirth := some "1990-01-01"
    city := none
    address := none
    profilePhotoUrl := none
    preferredLanguage := none
    identityVerified := true
    identityVerificationStatus := "APPROVED"
    kycStatus := "VERIFIED"
    accountStatus := "ACTIVE"
    linkedServices := [.consumer, .host] }

def account (id : ℕ) (accountType : NexaStays.IdentityStore.AccountType) (kycStatus : String) :
    User :=
  { id
    phoneNumber := some "+212600000001"
    unifiedIdentityId := some 1
    fullName := some "Amal Idrissi"
    email := some "amal@example.com"
    nationality := none
    city := none
    dateOfBirth := some "1990-01-01"
    profilePhotoUrl := none
    profileLockedAt := none
    accountType := some accountType
    linkedUserId := none
    kycStatus
    pinHash := ""
    status := "ACTIVE"
    riskScore := 0
    lastLoginAt := none
    deletionStatus := .none
    deletionRequestedAt := none
    deletionScheduledFor := none
    piiAnonymizedAt := none
    createdAt := 0
    rewardsTier := "standard"
    staffRole := .admin
    staffPasswordHash := none
    authzVersion := 1 }

/-- The consumer account is verified and locked, the host account is not. -/
def twoAccounts : Store :=
  { Store.blank with
    users := .ofRows [account 1 .consumer "VERIFIED", account 2 .host "PENDING"]
    identities := .ofRows [amal] }

/-- A call that submits nothing. -/
def emptyDto : UpdateProfileDto := ⟨none, none, none, none, none, none, none, none⟩

def changeName : ProfileCall := ⟨2, { emptyDto with fullName := some (some "Someone Else") }⟩

def changeEmail : ProfileCall := ⟨2, { emptyDto with email := some (some "new@example.com") }⟩

def changeEmailAndNationality : ProfileCall :=
  ⟨2, { emptyDto with email := some (some "new@example.com"), nationality := some (some "MA") }⟩

/-- The system of one call that has run for `n` statements. -/
def ran (c : ProfileCall) (n : ℕ) : System ProfileCall Store Key Write PersonError User :=
  after (launch (program some) twoAccounts [c]) (System.turns 0 0 n)

/-- The accounts of the identity have its values in the fields they share. -/
def Agree (identityId : ℕ) (s : Store) : Prop :=
  ∀ i, s.identities.find? identityId = some i → ∀ u ∈ s.users.rows,
    u.unifiedIdentityId = some identityId → ∀ f : UserField,
      userField u f = identityField i f.shared

/-- A value is submitted that the identity takes over, and it is another one than it has. -/
def Replaces (toDate : String → Option String) (user : User) (payload : UpdateProfileDto)
    (i : UnifiedIdentity) (f : UserField) : Prop :=
  ∃ v, sharedUpdates toDate payload f.shared = some v ∧
    ¬((profileSyncRules f.shared).requiresVerification = true ∧
      f.shared ∈ lockedFields (isProfileLocked user)) ∧
    resolveConflict (identityField i f.shared) v i.identityVerified
      (profileSyncRules f.shared).conflictStrategy = .apply ∧
    v.column ≠ identityField i f.shared

/-- The call submits no nationality, or changes no field that its account shares. -/
def Plain (toDate : String → Option String) (identityId : ℕ) (s : Store) (c : ProfileCall) :
    Prop :=
  c.payload.nationality = none ∨ ∀ user i, s.users.find? c.userId = some user →
    user.unifiedIdentityId = some identityId → s.identities.find? identityId = some i →
      ∀ f, ¬Replaces toDate user c.payload i f

theorem setTo_calledPayload {toDate : String → Option String} {user : User}
    {payload : UpdateProfileDto} {i : UnifiedIdentity} {f : UserField} :
    setTo (calledPayload toDate user payload i f.shared) (identityField i f.shared) =
      identityField i f.shared ↔ ¬Replaces toDate user payload i f := by
  constructor
  · rintro h ⟨v, hupdate, hlocked, happly, hne⟩
    rw [calledPayload_eq_some.mpr ⟨hupdate, hlocked, happly⟩] at h
    exact hne h
  · intro hnot
    cases hcalled : calledPayload toDate user payload i f.shared with
    | none => rfl
    | some v =>
      obtain ⟨hupdate, hlocked, happly⟩ := calledPayload_eq_some.mp hcalled
      by_contra hne
      exact hnot ⟨v, hupdate, hlocked, happly, hne⟩

section Agreement

variable {identityId : ℕ} {s : Store}

theorem agree_synced (p : Fields) (h : Agree identityId s) (j : ℕ) :
    Agree identityId (synced j p s) := by
  intro i hi u hu hlinked f
  rw [synced_find_identity] at hi
  obtain ⟨i₀, hi₀, rfl⟩ := Option.map_eq_some_iff.mp hi
  obtain ⟨u₀, hu₀, rfl⟩ := mem_synced_users.mp hu
  have hid : i₀.id = identityId := Table.key_of_find? hi₀
  have hlinked₀ : u₀.unifiedIdentityId = some identityId := by
    by_cases hj : u₀.unifiedIdentityId = some j
    · rw [if_pos hj] at hlinked
      exact hlinked
    · rwa [if_neg hj] at hlinked
  have hfield := h i₀ hi₀ u₀ hu₀ hlinked₀ f
  by_cases hj : j = identityId
  · subst hj
    rw [if_pos hlinked₀, if_pos hid, setUser_field, setIdentity_field, hfield]
  · rw [if_neg (by rw [hlinked₀]; exact fun h => hj (Option.some.inj h).symm),
      if_neg (by rw [hid]; exact Ne.symm hj), hfield]

/-- The row of an account that is not linked to the identity. -/
theorem agree_put {u : User} (h : Agree identityId s) (hu : u.unifiedIdentityId ≠ some identityId) :
    Agree identityId (publish s [.user u]) := by
  intro i hi x hx hlinked f
  obtain rfl | ⟨hx, -⟩ := Table.mem_put.mp hx
  · exact absurd hlinked hu
  · exact h i hi x hx hlinked f

theorem agree_withNationality {u : User} {payload : UpdateProfileDto} (h : Agree identityId s)
    (hu : u.unifiedIdentityId ≠ some identityId) :
    Agree identityId (withNationality u payload s) := by
  unfold withNationality
  cases payload.nationality with
  | none => exact h
  | some nationality => exact agree_put h hu

/-- The row of an account that is linked to the identity. -/
theorem agree_put_iff {u : User} {i : UnifiedIdentity} (h : Agree identityId s)
    (hi : s.identities.find? identityId = some i) (hu : u.unifiedIdentityId = some identityId) :
    Agree identityId (publish s [.user u]) ↔
      ∀ f : UserField, userField u f = identityField i f.shared := by
  constructor
  · intro hput f
    exact hput i hi u (Table.mem_put_self s.users u) hu f
  · intro hfields i' hi' x hx hlinked f
    obtain rfl | ⟨hx, -⟩ := Table.mem_put.mp hx
    · obtain rfl := Option.some.inj (hi.symm.trans hi')
      exact hfields f
    · exact h i' hi' x hx hlinked f

end Agreement

theorem agree_twoAccounts : Agree 1 twoAccounts := by
  intro i hi u hu _ f
  have hi' : i = amal := by
    have hfind : twoAccounts.identities.find? 1 = some amal := rfl
    exact Option.some.inj (hi.symm.trans hfind)
  have hrows : ∀ u ∈ twoAccounts.users.rows, ∀ f ∈ allowed,
      userField u f = identityField amal f.shared := by decide
  rw [hi']
  exact hrows u hu f (by cases f <;> decide)

/-- After a call that has returned, the accounts of an identity agree with it again if and only
if the call is plain. -/
theorem agree_iff_plain {toDate : String → Option String} {identityId : ℕ} {s : Store}
    {c : ProfileCall} {sys : System ProfileCall Store Key Write PersonError User}
    (hagree : Agree identityId s)
    (hrun : System.Run (fun _ _ => True) (launch (program toDate) s [c]) sys)
    {t : Thread ProfileCall Store Key Write PersonError User} (ht : t ∈ sys.threads) {u : User}
    (hreturned : t.program = .pure u) :
    Agree identityId sys.store ↔ Plain toDate identityId s c := by
  have hreturns : Returns (fun _ _ => True) (fun _ t => Updated toDate c.userId c.payload s t)
      (program toDate c) s :=
    returns_updateProfile (fun _ _ _ _ _ _ _ _ => ⟨trivial, trivial, trivial⟩)
      fun _ _ _ => ⟨trivial, trivial⟩
  have hupdated := (chain_and_return hreturns hrun).2 t ht u hreturned
  generalize sys.store = t' at hupdated
  cases hupdated with
  | @own user hfound hnone =>
    have hother : (ownUpdated toDate user c.payload).unifiedIdentityId ≠ some identityId := by
      intro hlinked
      have hlinked' : user.unifiedIdentityId = some identityId := hlinked
      rw [hnone] at hlinked'
      cases hlinked'
    refine iff_of_true (agree_withNationality (agree_put hagree hother) hother) (.inr ?_)
    intro user' i hfound' hlinked
    obtain rfl := Option.some.inj (hfound.symm.trans hfound')
    rw [hnone] at hlinked
    cases hlinked
  | @linked user j i hfound hj hi =>
    have hsynced := agree_synced (calledPayload toDate user c.payload i) hagree j
    by_cases hsame : j = identityId
    · subst hsame
      have hmem := Table.mem_of_find? hfound
      have hfind : (synced j (calledPayload toDate user c.payload i) s).identities.find? j = _ :=
        synced_find_identity j
      rw [hi, Option.map_some, if_pos (Table.key_of_find? hi)] at hfind
      have hplain : (∀ f, ¬Replaces toDate user c.payload i f) ↔ ∀ user' i',
          s.users.find? c.userId = some user' → user'.unifiedIdentityId = some j →
            s.identities.find? j = some i' → ∀ f, ¬Replaces toDate user' c.payload i' f := by
        constructor
        · intro h user' i' hfound' _ hi'
          obtain rfl := Option.some.inj (hfound.symm.trans hfound')
          obtain rfl := Option.some.inj (hi.symm.trans hi')
          exact h
        · exact fun h => h user i hfound hj hi
      rw [Plain, ← hplain]
      unfold withNationality
      cases hnat : c.payload.nationality with
      | none => simp [hsynced]
      | some nationality =>
        have hrow : ({ user with nationality } : User).unifiedIdentityId = some j := hj
        simp only [reduceCtorEq, false_or]
        rw [agree_put_iff hsynced hfind hrow]
        refine forall_congr' fun f => ?_
        have hfield : userField { user with nationality } f = identityField i f.shared := by
          rw [← hagree i hi user hmem hj f]
          cases f <;> rfl
        rw [hfield, setIdentity_field, ← setTo_calledPayload]
        exact eq_comm
    · have hother : user.unifiedIdentityId ≠ some identityId := by
        rw [hj]
        exact fun h => hsame (Option.some.inj h)
      refine iff_of_true (agree_withNationality hsynced hother) (.inr ?_)
      intro user' i' hfound' hlinked
      obtain rfl := Option.some.inj (hfound.symm.trans hfound')
      exact absurd hlinked hother

/-- The host account changes its address of mail. -/
theorem agree_after_email : ∃ sys u,
    System.Run (fun _ _ => True) (launch (program some) twoAccounts [changeEmail]) sys ∧
      (∃ t ∈ sys.threads, t.program = .pure u) ∧ Agree 1 sys.store := by
  have hrun : System.Run (fun _ _ => True) (launch (program some) twoAccounts [changeEmail])
      (ran changeEmail 6) := run_after (by decide +kernel)
  have hends : ((ran changeEmail 6).threads.any fun t => t.program.result.isSome) = true := by
    decide +kernel
  obtain ⟨t, ht, hresult⟩ := List.any_eq_true.mp hends
  obtain ⟨u, hu⟩ := Option.isSome_iff_exists.mp hresult
  have hreturned := Program.result_eq_some.mp hu
  exact ⟨_, u, hrun, ⟨t, ht, hreturned⟩,
    (agree_iff_plain agree_twoAccounts hrun ht hreturned).mpr (.inl rfl)⟩

/-- With a nationality in the same call, its account keeps the old address. -/
theorem disagree_with_nationality : ∃ sys u, Agree 1 twoAccounts ∧
    System.Run (fun _ _ => True)
      (launch (program some) twoAccounts [changeEmailAndNationality]) sys ∧
    (∃ t ∈ sys.threads, t.program = .pure u) ∧ ¬Agree 1 sys.store := by
  have hrun : System.Run (fun _ _ => True)
      (launch (program some) twoAccounts [changeEmailAndNationality])
      (ran changeEmailAndNationality 8) := run_after (by decide +kernel)
  have hends : ((ran changeEmailAndNationality 8).threads.any fun t => t.program.result.isSome) =
      true := by decide +kernel
  obtain ⟨t, ht, hresult⟩ := List.any_eq_true.mp hends
  obtain ⟨u, hu⟩ := Option.isSome_iff_exists.mp hresult
  refine ⟨_, u, agree_twoAccounts, hrun, ⟨t, ht, Program.result_eq_some.mp hu⟩, fun hagree => ?_⟩
  have hidentity : ((ran changeEmailAndNationality 8).store.identities.find? 1).map (·.email) =
      some (some "new@example.com") := by decide +kernel
  have huser : ((ran changeEmailAndNationality 8).store.users.find? 2).map
      (fun u => (u.email, u.unifiedIdentityId)) = some (some "amal@example.com", some 1) := by
    decide +kernel
  obtain ⟨i, hi, hemail⟩ := Option.map_eq_some_iff.mp hidentity
  obtain ⟨host, hhost, hrow⟩ := Option.map_eq_some_iff.mp huser
  obtain ⟨hold, hlinked⟩ := Prod.mk.inj hrow
  have hsame := hagree i hi host (Table.mem_of_find? hhost) hlinked .email
  simp [userField, identityField, UserField.shared, hold, hemail] at hsame

/-- The name and the date of birth that a verified identity has in `s` it has in `t`. -/
def IdentityKept (identityId : ℕ) (s t : Store) : Prop :=
  ∀ i, s.identities.find? identityId = some i → i.identityVerified = true →
    ∃ i', t.identities.find? identityId = some i' ∧ i'.identityVerified = true ∧
      i'.fullName = i.fullName ∧ i'.dateOfBirth = i.dateOfBirth

/-- So do the locked accounts of the identity. -/
def AccountsKept (identityId : ℕ) (s t : Store) : Prop :=
  ∀ userId u, s.users.find? userId = some u → u.unifiedIdentityId = some identityId →
    isProfileLocked u = true →
      ∃ u', t.users.find? userId = some u' ∧ u'.unifiedIdentityId = some identityId ∧
        isProfileLocked u' = true ∧ u'.fullName = u.fullName ∧ u'.dateOfBirth = u.dateOfBirth

/-- Locked names and dates of birth are the same in both stores. -/
structure Kept (identityId : ℕ) (s t : Store) : Prop where
  identity : IdentityKept identityId s t
  accounts : AccountsKept identityId s t

section Keeping

variable {identityId : ℕ} {s t r : Store}

theorem Kept.refl (identityId : ℕ) (s : Store) : Kept identityId s s :=
  ⟨fun i hi hverified => ⟨i, hi, hverified, rfl, rfl⟩,
    fun _ u hu hlinked hlocked => ⟨u, hu, hlinked, hlocked, rfl, rfl⟩⟩

theorem Kept.trans (h : Kept identityId s t) (h' : Kept identityId t r) : Kept identityId s r := by
  constructor
  · intro i hi hverified
    obtain ⟨i', hi', hverified', hname, hdate⟩ := h.identity i hi hverified
    obtain ⟨i'', hi'', hverified'', hname', hdate'⟩ := h'.identity i' hi' hverified'
    exact ⟨i'', hi'', hverified'', hname'.trans hname, hdate'.trans hdate⟩
  · intro userId u hu hlinked hlocked
    obtain ⟨u', hu', hlinked', hlocked', hname, hdate⟩ := h.accounts userId u hu hlinked hlocked
    obtain ⟨u'', hu'', hlinked'', hlocked'', hname', hdate'⟩ :=
      h'.accounts userId u' hu' hlinked' hlocked'
    exact ⟨u'', hu'', hlinked'', hlocked'', hname'.trans hname, hdate'.trans hdate⟩

theorem kept_of_chain (h : Relation.ReflTransGen (Kept identityId) s t) : Kept identityId s t := by
  induction h with
  | refl => exact Kept.refl identityId s
  | tail _ hstep ih => exact ih.trans hstep

/-- Values that leave every locked name and date of birth as it is. -/
structure Harmless (identityId : ℕ) (p : Fields) (s : Store) : Prop where
  identity : ∀ i, s.identities.find? identityId = some i → i.identityVerified = true →
    setTo (p .fullName) i.fullName = i.fullName ∧
      setTo (p .dateOfBirth) i.dateOfBirth = i.dateOfBirth
  accounts : ∀ u ∈ s.users.rows, u.unifiedIdentityId = some identityId →
    isProfileLocked u = true → setTo (p .fullName) u.fullName = u.fullName ∧
      setTo (p .dateOfBirth) u.dateOfBirth = u.dateOfBirth

theorem kept_identityWrites {p : Fields} {j : ℕ} (h : j = identityId → Harmless identityId p s) :
    Kept identityId s (publish s (identityWrites j p s)) := by
  constructor
  · intro i hi hverified
    have hid : i.id = identityId := Table.key_of_find? hi
    by_cases hj : j = identityId
    · obtain ⟨hname, hdate⟩ := (h hj).identity i hi hverified
      refine ⟨setIdentity p i, ?_, hverified, hname, hdate⟩
      rw [identityUpdated_find, hi, Option.map_some, if_pos (by rw [hid, hj])]
    · refine ⟨i, ?_, hverified, rfl, rfl⟩
      rw [identityUpdated_find, hi, Option.map_some, if_neg (by rw [hid]; exact Ne.symm hj)]
  · intro userId u hu hlinked hlocked
    exact ⟨u, by rwa [identityUpdated_users], hlinked, hlocked, rfl, rfl⟩

theorem kept_synced {p : Fields} {j : ℕ} (h : j = identityId → Harmless identityId p s) :
    Kept identityId (publish s (identityWrites j p s)) (synced j p s) := by
  constructor
  · intro i hi hverified
    exact ⟨i, by rwa [synced_identities], hverified, rfl, rfl⟩
  · intro userId u hu hlinked hlocked
    rw [identityUpdated_users] at hu
    by_cases hj : j = identityId
    · obtain ⟨hname, hdate⟩ := (h hj).accounts u (Table.mem_of_find? hu) hlinked hlocked
      refine ⟨setUser p u, ?_, hlinked, hlocked, hname, hdate⟩
      rw [synced_find_user, hu, Option.map_some, if_pos (by rw [hlinked, hj])]
    · refine ⟨u, ?_, hlinked, hlocked, rfl, rfl⟩
      rw [synced_find_user, hu, Option.map_some,
        if_neg (by rw [hlinked]; exact fun h => hj (Option.some.inj h).symm)]

/-- A row is written over `old`; it may be another one only where nothing is locked. -/
theorem kept_put {old u : User} (hfound : s.users.find? u.id = some old)
    (h : old.unifiedIdentityId = some identityId → isProfileLocked old = true →
      u.unifiedIdentityId = some identityId ∧ isProfileLocked u = true ∧
        u.fullName = old.fullName ∧ u.dateOfBirth = old.dateOfBirth) :
    Kept identityId s (publish s [.user u]) := by
  constructor
  · intro i hi hverified
    exact ⟨i, hi, hverified, rfl, rfl⟩
  · intro userId x hx hlinked hlocked
    have hfind : (publish s [.user u]).users.find? userId =
        if userId = u.id then some u else s.users.find? userId := Table.find?_put s.users u userId
    by_cases hid : userId = u.id
    · subst hid
      obtain rfl := Option.some.inj (hfound.symm.trans hx)
      rw [if_pos rfl] at hfind
      exact ⟨u, hfind, h hlinked hlocked⟩
    · rw [if_neg hid] at hfind
      exact ⟨x, hfind.trans hx, hlinked, hlocked, rfl, rfl⟩

theorem kept_withNationality {v u : User} {payload : UpdateProfileDto}
    (hfound : s.users.find? u.id = some v)
    (h : v.unifiedIdentityId = some identityId → isProfileLocked v = true →
      u.unifiedIdentityId = some identityId ∧ isProfileLocked u = true ∧
        u.fullName = v.fullName ∧ u.dateOfBirth = v.dateOfBirth) :
    Kept identityId s (withNationality u payload s) := by
  unfold withNationality
  cases payload.nationality with
  | none => exact Kept.refl identityId s
  | some nationality => exact kept_put hfound h

end Keeping

/-- The value replaces no locked one: the identity keeps its own value against it, or it is what
the identity, once verified, and the locked accounts have. -/
def Spared (identityId : ℕ) (s : Store) (i : UnifiedIdentity) (f : UserField) (v : FieldValue) :
    Prop :=
  resolveConflict (identityField i f.shared) v i.identityVerified
      (profileSyncRules f.shared).conflictStrategy = .skip ∨
    (i.identityVerified = true → v.column = identityField i f.shared) ∧
      ∀ u ∈ s.users.rows, u.unifiedIdentityId = some identityId → isProfileLocked u = true →
        v.column = userField u f

/-- What an account submits that is not locked itself: a date that makes the update fail, or a
name and a date of birth that replace no locked ones. -/
def Respects (toDate : String → Option String) (identityId : ℕ) (s : Store) (c : ProfileCall) :
    Prop :=
  ∀ user i, s.users.find? c.userId = some user → user.unifiedIdentityId = some identityId →
    s.identities.find? identityId = some i → isProfileLocked user = false →
      ¬ValidDate (sharedUpdates toDate c.payload) ∧
        resolveConflict i.dateOfBirth .invalidDate i.identityVerified .verifiedWins = .apply ∨
      ∀ f v, f = .fullName ∨ f = .dateOfBirth →
        sharedUpdates toDate c.payload f.shared = some v → Spared identityId s i f v

section Steps

variable {toDate : String → Option String} {identityId : ℕ} {s : Store} {c : ProfileCall}
  {user : User} {i : UnifiedIdentity}

/-- What a call passes on is harmless if the call respects the locks. -/
theorem harmless_of_respects (h : Respects toDate identityId s c)
    (hfound : s.users.find? c.userId = some user)
    (hlinked : user.unifiedIdentityId = some identityId)
    (hi : s.identities.find? identityId = some i)
    (hvalid : ValidDate (calledPayload toDate user c.payload i)) :
    Harmless identityId (calledPayload toDate user c.payload i) s := by
  by_cases hlocked : isProfileLocked user = true
  · obtain ⟨hname, hdate⟩ := calledPayload_locked (i := i) hlocked
    constructor
    · intro _ _ _
      rw [hname, hdate]
      exact ⟨rfl, rfl⟩
    · intro _ _ _ _
      rw [hname, hdate]
      exact ⟨rfl, rfl⟩
  rw [Bool.not_eq_true] at hlocked
  have hfield : ∀ f : UserField, f = .fullName ∨ f = .dateOfBirth →
      ∀ v, calledPayload toDate user c.payload i f.shared = some v →
        (i.identityVerified = true → v.column = identityField i f.shared) ∧
          ∀ u ∈ s.users.rows, u.unifiedIdentityId = some identityId →
            isProfileLocked u = true → v.column = userField u f := by
    intro f hf v hv
    obtain ⟨hupdate, -, happly⟩ := calledPayload_eq_some.mp hv
    obtain ⟨hinvalid, hdate⟩ | hspared := h user i hfound hlinked hi hlocked
    · refine absurd ?_ hvalid
      rw [ValidDate, not_not] at hinvalid
      refine calledPayload_eq_some.mpr ⟨hinvalid, ?_, hdate⟩
      simp [lockedFields, hlocked]
    · obtain hskip | hsame := hspared f v hf hupdate
      · rw [happly] at hskip
        cases hskip
      · exact hsame
  have hset : ∀ (f : UserField) (col : Option String), f = .fullName ∨ f = .dateOfBirth →
      (∀ v, calledPayload toDate user c.payload i f.shared = some v → v.column = col) →
        setTo (calledPayload toDate user c.payload i f.shared) col = col := by
    intro f col hf hcol
    cases hcalled : calledPayload toDate user c.payload i f.shared with
    | none => rfl
    | some v => exact hcol v hcalled
  constructor
  · intro i' hi' hverified
    obtain rfl := Option.some.inj (hi.symm.trans hi')
    exact ⟨hset .fullName _ (.inl rfl) fun v hv => (hfield _ (.inl rfl) v hv).1 hverified,
      hset .dateOfBirth _ (.inr rfl) fun v hv => (hfield _ (.inr rfl) v hv).1 hverified⟩
  · intro u hu hlinked' hlocked'
    exact ⟨hset .fullName _ (.inl rfl) fun v hv =>
        (hfield _ (.inl rfl) v hv).2 u hu hlinked' hlocked',
      hset .dateOfBirth _ (.inr rfl) fun v hv => (hfield _ (.inr rfl) v hv).2 u hu hlinked' hlocked'⟩

/-- Every statement of a call that respects the locks keeps them. -/
theorem returns_kept (h : Respects toDate identityId s c) :
    Returns (Kept identityId) (fun _ _ => True) (program toDate c) s := by
  refine (returns_updateProfile ?_ ?_).mono fun _ _ _ => trivial
  · intro user j i hfound _ hj hi hvalid
    have hharmless : j = identityId →
        Harmless identityId (calledPayload toDate user c.payload i) s := by
      intro hsame
      subst hsame
      exact harmless_of_respects h hfound hj hi hvalid
    refine ⟨kept_identityWrites hharmless, kept_synced hharmless, ?_⟩
    have hkey : user.id = c.userId := Table.key_of_find? hfound
    refine kept_withNationality (v := setUser (calledPayload toDate user c.payload i) user) ?_ ?_
    · rw [synced_find_user, hkey, hfound, Option.map_some, if_pos hj]
    · intro hlinked (hlocked : isProfileLocked user = true)
      obtain ⟨hname, hdate⟩ : calledPayload toDate user c.payload i .fullName = none ∧
        calledPayload toDate user c.payload i .dateOfBirth = none := calledPayload_locked hlocked
      refine ⟨hlinked, hlocked, ?_, ?_⟩
      · rw [setUser, hname]
        rfl
      · rw [setUser, hdate]
        rfl
  · intro user hfound hnone
    have hkey : user.id = c.userId := Table.key_of_find? hfound
    have hother : ∀ {P : Prop}, user.unifiedIdentityId = some identityId → P := by
      intro P hlinked
      rw [hnone] at hlinked
      cases hlinked
    refine ⟨kept_put ?_ fun hlinked _ => hother hlinked,
      kept_withNationality (v := ownUpdated toDate user c.payload) ?_ fun hlinked _ =>
        hother hlinked⟩
    · rw [← hfound, ← hkey]
      rfl
    · simp [Store.write]

end Steps

/-- In a sequence of updates that respect the locks, locked names and dates of birth stay. -/
theorem locked_names_stay {toDate : String → Option String} {identityId : ℕ} {s t : Store}
    {turns : List (Turn ProfileCall Store)} (hrun : Sequence (program toDate) s turns t)
    (hok : ∀ turn ∈ turns, Respects toDate identityId turn.before turn.call) :
    Kept identityId s t := by
  refine hrun.invariant (P := Kept identityId s) (Kept.refl identityId s) hok ?_
  intro turn hrespects ⟨sys, hsys, hafter⟩ hkept
  have hstep := kept_of_chain (chain_of_run (returns_kept hrespects) hsys)
  rw [hafter] at hstep
  exact hkept.trans hstep

theorem locked_names_after_email : ∃ turns t,
    Sequence (program some) twoAccounts turns t ∧ turns ≠ [] ∧ Kept 1 twoAccounts t := by
  have hplay : playable (program some) twoAccounts [(changeEmail, System.turns 0 0 6)] = true := by
    decide +kernel
  have hsequence := sequence_of_plan hplay
  refine ⟨_, _, hsequence, List.cons_ne_nil _ _, locked_names_stay hsequence ?_⟩
  intro turn hturn user i _ _ _ _
  obtain rfl := List.mem_singleton.mp hturn
  refine .inr fun f v hf hv => ?_
  obtain rfl | rfl := hf
  · cases hv
  · cases hv

/-- The host account, which is not locked, changes the name of the locked consumer account and
of the verified identity. -/
theorem renamed_by_other_account : ∃ turns t,
    Sequence (program some) twoAccounts turns t ∧ ¬Kept 1 twoAccounts t := by
  have hplay : playable (program some) twoAccounts [(changeName, System.turns 0 0 6)] = true := by
    decide +kernel
  have hsequence := sequence_of_plan hplay
  refine ⟨_, _, hsequence, fun hkept => ?_⟩
  have hidentity : ((endOf (program some) twoAccounts
      [(changeName, System.turns 0 0 6)]).identities.find? 1).map (·.fullName) =
        some (some "Someone Else") := by decide +kernel
  have hamal : twoAccounts.identities.find? 1 = some amal := rfl
  obtain ⟨i, hi, hname⟩ := Option.map_eq_some_iff.mp hidentity
  obtain ⟨i', hi', -, hsame, -⟩ := hkept.identity amal hamal rfl
  obtain rfl := Option.some.inj (hi.symm.trans hi')
  rw [hname] at hsame
  exact absurd hsame (by decide)

end NexaStays.SharedProfile
