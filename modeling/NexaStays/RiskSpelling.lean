import NexaStays.RiskAuth
import NexaStays.PinAccount

/-!
# The spelling of the number and the risk

Two PIN verifications that differ only in the spelling of the number are assessed alike exactly
when the spellings are the same text without the blanks around it, or no account of the type is
stored under either text.
-/
namespace NexaStays.RiskSpelling

open NexaStays.KeyedTable NexaStays.Transactions NexaStays.PersonStore NexaStays.LoginStore
open NexaStays.Sequences NexaStays.Phases NexaStays.Exceptions NexaStays.PinLogin
open NexaStays.RiskAuth NexaStays.AccessTokens
open NexaStays.PhoneChange (normalizedOrThrow)
open NexaStays.IdentityStore (AccountType)
open NexaStays.SqlText (trim)

variable (config : RiskConfig) (records : Records)

/-- Some run of the handler ends with `RISK_REVIEW_REQUIRED`. -/
def Refused (handler : Login PinAnswer) (s : LoginStore.Store) : Prop :=
  ∃ sys t body, System.Run (fun _ _ => True) (solo () s handler) sys ∧ t ∈ sys.threads ∧
    t.program = .throw (.refused body) ∧ body.code = "RISK_REVIEW_REQUIRED"

/-- Other exceptions. -/
def NoReview (e : LoginError) : Prop := ∀ body, e = .refused body → body.code ≠ "RISK_REVIEW_REQUIRED"

theorem noReview_person (e : PersonError) : NoReview (.person e) := by
  intro body h
  cases h

theorem noReview_refused {body : Refusal} (h : body.code ≠ "RISK_REVIEW_REQUIRED") :
    NoReview (.refused body) := by
  intro body' heq
  obtain rfl := LoginError.refused.inj heq
  exact h

theorem throws_onPerson {α : Type} (p : Personal α) : Throws NoReview (Login.onPerson p) :=
  throws_within personal noReview_person p

theorem throws_normalizedPhone (phoneNumber : String) : Throws NoReview
    (Program.ofExcept (normalizedPhone phoneNumber) : Login String) := by
  refine Throws.ofExcept fun e he => ?_
  cases hraw : normalizedOrThrow phoneNumber with
  | ok normalized => rw [normalizedPhone, hraw] at he; cases he
  | error e' =>
    rw [normalizedPhone, hraw] at he
    obtain rfl := Except.error.inj he
    exact noReview_person e'

theorem throws_getOrCreate (userId : ℕ) : Throws NoReview (getOrCreate userId) := by
  refine (Throws.query (noReview_person _)).bind fun found => ?_
  cases found with
  | some attempt => exact Throws.pure
  | none =>
    exact Throws.receive.bind fun now =>
      (Throws.saveEntity (noReview_person _)).bind fun _ => Throws.pure

theorem throws_getStatus (userId : ℕ) : Throws NoReview (getStatus userId) := by
  refine (throws_getOrCreate userId).bind fun attempt => Throws.receive.bind fun now => ?_
  cases attempt.lockoutUntil with
  | none => exact Throws.pure
  | some lockoutUntil =>
    by_cases hover : lockoutUntil - now ≤ 0
    · simp only [if_pos hover]
      exact (Throws.saveEntity (noReview_person _)).bind fun _ => Throws.pure
    · simp only [if_neg hover]
      exact Throws.pure

theorem throws_refusePin (pinConfig : PinConfig) (userId : ℕ) :
    Throws NoReview (refusePin pinConfig userId) := by
  refine Throws.bind ?_ fun failure => ?_
  · refine (throws_getOrCreate userId).bind fun attempt => Throws.receive.bind fun now => ?_
    by_cases hmax : pinConfig.maxAttempts ≤ (windowOf pinConfig now attempt).1 + 1
    · simp only [if_pos hmax]
      exact (Throws.saveEntity (noReview_person _)).bind fun _ => Throws.pure
    · simp only [if_neg hmax]
      exact (Throws.saveEntity (noReview_person _)).bind fun _ => Throws.pure
  · by_cases hlocked : failure.locked = true
    · rw [if_pos hlocked]
      exact Throws.throw (noReview_refused (by simp [Refusal.of]))
    · rw [if_neg hlocked]
      exact Throws.throw (noReview_refused (by simp [Refusal.of]))

theorem throws_recordSuccess (userId : ℕ) : Throws NoReview (recordSuccess userId) := by
  refine (Throws.query (noReview_person _)).bind fun found => ?_
  cases found with
  | none => exact Throws.pure
  | some attempt => exact Throws.receive.bind fun now => Throws.saveEntity (noReview_person _)

theorem throws_checkPin (pinConfig : PinConfig) (account : User) (pin : String) :
    Throws NoReview (checkPin pinConfig account pin) := by
  refine (throws_getStatus account.id).bind fun status => ?_
  refine (Throws.require fun _ => noReview_refused (by simp [Refusal.of])).bind fun _ => ?_
  by_cases hvalid : (Secrets.verifyPinHash pinConfig.hashes pin account.pinHash).valid = true
  · simp only [if_pos hvalid]
    refine Throws.bind ?_ fun _ => throws_recordSuccess account.id
    unfold renewHash rehash
    split
    · exact Throws.receive.bind fun salt =>
        (Throws.writeRows (noReview_person _)).bind fun _ => Throws.pure
    · exact Throws.pure
  · simp only [if_neg hvalid]
    exact throws_refusePin pinConfig account.id

theorem throws_checkDevice (userId : ℕ) (ctx : RefreshTokenContext) :
    Throws NoReview (checkDevice userId ctx) := by
  refine Throws.bind ?_ fun trusted => Throws.bind ?_ fun _ =>
    Throws.require fun _ => noReview_refused (by simp [Refusal.of])
  · unfold isTrustedDevice
    split
    · exact Throws.pure
    · exact (Throws.findOne (noReview_person _)).bind fun _ => Throws.pure
  · unfold upsertTrustedDevice
    split
    · exact Throws.pure
    · refine Throws.receive.bind fun now => (Throws.findOne (noReview_person _)).bind
        fun existing => ?_
      cases existing with
      | none => exact (Throws.insertRow (noReview_person _)).bind fun _ => Throws.pure
      | some device => exact Throws.saveEntity (noReview_person _)

theorem throws_issueTokens (account : User) (selected : ℕ × AccountType) (normalized : String) :
    Throws NoReview (issueTokens account selected normalized) := by
  refine Throws.bind ?_ fun _ => Throws.bind ?_ fun identityId =>
    (throws_onPerson _).bind fun profile => (throws_onPerson _).bind fun token => Throws.pure
  · exact Throws.receive.bind fun now =>
      (Throws.writeRows (noReview_person _)).bind fun _ => Throws.pure
  · unfold identityOf
    cases account.unifiedIdentityId with
    | some identityId => exact Throws.pure
    | none => exact (throws_onPerson _).bind fun _ => Throws.pure

theorem throws_findAccountsByPhone (phoneNumber : String) :
    Throws NoReview (findAccountsByPhone phoneNumber) :=
  Throws.bind (Throws.choose fun _ => Throws.query (noReview_person _)) fun _ => Throws.pure

theorem throws_checkRisk (accountId : ℕ) {decision : AdaptiveRiskDecision}
    (hlevel : decision.level ≠ .high) : Throws NoReview (checkRisk accountId (some decision)) :=
  Throws.require fun hnot => absurd hlevel hnot

theorem throws_loginSelected (account : User) (normalized : String) (requested : AccountType)
    (ctx : RefreshTokenContext) {decision : AdaptiveRiskDecision}
    (hlevel : decision.level ≠ .high) :
    Throws NoReview (loginSelected account normalized requested ctx (some decision)) := by
  unfold loginSelected
  refine (throws_findAccountsByPhone normalized).bind fun accounts => ?_
  have hnone : NoReview (noSelected requested accounts) := by
    unfold noSelected LoginError.badRequest
    exact noReview_person _
  refine (Throws.expect hnone).bind fun selected => ?_
  refine (throws_checkDevice selected.1 ctx).bind fun _ => ?_
  exact (throws_checkRisk selected.1 hlevel).bind fun _ =>
    throws_issueTokens account selected normalized

theorem throws_findAccount (phoneNumber normalized : String) (requested : AccountType) :
    Throws NoReview (findAccount phoneNumber normalized requested) := by
  refine (Throws.findOne (noReview_person _)).bind fun account => ?_
  split
  · exact Throws.findOne (noReview_person _)
  · exact Throws.pure

/-- Only a high risk is refused for a review. -/
theorem throws_handler (pinConfig : PinConfig) {assessment : RiskAuthAssessment}
    (hlevel : assessment.level ≠ .high) (phoneNumber pin : String)
    (accountType : Option AccountType) (ctx : RefreshTokenContext) :
    Throws NoReview (verifyPinHandler pinConfig assessment phoneNumber pin accountType ctx) := by
  refine (throws_normalizedPhone phoneNumber).bind fun phone => ?_
  unfold verifyPin
  refine (throws_normalizedPhone phone).bind fun normalized => ?_
  refine (throws_findAccount phone normalized _).bind fun found => ?_
  refine (Throws.expect (noReview_person _)).bind fun account => ?_
  exact (throws_checkPin pinConfig account pin).bind fun _ =>
    throws_loginSelected account normalized _ ctx hlevel

theorem not_refused_of_level (pinConfig : PinConfig) {assessment : RiskAuthAssessment}
    (hlevel : assessment.level ≠ .high) (phoneNumber pin : String)
    (accountType : Option AccountType) (ctx : RefreshTokenContext) (s : LoginStore.Store) :
    ¬Refused (verifyPinHandler pinConfig assessment phoneNumber pin accountType ctx) s := by
  rintro ⟨sys, t, body, hrun, ht, hprogram, hcode⟩
  have hthrows := throws_solo (throws_handler pinConfig hlevel phoneNumber pin accountType ctx) hrun
    ht hprogram
  exact hthrows body rfl hcode

/-- The requests are assessed alike, and are refused for a review alike. -/
def SameRisk (headers : Request) (accountType : Option AccountType) (a b : String) : Prop :=
  let first := buildAssessment config records (pinRequest headers a accountType)
  let second := buildAssessment config records (pinRequest headers b accountType)
  first.userId = second.userId ∧ first.level = second.level ∧
    ∀ pinConfig pin ctx s, s.person.users = records.users →
      (Refused (verifyPinHandler pinConfig first a pin accountType ctx) s ↔
        Refused (verifyPinHandler pinConfig second b pin accountType ctx) s)

/-- An account of the type is stored under the text without the blanks around it. -/
def StoredAs (accountType : Option AccountType) (text : String) : Prop :=
  trim text ≠ "" ∧ ∃ u ∈ records.users.rows, u.phoneNumber = some (trim text) ∧
    u.accountType = some (accountType.getD .consumer)

theorem getString_phone (text : String) :
    getString (some text) = if trim text = "" then none else some (trim text) := by
  by_cases h : trim text = "" <;> simp [getString, h]

theorem accountTypeText_injective : Function.Injective accountTypeText := by
  intro a b h
  cases a <;> cases b <;> first | rfl | exact absurd h (by decide)

theorem getString_accountType (accountType : Option AccountType) :
    (getString (accountType.map accountTypeText)).getD "CONSUMER" =
      accountTypeText (accountType.getD .consumer) := by
  cases accountType with
  | none => rfl
  | some accountType => cases accountType <;> decide

theorem mem_usersStoredAs {u : User} {phone : String} {accountType : AccountType} :
    u ∈ usersStoredAs phone (accountTypeText accountType) records.users.rows ↔
      u ∈ records.users.rows ∧ u.phoneNumber = some phone ∧ u.accountType = some accountType := by
  have htype : u.accountType.map accountTypeText = some (accountTypeText accountType) ↔
      u.accountType = some accountType := by
    cases u.accountType with
    | none => simp
    | some t => simp [accountTypeText_injective.eq_iff]
  rw [usersStoredAs, List.mem_filter, decide_eq_true_eq, htype]

/-- The user that the middleware assesses. -/
theorem target_eq (headers : Request) (accountType : Option AccountType) (text : String) :
    resolveTargetUserId records (pinRequest headers text accountType) =
      if trim text = "" then none
      else (Program.pick records.userChoice (usersStoredAs (trim text)
        (accountTypeText (accountType.getD .consumer)) records.users.rows)).map (·.id) := by
  show (getString (some text)).bind _ = _
  rw [getString_phone]
  by_cases h : trim text = ""
  · simp [h]
  · simp only [if_neg h, Option.bind_some]
    show (Program.pick _ (usersStoredAs _ ((getString (accountType.map accountTypeText)).getD _)
      _)).map _ = _
    rw [getString_accountType]

theorem target_eq_none (headers : Request) (accountType : Option AccountType) {text : String}
    (h : ¬StoredAs records accountType text) :
    resolveTargetUserId records (pinRequest headers text accountType) = none := by
  rw [target_eq]
  by_cases hblank : trim text = ""
  · rw [if_pos hblank]
  · rw [if_neg hblank, Option.map_eq_none_iff]
    by_contra hsome
    obtain ⟨u, hu⟩ := Option.ne_none_iff_exists'.mp hsome
    obtain ⟨hmem, hphone, htype⟩ := (mem_usersStoredAs records).mp (Program.mem_of_pick hu)
    exact h ⟨hblank, u, hmem, hphone, htype⟩

theorem target_eq_some (headers : Request) (accountType : Option AccountType) {text : String}
    (h : StoredAs records accountType text) :
    ∃ u ∈ records.users.rows, u.phoneNumber = some (trim text) ∧
      resolveTargetUserId records (pinRequest headers text accountType) = some u.id := by
  obtain ⟨hblank, u, hmem, hphone, htype⟩ := h
  rw [target_eq, if_neg hblank]
  cases hpick : Program.pick records.userChoice (usersStoredAs (trim text)
      (accountTypeText (accountType.getD .consumer)) records.users.rows) with
  | none =>
    have hempty := Program.pick_eq_none hpick
    have hin := (mem_usersStoredAs records).mpr ⟨hmem, hphone, htype⟩
    rw [hempty] at hin
    cases hin
  | some v =>
    obtain ⟨hv, hvphone, -⟩ := (mem_usersStoredAs records).mp (Program.mem_of_pick hpick)
    exact ⟨v, hv, hvphone, rfl⟩

/-- The spellings name the same user exactly when they are one text or name none. -/
theorem same_target_iff (headers : Request) (accountType : Option AccountType) (a b : String) :
    resolveTargetUserId records (pinRequest headers a accountType) =
        resolveTargetUserId records (pinRequest headers b accountType) ↔
      trim a = trim b ∨ ¬StoredAs records accountType a ∧ ¬StoredAs records accountType b := by
  constructor
  · intro h
    by_contra hnot
    have hdiffer : trim a ≠ trim b := fun heq => hnot (.inl heq)
    by_cases ha : StoredAs records accountType a
    · obtain ⟨u, hu, hphone, htarget⟩ := target_eq_some records headers accountType ha
      by_cases hb : StoredAs records accountType b
      · obtain ⟨v, hv, hvphone, hvtarget⟩ := target_eq_some records headers accountType hb
        rw [htarget, hvtarget] at h
        have huv := records.users.eq_of_key_eq hu hv (Option.some.inj h)
        rw [huv, hvphone] at hphone
        exact hdiffer (Option.some.inj hphone).symm
      · rw [htarget, target_eq_none records headers accountType hb] at h
        cases h
    · have hb : StoredAs records accountType b := by
        by_contra hb
        exact hnot (.inr ⟨ha, hb⟩)
      obtain ⟨v, -, -, hvtarget⟩ := target_eq_some records headers accountType hb
      rw [hvtarget, target_eq_none records headers accountType ha] at h
      cases h
  · rintro (heq | ⟨ha, hb⟩)
    · rw [target_eq, target_eq, heq]
    · rw [target_eq_none records headers accountType ha,
        target_eq_none records headers accountType hb]

theorem userId_buildAssessment (req : Request) :
    (buildAssessment config records req).userId = resolveTargetUserId records req := by
  rw [buildAssessment]
  cases resolveTargetUserId records req <;> rfl

theorem buildAssessment_congr {headers : Request} {accountType : Option AccountType} {a b : String}
    (h : resolveTargetUserId records (pinRequest headers a accountType) =
      resolveTargetUserId records (pinRequest headers b accountType)) :
    buildAssessment config records (pinRequest headers a accountType) =
      buildAssessment config records (pinRequest headers b accountType) := by
  rw [buildAssessment, buildAssessment, h]
  rfl

/-- The handler, too, ignores the blanks around the number. -/
theorem normalizedPhone_congr {a b : String} (h : trim a = trim b) :
    normalizedPhone a = normalizedPhone b := by
  have htrim : PhoneNumbers.trimmed a.toList = PhoneNumbers.trimmed b.toList := by
    have hlist := congrArg String.toList h
    rw [trim, trim, String.toList_ofList, String.toList_ofList] at hlist
    exact hlist
  have hvalid : PhoneNumbers.validatePhoneNumber a.toList =
      PhoneNumbers.validatePhoneNumber b.toList := by
    rw [PhoneNumbers.validatePhoneNumber, PhoneNumbers.validatePhoneNumber, htrim]
  rw [normalizedPhone, normalizedPhone, normalizedOrThrow, normalizedOrThrow,
    PhoneNumbers.normalizePhoneOrThrow, PhoneNumbers.normalizePhoneOrThrow, hvalid]

/-- Two spellings are assessed alike exactly when they are one text but for blanks around it, or
no account of the type is stored under either. -/
theorem same_risk_iff (headers : Request) (accountType : Option AccountType) (a b : String) :
    SameRisk config records headers accountType a b ↔
      trim a = trim b ∨ ¬StoredAs records accountType a ∧ ¬StoredAs records accountType b := by
  rw [← same_target_iff records headers]
  constructor
  · rintro ⟨huser, -, -⟩
    rwa [userId_buildAssessment, userId_buildAssessment] at huser
  · intro htarget
    have hassess := buildAssessment_congr config records htarget
    refine ⟨by rw [hassess], by rw [hassess], fun pinConfig pin ctx s _ => ?_⟩
    obtain heq | ⟨ha, hb⟩ := (same_target_iff records headers accountType a b).mp htarget
    · rw [hassess, verifyPinHandler, verifyPinHandler, normalizedPhone_congr heq]
    · have hlevel : ∀ text, ¬StoredAs records accountType text →
          (buildAssessment config records (pinRequest headers text accountType)).level ≠ .high := by
        intro text htext
        rw [buildAssessment, target_eq_none records headers accountType htext]
        exact fun h => nomatch h
      constructor
      · exact fun h => absurd h (not_refused_of_level pinConfig (hlevel a ha) a pin accountType ctx s)
      · exact fun h => absurd h (not_refused_of_level pinConfig (hlevel b hb) b pin accountType ctx s)

def sampleConfig : RiskConfig :=
  { mediumThreshold := some 50
    highThreshold := some 80
    digest := id
    toUpperCase := String.toUpper }

/-- The account has logged in before, from another country, address and device. -/
def sampleRecords : Records :=
  { users := .ofRows [PinAccount.storedAs 1 "+212612345678" "1111"]
    auditLog := .ofRows [⟨1, some 1, "LOGIN_SUCCESS", some ⟨some "10.0.0.1", some "MA", some "phone"⟩, 0⟩]
    userChoice := 0
    auditChoice := 0 }

def sampleHeaders : Request :=
  { userId := none
    phoneNumber := none
    accountType := none
    ip := "203.0.113.7"
    remoteAddress := none
    cfIpCountry := some "FR"
    countryCode := none
    geoCountry := none
    deviceId := some "device"
    userAgent := none
    explicitFingerprint := none }

/-- The national spelling of the number hides the risk of the login. -/
theorem national_spelling_low :
    PhoneNumbers.normalizePhoneNumber "+212612345678".toList =
        PhoneNumbers.normalizePhoneNumber "0612345678".toList ∧
      (buildAssessment sampleConfig sampleRecords
        (pinRequest sampleHeaders "+212612345678" none)).level = .high ∧
      (buildAssessment sampleConfig sampleRecords
        (pinRequest sampleHeaders "0612345678" none)).level = .low ∧
      ¬SameRisk sampleConfig sampleRecords sampleHeaders none "+212612345678" "0612345678" := by
  have hhigh : (buildAssessment sampleConfig sampleRecords
      (pinRequest sampleHeaders "+212612345678" none)).level = .high := by decide +kernel
  have hlow : (buildAssessment sampleConfig sampleRecords
      (pinRequest sampleHeaders "0612345678" none)).level = .low := by decide +kernel
  refine ⟨by decide +kernel, hhigh, hlow, fun hsame => ?_⟩
  have hlevel := hsame.2.1
  rw [hhigh, hlow] at hlevel
  cases hlevel

end NexaStays.RiskSpelling
