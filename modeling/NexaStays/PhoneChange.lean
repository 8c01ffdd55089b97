import NexaStays.IdentityPhones
import NexaStays.Sequences

/-!
# Changing the phone number

`changePhone` checks a code sent to the present number and one sent to the new number, and
writes the new number to the account. `sendOtp` stores a digest of the code it sends, and
`verifyOtp` compares with that digest; the two checks are set side by side here, and so are
the number on the account and the tables that `findOrCreateByPhone` asks.
-/
namespace NexaStays.PhoneChange

open NexaStays.KeyedTable NexaStays.Transactions NexaStays.EntitySave NexaStays.Sequences
open NexaStays.Phases NexaStays.PersonStore NexaStays.IdentityPhones
open NexaStays.IdentityStore (OtpCode IdentityError)
open NexaStays.PhoneNumbers (normalizePhoneOrThrow phoneLookupCandidates trimmed)

inductive NexaEnv where
  | dogfood | production | other
  deriving DecidableEq, Repr

/-- `hmacSha256Hex` and the settings of the process; an empty demo code is none. -/
structure OtpConfig where
  digest : String → String → String
  pepper : String
  demoCode : Option String
  production : Bool
  nexaEnv : NexaEnv
  expiryMs : ℤ

/-- `normalizePhoneOrThrow`, with the exceptions of this model. -/
def normalizedOrThrow (phoneNumber : String) : Except PersonError String :=
  match normalizePhoneOrThrow phoneNumber.toList with
  | .ok normalized => .ok (String.ofList normalized)
  | .error (.badRequest message) => .error (.badRequest message)
  | .error _ => .error .database

/-- `crypto.randomInt(100000, 999999).toString()`. -/
def randomCode (n : ℕ) : String := toString (100000 + n % 899999)

def otpRow (cfg : OtpConfig) (norm code : String) (now : ℤ) (id : ℕ) : OtpCode :=
  { id
    phoneNumber := norm
    code := cfg.digest cfg.pepper code
    expiresAt := now + cfg.expiryMs
    attempts := 0
    consumedAt := none
    createdAt := now }

def sendOtp (cfg : OtpConfig) (phoneNumber : String) (now : ℤ) : Personal Unit := do
  let norm ← Program.ofExcept (normalizedOrThrow phoneNumber)
  Program.require (¬(cfg.production = true ∧ cfg.nexaEnv ≠ .dogfood ∧ cfg.demoCode.isSome))
    (.badRequest "Demo OTP is allowed only in dogfood")
  let n ← Program.receive
  let _ ← Personal.insert fun id => .otp (otpRow cfg norm (cfg.demoCode.getD (randomCode n)) now id)

def trimText (s : String) : String := String.ofList (trimmed s.toList)

def demoAllowed (cfg : OtpConfig) : Bool :=
  (cfg.production = false ∨ cfg.nexaEnv = .dogfood) ∧ cfg.nexaEnv ≠ .production ∧
    cfg.demoCode.isSome

/-- The row may still be used. -/
def usable (now : ℤ) (record : OtpCode) : Bool :=
  record.consumedAt = none ∧ ¬record.expiresAt < now

/-- The comparisons of `verifyOtp` with the stored code. -/
def matchesCode (cfg : OtpConfig) (otp : String) (record : OtpCode) : Bool :=
  cfg.digest cfg.pepper (trimText otp) = trimText record.code ∨
    ((trimText record.code).length ≤ 8 ∧ trimText otp = trimText record.code) ∨
    (demoAllowed cfg ∧ some (trimText otp) = cfg.demoCode)

/-- The newest of some rows; rows of one age are alike to the query. -/
def newest (rows : List OtpCode) : List OtpCode :=
  rows.filter fun r => rows.all fun r' => r'.createdAt ≤ r.createdAt

/-- The rows from which `order: { created_at: 'DESC' }` takes the first. -/
def otpsOf (phones : List String) (s : Store) : List OtpCode :=
  newest (s.otps.rows.filter fun r => r.phoneNumber ∈ phones)

/-- `verifyOtp` would accept the code now; `lockedOut` is the answer of `isLockedOut`. -/
def verifyAccepts (cfg : OtpConfig) (lockedOut : Bool) (now : ℤ) (otp : String)
    (found : Option OtpCode) : Bool :=
  found.any fun record => !lockedOut && usable now record && matchesCode cfg otp record

/-- The check of one of the two codes. -/
def checkOtp (now : ℤ) (otp invalid wrong : String) (found : Option OtpCode) :
    Except PersonError OtpCode :=
  match found with
  | none => .error (.badRequest invalid)
  | some record =>
    if record.consumedAt ≠ none ∨ record.expiresAt < now then .error (.badRequest invalid)
    else if otp ≠ record.code then .error (.badRequest wrong)
    else .ok record

def changeAccepts (now : ℤ) (otp : String) (found : Option OtpCode) : Bool :=
  found.any fun record => usable now record && otp = record.code

def consumeOtp (phones : List String) (now : ℤ) (otp invalid wrong : String) :
    Personal Unit := do
  let found ← Personal.findOne (otpsOf phones)
  let record ← Program.ofExcept (checkOtp now otp invalid wrong found)
  saveEntity (savedOtp record.id) .database { record with consumedAt := some now }

/-- The entity holds the id and the number only, so nothing else is written. -/
def savePhone (userId : ℕ) (phoneNumber : String) : Personal Unit := do
  let found ← Personal.read fun s => s.users.find? userId
  let _ ← Program.expect found .database
  let _ ← Personal.update fun s => (s.users.find? userId).toList.map fun u =>
    .user { u with phoneNumber := some phoneNumber }

/-- A request, with what the clock says while it is carried out. -/
structure ChangeCall where
  userId : ℕ
  currentOtp : String
  newPhoneNumber : String
  newOtp : String
  now : ℤ
  deriving DecidableEq, Repr

/-- `tryNormalizePhoneNumber(phone) ?? phone`. -/
def currentForms (phone : String) : List String :=
  [phone, (tryNormalized phone.toList).getD phone]

def consumeCurrent (c : ChangeCall) (phone : String) : Personal Unit :=
  consumeOtp (currentForms phone) c.now c.currentOtp
    "Current OTP invalid or expired. Request a new code." "Invalid OTP for current phone"

def consumeNew (c : ChangeCall) (phone : String) : Personal Unit :=
  consumeOtp [phone] c.now c.newOtp
    "New phone OTP invalid or expired. Request a new code." "Invalid OTP for new phone"

/-- What follows the checks of the request. -/
def moveAccount (c : ChangeCall) (phone normalizedNew : String) : Personal String := do
  consumeCurrent c phone
  consumeNew c normalizedNew
  let existing ← Personal.findOne fun s =>
    s.users.rows.filter fun u => u.phoneNumber = some normalizedNew
  Program.require (existing = none) (.conflict "This phone number is already registered")
  savePhone c.userId normalizedNew
  pure normalizedNew

/-- The checks of the request: the present number and the new one. -/
def checkRequest (c : ChangeCall) (user : User) : Except PersonError (String × String) :=
  match user.phoneNumber.filter (· ≠ "") with
  | none => .error (.badRequest
    "This account does not use a phone number; add phone via account setup.")
  | some phone =>
    match normalizedOrThrow c.newPhoneNumber with
    | .error e => .error e
    | .ok normalizedNew =>
      if normalizedNew = phone then
        .error (.badRequest "New phone number is the same as current")
      else .ok (phone, normalizedNew)

def changePhone (c : ChangeCall) : Personal String := do
  let found ← Personal.read fun s => s.users.find? c.userId
  let user ← Program.expect found (.notFound "User not found")
  let numbers ← Program.ofExcept (checkRequest c user)
  moveAccount c numbers.1 numbers.2

/-- The row of a code that was sent: a digest is stored, which has 64 digits. -/
def Sent (cfg : OtpConfig) (record : OtpCode) : Prop :=
  ∃ code, record.code = cfg.digest cfg.pepper code

/-- `changePhone` accepts a code of the number exactly if `verifyOtp` would accept it now,
whichever of the newest rows the database answers with. -/
def Agree (cfg : OtpConfig) (lockedOut : Bool) (now : ℤ) (otp : String) (phones : List String)
    (norm : String) (s : Store) : Prop :=
  ∀ n, changeAccepts now otp (Program.pick n (otpsOf phones s)) =
    verifyAccepts cfg lockedOut now otp (Program.pick n (otpsOf [norm] s))

theorem checkOtp_accepts {now : ℤ} {otp invalid wrong : String} {found : Option OtpCode}
    {record : OtpCode} :
    checkOtp now otp invalid wrong found = .ok record ↔
      found = some record ∧ changeAccepts now otp found = true := by
  cases found with
  | none => simp [checkOtp, changeAccepts]
  | some row =>
    by_cases huse : row.consumedAt ≠ none ∨ row.expiresAt < now
    · simp only [checkOtp, if_pos huse, changeAccepts, Option.any_some, usable]
      grind
    · by_cases hcode : otp = row.code
      · simp only [checkOtp, if_neg huse, hcode, changeAccepts, Option.any_some, usable]
        grind
      · simp only [checkOtp, if_neg huse, changeAccepts, Option.any_some]
        grind

/-- What `sendOtp` leaves when it returns: one more row, with the digest of the code. -/
theorem returns_sendOtp (cfg : OtpConfig) (phoneNumber : String) (now : ℤ) (s : Store) :
    Returns (fun _ _ => True) (fun _ t => ∃ norm code id, Sent cfg (otpRow cfg norm code now id) ∧
      normalizedOrThrow phoneNumber = .ok norm ∧
        t = publish s [.otp (otpRow cfg norm code now id)])
      (sendOtp cfg phoneNumber now) s := by
  unfold sendOtp
  have hnorm : Returns (fun _ _ => True) (fun norm t => normalizedOrThrow phoneNumber = .ok norm ∧
      t = s) (Program.ofExcept (normalizedOrThrow phoneNumber) : Personal String) s :=
    Returns.ofExcept fun norm h => ⟨h, rfl⟩
  refine hnorm.bind fun norm t ht => ?_
  obtain ⟨hnumber, rfl⟩ := ht
  refine (Returns.require (P := fun _ u => u = t) fun _ => rfl).bind fun _ u hu => ?_
  subst hu
  refine (Returns.receive (P := fun _ v => v = u) fun _ => rfl).bind fun n v hv => ?_
  subst hv
  refine (Returns.insertRow (P := fun _ t => ∃ norm code id,
    Sent cfg (otpRow cfg norm code now id) ∧ normalizedOrThrow phoneNumber = .ok norm ∧
      t = publish v [.otp (otpRow cfg norm code now id)]) fun id _ => ?_).bind fun _ _ h =>
        Returns.pure h
  exact ⟨trivial, norm, _, id, ⟨_, rfl⟩, hnumber, rfl⟩

/-- A code of six digits is no digest. -/
theorem changeAccepts_sent {cfg : OtpConfig} {now : ℤ} {otp : String} {rows : List OtpCode}
    (hdigest : ∀ code, (cfg.digest cfg.pepper code).length = 64) (hotp : otp.length = 6)
    (hsent : ∀ r ∈ rows, Sent cfg r) (n : ℕ) :
    changeAccepts now otp (Program.pick n rows) = false := by
  cases hpick : Program.pick n rows with
  | none => rfl
  | some r =>
    obtain ⟨code, hcode⟩ := hsent r (Program.mem_of_pick hpick)
    have hne : otp ≠ r.code := by
      intro heq
      have hlength := hdigest code
      rw [← hcode, ← heq, hotp] at hlength
      omega
    simp [changeAccepts, hne]

theorem agree_of_sent {cfg : OtpConfig} {lockedOut : Bool} {now : ℤ} {otp norm : String}
    {phones : List String} {s : Store}
    (hdigest : ∀ code, (cfg.digest cfg.pepper code).length = 64) (hotp : otp.length = 6)
    (hsent : ∀ r ∈ otpsOf phones s, Sent cfg r) :
    Agree cfg lockedOut now otp phones norm s ↔
      lockedOut = true ∨ ∀ r ∈ otpsOf [norm] s, usable now r = false ∨
        matchesCode cfg otp r = false := by
  constructor
  · intro hagree
    by_cases hlocked : lockedOut = true
    · exact .inl hlocked
    · refine .inr fun r hr => ?_
      obtain ⟨n, hn⟩ := exists_pick hr
      have hsame := hagree n
      rw [changeAccepts_sent hdigest hotp hsent, hn] at hsame
      simp only [verifyAccepts, Option.any_some, Bool.not_eq_true] at hsame hlocked
      rw [hlocked] at hsame
      simp only [Bool.not_false, Bool.true_and] at hsame
      exact Bool.and_eq_false_iff.mp hsame.symm
  · intro hrefuse n
    rw [changeAccepts_sent hdigest hotp hsent]
    cases hpick : Program.pick n (otpsOf [norm] s) with
    | none => rfl
    | some r =>
      have hr := Program.mem_of_pick hpick
      obtain hlocked | hrows := hrefuse
      · simp [verifyAccepts, hlocked]
      · have hfalse := Bool.and_eq_false_iff.mpr (hrows r hr)
        rw [verifyAccepts, Option.any_some, Bool.and_assoc, hfalse, Bool.and_false]

/-- A call of `changePhone` that ends with an exception, whatever may have caused it, leaves
the codes as they are. -/
def FailureKeepsCodes (c : ChangeCall) (s : Store) : Prop :=
  ∀ sys, System.Run (fun _ _ => True) (launch changePhone s [c]) sys →
    (∃ t ∈ sys.threads, ∃ e, t.program = .throw e) → sys.store.otps = s.otps

/-- No row of the present number is accepted for the current code. -/
def CurrentRefused (c : ChangeCall) (s : Store) : Prop :=
  ∀ user numbers, s.users.find? c.userId = some user → checkRequest c user = .ok numbers →
    ∀ r ∈ otpsOf (currentForms numbers.1) s, ¬(usable c.now r = true ∧ c.currentOtp = r.code)

theorem returns_refused {c : ChangeCall} {s : Store} (h : CurrentRefused c s) :
    Returns (fun s t => t.otps = s.otps) (fun _ _ => True) (changePhone c) s := by
  unfold changePhone
  refine (Returns.query (P := fun found t => found = s.users.find? c.userId ∧ t = s)
    ⟨rfl, rfl⟩).bind fun found t ht => ?_
  obtain ⟨rfl, rfl⟩ := ht
  refine (Returns.expect (P := fun user u => t.users.find? c.userId = some user ∧ u = t)
    fun user huser => ⟨huser, rfl⟩).bind fun user u hu => ?_
  obtain ⟨huser, rfl⟩ := hu
  refine (Returns.ofExcept (P := fun numbers v => checkRequest c user = .ok numbers ∧ v = u)
    fun numbers hnumbers => ⟨hnumbers, rfl⟩).bind fun numbers v hv => ?_
  obtain ⟨hnumbers, rfl⟩ := hv
  have hconsume : Returns (fun s t => t.otps = s.otps) (fun _ _ => False)
      (consumeCurrent c numbers.1) v := by
    refine (Returns.findOne (P := fun found w =>
      (∃ n, found = Program.pick n (otpsOf (currentForms numbers.1) v)) ∧ w = v)
      fun n => ⟨⟨n, rfl⟩, rfl⟩).bind fun found w hw => ?_
    obtain ⟨⟨n, hn⟩, rfl⟩ := hw
    refine (Returns.ofExcept (P := fun _ _ => False) fun record hrecord => ?_).bind
      fun _ _ hfalse => hfalse.elim
    obtain ⟨hfound, haccepts⟩ := checkOtp_accepts.mp hrecord
    rw [hfound] at haccepts hn
    refine h user numbers huser hnumbers record (Program.mem_of_pick hn.symm) ?_
    simpa [changeAccepts] using haccepts
  exact hconsume.bind fun _ _ hfalse => hfalse.elim

section Solo

variable {c : ChangeCall} {s : Store} {phones : List String} {now : ℤ}
  {otp invalid wrong : String}

/-- The query of a check may fail. -/
theorem solo_consumeOtp_fails (k : Unit → Personal String) :
    System.Run (fun _ _ => True) (solo c s (consumeOtp phones now otp invalid wrong >>= k))
      (solo c s (.throw .database)) := by
  refine .tail (a := .fail 0) (.tail (a := .run 0 0) (.refl _) trivial rfl) trivial ?_
  rfl

/-- A code that is accepted can be consumed. -/
theorem solo_consumeOtp {r : OtpCode} (hr : r ∈ otpsOf phones s) (huse : usable now r = true)
    (hotp : otp = r.code) (k : Unit → Personal String) :
    System.Run (fun _ _ => True) (solo c s (consumeOtp phones now otp invalid wrong >>= k))
      (solo c (publish s [.otp { r with consumedAt := some now }]) (k ())) := by
  obtain ⟨n, hn⟩ := exists_pick hr
  have hcheck : checkOtp now otp invalid wrong (Program.pick n (otpsOf phones s)) = .ok r := by
    refine checkOtp_accepts.mpr ⟨hn, ?_⟩
    rw [hn]
    simp [changeAccepts, huse, hotp]
  have hrow : (savedOtp r.id).find s = some r :=
    Table.find?_key (List.mem_of_mem_filter (List.mem_of_mem_filter hr))
  have hsame : publish s [(savedOtp r.id).put r] = s := by
    simp [savedOtp, Store.write, Table.put_self hrow]
  have hfind := solo_findOne (c := c) (s := s) (e := PersonError.database) n (otpsOf phones)
    fun found => (Program.ofExcept (checkOtp now otp invalid wrong found) >>= fun record =>
      saveEntity (savedOtp record.id) PersonError.database
        { record with consumedAt := some now }) >>= k
  rw [hcheck] at hfind
  exact hfind.trans (solo_saveEntity hrow hsame k)

end Solo

/-- A call reaches its first check of a code. -/
theorem reaches_move {c : ChangeCall} {s : Store} {user : User} {numbers : String × String}
    (huser : s.users.find? c.userId = some user) (hnumbers : checkRequest c user = .ok numbers) :
    System.Run (fun _ _ => True) (launch changePhone s [c])
      (solo c s (moveAccount c numbers.1 numbers.2)) := by
  have hread := solo_query (c := c) (s := s) (e := PersonError.database)
    (fun s => s.users.find? c.userId) fun found =>
      Program.expect found (.notFound "User not found") >>= fun user =>
        Program.ofExcept (checkRequest c user) >>= fun numbers =>
          moveAccount c numbers.1 numbers.2
  rw [huser] at hread
  simp only [Program.expect, bind, Program.handle, hnumbers, Program.ofExcept] at hread
  exact hread

/-- The first code can be consumed, and then the next query can fail. -/
theorem reaches_failure {c : ChangeCall} {s : Store} {user : User} {numbers : String × String}
    {r : OtpCode} (huser : s.users.find? c.userId = some user)
    (hnumbers : checkRequest c user = .ok numbers)
    (hr : r ∈ otpsOf (currentForms numbers.1) s) (huse : usable c.now r = true)
    (hotp : c.currentOtp = r.code) :
    System.Run (fun _ _ => True) (launch changePhone s [c])
      (solo c (publish s [.otp { r with consumedAt := some c.now }]) (.throw .database)) := by
  exact (reaches_move huser hnumbers).trans
    ((solo_consumeOtp hr huse hotp _).trans (solo_consumeOtp_fails _))

theorem keeps_iff_refused (c : ChangeCall) (s : Store) :
    FailureKeepsCodes c s ↔ CurrentRefused c s := by
  constructor
  · intro hkeeps user numbers huser hnumbers r hr ⟨huse, hotp⟩
    have hrun := reaches_failure huser hnumbers hr huse hotp
    have hsame := hkeeps _ hrun ⟨_, List.mem_singleton.mpr rfl, _, rfl⟩
    have hafter : (publish s [.otp { r with consumedAt := some c.now }]).otps.find? r.id =
        some { r with consumedAt := some c.now } := Table.find?_key (Table.mem_put_self _ _)
    have hbefore : s.otps.find? r.id = some r :=
      Table.find?_key (List.mem_of_mem_filter (List.mem_of_mem_filter hr))
    have hsaved := (congrArg (fun t => t.find? r.id) hsame).symm.trans hafter
    have hconsumed : r.consumedAt = some c.now :=
      congrArg OtpCode.consumedAt (Option.some.inj (hbefore.symm.trans hsaved))
    simp [usable, hconsumed] at huse
  · intro hrefused sys hrun _
    have hchain := chain_of_run ((returns_refused hrefused).mono fun _ _ _ => trivial) hrun
    generalize sys.store = t at hchain
    induction hchain with
    | refl => rfl
    | tail _ hstep ih => exact hstep.trans ih

/-- `changePhone` and `verifyOtp` agree on a code of six digits where `verifyOtp` refuses it: the
number is locked out, or its newest code is spent, has expired or is another. A failing call
keeps the codes where none of the present number is accepted. -/
theorem checks_agree_iff (cfg : OtpConfig)
    (hdigest : ∀ code, (cfg.digest cfg.pepper code).length = 64) (s : Store) :
    (∀ lockedOut now otp phones norm, otp.length = 6 → (∀ r ∈ otpsOf phones s, Sent cfg r) →
      (Agree cfg lockedOut now otp phones norm s ↔
        lockedOut = true ∨ ∀ r ∈ otpsOf [norm] s, usable now r = false ∨
          matchesCode cfg otp r = false)) ∧
      ∀ c, FailureKeepsCodes c s ↔ CurrentRefused c s :=
  ⟨fun _ _ _ _ _ hotp hsent => agree_of_sent hdigest hotp hsent, fun c => keeps_iff_refused c s⟩

/-- A process in production; the digest is only as long as a real one. -/
def sampleConfig : OtpConfig :=
  { digest := fun _ code => String.ofList ((code.toList ++ List.replicate 64 'a').take 64)
    pepper := "pepper"
    demoCode := none
    production := true
    nexaEnv := .other
    expiryMs := 300000 }

theorem sampleConfig_digest (code : String) :
    (sampleConfig.digest sampleConfig.pepper code).length = 64 := by
  simp [sampleConfig]

def sampleNumber : String := "+212600000001"

def codeStored : Store :=
  publish Store.blank [.otp (otpRow sampleConfig sampleNumber "100000" 0 0)]

theorem codeStored_newest : otpsOf [sampleNumber] codeStored =
    [otpRow sampleConfig sampleNumber "100000" 0 0] := by
  decide +kernel

theorem agree_when_expired :
    Agree sampleConfig false 300001 "100000" [sampleNumber] sampleNumber codeStored := by
  refine ((checks_agree_iff sampleConfig sampleConfig_digest codeStored).1 false 300001 "100000"
    [sampleNumber] sampleNumber (by decide) fun r hr => ?_).mpr (.inr fun r hr => .inl ?_)
  · rw [codeStored_newest, List.mem_singleton] at hr
    exact ⟨"100000", by rw [hr]; rfl⟩
  · rw [codeStored_newest, List.mem_singleton] at hr
    rw [hr]
    decide

/-- A code that was just sent is refused by `changePhone`, and `verifyOtp` would accept it. -/
theorem sent_code_refused : ∃ sys : System String Store Key Write PersonError Unit,
    System.Run (fun _ _ => True)
      (launch (fun number => sendOtp sampleConfig number 0) Store.blank [sampleNumber]) sys ∧
      answerOf sys 0 = some () ∧
      ¬Agree sampleConfig false 1000 "100000" [sampleNumber] sampleNumber sys.store := by
  refine ⟨after (launch (fun number => sendOtp sampleConfig number 0) Store.blank [sampleNumber])
    (System.turns 0 0 2), run_after (by decide +kernel), by decide +kernel, fun hagree => ?_⟩
  exact absurd (hagree 0) (by decide +kernel)

end NexaStays.PhoneChange
