import Mathlib.Data.List.Basic
import NexaStays.IdentityStore
import NexaStays.SqlText

/-!
# Phone numbers

`normalizePhoneNumber` brings a phone number to E.164; numbers without a country code are
Moroccan. `phoneLookupCandidates` lists the texts under which the number may be stored, and
the account lookups go through them. A text is a list of characters.
-/
namespace NexaStays.PhoneNumbers

open NexaStays.KeyedTable NexaStays.Transactions NexaStays.IdentityStore NexaStays.SqlText

/-- `String(raw).trim()`. -/
def trimmed (raw : List Char) : List Char :=
  ((raw.dropWhile isSpace).reverse.dropWhile isSpace).reverse

/-- `s.replace(/\D/g, '')`. -/
def digitsOf (s : List Char) : List Char := s.filter Char.isDigit

/-- `s.slice(-9)`, for nine characters and more. -/
def lastNine (s : List Char) : List Char := s.drop (s.length - 9)

def startsWith (s : List Char) (head : List Char) : Bool := head.isPrefixOf s

def canonicalizeMoroccoTrunkZero (digits : List Char) : List Char :=
  if startsWith digits ['2', '1', '2', '0'] ∧ 12 ≤ digits.length then
    let subscriber := (digits.drop 4).take 9
    if subscriber.length = 9 then ['2', '1', '2'] ++ subscriber else digits
  else digits

/-- `/^[1-9]\d{least,most}$/`. -/
def leadsDigits (least most : ℕ) : List Char → Bool
  | [] => false
  | c :: rest => c.isDigit && c ≠ '0' && rest.all Char.isDigit && least ≤ rest.length &&
    rest.length ≤ most

/-- `E164_REGEX`. -/
def isE164 : List Char → Bool
  | '+' :: rest => leadsDigits 1 14 rest
  | _ => false

def morocco : List Char := ['+', '2', '1', '2']

/-- The branches on the digits, for numbers that are not passed through. -/
def nationalForm (digits : List Char) : List Char :=
  if startsWith digits ['2', '1', '2'] ∧ 12 ≤ digits.length then '+' :: digits.take 12
  else if startsWith digits ['0'] ∧ 10 ≤ digits.length then morocco ++ (digits.drop 1).take 9
  else if startsWith digits ['2', '1', '2'] ∧ 9 ≤ digits.length then
    morocco ++ (digits.drop 3).take 9
  else if 9 ≤ digits.length ∧ startsWith digits ['6'] then morocco ++ digits.take 9
  else morocco ++ lastNine digits

def cannotNormalize (raw : List Char) : String :=
  "Invalid phone number: cannot normalize \"" ++ String.ofList raw ++ "\""

def normalizePhoneNumber (raw : List Char) : Except String (List Char) :=
  let s := trimmed raw
  let digits := canonicalizeMoroccoTrunkZero (digitsOf s)
  if startsWith s ['+'] ∧ leadsDigits 9 14 digits ∧ isE164 ('+' :: digits) then
    .ok ('+' :: digits)
  else if digits.length < 9 then .error "Invalid phone number: too few digits"
  else if ¬isE164 (nationalForm digits) ∨ (nationalForm digits).length < 12 then
    .error (cannotNormalize raw)
  else .ok (nationalForm digits)

def tryNormalizePhoneNumber (raw : List Char) : Option (List Char) :=
  (normalizePhoneNumber raw).toOption

structure ValidatePhoneResult where
  valid : Bool
  error : Option String
  normalized : Option (List Char)
  deriving DecidableEq, Repr

def ValidatePhoneResult.invalid (error : String) : ValidatePhoneResult := ⟨false, some error, none⟩

def validatePhoneNumber (raw : List Char) : ValidatePhoneResult :=
  let s := trimmed raw
  let digits := digitsOf s
  if s = [] then .invalid "Phone number is required"
  else if digits.length < 9 then .invalid "Phone number has too few digits"
  else if 15 < digits.length then .invalid "Phone number has too many digits"
  else if digits.all (· = '0') ∨ startsWith digits ['0'] ∧ digits.length ≤ 6 then
    .invalid "Phone number is invalid or ambiguous"
  else
    match normalizePhoneNumber s with
    | .ok normalized => ⟨true, none, some normalized⟩
    | .error message => .invalid message

/-- What the entry points make of a phone number. -/
def normalizePhoneOrThrow (raw : List Char) : Except IdentityError (List Char) :=
  let result := validatePhoneNumber raw
  if result.valid then .ok (result.normalized.getD [])
  else .error (.badRequest (result.error.getD "Invalid phone number"))

/-- The entry points take the number. -/
def Accepted (raw : List Char) : Prop := (validatePhoneNumber raw).valid = true

instance (raw : List Char) : Decidable (Accepted raw) := inferInstanceAs (Decidable (_ = _))

def looksLikeMorocco (raw digits : List Char) (normalized : Option (List Char)) : Bool :=
  if normalized.any (startsWith · morocco) then true
  else if startsWith digits ['2', '1', '2'] then true
  else if startsWith (trimmed raw) ['+'] ∧ ¬startsWith digits ['2', '1', '2'] then false
  else if startsWith (trimmed raw) ['0', '0'] ∧ ¬startsWith digits ['0', '0', '2', '1', '2'] ∧
    ¬startsWith digits ['2', '1', '2'] then false
  else true

/-- The national variants of a Moroccan number. -/
def nationalVariants (digits : List Char) : List (List Char) :=
  if 9 ≤ digits.length then
    [lastNine digits, '0' :: lastNine digits, ['2', '1', '2'] ++ lastNine digits,
      morocco ++ lastNine digits]
  else []

def phoneLookupCandidates (raw : List Char) : List (List Char) :=
  let s := trimmed raw
  if s = [] then []
  else
    let digits := digitsOf s
    let normalized := tryNormalizePhoneNumber s
    ([s] ++ (if digits = [] then [] else [digits]) ++
      (normalized.toList.flatMap fun n => [n, n.drop 1]) ++
      (if looksLikeMorocco s digits normalized then nationalVariants digits else [])).eraseDups

/-- `findAccountsByPhone`: the users stored under a candidate. -/
def findAccountsByPhone (s : Store) (phoneNumber : List Char) : List (ℕ × AccountType) :=
  (s.users.rows.filter fun u =>
    u.phoneNumber.any (·.toList ∈ phoneLookupCandidates phoneNumber)).map fun u =>
      (u.id, u.accountType.getD .consumer)

/-- `findConsumerByPhone`; `n` is the choice of the database among several rows. -/
def findConsumerByPhone (n : ℕ) (s : Store) (phoneNumber : List Char) : Option User :=
  Program.pick n (s.users.rows.filter fun u =>
    u.phoneNumber.any (·.toList ∈ phoneLookupCandidates phoneNumber) &&
      u.accountType = some .consumer)

/-- `identityPhoneNumbersService.findIdentityByPhone`. -/
def findIdentityByPhone (n : ℕ) (s : Store) (rawPhone : List Char) : Option UnifiedIdentity := do
  let normalized ← tryNormalizePhoneNumber rawPhone
  let row ← Program.pick n
    (s.phones.rows.filter fun p => p.normalizedPhoneNumber.toList = normalized)
  s.identities.find? row.identityId

/-- The identity of the first candidate that has one. -/
def findIdentityByPhoneOrLegacy (n : ℕ) (s : Store) (phoneNumber : List Char) :
    Option UnifiedIdentity :=
  (phoneLookupCandidates phoneNumber).findSome? fun candidate =>
    (findIdentityByPhone n s candidate).or
      (Program.pick n (s.identities.rows.filter fun i =>
        i.phoneNumber.any (·.toList = candidate)))

section Texts

variable {s d e : List Char}

theorem startsWith_iff {head : List Char} : startsWith s head = true ↔ ∃ t, s = head ++ t := by
  rw [startsWith, List.isPrefixOf_iff_prefix]
  exact ⟨fun ⟨t, h⟩ => ⟨t, h.symm⟩, fun ⟨t, h⟩ => ⟨t, h.symm⟩⟩

theorem dropWhile_idem (p : Char → Bool) (l : List Char) :
    (l.dropWhile p).dropWhile p = l.dropWhile p := by
  induction l with
  | nil => rfl
  | cons c l ih =>
    by_cases hc : p c
    · simpa [List.dropWhile_cons, hc] using ih
    · simp [hc]

theorem trimmed_of_noSpace (h : ∀ c ∈ s, isSpace c = false) : trimmed s = s := by
  have hdrop : ∀ l : List Char, (∀ c ∈ l, isSpace c = false) → l.dropWhile isSpace = l := by
    intro l hl
    cases l with
    | nil => rfl
    | cons c l => simp [hl c (by simp)]
  rw [trimmed, hdrop _ h, hdrop _ (by simpa using h), List.reverse_reverse]

/-- The ends of a trimmed text are not white space. -/
theorem trimmed_trimmed (s : List Char) : trimmed (trimmed s) = trimmed s := by
  have hhead : ∀ l : List Char, l.dropWhile isSpace = l →
      ((l.reverse.dropWhile isSpace).reverse).dropWhile isSpace =
        (l.reverse.dropWhile isSpace).reverse := by
    intro l hl
    cases l with
    | nil => rfl
    | cons c l =>
      have hc : isSpace c = false := by
        by_contra hc
        have hlen := congrArg List.length hl
        have hle := (List.dropWhile_sublist isSpace (l := l)).length_le
        simp only [Bool.not_eq_false] at hc
        simp only [List.dropWhile_cons, hc, if_true, List.length_cons] at hlen
        omega
      rw [List.reverse_cons, List.dropWhile_append]
      split_ifs
      · simp [hc]
      · simp [hc]
  rw [trimmed, trimmed, hhead _ (dropWhile_idem isSpace s), List.reverse_reverse,
    dropWhile_idem isSpace]

theorem isSpace_of_isDigit {c : Char} (h : c.isDigit = true) : isSpace c = false := by
  simp only [Char.isDigit, Bool.and_eq_true, decide_eq_true_eq, ge_iff_le, UInt32.le_iff_toNat_le] at h
  have hlo : 48 ≤ c.toNat := h.1
  have hhi : c.toNat ≤ 57 := h.2
  clear h
  simp [isSpace]
  omega

theorem trimmed_digits (h : d.all Char.isDigit = true) : trimmed d = d := by
  simp only [List.all_eq_true] at h
  exact trimmed_of_noSpace fun c hc => isSpace_of_isDigit (h c hc)

theorem trimmed_plus (h : d.all Char.isDigit = true) : trimmed ('+' :: d) = '+' :: d := by
  simp only [List.all_eq_true] at h
  refine trimmed_of_noSpace fun c hc => ?_
  rcases List.mem_cons.mp hc with rfl | hc
  · decide
  · exact isSpace_of_isDigit (h c hc)

theorem digitsOf_digits (h : d.all Char.isDigit = true) : digitsOf d = d := by
  simpa [digitsOf, List.filter_eq_self] using h

theorem digitsOf_plus (h : d.all Char.isDigit = true) : digitsOf ('+' :: d) = d := by
  rw [digitsOf, List.filter_cons_of_neg (by decide)]
  exact digitsOf_digits h

theorem all_digitsOf (s : List Char) : (digitsOf s).all Char.isDigit = true := by
  simp [digitsOf]

theorem length_lastNine (h : 9 ≤ d.length) : (lastNine d).length = 9 := by
  rw [lastNine, List.length_drop]
  omega

theorem all_of_sublist {p : Char → Bool} (h : d.all p = true) (hsub : e.Sublist d) :
    e.all p = true := by
  simp only [List.all_eq_true] at h ⊢
  exact fun c hc => h c (hsub.subset hc)

theorem all_lastNine (h : d.all Char.isDigit = true) : (lastNine d).all Char.isDigit = true :=
  all_of_sublist h (List.drop_sublist _ d)

theorem leadsDigits_iff {least most : ℕ} : leadsDigits least most d = true ↔
    d.all Char.isDigit = true ∧ least < d.length ∧ d.length ≤ most + 1 ∧ d.head? ≠ some '0' := by
  cases d with
  | nil => simp [leadsDigits]
  | cons c rest =>
    simp only [leadsDigits, Bool.and_eq_true, decide_eq_true_eq, List.all_cons, List.length_cons,
      List.head?_cons, ne_eq, Option.some.injEq]
    constructor
    · rintro ⟨⟨⟨⟨hc, hne⟩, hrest⟩, hleast⟩, hmost⟩
      exact ⟨⟨hc, hrest⟩, by omega, by omega, hne⟩
    · rintro ⟨⟨hc, hrest⟩, hleast, hmost, hne⟩
      exact ⟨⟨⟨⟨hc, hne⟩, hrest⟩, by omega⟩, by omega⟩

theorem canonicalize_of_short (h : d.length ≤ 12) : canonicalizeMoroccoTrunkZero d = d := by
  have hlen : ((d.drop 4).take 9).length ≠ 9 := by
    rw [List.length_take, List.length_drop]
    omega
  simp only [canonicalizeMoroccoTrunkZero, if_neg hlen, ite_self]

/-- The trunk zero is stripped from thirteen digits and more, which leaves twelve. -/
theorem canonicalize_cases (d : List Char) : canonicalizeMoroccoTrunkZero d = d ∨
    startsWith d ['2', '1', '2', '0'] = true ∧ 13 ≤ d.length ∧
      canonicalizeMoroccoTrunkZero d = ['2', '1', '2'] ++ (d.drop 4).take 9 := by
  by_cases hstart : startsWith d ['2', '1', '2', '0'] ∧ 12 ≤ d.length
  · by_cases hlen : ((d.drop 4).take 9).length = 9
    · right
      refine ⟨hstart.1, ?_, by simp only [canonicalizeMoroccoTrunkZero, if_pos hstart, if_pos hlen]⟩
      rw [List.length_take, List.length_drop] at hlen
      omega
    · exact Or.inl (by simp only [canonicalizeMoroccoTrunkZero, if_pos hstart, if_neg hlen])
  · exact Or.inl (by simp only [canonicalizeMoroccoTrunkZero, if_neg hstart])

theorem canonicalize_idem (d : List Char) :
    canonicalizeMoroccoTrunkZero (canonicalizeMoroccoTrunkZero d) =
      canonicalizeMoroccoTrunkZero d := by
  obtain h | ⟨-, hlen, h⟩ := canonicalize_cases d
  · rw [h, h]
  · rw [h]
    apply canonicalize_of_short
    simp only [List.length_append, List.length_cons, List.length_nil, List.length_take,
      List.length_drop]
    omega

/-- The national branches leave at most twelve digits. -/
theorem nationalForm_short (d : List Char) :
    ∃ e, nationalForm d = '+' :: e ∧ e.length ≤ 12 := by
  have hlast : (lastNine d).length ≤ 9 := by
    rw [lastNine, List.length_drop]
    omega
  have hprefix : ∀ e : List Char, e.length ≤ 9 →
      ∃ e', morocco ++ e = '+' :: e' ∧ e'.length ≤ 12 := by
    intro e he
    refine ⟨'2' :: '1' :: '2' :: e, rfl, ?_⟩
    simp only [List.length_cons]
    omega
  unfold nationalForm
  split_ifs
  · exact ⟨_, rfl, List.length_take_le 12 d⟩
  · exact hprefix _ (List.length_take_le 9 _)
  · exact hprefix _ (List.length_take_le 9 _)
  · exact hprefix _ (List.length_take_le 9 _)
  · exact hprefix _ hlast

end Texts

example : normalizePhoneNumber " +212 06 12 34 56 78 ".toList = .ok "+212612345678".toList := by
  decide

/-- The digits of a normal form, which the normalizer passes through after a `+`. -/
structure Normal (e : List Char) : Prop where
  leads : leadsDigits 9 14 e = true
  stable : canonicalizeMoroccoTrunkZero e = e

section Normalizer

variable {raw n d e : List Char}

theorem Normal.digits (h : Normal e) : e.all Char.isDigit = true := (leadsDigits_iff.mp h.leads).1

theorem isE164_of_leads (h : leadsDigits 9 14 e = true) : isE164 ('+' :: e) = true := by
  obtain ⟨hall, hleast, hmost, hhead⟩ := leadsDigits_iff.mp h
  exact leadsDigits_iff.mpr ⟨hall, by omega, hmost, hhead⟩

/-- A normal form is its own normal form. -/
theorem Normal.normalize (h : Normal e) : normalizePhoneNumber ('+' :: e) = .ok ('+' :: e) := by
  simp only [normalizePhoneNumber, trimmed_plus h.digits, digitsOf_plus h.digits, h.stable]
  rw [if_pos ⟨by simp [startsWith], h.leads, isE164_of_leads h.leads⟩]

theorem normal_of_normalize (h : normalizePhoneNumber raw = .ok n) :
    ∃ e, n = '+' :: e ∧ Normal e := by
  simp only [normalizePhoneNumber] at h
  split_ifs at h with hpass hfew hbad
  · obtain rfl := Except.ok.inj h
    exact ⟨_, rfl, hpass.2.1, canonicalize_idem _⟩
  · obtain rfl := Except.ok.inj h
    obtain ⟨e, he, hshort⟩ := nationalForm_short (canonicalizeMoroccoTrunkZero (digitsOf (trimmed raw)))
    rw [not_or, not_not, he] at hbad
    obtain ⟨hall, -, hmost, hhead⟩ := leadsDigits_iff.mp (show leadsDigits 1 14 e = true from hbad.1)
    have hlen := hbad.2
    rw [List.length_cons] at hlen
    exact ⟨e, he, leadsDigits_iff.mpr ⟨hall, by omega, hmost, hhead⟩, canonicalize_of_short hshort⟩

theorem normalize_normalized (h : normalizePhoneNumber raw = .ok n) :
    normalizePhoneNumber n = .ok n := by
  obtain ⟨e, rfl, he⟩ := normal_of_normalize h
  exact he.normalize

/-- Digits alone take the national branches. -/
theorem normalize_digits (hd : d.all Char.isDigit = true) :
    normalizePhoneNumber d = .ok n ↔ 9 ≤ (canonicalizeMoroccoTrunkZero d).length ∧
      isE164 (nationalForm (canonicalizeMoroccoTrunkZero d)) = true ∧
      12 ≤ (nationalForm (canonicalizeMoroccoTrunkZero d)).length ∧
      nationalForm (canonicalizeMoroccoTrunkZero d) = n := by
  have hplus : startsWith d ['+'] = false := by
    cases d with
    | nil => rfl
    | cons c d =>
      rw [List.all_cons, Bool.and_eq_true] at hd
      by_contra h
      rw [Bool.not_eq_false, startsWith_iff] at h
      obtain ⟨t, ht⟩ := h
      obtain ⟨rfl, -⟩ := List.cons.inj ht
      exact absurd hd.1 (by decide)
  simp only [normalizePhoneNumber, trimmed_digits hd, digitsOf_digits hd, hplus, Bool.false_eq_true,
    false_and, if_false]
  split_ifs with hfew hbad
  · simp only [false_iff]
    omega
  · simp only [false_iff]
    rintro ⟨-, hform, hlen, -⟩
    rcases hbad with hbad | hbad
    · exact hbad hform
    · omega
  · rw [not_or, not_not] at hbad
    simp only [Except.ok.injEq]
    exact ⟨fun h => ⟨by omega, hbad.1, by omega, h⟩, fun h => h.2.2.2⟩

theorem normalize_trimmed : normalizePhoneNumber (trimmed raw) = .ok n ↔
    normalizePhoneNumber raw = .ok n := by
  simp only [normalizePhoneNumber, trimmed_trimmed]
  split_ifs <;> simp

theorem tryNormalize_eq_some :
    tryNormalizePhoneNumber raw = some n ↔ normalizePhoneNumber raw = .ok n := by
  cases h : normalizePhoneNumber raw <;> simp [tryNormalizePhoneNumber, h, Except.toOption]

end Normalizer

/-- The identity is stored under no other number than `m`. -/
def StoredOnlyUnder (s : Store) (identity : UnifiedIdentity) (m : List Char) : Prop :=
  (∀ p ∈ s.phones.rows, p.identityId = identity.id → p.normalizedPhoneNumber.toList = m) ∧
    ∀ p ∈ identity.phoneNumber, p.toList = m

/-- What is stored under another accepted number is out of reach from `a`. -/
structure Apart (a m : List Char) : Prop where
  candidates : m ∉ phoneLookupCandidates a
  accounts : ∀ (s : Store), ∀ u ∈ s.users.rows, u.phoneNumber.map String.toList = some m →
    ∀ accountType, (u.id, accountType) ∉ findAccountsByPhone s a
  identities : ∀ (s : Store) n identity, findIdentityByPhoneOrLegacy n s a = some identity →
    ¬StoredOnlyUnder s identity m

def Isolated (a : List Char) : Prop :=
  ∀ b m, Accepted b → normalizePhoneNumber b = .ok m → normalizePhoneNumber a ≠ .ok m → Apart a m

/-- How many digits the normalizer takes for a prefix before the nine that it keeps, unless
it passes the number through with a foreign prefix or keeps fewer than nine. -/
def prefixLength (s digits : List Char) : Option ℕ :=
  if startsWith digits ['2', '1', '2', '0'] ∧ 13 ≤ digits.length then some 4
  else if startsWith digits ['2', '1', '2'] ∧ 12 ≤ digits.length then
    if startsWith s ['+'] ∧ digits.length ≠ 12 then none else some 3
  else if startsWith s ['+'] ∧ leadsDigits 9 14 digits ∨ startsWith digits ['2', '1', '2'] then none
  else if startsWith digits ['0'] ∧ 10 ≤ digits.length then some 1
  else if startsWith digits ['6'] then some 0
  else some (digits.length - 9)

/-- The nine digits that the normalizer keeps are the last nine. -/
def KeepsLastNine (a : List Char) : Prop :=
  ∃ k ∈ prefixLength (trimmed a) (digitsOf (trimmed a)),
    ((digitsOf (trimmed a)).drop k).take 9 = lastNine (digitsOf (trimmed a))

section Prefixes

variable {a s d n e x : List Char}

/-- What the normalizer makes of the digits of a text: it passes them through after a `+`, or
takes a national branch. -/
def Reads (s d n : List Char) : Prop :=
  let c := canonicalizeMoroccoTrunkZero d
  (startsWith s ['+'] = true ∧ leadsDigits 9 14 c = true) ∧ n = '+' :: c ∨
    ¬(startsWith s ['+'] = true ∧ leadsDigits 9 14 c = true) ∧ n = nationalForm c

theorem reads_of_normalize (h : normalizePhoneNumber a = .ok n) :
    Reads (trimmed a) (digitsOf (trimmed a)) n := by
  simp only [normalizePhoneNumber] at h
  split_ifs at h with hpass hfew hbad
  · exact Or.inl ⟨⟨hpass.1, hpass.2.1⟩, (Except.ok.inj h).symm⟩
  · refine Or.inr ⟨fun hplus => hpass ⟨hplus.1, hplus.2, isE164_of_leads hplus.2⟩, ?_⟩
    exact (Except.ok.inj h).symm

theorem nationalForm_twelve (hx : x.length = 9) :
    nationalForm (['2', '1', '2'] ++ x) = morocco ++ x := by
  rw [nationalForm, if_pos ⟨startsWith_iff.mpr ⟨x, rfl⟩, by simp [hx]⟩]
  simp [morocco, List.take_of_length_le (Nat.le_of_eq hx)]

/-- Twelve digits of Morocco come out the same in both branches. -/
theorem Reads.twelve (h : Reads s d n)
    (hc : canonicalizeMoroccoTrunkZero d = ['2', '1', '2'] ++ x) (hx : x.length = 9) :
    n = morocco ++ x := by
  unfold Reads at h
  rw [hc] at h
  obtain ⟨-, h⟩ | ⟨-, h⟩ := h
  · exact h
  · rw [h, nationalForm_twelve hx]

/-- Of a number that is not passed through, the digits are kept as they are. -/
theorem Reads.national (h : Reads s d n) (hc : canonicalizeMoroccoTrunkZero d = d)
    (hpass : ¬(startsWith s ['+'] = true ∧ leadsDigits 9 14 d = true)) : n = nationalForm d := by
  unfold Reads at h
  rw [hc] at h
  obtain ⟨hyes, -⟩ | ⟨-, h⟩ := h
  · exact absurd hyes hpass
  · exact h

theorem Reads.passed (h : Reads s d n) (hc : canonicalizeMoroccoTrunkZero d = d)
    (hpass : startsWith s ['+'] = true ∧ leadsDigits 9 14 d = true) : n = '+' :: d := by
  unfold Reads at h
  rw [hc] at h
  obtain ⟨-, h⟩ | ⟨hno, -⟩ := h
  · exact h
  · exact absurd hpass hno

theorem length_window (h : 13 ≤ d.length) : ((d.drop 4).take 9).length = 9 := by
  rw [List.length_take, List.length_drop]
  omega

theorem canonicalize_of_trunk (h : startsWith d ['2', '1', '2', '0'] = true)
    (hlen : 13 ≤ d.length) :
    canonicalizeMoroccoTrunkZero d = ['2', '1', '2'] ++ (d.drop 4).take 9 := by
  simp only [canonicalizeMoroccoTrunkZero]
  rw [if_pos ⟨h, by omega⟩, if_pos (length_window hlen)]

theorem canonicalize_of_not (h : ¬(startsWith d ['2', '1', '2', '0'] ∧ 13 ≤ d.length)) :
    canonicalizeMoroccoTrunkZero d = d := by
  obtain hsame | ⟨hstart, hlen, -⟩ := canonicalize_cases d
  · exact hsame
  · exact absurd ⟨hstart, hlen⟩ h

/-- With a prefix, the nine digits after it are kept. -/
theorem Reads.kept (h : Reads s d n) (hlen : 9 ≤ d.length) {k : ℕ} (hk : prefixLength s d = some k) :
    n = morocco ++ (d.drop k).take 9 := by
  unfold prefixLength at hk
  split_ifs at hk with htrunk hcountry hplus hpass hzero hsix
  · obtain rfl := Option.some.inj hk
    exact h.twelve (canonicalize_of_trunk htrunk.1 htrunk.2) (length_window htrunk.2)
  · obtain rfl := Option.some.inj hk
    have hc := canonicalize_of_not htrunk
    obtain ⟨t, rfl⟩ := startsWith_iff.mp hcountry.1
    by_cases hstart : startsWith s ['+'] = true
    · have ht : t.length = 9 := by
        have h12 : (['2', '1', '2'] ++ t).length = 12 := by
          by_contra hne
          exact hplus ⟨hstart, hne⟩
        simpa using h12
      rw [h.twelve hc ht]
      simp [List.take_of_length_le (Nat.le_of_eq ht)]
    · rw [h.national hc fun hyes => hstart hyes.1, nationalForm, if_pos hcountry]
      simp [morocco]
  · obtain rfl := Option.some.inj hk
    rw [not_or] at hpass
    rw [h.national (canonicalize_of_not htrunk) hpass.1, nationalForm, if_neg hcountry, if_pos hzero]
  · obtain rfl := Option.some.inj hk
    rw [not_or] at hpass
    rw [h.national (canonicalize_of_not htrunk) hpass.1, nationalForm, if_neg hcountry, if_neg hzero,
      if_neg fun hyes => hpass.2 hyes.1, if_pos ⟨hlen, hsix⟩]
    rfl
  · obtain rfl := Option.some.inj hk
    rw [not_or] at hpass
    rw [h.national (canonicalize_of_not htrunk) hpass.1, nationalForm, if_neg hcountry, if_neg hzero,
      if_neg fun hyes => hpass.2 hyes.1, if_neg fun hyes => hsix hyes.2]
    rw [lastNine, List.take_of_length_le (by rw [List.length_drop]; omega)]

/-- Without a prefix the normal form is not Moroccan with nine digits. -/
theorem Reads.not_kept (h : Reads s d n) (hall : d.all Char.isDigit = true) (hmost : d.length ≤ 15)
    (hk : prefixLength s d = none) (hx : x.length = 9) : n ≠ morocco ++ x := by
  rintro rfl
  unfold prefixLength at hk
  split_ifs at hk with htrunk hcountry hplus hpass
  · obtain ⟨t, rfl⟩ := startsWith_iff.mp hcountry.1
    have hleads : leadsDigits 9 14 (['2', '1', '2'] ++ t) = true :=
      leadsDigits_iff.mpr ⟨hall, by omega, by omega, by simp⟩
    have hsame := congrArg List.length (h.passed (canonicalize_of_not htrunk) ⟨hplus.1, hleads⟩)
    simp only [morocco, List.length_append, List.length_cons, List.length_nil] at hsame hplus
    omega
  · have hc := canonicalize_of_not htrunk
    by_cases hyes : startsWith s ['+'] = true ∧ leadsDigits 9 14 d = true
    · obtain rfl : ['2', '1', '2'] ++ x = d := (List.cons.inj (h.passed hc hyes)).2
      exact hcountry ⟨startsWith_iff.mpr ⟨x, rfl⟩, by simp [hx]⟩
    · have hstart := hpass.resolve_left hyes
      obtain ⟨t, rfl⟩ := startsWith_iff.mp hstart
      have hshort : t.length < 9 := by
        by_contra hlong
        exact hcountry ⟨hstart, by simp; omega⟩
      have hform := h.national hc hyes
      rw [nationalForm, if_neg hcountry, if_neg (by simp [startsWith])] at hform
      split_ifs at hform with hnine hsix
      · have hl := congrArg List.length hform
        simp [morocco] at hl
        omega
      · exact absurd hsix.2 (by simp [startsWith])
      · have hl := congrArg List.length hform
        rw [lastNine] at hl
        have : ¬ 9 ≤ (['2', '1', '2'] ++ t).length := fun hle => hnine ⟨hstart, hle⟩
        simp [morocco] at hl this
        omega

end Prefixes

section Isolation

variable {a d e x m n : List Char}

theorem accepted_iff : Accepted a ↔ 9 ≤ (digitsOf (trimmed a)).length ∧
    (digitsOf (trimmed a)).length ≤ 15 ∧ (digitsOf (trimmed a)).all (· = '0') = false ∧
    ∃ n, normalizePhoneNumber a = .ok n := by
  have hempty : trimmed a = [] → digitsOf (trimmed a) = [] := by
    intro h
    rw [h]
    rfl
  simp only [Accepted, validatePhoneNumber]
  split_ifs with hnil hfew hmany hzero
  · simp [ValidatePhoneResult.invalid, hempty hnil]
  · simp only [ValidatePhoneResult.invalid, Bool.false_eq_true, false_iff]
    omega
  · simp only [ValidatePhoneResult.invalid, Bool.false_eq_true, false_iff]
    omega
  · simp only [ValidatePhoneResult.invalid, Bool.false_eq_true, false_iff]
    rintro ⟨-, -, hno, -⟩
    rcases hzero with hzero | hzero
    · rw [hno] at hzero
      exact absurd hzero (by simp)
    · omega
  · rw [not_or, Bool.not_eq_true] at hzero
    cases hn : normalizePhoneNumber (trimmed a) with
    | ok n => simpa [hzero.1] using ⟨by omega, by omega, n, normalize_trimmed.mp hn⟩
    | error e =>
      simp only [ValidatePhoneResult.invalid, Bool.false_eq_true, false_iff]
      rintro ⟨-, -, -, n, hok⟩
      rw [normalize_trimmed.mpr hok] at hn
      cases hn

/-- A Moroccan number in normal form. -/
theorem normal_morocco (hx : x.length = 9) (hd : x.all Char.isDigit = true) :
    Normal (['2', '1', '2'] ++ x) := by
  refine ⟨leadsDigits_iff.mpr ⟨by simpa using hd, by simp [hx], by simp [hx], by simp⟩, ?_⟩
  exact canonicalize_of_short (by simp [hx])

theorem accepted_morocco (hx : x.length = 9) (hd : x.all Char.isDigit = true) :
    Accepted (morocco ++ x) := by
  have hnormal := normal_morocco hx hd
  have hdigits : digitsOf (trimmed (morocco ++ x)) = ['2', '1', '2'] ++ x := by
    rw [show morocco ++ x = '+' :: (['2', '1', '2'] ++ x) from rfl, trimmed_plus hnormal.digits,
      digitsOf_plus hnormal.digits]
  rw [accepted_iff, hdigits]
  exact ⟨by simp [hx], by simp [hx], by simp, _, hnormal.normalize⟩

/-- The condition on the digits says what the normal form is. -/
theorem normalize_iff (h : Accepted a) : normalizePhoneNumber a =
    .ok (morocco ++ lastNine (digitsOf (trimmed a))) ↔ KeepsLastNine a := by
  obtain ⟨hleast, hmost, -, n, hn⟩ := accepted_iff.mp h
  have hreads := reads_of_normalize hn
  cases hk : prefixLength (trimmed a) (digitsOf (trimmed a)) with
  | none =>
    have hne := hreads.not_kept (all_digitsOf _) hmost hk (length_lastNine hleast)
    simp [KeepsLastNine, hk, hn, hne]
  | some k =>
    rw [hn, hreads.kept hleast hk]
    simp [KeepsLastNine, hk]

theorem mem_candidates (h : trimmed a ≠ []) : x ∈ phoneLookupCandidates a ↔
    x = trimmed a ∨ (digitsOf (trimmed a) ≠ [] ∧ x = digitsOf (trimmed a)) ∨
      (∃ n, normalizePhoneNumber a = .ok n ∧ (x = n ∨ x = n.drop 1)) ∨
      looksLikeMorocco (trimmed a) (digitsOf (trimmed a)) (tryNormalizePhoneNumber (trimmed a)) ∧
        x ∈ nationalVariants (digitsOf (trimmed a)) := by
  have hdigits : x ∈ (if digitsOf (trimmed a) = [] then [] else [digitsOf (trimmed a)]) ↔
      digitsOf (trimmed a) ≠ [] ∧ x = digitsOf (trimmed a) := by
    split_ifs with hd <;> simp [hd]
  have hvariants : x ∈ (if looksLikeMorocco (trimmed a) (digitsOf (trimmed a))
      (tryNormalizePhoneNumber (trimmed a)) then nationalVariants (digitsOf (trimmed a)) else []) ↔
      looksLikeMorocco (trimmed a) (digitsOf (trimmed a)) (tryNormalizePhoneNumber (trimmed a)) ∧
        x ∈ nationalVariants (digitsOf (trimmed a)) := by
    split_ifs with hm <;> simp [hm]
  simp only [phoneLookupCandidates, if_neg h, List.mem_eraseDups, List.mem_append, hvariants,
    List.mem_flatMap, Option.mem_toList, List.mem_cons, List.not_mem_nil, or_false,
    tryNormalize_eq_some, normalize_trimmed, hdigits, or_assoc]

theorem trimmed_ne_nil (h : Accepted a) : trimmed a ≠ [] := by
  intro hnil
  have hleast := (accepted_iff.mp h).1
  rw [hnil] at hleast
  simp [digitsOf] at hleast

theorem plus_notMem (hd : d.all Char.isDigit = true) : '+' :: e ≠ d := by
  rintro rfl
  simp at hd

/-- Of the candidates only the last variant can be another normal form. -/
theorem eq_variant (h : Accepted a) (hm : x ∈ phoneLookupCandidates a)
    (hx : normalizePhoneNumber x = .ok x) (hne : normalizePhoneNumber a ≠ .ok x) :
    x = morocco ++ lastNine (digitsOf (trimmed a)) ∧ looksLikeMorocco (trimmed a)
      (digitsOf (trimmed a)) (tryNormalizePhoneNumber (trimmed a)) = true := by
  obtain ⟨e, rfl, -⟩ := normal_of_normalize hx
  have hall := all_digitsOf (trimmed a)
  have hlast := all_lastNine hall
  obtain hs | ⟨-, hd⟩ | ⟨n, hn, hn' | hdrop⟩ | ⟨hlooks, hv⟩ :=
    (mem_candidates (trimmed_ne_nil h)).mp hm
  · rw [hs, normalize_trimmed] at hx
    rw [hs] at hne
    exact absurd hx hne
  · exact absurd hd (plus_notMem hall)
  · rw [hn'] at hne
    exact absurd hn hne
  · obtain ⟨e', rfl, he'⟩ := normal_of_normalize hn
    exact absurd hdrop (plus_notMem he'.digits)
  · refine ⟨?_, hlooks⟩
    unfold nationalVariants at hv
    split_ifs at hv
    · simp only [List.mem_cons, List.not_mem_nil, or_false] at hv
      obtain hv | hv | hv | hv := hv
      · exact absurd hv (plus_notMem hlast)
      · exact absurd hv (plus_notMem (by simpa using hlast))
      · exact absurd hv (plus_notMem (by simpa using hlast))
      · exact hv
    · simp at hv

/-- Nine digits without a prefix, if they are a number at all. -/
theorem normalize_nine (hx : x.length = 9) (hd : x.all Char.isDigit = true)
    (h : normalizePhoneNumber x = .ok m) : m = morocco ++ x := by
  have hc : canonicalizeMoroccoTrunkZero x = x := canonicalize_of_short (by omega)
  obtain ⟨-, -, hlen, rfl⟩ := (normalize_digits hd).mp h
  rw [hc] at hlen ⊢
  have hcut : ¬(startsWith x ['2', '1', '2'] ∧ 12 ≤ x.length) := fun hyes => by omega
  have hzero : ¬(startsWith x ['0'] ∧ 10 ≤ x.length) := fun hyes => by omega
  rw [nationalForm, if_neg hcut, if_neg hzero] at hlen ⊢
  split_ifs at hlen ⊢ with hthree hsix
  · simp [morocco, hx] at hlen
  · rw [List.take_of_length_le (Nat.le_of_eq hx)]
  · simp [lastNine, hx]

/-- Nine digits after a prefix of Morocco. -/
theorem normalize_prefixed (hx : x.length = 9) (hd : x.all Char.isDigit = true)
    (h : normalizePhoneNumber ('0' :: x) = .ok m ∨
      normalizePhoneNumber (['2', '1', '2'] ++ x) = .ok m) : m = morocco ++ x := by
  rcases h with h | h
  · obtain ⟨-, -, -, rfl⟩ := (normalize_digits (by simpa using hd)).mp h
    rw [canonicalize_of_short (by simp [hx]), nationalForm, if_neg (by simp [startsWith]),
      if_pos (by simp [startsWith, hx])]
    simp [List.take_of_length_le (Nat.le_of_eq hx)]
  · obtain ⟨-, -, -, rfl⟩ := (normalize_digits (by simpa using hd)).mp h
    rw [canonicalize_of_short (by simp [hx]), nationalForm_twelve hx]

/-- Every candidate of a number that keeps its last nine digits is that number. -/
theorem normalize_candidate (h : Accepted a)
    (hn : normalizePhoneNumber a = .ok (morocco ++ lastNine (digitsOf (trimmed a))))
    (hx : x ∈ phoneLookupCandidates a) (hm : normalizePhoneNumber x = .ok m) :
    m = morocco ++ lastNine (digitsOf (trimmed a)) := by
  have hall := all_digitsOf (trimmed a)
  have hlast := all_lastNine hall
  have hnine := length_lastNine (accepted_iff.mp h).1
  have hnormal := (normal_morocco hnine hlast).normalize
  obtain rfl | ⟨-, rfl⟩ | ⟨n, hn', rfl | rfl⟩ | ⟨-, hv⟩ :=
    (mem_candidates (trimmed_ne_nil h)).mp hx
  · rw [normalize_trimmed, hn] at hm
    exact (Except.ok.inj hm).symm
  · obtain ⟨-, -, -, rfl⟩ := (normalize_digits hall).mp hm
    obtain ⟨-, hread⟩ | ⟨-, hread⟩ := reads_of_normalize hn
    · rw [← (List.cons.inj hread).2]
      exact nationalForm_twelve hnine
    · exact hread.symm
  · rw [hn] at hn'
    obtain rfl := Except.ok.inj hn'
    rw [show morocco ++ lastNine (digitsOf (trimmed a)) =
      '+' :: (['2', '1', '2'] ++ lastNine (digitsOf (trimmed a))) from rfl, hnormal] at hm
    exact (Except.ok.inj hm).symm
  · rw [hn] at hn'
    obtain rfl := Except.ok.inj hn'
    exact normalize_prefixed hnine hlast (Or.inr hm)
  · unfold nationalVariants at hv
    split_ifs at hv
    · simp only [List.mem_cons, List.not_mem_nil, or_false] at hv
      obtain rfl | rfl | rfl | rfl := hv
      · exact normalize_nine hnine hlast hm
      · exact normalize_prefixed hnine hlast (Or.inl hm)
      · exact normalize_prefixed hnine hlast (Or.inr hm)
      · rw [show morocco ++ lastNine (digitsOf (trimmed a)) =
          '+' :: (['2', '1', '2'] ++ lastNine (digitsOf (trimmed a))) from rfl, hnormal] at hm
        exact (Except.ok.inj hm).symm
    · simp at hv

theorem mem_of_findIdentity {n : ℕ} {s : Store} {identity : UnifiedIdentity}
    (h : findIdentityByPhone n s x = some identity) : ∃ normalized, ∃ row ∈ s.phones.rows,
      normalizePhoneNumber x = .ok normalized ∧ row.normalizedPhoneNumber.toList = normalized ∧
        s.identities.find? row.identityId = some identity := by
  simp only [findIdentityByPhone, Option.bind_eq_bind, Option.bind_eq_some_iff] at h
  obtain ⟨normalized, hnormalized, row, hrow, hfind⟩ := h
  have hmem := List.mem_filter.mp (Program.mem_of_pick hrow)
  exact ⟨normalized, row, hmem.1, tryNormalize_eq_some.mp hnormalized, by simpa using hmem.2, hfind⟩

/-- The lookups of a number that keeps its last nine digits do not leave it. -/
theorem apart_of_keeps (h : Accepted a)
    (hn : normalizePhoneNumber a = .ok (morocco ++ lastNine (digitsOf (trimmed a))))
    (hm : normalizePhoneNumber m = .ok m) (hne : normalizePhoneNumber a ≠ .ok m) : Apart a m := by
  have hout : m ∉ phoneLookupCandidates a := by
    intro hmem
    obtain ⟨rfl, -⟩ := eq_variant h hmem hm hne
    exact hne hn
  refine ⟨hout, fun s u _ hstored accountType hfound => ?_, fun s n identity hfound honly => ?_⟩
  · obtain ⟨u', hu', heq⟩ := List.mem_map.mp hfound
    obtain ⟨hrow, hcand⟩ := List.mem_filter.mp hu'
    have hsame : u' = u := s.users.eq_of_key_eq hrow ‹_› (Prod.mk.inj heq).1
    rw [hsame] at hcand
    obtain ⟨phone, hphone, rfl⟩ := Option.map_eq_some_iff.mp hstored
    simp only [hphone, Option.any_some, decide_eq_true_eq] at hcand
    exact hout hcand
  · obtain ⟨candidate, hcandidate, hor⟩ := List.exists_of_findSome?_eq_some hfound
    obtain hfind | ⟨-, hlegacy⟩ := Option.or_eq_some_iff.mp hor
    · obtain ⟨normalized, row, hrow, hnorm, rfl, hidentity⟩ := mem_of_findIdentity hfind
      have hnormal := normalize_candidate h hn hcandidate hnorm
      rw [honly.1 row hrow (Table.key_of_find? hidentity).symm] at hnormal
      rw [hnormal] at hne
      exact hne hn
    · have hmem := (List.mem_filter.mp (Program.mem_of_pick hlegacy)).2
      obtain ⟨phone, hphone, heq⟩ := (Option.any_eq_true _ _).mp hmem
      rw [decide_eq_true_eq] at heq
      rw [← heq, honly.2 phone hphone] at hcandidate
      exact hout hcandidate

/-- A national form without a country code has nine digits after `+212`. -/
theorem nationalForm_nine (hcountry : startsWith d ['2', '1', '2'] = false)
    (hall : d.all Char.isDigit = true) (hleast : 9 ≤ d.length) :
    ∃ x, nationalForm d = morocco ++ x ∧ x.length = 9 ∧ x.all Char.isDigit = true := by
  simp only [nationalForm, hcountry, Bool.false_eq_true, false_and, if_false]
  split_ifs with hzero hsix
  · refine ⟨_, rfl, by rw [List.length_take, List.length_drop]; omega, ?_⟩
    exact all_of_sublist hall ((List.take_sublist _ _).trans (List.drop_sublist _ _))
  · refine ⟨_, rfl, by rw [List.length_take]; omega, ?_⟩
    exact all_of_sublist hall (List.take_sublist _ _)
  · exact ⟨_, rfl, length_lastNine hleast, all_lastNine hall⟩

/-- The digits of a number with a foreign prefix are taken for a Moroccan number. -/
theorem foreign_digits (h : Accepted a) (hn : normalizePhoneNumber a = .ok n)
    (hlooks : looksLikeMorocco (trimmed a) (digitsOf (trimmed a))
      (tryNormalizePhoneNumber (trimmed a)) = false) :
    ∃ x, x.length = 9 ∧ x.all Char.isDigit = true ∧
      normalizePhoneNumber (digitsOf (trimmed a)) = .ok (morocco ++ x) ∧ n ≠ morocco ++ x := by
  have htry : tryNormalizePhoneNumber (trimmed a) = some n :=
    tryNormalize_eq_some.mpr (normalize_trimmed.mpr hn)
  have hall := all_digitsOf (trimmed a)
  have hleast := (accepted_iff.mp h).1
  rw [htry] at hlooks
  generalize digitsOf (trimmed a) = d at *
  have habroad : startsWith n morocco = false := by
    by_contra hyes
    simp [looksLikeMorocco, hyes] at hlooks
  have hcountry : startsWith d ['2', '1', '2'] = false := by
    by_contra hyes
    simp [looksLikeMorocco, hyes] at hlooks
  have hc : canonicalizeMoroccoTrunkZero d = d := by
    apply canonicalize_of_not
    rintro ⟨hstart, -⟩
    obtain ⟨t, rfl⟩ := startsWith_iff.mp hstart
    simp [startsWith] at hcountry
  obtain ⟨x, hform, hx, hd⟩ := nationalForm_nine hcountry hall hleast
  refine ⟨x, hx, hd, ?_, ?_⟩
  · rw [normalize_digits hall, hc, hform]
    exact ⟨hleast, isE164_of_leads (normal_morocco hx hd).leads, by simp [morocco, hx], rfl⟩
  · rintro rfl
    simp [startsWith, morocco] at habroad

/-- The phone of one identity. -/
def identityUnder (m : List Char) : Store :=
  publish .blank [.identity ⟨1, none⟩, .phone ⟨1, 1, String.ofList m⟩]

theorem not_apart_of_digits (hd : trimmed a ≠ []) (hne : digitsOf (trimmed a) ≠ [])
    (h : normalizePhoneNumber (digitsOf (trimmed a)) = .ok m) : ¬Apart a m := by
  intro hapart
  have hmem : digitsOf (trimmed a) ∈ phoneLookupCandidates a :=
    (mem_candidates hd).mpr (Or.inr (Or.inl ⟨hne, rfl⟩))
  have hfind : findIdentityByPhone 0 (identityUnder m) (digitsOf (trimmed a)) = some ⟨1, none⟩ := by
    have hrows : (identityUnder m).phones.rows = [⟨1, 1, String.ofList m⟩] := rfl
    have hrow : (identityUnder m).identities.find? 1 = some ⟨1, none⟩ := rfl
    simp [findIdentityByPhone, tryNormalize_eq_some.mpr h, hrows, Program.pick, hrow]
  have hsome : (findIdentityByPhoneOrLegacy 0 (identityUnder m) a).isSome = true := by
    rw [findIdentityByPhoneOrLegacy, List.findSome?_isSome_iff]
    exact ⟨_, hmem, by simp [hfind]⟩
  obtain ⟨identity, hidentity⟩ := Option.isSome_iff_exists.mp hsome
  have hrows : (identityUnder m).identities.rows = [⟨1, none⟩] := rfl
  refine hapart.identities _ 0 identity hidentity ⟨?_, ?_⟩
  · intro p hp _
    have hphones : (identityUnder m).phones.rows = [⟨1, 1, String.ofList m⟩] := rfl
    rw [hphones, List.mem_singleton] at hp
    simp [hp]
  · intro p hp
    obtain ⟨candidate, -, hor⟩ := List.exists_of_findSome?_eq_some hidentity
    have hin : identity ∈ (identityUnder m).identities.rows := by
      obtain hfind | ⟨-, hlegacy⟩ := Option.or_eq_some_iff.mp hor
      · obtain ⟨_, _, _, _, _, hid⟩ := mem_of_findIdentity hfind
        exact Table.mem_of_find? hid
      · exact (List.mem_filter.mp (Program.mem_of_pick hlegacy)).1
    rw [hrows, List.mem_singleton] at hin
    simp [hin] at hp

/-- The lookups with an accepted number leave every other accepted number alone exactly if
the nine digits that the normalizer keeps are the last nine. -/
theorem isolated_iff (a : List Char) (h : Accepted a) : Isolated a ↔ KeepsLastNine a := by
  rw [← normalize_iff h]
  obtain ⟨hleast, -, -, n, hn⟩ := accepted_iff.mp h
  constructor
  · intro hisolated
    by_contra hne
    have hlast := all_lastNine (all_digitsOf (trimmed a))
    have hnine := length_lastNine hleast
    cases hlooks : looksLikeMorocco (trimmed a) (digitsOf (trimmed a))
      (tryNormalizePhoneNumber (trimmed a)) with
    | true =>
      have hmem : morocco ++ lastNine (digitsOf (trimmed a)) ∈ phoneLookupCandidates a := by
        rw [mem_candidates (trimmed_ne_nil h)]
        simp [hlooks, nationalVariants, hleast]
      exact (hisolated _ _ (accepted_morocco hnine hlast) (normal_morocco hnine hlast).normalize
        hne).candidates hmem
    | false =>
      obtain ⟨x, hx, hd, hdigits, hother⟩ := foreign_digits h hn hlooks
      have hne' : normalizePhoneNumber a ≠ .ok (morocco ++ x) := by
        rw [hn]
        exact fun heq => hother (Except.ok.inj heq)
      have hnil : digitsOf (trimmed a) ≠ [] := by
        intro hnil
        simp [hnil] at hleast
      exact not_apart_of_digits (trimmed_ne_nil h) hnil hdigits
        (hisolated _ _ (accepted_morocco hx hd) (normal_morocco hx hd).normalize hne')
  · intro hkeeps b m _ hm hne
    exact apart_of_keeps h hkeeps (normalize_normalized hm) hne

/-- A local number, whose trunk zero is the prefix. -/
theorem isolated_local : Isolated "0612345678".toList :=
  (isolated_iff "0612345678".toList (by decide)).mpr ⟨1, by decide, by decide⟩

/-- With a digit too many, the last nine digits are those of somebody else. -/
theorem surplus_digit : Accepted "06123456789".toList ∧ Accepted "+212123456789".toList ∧
    normalizePhoneNumber "06123456789".toList = .ok "+212612345678".toList ∧
    normalizePhoneNumber "+212123456789".toList = .ok "+212123456789".toList ∧
    "+212123456789".toList ∈ phoneLookupCandidates "06123456789".toList := by
  decide

end Isolation

end NexaStays.PhoneNumbers
