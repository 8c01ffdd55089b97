import NexaStays.PhoneNumbers

/-!
# International numbers

The normal form of a phone number is a valid number and its own normal form. A number in
international form, after `+` or `00`, is not always passed through: the normalizer may take
nine of its digits for a Moroccan number, and all that have these nine are one number then.
-/
namespace NexaStays.PhoneNumbers

/-- The number is written in international form. -/
def International (a : List Char) : Prop :=
  startsWith (trimmed a) ['+'] = true ∨ startsWith (trimmed a) ['0', '0'] = true

instance (a : List Char) : Decidable (International a) := inferInstanceAs (Decidable (_ ∨ _))

/-- The digits after the international prefix. -/
def internationalDigits (a : List Char) : List Char :=
  if startsWith (trimmed a) ['+'] then digitsOf (trimmed a) else (digitsOf (trimmed a)).drop 2

/-- The number that was typed, without a national trunk zero after `212`. -/
def typedNumber (a : List Char) : List Char :=
  let digits := internationalDigits a
  if startsWith digits ['2', '1', '2', '0'] then ['2', '1', '2'] ++ digits.drop 4 else digits

/-- Where the nine digits begin that are taken for a Moroccan number. -/
def windowStart (s digits : List Char) : Option ℕ :=
  if startsWith digits ['2', '1', '2', '0'] ∧ 13 ≤ digits.length then some 4
  else if startsWith s ['+'] ∧ leadsDigits 9 14 digits then
    if startsWith digits ['2', '1', '2'] ∧ digits.length = 12 then some 3 else none
  else if startsWith digits ['2', '1', '2'] ∧ 12 ≤ digits.length then some 3
  else if startsWith digits ['0'] ∧ 10 ≤ digits.length then some 1
  else if startsWith digits ['6'] then some 0
  else some (digits.length - 9)

/-- The nine digits that are taken for a Moroccan number. -/
def readAsMoroccan (a : List Char) : Option (List Char) :=
  (windowStart (trimmed a) (digitsOf (trimmed a))).map fun k =>
    ((digitsOf (trimmed a)).drop k).take 9

section Projection

variable {raw n e : List Char}

/-- A normal form is a valid number and its own normal form. -/
theorem normalize_projection (h : normalizePhoneNumber raw = .ok n) :
    ∃ e, n = '+' :: e ∧ e.all Char.isDigit = true ∧ 8 ≤ e.length ∧ e.length ≤ 15 ∧
      e.head? ≠ some '0' ∧ validatePhoneNumber n = ⟨true, none, some n⟩ ∧
      normalizePhoneNumber n = .ok n := by
  obtain ⟨e, rfl, he⟩ := normal_of_normalize h
  obtain ⟨hall, hleast, hmost, hhead⟩ := leadsDigits_iff.mp he.leads
  have hzero : e.all (· = '0') = false := by
    cases e with
    | nil => simp at hleast
    | cons c e =>
      have hc : c ≠ '0' := by simpa using hhead
      simp [hc]
  have hstart : ¬(startsWith e ['0'] = true ∧ e.length ≤ 6) := by omega
  refine ⟨e, rfl, hall, by omega, hmost, hhead, ?_, he.normalize⟩
  simp only [validatePhoneNumber, trimmed_plus hall, digitsOf_plus hall, he.normalize]
  rw [if_neg (by simp), if_neg (by omega), if_neg (by omega), if_neg]
  rw [hzero, not_or]
  exact ⟨by simp, hstart⟩

theorem normalize_projection_foreign :
    ∃ e, "+12025551234".toList = '+' :: e ∧ e.all Char.isDigit = true ∧ 8 ≤ e.length ∧
      e.length ≤ 15 ∧ e.head? ≠ some '0' ∧
      validatePhoneNumber "+12025551234".toList = ⟨true, none, some "+12025551234".toList⟩ ∧
      normalizePhoneNumber "+12025551234".toList = .ok "+12025551234".toList :=
  normalize_projection (show normalizePhoneNumber " +1 (202) 555-1234 ".toList = _ by decide)

end Projection

section Windows

variable {a b s d n m x : List Char}

theorem length_of_normalize (h : normalizePhoneNumber a = .ok n) :
    9 ≤ (digitsOf (trimmed a)).length := by
  have hnine : 9 ≤ (canonicalizeMoroccoTrunkZero (digitsOf (trimmed a))).length := by
    simp only [normalizePhoneNumber] at h
    split_ifs at h with hpass hfew hbad
    · have hleads := (leadsDigits_iff.mp hpass.2.1).2.1
      omega
    · omega
  obtain hsame | ⟨-, hlen, -⟩ := canonicalize_cases (digitsOf (trimmed a))
  · rwa [hsame] at hnine
  · omega

theorem windowStart_le {k : ℕ} (hnine : 9 ≤ d.length) (hk : windowStart s d = some k) :
    k + 9 ≤ d.length := by
  unfold windowStart at hk
  split_ifs at hk with htrunk hpass htwelve hcountry hzero hsix
  all_goals
    obtain rfl := Option.some.inj hk
    omega

/-- The nine digits of the window are kept; the digits before and after them are not. -/
theorem Reads.windowed (h : Reads s d n) (hall : d.all Char.isDigit = true) (hnine : 9 ≤ d.length)
    (hlong : 11 ≤ n.length) (hs : startsWith s ['+'] = true ∨ startsWith d ['0'] = true) {k : ℕ}
    (hk : windowStart s d = some k) : n = morocco ++ (d.drop k).take 9 := by
  unfold windowStart at hk
  split_ifs at hk with htrunk hpass htwelve hcountry hzero hsix
  · obtain rfl := Option.some.inj hk
    exact h.twelve (canonicalize_of_trunk htrunk.1 htrunk.2) (length_window htrunk.2)
  · obtain rfl := Option.some.inj hk
    obtain ⟨t, rfl⟩ := startsWith_iff.mp htwelve.1
    have ht : t.length = 9 := by simpa using htwelve.2
    rw [h.twelve (canonicalize_of_not htrunk) ht]
    simp [List.take_of_length_le (Nat.le_of_eq ht)]
  · obtain rfl := Option.some.inj hk
    obtain ⟨t, rfl⟩ := startsWith_iff.mp hcountry.1
    rw [h.national (canonicalize_of_not htrunk) hpass, nationalForm, if_pos hcountry]
    simp [morocco]
  · obtain rfl := Option.some.inj hk
    rw [h.national (canonicalize_of_not htrunk) hpass, nationalForm, if_neg hcountry, if_pos hzero]
  · obtain rfl := Option.some.inj hk
    have hthree : ¬(startsWith d ['2', '1', '2'] ∧ 9 ≤ d.length) := by
      obtain ⟨t, rfl⟩ := startsWith_iff.mp hsix
      simp [startsWith]
    rw [h.national (canonicalize_of_not htrunk) hpass, nationalForm, if_neg hcountry, if_neg hzero,
      if_neg hthree, if_pos ⟨hnine, hsix⟩, List.drop_zero]
  · obtain rfl := Option.some.inj hk
    have hnational := h.national (canonicalize_of_not htrunk) hpass
    rw [nationalForm, if_neg hcountry, if_neg hzero] at hnational
    have hthree : ¬(startsWith d ['2', '1', '2'] ∧ 9 ≤ d.length) := by
      -- nine digits with the country code keep six, and are refused
      intro hshort
      rw [if_pos hshort] at hnational
      obtain ⟨t, rfl⟩ := startsWith_iff.mp hshort.1
      have hplus : startsWith s ['+'] = true := hs.resolve_right (by simp [startsWith])
      have hleads : ¬leadsDigits 9 14 (['2', '1', '2'] ++ t) = true := fun hl => hpass ⟨hplus, hl⟩
      have htwelve : ¬12 ≤ (['2', '1', '2'] ++ t).length := fun hl => hcountry ⟨hshort.1, hl⟩
      rw [leadsDigits_iff] at hleads
      have hten : ¬9 < (['2', '1', '2'] ++ t).length := by
        intro hl
        exact hleads ⟨hall, hl, by omega, by simp⟩
      have hsix := congrArg List.length hnational
      simp only [morocco, List.length_append, List.length_take, List.length_drop, List.length_cons,
        List.length_nil] at hsix hten
      omega
    rw [if_neg hthree, if_neg fun hyes => hsix hyes.2] at hnational
    rw [hnational, lastNine, List.take_of_length_le (by rw [List.length_drop]; omega)]

/-- Without a window the digits are passed through, and are not a number of Morocco. -/
theorem Reads.unwindowed (h : Reads s d n) (hk : windowStart s d = none) :
    n = '+' :: d ∧ ¬(startsWith d ['2', '1', '2'] = true ∧ d.length = 12) := by
  unfold windowStart at hk
  split_ifs at hk with htrunk hpass htwelve
  exact ⟨h.passed (canonicalize_of_not htrunk) hpass, htwelve⟩

theorem startsWith_digitsOf (h : startsWith s ['0', '0'] = true) :
    startsWith (digitsOf s) ['0'] = true := by
  obtain ⟨t, rfl⟩ := startsWith_iff.mp h
  exact startsWith_iff.mpr ⟨'0' :: digitsOf t, by simp [digitsOf, Char.isDigit]⟩

/-- What the normalizer makes of an international number. -/
theorem International.normalize (ha : International a) (hn : normalizePhoneNumber a = .ok n) :
    (∃ x, readAsMoroccan a = some x ∧ x.length = 9 ∧ x.all Char.isDigit = true ∧
      n = morocco ++ x) ∨
    (readAsMoroccan a = none ∧ startsWith (trimmed a) ['+'] = true ∧
      n = '+' :: digitsOf (trimmed a) ∧
      ¬(startsWith (digitsOf (trimmed a)) ['2', '1', '2'] = true ∧
        (digitsOf (trimmed a)).length = 12)) := by
  have hreads := reads_of_normalize hn
  have hnine := length_of_normalize hn
  have hall := all_digitsOf (trimmed a)
  have hlong : 11 ≤ n.length := by
    obtain ⟨e, rfl, he⟩ := normal_of_normalize hn
    have hten := (leadsDigits_iff.mp he.leads).2.1
    rw [List.length_cons]
    omega
  cases hk : windowStart (trimmed a) (digitsOf (trimmed a)) with
  | some k =>
    left
    have hle := windowStart_le hnine hk
    refine ⟨_, by simp [readAsMoroccan, hk], ?_, ?_,
      hreads.windowed hall hnine hlong (ha.imp_right startsWith_digitsOf) hk⟩
    · rw [List.length_take, List.length_drop]
      omega
    · exact all_of_sublist hall ((List.take_sublist _ _).trans (List.drop_sublist _ _))
  | none =>
    right
    obtain ⟨hpassed, htwelve⟩ := hreads.unwindowed hk
    refine ⟨by simp [readAsMoroccan, hk], ?_, hpassed, htwelve⟩
    unfold windowStart at hk
    split_ifs at hk with _ hplus
    exact hplus.1

/-- The number with a trunk zero and more digits after its nine. -/
def surplus (x t : List Char) : List Char := '+' :: (['2', '1', '2', '0'] ++ (x ++ t))

theorem international_surplus {t : List Char} (hx : x.length = 9)
    (hd : x.all Char.isDigit = true) (ht : t.all Char.isDigit = true) :
    International (surplus x t) ∧ normalizePhoneNumber (surplus x t) = .ok (morocco ++ x) ∧
      typedNumber (surplus x t) = ['2', '1', '2'] ++ (x ++ t) := by
  have hall : (['2', '1', '2', '0'] ++ (x ++ t)).all Char.isDigit = true := by
    rw [List.all_append, List.all_append, hd, ht]
    decide
  have htrim : trimmed (surplus x t) = surplus x t := trimmed_plus hall
  have hdigits : digitsOf (surplus x t) = ['2', '1', '2', '0'] ++ (x ++ t) := digitsOf_plus hall
  have hplus : startsWith (surplus x t) ['+'] = true := by simp [surplus, startsWith]
  have htrunk : startsWith (['2', '1', '2', '0'] ++ (x ++ t)) ['2', '1', '2', '0'] = true :=
    startsWith_iff.mpr ⟨x ++ t, rfl⟩
  have hdrop : (['2', '1', '2', '0'] ++ (x ++ t)).drop 4 = x ++ t := by simp
  have hcanonical : canonicalizeMoroccoTrunkZero (['2', '1', '2', '0'] ++ (x ++ t)) =
      ['2', '1', '2'] ++ x := by
    have hlen : 13 ≤ (['2', '1', '2', '0'] ++ (x ++ t)).length := by
      simp only [List.length_append, List.length_cons, List.length_nil]
      omega
    rw [canonicalize_of_trunk htrunk hlen, hdrop, List.take_left' hx]
  have hleads := (normal_morocco hx hd).leads
  refine ⟨Or.inl (by rwa [htrim]), ?_, ?_⟩
  · simp only [normalizePhoneNumber, htrim, hdigits, hcanonical]
    rw [if_pos ⟨hplus, hleads, isE164_of_leads hleads⟩]
    rfl
  · simp only [typedNumber, internationalDigits, htrim, hplus, if_true, hdigits]
    rw [if_pos htrunk, hdrop]

/-- Two international numbers become one when both are taken for the same Moroccan number, or
are passed through and are the same digits. -/
theorem international_eq_iff (ha : International a) (hn : normalizePhoneNumber a = .ok n)
    (hb : International b) (hm : normalizePhoneNumber b = .ok m) :
    n = m ↔ (∃ x, readAsMoroccan a = some x ∧ readAsMoroccan b = some x) ∨
      (readAsMoroccan a = none ∧ readAsMoroccan b = none ∧
        internationalDigits a = internationalDigits b) := by
  obtain ⟨x, hreada, hlena, -, rfl⟩ | ⟨hreada, hplusa, rfl, htwelvea⟩ := ha.normalize hn
  · obtain ⟨y, hreadb, -, -, rfl⟩ | ⟨hreadb, -, rfl, htwelveb⟩ := hb.normalize hm
    · simp [hreada, hreadb, morocco, eq_comm]
    · have hne : morocco ++ x ≠ '+' :: digitsOf (trimmed b) := by
        intro heq
        have hdigits : ['2', '1', '2'] ++ x = digitsOf (trimmed b) := (List.cons.inj heq).2
        apply htwelveb
        rw [← hdigits]
        exact ⟨startsWith_iff.mpr ⟨x, rfl⟩, by simp [hlena]⟩
      simp [hreada, hreadb, hne]
  · obtain ⟨y, hreadb, hlenb, -, rfl⟩ | ⟨hreadb, hplusb, rfl, -⟩ := hb.normalize hm
    · have hne : '+' :: digitsOf (trimmed a) ≠ morocco ++ y := by
        intro heq
        have hdigits : digitsOf (trimmed a) = ['2', '1', '2'] ++ y := (List.cons.inj heq).2
        apply htwelvea
        rw [hdigits]
        exact ⟨startsWith_iff.mpr ⟨y, rfl⟩, by simp [hlenb]⟩
      simp [hreada, hreadb, hne]
    · simp [hreada, hreadb, internationalDigits, hplusa, hplusb]

/-- Two international numbers become one only if they are one, unless both are taken for the
same Moroccan number. A number that is taken for a Moroccan one is merged with others. -/
theorem international_merges (ha : International a) (hn : normalizePhoneNumber a = .ok n) :
    (∀ b m, International b → normalizePhoneNumber b = .ok m →
      ((n = m → typedNumber a = typedNumber b) ↔
        ∀ x, readAsMoroccan a = some x → readAsMoroccan b = some x →
          typedNumber a = typedNumber b)) ∧
    ((∀ b, International b → normalizePhoneNumber b = .ok n → typedNumber a = typedNumber b) ↔
      readAsMoroccan a = none) := by
  refine ⟨fun b m hb hm => ?_, ?_⟩
  · rw [international_eq_iff ha hn hb hm]
    constructor
    · intro h x hreada hreadb
      exact h (Or.inl ⟨x, hreada, hreadb⟩)
    · rintro h (⟨x, hreada, hreadb⟩ | ⟨-, -, hsame⟩)
      · exact h x hreada hreadb
      · rw [typedNumber, typedNumber, hsame]
  · constructor
    · intro h
      obtain ⟨x, -, hx, hd, rfl⟩ | ⟨hread, -⟩ := ha.normalize hn
      · -- the number with a trunk zero, and the same with one digit more
        obtain ⟨hb, hok, htyped⟩ := international_surplus (t := []) hx hd rfl
        obtain ⟨hb', hok', htyped'⟩ := international_surplus (t := ['1']) hx hd rfl
        have hmerged := (h _ hb hok).symm.trans (h _ hb' hok')
        rw [htyped, htyped'] at hmerged
        simp at hmerged
      · exact hread
    · intro hread b hb hm
      obtain ⟨x, hreada, -⟩ | ⟨-, -, hsame⟩ := (international_eq_iff ha hn hb hm).mp rfl
      · rw [hread] at hreada
        cases hreada
      · rw [typedNumber, typedNumber, hsame]

theorem international_merges_foreign :
    typedNumber "+33612345678".toList = typedNumber "+33 6-12-34-56-78".toList :=
  (international_merges (a := "+33612345678".toList) (n := "+33612345678".toList)
    (by decide) (by decide)).2.mpr (by decide) _ (by decide) (by decide)

/-- Two numbers of France become one number of Morocco, and so do a number of Andorra and
the Moroccan number with the same digits; a digit too many is cut. -/
theorem foreign_numbers_merged :
    (¬∀ a b n : List Char, International a → International b → normalizePhoneNumber a = .ok n →
      normalizePhoneNumber b = .ok n → typedNumber a = typedNumber b) ∧
    normalizePhoneNumber "+376312345".toList = .ok "+212376312345".toList ∧
    normalizePhoneNumber "+21206123456789".toList = .ok "+212612345678".toList := by
  refine ⟨?_, by decide, by decide⟩
  intro h
  have hmerged := h "0033612345678".toList "0033612345699".toList "+212033612345".toList
    (by decide) (by decide) (by decide) (by decide)
  revert hmerged
  decide

end Windows

end NexaStays.PhoneNumbers
