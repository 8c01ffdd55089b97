import Mathlib.Data.Int.ConditionallyCompleteOrder
import Mathlib.Data.String.Basic
import Mathlib.Order.Monotone.Basic
import Mathlib.Order.Lattice
import Mathlib.Tactic.IntervalCases
import Mathlib.Tactic.Ring

/-!
# Dates of the Gregorian calendar and their texts

The dates of the years 0 to 9999 with their number of days from 1970-01-01, the day after each
and its text `YYYY-MM-DD`. The order of the texts is the order of the days.
-/
namespace NexaStays.IsoDates

def isLeap (year : ℕ) : Bool := year % 4 = 0 ∧ (year % 100 ≠ 0 ∨ year % 400 = 0)

def monthLength (year month : ℕ) : ℕ :=
  if month = 2 then (if isLeap year then 29 else 28)
  else if month ∈ [4, 6, 9, 11] then 30
  else 31

/-- The days before a year that starts in March, so that a leap day is the last of its year. -/
def yearStart (year : ℕ) : ℤ := 365 * year + (year / 4 : ℕ) - (year / 100 : ℕ) + (year / 400 : ℕ)

/-- The first day of a month, which is counted from January of the year 0. Its year is counted
from 400 years earlier. -/
def monthStart (index : ℕ) : ℤ :=
  yearStart ((index + 10) / 12 + 399) + ((153 * ((index + 10) % 12) + 2) / 5 : ℕ) - 865565

theorem january_le_december : 1 ≤ 12 := by decide

theorem monthLength_pos (year month : ℕ) : 28 ≤ monthLength year month := by
  unfold monthLength
  split_ifs <;> decide

theorem monthLength_le (year month : ℕ) : monthLength year month ≤ 31 := by
  unfold monthLength
  split_ifs <;> decide

/-- The year that ends with a February has its length. -/
theorem yearStart_succ (year : ℕ) :
    yearStart (year + 1) = yearStart year + 337 + monthLength (year + 1) 2 := by
  have h4 : (year + 1) / 4 = year / 4 + if (year + 1) % 4 = 0 then 1 else 0 := by
    split_ifs <;> omega
  have h100 : (year + 1) / 100 = year / 100 + if (year + 1) % 100 = 0 then 1 else 0 := by
    split_ifs <;> omega
  have h400 : (year + 1) / 400 = year / 400 + if (year + 1) % 400 = 0 then 1 else 0 := by
    split_ifs <;> omega
  have hcentury : (year + 1) % 100 = 0 → (year + 1) % 4 = 0 := by omega
  have hcycle : (year + 1) % 400 = 0 → (year + 1) % 100 = 0 := by omega
  simp only [yearStart, monthLength, isLeap, h4, h100, h400, decide_eq_true_eq, if_true]
  by_cases hleap : (year + 1) % 4 = 0 <;> by_cases h : (year + 1) % 100 = 0 <;>
    by_cases h' : (year + 1) % 400 = 0 <;> simp [hleap, h, h'] <;> omega

theorem monthLength_cycle (year month : ℕ) :
    monthLength (year + 400) month = monthLength year month := by
  have h4 : (year + 400) % 4 = year % 4 := by omega
  have h100 : (year + 400) % 100 = year % 100 := by omega
  simp [monthLength, isLeap, h4, h100]

theorem monthStart_succ (year : ℕ) {month : ℕ} (hmonth : month < 12) :
    monthStart (12 * year + month + 1) =
      monthStart (12 * year + month) + monthLength year (month + 1) := by
  have hbefore : ∀ m < 2, monthStart (12 * year + m) =
      yearStart (year + 399) + ((153 * (m + 10) + 2) / 5 : ℕ) - 865565 := by
    intro m hm
    have hyear : (12 * year + m + 10) / 12 + 399 = year + 399 := by omega
    have hmod : (12 * year + m + 10) % 12 = m + 10 := by omega
    rw [monthStart, hyear, hmod]
  have hafter : ∀ m, 2 ≤ m → m < 14 → monthStart (12 * year + m) =
      yearStart (year + 400) + ((153 * (m - 2) + 2) / 5 : ℕ) - 865565 := by
    intro m hlo hhi
    have hyear : (12 * year + m + 10) / 12 + 399 = year + 400 := by omega
    have hmod : (12 * year + m + 10) % 12 = m - 2 := by omega
    rw [monthStart, hyear, hmod]
  rw [add_assoc]
  obtain hjanuary | hfebruary | hlater : month = 0 ∨ month = 1 ∨ 2 ≤ month := by omega
  · subst hjanuary
    rw [hbefore 0 (by omega), hbefore (0 + 1) (by omega)]
    simp [monthLength]
    ring
  · subst hfebruary
    rw [hbefore 1 (by omega), hafter (1 + 1) (by omega) (by omega), yearStart_succ,
      monthLength_cycle]
    norm_num
    ring
  · rw [hafter month hlater (by omega), hafter (month + 1) (by omega) (by omega)]
    interval_cases month <;> simp [monthLength] <;> ring

theorem monthStart_strictMono : StrictMono monthStart := by
  refine strictMono_nat_of_lt_succ fun index => ?_
  have hpos := monthLength_pos (index / 12) (index % 12 + 1)
  have hstep := monthStart_succ (index / 12) (Nat.mod_lt index (by decide : 0 < 12))
  rw [Nat.div_add_mod] at hstep
  omega

@[ext]
structure IsoDate where
  year : ℕ
  month : ℕ
  day : ℕ
  year_lt : year < 10000
  month_pos : 1 ≤ month
  month_le : month ≤ 12
  day_pos : 1 ≤ day
  day_le : day ≤ monthLength year month
  deriving DecidableEq, Repr

namespace IsoDate

variable {a b d : IsoDate}

/-- The number of the month, from January of the year 0. -/
def index (d : IsoDate) : ℕ := 12 * d.year + (d.month - 1)

/-- Days from 1970-01-01. -/
def dayNumber (d : IsoDate) : ℤ := monthStart d.index + d.day - 1

theorem monthStart_index_succ (d : IsoDate) :
    monthStart (d.index + 1) = monthStart d.index + monthLength d.year d.month := by
  have hmonth : d.month - 1 + 1 = d.month := Nat.sub_add_cancel d.month_pos
  have hlt : d.month - 1 < 12 := by
    have := d.month_le
    omega
  rw [index, monthStart_succ d.year hlt, hmonth]

theorem dayNumber_lt_of_index (h : a.index < b.index) : a.dayNumber < b.dayNumber := by
  have hnext := monthStart_strictMono.monotone (Nat.succ_le_of_lt h)
  have hday := a.day_le
  have hday' := b.day_pos
  rw [Nat.succ_eq_add_one, monthStart_index_succ] at hnext
  rw [dayNumber, dayNumber]
  omega

/-- The order of the days: first the month, then the day of the month. -/
theorem dayNumber_lt_iff :
    a.dayNumber < b.dayNumber ↔ a.index < b.index ∨ a.index = b.index ∧ a.day < b.day := by
  constructor
  · intro h
    obtain hlt | heq | hgt := lt_trichotomy a.index b.index
    · exact Or.inl hlt
    · rw [dayNumber, dayNumber, heq] at h
      exact Or.inr ⟨heq, by omega⟩
    · exact absurd (dayNumber_lt_of_index hgt) h.not_gt
  · rintro (h | ⟨heq, hday⟩)
    · exact dayNumber_lt_of_index h
    · rw [dayNumber, dayNumber, heq]
      omega

theorem dayNumber_inj : a.dayNumber = b.dayNumber ↔ a = b := by
  refine ⟨fun h => ?_, fun h => h ▸ rfl⟩
  have hab := dayNumber_lt_iff.not.mp h.not_lt
  have hba := dayNumber_lt_iff.not.mp h.symm.not_lt
  have hindex : a.index = b.index := by omega
  have ha := a.month_pos
  have ha' := a.month_le
  have hb := b.month_pos
  have hb' := b.month_le
  rw [index, index] at hindex
  ext
  · omega
  · omega
  · rw [index, index] at hab hba
    omega

/-- The day after; there is none in these years after 9999-12-31. -/
def next? (d : IsoDate) : Option IsoDate :=
  if h : d.day < monthLength d.year d.month then
    some { d with day := d.day + 1, day_pos := by omega, day_le := h }
  else if h' : d.month < 12 then
    some { d with
      month := d.month + 1, day := 1
      month_pos := by omega
      month_le := by omega
      day_pos := le_rfl
      day_le := le_trans (by decide) (monthLength_pos _ _) }
  else if h'' : d.year + 1 < 10000 then
    some { year := d.year + 1, month := 1, day := 1, year_lt := h''
           month_pos := le_rfl
           month_le := by decide
           day_pos := le_rfl
           day_le := le_trans (by decide) (monthLength_pos _ _) }
  else none

theorem dayNumber_next (h : d.next? = some a) : a.dayNumber = d.dayNumber + 1 := by
  have hnext := d.monthStart_index_succ
  have hday := d.day_le
  have hpos := d.month_pos
  have hle := d.month_le
  unfold next? at h
  split_ifs at h with hmonth hyear hlast
  · obtain rfl := Option.some.inj h
    simp only [dayNumber, index]
    omega
  · obtain rfl := Option.some.inj h
    have hindex : 12 * d.year + (d.month + 1 - 1) = d.index + 1 := by
      rw [index]
      omega
    simp only [dayNumber]
    rw [index]
    simp only [hindex]
    omega
  · obtain rfl := Option.some.inj h
    have hindex : 12 * (d.year + 1) + (1 - 1) = d.index + 1 := by
      rw [index]
      omega
    simp only [dayNumber]
    rw [index]
    simp only [hindex]
    omega

/-- Only the last date has no day after it. -/
theorem next?_eq_none (h : d.next? = none) (b : IsoDate) : b.dayNumber ≤ d.dayNumber := by
  unfold next? at h
  split_ifs at h with hday hmonth hyear
  have hd := d.day_le
  have hy := d.year_lt
  have hb := b.year_lt
  have hb' := b.month_le
  by_contra hlt
  obtain hindex | ⟨hindex, hb''⟩ := dayNumber_lt_iff.mp (not_le.mp hlt)
  · rw [index, index] at hindex
    omega
  · have hpos := b.month_pos
    have hdpos := d.month_pos
    have hdle := d.month_le
    rw [index, index] at hindex
    have hbyear : b.year = d.year := by omega
    have hbmonth : b.month = d.month := by omega
    have hble := b.day_le
    rw [hbyear, hbmonth] at hble
    omega

/-- Before a date there is a day after. -/
theorem exists_next (h : a.dayNumber < b.dayNumber) : ∃ c, a.next? = some c := by
  cases hnext : a.next? with
  | none => exact absurd (next?_eq_none hnext b) h.not_ge
  | some c => exact ⟨c, rfl⟩

/-- Every day between two dates is a date. -/
theorem exists_dayNumber {n : ℤ} (hlo : a.dayNumber ≤ n) (hhi : n ≤ b.dayNumber) :
    ∃ d : IsoDate, d.dayNumber = n := by
  obtain ⟨k, rfl⟩ := Int.le.dest hlo
  induction k with
  | zero => exact ⟨a, by simp⟩
  | succ k ih =>
    obtain ⟨d, hd⟩ := ih (by omega) (by omega)
    obtain ⟨c, hc⟩ := exists_next (a := d) (b := b) (by omega)
    exact ⟨c, by rw [dayNumber_next hc, hd]; push_cast; ring⟩

end IsoDate

def digit (n : ℕ) : Char := Char.ofNat (48 + n)

def digitValue (c : Char) : Option ℕ := if c.isDigit then some (c.toNat - 48) else none

theorem digitValue_digit {n : ℕ} (h : n < 10) : digitValue (digit n) = some n := by
  interval_cases n <;> rfl

theorem digit_lt_digit {m n : ℕ} (hm : m < 10) (hn : n < 10) : digit m < digit n ↔ m < n := by
  interval_cases m <;> interval_cases n <;> decide

theorem digit_inj {m n : ℕ} (hm : m < 10) (hn : n < 10) : digit m = digit n ↔ m = n := by
  interval_cases m <;> interval_cases n <;> decide

def two (n : ℕ) : List Char := [digit (n / 10 % 10), digit (n % 10)]

def four (n : ℕ) : List Char := two (n / 100) ++ two n

/-- Texts that start with two digits are ordered by the number first. -/
theorem two_append_lt {m n : ℕ} (hm : m < 100) (hn : n < 100) (s t : List Char) :
    two m ++ s < two n ++ t ↔ m < n ∨ m = n ∧ s < t := by
  have hm₁ : m / 10 % 10 < 10 := Nat.mod_lt _ (by decide)
  have hn₁ : n / 10 % 10 < 10 := Nat.mod_lt _ (by decide)
  have hm₀ : m % 10 < 10 := Nat.mod_lt _ (by decide)
  have hn₀ : n % 10 < 10 := Nat.mod_lt _ (by decide)
  simp only [two, List.cons_append, List.nil_append, List.cons_lt_cons_iff,
    digit_lt_digit hm₁ hn₁, digit_inj hm₁ hn₁, digit_lt_digit hm₀ hn₀, digit_inj hm₀ hn₀]
  by_cases hst : s < t <;> simp only [hst, and_true, and_false, or_false] <;> omega

theorem four_append_lt {m n : ℕ} (hm : m < 10000) (hn : n < 10000) (s t : List Char) :
    four m ++ s < four n ++ t ↔ m < n ∨ m = n ∧ s < t := by
  have hlow : ∀ k, two k = two (k % 100) := by
    intro k
    have h10 : k % 100 / 10 % 10 = k / 10 % 10 := by omega
    have h1 : k % 100 % 10 = k % 10 := by omega
    rw [two, two, h10, h1]
  have hm₀ : m % 100 < 100 := Nat.mod_lt _ (by decide)
  have hn₀ : n % 100 < 100 := Nat.mod_lt _ (by decide)
  rw [four, four, hlow m, hlow n, List.append_assoc, List.append_assoc,
    two_append_lt (by omega) (by omega), two_append_lt hm₀ hn₀]
  by_cases hst : s < t <;> simp only [hst, and_true, and_false, or_false] <;> omega

namespace IsoDate

variable {a b d : IsoDate}

theorem month_lt (d : IsoDate) : d.month < 100 := d.month_le.trans_lt (by decide)

theorem day_lt (d : IsoDate) : d.day < 100 :=
  d.day_le.trans_lt ((monthLength_le _ _).trans_lt (by decide))

/-- `YYYY-MM-DD`. -/
def text (d : IsoDate) : String :=
  String.ofList (four d.year ++ '-' :: (two d.month ++ '-' :: (two d.day ++ [])))

/-- Dates are compared as texts. -/
theorem text_lt_iff : a.text < b.text ↔ a.dayNumber < b.dayNumber := by
  have ha := a.month_pos
  have hb := b.month_pos
  have ha' := a.month_le
  have hb' := b.month_le
  rw [String.lt_iff_toList_lt, text, text, String.toList_ofList, String.toList_ofList,
    four_append_lt a.year_lt b.year_lt, List.cons_lt_cons_iff, two_append_lt a.month_lt b.month_lt,
    List.cons_lt_cons_iff, two_append_lt a.day_lt b.day_lt, dayNumber_lt_iff, index, index]
  simp only [lt_irrefl, false_or, true_and, and_false, or_false]
  omega

theorem text_le_iff : a.text ≤ b.text ↔ a.dayNumber ≤ b.dayNumber := by
  rw [← not_lt, text_lt_iff, not_lt]

theorem text_inj : a.text = b.text ↔ a = b := by
  rw [← dayNumber_inj, le_antisymm_iff, le_antisymm_iff, text_le_iff, text_le_iff]

/-- The numbers of a text `YYYY-MM-DD`. -/
def digits (text : String) : Option (ℕ × ℕ × ℕ) :=
  match text.toList with
  | [y₃, y₂, y₁, y₀, d₁, m₁, m₀, d₂, t₁, t₀] => do
    let y₃ ← digitValue y₃
    let y₂ ← digitValue y₂
    let y₁ ← digitValue y₁
    let y₀ ← digitValue y₀
    let m₁ ← digitValue m₁
    let m₀ ← digitValue m₀
    let t₁ ← digitValue t₁
    let t₀ ← digitValue t₀
    if d₁ = '-' ∧ d₂ = '-' then
      some (1000 * y₃ + 100 * y₂ + 10 * y₁ + y₀, 10 * m₁ + m₀, 10 * t₁ + t₀)
    else none
  | _ => none

/-- The date of three numbers. -/
def ofNumbers? (year month day : ℕ) : Option IsoDate :=
  if h : year < 10000 ∧ 1 ≤ month ∧ month ≤ 12 ∧ 1 ≤ day ∧ day ≤ monthLength year month then
    some ⟨year, month, day, h.1, h.2.1, h.2.2.1, h.2.2.2.1, h.2.2.2.2⟩
  else none

/-- The date of a text `YYYY-MM-DD`. -/
def parse (text : String) : Option IsoDate :=
  (digits text).bind fun n => ofNumbers? n.1 n.2.1 n.2.2

theorem digits_text (d : IsoDate) : digits d.text = some (d.year, d.month, d.day) := by
  have hdigit : ∀ n : ℕ, digitValue (digit (n % 10)) = some (n % 10) := fun n =>
    digitValue_digit (Nat.mod_lt _ (by decide))
  have hy := d.year_lt
  have hm := d.month_lt
  have hd := d.day_lt
  simp only [digits, text, String.toList_ofList, four, two, List.cons_append, List.nil_append,
    hdigit, Option.bind_eq_bind, Option.bind_some, and_self, if_true, Option.some.injEq,
    Prod.mk.injEq]
  omega

@[simp] theorem parse_text (d : IsoDate) : parse d.text = some d := by
  rw [parse, digits_text, Option.bind_some, ofNumbers?,
    dif_pos ⟨d.year_lt, d.month_pos, d.month_le, d.day_pos, d.day_le⟩]

end IsoDate

end NexaStays.IsoDates
