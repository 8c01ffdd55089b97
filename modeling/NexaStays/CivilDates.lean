import NexaStays.CalendarSync
import NexaStays.IsoDates

/-!
# Days as dates

The fields of a `Date` in UTC and its text, for the days that are dates of these years.
-/
namespace NexaStays.CivilDates

open NexaStays.BookingDate NexaStays.CalendarSync NexaStays.IsoDates

/-- The year in its cycle of 400 years, from the day in the cycle. The cycle's years start in
March. -/
theorem year_of_cycle (y doy : ℤ) {doe : ℤ} (hlo : 0 ≤ y) (hhi : y < 400) (hdoy : 0 ≤ doy)
    (h : doy < 365 ∨ doy = 365 ∧ (y + 1) % 4 = 0 ∧ ((y + 1) % 100 ≠ 0 ∨ y = 399))
    (hdoe : doe = 365 * y + y / 4 - y / 100 + doy) :
    doe < 146097 ∧ (doe - doe / 1460 + doe / 36524 - doe / 146096) / 365 = y := by
  obtain ⟨c, q, k, hc, hc', hq, hq', hk, hk', rfl⟩ : ∃ c q k : ℤ, 0 ≤ c ∧ c ≤ 3 ∧ 0 ≤ q ∧ q ≤ 24 ∧
      0 ≤ k ∧ k ≤ 3 ∧ y = 100 * c + (4 * q + k) :=
    ⟨y / 100, y % 100 / 4, y % 4, by omega, by omega, by omega, by omega, by omega, by omega,
      by omega⟩
  have h100 : (100 * c + (4 * q + k)) / 100 = c := by omega
  have h4 : (100 * c + (4 * q + k)) / 4 = 25 * c + q := by omega
  rw [h100, h4] at hdoe
  have hleap : doy ≤ 365 ∧ (doy = 365 → k = 3 ∧ (q ≤ 23 ∨ c = 3)) := by omega
  clear h h100 h4
  -- each quotient is one of its number of whole years, but for the last days of a cycle
  have h1460 : doe / 1460 = 25 * c + q + (24 * c + q + 365 * k + doy) / 1460 := by omega
  have h36524 : doe / 36524 = c + (1461 * q + 365 * k + doy) / 36524 := by omega
  have h146096 : doe / 146096 = if doe = 146096 then 1 else 0 := by split_ifs <;> omega
  rw [h1460, h36524, h146096]
  constructor
  · interval_cases c <;> omega
  · interval_cases k <;> split_ifs <;> omega

/-- The cycle of 400 years, its year and the day of that year. -/
theorem cycle_of_day {y doy : ℕ} {z : ℤ}
    (h : doy < 365 ∨ doy = 365 ∧ (y + 1) % 4 = 0 ∧ ((y + 1) % 100 ≠ 0 ∨ (y + 1) % 400 = 0))
    (hz : z = 365 * y + (y / 4 : ℕ) - (y / 100 : ℕ) + (y / 400 : ℕ) + doy) :
    let doe := z % 146097
    let yoe := (doe - doe / 1460 + doe / 36524 - doe / 146096) / 365
    yoe + z / 146097 * 400 = y ∧ doe - (365 * yoe + yoe / 4 - yoe / 100) = doy := by
  obtain ⟨e, r, hr, rfl⟩ : ∃ e r : ℕ, r < 400 ∧ y = 400 * e + r :=
    ⟨y / 400, y % 400, by omega, by omega⟩
  have h4 : (400 * e + r) / 4 = 100 * e + r / 4 := by omega
  have h100 : (400 * e + r) / 100 = 4 * e + r / 100 := by omega
  have h400 : (400 * e + r) / 400 = e := by omega
  rw [h4, h100, h400] at hz
  obtain ⟨hlt, hyoe⟩ := year_of_cycle r doy (by omega) (by omega) (by omega) (by omega) rfl
  clear h h4 h100 h400
  generalize hdoe : (365 * (r : ℤ) + (r : ℤ) / 4 - (r : ℤ) / 100 + doy) = doe at hlt hyoe
  have hz' : z = 146097 * e + doe := by
    push_cast at hz
    omega
  have hdiv : z / 146097 = e := by omega
  have hmod : z % 146097 = doe := by omega
  simp only [hdiv, hmod, hyoe]
  constructor
  · push_cast
    ring
  · omega

/-- The day of a date of the years from 1 on, by the first day of its month. -/
theorem toDay_eq_monthStart {year month day : ℕ} (hyear : 1 ≤ year) (hmonth : 1 ≤ month)
    (hmonth' : month ≤ 12) (hday : 1 ≤ day) :
    (Ymd.mk year month day).toDay = monthStart (12 * year + (month - 1)) + day - 1 := by
  simp only [Ymd.toDay]
  rw [monthStart, yearStart]
  split_ifs with hearly
  · have hquotient : (12 * year + (month - 1) + 10) / 12 + 399 = year - 1 + 400 := by omega
    have hmod : (12 * year + (month - 1) + 10) % 12 = month + 9 := by omega
    rw [hquotient, hmod]
    push_cast
    omega
  · have hquotient : (12 * year + (month - 1) + 10) / 12 + 399 = year + 400 := by omega
    have hmod : (12 * year + (month - 1) + 10) % 12 = month - 3 := by omega
    rw [hquotient, hmod]
    push_cast
    omega

variable {d : IsoDate}

theorem toDay_date (h : 1 ≤ d.year) : (Ymd.mk d.year d.month d.day).toDay = d.dayNumber := by
  rw [toDay_eq_monthStart h d.month_pos d.month_le d.day_pos, IsoDate.dayNumber, IsoDate.index]

/-- The day of the year that starts in March, for the month `m` from March. -/
theorem month_of_year {year month day m : ℕ} (hm : month = m + 3 ∨ month + 9 = m ∧ month ≤ 2)
    (hpos : 1 ≤ month) (hle : month ≤ 12) (hday : 1 ≤ day) (hlength : day ≤ monthLength year month) :
    (5 * ((153 * m + 2) / 5 + (day - 1)) + 2) / 153 = m ∧
      ((153 * m + 2) / 5 + (day - 1) < 365 ∨
        (153 * m + 2) / 5 + (day - 1) = 365 ∧ month = 2 ∧ isLeap year = true) := by
  by_cases hfebruary : month = 2
  · obtain rfl : m = 11 := by omega
    rw [monthLength, if_pos hfebruary] at hlength
    split_ifs at hlength with hleap
    · exact ⟨by omega, by by_cases h : day = 29 <;> [exact Or.inr ⟨by omega, hfebruary, hleap⟩; omega]⟩
    · exact ⟨by omega, by omega⟩
  · rw [monthLength, if_neg hfebruary] at hlength
    interval_cases month <;> simp at hlength hm <;> subst hm <;> omega

/-- The fields of the day of a date are those of the date. -/
theorem ymdOfDay_dayNumber (h : 1 ≤ d.year) :
    ymdOfDay d.dayNumber = ⟨d.year, d.month, d.day⟩ := by
  obtain ⟨y, m, hfields, hnumber⟩ : ∃ y m : ℕ,
      (d.month = m + 3 ∧ d.year = y ∨ d.month + 9 = m ∧ d.month ≤ 2 ∧ d.year = y + 1) ∧
      d.dayNumber = 365 * y + (y / 4 : ℕ) - (y / 100 : ℕ) + (y / 400 : ℕ) +
        ((153 * m + 2) / 5 + (d.day - 1) : ℕ) - 719468 := by
    rw [← toDay_date h]
    simp only [Ymd.toDay]
    have hpos := d.month_pos
    by_cases hearly : d.month ≤ 2
    · refine ⟨d.year - 1, d.month + 9, Or.inr ⟨rfl, hearly, by omega⟩, ?_⟩
      rw [if_pos hearly, if_pos hearly]
      omega
    · refine ⟨d.year, d.month - 3, Or.inl ⟨by omega, rfl⟩, ?_⟩
      rw [if_neg hearly, if_neg hearly]
      omega
  obtain ⟨hmp, hdoy⟩ := month_of_year (m := m) (by omega) d.month_pos d.month_le d.day_pos d.day_le
  generalize hdoyeq : (153 * m + 2) / 5 + (d.day - 1) = doy at hmp hdoy hnumber
  have hleap : doy < 365 ∨
      doy = 365 ∧ (y + 1) % 4 = 0 ∧ ((y + 1) % 100 ≠ 0 ∨ (y + 1) % 400 = 0) := by
    obtain hlt | ⟨heq, htwo, hleap⟩ := hdoy
    · exact Or.inl hlt
    · have hyear : d.year = y + 1 := by omega
      simp only [isLeap, decide_eq_true_eq, hyear] at hleap
      exact Or.inr ⟨heq, hleap⟩
  have hmonth : (5 * (doy : ℤ) + 2) / 153 = m := by exact_mod_cast hmp
  have hmonthday : (doy : ℤ) - (153 * m + 2) / 5 + 1 = d.day := by
    have := d.day_pos
    clear hdoy hleap hnumber hmp hmonth
    omega
  obtain ⟨hyear, hday⟩ := cycle_of_day (z := d.dayNumber + 719468) hleap (by omega)
  simp only [ymdOfDay, hyear, hday, hmonth, hmonthday, Ymd.mk.injEq]
  have hpos := d.month_pos
  have hle := d.month_le
  clear hyear hday hleap hdoy hnumber hmp hdoyeq hmonth hmonthday
  split_ifs <;> omega

/-- `toISOString().slice(0, 10)`. -/
def dateText (day : ℤ) : String :=
  let date := ymdOfDay day
  String.ofList (four date.year ++ '-' :: (two date.month ++ '-' :: (two date.day ++ [])))

@[simp] theorem dateText_dayNumber (h : 1 ≤ d.year) : dateText d.dayNumber = d.text := by
  rw [dateText, ymdOfDay_dayNumber h, IsoDate.text]

/-- A number of months is at least as many days. -/
theorem le_monthStart_add (index n : ℕ) : monthStart index + n ≤ monthStart (index + n) := by
  induction n with
  | zero => simp
  | succ n ih =>
    have hstep : monthStart (index + n) < monthStart (index + n + 1) :=
      monthStart_strictMono (Nat.lt_succ_self (index + n))
    rw [← Nat.add_assoc]
    push_cast
    omega

theorem le_addMonths (h : 1 ≤ d.year) (n : ℕ) : d.dayNumber + n ≤ addMonths d.dayNumber n := by
  have hpos := d.month_pos
  have hindex : 12 * ((d.year * 12 + (d.month - 1) + n) / 12) +
      ((d.year * 12 + (d.month - 1) + n) % 12 + 1 - 1) = d.index + n := by
    rw [IsoDate.index]
    omega
  have hlater := le_monthStart_add d.index n
  simp only [addMonths, ymdOfDay_dayNumber h]
  rw [toDay_eq_monthStart (by omega) (by omega) (by omega) d.day_pos, hindex, IsoDate.dayNumber]
  omega

end NexaStays.CivilDates
