import NexaStays.CivilDates
import NexaStays.SqlText

/-!
# The length of a stay

`bookingNightsBetween` subtracts midnights in UTC; `setHostAvailabilityBlock` compares texts and
steps a local `Date` from night to night. On the dates from the year 100 on they count the same
nights, where the clock of the server shows every date.
-/
namespace NexaStays.StayLength

open NexaStays.Transactions NexaStays.Database NexaStays.BookingDate NexaStays.CalendarSync
  NexaStays.CivilDates NexaStays.IsoDates

open NexaStays.SqlText (isSpace noSpace trim trim_eq_self)

open NexaStays.IsoDates.IsoDate (digits digits_text text_lt_iff text_le_iff)

/-- The numbers at the start of a text, `/^(\d{4})-(\d{2})-(\d{2})/`. -/
def leadingYmd (value : String) : Option Ymd :=
  (digits (String.ofList (value.toList.take 10))).map fun n => ⟨n.1, n.2.1, n.2.2⟩

/-- `parseBookingYmd`, as the day of the date. -/
def parseYmd (value : String) : Except StaysError ℤ := parseBookingYmd (leadingYmd (trim value))

def bookingNightsBetween (checkin checkout : String) : Except StaysError ℤ := do
  let a ← parseYmd checkin
  let b ← parseYmd checkout
  let ms := b * dayMs - a * dayMs
  pure (ms.tdiv dayMs)

/-- The time zone of a server: the local time of an instant, and the instant of a local time. -/
structure Clock where
  wall : ℤ → ℤ
  instant : ℤ → ℤ

namespace Clock

/-- `new Date(year, month - 1, day)`. -/
def midnight (c : Clock) (day : ℤ) : ℤ := c.instant (day * dayMs)

/-- `cursor.setDate(cursor.getDate() + 1)` keeps the local time of the day. -/
def nextDay (c : Clock) (cursor : ℤ) : ℤ := c.instant (c.wall cursor + dayMs)

/-- `formatLocalDate`, which does not pad the year. -/
def formatLocalDate (c : Clock) (cursor : ℤ) : String :=
  let d := ymdOfDay (c.wall cursor / dayMs)
  toString d.year ++ "-" ++ String.ofList (two d.month) ++ "-" ++ String.ofList (two d.day)

end Clock

def tooLong : StaysError := .badRequest "Availability range cannot exceed 366 nights"

/-- `while (cursor < end)`. -/
def enumerate (c : Clock) (stop : ℤ) :
    ℕ → ℤ → List String → Option (Except StaysError (List String))
  | 0, _, _ => none
  | fuel + 1, cursor, dates =>
    if cursor < stop then
      let dates := dates ++ [c.formatLocalDate cursor]
      if 366 < dates.length then some (.error tooLong)
      else enumerate c stop fuel (c.nextDay cursor) dates
    else some (.ok dates)

/-- The nights that `setHostAvailabilityBlock` enumerates for its own listing. -/
def hostNights (c : Clock) (fuel : ℕ) (fromDate toDate : String) :
    Option (Except StaysError (List String)) :=
  let first := trim fromDate
  let last := trim toDate
  if (digits first).isNone ∨ (digits last).isNone then
    some (.error (.badRequest "from and to must be YYYY-MM-DD"))
  else if last ≤ first then some (.error (.badRequest "to must be after from"))
  else
    match parseYmd first, parseYmd last with
    | .error e, _ => some (.error e)
    | _, .error e => some (.error e)
    | .ok cursor, .ok stop => enumerate c (c.midnight stop) fuel (c.midnight cursor) []

variable {a b d : IsoDate}

theorem noSpace_text (d : IsoDate) : noSpace d.text = true := by
  have hdigit : ∀ n : ℕ, isSpace (digit (n % 10)) = false := by
    intro n
    have hlt : n % 10 < 10 := Nat.mod_lt _ (by decide)
    generalize n % 10 = m at hlt ⊢
    interval_cases m <;> decide
  have hdash : isSpace '-' = false := by decide
  simp [noSpace, IsoDate.text, four, two, hdigit, hdash]

theorem text_length (d : IsoDate) : d.text.toList.length = 10 := by
  simp [IsoDate.text, four, two]

theorem leadingYmd_text (d : IsoDate) : leadingYmd d.text = some ⟨d.year, d.month, d.day⟩ := by
  have htake : d.text.toList.take 10 = d.text.toList :=
    List.take_of_length_le (text_length d).le
  rw [leadingYmd, htake, String.ofList_toList, digits_text, Option.map_some]

theorem parseYmd_text (h : 100 ≤ d.year) : parseYmd d.text = .ok d.dayNumber := by
  have hvalid : (Ymd.mk d.year d.month d.day).isValid = true :=
    decide_eq_true ⟨h, d.month_pos, d.month_le, d.day_pos, d.day_le⟩
  rw [parseYmd, trim_eq_self (noSpace_text d), leadingYmd_text]
  simp only [parseBookingYmd, hvalid, if_true, toDay_date (le_trans (by decide) h)]

theorem bookingNightsBetween_text (ha : 100 ≤ a.year) (hb : 100 ≤ b.year) :
    bookingNightsBetween a.text b.text = .ok (b.dayNumber - a.dayNumber) := by
  have hms : b.dayNumber * dayMs - a.dayNumber * dayMs = (b.dayNumber - a.dayNumber) * dayMs := by
    ring
  rw [bookingNightsBetween, parseYmd_text ha, parseYmd_text hb]
  simp only [bind, Except.bind, pure, Except.pure, hms]
  rw [Int.mul_tdiv_cancel _ (by decide : dayMs ≠ 0)]

/-- The clock shows the days from `first` to `last` one after the other: some local times of the
day, with midnight, stay on their day where the clock is set forward over them, and come before
the last midnight on the days before it. -/
structure Clock.KeepsDays (c : Clock) (first last : ℤ) (hours : Set ℤ) : Prop where
  midnight : 0 ∈ hours
  kept : ∀ day, first ≤ day → day < last → ∀ hour ∈ hours,
    ∃ hour' ∈ hours, c.wall (c.instant (day * dayMs + hour)) = day * dayMs + hour'
  before : ∀ day, first ≤ day → day < last → ∀ hour ∈ hours,
    c.instant (day * dayMs + hour) < c.midnight last
  reached : ∀ hour ∈ hours, c.midnight last ≤ c.instant (last * dayMs + hour)

/-- Where every midnight is a local time and they come in order, no other time of the day is
needed. -/
theorem keepsDays_of_midnights {c : Clock} {first last : ℤ}
    (hwall : ∀ day, c.wall (c.midnight day) = day * dayMs) (hmono : StrictMono c.midnight) :
    c.KeepsDays first last {0} where
  midnight := rfl
  kept day _ _ hour hhour := by
    obtain rfl := Set.mem_singleton_iff.mp hhour
    exact ⟨0, rfl, by rw [add_zero]; exact hwall day⟩
  before day _ hlast hour hhour := by
    obtain rfl := Set.mem_singleton_iff.mp hhour
    rw [add_zero]
    exact hmono hlast
  reached hour hhour := by
    obtain rfl := Set.mem_singleton_iff.mp hhour
    rw [add_zero]
    exact le_rfl

/-- The loop from one of the days on. -/
theorem enumerate_eq {c : Clock} {first last : ℤ} {hours : Set ℤ} {n : ℕ}
    (hc : c.KeepsDays first last hours) (day hour : ℤ) (fuel : ℕ) (dates : List String)
    (hfirst : first ≤ day) (hn : day + n = last) (hhour : hour ∈ hours)
    (hdates : dates.length ≤ 366) (hfuel : 367 < fuel + dates.length) :
    if dates.length + n ≤ 366 then
      ∃ nights, enumerate c (c.midnight last) fuel (c.instant (day * dayMs + hour)) dates =
        some (.ok nights) ∧ nights.length = dates.length + n
    else enumerate c (c.midnight last) fuel (c.instant (day * dayMs + hour)) dates =
      some (.error tooLong) := by
  induction n generalizing day hour fuel dates with
  | zero =>
    obtain ⟨fuel, rfl⟩ := Nat.exists_eq_succ_of_ne_zero (by omega : fuel ≠ 0)
    obtain rfl : day = last := by simpa using hn
    have hstop := (hc.reached hour hhour).not_gt
    rw [if_pos (by omega), enumerate, if_neg hstop]
    exact ⟨dates, rfl, rfl⟩
  | succ n ih =>
    obtain ⟨fuel, rfl⟩ := Nat.exists_eq_succ_of_ne_zero (by omega : fuel ≠ 0)
    have hgo := hc.before day hfirst (by omega) hour hhour
    obtain ⟨hour', hhour', hwall⟩ := hc.kept day hfirst (by omega) hour hhour
    have hnext : c.nextDay (c.instant (day * dayMs + hour)) =
        c.instant ((day + 1) * dayMs + hour') := by
      rw [Clock.nextDay, hwall]
      congr 1
      ring
    have hlength : (dates ++ [c.formatLocalDate (c.instant (day * dayMs + hour))]).length =
        dates.length + 1 := by simp
    rw [enumerate, if_pos hgo]
    dsimp only
    rw [hnext, hlength]
    by_cases hlong : 366 < dates.length + 1
    · rw [if_neg (by omega), if_pos hlong]
    · have hstep := ih (day + 1) hour' fuel
        (dates ++ [c.formatLocalDate (c.instant (day * dayMs + hour))]) (by omega)
        (by push_cast at hn; omega) hhour' (by omega) (by omega)
      rw [hlength, show dates.length + 1 + n = dates.length + (n + 1) by omega] at hstep
      rw [if_neg hlong]
      exact hstep

/-- The loop ends in every time zone. -/
theorem enumerate_isSome (c : Clock) (stop cursor : ℤ) {fuel : ℕ} {dates : List String}
    (hdates : dates.length ≤ 366) (hfuel : 367 < fuel + dates.length) :
    (enumerate c stop fuel cursor dates).isSome := by
  induction fuel generalizing cursor dates with
  | zero => omega
  | succ fuel ih =>
    rw [enumerate]
    dsimp only
    split_ifs with hgo hlong
    · rfl
    · rw [List.length_append, List.length_singleton] at hlong
      exact ih _ (by simp; omega) (by simp; omega)
    · rfl

theorem hostNights_text (c : Clock) (fuel : ℕ) (ha : 100 ≤ a.year) (hb : 100 ≤ b.year)
    (hab : a.text < b.text) :
    hostNights c fuel a.text b.text =
      enumerate c (c.midnight b.dayNumber) fuel (c.midnight a.dayNumber) [] := by
  rw [hostNights, trim_eq_self (noSpace_text a), trim_eq_self (noSpace_text b)]
  simp only [digits_text, Option.isNone_some, Bool.false_eq_true, or_self, if_false,
    if_neg hab.not_ge, parseYmd_text ha, parseYmd_text hb]

/-- The length of a stay is at least one night if and only if the texts are in order, is added up
over the parts of a stay, and is the number of the nights that are enumerated, where that is not
refused for its length. -/
theorem stay_length (a b c : IsoDate) (ha : 100 ≤ a.year) (hb : 100 ≤ b.year)
    (hc : 100 ≤ c.year) :
    ∃ ab bc : ℤ, bookingNightsBetween a.text b.text = .ok ab ∧
      bookingNightsBetween b.text c.text = .ok bc ∧
      (1 ≤ ab ↔ a.text < b.text) ∧
      (a.text ≤ b.text → b.text ≤ c.text →
        bookingNightsBetween a.text c.text = .ok (ab + bc)) ∧
      (a.text < b.text → ∀ (clock : Clock) (hours : Set ℤ),
        clock.KeepsDays a.dayNumber b.dayNumber hours → ∀ fuel ≥ 368,
        if ab ≤ 366 then
          ∃ nights, hostNights clock fuel a.text b.text = some (.ok nights) ∧
            (nights.length : ℤ) = ab
        else hostNights clock fuel a.text b.text = some (.error tooLong)) := by
  refine ⟨_, _, bookingNightsBetween_text ha hb, bookingNightsBetween_text hb hc, ?_, ?_, ?_⟩
  · rw [text_lt_iff]
    omega
  · intro _ _
    have hsum : b.dayNumber - a.dayNumber + (c.dayNumber - b.dayNumber) =
        c.dayNumber - a.dayNumber := by omega
    rw [bookingNightsBetween_text ha hc, hsum]
  · intro hab clock hours hclock fuel hfuel
    have hlt := text_lt_iff.mp hab
    obtain ⟨n, hn⟩ := Int.le.dest hlt.le
    have hrun := enumerate_eq hclock a.dayNumber 0 fuel [] le_rfl hn hclock.midnight
      (by simp) (by simp; omega)
    rw [add_zero, ← Clock.midnight, List.length_nil, zero_add,
      ← hostNights_text clock fuel ha hb hab] at hrun
    have hcount : b.dayNumber - a.dayNumber = n := by omega
    rw [hcount]
    by_cases hshort : n ≤ 366
    · rw [if_pos hshort] at hrun
      rw [if_pos (by exact_mod_cast hshort)]
      obtain ⟨nights, heq, hlength⟩ := hrun
      exact ⟨nights, heq, by exact_mod_cast hlength⟩
    · rw [if_neg hshort] at hrun
      rw [if_neg (by exact_mod_cast hshort)]
      exact hrun

def utcClock : Clock := ⟨id, id⟩

theorem utcClock_keepsDays (first last : ℤ) : utcClock.KeepsDays first last {0} :=
  keepsDays_of_midnights (fun _ => rfl) fun day day' h =>
    mul_lt_mul_of_pos_right h (by decide : 0 < dayMs)

def newYear (year : ℕ) (h : year < 10000) : IsoDate :=
  ⟨year, 1, 1, h, by decide, january_le_december, by decide,
    le_trans (by decide) (monthLength_pos _ _)⟩

/-- A leap year has 366 nights, which are the most that are enumerated. -/
theorem stay_length_leap :
    ∃ nights, hostNights utcClock 368 "2024-01-01" "2025-01-01" = some (.ok nights) ∧
      (nights.length : ℤ) = 366 := by
  have hfirst : (newYear 2024 (by decide)).text = "2024-01-01" := by decide
  have hlast : (newYear 2025 (by decide)).text = "2025-01-01" := by decide
  have hnumbers : (newYear 2025 (by decide)).dayNumber -
      (newYear 2024 (by decide)).dayNumber = 366 := by decide
  obtain ⟨ab, bc, hab, -, -, -, hloop⟩ := stay_length (newYear 2024 (by decide))
    (newYear 2025 (by decide)) (newYear 2025 (by decide)) (by decide) (by decide) (by decide)
  have hcount : ab = 366 := by
    rw [bookingNightsBetween_text (by decide) (by decide), hnumbers] at hab
    exact (Except.ok.inj hab).symm
  have hrun := hloop (by rw [hfirst, hlast]; decide) utcClock {0} (utcClock_keepsDays _ _) 368 le_rfl
  rw [hcount, if_pos le_rfl, hfirst, hlast] at hrun
  exact hrun

/-- A clock that is set from 2011-12-29 24:00 to 2011-12-31 00:00. -/
def skippingClock : Clock where
  wall t := if t < 1325239200000 then t - 36000000 else t + 50400000
  instant w := if w < 1325289600000 then w + 36000000 else w - 50400000

/-- More than 366 nights are refused, a date that the clock skips is not enumerated, and the years
below 100 are not dates for `Date.UTC`. -/
theorem nights_not_enumerated :
    bookingNightsBetween "2026-01-01" "2028-01-01" = .ok 730 ∧
      hostNights utcClock 368 "2026-01-01" "2028-01-01" = some (.error tooLong) ∧
      bookingNightsBetween "2011-12-29" "2012-01-01" = .ok 3 ∧
      hostNights skippingClock 368 "2011-12-29" "2012-01-01" =
        some (.ok ["2011-12-29", "2011-12-31"]) ∧
      bookingNightsBetween "0050-01-01" "0050-01-02" = .error (.badRequest "Invalid date.") := by
  refine ⟨by decide +kernel, ?_, by decide +kernel, by decide +kernel, by decide +kernel⟩
  have hfirst : (newYear 2026 (by decide)).text = "2026-01-01" := by decide
  have hlast : (newYear 2028 (by decide)).text = "2028-01-01" := by decide
  have hnumbers : (newYear 2026 (by decide)).dayNumber + (730 : ℕ) =
      (newYear 2028 (by decide)).dayNumber := by decide
  have hrun := enumerate_eq (utcClock_keepsDays _ _) _ 0 368 [] le_rfl hnumbers
    (Set.mem_singleton 0) (by decide) (by decide)
  rw [if_neg (by decide), add_zero, ← Clock.midnight,
    ← hostNights_text utcClock 368 (by decide) (by decide) (by decide +kernel), hfirst,
    hlast] at hrun
  exact hrun

end NexaStays.StayLength
