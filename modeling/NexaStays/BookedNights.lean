import NexaStays.Database
import NexaStays.IsoDates
import NexaStays.JsNumbers
import Mathlib.Algebra.BigOperators.Ring.Finset
import Mathlib.Data.Int.Interval

/-!
# Booked nights of a period

`host-dashboard-timezone`: the nights of a stay inside a half-open period, and of the whole
stay. The analytics add them up over the earning bookings of a listing.
-/
namespace NexaStays.BookedNights

open NexaStays.Database NexaStays.IsoDates NexaStays.JsNumbers

/-- Midnights in the time zone of the dashboard, as milliseconds, and the difference of two
of them in calendar days. -/
structure DateTimes where
  fromISO : String → ℤ
  diffDays : ℤ → ℤ → ℚ
  fromISO_lt : ∀ a b : IsoDate, a.dayNumber < b.dayNumber → fromISO a.text < fromISO b.text
  diffDays_fromISO : ∀ a b : IsoDate,
    diffDays (fromISO b.text) (fromISO a.text) = b.dayNumber - a.dayNumber

variable (luxon : DateTimes)

def bookedNightsInHalfOpenRange
    (checkinYmd checkoutYmd periodStartYmd periodEndExclusiveYmd : String) : ℤ :=
  let periodStart := luxon.fromISO periodStartYmd
  let periodEnd := luxon.fromISO periodEndExclusiveYmd
  let checkin := luxon.fromISO checkinYmd
  let checkout := luxon.fromISO checkoutYmd
  let start := if checkin > periodStart then checkin else periodStart
  let stop := if checkout < periodEnd then checkout else periodEnd
  if stop ≤ start then 0 else mathRound (luxon.diffDays stop start)

def stayNights (checkinYmd checkoutYmd : String) : ℤ :=
  let checkin := luxon.fromISO checkinYmd
  let checkout := luxon.fromISO checkoutYmd
  if checkout ≤ checkin then 0 else mathRound (luxon.diffDays checkout checkin)

def Analytics.earningStatuses : List BookingStatus := [.confirmed, .checkedIn, .completed]

/-- What the analytics read of a booking. -/
structure Stay where
  status : BookingStatus
  checkin : IsoDate
  checkout : IsoDate
  deriving DecidableEq, Repr

/-- `booked_in_period` of a listing with the bookings `stays`. -/
def bookedInPeriod (start stop : IsoDate) (stays : List Stay) : ℤ :=
  stays.foldl (fun booked b =>
    if b.status ∉ Analytics.earningStatuses then booked
    else booked +
      bookedNightsInHalfOpenRange luxon b.checkin.text b.checkout.text start.text stop.text) 0

variable {luxon} {a b c d : IsoDate}

theorem fromISO_lt_iff : luxon.fromISO a.text < luxon.fromISO b.text ↔
    a.dayNumber < b.dayNumber := by
  refine ⟨fun h => ?_, luxon.fromISO_lt a b⟩
  by_contra hnot
  rcases (not_lt.mp hnot).lt_or_eq with hlt | heq
  · exact absurd (luxon.fromISO_lt b a hlt) (not_lt.mpr h.le)
  · rw [IsoDate.dayNumber_inj.mp heq] at h
    exact absurd h (lt_irrefl _)

theorem fromISO_le_iff : luxon.fromISO a.text ≤ luxon.fromISO b.text ↔
    a.dayNumber ≤ b.dayNumber := by
  rw [← not_lt, fromISO_lt_iff, not_lt]

theorem mathRound_diffDays : mathRound (luxon.diffDays (luxon.fromISO b.text)
    (luxon.fromISO a.text)) = b.dayNumber - a.dayNumber := by
  rw [luxon.diffDays_fromISO, ← Int.cast_sub, mathRound_intCast]

/-- The nights from the day `a` on, before the day `b`. -/
noncomputable def nightsBetween (a b : IsoDate) : Finset ℤ := Finset.Ico a.dayNumber b.dayNumber

/-- The later of two dates. -/
theorem later_text (luxon : DateTimes) (a b : IsoDate) : ∃ m : IsoDate,
    (if luxon.fromISO a.text > luxon.fromISO b.text then luxon.fromISO a.text
      else luxon.fromISO b.text) = luxon.fromISO m.text ∧
      m.dayNumber = max a.dayNumber b.dayNumber := by
  by_cases h : luxon.fromISO a.text > luxon.fromISO b.text
  · exact ⟨a, if_pos h, (max_eq_left (fromISO_lt_iff.mp h).le).symm⟩
  · exact ⟨b, if_neg h, (max_eq_right (fromISO_le_iff.mp (not_lt.mp h))).symm⟩

theorem earlier_text (luxon : DateTimes) (a b : IsoDate) : ∃ m : IsoDate,
    (if luxon.fromISO a.text < luxon.fromISO b.text then luxon.fromISO a.text
      else luxon.fromISO b.text) = luxon.fromISO m.text ∧
      m.dayNumber = min a.dayNumber b.dayNumber := by
  by_cases h : luxon.fromISO a.text < luxon.fromISO b.text
  · exact ⟨a, if_pos h, (min_eq_left (fromISO_lt_iff.mp h).le).symm⟩
  · exact ⟨b, if_neg h, (min_eq_right (fromISO_le_iff.mp (not_lt.mp h))).symm⟩

/-- The clipped nights are those that the stay and the period share. -/
theorem bookedNights_eq_card (checkin checkout start stop : IsoDate) :
    bookedNightsInHalfOpenRange luxon checkin.text checkout.text start.text stop.text =
      ((nightsBetween checkin checkout ∩ nightsBetween start stop).card : ℤ) := by
  obtain ⟨first, hfirst, hmax⟩ := later_text luxon checkin start
  obtain ⟨last, hlast, hmin⟩ := earlier_text luxon checkout stop
  have hshared : nightsBetween checkin checkout ∩ nightsBetween start stop =
      Finset.Ico first.dayNumber last.dayNumber := by
    rw [nightsBetween, nightsBetween, Finset.Ico_inter_Ico, hmax, hmin]
  rw [hshared, Int.card_Ico]
  simp only [bookedNightsInHalfOpenRange, hfirst, hlast, fromISO_le_iff, mathRound_diffDays]
  split_ifs <;> omega

theorem stayNights_eq_card (checkin checkout : IsoDate) :
    stayNights luxon checkin.text checkout.text = ((nightsBetween checkin checkout).card : ℤ) := by
  simp only [stayNights, fromISO_le_iff, mathRound_diffDays, nightsBetween, Int.card_Ico]
  split_ifs <;> omega

/-- The periods between consecutive cuts. -/
def periods (cuts : List IsoDate) : List (IsoDate × IsoDate) := cuts.zip cuts.tail

theorem card_inter_Ico_add (s : Finset ℤ) {x y z : ℤ} (hxy : x ≤ y) (hyz : y ≤ z) :
    (s ∩ Finset.Ico x y).card + (s ∩ Finset.Ico y z).card = (s ∩ Finset.Ico x z).card := by
  have hdisjoint : Disjoint (s ∩ Finset.Ico x y) (s ∩ Finset.Ico y z) := by
    refine Finset.disjoint_left.mpr fun n hn hn' => ?_
    simp only [Finset.mem_inter, Finset.mem_Ico] at hn hn'
    omega
  have hunion : s ∩ Finset.Ico x y ∪ s ∩ Finset.Ico y z = s ∩ Finset.Ico x z := by
    rw [← Finset.inter_union_distrib_left, Finset.Ico_union_Ico_eq_Ico hxy hyz]
  rw [← Finset.card_union_of_disjoint hdisjoint, hunion]

/-- Over consecutive periods the shared nights add up to those of the whole interval. -/
theorem sum_card_periods (s : Finset ℤ) {first : IsoDate} {cuts : List IsoDate}
    (hcuts : (first :: cuts).Pairwise fun x y => x.dayNumber ≤ y.dayNumber) :
    ((periods (first :: cuts)).map fun p => (s ∩ nightsBetween p.1 p.2).card).sum =
      (s ∩ nightsBetween first ((first :: cuts).getLast (by simp))).card := by
  induction cuts generalizing first with
  | nil => simp [periods, nightsBetween]
  | cons next cuts ih =>
    have hrest := (List.pairwise_cons.mp hcuts).2
    have hlast : next.dayNumber ≤ ((next :: cuts).getLast (by simp)).dayNumber := by
      rcases List.mem_cons.mp (List.getLast_mem (l := next :: cuts) (by simp)) with h | h
      · rw [h]
      · exact (List.pairwise_cons.mp hrest).1 _ h
    have hstep := card_inter_Ico_add s ((List.pairwise_cons.mp hcuts).1 next (by simp)) hlast
    have hperiods : periods (first :: next :: cuts) = (first, next) :: periods (next :: cuts) := rfl
    rw [hperiods, List.map_cons, List.sum_cons, ih hrest, List.getLast_cons_cons]
    exact hstep

/-- Two stays of one calendar share no night. -/
def Apart (x y : Stay) : Prop :=
  Disjoint (nightsBetween x.checkin x.checkout) (nightsBetween y.checkin y.checkout)

/-- Disjoint parts of a set have no more elements together than the set. -/
theorem sum_card_le {parts : List (Finset ℤ)} (hdisjoint : parts.Pairwise Disjoint)
    (whole : Finset ℤ) (hsub : ∀ part ∈ parts, part ⊆ whole) :
    (parts.map Finset.card).sum ≤ whole.card := by
  induction parts generalizing whole with
  | nil => simp
  | cons part parts ih =>
    obtain ⟨hpart, hrest⟩ := List.pairwise_cons.mp hdisjoint
    have hremaining := ih hrest (whole \ part) fun other hother =>
      Finset.subset_sdiff.mpr ⟨hsub other (by simp [hother]), (hpart other hother).symm⟩
    have hcard := Finset.card_sdiff_add_card_eq_card (hsub part (by simp))
    rw [List.map_cons, List.sum_cons]
    omega

theorem foldl_nights (nights : Stay → ℕ) (stays : List Stay) (booked : ℤ) :
    stays.foldl (fun booked b =>
      if b.status ∉ Analytics.earningStatuses then booked else booked + (nights b : ℤ)) booked =
        booked + (((stays.filter fun b => b.status ∈ Analytics.earningStatuses).map nights).sum : ℕ) := by
  induction stays generalizing booked with
  | nil => simp
  | cons b stays ih =>
    rw [List.foldl_cons, ih]
    by_cases hstatus : b.status ∈ Analytics.earningStatuses
    · simp only [hstatus, not_true, if_false, decide_true, List.filter_cons, if_true,
        List.map_cons, List.sum_cons, Nat.cast_add]
      omega
    · simp [hstatus]

theorem bookedInPeriod_eq (start stop : IsoDate) (stays : List Stay) :
    bookedInPeriod luxon start stop stays =
      (((stays.filter fun b => b.status ∈ Analytics.earningStatuses).map fun b =>
        (nightsBetween b.checkin b.checkout ∩ nightsBetween start stop).card).sum : ℕ) := by
  simp only [bookedInPeriod, bookedNights_eq_card, foldl_nights, zero_add]

/-- Over the periods of a partition the nights of a stay add up to the whole stay, and in
no period do stays that are apart have more nights than it has days. -/
theorem booked_nights_add_up (luxon : DateTimes) :
    (∀ (checkin checkout first : IsoDate) (cuts : List IsoDate),
      ((first :: cuts).Pairwise fun x y => x.dayNumber ≤ y.dayNumber) →
      first.dayNumber ≤ checkin.dayNumber →
      checkout.dayNumber ≤ ((first :: cuts).getLast (by simp)).dayNumber →
      ((periods (first :: cuts)).map fun p => bookedNightsInHalfOpenRange luxon checkin.text
        checkout.text p.1.text p.2.text).sum = stayNights luxon checkin.text checkout.text) ∧
    ∀ (start stop : IsoDate) (stays : List Stay), start.dayNumber ≤ stop.dayNumber →
      (stays.filter fun b => b.status ∈ Analytics.earningStatuses).Pairwise Apart →
      bookedInPeriod luxon start stop stays ≤ stop.dayNumber - start.dayNumber := by
  constructor
  · intro checkin checkout first cuts hcuts hfirst hlast
    have hsum := sum_card_periods (nightsBetween checkin checkout) hcuts
    have hinside : nightsBetween checkin checkout ∩
        nightsBetween first ((first :: cuts).getLast (by simp)) =
          nightsBetween checkin checkout :=
      Finset.inter_eq_left.mpr (Finset.Ico_subset_Ico hfirst hlast)
    rw [hinside] at hsum
    rw [stayNights_eq_card, ← hsum, Nat.cast_list_sum, List.map_map]
    exact congrArg List.sum (List.map_congr_left fun p _ => bookedNights_eq_card _ _ _ _)
  · intro start stop stays hperiod hapart
    have hparts : ((stays.filter fun b => b.status ∈ Analytics.earningStatuses).map fun b =>
        nightsBetween b.checkin b.checkout ∩ nightsBetween start stop).Pairwise Disjoint := by
      refine List.pairwise_map.mpr (hapart.imp fun h => ?_)
      exact Disjoint.mono Finset.inter_subset_left Finset.inter_subset_left h
    have hsum := sum_card_le hparts (nightsBetween start stop) fun part hpart => by
      obtain ⟨b, -, rfl⟩ := List.mem_map.mp hpart
      exact Finset.inter_subset_right
    rw [List.map_map] at hsum
    have hcard : ((nightsBetween start stop).card : ℤ) = stop.dayNumber - start.dayNumber := by
      rw [nightsBetween, Int.card_Ico]
      omega
    rw [bookedInPeriod_eq, ← hcard]
    exact_mod_cast hsum

theorem midnight_text (a : IsoDate) :
    (IsoDate.parse a.text).elim 0 (·.dayNumber) * 86400000 = a.dayNumber * 86400000 := by
  rw [IsoDate.parse_text, Option.elim_some]

theorem days_of_midnights (x y : ℤ) :
    (((y * 86400000 : ℤ) : ℚ) - ((x * 86400000 : ℤ) : ℚ)) / 86400000 = y - x := by
  push_cast
  ring

/-- Midnights in UTC. -/
def utcDateTimes : DateTimes where
  fromISO text := ((IsoDate.parse text).elim 0 (·.dayNumber)) * 86400000
  diffDays x y := (x - y) / 86400000
  fromISO_lt a b h := by
    rw [midnight_text, midnight_text]
    omega
  diffDays_fromISO a b := by
    rw [midnight_text, midnight_text]
    exact days_of_midnights _ _

def may (day : ℕ) (hpos : 1 ≤ day) (hle : day ≤ monthLength 2026 5) : IsoDate :=
  ⟨2026, 5, day, by decide, by decide, by decide, hpos, hle⟩

/-- Two stays, the second from the day on which the first one ends. -/
def adjacentStays : List Stay :=
  [⟨.confirmed, may 3 (by decide) (by decide), may 6 (by decide) (by decide)⟩,
    ⟨.completed, may 6 (by decide) (by decide), may 9 (by decide) (by decide)⟩]

/-- A stay over a cut, and a listing with two adjacent bookings in ten days. -/
theorem booked_nights_add_up_sample :
    ((periods [may 1 (by decide) (by decide), may 11 (by decide) (by decide),
        may 21 (by decide) (by decide)]).map fun p =>
          bookedNightsInHalfOpenRange utcDateTimes (may 9 (by decide) (by decide)).text
            (may 13 (by decide) (by decide)).text p.1.text p.2.text).sum =
      stayNights utcDateTimes (may 9 (by decide) (by decide)).text
        (may 13 (by decide) (by decide)).text ∧
    bookedInPeriod utcDateTimes (may 1 (by decide) (by decide)) (may 11 (by decide) (by decide))
      adjacentStays ≤
        (may 11 (by decide) (by decide)).dayNumber - (may 1 (by decide) (by decide)).dayNumber := by
  have hapart : (adjacentStays.filter fun b => b.status ∈ Analytics.earningStatuses).Pairwise
      Apart :=
    List.pairwise_pair.mpr (Finset.Ico_disjoint_Ico_consecutive _ _ _)
  exact ⟨(booked_nights_add_up utcDateTimes).1 _ _ _ _ (by decide) (by decide) (by decide),
    (booked_nights_add_up utcDateTimes).2 _ _ _ (by decide) hapart⟩

end NexaStays.BookedNights
