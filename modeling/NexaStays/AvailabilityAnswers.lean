import Mathlib.Data.List.Dedup
import NexaStays.Availability
import NexaStays.SoloRuns

/-!
# The answers about availability

The search asks for the listings that are taken, a booking whether one listing is free, the
calendar for the ranges that occupy it. The three queries are written apart; on one store
they say the same.
-/
namespace NexaStays.AvailabilityAnswers

open NexaStays.Transactions NexaStays.Database NexaStays.Availability NexaStays.SoloRuns

/-- `if (listingIds?.length)`: no list and an empty one select every listing. -/
def selects (listingIds : Option (List ℕ)) (id : ℕ) : Bool :=
  listingIds.getD [] = [] ∨ id ∈ listingIds.getD []

def unavailableFromBookings (s : Store) (checkin checkout : ℤ) (listingIds : Option (List ℕ))
    (excludeBookingId : Option ℕ) : List ℕ :=
  (s.bookings.rows.filter fun b => b.status ∈ bookedStatuses ∧ b.checkinDate < checkout ∧
    checkin < b.checkoutDate ∧ selects listingIds b.listingId ∧
    excludeBookingId ≠ some b.id).map (·.listingId)

def unavailableFromBlocks (s : Store) (checkin checkout : ℤ) (listingIds : Option (List ℕ)) :
    List ℕ :=
  (s.blocks.rows.filter fun ab => ab.isBlocked ∧ checkin ≤ ab.date ∧ ab.date < checkout ∧
    selects listingIds ab.listingId).map (·.listingId)

/-- The listings of either query, each once. -/
def getUnavailableListingIds (checkin checkout : ℤ) (listingIds : Option (List ℕ))
    (excludeBookingId : Option ℕ) : Stays (List ℕ) := do
  let fromBookings ← Stays.read fun s =>
    unavailableFromBookings s checkin checkout listingIds excludeBookingId
  let fromBlocks ← Stays.read fun s => unavailableFromBlocks s checkin checkout listingIds
  pure (fromBookings ++ fromBlocks).dedup

inductive RangeSource where
  | booking | block
  deriving DecidableEq, Repr

/-- The nights `[checkinDate, checkoutDate)`. -/
structure BlockedDateRange where
  checkinDate : ℤ
  checkoutDate : ℤ
  source : RangeSource
  deriving DecidableEq, Repr

def bookingRange (b : StaysBooking) : BlockedDateRange := ⟨b.checkinDate, b.checkoutDate, .booking⟩

/-- A blocked night, to the day after it. -/
def blockRange (ab : StaysAvailabilityBlock) : BlockedDateRange := ⟨ab.date, ab.date + 1, .block⟩

def getBlockedDateRanges (listingId : ℕ) (start stop : ℤ) : Stays (List BlockedDateRange) := do
  let bookings ← Stays.read fun s => overlappingBookings s listingId start stop none
  let blocks ← Stays.read fun s => blockedNights s listingId start stop
  pure (bookings.map bookingRange ++ blocks.map blockRange)

/-- Half-open ranges overlap if each starts before the other ends. -/
def BlockedDateRange.Overlaps (r : BlockedDateRange) (checkin checkout : ℤ) : Prop :=
  r.checkinDate < checkout ∧ checkin < r.checkoutDate

instance (r : BlockedDateRange) (checkin checkout : ℤ) : Decidable (r.Overlaps checkin checkout) :=
  inferInstanceAs (Decidable (_ ∧ _))

/-- Between ranges with nights, to overlap is to share one. -/
theorem BlockedDateRange.overlaps_iff {r : BlockedDateRange} {checkin checkout : ℤ}
    (hr : r.checkinDate < r.checkoutDate) (h : checkin < checkout) :
    r.Overlaps checkin checkout ↔
      ∃ night, (r.checkinDate ≤ night ∧ night < r.checkoutDate) ∧ checkin ≤ night ∧ night < checkout := by
  constructor
  · rintro ⟨hlo, hhi⟩
    exact ⟨max r.checkinDate checkin, by omega, by omega⟩
  · rintro ⟨night, hr', h'⟩
    exact ⟨by omega, by omega⟩

/-- Every run of the query alone on the store ends with this answer and changes nothing. -/
def Answers {α : Type} (p : Stays α) (s : Store) (a : α) : Prop :=
  Alone False (fun r s' => r = .ok a ∧ s' = s) p s

variable {s : Store} {listingId : ℕ} {checkin checkout : ℤ}

/-- A night or a stay of the range takes the listing. -/
def Taken (s : Store) (listingId : ℕ) (checkin checkout : ℤ) : Prop :=
  overlappingBookings s listingId checkin checkout none ≠ [] ∨
    blockedNights s listingId checkin checkout ≠ []

instance : Decidable (Taken s listingId checkin checkout) :=
  inferInstanceAs (Decidable (_ ∨ _))

theorem answers_isListingAvailable :
    Answers (isListingAvailable listingId checkin checkout none) s
      (decide ¬Taken s listingId checkin checkout) := by
  refine Alone.query ?_ False.elim
  split_ifs with hover
  · have htaken : Taken s listingId checkin checkout :=
      Or.inl (List.ne_nil_of_length_pos hover)
    exact ⟨by simp [htaken], rfl⟩
  · refine Alone.query ?_ False.elim
    have hnone : overlappingBookings s listingId checkin checkout none = [] :=
      List.eq_nil_of_length_eq_zero (by omega)
    refine ⟨congrArg Except.ok ?_, rfl⟩
    by_cases hblocked : blockedNights s listingId checkin checkout = [] <;>
      simp [Taken, hnone, hblocked]

theorem answers_getUnavailableListingIds (listingIds : Option (List ℕ)) :
    Answers (getUnavailableListingIds checkin checkout listingIds none) s
      (unavailableFromBookings s checkin checkout listingIds none ++
        unavailableFromBlocks s checkin checkout listingIds).dedup :=
  Alone.query (Alone.query ⟨rfl, rfl⟩ False.elim) False.elim

theorem answers_getBlockedDateRanges :
    Answers (getBlockedDateRanges listingId checkin checkout) s
      ((overlappingBookings s listingId checkin checkout none).map bookingRange ++
        (blockedNights s listingId checkin checkout).map blockRange) :=
  Alone.query (Alone.query ⟨rfl, rfl⟩ False.elim) False.elim

theorem mem_unavailableFromBookings {listingIds : Option (List ℕ)}
    (hselected : selects listingIds listingId = true) :
    listingId ∈ unavailableFromBookings s checkin checkout listingIds none ↔
      overlappingBookings s listingId checkin checkout none ≠ [] := by
  simp only [unavailableFromBookings, overlappingBookings, List.mem_map, List.mem_filter, ne_eq,
    List.filter_eq_nil_iff, overlaps]
  push Not
  constructor
  · rintro ⟨b, ⟨hb, hb'⟩, rfl⟩
    exact ⟨b, hb, by simp_all⟩
  · rintro ⟨b, hb, hb'⟩
    simp only [decide_eq_true_eq] at hb'
    exact ⟨b, ⟨hb, by simp_all⟩, hb'.1⟩

theorem mem_unavailableFromBlocks {listingIds : Option (List ℕ)}
    (hselected : selects listingIds listingId = true) :
    listingId ∈ unavailableFromBlocks s checkin checkout listingIds ↔
      blockedNights s listingId checkin checkout ≠ [] := by
  simp only [unavailableFromBlocks, blockedNights, List.mem_map, List.mem_filter, ne_eq,
    List.filter_eq_nil_iff]
  push Not
  constructor
  · rintro ⟨ab, ⟨hab, hab'⟩, rfl⟩
    exact ⟨ab, hab, by simp_all⟩
  · rintro ⟨ab, hab, hab'⟩
    simp only [decide_eq_true_eq] at hab'
    exact ⟨ab, ⟨hab, by simp_all⟩, hab'.1⟩

/-- Every range of the calendar overlaps the one that was asked for. -/
theorem overlaps_of_mem_ranges {r : BlockedDateRange}
    (hr : r ∈ (overlappingBookings s listingId checkin checkout none).map bookingRange ++
      (blockedNights s listingId checkin checkout).map blockRange) :
    r.Overlaps checkin checkout := by
  obtain hr | hr := List.mem_append.mp hr
  · obtain ⟨b, hb, rfl⟩ := List.mem_map.mp hr
    have hover := of_decide_eq_true (List.mem_filter.mp hb).2
    exact ⟨hover.2.2.1, hover.2.2.2.1⟩
  · obtain ⟨ab, hab, rfl⟩ := List.mem_map.mp hr
    obtain ⟨-, -, hlo, hhi⟩ := of_decide_eq_true (List.mem_filter.mp hab).2
    exact ⟨hhi, Int.lt_add_one_of_le hlo⟩

/-- On one store, for any listing and range: the listing is available iff it is not among the
unavailable ones of a search that asks for it, iff no range of its calendar overlaps; and all the
ranges of the calendar do. -/
theorem availability_answers_agree (s : Store) (listingId : ℕ) (checkin checkout : ℤ) :
    ∃ available ranges,
      Answers (isListingAvailable listingId checkin checkout none) s available ∧
      Answers (getBlockedDateRanges listingId checkin checkout) s ranges ∧
      (∀ ids : Option (List ℕ), ids.getD [] = [] ∨ listingId ∈ ids.getD [] → ∃ unavailable,
        Answers (getUnavailableListingIds checkin checkout ids none) s unavailable ∧
        (available = true ↔ listingId ∉ unavailable)) ∧
      (available = true ↔ ∀ r ∈ ranges, ¬r.Overlaps checkin checkout) ∧
      ∀ r ∈ ranges, r.Overlaps checkin checkout := by
  refine ⟨_, _, answers_isListingAvailable, answers_getBlockedDateRanges, fun ids hids => ?_, ?_,
    fun r hr => overlaps_of_mem_ranges hr⟩
  · refine ⟨_, answers_getUnavailableListingIds ids, ?_⟩
    have hselected : selects ids listingId = true := decide_eq_true hids
    rw [List.mem_dedup, List.mem_append, mem_unavailableFromBookings hselected,
      mem_unavailableFromBlocks hselected, decide_eq_true_eq, Taken]
  · rw [decide_eq_true_eq]
    constructor
    · intro hfree r hr
      obtain ⟨hstays, hnights⟩ := not_or.mp hfree
      simp [not_not.mp hstays, not_not.mp hnights] at hr
    · rintro hnone (hstays | hnights)
      · obtain ⟨b, hb⟩ := List.exists_mem_of_ne_nil _ hstays
        have hr := List.mem_append_left ((blockedNights s listingId checkin checkout).map blockRange)
          (List.mem_map_of_mem (f := bookingRange) hb)
        exact hnone _ hr (overlaps_of_mem_ranges hr)
      · obtain ⟨ab, hab⟩ := List.exists_mem_of_ne_nil _ hnights
        have hr := List.mem_append_right
          ((overlappingBookings s listingId checkin checkout none).map bookingRange)
          (List.mem_map_of_mem (f := blockRange) hab)
        exact hnone _ hr (overlaps_of_mem_ranges hr)

end NexaStays.AvailabilityAnswers
