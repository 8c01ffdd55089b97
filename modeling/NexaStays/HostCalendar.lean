import NexaStays.BookingDate

/-!
# Host blocks

`StaysService.setHostAvailabilityBlock`: one upsert of the nights of a range, with
the host as their source.
-/
namespace NexaStays.HostCalendar

open NexaStays.Transactions NexaStays.Database NexaStays.BookingDate

open NexaStays.Transactions.Program (require expect ofExcept)

/-- The nights `[from, to)`, in order. -/
def nightsBetween (start stop : ℤ) : List ℤ :=
  (List.range (stop - start).toNat).map fun n : ℕ => start + (n : ℤ)

theorem mem_nightsBetween {start stop night : ℤ} :
    night ∈ nightsBetween start stop ↔ start ≤ night ∧ night < stop := by
  simp only [nightsBetween, List.mem_map, List.mem_range]
  constructor
  · rintro ⟨n, hn, rfl⟩
    omega
  · intro h
    exact ⟨(night - start).toNat, by omega, by omega⟩

/-- The row the upsert leaves for a night. -/
def hostBlock (listingId : ℕ) (isBlocked : Bool) (date : ℤ) : StaysAvailabilityBlock :=
  { listingId, date, isBlocked, source := some .host, externalCalendarId := none }

/-- The number of nights of the range is returned. -/
def setHostAvailabilityBlock (listingId hostUserId : ℕ) (fromDate toDate : Option Ymd)
    (isBlocked : Bool) : Stays ℕ := do
  let found ← Stays.read fun s => s.listings.find? listingId
  let _ ← expect (found.filter fun l => l.hostUserId = hostUserId) (.notFound "Listing not found")
  let start ← expect fromDate (.badRequest "from and to must be YYYY-MM-DD")
  let stop ← expect toDate (.badRequest "from and to must be YYYY-MM-DD")
  require (start.toText < stop.toText) (.badRequest "to must be after from")
  let cursor ← ofExcept (parseBookingYmd fromDate)
  let last ← ofExcept (parseBookingYmd toDate)
  let dates := nightsBetween cursor last
  require (dates.length ≤ 366) (.badRequest "Availability range cannot exceed 366 nights")
  let _ ← Stays.update fun _ => dates.map fun date => .block (hostBlock listingId isBlocked date)
  pure dates.length

end NexaStays.HostCalendar
