import NexaStays.Availability
import NexaStays.BookingDate

/-!
# Creating a booking

`StaysService.createBooking` with the helpers it calls. The booking row is inserted
under the lock of its listing, after a second look for the idempotency key and after
the availability query.
-/
namespace NexaStays.CreateBooking

open NexaStays.Transactions NexaStays.Database NexaStays.Money NexaStays.Availability
  NexaStays.BookingDate

open NexaStays.Transactions.Program (require expect ofExcept receive)

/-- The request; of the occupants only their number is used before they are stored. -/
structure CreateBookingDto where
  listingId : ℕ
  checkinDate : Option Ymd
  checkoutDate : Option Ymd
  guestCount : ℕ
  occupants : Option ℕ
  idempotencyKey : Option String
  deriving DecidableEq, Repr

/-- `dto.idempotency_key || null`: an empty key is no key. -/
def CreateBookingDto.key (dto : CreateBookingDto) : Option String :=
  dto.idempotencyKey.filter (· ≠ "")

/-- The booking of this guest with this key, if the request has one. -/
def findByIdempotencyKey (userId : ℕ) (dto : CreateBookingDto) : Stays (Option StaysBooking) :=
  match dto.key with
  | none => pure none
  | some key => Stays.findOne fun s =>
    s.bookings.rows.filter fun b => b.guestUserId = userId ∧ b.idempotencyKey = some key

/-- One upsert, which locks the year's counter until the transaction ends. -/
def allocateBookingReference (year : ℤ) : Stays BookingReference := do
  let rows ← Stays.update fun s =>
    [.refCounter ⟨year, (s.refCounters.find? year).elim 1 (·.lastSeq + 1)⟩]
  match rows with
  | [.refCounter counter] => pure ⟨counter.year, counter.lastSeq⟩
  | _ => .throw (.internal "Failed to allocate booking reference")

/-- The row that is inserted. -/
def newBooking (userId : ℕ) (dto : CreateBookingDto) (checkin checkout : ℤ) (ratePlan : RatePlan)
    (rates : FeeRates) (reference : BookingReference) (createdAt : ℤ) (id : ℕ) : StaysBooking :=
  let subtotal := ratePlan.basePrice * bookingNightsBetween checkin checkout
  let fees := feesFromRates subtotal rates
  { id
    bookingReference := reference
    listingId := dto.listingId
    guestUserId := userId
    status := .paymentPending
    checkinDate := checkin
    checkoutDate := checkout
    guestCount := dto.guestCount
    totalSubtotal := subtotal
    guestFee := fees.guestFee
    hostFee := fees.hostFee
    totalPaid := some fees.totalPaid
    payoutAmount := some fees.payoutAmount
    currency := ratePlan.currency
    idempotencyKey := dto.key
    createdAt
    completedAt := none }

/-- The second half of the transaction, from the availability query on. -/
def reserve (userId : ℕ) (dto : CreateBookingDto) (listing : StaysListing)
    (checkin checkout : ℤ) : Stays StaysBooking := do
  let available ← isListingAvailable dto.listingId checkin checkout none
  require (available = true)
    (.conflict "Selected dates are no longer available. Please try different dates.")
  let ratePlan ← expect listing.ratePlan (.badRequest "Listing has no pricing configured")
  let rates ← Stays.read (·.settings)
  let year ← receive
  let reference ← allocateBookingReference year
  let createdAt ← receive
  let id ← Stays.insert fun id =>
    .booking (newBooking userId dto checkin checkout ratePlan rates reference createdAt id)
  -- the occupant rows: nothing modelled reads them back, but storing one may fail
  Stays.read fun _ => ()
  let withRelations ← Stays.read fun s => s.bookings.find? id
  pure (withRelations.getD
    (newBooking userId dto checkin checkout ratePlan rates reference createdAt id))

def createBookingTransaction (userId : ℕ) (dto : CreateBookingDto) : Stays StaysBooking := do
  let locked ← Stays.lockRow (.listing dto.listingId) fun s => s.listings.find? dto.listingId
  let _ ← expect locked (.notFound "Listing not found")
  let found ← Stays.read fun s => s.listings.find? dto.listingId
  let listing ← expect found (.notFound "Listing not found")
  require (listing.status = .live) (.badRequest "Listing is not available for booking")
  let maxGuests := listing.maxGuests.getD 50
  require (dto.guestCount ≤ maxGuests)
    (.badRequest s!"Guest count exceeds listing maximum of {maxGuests}")
  require (∀ n ∈ dto.occupants, n ≤ dto.guestCount)
    (.badRequest "Occupants list cannot exceed guest_count")
  let checkin ← ofExcept (parseBookingYmd dto.checkinDate)
  let checkout ← ofExcept (parseBookingYmd dto.checkoutDate)
  require (1 ≤ bookingNightsBetween checkin checkout)
    (.badRequest "Check-out must be at least one night after check-in.")
  let existingInTxn ← findByIdempotencyKey userId dto
  match existingInTxn with
  | none => reserve userId dto listing checkin checkout
  | some existing => do
    let loaded ← Stays.read fun s => s.bookings.find? existing.id
    match loaded with
    | some booking => pure booking
    | none => reserve userId dto listing checkin checkout

def createBooking (userId : ℕ) (dto : CreateBookingDto) (isVerified : Bool) :
    Stays StaysBooking := do
  require (isVerified = true) (.badRequest
    "Identity verification required to book. Complete KYC in Nexa Identity first.")
  let existing ← findByIdempotencyKey userId dto
  match existing with
  | some booking => pure booking
  | none => Stays.transaction (createBookingTransaction userId dto)

end NexaStays.CreateBooking
