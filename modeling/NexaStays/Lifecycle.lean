import NexaStays.Payments
import NexaStays.SqlText

/-!
# The end of a booking

The scheduled jobs that expire unpaid holds and complete past stays, and the guest's
review, which completes a stay on the way.
-/
namespace NexaStays.Lifecycle

open NexaStays.Transactions NexaStays.Database NexaStays.Money NexaStays.Payments

open NexaStays.Transactions.Program (require expect receive attempt forEach)

/-- The holds whose time to live has passed; `now` is the instant of the job. -/
def expiredHolds (env : Env) (now : ℤ) (s : Store) : List StaysBooking :=
  (s.bookings.rows.filter fun b => b.status ∈ preConfirmationBookingStatuses).filter
    fun b => b.createdAt ≤ now - env.paymentPendingTtlMinutes * 60000

/-- The order of an intent at the gateway. -/
def cmiOrder (intent : StaysPaymentIntent) : Option String :=
  if intent.provider = .cmi then intent.providerIntentId else none

def expireBooking (env : Env) (bookingId : ℕ) : Stays Unit := do
  let affected ← Stays.update (expireHold bookingId)
  if affected = [] then pure ()
  else do
    let pendingIntents ← Stays.read fun s => s.intents.rows.filter fun i =>
      i.bookingId = bookingId ∧ i.status = .pending
    forEach (fun oid => attempt (voidCmiPreAuth oid) fun _ => pure ())
      (if env.isMockPaymentProvider then [] else pendingIntents.filterMap cmiOrder)
    let _ ← Stays.update (cancelPendingIntents bookingId)
    pure ()

def expirePendingPayments (env : Env) (now : ℤ) : Stays Unit := do
  let expired ← Stays.read (expiredHolds env now)
  forEach (fun booking => attempt (expireBooking env booking.id) fun _ => pure ()) expired

/-- `In(['CONFIRMED', 'CHECKED_IN'])`. -/
def paidCompleteStatuses : List BookingStatus := [.confirmed, .checkedIn]

/-- `update({ id }, { status: 'COMPLETED', completed_at })`, whatever the status is. -/
def completeBooking (bookingId : ℕ) (completedAt : ℤ) : Store → List Write :=
  updateBooking bookingId (fun _ => true)
    fun b => { b with status := .completed, completedAt := some completedAt }

def completeStay (bookingId : ℕ) : Stays Unit := do
  let completedAt ← receive
  let _ ← Stays.update (completeBooking bookingId completedAt)
  pure ()

/-- The UTC day of an instant. -/
def utcDay (instant : ℤ) : ℤ := instant / dayMs

/-- Stays whose check-out day lies before the UTC day of the local midnight. -/
def pastStays (env : Env) (now : ℤ) (s : Store) : List StaysBooking :=
  s.bookings.rows.filter fun b =>
    b.status ∈ paidCompleteStatuses ∧ b.checkoutDate < utcDay (env.startOfDay now)

def autoCompletePastStays (env : Env) (now : ℤ) : Stays Unit := do
  let candidates ← Stays.read (pastStays env now)
  forEach (fun booking => attempt (completeStay booking.id) fun _ => pure ()) candidates

/-- `Number(hourPart) || 11` and `Number(minutePart) || 0`, in local time; `none` is an
invalid date. -/
def parseCheckoutDateTime (env : Env) (checkoutDate : ℤ) (time : CheckoutTime) : Option ℤ :=
  let hour := time.hour.getD 0
  env.localDateTime checkoutDate (if hour = 0 then 11 else hour) (time.minute.getD 0)

/-- The listing's time of check-out, 11:00 without a listing. -/
def checkoutTimeOf (listing : Option StaysListing) : CheckoutTime :=
  (listing.map (·.checkoutTime)).getD ⟨some 11, some 0⟩

/-- Stays that check out today and are past their time of check-out: the comparison
with an invalid date does not skip. -/
def checkoutDayStays (env : Env) (now : ℤ) (s : Store) : List StaysBooking :=
  s.bookings.rows.filter fun b =>
    b.status ∈ paidCompleteStatuses ∧ b.checkoutDate = utcDay now ∧
      ∀ at' ∈ parseCheckoutDateTime env b.checkoutDate
        (checkoutTimeOf (s.listings.find? b.listingId)), at' ≤ now

def finalizeCheckoutDayStays (env : Env) (now : ℤ) : Stays Unit := do
  let bookings ← Stays.read (checkoutDayStays env now)
  forEach (fun booking => attempt (completeStay booking.id) fun _ => pure ()) bookings

inductive BookingLifecycle where
  | upcoming | active | completed | pendingPayment | cancelled | expired
  deriving DecidableEq, Repr

/-- `new Date(value)` of a date column, set to local midnight. -/
def parseDateOnly (env : Env) (day : ℤ) : ℤ := env.startOfDay (day * dayMs)

def isPaymentExpired (env : Env) (booking : StaysBooking) (now : ℤ) : Bool :=
  booking.status ∈ preConfirmationBookingStatuses ∧
    booking.createdAt + env.paymentPendingTtlMinutes * 60000 ≤ now

def computeLifecycle (env : Env) (booking : StaysBooking) (now : ℤ) : BookingLifecycle :=
  let today := env.startOfDay now
  let checkin := parseDateOnly env booking.checkinDate
  let checkout := parseDateOnly env booking.checkoutDate
  match booking.status with
  | .expired => .expired
  | .cancelledByGuest | .cancelledByHost => .cancelled
  | .paymentPending | .initiated =>
    if isPaymentExpired env booking now then .expired else .pendingPayment
  | .completed => .completed
  | .confirmed | .checkedIn =>
    if checkout ≤ today then .completed
    else if checkin ≤ today then .active
    else .upcoming

def canReview (env : Env) (booking : StaysBooking) (listing : Option StaysListing) (now : ℤ) :
    Bool :=
  computeLifecycle env booking now = .completed ∧
    ∀ l ∈ listing, l.hostUserId ≠ booking.guestUserId

/-- Half stars from one to ten, in the tenths of the column. -/
def validateRating (rating : ℚ) : Option ℤ :=
  let halves := ⌊rating * 2 + 1 / 2⌋
  if 1 ≤ halves ∧ halves ≤ 10 then some (5 * halves) else none

def reviewableListingStatuses : List ListingStatus := [.live, .paused, .approved]

/-- A stay that is over is completed, again whatever its status is by now. -/
def completeReviewed (booking : StaysBooking) (now : ℤ) : Stays Unit :=
  if booking.status ∈ paidCompleteStatuses then do
    let _ ← Stays.update (completeBooking booking.id (booking.completedAt.getD now))
    pure ()
  else pure ()

/-- The booking under review with its listing. -/
def assertCanReview (env : Env) (guestUserId bookingId : ℕ) (now : ℤ) :
    Stays (StaysBooking × StaysListing) := do
  let found ← Stays.read fun s =>
    (s.bookings.find? bookingId).map fun b => (b, s.listings.find? b.listingId)
  let loaded ← expect found (.notFound "Booking not found")
  let booking := loaded.1
  require (booking.guestUserId = guestUserId) (.forbidden "ReviewNotAllowed")
  require (canReview env booking loaded.2 now = true) (.forbidden "ReviewNotAllowed")
  completeReviewed booking now
  let listing ← expect (loaded.2.filter fun l => l.status ∈ reviewableListingStatuses)
    (.forbidden "ReviewNotAllowed")
  require (listing.hostUserId ≠ guestUserId) (.forbidden "ReviewOwnListingNotAllowed")
  let existing ← Stays.read fun s => s.reviews.rows.filter fun r => r.bookingId = bookingId
  require (existing = []) (.conflict "ReviewAlreadyExists")
  pure (booking, listing)

def ratingBucket (rating : ℤ) : ℤ := min 5 (max 1 (mathRound rating 10))

/-- The aggregates of the published reviews of a listing. -/
def aggregatesOf (reviews : List StaysListingReview) : ReviewAggregates :=
  { reviewCount := reviews.length
    avgRating := if reviews = [] then none
      else some (mathRound (10 * (reviews.map (·.rating)).sum) reviews.length)
    ratings := [1, 2, 3, 4, 5].map fun bucket =>
      (reviews.filter fun r => ratingBucket r.rating = bucket).length }

def recalculateForListing (listingId : ℕ) : Stays Unit := do
  let rows ← Stays.read fun s => s.reviews.rows.filter fun r =>
    r.listingId = listingId ∧ r.status = .published
  let _ ← Stays.update fun s => (s.listings.find? listingId).toList.map fun l =>
    .listing { l with aggregates := aggregatesOf rows }
  pure ()

/-- The row that is inserted. -/
def newReview (booking : StaysBooking) (listing : StaysListing) (guestUserId : ℕ) (rating : ℤ)
    (comment : String) (id : ℕ) : StaysListingReview :=
  { id
    listingId := booking.listingId
    bookingId := booking.id
    guestUserId
    hostUserId := listing.hostUserId
    rating
    comment := if comment = "" then none else some comment
    status := .published }

/-- The comment is the trimmed one; the media rows are not modelled, but storing one
may fail. -/
def createReview (env : Env) (guestUserId bookingId : ℕ) (rating : ℚ) (comment : String)
    (now : ℤ) : Stays StaysListingReview := do
  let stars ← expect (validateRating rating)
    (.badRequest "Rating must be in 0.5 increments between 0.5 and 5")
  require (SqlText.utf16Length comment ≤ 1000) (.badRequest "Comment is too long (max 1000 characters)")
  Stays.transaction do
    let loaded ← assertCanReview env guestUserId bookingId now
    let id ← Stays.insert fun id =>
      .review (newReview loaded.1 loaded.2 guestUserId stars comment id)
    Stays.read fun _ => ()
    recalculateForListing loaded.1.listingId
    pure (newReview loaded.1 loaded.2 guestUserId stars comment id)

end NexaStays.Lifecycle
