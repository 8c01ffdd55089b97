import NexaStays.Payments

/-!
# Cancelling a booking

`StaysCancellationService.cancel`: the refund is computed from what was read at the
start, the ledger is changed under the lock of the booking, and the gateway is asked
for the refund, or for the release of unpaid authorisations, after the commit.
-/
namespace NexaStays.Cancellation

open NexaStays.Transactions NexaStays.Database NexaStays.Money NexaStays.Payments

open NexaStays.Transactions.Program (require expect attempt forEach)

inductive CancelledBy where
  | guest | host
  deriving DecidableEq, Repr

def CancelledBy.status : CancelledBy → BookingStatus
  | .guest => .cancelledByGuest
  | .host => .cancelledByHost

/-- What a cancellation leaves. -/
def cancelledStatuses : List BookingStatus := [.cancelledByGuest, .cancelledByHost]

/-- The status as the column holds it. -/
def statusText : BookingStatus → String
  | .initiated => "INITIATED"
  | .paymentPending => "PAYMENT_PENDING"
  | .confirmed => "CONFIRMED"
  | .checkedIn => "CHECKED_IN"
  | .completed => "COMPLETED"
  | .cancelledByGuest => "CANCELLED_BY_GUEST"
  | .cancelledByHost => "CANCELLED_BY_HOST"
  | .expired => "EXPIRED"

def nonCancellable : List BookingStatus :=
  [.completed, .cancelledByGuest, .cancelledByHost, .expired]

/-- From now to the midnight, in UTC, that starts the day of check-in. -/
def hoursToCheckin (checkinDate now : ℤ) : ℚ := (checkinDate * dayMs - now : ℤ) / 3600000

/-- The policy of the listing, `MODERATE` where there is none. -/
def policyOf (listing : Option StaysListing) : CancellationPolicy :=
  (listing.bind (·.cancellationPolicy)).getD .moderate

/-- The refund a paid booking would get. -/
def theoreticalRefund (booking : StaysBooking) (listing : Option StaysListing) (now : ℤ) : ℤ :=
  calculateRefund (policyOf listing) (hoursToCheckin booking.checkinDate now)
    booking.totalSubtotal booking.guestFee

/-- What the transaction hands to the gateway part. -/
structure CancelOutcome where
  refundAmount : ℤ
  hadSettledGuestPayment : Bool
  cmiVoidCandidates : List String
  deriving DecidableEq, Repr

structure CancelResult where
  id : ℕ
  status : BookingStatus
  refundAmount : ℤ
  deriving DecidableEq, Repr

def refundsOf (bookingId : ℕ) (s : Store) : List StaysLedgerEntry :=
  s.ledger.rows.filter fun e => e.bookingId = bookingId ∧ e.type = .refund

/-- A `REFUND` only beside a settled `GUEST_PAYMENT`, and only one. -/
def recordRefund (booking : StaysBooking) (paid : Bool) (refund : ℤ) : Stays ℤ := do
  let existingRefund ← Stays.read fun s => if paid then refundsOf booking.id s else []
  if paid = true ∧ existingRefund = [] ∧ 0 < refund then do
    let _ ← Stays.insert fun id => .ledger (ledgerEntry booking .refund refund .pending id)
    pure refund
  else pure 0

/-- The unpaid authorisations of a booking. -/
def openCmiIntents (bookingId : ℕ) (s : Store) : List StaysPaymentIntent :=
  s.intents.rows.filter fun i =>
    i.bookingId = bookingId ∧ i.provider = .cmi ∧ (i.status = .pending ∨ i.status = .failed)

def cancelTransaction (booking : StaysBooking) (status : BookingStatus) (refund : ℤ) :
    Stays CancelOutcome := do
  let found ← Stays.lockRow (.booking booking.id) fun s => s.bookings.find? booking.id
  let lockedBooking ← expect found (.notFound "Booking not found")
  require (lockedBooking.status ∉ nonCancellable)
    (.badRequest s!"Cannot cancel booking in status {statusText lockedBooking.status}")
  let affected ← Stays.update (updateBooking booking.id
    (fun b => b.status = lockedBooking.status) fun b => { b with status })
  require (affected ≠ []) (.conflict "Booking status changed concurrently")
  let settled ← Stays.read fun s => settledGuestPayment s booking.id
  let paid : Bool := settled ≠ []
  let refundAmount ← recordRefund booking paid refund
  let openCmi ← Stays.read fun s => if paid then [] else openCmiIntents booking.id s
  let _ ← Stays.update (cancelPendingIntents booking.id)
  pure { refundAmount, hadSettledGuestPayment := paid,
         cmiVoidCandidates := openCmi.filterMap (·.providerIntentId) }

/-- The gateway side of a cancellation; a failure there is only logged. -/
def cancelAtGateway (env : Env) (bookingId : ℕ) (outcome : CancelOutcome) : Stays Unit :=
  if env.isMockPaymentProvider then pure ()
  else if outcome.hadSettledGuestPayment = true ∧ 0 < outcome.refundAmount then
    attempt (do
      let _ ← refundCmiForBooking bookingId outcome.refundAmount
      pure ()) fun _ => pure ()
  else forEach (fun oid => attempt (voidCmiPreAuth oid) fun _ => pure ()) outcome.cmiVoidCandidates

def cancel (env : Env) (bookingId userId : ℕ) (cancelledBy : CancelledBy) (now : ℤ) :
    Stays CancelResult := do
  let found ← Stays.read fun s =>
    (s.bookings.find? bookingId).map fun b => (b, s.listings.find? b.listingId)
  let loaded ← expect found (.notFound "Booking not found")
  let booking := loaded.1
  let isGuest : Bool := booking.guestUserId = userId
  let isHost : Bool := loaded.2.any fun l => l.hostUserId = userId
  require (isGuest ∨ isHost) (.notFound "Booking not found")
  require (cancelledBy = .guest → isGuest) (.badRequest "Only the guest can cancel as guest")
  require (cancelledBy = .host → isHost) (.badRequest "Only the host can cancel as host")
  require (booking.status ∉ nonCancellable)
    (.badRequest s!"Cannot cancel booking in status {statusText booking.status}")
  let refund := theoreticalRefund booking loaded.2 now
  let outcome ← Stays.transaction (cancelTransaction booking cancelledBy.status refund)
  cancelAtGateway env bookingId outcome
  let updated ← Stays.read fun s => s.bookings.find? bookingId
  let row ← expect updated (.internal "Cannot read properties of null (reading 'id')")
  pure { id := row.id, status := row.status, refundAmount := outcome.refundAmount }

end NexaStays.Cancellation
