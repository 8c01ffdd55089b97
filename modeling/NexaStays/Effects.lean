import NexaStays.Calls

/-!
# What the calls publish

The abstract system: one relation says which rows a call may make visible to the
others, and what is known of the store when it does. Everything the service does to
its committed tables, whether by a single statement or by a whole transaction, is one
of these effects.
-/
namespace NexaStays.Effects

open NexaStays.KeyedTable NexaStays.Transactions NexaStays.Database NexaStays.Money
  NexaStays.Availability NexaStays.Payments NexaStays.Cancellation NexaStays.Lifecycle
  NexaStays.Calls

/-- The guest's payment for the booking has been settled. -/
def Paid (s : Store) (bookingId : ℕ) : Prop := settledGuestPayment s bookingId ≠ []

instance (s : Store) (bookingId : ℕ) : Decidable (Paid s bookingId) :=
  inferInstanceAs (Decidable (settledGuestPayment s bookingId ≠ []))

theorem paid_iff {s : Store} {bookingId : ℕ} :
    Paid s bookingId ↔ ∃ e ∈ s.ledger.rows,
      e.bookingId = bookingId ∧ e.type = .guestPayment ∧ e.status = .settled := by
  simp [Paid, settledGuestPayment, List.eq_nil_iff_forall_not_mem, List.mem_filter]

def ledgerOf (s : Store) (bookingId : ℕ) : List StaysLedgerEntry :=
  s.ledger.rows.filter fun e => e.bookingId = bookingId

/-- The booking ended without a payment, and cannot be paid any more. -/
def ClosedUnpaid (s : Store) (bookingId : ℕ) : Prop :=
  ledgerOf s bookingId = [] ∧ ∃ b, s.bookings.find? bookingId = some b ∧
    b.status ∈ [BookingStatus.cancelledByGuest, .cancelledByHost, .expired]

/-- The prices of a booking as `createBooking` takes them from the fee breakdown. -/
structure Priced (b : StaysBooking) : Prop where
  total : b.totalPaid = some (b.totalSubtotal + b.guestFee)
  payout : b.payoutAmount = some (b.totalSubtotal - b.hostFee)

/-- What is known when a new booking is published. -/
structure NewBooking (s : Store) (b : StaysBooking) : Prop where
  fresh : s.bookings.find? b.id = none
  free : overlappingBookings s b.listingId b.checkinDate b.checkoutDate none = []
  dates : b.checkinDate < b.checkoutDate
  status : b.status = .paymentPending
  priced : Priced b

/-- A booking that the call asked for, on a listing it has locked. -/
structure Requested (c : Call) (held : List Key) (b : StaysBooking) : Prop where
  call : ∃ dto isVerified, c = .createBooking b.guestUserId dto isVerified ∧
    dto.listingId = b.listingId ∧ dto.key = b.idempotencyKey
  locked : .listing b.listingId ∈ held

/-- The guest has no booking with this key, if it is one. -/
def KeyUnused (s : Store) (guestUserId : ℕ) (key : Option String) : Prop :=
  key ≠ none → ∀ a ∈ s.bookings.rows, a.guestUserId = guestUserId → a.idempotencyKey ≠ key

/-- What is known when a new intent is published. -/
structure NewIntent (s : Store) (i : StaysPaymentIntent) : Prop where
  fresh : s.intents.find? i.id = none
  booking : ∃ b, s.bookings.find? i.bookingId = some b ∧ b.totalPaid = some i.amount
  positive : 0 < i.amount
  status : i.status = .pending
  metadata : i.metadata = {}
  order : i.provider = .cmi → ∃ n, i.providerIntentId = some (orderId i.bookingId n)

/-- The order at the gateway is one of an intent of the booking. -/
def OrderFor (s : Store) (oid : String) (bookingId : ℕ) : Prop :=
  ∃ i ∈ intentsOf .cmi oid s, i.bookingId = bookingId

instance (s : Store) (oid : String) (bookingId : ℕ) : Decidable (OrderFor s oid bookingId) :=
  inferInstanceAs (Decidable (∃ i ∈ intentsOf .cmi oid s, i.bookingId = bookingId))

/-- What is known when a message joins the gateway traffic. -/
def MessageKnown (s : Store) (oid : String) : CmiOp → Prop
  | .preAuth | .callback => True
  | .postAuth => ∃ bookingId, OrderFor s oid bookingId ∧ Paid s bookingId
  | .void => ∃ bookingId, OrderFor s oid bookingId ∧ ClosedUnpaid s bookingId
  | .credit => ∃ bookingId, OrderFor s oid bookingId ∧ refundsOf bookingId s ≠ []

/-- The gateway was asked to capture the order of the intent. -/
def CaptureAsked (s : Store) (i : StaysPaymentIntent) : Prop :=
  ∃ m ∈ s.gateway.rows, m.op = .postAuth ∧ i.providerIntentId = some m.oid

/-- A call that may confirm a payment of this order. -/
def Confirms (env : Env) (c : Call) (i : StaysPaymentIntent) : Prop :=
  ∃ oid, i.providerIntentId = some oid ∧ (c = .confirmPaymentSuccess i.provider oid ∨
    ∃ body, c = .handleCmiCallback body ∧ (verifyCallback env body).success = true ∧
      (verifyCallback env body).providerIntentId = some oid)

def cancelled (i : StaysPaymentIntent) : StaysPaymentIntent := { i with status := .cancelled }

/-- The cancelled rows of some `PENDING` intents. -/
def cancelWrites (is : List StaysPaymentIntent) : List Write := is.map fun i => .intent (cancelled i)

/-- These rows are in the table, `PENDING`, and listed once. -/
structure PendingRows (s : Store) (is : List StaysPaymentIntent) : Prop where
  row : ∀ i ∈ is, s.intents.find? i.id = some i
  pending : ∀ i ∈ is, i.status = .pending
  nodup : (is.map (·.id)).Nodup

/-- The ledger rows of a confirmed payment. -/
structure Settlement (i : StaysPaymentIntent) (b : StaysBooking) (gp pf hp : StaysLedgerEntry) :
    Prop where
  guestPayment : gp = ledgerEntry b .guestPayment i.amount .settled gp.id
  platformFee : pf = ledgerEntry b .platformFee (b.guestFee + b.hostFee) .settled pf.id
  hostPayout : hp = ledgerEntry b .hostPayout (b.payoutAmount.getD 0) .pending hp.id
  distinct : gp.id ≠ pf.id ∧ gp.id ≠ hp.id ∧ pf.id ≠ hp.id

/-- The refund a cancellation records, if it records one. -/
structure RefundRule (s : Store) (b : StaysBooking) (now : ℤ) (refund : Option StaysLedgerEntry) :
    Prop where
  entry : ∀ e ∈ refund, s.ledger.find? e.id = none ∧ Paid s b.id ∧ refundsOf b.id s = [] ∧
    0 < e.amount ∧ e = ledgerEntry b .refund
      (theoreticalRefund b (s.listings.find? b.listingId) now) .pending e.id
  none : refund = none → Paid s b.id → refundsOf b.id s ≠ [] ∨
    theoreticalRefund b (s.listings.find? b.listingId) now ≤ 0

/-- The publications of a call `c` that holds the locks `held`, from the store `s`.
With `strict`, no two calls create bookings of one key on two listings at a time. -/
inductive Effect (env : Env) (strict : Prop) (c : Call) (held : List Key) (s : Store) :
    List Write → Prop where
  | book {counter : BookingRefCounter} {b : StaysBooking} (requested : Requested c held b)
      (new : NewBooking s b) (unused : strict → KeyUnused s b.guestUserId b.idempotencyKey) :
      Effect env strict c held s [.refCounter counter, .booking b]
  | openIntent {i : StaysPaymentIntent} (new : NewIntent s i) :
      Effect env strict c held s [.intent i]
  | expire {b : StaysBooking} (row : s.bookings.find? b.id = some b)
      (status : b.status ∈ preConfirmationBookingStatuses) :
      Effect env strict c held s [.booking { b with status := .expired }]
  | dropIntents {is : List StaysPaymentIntent} (rows : PendingRows s is) :
      Effect env strict c held s (cancelWrites is)
  | confirm {i : StaysPaymentIntent} {b : StaysBooking} {gp pf hp : StaysLedgerEntry}
      (caller : Confirms env c i) (intent : s.intents.find? i.id = some i)
      (booking : s.bookings.find? b.id = some b) (ofBooking : i.bookingId = b.id)
      (status : b.status = .paymentPending) (settlement : Settlement i b gp pf hp)
      (fresh : ∀ e ∈ [gp, pf, hp], s.ledger.find? e.id = none) :
      Effect env strict c held s [.intent { i with status := .succeeded },
        .booking { b with status := .confirmed }, .ledger gp, .ledger pf, .ledger hp]
  | markPaid {i : StaysPaymentIntent} (intent : s.intents.find? i.id = some i)
      (paid : Paid s i.bookingId) : Effect env strict c held s [.intent { i with status := .succeeded }]
  | reject {i : StaysPaymentIntent} {b : StaysBooking} (intent : s.intents.find? i.id = some i)
      (unpaid : i.status ≠ .succeeded) (booking : s.bookings.find? b.id = some b)
      (status : b.status = .paymentPending) :
      Effect env strict c held s
        [.intent { i with status := .failed }, .booking { b with status := .expired }]
  | cancel {b : StaysBooking} {by' : CancelledBy} {userId : ℕ} {now : ℤ}
      {refund : Option StaysLedgerEntry} {is : List StaysPaymentIntent}
      (request : c = .cancel b.id userId by' now) (booking : s.bookings.find? b.id = some b)
      (status : b.status ∉ nonCancellable) (rule : RefundRule s b now refund)
      (rows : PendingRows s is) :
      Effect env strict c held s
        (.booking { b with status := by'.status } :: (refund.toList.map .ledger ++ cancelWrites is))
  | complete {b : StaysBooking} {completedAt : ℤ} (row : s.bookings.find? b.id = some b)
      (paid : Paid s b.id) : Effect env strict c held s
        [.booking { b with status := .completed, completedAt := some completedAt }]
  | review {stay : Option StaysBooking} {completedAt : ℤ} {r : StaysListingReview}
      {reviewed : Option StaysListing} {aggregates : ReviewAggregates}
      (booking : ∀ b ∈ stay, s.bookings.find? b.id = some b ∧ Paid s b.id)
      (listing : ∀ l ∈ reviewed, s.listings.find? l.id = some l) :
      Effect env strict c held s
        ((stay.toList.map fun b =>
            .booking { b with status := .completed, completedAt := some completedAt }) ++
          .review r :: reviewed.toList.map fun l => .listing { l with aggregates })
  | message {op : CmiOp} {oid : String} {amount : Option ℤ} {delivered : Bool}
      (known : MessageKnown s oid op) :
      Effect env strict c held s [.gateway (gatewayMessage op oid amount delivered s)]
  | patch {i : StaysPaymentIntent} {metadata : IntentMetadata}
      (row : s.intents.find? i.id = some i)
      (asked : metadata.cmiCaptureStatus = some .succeeded → CaptureAsked s i) :
      Effect env strict c held s [.intent { i with metadata }]
  | settleRefund {e : StaysLedgerEntry} (row : s.ledger.find? e.id = some e)
      (type : e.type = .refund) : Effect env strict c held s [.ledger { e with status := .settled }]
  | hostBlock {rows : List StaysAvailabilityBlock} :
      Effect env strict c held s (rows.map .block)

end NexaStays.Effects
