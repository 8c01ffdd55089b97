import NexaStays.Availability

/-!
# Payment intents and their confirmation

`StaysPaymentsService`: opening an intent, the confirmation path shared by every
provider, and the capture, void and refund requests to the gateway that run after
its transaction.
-/
namespace NexaStays.Payments

open NexaStays.Transactions NexaStays.Database NexaStays.Money NexaStays.Availability

open NexaStays.Transactions.Program (require expect receive attempt forEach)

/-- `UPDATE … SET f WHERE id AND p`, on one booking. -/
def updateBooking (id : ℕ) (p : StaysBooking → Bool) (f : StaysBooking → StaysBooking)
    (s : Store) : List Write :=
  ((s.bookings.find? id).toList.filter p).map fun b => .booking (f b)

/-- `UPDATE … SET f WHERE p`, on the payment intents. -/
def updateIntents (p : StaysPaymentIntent → Bool) (f : StaysPaymentIntent → StaysPaymentIntent)
    (s : Store) : List Write :=
  (s.intents.rows.filter p).map fun i => .intent (f i)

/-- `PRE_CONFIRMATION_BOOKING_STATUSES`. -/
def preConfirmationBookingStatuses : List BookingStatus := [.paymentPending, .initiated]

/-- `CONFIRMED_BOOKING_STATUSES`. -/
def confirmedBookingStatuses : List BookingStatus := [.confirmed, .checkedIn, .completed]

/-- A hold ends, unless the booking has left the states before confirmation. -/
def expireHold (bookingId : ℕ) : Store → List Write :=
  updateBooking bookingId (fun b => b.status ∈ preConfirmationBookingStatuses)
    fun b => { b with status := .expired }

/-- The `PENDING` intents of a booking must not remain payable. -/
def cancelPendingIntents (bookingId : ℕ) : Store → List Write :=
  updateIntents (fun i => i.bookingId = bookingId ∧ i.status = .pending)
    fun i => { i with status := .cancelled }

def setIntentStatus (id : ℕ) (status : IntentStatus) : Store → List Write :=
  updateIntents (fun i => i.id = id) fun i => { i with status }

/-- `patchIntentMetadata`: the whole column is overwritten. -/
def patchIntentMetadata (id : ℕ) (metadata : IntentMetadata) : Stays (List Write) :=
  Stays.update (updateIntents (fun i => i.id = id) fun i => { i with metadata })

/-- A settled `GUEST_PAYMENT` of the booking. -/
def settledGuestPayment (s : Store) (bookingId : ℕ) : List StaysLedgerEntry :=
  s.ledger.rows.filter fun e =>
    e.bookingId = bookingId ∧ e.type = .guestPayment ∧ e.status = .settled

/-- An order has at most one authorisation; it is open until it is captured or voided. -/
def preAuthOpen (s : Store) (oid : String) : Bool :=
  s.gateway.rows.any (fun m => m.oid = oid ∧ m.op = .preAuth ∧ m.accepted) &&
    !s.gateway.rows.any fun m => m.oid = oid ∧ (m.op = .postAuth ∨ m.op = .void) ∧ m.accepted

/-- What the gateway does with a message. -/
def gatewayAccepts (s : Store) (oid : String) : CmiOp → Bool
  | .preAuth => !s.gateway.rows.any fun m => m.oid = oid ∧ m.op = .preAuth ∧ m.accepted
  | .callback => true
  | .postAuth | .void => preAuthOpen s oid
  | .credit => s.gateway.rows.any fun m => m.oid = oid ∧ m.op = .postAuth ∧ m.accepted

/-- The next message of the traffic; one that is not delivered is not accepted. -/
def gatewayMessage (op : CmiOp) (oid : String) (amount : Option ℤ) (delivered : Bool)
    (s : Store) : GatewayMessage :=
  { seq := s.gateway.rows.length, op, oid, amount
    accepted := delivered && gatewayAccepts s oid op }

def sendToGateway (op : CmiOp) (oid : String) (amount : Option ℤ) (delivered : Bool) :
    Stays GatewayMessage :=
  Program.send (fun s => [.gateway (gatewayMessage op oid amount delivered s)])
    (gatewayMessage op oid amount delivered)

/-- `merchantRequest`: whether the answer read was a success. A network error reads as
a failure, whether the request reached the gateway or not. -/
def merchantRequest (op : CmiOp) (oid : String) (amount : Option ℤ) : Stays Bool := do
  let network ← receive
  let message ← sendToGateway op oid amount (network != 0)
  pure (network == 1 && message.accepted)

def cmiStatus (ok : Bool) : CmiStatus := if ok then .succeeded else .failed

/-- The intents of an order at a provider. -/
def intentsOf (provider : Provider) (oid : String) (s : Store) : List StaysPaymentIntent :=
  s.intents.rows.filter fun i => i.provider = provider ∧ i.providerIntentId = some oid

/-- `captureCmiAfterConfirm`, once the intent is at hand. -/
def captureIntent (oid : String) (intent : StaysPaymentIntent) : Stays Unit :=
  if intent.metadata.cmiCaptureStatus = some .succeeded then pure ()
  else do
    let ok ← merchantRequest .postAuth oid (some intent.amount)
    let _ ← patchIntentMetadata intent.id
      { intent.metadata with cmiCaptureStatus := some (cmiStatus ok) }
    pure ()

def captureCmiAfterConfirm (oid : String) (intentRow : Option StaysPaymentIntent) :
    Stays Unit :=
  match intentRow with
  | some intent => captureIntent oid intent
  | none => do
    let found ← Stays.findOne (intentsOf .cmi oid)
    match found with
    | some intent => captureIntent oid intent
    | none => pure ()

def voidCmiPreAuth (oid : String) : Stays Unit :=
  if oid = "" then pure ()
  else do
    let ok ← merchantRequest .void oid none
    let found ← Stays.findOne (intentsOf .cmi oid)
    match found with
    | none => pure ()
    | some intent => do
      let _ ← patchIntentMetadata intent.id
        { intent.metadata with cmiVoidStatus := some (cmiStatus ok) }
      pure ()

/-- The succeeded gateway intents of a booking that no other was created after. -/
def newestCmiIntents (bookingId : ℕ) (s : Store) : List StaysPaymentIntent :=
  let paid := s.intents.rows.filter fun i =>
    i.bookingId = bookingId ∧ i.provider = .cmi ∧ i.status = .succeeded
  paid.filter fun i => paid.all fun j => j.createdAt ≤ i.createdAt

/-- The accepted refund settles the ledger row. -/
def settleRefund (bookingId : ℕ) : Stays Unit := do
  let pendingRefund ← Stays.findOne fun s => s.ledger.rows.filter fun e =>
    e.bookingId = bookingId ∧ e.type = .refund ∧ e.status = .pending
  match pendingRefund with
  | none => pure ()
  | some entry => do
    let _ ← Stays.update fun s => (s.ledger.find? entry.id).toList.map fun e =>
      .ledger { e with status := .settled }
    pure ()

def refundCmiForBooking (bookingId : ℕ) (refundAmount : ℤ) : Stays Bool :=
  if refundAmount ≤ 0 then pure false
  else do
    let found ← Stays.findOne (newestCmiIntents bookingId)
    match found with
    | none => pure false
    | some intent =>
      match intent.providerIntentId with
      | none => pure false
      | some oid => do
        let ok ← merchantRequest .credit oid (some refundAmount)
        let _ ← patchIntentMetadata intent.id
          { intent.metadata with cmiRefundStatus := some (cmiStatus ok) }
        if ok then do
          settleRefund bookingId
          pure true
        else pure false

/-- The order id `createOrder` gives the gateway. -/
def orderId (bookingId now : ℕ) : String := s!"STAYS-{bookingId}-{now}"

def mockIntentId (now random : ℕ) : String := s!"mock_{now}_{random}"

def newIntent (env : Env) (booking : StaysBooking) (amount : ℤ) (idempotencyKey : Option String)
    (now random createdAt id : ℕ) : StaysPaymentIntent :=
  { id
    bookingId := booking.id
    provider := if env.isMockPaymentProvider then .mock else .cmi
    providerIntentId := some
      (if env.isMockPaymentProvider then mockIntentId now random else orderId booking.id now)
    amount
    currency := booking.currency
    status := .pending
    idempotencyKey
    metadata := {}
    createdAt }

/-- The rest of `createOrGetIntent` when no intent can be handed out again. -/
def openIntent (env : Env) (booking : StaysBooking) (idempotencyKey : Option String) :
    Stays StaysPaymentIntent := do
  let totalPaid ← expect (lockIntentAmount (booking.totalPaid.getD 0))
    (.badRequest "Booking total must be greater than zero")
  let now ← receive
  let random ← receive
  let createdAt ← receive
  let id ← Stays.insert fun id =>
    .intent (newIntent env booking totalPaid idempotencyKey now random createdAt id)
  pure (newIntent env booking totalPaid idempotencyKey now random createdAt id)

/-- `if (idempotencyKey)`: an empty key counts as none. -/
def truthy (key : Option String) : Option String := key.filter (· ≠ "")

def intentWithKey (bookingId : ℕ) (idempotencyKey : Option String) :
    Stays (Option StaysPaymentIntent) :=
  match truthy idempotencyKey with
  | none => pure none
  | some key => Stays.findOne fun s => s.intents.rows.filter fun i =>
    i.bookingId = bookingId ∧ i.idempotencyKey = some key

/-- A pending intent is handed out again, but not to a request with another key. -/
def pendingOrOpenIntent (env : Env) (booking : StaysBooking) (idempotencyKey : Option String) :
    Stays StaysPaymentIntent := do
  let pendingIntent ← Stays.findOne fun s => s.intents.rows.filter fun i =>
    i.bookingId = booking.id ∧ i.status = .pending
  match pendingIntent with
  | none => openIntent env booking idempotencyKey
  | some intent => do
    require (truthy idempotencyKey = none ∨ intent.idempotencyKey = idempotencyKey)
      (.conflict "A payment is already in progress for this booking.")
    pure intent

def getOrOpenIntent (env : Env) (booking : StaysBooking) (idempotencyKey : Option String) :
    Stays StaysPaymentIntent := do
  let existing ← intentWithKey booking.id idempotencyKey
  match existing with
  | some intent => pure intent
  | none => pendingOrOpenIntent env booking idempotencyKey

def createOrGetIntent (env : Env) (bookingId guestUserId : ℕ) (idempotencyKey : Option String) :
    Stays StaysPaymentIntent := do
  let found ← Stays.read fun s => s.bookings.find? bookingId
  let booking ← expect found (.notFound "Booking not found")
  require (booking.guestUserId = guestUserId) (.notFound "Booking not found")
  require (booking.status = .paymentPending) (.badRequest "Booking is not awaiting payment")
  let available ← isListingAvailable booking.listingId booking.checkinDate booking.checkoutDate
    (some booking.id)
  if available then getOrOpenIntent env booking idempotencyKey
  else do
    let _ ← Stays.update (expireHold booking.id)
    let _ ← Stays.update (cancelPendingIntents booking.id)
    .throw (.conflict "Selected dates are no longer available. Please try different dates.")

inductive PaymentConfirmationOutcome where
  | intentNotFound | alreadyProcessed | bookingNotPayable | datesUnavailable | confirmed
  deriving DecidableEq, Repr

def confirmationAmounts (intent : StaysPaymentIntent) (booking : StaysBooking) :
    ConfirmationAmounts :=
  { guestPayment := intent.amount
    platformFee := booking.guestFee + booking.hostFee
    hostPayout := booking.payoutAmount.getD 0
    guestFee := booking.guestFee
    hostFee := booking.hostFee }

def ledgerEntry (booking : StaysBooking) (type : EntryType) (amount : ℤ) (status : EntryStatus)
    (id : ℕ) : StaysLedgerEntry :=
  { id, bookingId := booking.id, type, amount, currency := booking.currency, status }

/-- The part of the transaction that pays the booking. -/
def recordPayment (intent : StaysPaymentIntent) (booking : StaysBooking) :
    Stays PaymentConfirmationOutcome :=
  let amounts := confirmationAmounts intent booking
  match checkConfirmationLedgerInvariant amounts with
  | .error reason => .throw (.internal s!"FINANCIAL_INVARIANT_VIOLATION:{reason}")
  | .ok () => do
    let _ ← Stays.update (setIntentStatus intent.id .succeeded)
    let affected ← Stays.update (updateBooking booking.id (fun b => b.status = .paymentPending)
      fun b => { b with status := .confirmed })
    if affected = [] then pure .bookingNotPayable
    else do
      let _ ← Stays.insert fun id =>
        .ledger (ledgerEntry booking .guestPayment amounts.guestPayment .settled id)
      let _ ← Stays.insert fun id =>
        .ledger (ledgerEntry booking .platformFee amounts.platformFee .settled id)
      let _ ← Stays.insert fun id =>
        .ledger (ledgerEntry booking .hostPayout amounts.hostPayout .pending id)
      -- the conversation of the booking, provisioned in the same transaction
      Stays.read fun _ => ()
      pure .confirmed

/-- The part of the transaction under the lock of a booking that awaits payment. -/
def confirmBooking (intent : StaysPaymentIntent) (booking : StaysBooking) :
    Stays PaymentConfirmationOutcome := do
  Stays.lockRow (.listing booking.listingId) fun _ => ()
  let stillAvailable ← isListingAvailable booking.listingId booking.checkinDate
    booking.checkoutDate (some booking.id)
  if stillAvailable then recordPayment intent booking
  else do
    let _ ← Stays.update (setIntentStatus intent.id .failed)
    let _ ← Stays.update (updateBooking booking.id (fun b => b.status = .paymentPending)
      fun b => { b with status := .expired })
    pure .datesUnavailable

/-- The part of the transaction under the lock of an intent that has not succeeded. -/
def settleIntent (intent : StaysPaymentIntent) : Stays PaymentConfirmationOutcome := do
  let existingLedger ← Stays.read fun s => settledGuestPayment s intent.bookingId
  if existingLedger ≠ [] then do
    let _ ← Stays.update (setIntentStatus intent.id .succeeded)
    pure .alreadyProcessed
  else do
    let lockedBooking ← Stays.lockRow (.booking intent.bookingId) fun s =>
      s.bookings.find? intent.bookingId
    match lockedBooking with
    | none => pure .bookingNotPayable
    | some booking =>
      if booking.status = .paymentPending then confirmBooking intent booking
      else if booking.status ∈ confirmedBookingStatuses then pure .alreadyProcessed
      else pure .bookingNotPayable

def confirmTransaction (intentId : ℕ) : Stays PaymentConfirmationOutcome := do
  let lockedIntent ← Stays.lockRow (.intent intentId) fun s => s.intents.find? intentId
  match lockedIntent with
  | none => pure .alreadyProcessed
  | some intent =>
    if intent.status = .succeeded then pure .alreadyProcessed else settleIntent intent

/-- Capture or void, after the ledger transaction has committed. -/
def afterConfirmation (provider : Provider) (oid : String) (intent : StaysPaymentIntent)
    (outcome : PaymentConfirmationOutcome) : Stays Unit :=
  match provider, outcome with
  | .cmi, .confirmed => captureCmiAfterConfirm oid (some intent)
  | .cmi, .alreadyProcessed => captureCmiAfterConfirm oid none
  | .cmi, .datesUnavailable => voidCmiPreAuth oid
  | _, _ => pure ()

def confirmPaymentSuccess (provider : Provider) (oid : String) :
    Stays PaymentConfirmationOutcome := do
  let found ← Stays.findOne (intentsOf provider oid)
  match found with
  | none => pure .intentNotFound
  | some intent => do
    let outcome ← Stays.transaction (confirmTransaction intent.id)
    afterConfirmation provider oid intent outcome
    pure outcome

/-- The members of the callback's body that are read, in either spelling. -/
structure CallbackBody where
  oid : Option String
  OID : Option String
  amount : Option String
  ProcReturnCode : Option String
  procReturnCode : Option String
  HASH : Option String
  hash : Option String
  deriving DecidableEq, Repr

structure CallbackVerdict where
  valid : Bool
  providerIntentId : Option String
  success : Bool
  deriving DecidableEq, Repr

/-- `[oid, storeKey, procReturnCode, amount].join('|')`. -/
def callbackText (oid storeKey procReturnCode amount : String) : String :=
  String.intercalate "|" [oid, storeKey, procReturnCode, amount]

namespace CallbackBody

/-- `String(body.oid ?? body.OID ?? '')`. -/
def order (body : CallbackBody) : String := (body.oid.or body.OID).getD ""

def amountText (body : CallbackBody) : String := body.amount.getD ""

def returnCode (body : CallbackBody) : String :=
  (body.ProcReturnCode.or body.procReturnCode).getD ""

def hashFromGateway (body : CallbackBody) : String := (body.HASH.or body.hash).getD ""

end CallbackBody

def verifyCallback (env : Env) (body : CallbackBody) : CallbackVerdict :=
  let providerIntentId := if body.order = "" then none else some body.order
  if body.hashFromGateway = "" ∨ body.order = "" then
    { valid := false, providerIntentId, success := false }
  else
    let expected := env.hmacSha512 env.cmiStoreKey
      (callbackText body.order env.cmiStoreKey body.returnCode body.amountText)
    let valid : Bool := expected = body.hashFromGateway
    { valid, providerIntentId, success := valid && body.returnCode == "00" }

/-- A success is a signed `00` of a named order. -/
theorem verifyCallback_success {env : Env} {body : CallbackBody} :
    (verifyCallback env body).success = true ↔ body.hashFromGateway ≠ "" ∧ body.order ≠ "" ∧
      env.hmacSha512 env.cmiStoreKey
        (callbackText body.order env.cmiStoreKey body.returnCode body.amountText) =
          body.hashFromGateway ∧ body.returnCode = "00" := by
  by_cases h : body.hashFromGateway = "" ∨ body.order = ""
  · simp [verifyCallback, h]
    tauto
  · simp only [verifyCallback, if_neg h]
    simp only [not_or] at h
    simp [h]

theorem verifyCallback_order {env : Env} {body : CallbackBody} {oid : String}
    (h : (verifyCallback env body).providerIntentId = some oid) : oid = body.order ∧ oid ≠ "" := by
  have hsome : (if body.order = "" then none else some body.order) = some oid := by
    by_cases hempty : body.hashFromGateway = "" ∨ body.order = ""
    · simpa [verifyCallback, hempty] using h
    · simpa only [verifyCallback, if_neg hempty] using h
  split_ifs at hsome with hempty
  obtain rfl : body.order = oid := Option.some.inj hsome
  exact ⟨rfl, hempty⟩

/-- The outcome is the one of the confirmation, if the callback reports a success. -/
def handleCmiCallback (env : Env) (body : CallbackBody) :
    Stays (Option PaymentConfirmationOutcome) := do
  let result := verifyCallback env body
  require (result.valid = true) (.badRequest "Invalid CMI callback signature")
  let oid ← expect result.providerIntentId (.badRequest "Invalid CMI callback signature")
  if result.success then do
    let outcome ← confirmPaymentSuccess .cmi oid
    pure (some outcome)
  else pure none

end NexaStays.Payments
