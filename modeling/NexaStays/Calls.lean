import NexaStays.Cancellation
import NexaStays.CreateBooking
import NexaStays.HostCalendar
import NexaStays.Lifecycle

/-!
# The running service

The calls of the service as programs, and the system that starts with a list of them
on a store without bookings. Any number of calls, in any order of their statements.
-/
namespace NexaStays.Calls

open NexaStays.KeyedTable NexaStays.Transactions NexaStays.Database NexaStays.BookingDate
  NexaStays.CreateBooking NexaStays.Payments NexaStays.Cancellation NexaStays.Lifecycle
  NexaStays.HostCalendar

/-- A request to the service, a run of one of its jobs, or a guest who authorises an
order at the gateway. `now` is the instant the call reads from the clock. -/
inductive Call where
  | createBooking (userId : ℕ) (dto : CreateBookingDto) (isVerified : Bool)
  | createOrGetIntent (bookingId guestUserId : ℕ) (idempotencyKey : Option String)
  | confirmPaymentSuccess (provider : Provider) (providerIntentId : String)
  | handleCmiCallback (body : CallbackBody)
  | cancel (bookingId userId : ℕ) (cancelledBy : CancelledBy) (now : ℤ)
  | expirePendingPayments (now : ℤ)
  | autoCompletePastStays (now : ℤ)
  | finalizeCheckoutDayStays (now : ℤ)
  | createReview (guestUserId bookingId : ℕ) (rating : ℚ) (comment : String) (now : ℤ)
  | setHostAvailabilityBlock (listingId hostUserId : ℕ) (fromDate toDate : Option Ymd)
      (isBlocked : Bool)
  | authorize (oid : String)
  deriving DecidableEq, Repr

/-- What a call returns. A callback returns its place in the gateway traffic too. -/
inductive Answer where
  | booking (booking : StaysBooking)
  | intent (intent : StaysPaymentIntent)
  | outcome (outcome : PaymentConfirmationOutcome)
  | callback (seq : ℕ) (outcome : Option PaymentConfirmationOutcome)
  | cancelled (result : CancelResult)
  | review (review : StaysListingReview)
  | nights (count : ℕ)
  | done
  deriving DecidableEq, Repr

/-- The booking of an answer. -/
def Answer.booking? : Answer → Option StaysBooking
  | .booking b => some b
  | _ => none

theorem Answer.booking?_eq_some {a : Answer} {b : StaysBooking} :
    a.booking? = some b ↔ a = .booking b := by
  cases a <;> simp [Answer.booking?]

/-- A callback arrives: it joins the traffic and is handled. -/
def receiveCallback (env : Env) (body : CallbackBody) : Stays Answer := do
  let arrival ← sendToGateway .callback body.order none true
  let outcome ← handleCmiCallback env body
  pure (.callback arrival.seq outcome)

/-- The program of a call. -/
def program (env : Env) : Call → Stays Answer
  | .createBooking userId dto isVerified => .booking <$> createBooking userId dto isVerified
  | .createOrGetIntent bookingId guestUserId key =>
    .intent <$> createOrGetIntent env bookingId guestUserId key
  | .confirmPaymentSuccess provider oid => .outcome <$> confirmPaymentSuccess provider oid
  | .handleCmiCallback body => receiveCallback env body
  | .cancel bookingId userId cancelledBy now =>
    .cancelled <$> cancel env bookingId userId cancelledBy now
  | .expirePendingPayments now => (fun _ => .done) <$> expirePendingPayments env now
  | .autoCompletePastStays now => (fun _ => .done) <$> autoCompletePastStays env now
  | .finalizeCheckoutDayStays now => (fun _ => .done) <$> finalizeCheckoutDayStays env now
  | .createReview guestUserId bookingId rating comment now =>
    .review <$> createReview env guestUserId bookingId rating comment now
  | .setHostAvailabilityBlock listingId hostUserId fromDate toDate isBlocked =>
    .nights <$> setHostAvailabilityBlock listingId hostUserId fromDate toDate isBlocked
  | .authorize oid => (fun _ => .done) <$> sendToGateway .preAuth oid none true

abbrev StaysSystem := System Call Store Key Write StaysError Answer

abbrev StaysThread := Thread Call Store Key Write StaysError Answer

/-- A call that has not started. -/
def thread (env : Env) (c : Call) : StaysThread := ⟨c, .idle, program env c⟩

/-- No booking has been made: the tables that hang on bookings are empty. -/
structure Store.Fresh (s : Store) : Prop where
  bookings : s.bookings.rows = []
  intents : s.intents.rows = []
  ledger : s.ledger.rows = []
  gateway : s.gateway.rows = []

/-- The system at the start of a run. -/
def initial (env : Env) (s : Store) (calls : List Call) : StaysSystem :=
  ⟨s, calls.map (thread env)⟩

/-- The states that the calls reach from a store without bookings. -/
def Reachable (env : Env) (ok : StaysSystem → Action → Prop) (sys : StaysSystem) : Prop :=
  ∃ s calls, Store.Fresh s ∧ System.Run ok (initial env s calls) sys

theorem Reachable.mono {env : Env} {ok ok' : StaysSystem → Action → Prop} {sys : StaysSystem}
    (himp : ∀ sys a, ok sys a → ok' sys a) (h : Reachable env ok sys) : Reachable env ok' sys := by
  obtain ⟨s, calls, hfresh, hrun⟩ := h
  exact ⟨s, calls, hfresh, hrun.mono himp⟩

theorem Reachable.trans {env : Env} {ok : StaysSystem → Action → Prop} {sys sys' : StaysSystem}
    (h : Reachable env ok sys) (hrun : System.Run ok sys sys') : Reachable env ok sys' := by
  obtain ⟨s, calls, hfresh, hstart⟩ := h
  exact ⟨s, calls, hfresh, hstart.trans hrun⟩

/-- In UTC, with a keyed hash that can be computed. -/
def sampleEnv : Env where
  isMockPaymentProvider := false
  paymentPendingTtlMinutes := 30
  startOfDay instant := instant / dayMs * dayMs
  localDateTime day hour minute := some (day * dayMs + hour * 3600000 + minute * 60000)
  cmiStoreKey := "key"
  hmacSha512 key text := key ++ "#" ++ text

/-- A live listing of user 1, at 100.00 a night, with the default policy. -/
def sampleListing (id : ℕ) : StaysListing where
  id
  hostUserId := 1
  status := .live
  maxGuests := some 4
  cancellationPolicy := none
  ratePlan := some ⟨"MAD", 10000⟩
  checkoutTime := ⟨some 11, some 0⟩
  aggregates := ⟨0, none, [0, 0, 0, 0, 0]⟩

/-- Two listings, five per cent of fees on either side, and nothing else. -/
def sampleStore : Store where
  settings := ⟨500, 500⟩
  listings := Table.ofRows [sampleListing 1, sampleListing 2]
  bookings := .empty
  intents := .empty
  ledger := .empty
  refCounters := .empty
  blocks := .empty
  reviews := .empty
  calendars := .empty
  events := .empty
  gateway := .empty

theorem sampleStore_fresh : Store.Fresh sampleStore := ⟨rfl, rfl, rfl, rfl⟩

/-- Two nights of January 2030 for two guests. -/
def sampleRequest (listingId day : ℕ) (key : Option String) : CreateBookingDto where
  listingId
  checkinDate := some ⟨2030, 1, day⟩
  checkoutDate := some ⟨2030, 1, day + 2⟩
  guestCount := 2
  occupants := none
  idempotencyKey := key

/-- A success callback of the gateway, signed with the key of this deployment. -/
def sampleCallback (oid amount : String) : CallbackBody where
  oid := some oid
  OID := none
  amount := some amount
  ProcReturnCode := some "00"
  procReturnCode := none
  HASH := none
  hash := some (sampleEnv.hmacSha512 "key" (callbackText oid "key" "00" amount))

/-- Guest 2 books from 2030-01-10 on, opens an intent and pays. The numbers that
`samplePayment` answers make the booking number 9 and its order `STAYS-9-25`. -/
def samplePaying : List Call :=
  [.createBooking 2 (sampleRequest 1 10 none) true, .createOrGetIntent 9 2 none,
    .handleCmiCallback (sampleCallback "STAYS-9-25" "210.00")]

def samplePayment : List Action :=
  System.turns 0 0 13 ++ System.turns 1 20 9 ++ System.turns 2 40 20

variable (ok ok' : StaysSystem → Action → Prop) [∀ sys a, Decidable (ok sys a)]
  [∀ sys a, Decidable (ok' sys a)] (calls : List Call) (as as' : List Action)
  (p p' : StaysSystem → Bool)

/-- A state that a schedule reaches in this deployment. -/
theorem exists_reachable
    (h : (System.exec ok (initial sampleEnv sampleStore calls) as).any p = true) :
    ∃ sys, Reachable sampleEnv ok sys ∧ p sys = true := by
  obtain ⟨sys, hrun, hp⟩ := System.exists_run h
  exact ⟨sys, ⟨sampleStore, calls, sampleStore_fresh, hrun⟩, hp⟩

/-- A state that a schedule reaches in this deployment, and a run from there. -/
theorem exists_reachable_run (h : (System.exec ok (initial sampleEnv sampleStore calls) as).any
      (fun sys => p sys && (System.exec ok' sys as').any p') = true) :
    ∃ sys sys', Reachable sampleEnv ok sys ∧ System.Run ok' sys sys' ∧ p sys = true ∧
      p' sys' = true := by
  obtain ⟨sys, hreach, hboth⟩ := exists_reachable ok calls as _ h
  obtain ⟨hp, hrest⟩ := Bool.and_eq_true_iff.mp hboth
  obtain ⟨sys', hrun, hp'⟩ := System.exists_run hrest
  exact ⟨sys, sys', hreach, hrun, hp, hp'⟩

end NexaStays.Calls
