import NexaStays.KeyedTable
import NexaStays.Money
import NexaStays.Transactions

/-!
# The tables of the stays service

Row types, the committed store and its row writes. Identifiers are numbers; a
calendar day is its distance in days from the epoch and an instant its distance in
milliseconds. Columns that no modelled function reads are left out.
-/
namespace NexaStays.Database

open NexaStays.KeyedTable NexaStays.Transactions NexaStays.Money

inductive ListingStatus where
  | draft | submitted | approved | rejected | live | paused
  deriving DecidableEq, Repr

inductive BookingStatus where
  | initiated | paymentPending | confirmed | checkedIn | completed
  | cancelledByGuest | cancelledByHost | expired
  deriving DecidableEq, Repr

inductive Provider where
  | mock | cmi
  deriving DecidableEq, Repr

inductive IntentStatus where
  | pending | succeeded | failed | cancelled
  deriving DecidableEq, Repr

inductive EntryType where
  | guestPayment | hostPayout | platformFee | refund
  deriving DecidableEq, Repr

inductive EntryStatus where
  | pending | settled | failed
  deriving DecidableEq, Repr

inductive BlockSource where
  | host | admin | booking | ical
  deriving DecidableEq, Repr

inductive ReviewStatus where
  | published | hidden | removed
  deriving DecidableEq, Repr

inductive CalendarStatus where
  | active | syncing | error | paused
  deriving DecidableEq, Repr

structure RatePlan where
  currency : String
  basePrice : ℤ
  deriving DecidableEq, Repr

/-- `checkout_time` split at the colon; a part that is not a number is `none`. -/
structure CheckoutTime where
  hour : Option ℕ
  minute : Option ℕ
  deriving DecidableEq, Repr

/-- What `recalculateForListing` writes: ratings are in tenths, the average in hundredths. -/
structure ReviewAggregates where
  reviewCount : ℕ
  avgRating : Option ℤ
  ratings : List ℕ
  deriving DecidableEq, Repr

/-- A listing with its rules and rate plan, which are loaded with it. -/
structure StaysListing where
  id : ℕ
  hostUserId : ℕ
  status : ListingStatus
  maxGuests : Option ℕ
  cancellationPolicy : Option CancellationPolicy
  ratePlan : Option RatePlan
  checkoutTime : CheckoutTime
  aggregates : ReviewAggregates
  deriving DecidableEq, Repr

structure BookingReference where
  year : ℤ
  seq : ℕ
  deriving DecidableEq, Repr

structure StaysBooking where
  id : ℕ
  bookingReference : BookingReference
  listingId : ℕ
  guestUserId : ℕ
  status : BookingStatus
  checkinDate : ℤ
  checkoutDate : ℤ
  guestCount : ℕ
  totalSubtotal : ℤ
  guestFee : ℤ
  hostFee : ℤ
  totalPaid : Option ℤ
  payoutAmount : Option ℤ
  currency : String
  idempotencyKey : Option String
  createdAt : ℤ
  completedAt : Option ℤ
  deriving DecidableEq, Repr

/-- What the answer of the gateway to a merchant request is recorded as. -/
inductive CmiStatus where
  | succeeded | failed
  deriving DecidableEq, Repr

/-- The members of an intent's `metadata` that the gateway calls write. -/
structure IntentMetadata where
  cmiCaptureStatus : Option CmiStatus := none
  cmiVoidStatus : Option CmiStatus := none
  cmiRefundStatus : Option CmiStatus := none
  deriving DecidableEq, Repr

structure StaysPaymentIntent where
  id : ℕ
  bookingId : ℕ
  provider : Provider
  providerIntentId : Option String
  amount : ℤ
  currency : String
  status : IntentStatus
  idempotencyKey : Option String
  metadata : IntentMetadata
  createdAt : ℤ
  deriving DecidableEq, Repr

structure StaysLedgerEntry where
  id : ℕ
  bookingId : ℕ
  type : EntryType
  amount : ℤ
  currency : String
  status : EntryStatus
  deriving DecidableEq, Repr

structure BookingRefCounter where
  year : ℤ
  lastSeq : ℕ
  deriving DecidableEq, Repr

structure StaysAvailabilityBlock where
  listingId : ℕ
  date : ℤ
  isBlocked : Bool
  source : Option BlockSource
  externalCalendarId : Option ℕ
  deriving DecidableEq, Repr

structure StaysListingReview where
  id : ℕ
  listingId : ℕ
  bookingId : ℕ
  guestUserId : ℕ
  hostUserId : ℕ
  rating : ℤ
  comment : Option String
  status : ReviewStatus
  deriving DecidableEq, Repr

structure SyncResult where
  importedEvents : ℕ
  removedEvents : ℕ
  blockedNights : ℕ
  notModified : Bool
  lastReservation : Option (ℤ × ℤ)
  deriving DecidableEq, Repr

structure StaysExternalCalendar where
  id : ℕ
  listingId : ℕ
  status : CalendarStatus
  nextSyncAt : ℤ
  lockedUntil : Option ℤ
  lastAttemptAt : Option ℤ
  lastSuccessfulSyncAt : Option ℤ
  lastError : Option String
  etag : Option String
  lastModified : Option String
  consecutiveFailures : ℕ
  syncResult : Option SyncResult
  deriving DecidableEq, Repr

structure StaysExternalCalendarEvent where
  externalCalendarId : ℕ
  uid : String
  recurrenceId : String
  startDate : ℤ
  endDate : ℤ
  summary : Option String
  deriving DecidableEq, Repr

/-- Traffic with the payment gateway about one order: what the guest and the gateway
do there (`preAuth`, `callback`) and the merchant requests of this service. -/
inductive CmiOp where
  | preAuth | callback | postAuth | void | credit
  deriving DecidableEq, Repr

/-- One message, in the order of the traffic, and whether the gateway accepted it. -/
structure GatewayMessage where
  seq : ℕ
  op : CmiOp
  oid : String
  amount : Option ℤ
  accepted : Bool
  deriving DecidableEq, Repr

/-- The committed store. -/
structure Store where
  settings : FeeRates
  listings : Table StaysListing.id
  bookings : Table StaysBooking.id
  intents : Table StaysPaymentIntent.id
  ledger : Table StaysLedgerEntry.id
  refCounters : Table BookingRefCounter.year
  blocks : Table fun b : StaysAvailabilityBlock => (b.listingId, b.date)
  reviews : Table StaysListingReview.id
  calendars : Table StaysExternalCalendar.id
  events : Table fun e : StaysExternalCalendarEvent => (e.externalCalendarId, e.uid, e.recurrenceId)
  gateway : Table GatewayMessage.seq

inductive Key where
  | listing (id : ℕ)
  | booking (id : ℕ)
  | intent (id : ℕ)
  | ledger (id : ℕ)
  | refCounter (year : ℤ)
  | block (listingId : ℕ) (date : ℤ)
  | review (id : ℕ)
  | calendar (id : ℕ)
  | event (externalCalendarId : ℕ) (uid recurrenceId : String)
  | gateway (seq : ℕ)
  deriving DecidableEq, Repr

/-- The write of one row: inserted or overwritten, or deleted. -/
inductive Write where
  | listing (row : StaysListing)
  | booking (row : StaysBooking)
  | intent (row : StaysPaymentIntent)
  | ledger (row : StaysLedgerEntry)
  | refCounter (row : BookingRefCounter)
  | block (row : StaysAvailabilityBlock)
  | deleteBlock (row : StaysAvailabilityBlock)
  | review (row : StaysListingReview)
  | calendar (row : StaysExternalCalendar)
  | deleteCalendar (row : StaysExternalCalendar)
  | event (row : StaysExternalCalendarEvent)
  | deleteEvent (row : StaysExternalCalendarEvent)
  | gateway (row : GatewayMessage)
  deriving DecidableEq, Repr

def Write.key : Write → Key
  | .listing l => .listing l.id
  | .booking b => .booking b.id
  | .intent i => .intent i.id
  | .ledger e => .ledger e.id
  | .refCounter c => .refCounter c.year
  | .block b | .deleteBlock b => .block b.listingId b.date
  | .review r => .review r.id
  | .calendar c | .deleteCalendar c => .calendar c.id
  | .event e | .deleteEvent e => .event e.externalCalendarId e.uid e.recurrenceId
  | .gateway m => .gateway m.seq

/-- The row of a booking. -/
def Write.booking? : Write → Option StaysBooking
  | .booking b => some b
  | _ => none

/-- The message to or from the gateway. -/
def Write.message? : Write → Option GatewayMessage
  | .gateway m => some m
  | _ => none

theorem Write.booking?_eq_some {w : Write} {b : StaysBooking} :
    w.booking? = some b ↔ w = .booking b := by
  cases w <;> simp [Write.booking?]

theorem Write.message?_eq_some {w : Write} {m : GatewayMessage} :
    w.message? = some m ↔ w = .gateway m := by
  cases w <;> simp [Write.message?]

theorem mem_bookings {ws : List Write} {b : StaysBooking} :
    b ∈ ws.filterMap Write.booking? ↔ .booking b ∈ ws := by
  simp [List.mem_filterMap, Write.booking?_eq_some]

theorem mem_messages {ws : List Write} {m : GatewayMessage} :
    m ∈ ws.filterMap Write.message? ↔ .gateway m ∈ ws := by
  simp [List.mem_filterMap, Write.message?_eq_some]

namespace Store

def write (s : Store) : Write → Store
  | .listing l => { s with listings := s.listings.put l }
  | .booking b => { s with bookings := s.bookings.put b }
  | .intent i => { s with intents := s.intents.put i }
  | .ledger e => { s with ledger := s.ledger.put e }
  | .refCounter c => { s with refCounters := s.refCounters.put c }
  | .block b => { s with blocks := s.blocks.put b }
  | .deleteBlock b => { s with blocks := s.blocks.delete (b.listingId, b.date) }
  | .review r => { s with reviews := s.reviews.put r }
  | .calendar c => { s with calendars := s.calendars.put c }
  | .deleteCalendar c => { s with calendars := s.calendars.delete c.id }
  | .event e => { s with events := s.events.put e }
  | .deleteEvent e => { s with events := s.events.delete (e.externalCalendarId, e.uid, e.recurrenceId) }
  | .gateway m => { s with gateway := s.gateway.put m }

def present (s : Store) : Key → Bool
  | .listing id => (s.listings.find? id).isSome
  | .booking id => (s.bookings.find? id).isSome
  | .intent id => (s.intents.find? id).isSome
  | .ledger id => (s.ledger.find? id).isSome
  | .refCounter year => (s.refCounters.find? year).isSome
  | .block l d => (s.blocks.find? (l, d)).isSome
  | .review id => (s.reviews.find? id).isSome
  | .calendar id => (s.calendars.find? id).isSome
  | .event c u r => (s.events.find? (c, u, r)).isSome
  | .gateway n => (s.gateway.find? n).isSome

end Store

instance : Storage Store Key Write where
  write := Store.write
  keyOf := Write.key
  present := Store.present

@[simp] theorem storage_write (s : Store) (w : Write) : Storage.write s w = s.write w := rfl

@[simp] theorem storage_keyOf (w : Write) : Storage.keyOf Store w = w.key := rfl

@[simp] theorem storage_present (s : Store) (k : Key) : Storage.present s k = s.present k := rfl

/-- What a call throws: the HTTP exceptions of the service, or a failing statement. -/
inductive StaysError where
  | notFound (message : String)
  | badRequest (message : String)
  | conflict (message : String)
  | forbidden (message : String)
  | internal (message : String)
  | database
  deriving DecidableEq, Repr

/-- The programs of the stays service. -/
abbrev Stays := Program Store Key Write StaysError

namespace Stays

abbrev read {α : Type} (f : Store → α) : Stays α := Program.query .database f

abbrev findOne {α : Type} (f : Store → List α) : Stays (Option α) := Program.findOne .database f

abbrev lockRow {α : Type} (key : Key) (f : Store → α) : Stays α := Program.lockRow .database key f

abbrev update (ws : Store → List Write) : Stays (List Write) := Program.writeRows .database ws

abbrev insert (row : ℕ → Write) : Stays ℕ := Program.insertRow .database row

abbrev transaction {α : Type} (p : Stays α) : Stays α := Program.transaction .database p

end Stays

/-- The configuration of a deployment and the functions of its platform: the local
time zone, and the keyed hash of the gateway's signatures. -/
structure Env where
  isMockPaymentProvider : Bool
  paymentPendingTtlMinutes : ℕ
  startOfDay : ℤ → ℤ
  localDateTime : ℤ → ℕ → ℕ → Option ℤ
  cmiStoreKey : String
  hmacSha512 : String → String → String

/-- Milliseconds of a day. -/
def dayMs : ℤ := 86400000

end NexaStays.Database
