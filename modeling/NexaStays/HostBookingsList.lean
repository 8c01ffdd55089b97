import NexaStays.HostListCursor
import Mathlib.Data.Prod.Lex
import Mathlib.Data.List.Lex

/-!
# The host's list of bookings

`HostBookingsListService.listHostBookingsPage` with its filters, its five orders and its
cursors. The query joins the occupants: it has a raw row for each occupant of a booking,
and one for a booking without occupants. An item is given by the row of its booking.
-/
namespace NexaStays.HostBookingsList

open NexaStays.KeyedTable NexaStays.Database NexaStays.Keyset NexaStays.SqlText
  NexaStays.HostListCursor

structure BookingOccupant where
  id : ℕ
  fullName : String
  isPrimary : Bool
  deriving DecidableEq, Repr

/-- A booking with its listing and its occupants. Subtotals are the same numbers in a
cursor. -/
structure HostBookingRow where
  id : ℕ
  listingId : ℕ
  listingTitle : String
  hostUserId : ℕ
  bookingReference : Option String
  status : BookingStatus
  checkinDate : ℤ
  checkoutDate : ℤ
  totalSubtotal : ℚ
  occupants : List BookingOccupant
  deriving DecidableEq, Repr

abbrev HostBookingTable := Table HostBookingRow.id

inductive HostBookingFilter where
  | all | today | checkinToday | checkoutToday | upcoming | current
  | awaitingPayment | completed | cancelled
  deriving DecidableEq, Repr

def HostBookingFilter.text : HostBookingFilter → String
  | .all => "all"
  | .today => "today"
  | .checkinToday => "checkin_today"
  | .checkoutToday => "checkout_today"
  | .upcoming => "upcoming"
  | .current => "current"
  | .awaitingPayment => "awaiting_payment"
  | .completed => "completed"
  | .cancelled => "cancelled"

inductive HostBookingSort where
  | ops | checkin | checkout | amount | guest
  deriving DecidableEq, Repr

def HostBookingSort.text : HostBookingSort → String
  | .ops => "ops"
  | .checkin => "checkin"
  | .checkout => "checkout"
  | .amount => "amount"
  | .guest => "guest"

structure HostBookingsListQuery where
  limit : Option ℤ := none
  cursor : Option String := none
  filter : Option HostBookingFilter := none
  search : Option String := none
  listingId : Option ℕ := none
  sort : Option HostBookingSort := none
  deriving DecidableEq, Repr

/-- `STAY_ACTIVE_SQL`, `CHECKOUT_ELIGIBLE_SQL`, `PAYMENT_PENDING_SQL`, `CANCELLED_SQL`. -/
def stayActive : List BookingStatus := [.confirmed, .checkedIn]

def checkoutEligible : List BookingStatus := [.confirmed, .checkedIn, .completed]

def paymentPending : List BookingStatus := [.initiated, .paymentPending]

def cancelled : List BookingStatus := [.cancelledByGuest, .cancelledByHost, .expired]

/-- `opsUrgencyRankSql`. -/
def opsUrgencyRank (today : ℤ) (b : HostBookingRow) : ℕ :=
  if b.status ∈ checkoutEligible ∧ b.checkoutDate = today then 0
  else if b.status ∈ stayActive ∧ b.checkinDate = today then 1
  else if b.status ∈ stayActive ∧ b.checkinDate = today + 1 then 2
  else if b.status ∈ paymentPending then 3
  else if b.status ∈ stayActive ∧ b.checkinDate ≤ today ∧ today < b.checkoutDate then 4
  else if b.status ∈ stayActive ∧ today < b.checkinDate then 5
  else if b.status = .completed then 6
  else if b.status ∈ cancelled then 7
  else 8

/-- `TRIM` of the database takes off spaces only. -/
def sqlTrim (s : String) : String :=
  String.ofList (((s.toList.dropWhile (· = ' ')).reverse.dropWhile (· = ' ')).reverse)

/-- `guestDisplayNameSql`: the primary occupant, else the first one with a name, else the
first one. -/
def guestDisplayName (b : HostBookingRow) : Option String :=
  let byId := orderBy BookingOccupant.id b.occupants
  ((b.occupants.find? (·.isPrimary)).map fun o => sqlTrim o.fullName) <|>
    ((byId.find? fun o => sqlTrim o.fullName ≠ "").map fun o => sqlTrim o.fullName) <|>
    (byId.head?.map fun o => sqlTrim o.fullName)

/-- The `guest_sort_name` of a raw row. -/
def guestSortName (pf : ListPlatform) (b : HostBookingRow) : String :=
  pf.sqlLower ((guestDisplayName b).getD "")

def checkoutToday (today : ℤ) (b : HostBookingRow) : Bool :=
  b.status ∈ checkoutEligible ∧ b.checkoutDate = today

def checkinToday (today : ℤ) (b : HostBookingRow) : Bool :=
  b.status ∈ stayActive ∧ b.checkinDate = today ∧ checkoutToday today b = false

/-- `applyHostBookingFilterSql`. -/
def applyHostBookingFilter (today : ℤ) (filter : HostBookingFilter) (b : HostBookingRow) : Bool :=
  match filter with
  | .all => true
  | .today => checkinToday today b || checkoutToday today b
  | .checkinToday => checkinToday today b
  | .checkoutToday => checkoutToday today b
  | .upcoming => b.status ∈ stayActive ∧ today < b.checkinDate
  | .current => b.status ∈ stayActive ∧ b.checkinDate ≤ today ∧ today < b.checkoutDate
  | .awaitingPayment => b.status ∈ paymentPending
  | .completed => b.status = .completed
  | .cancelled => b.status ∈ cancelled

def matchesSearch (pf : ListPlatform) (search : String) (b : HostBookingRow) : Bool :=
  let pattern := "%" ++ escapeIlikePattern (pf.toLowerCase search) ++ "%"
  search = "" || like (guestSortName pf b) pattern ||
    like (pf.sqlLower b.listingTitle) pattern ||
    like (pf.sqlLower (pf.idText b.id)) pattern ||
    like (pf.sqlLower (b.bookingReference.getD "")) pattern ||
    like (pf.sqlLower (pf.idText b.listingId)) pattern

/-- `baseQb` and `applyScope`. -/
def matchesQuery (pf : ListPlatform) (hostUserId : ℕ) (today : ℤ) (query : HostBookingsListQuery)
    (b : HostBookingRow) : Bool :=
  b.hostUserId = hostUserId && (query.listingId.all fun id => b.listingId = id) &&
    applyHostBookingFilter today (query.filter.getD .all) b &&
    matchesSearch pf (trim (query.search.getD "")) b

/-- The computed column an order has first. -/
def bookingLead (pf : ListPlatform) (today : ℤ) (sort : HostBookingSort) (b : HostBookingRow) :
    List ℕ ×ₗ ℕ :=
  match sort with
  | .ops => toLex ([], opsUrgencyRank today b)
  | .guest => toLex (pf.collationKey (guestSortName pf b), 0)
  | .checkin | .checkout | .amount => toLex ([], 0)

/-- The stored columns an order has next, and the id. -/
def bookingColumns (sort : HostBookingSort) (b : HostBookingRow) : ℚ ×ₗ ℤ ×ₗ ℕ :=
  match sort with
  | .ops | .checkin => toLex (0, toLex (b.checkinDate, b.id))
  | .checkout => toLex (0, toLex (b.checkoutDate, b.id))
  | .amount => toLex (b.totalSubtotal, toLex (0, b.id))
  | .guest => toLex (0, toLex (0, b.id))

/-- `applyOrder`. -/
def bookingOrder (pf : ListPlatform) (today : ℤ) (sort : HostBookingSort) (b : HostBookingRow) :
    (List ℕ ×ₗ ℕ) ×ₗ ℚ ×ₗ ℤ ×ₗ ℕ :=
  toLex (bookingLead pf today sort b, bookingColumns sort b)

/-- `applyKeyset`. The signature leaves no cursor with a key of another type. -/
def applyKeyset (pf : ListPlatform) (today : ℤ) (sort : HostBookingSort)
    (cursor : HostListCursorPayload) (b : HostBookingRow) : Bool :=
  match sort with
  | .ops =>
    match cursor.key "ops_rank", cursor.key "checkin_date" with
    | .number rank, .day checkin =>
      rank < opsUrgencyRank today b ∨
        opsUrgencyRank today b = rank ∧ checkin < b.checkinDate ∨
        opsUrgencyRank today b = rank ∧ b.checkinDate = checkin ∧ cursor.id < b.id
    | _, _ => false
  | .checkin =>
    match cursor.key "checkin_date" with
    | .day checkin => checkin < b.checkinDate ∨ b.checkinDate = checkin ∧ cursor.id < b.id
    | _ => false
  | .checkout =>
    match cursor.key "checkout_date" with
    | .day checkout => checkout < b.checkoutDate ∨ b.checkoutDate = checkout ∧ cursor.id < b.id
    | _ => false
  | .amount =>
    match cursor.key "total_subtotal" with
    | .number amount => amount < b.totalSubtotal ∨ b.totalSubtotal = amount ∧ cursor.id < b.id
    | _ => false
  | .guest =>
    match cursor.key "guest_sort_name" with
    | .text name =>
      let guest := pf.toLowerCase name
      pf.collationKey guest < pf.collationKey (guestSortName pf b) ∨
        guestSortName pf b = guest ∧ cursor.id < b.id
    | _ => false

/-- `cursorKeys`, from a booking and the computed columns of a raw row, which are those of
the booking that the raw row is of. -/
def cursorKeys (pf : ListPlatform) (today : ℤ) (sort : HostBookingSort)
    (booking raw : HostBookingRow) : List (String × CursorValue) :=
  match sort with
  | .ops => [("ops_rank", .number (opsUrgencyRank today raw)),
      ("checkin_date", .day booking.checkinDate)]
  | .checkin => [("checkin_date", .day booking.checkinDate)]
  | .checkout => [("checkout_date", .day booking.checkoutDate)]
  | .amount => [("total_subtotal", .number booking.totalSubtotal)]
  | .guest => [("guest_sort_name", .text (pf.toLowerCase (guestSortName pf raw)))]

/-- The raw rows of `getRawAndEntities`, each as the booking it is of. -/
def rawRows (entities : List HostBookingRow) : List HostBookingRow :=
  entities.flatMap fun b => List.replicate (max 1 b.occupants.length) b

def cursorContext (pf : ListPlatform) (hostUserId : ℕ) (query : HostBookingsListQuery) :
    HostListCursorContext where
  kind := .bookings
  hostId := hostUserId
  sort := (query.sort.getD .ops).text
  filter := (query.filter.getD .all).text
  search := pf.toLowerCase (trim (query.search.getD ""))
  listingId := query.listingId
  status := ""

def pageLimit (limit : Option ℤ) : ℕ := (min (max (limit.getD 20) 1) 50).toNat

/-- The page of the entities found. Its raw rows are cut off at the same length. -/
def bookingPage (pf : ListPlatform) (today : ℤ) (ctx : HostListCursorContext)
    (sort : HostBookingSort) (limit : ℕ) (entities : List HostBookingRow) :
    Page HostBookingRow String :=
  let raw := rawRows entities
  let hasNext : Bool := limit < entities.length
  let pageEntities := if hasNext then entities.take limit else entities
  let pageRaw := if hasNext then raw.take limit else raw
  { items := pageEntities
    next :=
      if hasNext then
        pageEntities.getLast?.bind fun last =>
          pageRaw.getLast?.map fun lastRaw =>
            encodeHostListCursor pf ctx (cursorKeys pf today sort last lastRaw) last.id
      else none }

/-- A page with its `next_cursor`. -/
def listHostBookingsPage (pf : ListPlatform) (bookings : HostBookingTable) (hostUserId : ℕ)
    (today : ℤ) (query : HostBookingsListQuery) :
    Except StaysError (Page HostBookingRow String) := do
  let limit := pageLimit query.limit
  let sort := query.sort.getD .ops
  let ctx := cursorContext pf hostUserId query
  let cursorPayload ← decodeHostListCursor pf query.cursor ctx
  let entities := (orderBy (bookingOrder pf today sort) (bookings.rows.filter fun b =>
    matchesQuery pf hostUserId today query b &&
      cursorPayload.all fun c => applyKeyset pf today sort c b)).take (limit + 1)
  .ok (bookingPage pf today ctx sort limit entities)

end NexaStays.HostBookingsList
