import NexaStays.HostListCursor
import Mathlib.Data.Prod.Lex
import Mathlib.Order.WithBot
import Mathlib.Data.List.Lex
import Mathlib.Data.Rat.Floor

/-!
# The host's list of listings

`HostListingsService.listHostListingsPage` with its filters, its six orders and its
cursors. The instants of the columns count microseconds, those of a cursor milliseconds.
An item is given by the row of its listing.
-/
namespace NexaStays.HostListings

open NexaStays.KeyedTable NexaStays.Database NexaStays.Keyset NexaStays.SqlText
  NexaStays.HostListCursor

/-- A listing with the price of its rate plan, which has at most ten digits. -/
structure HostListingRow where
  id : ℕ
  hostUserId : ℕ
  title : String
  city : String
  status : ListingStatus
  createdAt : ℤ
  updatedAt : Option ℤ
  lastEditedAt : Option ℤ
  basePrice : Option ℚ
  deriving DecidableEq, Repr

abbrev HostListingTable := Table HostListingRow.id

def statusText : ListingStatus → String
  | .draft => "DRAFT"
  | .submitted => "SUBMITTED"
  | .approved => "APPROVED"
  | .rejected => "REJECTED"
  | .live => "LIVE"
  | .paused => "PAUSED"

inductive HostListingStatusFilter where
  | all | active | pending | paused | draft | needsChanges
  deriving DecidableEq, Repr

def HostListingStatusFilter.text : HostListingStatusFilter → String
  | .all => "all"
  | .active => "active"
  | .pending => "pending"
  | .paused => "paused"
  | .draft => "draft"
  | .needsChanges => "needs_changes"

inductive HostListingSort where
  | default | title | city | status | updated | price
  deriving DecidableEq, Repr

def HostListingSort.text : HostListingSort → String
  | .default => "default"
  | .title => "title"
  | .city => "city"
  | .status => "status"
  | .updated => "updated"
  | .price => "price"

structure HostListingsListQuery where
  limit : Option ℤ := none
  cursor : Option String := none
  status : Option HostListingStatusFilter := none
  search : Option String := none
  sort : Option HostListingSort := none
  deriving DecidableEq, Repr

/-- `COALESCE(l.last_edited_at, l.updated_at)`. -/
def updatedSort (l : HostListingRow) : Option ℤ := l.lastEditedAt <|> l.updatedAt

def applyListingStatusFilter (filter : HostListingStatusFilter) (l : HostListingRow) : Bool :=
  match filter with
  | .all => true
  | .active => l.status = .live ∨ l.status = .approved
  | .pending => l.status = .submitted
  | .paused => l.status = .paused
  | .draft => l.status = .draft
  | .needsChanges => l.status = .rejected

def matchesSearch (pf : ListPlatform) (search : String) (l : HostListingRow) : Bool :=
  let pattern := "%" ++ escapeIlikePattern (pf.toLowerCase search) ++ "%"
  search = "" || like (pf.sqlLower l.title) pattern || like (pf.sqlLower l.city) pattern

/-- The `WHERE` without what the cursor adds to it. -/
def matchesQuery (pf : ListPlatform) (userId : ℕ) (query : HostListingsListQuery)
    (l : HostListingRow) : Bool :=
  l.hostUserId = userId && applyListingStatusFilter (query.status.getD .all) l &&
    matchesSearch pf (trim (query.search.getD "")) l

/-- The texts and the price an order has first. -/
def listingRank (pf : ListPlatform) (sort : HostListingSort) (l : HostListingRow) :
    List ℕ ×ₗ WithTop ℚ :=
  match sort with
  | .title => toLex (pf.collationKey l.title, 0)
  | .city => toLex (pf.collationKey l.city, 0)
  | .status => toLex (pf.collationKey (statusText l.status), 0)
  | .price => toLex ([], nullsLast l.basePrice)
  | .default | .updated => toLex ([], 0)

/-- The instant an order has next. -/
def listingInstant (sort : HostListingSort) (l : HostListingRow) : Option ℤ :=
  match sort with
  | .default => some l.createdAt
  | .updated => updatedSort l
  | .title | .city | .status | .price => none

/-- Of listings that tie, the one with the larger id comes first in the orders by an
instant, and the one with the smaller id in the others. -/
def listingTie (sort : HostListingSort) (l : HostListingRow) : ℤ :=
  match sort with
  | .default | .updated => -l.id
  | .title | .city | .status | .price => l.id

/-- `applyListingOrder`; a descending column is negated. -/
def listingOrder (pf : ListPlatform) (sort : HostListingSort) (l : HostListingRow) :
    (List ℕ ×ₗ WithTop ℚ) ×ₗ WithTop ℤ ×ₗ ℤ :=
  toLex (listingRank pf sort l,
    toLex (nullsLast ((listingInstant sort l).map fun t => -t), listingTie sort l))

/-- `column > text OR (column = text AND l.id > id)`. -/
def textAfter (pf : ListPlatform) (column text : String) (id : ℕ) (l : HostListingRow) : Bool :=
  pf.collationKey text < pf.collationKey column ∨ column = text ∧ id < l.id

/-- The instant is in an earlier millisecond, or in the same one and the id is smaller. -/
def instantAfter (column ms : ℤ) (id : ℕ) (l : HostListingRow) : Bool :=
  column < ms * 1000 ∨ ms * 1000 ≤ column ∧ column < (ms + 1) * 1000 ∧ l.id < id

/-- `String(k.title ?? '')`. -/
def textKey (cursor : HostListCursorPayload) (name : String) : String :=
  match cursor.key name with
  | .text s => s
  | _ => ""

/-- `applyListingKeyset`. The signature leaves no cursor with a key of another type. -/
def applyListingKeyset (pf : ListPlatform) (sort : HostListingSort)
    (cursor : HostListCursorPayload) (l : HostListingRow) : Bool :=
  match sort with
  | .default =>
    match cursor.key "created_at" with
    | .instant ms => instantAfter l.createdAt ms cursor.id l
    | _ => false
  | .title => textAfter pf l.title (textKey cursor "title") cursor.id l
  | .city => textAfter pf l.city (textKey cursor "city") cursor.id l
  | .status => textAfter pf (statusText l.status) (textKey cursor "status") cursor.id l
  | .updated =>
    match cursor.key "updated_sort", updatedSort l with
    | .null, column => column.isNone && l.id < cursor.id
    | .instant _, none => true
    | .instant ms, some column => instantAfter column ms cursor.id l
    | _, _ => false
  | .price =>
    match cursor.key "price_sort", l.basePrice with
    | .null, column => column.isNone && cursor.id < l.id
    | .number _, none => true
    | .number price, some column => price < column ∨ column = price ∧ cursor.id < l.id
    | _, _ => false

/-- `toISOString` of a date that the driver read from a column. -/
def toMillis (instant : ℤ) : ℤ := instant / 1000

def listingCursorKeys (sort : HostListingSort) (listing : HostListingRow) :
    List (String × CursorValue) :=
  match sort with
  | .default => [("created_at", .instant (toMillis listing.createdAt))]
  | .title => [("title", .text listing.title)]
  | .city => [("city", .text listing.city)]
  | .status => [("status", .text (statusText listing.status))]
  | .updated =>
    [("updated_sort", (updatedSort listing).elim .null fun t => .instant (toMillis t))]
  | .price => [("price_sort", listing.basePrice.elim .null .number)]

def cursorContext (pf : ListPlatform) (userId : ℕ) (query : HostListingsListQuery) :
    HostListCursorContext where
  kind := .listings
  hostId := userId
  sort := (query.sort.getD .default).text
  filter := ""
  search := pf.toLowerCase (trim (query.search.getD ""))
  listingId := none
  status := (query.status.getD .all).text

def pageLimit (limit : Option ℤ) : ℕ := (min (max (limit.getD 20) 1) 50).toNat

/-- The listings of a page with their relations, in the order of the page. -/
def hydrate (listings : HostListingTable) (userId : ℕ) (pageIds : List ℕ) :
    List HostListingRow :=
  pageIds.filterMap fun id => (listings.find? id).filter fun l => l.hostUserId = userId

/-- The second phase: the page of the rows found, and the cursor made from its last one. -/
def hydratedPage (pf : ListPlatform) (listings : HostListingTable) (userId : ℕ)
    (ctx : HostListCursorContext) (sort : HostListingSort) (limit : ℕ)
    (entities : List HostListingRow) : Page HostListingRow String :=
  let hasNext : Bool := limit < entities.length
  let pageEntities := if hasNext then entities.take limit else entities
  let ordered := hydrate listings userId (pageEntities.map HostListingRow.id)
  { items := ordered
    next :=
      if hasNext then
        pageEntities.getLast?.map fun last =>
          let lastHydrated := (ordered.find? fun l => l.id = last.id).getD last
          encodeHostListCursor pf ctx (listingCursorKeys sort lastHydrated) last.id
      else none }

/-- A page with its `next_cursor`. The rows of the query are those of the listings, since
it joins at most the one rate plan of each. -/
def listHostListingsPage (pf : ListPlatform) (listings : HostListingTable) (userId : ℕ)
    (query : HostListingsListQuery) : Except StaysError (Page HostListingRow String) := do
  let limit := pageLimit query.limit
  let sort := query.sort.getD .default
  let ctx := cursorContext pf userId query
  let cursorPayload ← decodeHostListCursor pf query.cursor ctx
  let entities := (orderBy (listingOrder pf sort) (listings.rows.filter fun l =>
    matchesQuery pf userId query l &&
      cursorPayload.all fun c => applyListingKeyset pf sort c l)).take (limit + 1)
  .ok (hydratedPage pf listings userId ctx sort limit entities)

end NexaStays.HostListings
