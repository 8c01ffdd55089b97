import NexaStays.Database
import NexaStays.Keyset
import NexaStays.SqlText
import Mathlib.Data.Prod.Lex
import Mathlib.Order.WithBot
import Mathlib.Order.OrderDual
import Mathlib.Algebra.Order.Ring.Rat
import Mathlib.Data.Rat.Floor

/-!
# Explore

`ExploreService.exploreListings` with its filters, its four orders and its cursors. The
`created_at` column counts microseconds; the instants of the service, also those in a
cursor, count milliseconds. A page is given as the rows of its listings: what a card adds
to them is read from their media. A cursor may come from anywhere, with values of any kind
in its fields, and what the database cannot take as a parameter makes the request fail.
-/
namespace NexaStays.Explore

open NexaStays.KeyedTable NexaStays.Database NexaStays.Keyset NexaStays.SqlText

inductive ListingType where
  | apartment | hotel | riad | villa | hostel
  deriving DecidableEq, Repr

def ListingType.text : ListingType → String
  | .apartment => "APARTMENT"
  | .hotel => "HOTEL"
  | .riad => "RIAD"
  | .villa => "VILLA"
  | .hostel => "HOSTEL"

inductive PetsPolicy where
  | allowed | dogsCats | no
  deriving DecidableEq, Repr

structure ListingRules where
  petsPolicy : Option PetsPolicy
  maxGuests : ℤ
  amenities : List String
  deriving DecidableEq, Repr

/-- A listing with its rate plan and its rules. Prices have at most ten digits and ratings
three, so that they are the same numbers in a cursor. -/
structure ListingRow where
  id : ℕ
  status : ListingStatus
  createdAt : ℤ
  city : String
  neighborhood : Option String
  listingType : ListingType
  geoLat : Option ℚ
  geoLng : Option ℚ
  instantBooking : Bool
  avgRating : Option ℚ
  reviewCount : ℤ
  basePrice : Option ℚ
  rules : Option ListingRules
  hasWalkthrough : Bool
  deriving DecidableEq, Repr

/-- The listings, and the ids that `getUnavailableListingIds` finds for two dates. -/
structure ExploreDb where
  listings : Table ListingRow.id
  unavailableListingIds : String → String → List ℕ

inductive ExploreSort where
  | newest | rating | priceAsc | priceDesc
  deriving DecidableEq, Repr

def ExploreSort.text : ExploreSort → String
  | .newest => "newest"
  | .rating => "rating"
  | .priceAsc => "price_asc"
  | .priceDesc => "price_desc"

/-- `EXPLORE_SORTS`. -/
def exploreSorts : List ExploreSort := [.newest, .rating, .priceAsc, .priceDesc]

def normalizeExploreSort (raw : Option String) : ExploreSort :=
  ((exploreSorts.find? fun s => raw = some s.text)).getD .newest

structure ExploreQueryParams where
  city : Option String := none
  checkinDate : Option String := none
  checkoutDate : Option String := none
  guests : Option ℤ := none
  verifiedWalkthroughOnly : Option Bool := none
  instantBookingOnly : Option Bool := none
  listingType : Option String := none
  amenity : Option String := none
  petsAllowed : Option Bool := none
  luxuryOnly : Option Bool := none
  familyFriendly : Option Bool := none
  neighborhood : Option String := none
  nearLat : Option ℚ := none
  nearLng : Option ℚ := none
  nearRadiusKm : Option ℚ := none
  limit : Option ℤ := none
  cursor : Option String := none
  sort : Option String := none
  north : Option ℚ := none
  south : Option ℚ := none
  east : Option ℚ := none
  west : Option ℚ := none
  deriving DecidableEq, Repr

/-- A value of JSON that is not `null`; an array or an object is given by its text. -/
inductive JsonValue where
  | bool (b : Bool)
  | number (x : ℚ)
  | string (s : String)
  | composite (text : String)
  deriving DecidableEq, Repr

/-- The language takes the value for true. -/
def JsonValue.truthy : JsonValue → Bool
  | .bool b => b
  | .number x => x ≠ 0
  | .string s => s ≠ ""
  | .composite _ => true

/-- What the service leaves to its platform: `LOWER` and `UPPER` of the database, the
lower case, the hash, the numbers and the dates of the language, and its environment. -/
structure Platform where
  sqlLower : String → String
  sqlUpper : String → String
  toLowerCase : String → String
  sha256Hex : String → String
  numberText : ℚ → String
  /-- The double nearest to a number. -/
  round : ℚ → ℚ
  toISOString : ℤ → String
  /-- `new Date` of a value, if it is a date that the database takes. -/
  newDate : JsonValue → Option ℤ
  uuidText : ℕ → String
  /-- The id that the database reads a parameter as. -/
  uuid : JsonValue → Option ℕ
  maxBoundsSpanDeg : ℚ

/-- A bad request by its `code` and `message`. -/
structure BadRequest where
  code : String
  message : String
  deriving DecidableEq, Repr

/-- `ExploreCursorPayload` as it is read; a field that is absent or `null` is `none`. -/
structure ExploreCursorPayload where
  v : Option JsonValue
  s : Option JsonValue
  snapshot : Option JsonValue
  c : Option JsonValue
  i : Option JsonValue
  r : Option JsonValue
  n : Option JsonValue
  p : Option JsonValue
  deriving DecidableEq, Repr

/-- The JSON text of a payload in base64url, and the fields of the object that such a text
is read as. -/
structure CursorCodec where
  write : ExploreCursorPayload → String
  read : String → Option ExploreCursorPayload

/-- `CURSOR_PREFIX`. -/
def cursorPrefix : String := "v1."

def encodeExploreCursor (codec : CursorCodec) (payload : ExploreCursorPayload) : String :=
  cursorPrefix ++ codec.write payload

def invalidCursor : BadRequest := ⟨"invalid_cursor", "Invalid or unsupported cursor."⟩

def invalidBounds (message : String) : BadRequest := ⟨"invalid_bounds", message⟩

/-- `validateBounds` without truncation, for a request that gives one of the bounds. -/
def validateBounds (pf : Platform) (params : ExploreQueryParams) : Except BadRequest Unit :=
  match params.north, params.south, params.east, params.west with
  | none, none, none, none => .ok ()
  | some north, some south, some east, some west =>
    if north < -90 ∨ 90 < north ∨ south < -90 ∨ 90 < south ∨
        east < -180 ∨ 180 < east ∨ west < -180 ∨ 180 < west then
      .error (invalidBounds "Bounds must be finite latitudes/longitudes in range.")
    else if north ≤ south then .error (invalidBounds "north must be greater than south.")
    else if east = west then
      .error (invalidBounds "east and west must define a non-zero width.")
    else if pf.maxBoundsSpanDeg < pf.round (north - south) ∨
        pf.maxBoundsSpanDeg < |pf.round (east - west)| then
      .error (invalidBounds ("Map bounds span too large (max " ++
        pf.numberText pf.maxBoundsSpanDeg ++ "°). Zoom in and try again."))
    else .ok ()
  | _, _, _, _ =>
    .error (invalidBounds "Bounds must be finite latitudes/longitudes in range.")

/-- The text of an optional parameter, if it is not blank, without its outer blanks. -/
def given (text : Option String) : Option String :=
  text.bind fun t => if trim t = "" then none else some (trim t)

def isYmd (text : String) : Bool :=
  match text.toList with
  | [y₁, y₂, y₃, y₄, d₁, m₁, m₂, d₂, t₁, t₂] =>
    [y₁, y₂, y₃, y₄, m₁, m₂, t₁, t₂].all Char.isDigit && d₁ = '-' && d₂ = '-'
  | _ => false

def matchesCity (pf : Platform) (params : ExploreQueryParams) (city : String) : Bool :=
  (given params.city).all fun text => like (pf.sqlLower city) (pf.sqlLower (text ++ "%"))

def matchesNeighborhood (pf : Platform) (params : ExploreQueryParams)
    (neighborhood : Option String) : Bool :=
  (given params.neighborhood).all fun text => neighborhood.any fun n =>
    like (pf.sqlLower n) (pf.sqlLower ("%" ++ text ++ "%"))

/-- The conditions on the type of a listing, and on its price where the type is not one of
luxury. -/
def matchesType (pf : Platform) (params : ExploreQueryParams) (listingType : ListingType)
    (basePrice : Option ℚ) : Bool :=
  ((params.listingType.filter (· ≠ "")).all fun text =>
    pf.sqlUpper listingType.text = pf.sqlUpper (trim text)) &&
  (params.luxuryOnly ≠ some true ||
    (listingType = .villa ∨ listingType = .riad) || basePrice.any fun p => 1500 ≤ p)

def matchesRules (params : ExploreQueryParams) (rules : Option ListingRules) : Bool :=
  ((given params.amenity).all fun amenity => rules.any fun r => amenity ∈ r.amenities) &&
  (params.petsAllowed ≠ some true ||
    rules.any fun r => r.petsPolicy.any fun policy => policy ≠ .no) &&
  (params.familyFriendly ≠ some true || rules.any fun r => 4 ≤ r.maxGuests) &&
  ((params.guests.filter (0 < ·)).all fun guests => rules.any fun r => guests ≤ r.maxGuests)

/-- The condition of a filter that is a flag. -/
def matchesFlag (flag : Option Bool) (column : Bool) : Bool := flag ≠ some true || column

def between (low high : ℚ) (x : Option ℚ) : Bool := x.any fun x => low ≤ x ∧ x ≤ high

/-- Degrees of latitude are taken to be 111 km wide. -/
def matchesNear (pf : Platform) (params : ExploreQueryParams) (geoLat geoLng : Option ℚ) :
    Bool :=
  match params.nearLat, params.nearLng, params.nearRadiusKm with
  | some lat, some lng, some radius =>
    let delta := pf.round (radius / 111)
    geoLat.isSome && geoLng.isSome &&
      between (pf.round (lat - delta)) (pf.round (lat + delta)) geoLat &&
      between (pf.round (lng - delta)) (pf.round (lng + delta)) geoLng
  | _, _, _ => true

/-- A box whose west is east of its east goes across the antimeridian. -/
def matchesBounds (params : ExploreQueryParams) (geoLat geoLng : Option ℚ) : Bool :=
  match params.north, params.south, params.east, params.west with
  | some north, some south, some east, some west =>
    geoLat.isSome && geoLng.isSome && between south north geoLat &&
      if west ≤ east then between west east geoLng
      else geoLng.any fun lng => west ≤ lng ∨ lng ≤ east
  | _, _, _, _ => true

def matchesPoint (pf : Platform) (params : ExploreQueryParams) (geoLat geoLng : Option ℚ) :
    Bool :=
  matchesNear pf params geoLat geoLng && matchesBounds params geoLat geoLng

/-- The dates of the stay, if both are dates, one after the other. -/
def stayDates (params : ExploreQueryParams) : Option (String × String) :=
  match given params.checkinDate, given params.checkoutDate with
  | some checkin, some checkout =>
    if isYmd checkin && isYmd checkout && checkin < checkout then some (checkin, checkout)
    else none
  | _, _ => none

def matchesDates (unavailable : String → String → List ℕ) (params : ExploreQueryParams)
    (id : ℕ) : Bool :=
  (stayDates params).all fun dates => id ∉ unavailable dates.1 dates.2

/-- The `WHERE` of `queryListings` without what is asked of the instant. -/
def matchesFilters (pf : Platform) (unavailable : String → String → List ℕ)
    (params : ExploreQueryParams) (l : ListingRow) : Bool :=
  matchesCity pf params l.city && matchesType pf params l.listingType l.basePrice &&
    matchesRules params l.rules && matchesNeighborhood pf params l.neighborhood &&
    matchesPoint pf params l.geoLat l.geoLng &&
    matchesFlag params.instantBookingOnly l.instantBooking &&
    matchesFlag params.verifiedWalkthroughOnly l.hasWalkthrough &&
    matchesDates unavailable params l.id

/-- The `WHERE` of `queryListings`, without what the cursor adds to it. -/
def matchesQuery (pf : Platform) (unavailable : String → String → List ℕ)
    (params : ExploreQueryParams) (snapshot : ℤ) (l : ListingRow) : Bool :=
  l.status = .live && l.createdAt ≤ snapshot * 1000 && matchesFilters pf unavailable params l

/-- The parameters of `createdTie`, with the millisecond that ends its window. -/
structure CreatedTie where
  cursorCreated : ℤ
  cursorCreatedEnd : ℤ
  cursorId : ℕ
  deriving DecidableEq, Repr

/-- The instant of the cursor is a millisecond of the column. -/
def CreatedTie.precedes (tie : CreatedTie) (createdAt : ℤ) (id : ℕ) : Bool :=
  createdAt < tie.cursorCreated * 1000 ∨ tie.cursorCreated * 1000 ≤ createdAt ∧
    createdAt < tie.cursorCreatedEnd * 1000 ∧ id < tie.cursorId

/-- The terms of the `ORDER BY` before the instant; a descending column is negated. -/
def exploreRank (sort : ExploreSort) (l : ListingRow) : WithTop ℚ ×ₗ ℚ :=
  match sort with
  | .newest => toLex (0, 0)
  | .rating => toLex (nullsLast (l.avgRating.map fun x => -x), -l.reviewCount)
  | .priceAsc => toLex (nullsLast l.basePrice, 0)
  | .priceDesc => toLex (nullsLast (l.basePrice.map fun x => -x), 0)

/-- The `ORDER BY` terms; the instant and the id are descending in all four orders. -/
def exploreOrder (sort : ExploreSort) (l : ListingRow) : (WithTop ℚ ×ₗ ℚ) ×ₗ ℤ ×ₗ ℕᵒᵈ :=
  toLex (exploreRank sort l, toLex (-l.createdAt, OrderDual.toDual l.id))

/-- `toISOString` of a date that the driver read from the column. -/
def toMillis (instant : ℤ) : ℤ := instant / 1000

def buildNextCursor (pf : Platform) (sort : ExploreSort) (snapshot : JsonValue)
    (last : ListingRow) : ExploreCursorPayload where
  v := some (.number 1)
  s := some (.string sort.text)
  snapshot := some snapshot
  c := some (.string (pf.toISOString (toMillis last.createdAt)))
  i := some (.string (pf.uuidText last.id))
  r := if sort = .rating then last.avgRating.map .number else none
  n := if sort = .rating then some (.number last.reviewCount) else none
  p := if sort = .priceAsc ∨ sort = .priceDesc then last.basePrice.map .number else none

/-- The envelope of a page, without its measurements. -/
structure ExploreListEnvelope where
  items : List ListingRow
  nextCursor : Option String
  hasMore : Bool
  sort : ExploreSort
  deriving DecidableEq, Repr

/-- `CARD_LIMIT_DEFAULT` and `CARD_LIMIT_MAX`. -/
def pageLimit (limit : Option ℤ) : ℕ := (min (max (limit.getD 24) 1) 48).toNat

/-- A page from the rows that were found for it. -/
def envelope (pf : Platform) (codec : CursorCodec) (sort : ExploreSort) (limit : ℕ)
    (snapshot : JsonValue) (rows : List ListingRow) : ExploreListEnvelope :=
  let hasMore : Bool := limit < rows.length
  let page := if hasMore then rows.take limit else rows
  { items := page
    nextCursor :=
      if hasMore then
        page.getLast?.map fun last =>
          encodeExploreCursor codec (buildNextCursor pf sort snapshot last)
      else none
    hasMore
    sort }

end NexaStays.Explore
