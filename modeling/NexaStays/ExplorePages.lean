import NexaStays.Explore
import NexaStays.SampleCodec
import Mathlib.Tactic.DeriveEncodable

/-!
# The pages of explore

A cursor holds the instant of the last listing of its page in milliseconds. The listings
of that millisecond are therefore told apart by their ids alone, while the `ORDER BY` has
them by their microseconds first. In the other orders no page but the first is answered.
-/
namespace NexaStays.ExplorePages

open NexaStays.KeyedTable NexaStays.Keyset NexaStays.SqlText NexaStays.Explore
  NexaStays.SampleCodec

/-- The instants and the ids that a cursor holds are read back from their texts. -/
structure Lawful (pf : Platform) : Prop where
  newDate_toISOString : ∀ t, pf.newDate (.string (pf.toISOString t)) = some t
  newDate_number : ∀ t : ℤ, pf.newDate (.number t) = some t
  uuid_uuidText : ∀ id, pf.uuid (.string (pf.uuidText id)) = some id
  toISOString_ne : ∀ t, pf.toISOString t ≠ ""
  uuidText_ne : ∀ id, pf.uuidText id ≠ ""

/-- The listings that satisfy the filters, in the order of the `ORDER BY`. -/
def matching (pf : Platform) (db : ExploreDb) (params : ExploreQueryParams) (now : ℤ) :
    List ListingRow :=
  orderBy (exploreOrder (normalizeExploreSort params.sort))
    (db.listings.rows.filter (matchesQuery pf db.unavailableListingIds params now))

/-- The later listing in the list is the one with the smaller id, as the cursor has it. -/
def IdsAgree (r x : ListingRow) : Prop :=
  x.id < r.id ↔ x.createdAt < r.createdAt ∨ x.createdAt = r.createdAt ∧ x.id < r.id

instance (r x : ListingRow) : Decidable (IdsAgree r x) :=
  inferInstanceAs (Decidable (_ ↔ _))

section Order

variable {sort : ExploreSort} {r x : ListingRow}

theorem id_eq_of_exploreOrder_eq (h : exploreOrder sort r = exploreOrder sort x) :
    r.id = x.id := by
  have hsnd := (Prod.ext_iff.mp (toLex_inj.mp h)).2
  exact OrderDual.toDual_inj.mp (Prod.ext_iff.mp (toLex_inj.mp hsnd)).2

/-- Of the orders only the one by the instant goes on with a cursor. -/
theorem newest_lt_iff :
    exploreOrder .newest r < exploreOrder .newest x ↔
      x.createdAt < r.createdAt ∨ x.createdAt = r.createdAt ∧ x.id < r.id := by
  simp only [exploreOrder, exploreRank, Prod.Lex.toLex_lt_toLex, lt_irrefl, false_or, true_and,
    neg_lt_neg_iff, neg_inj, OrderDual.toDual_lt_toDual, eq_comm]

/-- A listing with its instant as a cursor has it. -/
def rounded (l : ListingRow) : ListingRow := { l with createdAt := toMillis l.createdAt }

/-- The order with instants in milliseconds is the order, but for listings that the
`ORDER BY` has apart by their microseconds and the cursor by their ids. -/
theorem rounded_agrees_iff :
    (exploreOrder .newest (rounded r) < exploreOrder .newest (rounded x) ↔
      exploreOrder .newest r < exploreOrder .newest x) ↔
      (toMillis r.createdAt = toMillis x.createdAt → IdsAgree r x) := by
  rw [newest_lt_iff, newest_lt_iff]
  simp only [IdsAgree, rounded, toMillis]
  by_cases hmillis : r.createdAt / 1000 = x.createdAt / 1000
  · simp only [hmillis, lt_irrefl, false_or, true_and, true_implies]
  · have hlt : x.createdAt / 1000 < r.createdAt / 1000 ↔ x.createdAt < r.createdAt := by omega
    have hne : x.createdAt / 1000 ≠ r.createdAt / 1000 := by omega
    have hne' : x.createdAt ≠ r.createdAt := by rintro h; omega
    simp [hmillis, hlt, hne, hne']

end Order

section Cursor

variable {pf : Platform} {sort : ExploreSort} {params : ExploreQueryParams}

end Cursor

section Service

variable {pf : Platform} {codec : LawfulCodec} {db : ExploreDb} {params : ExploreQueryParams}
  {sort : ExploreSort} {now : ℤ} {clock : Option String → ℤ}

/-- What comes after a page, by the cursor of the listing that closes it. -/
def afterPage (found : List ListingRow) (x : ListingRow) : Bool :=
  found.getLast?.all fun r => exploreOrder .newest (rounded r) < exploreOrder .newest (rounded x)

theorem narrows_afterPage : Narrows afterPage := by
  intro found later hlater hall x hx
  obtain ⟨r', hr'⟩ : ∃ r', later.getLast? = some r' :=
    Option.isSome_iff_exists.mp (List.getLast?_isSome.mpr hlater)
  cases hr : found.getLast? with
  | none => simp [afterPage, hr]
  | some r =>
    have hlast := hall r' (List.mem_of_getLast? hr')
    simp only [afterPage, hr, hr', Option.all_some, decide_eq_true_iff] at hlast hx ⊢
    exact lt_trans hlast hx

theorem nodup_exploreOrder (rows : List ListingRow) (h : (rows.map ListingRow.id).Nodup) :
    (rows.map (exploreOrder sort)).Nodup := by
  refine List.Nodup.map_on ?_ (List.Nodup.of_map _ h)
  intro a ha b hb hab
  exact List.inj_on_of_nodup_map h ha hb (id_eq_of_exploreOrder_eq hab)

theorem nodup_matches (db : ExploreDb) (p : ListingRow → Bool) :
    ((db.listings.rows.filter p).map (exploreOrder sort)).Nodup :=
  nodup_exploreOrder _ (db.listings.nodup.sublist (List.filter_sublist.map _))

theorem pairwise_matching : (matching pf db params now).Pairwise fun a b =>
    exploreOrder (normalizeExploreSort params.sort) a <
      exploreOrder (normalizeExploreSort params.sort) b :=
  pairwise_orderBy (nodup_matches db _)

/-- The text that a page's cursor is sent as. -/
def cursorText (pf : Platform) (codec : CursorCodec) (sort : ExploreSort) (snapshot : JsonValue)
    (found : List ListingRow) : String :=
  (found.getLast?.map fun r =>
    encodeExploreCursor codec (buildNextCursor pf sort snapshot r)).getD ""

end Service

section Samples

deriving instance Encodable for JsonValue
deriving instance Encodable for ExploreCursorPayload

/-- The dates of the samples. -/
def sampleISOString (t : ℤ) : String :=
  if t = 2000 then "1970-01-01T00:00:02.000Z"
  else writeSample "1970-01-01T00:00:01.000Z" 1000 t

def sampleDate (s : String) : Option ℤ :=
  if s = "1970-01-01T00:00:02.000Z" then some 2000
  else readSample "1970-01-01T00:00:01.000Z" 1000 s

def samplePlatform : Platform where
  sqlLower s := String.ofList (s.toList.map Char.toLower)
  sqlUpper s := String.ofList (s.toList.map Char.toUpper)
  toLowerCase s := String.ofList (s.toList.map Char.toLower)
  sha256Hex s := s
  numberText x := toString x.num
  round x := x
  toISOString := sampleISOString
  newDate
    | .string s => sampleDate s
    | .number x => some ⌊x⌋
    | _ => none
  uuidText := writeSample "00000000-0000-0000-0000-000000000001" 1
  uuid
    | .string s => readSample "00000000-0000-0000-0000-000000000001" 1 s
    | _ => none
  maxBoundsSpanDeg := 15

def sampleListing (id : ℕ) (createdAt : ℤ) : ListingRow where
  id
  status := .live
  createdAt
  city := "Rabat"
  neighborhood := none
  listingType := .riad
  geoLat := none
  geoLng := none
  instantBooking := false
  avgRating := none
  reviewCount := 0
  basePrice := some 500
  rules := none
  hasWalkthrough := false

/-- The cursor of the first page in the samples. -/
@[irreducible] def sampleText : String :=
  "eyJ2IjoxLCJzIjoibmV3ZXN0Iiwic25hcHNob3QiOiIxOTcwLTAxLTAxVDAwOjAwOjAyLjAwMFoiLCJ" ++ "j" ++
  "IjoiMTk3MC0wMS0wMVQwMDowMDowMS4wMDBaIiwiaSI6IjAwMDAwMDAwLTAwMDAtMDAwMC0wMDAwLTAwMDAwMDAw" ++
  "MDAwMSJ9"

/-- The second listing was created in the same millisecond as the first one. -/
def oneMillisecond : ExploreDb :=
  ⟨⟨[sampleListing 1 1000900, sampleListing 2 1000500], by decide⟩, fun _ _ => []⟩

end Samples

end NexaStays.ExplorePages
