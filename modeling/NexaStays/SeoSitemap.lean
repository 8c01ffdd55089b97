import NexaStays.Keyset
import NexaStays.ListingOperations

/-!
# Listings in the sitemap

`seo-listing.service`: the sitemap visits the live listings in batches, by their ids, and
keeps those that pass the gate of the listing page.
-/
namespace NexaStays.SeoSitemap

open NexaStays.KeyedTable NexaStays.Database NexaStays.Keyset
open NexaStays.SqlText (trim utf16Length)

inductive MediaKind where
  | photo | walkthrough | other
  deriving DecidableEq, Repr

structure ListingMedia where
  kind : MediaKind
  assetId : ℕ
  deriving DecidableEq, Repr

/-- A listing with its media. Ratings are numbers of the language. -/
structure SeoListing (ι : Type) where
  id : ι
  status : ListingStatus
  title : String
  description : Option String
  city : String
  neighborhood : Option String
  avgRating : Option Float
  reviewCount : ℕ
  media : List ListingMedia
  createdAt : ℤ
  updatedAt : Option ℤ

/-- The texts of the ids. -/
structure IdTexts (ι : Type) where
  text : ι → String
  text_injective : Function.Injective text

inductive SeoLocale where
  | en | fr | ar
  deriving DecidableEq, Repr

def SeoLocale.text : SeoLocale → String
  | .en => "en"
  | .fr => "fr"
  | .ar => "ar"

/-- `LOCALES`. -/
def locales : List SeoLocale := [.en, .fr, .ar]

variable {ι : Type} (ids : IdTexts ι)

def listingPath (locale : SeoLocale) (id : ι) : String :=
  "/" ++ locale.text ++ "/listings/" ++ ids.text id

structure ScoreArgs where
  photoCount : ℕ
  descriptionLength : ℕ
  reviewCount : ℕ
  avgRating : Option Float
  hasWalkthrough : Bool

/-- `Math.min(100, x)`. -/
def atMost100 (x : Float) : Float := if x < 100 then x else 100

/-- `Math.round`. -/
def mathRound (x : Float) : Float := (x + 0.5).floor

def computeListingSeoScore (args : ScoreArgs) : Float :=
  let photoScore :=
    atMost100 (if 5 ≤ args.photoCount then 100 else if 1 ≤ args.photoCount then 70 else 0)
  let descScore := atMost100 (args.descriptionLength.toFloat / 200 * 100)
  let reviewScore :=
    match args.avgRating with
    | some rating => atMost100 (rating / 5 * 100)
    | none => if 0 < args.reviewCount then 50 else 30
  let walkthroughScore := if args.hasWalkthrough then 100 else 40
  mathRound (photoScore * 0.35 + descScore * 0.3 + reviewScore * 0.2 + walkthroughScore * 0.15)

/-- `LISTING_INDEXABLE_SCORE_THRESHOLD`. -/
def scoreThreshold : Float := 70

def isListingIndexable (seoScore : Float) (photoCount titleLength descriptionLength : ℕ)
    (status : ListingStatus) : Bool :=
  status = .live && 1 ≤ photoCount && 5 ≤ titleLength && 30 ≤ descriptionLength &&
    decide (scoreThreshold ≤ seoScore)

def photosOf (listing : SeoListing ι) : List ListingMedia :=
  listing.media.filter fun m => m.kind = .photo

def hasWalkthrough (listing : SeoListing ι) : Bool :=
  listing.media.any fun m => m.kind = .walkthrough

def isListingEligibleForSitemap (listing : SeoListing ι) : Bool :=
  let photos := photosOf listing
  let description := listing.description.elim "" trim
  let title := trim listing.title
  let seoScore := computeListingSeoScore
    { photoCount := photos.length
      descriptionLength := utf16Length description
      reviewCount := listing.reviewCount
      avgRating := listing.avgRating
      hasWalkthrough := hasWalkthrough listing }
  isListingIndexable seoScore photos.length (utf16Length title) (utf16Length description)
    listing.status

structure SitemapEntryDto where
  path : String
  locale : SeoLocale
  lastmod : ℤ
  priority : ℚ
  deriving DecidableEq, Repr

/-- `byPath.set`. -/
def setEntry (byPath : List SitemapEntryDto) (e : SitemapEntryDto) : List SitemapEntryDto :=
  if e.path ∈ byPath.map (·.path) then byPath.map fun x => if x.path = e.path then e else x
  else byPath ++ [e]

def entryOf (listing : SeoListing ι) (locale : SeoLocale) : SitemapEntryDto :=
  { path := listingPath ids locale listing.id
    locale
    lastmod := listing.updatedAt.getD listing.createdAt
    priority := 8 / 10 }

def addListing (byPath : List SitemapEntryDto) (listing : SeoListing ι) : List SitemapEntryDto :=
  if isListingEligibleForSitemap listing then
    locales.foldl (fun byPath locale => setEntry byPath (entryOf ids listing locale)) byPath
  else byPath

section Collected

variable {ids}

/-- Paths tell locales and ids apart. -/
theorem listingPath_inj {locale locale' : SeoLocale} {id id' : ι} :
    listingPath ids locale id = listingPath ids locale' id' ↔ locale = locale' ∧ id = id' := by
  constructor
  · intro h
    have hchars := congrArg String.toList h
    simp only [listingPath, String.toList_append, List.append_assoc] at hchars
    have htail := List.append_cancel_left hchars
    have hlength : locale.text.toList.length = locale'.text.toList.length := by
      cases locale <;> cases locale' <;> rfl
    obtain ⟨hlocale, hrest⟩ := List.append_inj htail hlength
    have hid := String.toList_inj.mp (List.append_cancel_left hrest)
    refine ⟨?_, ids.text_injective hid⟩
    cases locale <;> cases locale' <;> first | rfl | exact absurd hlocale (by decide)
  · rintro ⟨rfl, rfl⟩
    rfl

theorem mem_paths_setEntry {byPath : List SitemapEntryDto} {e : SitemapEntryDto} {p : String} :
    p ∈ (setEntry byPath e).map (·.path) ↔ p ∈ byPath.map (·.path) ∨ p = e.path := by
  by_cases h : e.path ∈ byPath.map (·.path)
  · have hsame : (setEntry byPath e).map (·.path) = byPath.map (·.path) := by
      rw [setEntry, if_pos h, List.map_map]
      refine List.map_congr_left fun x _ => ?_
      by_cases hx : x.path = e.path <;> simp [hx]
    rw [hsame]
    exact ⟨Or.inl, fun hp => hp.elim id fun hp => hp ▸ h⟩
  · rw [setEntry, if_neg h]
    simp

theorem nodup_paths_setEntry {byPath : List SitemapEntryDto} {e : SitemapEntryDto}
    (hnodup : (byPath.map (·.path)).Nodup) : ((setEntry byPath e).map (·.path)).Nodup := by
  by_cases h : e.path ∈ byPath.map (·.path)
  · have hsame : (setEntry byPath e).map (·.path) = byPath.map (·.path) := by
      rw [setEntry, if_pos h, List.map_map]
      refine List.map_congr_left fun x _ => ?_
      by_cases hx : x.path = e.path <;> simp [hx]
    rwa [hsame]
  · rw [setEntry, if_neg h, List.map_append]
    exact List.nodup_append.mpr ⟨hnodup, by simp, fun a ha b hb => by
      have hb' : b = e.path := by simpa using hb
      rintro rfl
      exact h (hb' ▸ ha)⟩

theorem addListing_spec (listing : SeoListing ι) {byPath : List SitemapEntryDto}
    (hnodup : (byPath.map (·.path)).Nodup) :
    ((addListing ids byPath listing).map (·.path)).Nodup ∧
      ∀ p, p ∈ (addListing ids byPath listing).map (·.path) ↔ p ∈ byPath.map (·.path) ∨
        isListingEligibleForSitemap listing = true ∧
          ∃ locale, p = listingPath ids locale listing.id := by
  by_cases h : isListingEligibleForSitemap listing = true
  · have hadd : addListing ids byPath listing = setEntry (setEntry (setEntry byPath
        (entryOf ids listing .en)) (entryOf ids listing .fr)) (entryOf ids listing .ar) := by
      rw [addListing, if_pos h]
      rfl
    rw [hadd]
    refine ⟨nodup_paths_setEntry (nodup_paths_setEntry (nodup_paths_setEntry hnodup)),
      fun p => ?_⟩
    have hlocales : (∃ locale, p = listingPath ids locale listing.id) ↔
        p = listingPath ids .en listing.id ∨ p = listingPath ids .fr listing.id ∨
          p = listingPath ids .ar listing.id := by
      constructor
      · rintro ⟨locale, hp⟩
        cases locale
        · exact Or.inl hp
        · exact Or.inr (Or.inl hp)
        · exact Or.inr (Or.inr hp)
      · rintro (hp | hp | hp)
        · exact ⟨.en, hp⟩
        · exact ⟨.fr, hp⟩
        · exact ⟨.ar, hp⟩
    simp only [mem_paths_setEntry, entryOf, h, true_and, hlocales, or_assoc]
  · rw [addListing, if_neg h]
    exact ⟨hnodup, fun p => by simp [h]⟩

theorem foldl_addListing_spec (ids : IdTexts ι) (batch : List (SeoListing ι))
    {byPath : List SitemapEntryDto}
    (hnodup : (byPath.map (·.path)).Nodup) :
    ((batch.foldl (addListing ids) byPath).map (·.path)).Nodup ∧
      ∀ p, p ∈ (batch.foldl (addListing ids) byPath).map (·.path) ↔ p ∈ byPath.map (·.path) ∨
        ∃ l ∈ batch, isListingEligibleForSitemap l = true ∧
          ∃ locale, p = listingPath ids locale l.id := by
  induction batch generalizing byPath with
  | nil => exact ⟨hnodup, fun p => by simp⟩
  | cons l batch ih =>
    obtain ⟨hone, hmem⟩ := addListing_spec l hnodup
    obtain ⟨hrest, hmemRest⟩ := ih hone
    refine ⟨hrest, fun p => ?_⟩
    rw [List.foldl_cons, hmemRest, hmem]
    simp only [List.mem_cons, exists_eq_or_imp, or_assoc]

end Collected

variable [LinearOrder ι]

structure SeoListingPage (ι : Type) where
  locale : SeoLocale
  listingId : ι
  path : String
  title : String
  h1 : String
  robots : String
  city : String
  neighborhood : Option String
  avgRating : Option Float
  reviewCount : ℕ
  hasWalkthrough : Bool
  indexable : Bool
  seoScore : Float
  lastmod : ℤ

/-- The tables of the listings, whose ids are their keys. -/
abbrev Listings (ι : Type) := Table (SeoListing.id (ι := ι))

def buildListingPage (db : Listings ι) (listingId : ι) (locale : SeoLocale) :
    Except StaysError (SeoListingPage ι) :=
  match db.find? listingId with
  | none => .error (.notFound "Listing not found")
  | some listing =>
    if listing.status ≠ .live then .error (.notFound "Listing not found")
    else
      let photos := photosOf listing
      let description := listing.description.elim "" trim
      let title := trim listing.title
      let city := trim listing.city
      let neighborhood := (listing.neighborhood.map trim).filter (· ≠ "")
      let seoScore := computeListingSeoScore
        { photoCount := photos.length
          descriptionLength := utf16Length description
          reviewCount := listing.reviewCount
          avgRating := listing.avgRating
          hasWalkthrough := hasWalkthrough listing }
      let indexable := isListingIndexable seoScore photos.length (utf16Length title)
        (utf16Length description) listing.status
      .ok
        { locale
          listingId := listing.id
          path := listingPath ids locale listing.id
          title := title ++ " in " ++ city ++ " | Nexa Stays"
          h1 := title
          robots := if indexable then "index,follow" else "noindex,follow"
          city
          neighborhood
          avgRating := listing.avgRating
          reviewCount := listing.reviewCount
          hasWalkthrough := hasWalkthrough listing
          indexable
          seoScore
          lastmod := listing.updatedAt.getD listing.createdAt }

/-- `SITEMAP_BATCH_SIZE`. -/
def batchSize : ℕ := 250

/-- The live listings after an id, in the order of the ids. -/
def remaining (db : Listings ι) (afterId : Option ι) : List (SeoListing ι) :=
  orderBy SeoListing.id
    (db.rows.filter fun l => l.status = .live ∧ ∀ after ∈ afterId, after < l.id)

def idRows (db : Listings ι) (afterId : Option ι) : List ι :=
  ((remaining db afterId).take batchSize).map SeoListing.id

/-- `for (;;)`, with what is collected in `byPath`. -/
def sitemapLoop (db : Listings ι) :
    ℕ → Option ι → List SitemapEntryDto → Option (List SitemapEntryDto)
  | 0, _, _ => none
  | fuel + 1, afterId, byPath =>
    let idRows := idRows db afterId
    match idRows.getLast? with
    | none => some byPath
    | some last =>
      let batch := db.rows.filter fun l => l.id ∈ idRows
      let byPath := batch.foldl (addListing ids) byPath
      if idRows.length < batchSize then some byPath
      else sitemapLoop db fuel (some last) byPath

def listIndexableForSitemap (db : Listings ι) (fuel : ℕ) : Option (List SitemapEntryDto) :=
  sitemapLoop ids db fuel none []

variable {ids} {db : Listings ι} {afterId : Option ι}

theorem mem_remaining {l : SeoListing ι} : l ∈ remaining db afterId ↔
    l ∈ db.rows ∧ l.status = .live ∧ ∀ after ∈ afterId, after < l.id := by
  rw [remaining, mem_orderBy, List.mem_filter, decide_eq_true_iff]

theorem remaining_eq_filter : remaining db afterId = (remaining db none).filter
    fun l => ∀ after ∈ afterId, after < l.id := by
  have hrows : ∀ p : SeoListing ι → Bool, orderBy SeoListing.id (db.rows.filter p) =
      (orderBy SeoListing.id db.rows).filter p := orderBy_filter db.nodup
  rw [remaining, remaining, hrows, hrows, List.filter_filter]
  refine List.filter_congr fun l _ => ?_
  rw [← Bool.decide_and]
  refine decide_eq_decide.mpr ⟨fun h => ⟨h.2, h.1, fun _ hafter => by simp at hafter⟩,
    fun h => ⟨h.2.1, h.1⟩⟩

theorem pairwise_remaining (afterId : Option ι) :
    (remaining db afterId).Pairwise fun a b => a.id < b.id :=
  pairwise_orderBy (db.nodup_filter _)

/-- After a full batch there remain the listings that were not in it. -/
theorem remaining_last {last : SeoListing ι}
    (hlast : (remaining db afterId)[batchSize - 1]? = some last) :
    remaining db (some last.id) = (remaining db afterId).drop batchSize := by
  have hmem := mem_remaining.mp (List.mem_of_getElem? hlast)
  have hdrop := drop_eq_filter (pairwise_remaining afterId) hlast
  rw [show batchSize - 1 + 1 = batchSize from rfl] at hdrop
  rw [hdrop, remaining_eq_filter, @remaining_eq_filter _ _ _ afterId, List.filter_filter]
  refine List.filter_congr fun l _ => ?_
  rw [← Bool.decide_and]
  refine decide_eq_decide.mpr ⟨fun h => ?_, fun h after hafter => ?_⟩
  · have hl : last.id < l.id := h _ rfl
    exact ⟨hl, fun after hafter => (hmem.2.2 after hafter).trans hl⟩
  · obtain rfl := Option.some.inj hafter
    exact h.1

theorem mem_batch {l : SeoListing ι} :
    l ∈ db.rows.filter (fun l => l.id ∈ idRows db afterId) ↔
      l ∈ (remaining db afterId).take batchSize := by
  rw [List.mem_filter, decide_eq_true_iff, idRows, List.mem_map]
  constructor
  · rintro ⟨hrow, found, hfound, hid⟩
    have hrow' := (mem_remaining.mp (List.mem_of_mem_take hfound)).1
    rwa [← db.eq_of_key_eq hrow' hrow hid]
  · exact fun hl => ⟨(mem_remaining.mp (List.mem_of_mem_take hl)).1, l, hl, rfl⟩

/-- The last id of a batch, as the loop sees it. -/
theorem getLast?_idRows : (idRows db afterId).getLast? =
    ((remaining db afterId).take batchSize).getLast?.map SeoListing.id := by
  rw [idRows, List.getLast?_map]

/-- From any id on, the loop ends and collects the eligible listings after it. -/
theorem sitemapLoop_spec (ids : IdTexts ι) (n : ℕ) {afterId : Option ι}
    (hn : (remaining db afterId).length = n) {byPath : List SitemapEntryDto}
    (hnodup : (byPath.map (·.path)).Nodup) :
    ∃ entries, (∀ fuel, n < fuel → sitemapLoop ids db fuel afterId byPath = some entries) ∧
      (entries.map (·.path)).Nodup ∧ ∀ p, p ∈ entries.map (·.path) ↔ p ∈ byPath.map (·.path) ∨
        ∃ l ∈ remaining db afterId, isListingEligibleForSitemap l = true ∧
          ∃ locale, p = listingPath ids locale l.id := by
  induction n using Nat.strong_induction_on generalizing afterId byPath with
  | _ n ih =>
    obtain ⟨hbatch, hmem⟩ := foldl_addListing_spec ids
      (db.rows.filter fun l => l.id ∈ idRows db afterId) hnodup
    have hlength : (idRows db afterId).length = min batchSize n := by
      rw [idRows, List.length_map, List.length_take, hn]
    rcases hlast : ((remaining db afterId).take batchSize).getLast? with _ | last
    · -- no listing is left
      have hempty : (remaining db afterId).take batchSize = [] := List.getLast?_eq_none_iff.mp hlast
      have hnone : remaining db afterId = [] := by
        rcases List.take_eq_nil_iff.mp hempty with h | h
        · exact absurd h (by decide)
        · exact h
      refine ⟨byPath, fun fuel hfuel => ?_, hnodup, fun p => by simp [hnone]⟩
      obtain ⟨fuel, rfl⟩ := Nat.exists_eq_succ_of_ne_zero (by omega : fuel ≠ 0)
      simp only [sitemapLoop, getLast?_idRows, hlast, Option.map_none]
    · have hsome : (idRows db afterId).getLast? = some last.id := by
        rw [getLast?_idRows, hlast, Option.map_some]
      by_cases hpartial : n < batchSize
      · -- a batch that is not full is the last
        have htake : (remaining db afterId).take batchSize = remaining db afterId :=
          List.take_of_length_le (by omega)
        refine ⟨_, fun fuel hfuel => ?_, hbatch, fun p => ?_⟩
        · obtain ⟨fuel, rfl⟩ := Nat.exists_eq_succ_of_ne_zero (by omega : fuel ≠ 0)
          have hshort : (idRows db afterId).length < batchSize := by omega
          simp only [sitemapLoop, hsome, if_pos hshort]
        · simp only [hmem, mem_batch, htake]
      · have hfull : ¬(idRows db afterId).length < batchSize := by omega
        have hat : (remaining db afterId)[batchSize - 1]? = some last := by
          rw [List.getLast?_eq_getElem?, List.length_take, hn,
            Nat.min_eq_left (not_lt.mp hpartial), List.getElem?_take] at hlast
          rwa [if_pos (by decide)] at hlast
        have hrest := remaining_last hat
        have hfewer : ((remaining db (some last.id)).length) = n - batchSize := by
          rw [hrest, List.length_drop, hn]
        have hbatchSize : 0 < batchSize := by decide
        obtain ⟨entries, hloop, hunique, hentries⟩ :=
          ih (n - batchSize) (by omega) hfewer hbatch
        refine ⟨entries, fun fuel hfuel => ?_, hunique, fun p => ?_⟩
        · obtain ⟨fuel, rfl⟩ := Nat.exists_eq_succ_of_ne_zero (by omega : fuel ≠ 0)
          simp only [sitemapLoop, hsome, if_neg hfull]
          exact hloop fuel (by omega)
        · have hsplit : ∀ l, l ∈ remaining db afterId ↔
              l ∈ (remaining db afterId).take batchSize ∨
                l ∈ (remaining db afterId).drop batchSize := fun l => by
            rw [← List.mem_append, List.take_append_drop]
          simp only [hentries, hmem, mem_batch, hrest, hsplit, or_and_right, exists_or, or_assoc]

/-- The page of a listing is indexable exactly if the listing is live and passes the gate of
the sitemap. -/
theorem page_indexable_iff {id : ι} {locale : SeoLocale} :
    (∃ page, buildListingPage ids db id locale = .ok page ∧ page.indexable = true) ↔
      ∃ l ∈ remaining db none, l.id = id ∧ isListingEligibleForSitemap l = true := by
  constructor
  · rintro ⟨page, hpage, hindexable⟩
    rcases hfind : db.find? id with _ | l
    · simp [buildListingPage, hfind] at hpage
    · by_cases hlive : l.status = .live
      · simp only [buildListingPage, hfind, hlive, ne_eq, not_true, if_false,
          Except.ok.injEq] at hpage
        subst hpage
        refine ⟨l, mem_remaining.mpr ⟨Table.mem_of_find? hfind, hlive, by simp⟩,
          Table.key_of_find? hfind, ?_⟩
        simpa only [isListingEligibleForSitemap, hlive] using hindexable
      · simp [buildListingPage, hfind, hlive] at hpage
  · rintro ⟨l, hl, rfl, heligible⟩
    obtain ⟨hrow, hlive, -⟩ := mem_remaining.mp hl
    have hfind : db.find? l.id = some l := Table.find?_key hrow
    simp only [buildListingPage, hfind, hlive, ne_eq, not_true, if_false, Except.ok.injEq,
      exists_eq_left']
    simpa only [isListingEligibleForSitemap, hlive] using heligible

/-- The loop ends on every set of listings, and its paths are those of the pages that may be
indexed, each once. -/
theorem sitemap_eq_indexable_pages (ids : IdTexts ι) (db : Listings ι) :
    ∃ entries, (∀ fuel, db.rows.length < fuel →
        listIndexableForSitemap ids db fuel = some entries) ∧
      (entries.map (·.path)).Nodup ∧
      (∀ locale id, listingPath ids locale id ∈ entries.map (·.path) ↔
        ∃ page, buildListingPage ids db id locale = .ok page ∧ page.indexable = true) ∧
      ∀ p ∈ entries.map (·.path), ∃ locale id, p = listingPath ids locale id := by
  have hstart : (([] : List SitemapEntryDto).map (·.path)).Nodup := List.nodup_nil
  obtain ⟨entries, hloop, hnodup, hmem⟩ :=
    sitemapLoop_spec ids _ (rfl : (remaining db none).length = _) hstart
  have hle : (remaining db none).length ≤ db.rows.length := by
    rw [remaining, (orderBy_perm _).length_eq]
    exact List.length_filter_le _ _
  refine ⟨entries, fun fuel hfuel => hloop fuel (by omega), hnodup, fun locale id => ?_,
    fun p hp => ?_⟩
  · rw [hmem, page_indexable_iff]
    simp only [List.map_nil, List.not_mem_nil, false_or, listingPath_inj]
    constructor
    · rintro ⟨l, hl, heligible, -, -, hid⟩
      exact ⟨l, hl, hid.symm, heligible⟩
    · rintro ⟨l, hl, rfl, heligible⟩
      exact ⟨l, hl, heligible, locale, rfl, rfl⟩
  · rcases (hmem p).mp hp with h | ⟨l, -, -, locale, hp⟩
    · simp at h
    · exact ⟨locale, l.id, hp⟩

end NexaStays.SeoSitemap
