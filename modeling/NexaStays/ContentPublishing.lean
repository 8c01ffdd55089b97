import NexaStays.KeyedTable
import Mathlib.Data.Int.Notation

/-!
# Publishing content versions

An editor drafts a version of one field of a page, submits it for review and publishes it. A
publication first marks the version, then writes the live row and then the registry of pages,
each in a statement of its own; only a publication all of whose later statements run is all or
nothing.
-/
namespace NexaStays.ContentPublishing
open KeyedTable

inductive ContentVersionStatus where
  | draft
  | review
  | published
  | archived
  deriving DecidableEq, Repr

structure SeoContentVersion where
  id : ℕ
  entityType : String
  entityId : ℕ
  locale : String
  version : ℕ
  fieldName : String
  contentHtml : Option String
  status : ContentVersionStatus
  createdBy : Option String := none
  approvedBy : Option String := none
  createdAt : ℤ
  publishedAt : Option ℤ := none
  deriving DecidableEq, Repr

structure SeoGuide where
  id : ℕ
  slug : String
  locale : String
  bodyHtml : Option String
  indexable : Bool
  seoScore : ℤ
  contentStatus : ContentVersionStatus
  publishedAt : Option ℤ
  deriving DecidableEq, Repr

/-- The blocks of a page, as `JSON.parse` returns them. -/
structure SeoLandingContent (β : Type) where
  entityType : String
  entityId : ℕ
  locale : String
  contentBlocksJson : β
  contentStatus : ContentVersionStatus
  updatedAt : ℤ

/-- The page that a landing row is for. The service looks for the row before it inserts one. -/
def SeoLandingContent.page {β : Type} (row : SeoLandingContent β) : String × ℕ × String :=
  (row.entityType, row.entityId, row.locale)

structure SeoPageRegistry where
  pageType : String
  slug : String
  locale : String
  indexable : Bool
  seoScore : ℤ
  lastmod : ℤ
  deriving DecidableEq, Repr

structure Store (β : Type) where
  versions : Table SeoContentVersion.id
  guides : Table SeoGuide.id
  landing : Table (SeoLandingContent.page (β := β))
  registry : List SeoPageRegistry

/-- The statements that a call may await. -/
inductive Statement where
  | findVersion
  | saveVersion
  | findGuide
  | saveGuide
  | updateRegistry
  | findLanding
  | saveLanding
  deriving DecidableEq, Repr

inductive Thrown where
  | notFound (message : String)
  | badRequest (message : String)
  | statement (failed : Statement)
  deriving DecidableEq, Repr

structure SaveDraftArgs where
  entityType : String
  entityId : ℕ
  locale : String
  fieldName : String
  contentHtml : String
  createdBy : Option String := none

inductive Request where
  | saveDraft (args : SaveDraftArgs) (id : ℕ)
  | submitForReview (versionId : ℕ)
  | publish (versionId : ℕ) (adminUserId : String)

/-- A request, the time at which it runs and the statements of it that fail. -/
structure Call where
  request : Request
  now : ℤ
  fails : Statement → Bool := fun _ => false

/-- `JSON.parse`, and whether a value is `null`. -/
structure Blocks (β : Type) where
  parse : String → Option β
  isNull : β → Bool

structure SeoContentVersionDto where
  id : ℕ
  entityType : String
  entityId : ℕ
  locale : String
  version : ℕ
  fieldName : String
  status : ContentVersionStatus
  createdAt : ℤ
  publishedAt : Option ℤ
  deriving DecidableEq, Repr

def toDto (row : SeoContentVersion) : SeoContentVersionDto :=
  ⟨row.id, row.entityType, row.entityId, row.locale, row.version, row.fieldName, row.status,
    row.createdAt, row.publishedAt⟩

section Service

variable {β : Type}

/-- The version with the highest number among those of one field of one page. -/
def latestVersion (s : Store β) (args : SaveDraftArgs) : Option SeoContentVersion :=
  ((s.versions.rows.filter fun v => v.entityType = args.entityType ∧ v.entityId = args.entityId ∧
    v.locale = args.locale ∧ v.fieldName = args.fieldName).mergeSort
      fun v w => w.version ≤ v.version).head?

def saveDraft (s : Store β) (c : Call) (args : SaveDraftArgs) (id : ℕ) :
    Store β × Except Thrown SeoContentVersionDto :=
  if c.fails .findVersion then (s, .error (.statement .findVersion))
  else
    let nextVersion := ((latestVersion s args).map (·.version)).getD 0 + 1
    let row : SeoContentVersion :=
      { id, entityType := args.entityType, entityId := args.entityId, locale := args.locale
        version := nextVersion, fieldName := args.fieldName
        contentHtml := some args.contentHtml, status := .draft, createdBy := args.createdBy
        createdAt := c.now }
    -- The key of a row is the database's; an insert under a taken one fails.
    if c.fails .saveVersion ∨ (s.versions.find? id).isSome then
      (s, .error (.statement .saveVersion))
    else ({ s with versions := s.versions.put row }, .ok (toDto row))

def submitForReview (s : Store β) (c : Call) (versionId : ℕ) :
    Store β × Except Thrown SeoContentVersionDto :=
  if c.fails .findVersion then (s, .error (.statement .findVersion))
  else
    match s.versions.find? versionId with
    | none => (s, .error (.notFound "Content version not found"))
    | some row =>
      if row.status ≠ .draft then
        (s, .error (.badRequest "Only draft versions can be submitted for review"))
      else if c.fails .saveVersion then (s, .error (.statement .saveVersion))
      else
        let row := { row with status := .review }
        ({ s with versions := s.versions.put row }, .ok (toDto row))

/-- The registry entries of one page, brought up to date. -/
def syncPageEntry (registry : List SeoPageRegistry) (pageType slug locale : String)
    (indexable : Bool) (seoScore lastmod : ℤ) : List SeoPageRegistry :=
  registry.map fun e =>
    if e.pageType = pageType ∧ e.slug = slug ∧ e.locale = locale then
      { e with indexable, seoScore, lastmod }
    else e

def SeoContentVersion.onGuide (row : SeoContentVersion) : Prop :=
  row.entityType = "guide" ∧ row.fieldName = "body_html"

def SeoContentVersion.onNeighborhood (row : SeoContentVersion) : Prop :=
  row.entityType = "neighborhood" ∧ row.fieldName = "content_blocks_json"

instance (row : SeoContentVersion) : Decidable row.onGuide :=
  inferInstanceAs (Decidable (_ ∧ _))

instance (row : SeoContentVersion) : Decidable row.onNeighborhood :=
  inferInstanceAs (Decidable (_ ∧ _))

/-- The guide as a version published at `now` makes it. -/
def SeoGuide.withBody (guide : SeoGuide) (row : SeoContentVersion) (now : ℤ) : SeoGuide :=
  { guide with
    bodyHtml := row.contentHtml, contentStatus := .published, publishedAt := some now
    indexable := 75 ≤ guide.seoScore }

/-- The guide branch of `publish`. -/
def publishGuide (s : Store β) (c : Call) (row : SeoContentVersion) :
    Store β × Except Thrown Unit :=
  if c.fails .findGuide then (s, .error (.statement .findGuide))
  else
    match s.guides.find? row.entityId with
    | none => (s, .ok ())
    | some guide =>
      if c.fails .saveGuide then (s, .error (.statement .saveGuide))
      else
        let guide := guide.withBody row c.now
        let saved := { s with guides := s.guides.put guide }
        if c.fails .updateRegistry then (saved, .error (.statement .updateRegistry))
        else
          ({ saved with
            registry := syncPageEntry s.registry "guide" guide.slug guide.locale guide.indexable
              guide.seoScore c.now }, .ok ())

/-- The text that the neighborhood branch parses. -/
def SeoContentVersion.payload (row : SeoContentVersion) : String := row.contentHtml.getD "\x7b\x7d"

/-- The neighborhood branch of `publish`. The column of the blocks takes no `null`. -/
def publishNeighborhood (blocks : Blocks β) (s : Store β) (c : Call) (row : SeoContentVersion) :
    Store β × Except Thrown Unit :=
  match blocks.parse row.payload with
  | none => (s, .error (.badRequest "Invalid content_blocks_json payload"))
  | some parsed =>
    if c.fails .findLanding then (s, .error (.statement .findLanding))
    else if c.fails .saveLanding ∨ blocks.isNull parsed then
      (s, .error (.statement .saveLanding))
    else
      match s.landing.find? ("neighborhood", row.entityId, row.locale) with
      | some existing =>
        let existing := { existing with
          contentBlocksJson := parsed, contentStatus := .published, updatedAt := c.now }
        ({ s with landing := s.landing.put existing }, .ok ())
      | none =>
        let created : SeoLandingContent β :=
          { entityType := "neighborhood", entityId := row.entityId, locale := row.locale
            contentBlocksJson := parsed, contentStatus := .published, updatedAt := c.now }
        ({ s with landing := s.landing.put created }, .ok ())

/-- What `publish` does once it has saved the version. -/
def publishLive (blocks : Blocks β) (s : Store β) (c : Call) (row : SeoContentVersion) :
    Store β × Except Thrown Unit :=
  if row.onGuide then publishGuide s c row
  else if row.onNeighborhood then publishNeighborhood blocks s c row
  else (s, .ok ())

def publish (blocks : Blocks β) (s : Store β) (c : Call) (versionId : ℕ) (adminUserId : String) :
    Store β × Except Thrown SeoContentVersionDto :=
  if c.fails .findVersion then (s, .error (.statement .findVersion))
  else
    match s.versions.find? versionId with
    | none => (s, .error (.notFound "Content version not found"))
    | some row =>
      if row.status ≠ .review ∧ row.status ≠ .draft then
        (s, .error (.badRequest "Version must be draft or in review to publish"))
      else if c.fails .saveVersion then (s, .error (.statement .saveVersion))
      else
        let row := { row with
          status := .published, approvedBy := some adminUserId, publishedAt := some c.now }
        let (s, done) := publishLive blocks { s with versions := s.versions.put row } c row
        (s, done.map fun _ => toDto row)

/-- The text of a guide while it is published. -/
def liveGuide (s : Store β) (guideId : ℕ) : Option (Option String) :=
  ((s.guides.find? guideId).filter fun row => row.contentStatus = .published).map (·.bodyHtml)

/-- The blocks of a page while they are published. -/
def liveBlocks (s : Store β) (entityType : String) (entityId : ℕ) (locale : String) : Option β :=
  ((s.landing.find? (entityType, entityId, locale)).filter fun row =>
    row.contentStatus = .published).map (·.contentBlocksJson)

/-- What a call does. -/
def handle (blocks : Blocks β) (s : Store β) (c : Call) :
    Store β × Except Thrown SeoContentVersionDto :=
  match c.request with
  | .saveDraft args id => saveDraft s c args id
  | .submitForReview versionId => submitForReview s c versionId
  | .publish versionId adminUserId => publish blocks s c versionId adminUserId

/-- The store after a call, and after several. -/
def next (blocks : Blocks β) (s : Store β) (c : Call) : Store β := (handle blocks s c).1

def run (blocks : Blocks β) (s : Store β) (calls : List Call) : Store β :=
  calls.foldl (next blocks) s

end Service

section Publication

variable {β : Type} {blocks : Blocks β} {s : Store β} {c : Call} {row : SeoContentVersion}

def SeoContentVersion.Publishable (row : SeoContentVersion) : Prop :=
  row.status = .review ∨ row.status = .draft

theorem SeoContentVersion.Publishable.ne_published (h : row.Publishable) :
    row.status ≠ .published := by
  obtain hreview | hdraft := h
  · simp [hreview]
  · simp [hdraft]

/-- The version as a publication saves it. -/
def SeoContentVersion.publishedBy (row : SeoContentVersion) (adminUserId : String) (now : ℤ) :
    SeoContentVersion :=
  { row with status := .published, approvedBy := some adminUserId, publishedAt := some now }

/-- Nothing that follows the save of a version fails: a guide that is there is saved, and the
payload of a neighborhood is JSON that the column takes. -/
structure Completes (blocks : Blocks β) (s : Store β) (c : Call) (row : SeoContentVersion) :
    Prop where
  guide : row.onGuide → c.fails .findGuide = false ∧
    ((s.guides.find? row.entityId).isSome →
      c.fails .saveGuide = false ∧ c.fails .updateRegistry = false)
  neighborhood : row.onNeighborhood →
    (∃ parsed, blocks.parse row.payload = some parsed ∧ blocks.isNull parsed = false) ∧
      c.fails .findLanding = false ∧ c.fails .saveLanding = false

/-- A publication gets as far as the save of its version. -/
structure Reaches (s : Store β) (c : Call) (versionId : ℕ) (row : SeoContentVersion) : Prop where
  found : s.versions.find? versionId = some row
  publishable : row.Publishable
  findVersion : c.fails .findVersion = false
  saveVersion : c.fails .saveVersion = false

/-- A publication that saves its version completes. -/
def CompletesPublication (blocks : Blocks β) (s : Store β) (c : Call) : Prop :=
  ∀ versionId adminUserId row, c.request = .publish versionId adminUserId →
    Reaches s c versionId row → Completes blocks s c row

theorem not_onNeighborhood_of_onGuide (h : row.onGuide) : ¬ row.onNeighborhood := by
  intro hn
  have := h.1.symm.trans hn.1
  revert this
  decide

theorem publishGuide_ok_iff : (publishGuide s c row).2 = .ok () ↔ c.fails .findGuide = false ∧
    ((s.guides.find? row.entityId).isSome →
      c.fails .saveGuide = false ∧ c.fails .updateRegistry = false) := by
  unfold publishGuide
  cases hguide : s.guides.find? row.entityId <;> cases c.fails .findGuide <;>
    cases c.fails .saveGuide <;> cases c.fails .updateRegistry <;> simp

theorem publishNeighborhood_ok_iff : (publishNeighborhood blocks s c row).2 = .ok () ↔
    (∃ parsed, blocks.parse row.payload = some parsed ∧ blocks.isNull parsed = false) ∧
      c.fails .findLanding = false ∧ c.fails .saveLanding = false := by
  unfold publishNeighborhood
  cases hparse : blocks.parse row.payload with
  | none => simp
  | some parsed =>
    cases hlanding : s.landing.find? ("neighborhood", row.entityId, row.locale) <;>
      cases c.fails .findLanding <;> cases c.fails .saveLanding <;>
      cases hnull : blocks.isNull parsed <;> simp [hnull]

theorem publishLive_ok_iff :
    (publishLive blocks s c row).2 = .ok () ↔ Completes blocks s c row := by
  unfold publishLive
  by_cases hguide : row.onGuide
  · have hn := not_onNeighborhood_of_onGuide hguide
    rw [if_pos hguide, publishGuide_ok_iff]
    exact ⟨fun h => ⟨fun _ => h, fun hon => absurd hon hn⟩, fun h => h.guide hguide⟩
  · rw [if_neg hguide]
    by_cases hn : row.onNeighborhood
    · rw [if_pos hn, publishNeighborhood_ok_iff]
      exact ⟨fun h => ⟨fun hon => absurd hon hguide, fun _ => h⟩, fun h => h.neighborhood hn⟩
    · rw [if_neg hn]
      exact ⟨fun _ => ⟨fun hon => absurd hon hguide, fun hon => absurd hon hn⟩, fun _ => rfl⟩

/-- The versions are not touched once one is saved. -/
@[simp] theorem versions_publishLive :
    (publishLive blocks s c row).1.versions = s.versions := by
  unfold publishLive publishGuide publishNeighborhood
  split_ifs <;> (try rfl) <;> split <;> (try split_ifs) <;> (try split) <;> rfl

/-- A version keeps what a publication reads of it. -/
theorem completes_publishedBy {adminUserId : String} {now : ℤ}
    {versions : Table SeoContentVersion.id} :
    Completes blocks { s with versions := versions } c (row.publishedBy adminUserId now) ↔
      Completes blocks s c row :=
  ⟨fun h => ⟨h.guide, h.neighborhood⟩, fun h => ⟨h.guide, h.neighborhood⟩⟩

/-- What a publication goes on with. -/
def publishSaved (blocks : Blocks β) (s : Store β) (c : Call) (row : SeoContentVersion)
    (adminUserId : String) : Store β × Except Thrown Unit :=
  publishLive blocks { s with versions := s.versions.put (row.publishedBy adminUserId c.now) } c
    (row.publishedBy adminUserId c.now)

/-- A publication stops before it saves its version, or goes on with the version saved. -/
theorem publish_cases (blocks : Blocks β) (s : Store β) (c : Call) (versionId : ℕ)
    (adminUserId : String) :
    (∀ row, ¬ Reaches s c versionId row) ∧
        (∃ e, publish blocks s c versionId adminUserId = (s, .error e)) ∨
      ∃ row, Reaches s c versionId row ∧
        publish blocks s c versionId adminUserId =
          ((publishSaved blocks s c row adminUserId).1,
            (publishSaved blocks s c row adminUserId).2.map fun _ =>
              toDto (row.publishedBy adminUserId c.now)) := by
  unfold publish
  cases hfind : c.fails .findVersion with
  | true => exact Or.inl ⟨fun row h => by simpa [hfind] using h.findVersion, by simp⟩
  | false =>
    cases hrow : s.versions.find? versionId with
    | none => exact Or.inl ⟨fun row h => by simpa [hrow] using h.found, by simp⟩
    | some row =>
      by_cases hstatus : row.status ≠ .review ∧ row.status ≠ .draft
      · refine Or.inl ⟨fun row' h => ?_, by simp [hstatus]⟩
        obtain rfl : row = row' := Option.some.inj (hrow.symm.trans h.found)
        exact h.publishable.elim hstatus.1 hstatus.2
      · cases hsave : c.fails .saveVersion with
        | true =>
          exact Or.inl ⟨fun row' h => by simpa [hsave] using h.saveVersion, by simp [hstatus]⟩
        | false =>
          refine Or.inr ⟨row, ⟨hrow, ?_, hfind, hsave⟩, ?_⟩
          · unfold SeoContentVersion.Publishable
            tauto
          · simp only [Bool.false_eq_true, if_false, if_neg hstatus]
            rfl

theorem publishSaved_ok_iff (adminUserId : String) :
    (publishSaved blocks s c row adminUserId).2 = .ok () ↔ Completes blocks s c row :=
  publishLive_ok_iff.trans completes_publishedBy

/-- The version that a publication saves was not a published one. -/
theorem Reaches.versions_ne {versionId : ℕ} {adminUserId : String} {now : ℤ}
    (h : Reaches s c versionId row) :
    s.versions.put (row.publishedBy adminUserId now) ≠ s.versions := by
  intro heq
  have hsaved := Table.find?_put s.versions (row.publishedBy adminUserId now) row.id
  have hfound : s.versions.find? row.id = some row :=
    Table.find?_key (Table.mem_of_find? h.found)
  rw [heq, hfound, if_pos (show row.id = (row.publishedBy adminUserId now).id from rfl)] at hsaved
  exact h.publishable.ne_published (congrArg SeoContentVersion.status (Option.some.inj hsaved))

/-- A publication leaves everything as it was when it throws, exactly when it completes. -/
theorem publish_throws_iff {versionId : ℕ} {adminUserId : String}
    (hrequest : c.request = .publish versionId adminUserId) :
    ((∃ e, (handle blocks s c).2 = .error e) → next blocks s c = s) ↔
      CompletesPublication blocks s c := by
  have hhandle : handle blocks s c = publish blocks s c versionId adminUserId := by
    rw [handle, hrequest]
  rw [next, hhandle]
  obtain ⟨hstops, e, he⟩ | ⟨row, hreaches, heq⟩ :=
    publish_cases blocks s c versionId adminUserId
  · refine ⟨fun _ v a row hcall hreaches => ?_, fun _ _ => by rw [he]⟩
    obtain ⟨rfl, rfl⟩ := Request.publish.inj (hrequest.symm.trans hcall)
    exact absurd hreaches (hstops row)
  · rw [heq]
    have hsaves : (publishSaved blocks s c row adminUserId).1 ≠ s := by
      intro hsame
      have hversions := congrArg Store.versions hsame
      rw [publishSaved, versions_publishLive] at hversions
      exact hreaches.versions_ne hversions
    cases hreply : (publishSaved blocks s c row adminUserId).2 with
    | ok done =>
      have hcompletes : Completes blocks s c row := (publishSaved_ok_iff adminUserId).mp hreply
      refine ⟨fun _ v a row' hcall hreaches' => ?_, fun _ ⟨e, he⟩ => by cases he⟩
      obtain ⟨rfl, rfl⟩ := Request.publish.inj (hrequest.symm.trans hcall)
      obtain rfl : row = row' := Option.some.inj (hreaches.found.symm.trans hreaches'.found)
      exact hcompletes
    | error e =>
      refine ⟨fun hkept => absurd (hkept ⟨e, rfl⟩) hsaves, fun hcompletes => ?_⟩
      have hok := (publishSaved_ok_iff adminUserId).mpr
        (hcompletes versionId adminUserId row hrequest hreaches)
      exact absurd (hreply.symm.trans hok) (by simp)

@[simp] theorem guides_publishNeighborhood :
    (publishNeighborhood blocks s c row).1.guides = s.guides := by
  unfold publishNeighborhood
  split
  · rfl
  · split_ifs
    · rfl
    · rfl
    · split <;> rfl

@[simp] theorem landing_publishGuide : (publishGuide s c row).1.landing = s.landing := by
  unfold publishGuide
  cases s.guides.find? row.entityId <;> cases c.fails .findGuide <;>
    cases c.fails .saveGuide <;> cases c.fails .updateRegistry <;> rfl

/-- The guides after the guide branch. -/
theorem find?_publishGuide (h : (publishGuide s c row).2 = .ok ()) (guideId : ℕ) :
    (publishGuide s c row).1.guides.find? guideId =
      (s.guides.find? guideId).map fun guide =>
        if row.entityId = guideId then guide.withBody row c.now else guide := by
  obtain ⟨hfind, hsaves⟩ := publishGuide_ok_iff.mp h
  unfold publishGuide
  cases hguide : s.guides.find? row.entityId with
  | none =>
    by_cases hid : row.entityId = guideId
    · subst hid
      simp [hfind, hguide]
    · simp [hfind, hid]
  | some guide =>
    obtain ⟨hsave, hupdate⟩ := hsaves (by simp [hguide])
    have hkey : (guide.withBody row c.now).id = row.entityId :=
      (show guide.id = row.entityId from Table.key_of_find? hguide)
    by_cases hid : row.entityId = guideId
    · subst hid
      simp [hfind, hsave, hupdate, hguide, hkey]
    · simp [hfind, hsave, hupdate, hkey, hid, Ne.symm hid]

/-- The guides after a completed publication. -/
theorem find?_publishSaved {adminUserId : String} (h : Completes blocks s c row) (guideId : ℕ) :
    (publishSaved blocks s c row adminUserId).1.guides.find? guideId =
      (s.guides.find? guideId).map fun guide =>
        if row.onGuide ∧ row.entityId = guideId then guide.withBody row c.now else guide := by
  have hok := (publishSaved_ok_iff adminUserId).mpr h
  unfold publishSaved publishLive at hok ⊢
  by_cases hon : row.onGuide
  · rw [if_pos (show (row.publishedBy adminUserId c.now).onGuide from hon)] at hok ⊢
    rw [find?_publishGuide hok]
    simp only [hon, true_and]
    rfl
  · rw [if_neg (show ¬ (row.publishedBy adminUserId c.now).onGuide from hon)]
    simp only [hon, false_and, if_false, Option.map_id']
    split_ifs
    · simp
    · rfl

/-- What a completed publication shows of the guides. -/
theorem liveGuide_publishSaved {adminUserId : String} {guideId : ℕ}
    (h : Completes blocks s c row) (hguide : (s.guides.find? guideId).isSome) :
    liveGuide (publishSaved blocks s c row adminUserId).1 guideId =
      if row.onGuide ∧ row.entityId = guideId then some row.contentHtml
      else liveGuide s guideId := by
  obtain ⟨guide, hfound⟩ := Option.isSome_iff_exists.mp hguide
  rw [liveGuide, find?_publishSaved h, liveGuide, hfound]
  split_ifs with hon
  · simp [SeoGuide.withBody]
  · simp

/-- The blocks after the neighborhood branch. -/
theorem liveBlocks_publishNeighborhood (row : SeoContentVersion) {parsed : β}
    (hparse : blocks.parse row.payload = some parsed)
    (hnull : blocks.isNull parsed = false) (hfind : c.fails .findLanding = false)
    (hsave : c.fails .saveLanding = false) {neighborhoodId : ℕ} {locale : String} :
    liveBlocks (publishNeighborhood blocks s c row).1 "neighborhood" neighborhoodId locale =
      if row.entityId = neighborhoodId ∧ row.locale = locale then some parsed
      else liveBlocks s "neighborhood" neighborhoodId locale := by
  have hpage : ("neighborhood", neighborhoodId, locale) = ("neighborhood", row.entityId, row.locale) ↔
      row.entityId = neighborhoodId ∧ row.locale = locale := by
    simp [eq_comm]
  unfold publishNeighborhood liveBlocks
  simp only [hparse, hfind, hsave, hnull, Bool.false_eq_true, or_self, if_false]
  cases hlanding : s.landing.find? ("neighborhood", row.entityId, row.locale) with
  | none =>
    simp only [Table.find?_put, SeoLandingContent.page, hpage]
    split_ifs <;> simp
  | some existing =>
    have hkey (parsed : β) (now : ℤ) : SeoLandingContent.page { existing with
        contentBlocksJson := parsed, contentStatus := .published, updatedAt := now } =
          ("neighborhood", row.entityId, row.locale) :=
      (show existing.page = _ from Table.key_of_find? hlanding)
    simp only [Table.find?_put, hkey, hpage]
    split_ifs <;> simp

/-- What a completed publication shows of the neighborhoods. -/
theorem liveBlocks_publishSaved {adminUserId : String} {neighborhoodId : ℕ} {locale : String}
    (h : Completes blocks s c row) :
    liveBlocks (publishSaved blocks s c row adminUserId).1 "neighborhood" neighborhoodId locale =
      if row.onNeighborhood ∧ row.entityId = neighborhoodId ∧ row.locale = locale then
        blocks.parse row.payload
      else liveBlocks s "neighborhood" neighborhoodId locale := by
  unfold publishSaved publishLive
  by_cases hon : row.onNeighborhood
  · have hguide : ¬ row.onGuide := fun hguide => not_onNeighborhood_of_onGuide hguide hon
    obtain ⟨⟨parsed, hparse, hnull⟩, hfind, hsave⟩ := h.neighborhood hon
    rw [if_neg (show ¬ (row.publishedBy adminUserId c.now).onGuide from hguide),
      if_pos (show (row.publishedBy adminUserId c.now).onNeighborhood from hon),
      liveBlocks_publishNeighborhood (row.publishedBy adminUserId c.now) hparse hnull hfind hsave]
    simp only [hon, true_and, hparse]
    rfl
  · rw [if_neg (show ¬ (row.publishedBy adminUserId c.now).onNeighborhood from hon),
      if_neg (show ¬ (row.onNeighborhood ∧ _) from fun hand => hon hand.1)]
    split_ifs
    · simp [liveBlocks]
    · rfl

end Publication

section Runs

variable {β : Type} {blocks : Blocks β}

/-- The version that a call has made a published one. -/
def newlyPublished (blocks : Blocks β) (s : Store β) (c : Call) : Option SeoContentVersion :=
  match c.request with
  | .publish versionId _ =>
    if (s.versions.find? versionId).map (·.status) = some .published then none
    else ((next blocks s c).versions.find? versionId).filter fun v => v.status = .published
  | _ => none

/-- Of the versions that satisfy `p`, the one that was published last. -/
def publishedLast (blocks : Blocks β) (p : SeoContentVersion → Bool) :
    Store β → List Call → Option SeoContentVersion
  | _, [] => none
  | s, c :: calls =>
    (publishedLast blocks p (next blocks s c) calls).orElse fun _ =>
      (newlyPublished blocks s c).filter p

/-- The versions of the text of a guide. -/
def SeoContentVersion.isBodyOf (guideId : ℕ) (v : SeoContentVersion) : Bool :=
  v.onGuide ∧ v.entityId = guideId

/-- The versions of the blocks of a neighborhood in a locale. -/
def SeoContentVersion.isBlocksOf (neighborhoodId : ℕ) (locale : String) (v : SeoContentVersion) :
    Bool :=
  v.onNeighborhood ∧ v.entityId = neighborhoodId ∧ v.locale = locale

/-- A publication that throws leaves everything as it was, and between calls each page shows the
version of it that was published last. -/
structure AllOrNothing (blocks : Blocks β) (s : Store β) (calls : List Call) : Prop where
  undone : ∀ before c after, calls = before ++ c :: after →
    (∃ versionId adminUserId, c.request = .publish versionId adminUserId) →
    (∃ e, (handle blocks (run blocks s before) c).2 = .error e) →
    next blocks (run blocks s before) c = run blocks s before
  guides : ∀ before after guideId, calls = before ++ after →
    (s.guides.find? guideId).isSome →
    liveGuide (run blocks s before) guideId =
      (publishedLast blocks (SeoContentVersion.isBodyOf guideId) s before).elim
        (liveGuide s guideId) fun v => some v.contentHtml
  neighborhoods : ∀ before after neighborhoodId locale, calls = before ++ after →
    liveBlocks (run blocks s before) "neighborhood" neighborhoodId locale =
      (publishedLast blocks (SeoContentVersion.isBlocksOf neighborhoodId locale) s before).elim
        (liveBlocks s "neighborhood" neighborhoodId locale) fun v => blocks.parse v.payload

/-- Every publication of a run completes. -/
def Completing (blocks : Blocks β) (s : Store β) (calls : List Call) : Prop :=
  ∀ before c after, calls = before ++ c :: after →
    CompletesPublication blocks (run blocks s before) c

/-- What a view shows after a run whose steps each show what they have published. -/
theorem live_run {γ : Type} (live : Store β → γ) (Ready : Store β → Prop)
    {content : SeoContentVersion → γ} {p : SeoContentVersion → Bool}
    (hready : ∀ s c, Ready s → CompletesPublication blocks s c → Ready (next blocks s c))
    (hstep : ∀ s c, Ready s → CompletesPublication blocks s c →
      live (next blocks s c) = ((newlyPublished blocks s c).filter p).elim (live s) content)
    {s : Store β} {calls : List Call} (hs : Ready s) (h : Completing blocks s calls) :
    live (run blocks s calls) = (publishedLast blocks p s calls).elim (live s) content := by
  induction calls generalizing s with
  | nil => rfl
  | cons c calls ih =>
    have hrest : Completing blocks (next blocks s c) calls := by
      intro before d after hcalls
      exact h (c :: before) d after (by rw [hcalls]; rfl)
    have hrun := ih (hready s c hs (h [] c calls rfl)) hrest
    have hfirst := hstep s c hs (h [] c calls rfl)
    rw [run, List.foldl_cons, ← run, hrun, publishedLast]
    cases publishedLast blocks p (next blocks s c) calls with
    | some v => rfl
    | none => exact hfirst

theorem pages_saveDraft (s : Store β) (c : Call) (args : SaveDraftArgs) (id : ℕ) :
    (saveDraft s c args id).1.guides = s.guides ∧ (saveDraft s c args id).1.landing = s.landing := by
  unfold saveDraft
  split_ifs <;> exact ⟨rfl, rfl⟩

theorem pages_submitForReview (s : Store β) (c : Call) (versionId : ℕ) :
    (submitForReview s c versionId).1.guides = s.guides ∧
      (submitForReview s c versionId).1.landing = s.landing := by
  unfold submitForReview
  cases s.versions.find? versionId with
  | none => split_ifs <;> exact ⟨rfl, rfl⟩
  | some row =>
    dsimp only
    split_ifs <;> exact ⟨rfl, rfl⟩

/-- What a call that completes publishes: nothing, or one version, which it goes on to show. -/
theorem newlyPublished_cases {s : Store β} {c : Call} (h : CompletesPublication blocks s c) :
    newlyPublished blocks s c = none ∧ (next blocks s c).guides = s.guides ∧
        (next blocks s c).landing = s.landing ∨
      ∃ row adminUserId, Completes blocks s c row ∧
        newlyPublished blocks s c = some (row.publishedBy adminUserId c.now) ∧
        next blocks s c = (publishSaved blocks s c row adminUserId).1 := by
  cases hrequest : c.request with
  | saveDraft args id =>
    obtain ⟨hguides, hlanding⟩ := pages_saveDraft s c args id
    have hnext : next blocks s c = (saveDraft s c args id).1 := by rw [next, handle, hrequest]
    exact Or.inl ⟨by rw [newlyPublished, hrequest], hnext ▸ hguides, hnext ▸ hlanding⟩
  | submitForReview versionId =>
    obtain ⟨hguides, hlanding⟩ := pages_submitForReview s c versionId
    have hnext : next blocks s c = (submitForReview s c versionId).1 := by
      rw [next, handle, hrequest]
    exact Or.inl ⟨by rw [newlyPublished, hrequest], hnext ▸ hguides, hnext ▸ hlanding⟩
  | publish versionId adminUserId =>
    have hnext : next blocks s c = (publish blocks s c versionId adminUserId).1 := by
      rw [next, handle, hrequest]
    simp only [newlyPublished, hrequest, hnext]
    obtain ⟨-, e, he⟩ | ⟨row, hreaches, heq⟩ :=
      publish_cases blocks s c versionId adminUserId
    · rw [he]
      refine Or.inl ⟨?_, rfl, rfl⟩
      cases hfound : s.versions.find? versionId with
      | none => simp
      | some row => by_cases hstatus : row.status = .published <;> simp [hstatus]
    · have hkey : (row.publishedBy adminUserId c.now).id = versionId :=
        (show row.id = versionId from Table.key_of_find? hreaches.found)
      have hversions : (publishSaved blocks s c row adminUserId).1.versions =
          s.versions.put (row.publishedBy adminUserId c.now) := versions_publishLive
      refine Or.inr
        ⟨row, adminUserId, h versionId adminUserId row hrequest hreaches, ?_, by rw [heq]⟩
      rw [heq, hversions, hreaches.found, Table.find?_put, if_pos hkey.symm, if_neg,
        Option.filter_some_pos]
      · rfl
      · intro hpublished
        exact hreaches.publishable.ne_published (Option.some.inj hpublished)

theorem liveGuide_next {s : Store β} {c : Call} {guideId : ℕ}
    (hguide : (s.guides.find? guideId).isSome) (h : CompletesPublication blocks s c) :
    liveGuide (next blocks s c) guideId =
      ((newlyPublished blocks s c).filter (SeoContentVersion.isBodyOf guideId)).elim
        (liveGuide s guideId) fun v => some v.contentHtml := by
  obtain ⟨hnone, hguides, -⟩ | ⟨row, adminUserId, hcompletes, hsome, hnext⟩ :=
    newlyPublished_cases h
  · simp [hnone, liveGuide, hguides]
  · rw [hnext, liveGuide_publishSaved hcompletes hguide, hsome]
    by_cases hon : row.onGuide ∧ row.entityId = guideId
    · have hbody : (row.publishedBy adminUserId c.now).isBodyOf guideId = true :=
        decide_eq_true hon
      rw [if_pos hon, Option.filter_some_pos hbody]
      rfl
    · have hbody : ¬ (row.publishedBy adminUserId c.now).isBodyOf guideId = true :=
        fun htrue => hon (of_decide_eq_true htrue)
      rw [if_neg hon, Option.filter_some_neg (eq_false_of_ne_true hbody)]
      rfl

theorem liveBlocks_next {s : Store β} {c : Call} {neighborhoodId : ℕ} {locale : String}
    (h : CompletesPublication blocks s c) :
    liveBlocks (next blocks s c) "neighborhood" neighborhoodId locale =
      ((newlyPublished blocks s c).filter
        (SeoContentVersion.isBlocksOf neighborhoodId locale)).elim
        (liveBlocks s "neighborhood" neighborhoodId locale) fun v => blocks.parse v.payload := by
  obtain ⟨hnone, -, hlanding⟩ | ⟨row, adminUserId, hcompletes, hsome, hnext⟩ :=
    newlyPublished_cases h
  · simp [hnone, liveBlocks, hlanding]
  · rw [hnext, liveBlocks_publishSaved hcompletes, hsome]
    by_cases hon : row.onNeighborhood ∧ row.entityId = neighborhoodId ∧ row.locale = locale
    · have hblocks : (row.publishedBy adminUserId c.now).isBlocksOf neighborhoodId locale = true :=
        decide_eq_true hon
      rw [if_pos hon, Option.filter_some_pos hblocks]
      rfl
    · have hblocks :
          ¬ (row.publishedBy adminUserId c.now).isBlocksOf neighborhoodId locale = true :=
        fun htrue => hon (of_decide_eq_true htrue)
      rw [if_neg hon, Option.filter_some_neg (eq_false_of_ne_true hblocks)]
      rfl

theorem isSome_guides_next {s : Store β} {c : Call} {guideId : ℕ}
    (hguide : (s.guides.find? guideId).isSome) (h : CompletesPublication blocks s c) :
    ((next blocks s c).guides.find? guideId).isSome := by
  obtain ⟨-, hguides, -⟩ | ⟨row, adminUserId, hcompletes, -, hnext⟩ := newlyPublished_cases h
  · rwa [hguides]
  · rw [hnext, find?_publishSaved hcompletes]
    simpa using hguide

/-- Publishing is all or nothing exactly in the runs whose publications complete. -/
theorem allOrNothing_iff (s : Store β) (calls : List Call) :
    AllOrNothing blocks s calls ↔ Completing blocks s calls := by
  constructor
  · intro h before c after hcalls versionId adminUserId row hrequest
    exact publish_throws_iff hrequest |>.mp
      (h.undone before c after hcalls ⟨versionId, adminUserId, hrequest⟩)
      versionId adminUserId row hrequest
  · intro h
    have hbefore : ∀ before after, calls = before ++ after → Completing blocks s before := by
      rintro before after hcalls first c rest rfl
      exact h first c (rest ++ after) (by simp [hcalls])
    refine ⟨?_, ?_, ?_⟩
    · rintro before c after hcalls ⟨versionId, adminUserId, hrequest⟩ hthrows
      exact (publish_throws_iff hrequest).mpr (h before c after hcalls) hthrows
    · intro before after guideId hcalls hguide
      exact live_run (fun s => liveGuide s guideId) (fun s => (s.guides.find? guideId).isSome)
        (fun _ _ => isSome_guides_next) (fun _ _ => liveGuide_next) hguide
        (hbefore before after hcalls)
    · intro before after neighborhoodId locale hcalls
      exact live_run (fun s => liveBlocks s "neighborhood" neighborhoodId locale) (fun _ => True)
        (fun _ _ _ _ => trivial) (fun _ _ _ => liveBlocks_next) trivial
        (hbefore before after hcalls)

end Runs

/-- A neighborhood whose blocks have one draft. -/
def draftOnly (contentHtml : String) : Store Unit :=
  { versions := Table.empty.put
      { id := 1, entityType := "neighborhood", entityId := 5, locale := "en", version := 1
        fieldName := "content_blocks_json", contentHtml := some contentHtml, status := .draft
        createdAt := 0 }
    guides := Table.empty, landing := Table.empty, registry := [] }

/-- `JSON.parse` as far as `{}` and texts that are not JSON go. -/
def emptyObject : Blocks Unit :=
  { parse := fun text => if text = "{}" then some () else none
    isNull := fun _ => false }

/-- The publication of a text that is not JSON throws, and the version is a published one. -/
theorem invalidPayload_published :
    ¬ AllOrNothing emptyObject (draftOnly "not json") [⟨.publish 1 "admin", 10, fun _ => false⟩] := by
  intro h
  have hundone := h.undone [] _ [] rfl ⟨1, "admin", rfl⟩
    ⟨.badRequest "Invalid content_blocks_json payload", rfl⟩
  have hstatus := congrArg
    (fun s : Store Unit => (s.versions.find? 1).map (·.status)) hundone
  revert hstatus
  decide

end NexaStays.ContentPublishing
