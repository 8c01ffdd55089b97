import NexaStays.HostingStore
import NexaStays.SqlText

/-!
# What hosts and administrators do with a listing

A host drafts a listing, edits it, submits it, pauses and resumes it; an administrator
approves, rejects, publishes, pauses and resumes it. The events that are published and the
search pages that are refreshed afterwards are left out. The detail that an edit returns is
a projection of the listing as it was loaded last.
-/
namespace NexaStays.ListingOperations

open NexaStays.KeyedTable NexaStays.Transactions NexaStays.EntitySave NexaStays.HostingStore
open NexaStays.Database (ListingStatus StaysError)
open NexaStays.SqlText (utf16Length)

inductive Relation where
  | ratePlan | rules | media | unitTypes | checkInContact
  deriving DecidableEq, Repr

/-- A listing with the relations that were asked for. -/
structure LoadedListing where
  listing : Listing
  ratePlan : Option RatePlan
  rules : Option ListingRules
  media : List ListingMedia
  unitTypes : List UnitType
  checkInContact : Option CheckInContact
  deriving DecidableEq, Repr

def load (relations : List Relation) (s : Store) (listing : Listing) : LoadedListing :=
  { listing
    ratePlan := if .ratePlan ∈ relations then
      s.ratePlans.rows.find? (·.listingId = listing.id) else none
    rules := if .rules ∈ relations then s.rules.rows.find? (·.listingId = listing.id) else none
    media := if .media ∈ relations then s.media.rows.filter (·.listingId = listing.id) else []
    unitTypes := if .unitTypes ∈ relations then
      s.unitTypes.rows.filter (·.listingId = listing.id) else []
    checkInContact := if .checkInContact ∈ relations then
      s.contacts.rows.find? (·.listingId = listing.id) else none }

def findListing (relations : List Relation) (listingId : ℕ) (s : Store) : Option LoadedListing :=
  (s.listings.find? listingId).map (load relations s)

def allRelations : List Relation := [.ratePlan, .rules, .checkInContact, .media, .unitTypes]

def listingNotFound : StaysError := .notFound "Listing not found"

/-- A listing that is missing and one of another host look the same. -/
def requireOwnedListing (userId listingId : ℕ) (relations : List Relation) :
    Hosting LoadedListing := do
  let found ← Hosting.read (findListing relations listingId)
  let loaded ← Program.expect found listingNotFound
  Program.require (loaded.listing.hostUserId = userId) listingNotFound
  pure loaded

def resolveProfileForUser (userId : ℕ) : Hosting (Option HostProfile) :=
  Hosting.findOne fun s => s.hostProfiles.rows.filter (·.userId = userId)

/-- An approved host whose listings are not frozen. -/
def eligible (profile : HostProfile) : Bool :=
  profile.applicationStatus = .approved ∧ profile.hostVerificationStatus = .approved ∧
    profile.listingFrozen = false

def canList (userId : ℕ) : Hosting Bool := do
  let profile ← resolveProfileForUser userId
  pure (profile.any eligible)

def frozenMessage : String :=
  "Your host account is temporarily frozen. You can still book stays. " ++
    "Contact support to restore listing access."

def unverifiedMessage : String :=
  "Host verification required. " ++
    "Your host application must be approved before creating listings."

/-- The refusal of a host who may not list. -/
def refuse (userId : ℕ) : Hosting Unit := do
  let profile ← resolveProfileForUser userId
  .throw (.badRequest (if profile.any (·.listingFrozen) then frozenMessage else unverifiedMessage))

def assertCanList (userId : ℕ) : Hosting Unit := do
  let mayList ← canList userId
  if mayList then pure () else refuse userId

def listingTable (id : ℕ) : Saved Store Write Listing := ⟨fun s => s.listings.find? id, .listing⟩

def ratePlanTable (id : ℕ) : Saved Store Write RatePlan :=
  ⟨fun s => s.ratePlans.find? id, .ratePlan⟩

def rulesTable (id : ℕ) : Saved Store Write ListingRules := ⟨fun s => s.rules.find? id, .rules⟩

def contactTable (id : ℕ) : Saved Store Write CheckInContact :=
  ⟨fun s => s.contacts.find? id, .contact⟩

def unitTypeTable (id : ℕ) : Saved Store Write UnitType :=
  ⟨fun s => s.unitTypes.find? id, .unitType⟩

def saveRatePlan (ratePlan : RatePlan) : Hosting Unit :=
  saveEntity (ratePlanTable ratePlan.id) .database ratePlan

def saveRules (rules : ListingRules) : Hosting Unit :=
  saveEntity (rulesTable rules.id) .database rules

def saveContact (contact : CheckInContact) : Hosting Unit :=
  saveEntity (contactTable contact.id) .database contact

def saveUnitType (unit : UnitType) : Hosting Unit :=
  saveEntity (unitTypeTable unit.id) .database unit

/-- The save of a relation that was loaded. -/
def saveRelation {ρ : Type} (save : ρ → Hosting Unit) : Option ρ → Hosting Unit
  | some row => save row
  | none => pure ()

/-- The save of a listing, which cascades to its rules, its rate plan and its contact. -/
def saveListing (loaded : LoadedListing) (listing : Listing) : Hosting Unit := do
  saveEntity (listingTable listing.id) .database listing
  saveRelation saveRules loaded.rules
  saveRelation saveRatePlan loaded.ratePlan
  saveRelation saveContact loaded.checkInContact

/-- What is done with a listing that was loaded: check it, change it, save it. -/
def reviseListing {ι : Type} (check : LoadedListing → Except StaysError Unit)
    (prepare : Listing → Hosting ι) (edit : ι → Listing → Listing) (loaded : LoadedListing) :
    Hosting Listing := do
  Program.ofExcept (check loaded)
  let input ← prepare loaded.listing
  saveListing loaded (edit input loaded.listing)
  pure (edit input loaded.listing)

/-- A change that needs nothing but the listing. -/
def noInput (_ : Listing) : Hosting Unit := pure ()

/-- A change that notes its time. -/
def timed (_ : Listing) : Hosting ℕ := Hosting.now

def roomsRequiredForType (listingType : ListingType) (bookingModel : Option BookingModel) : Bool :=
  match listingType with
  | .hotel | .hostel => true
  | .riad => bookingModel = some .roomTypes ∨ bookingModel = some .both
  | .apartment | .villa => false

/-- The least of the prices, 0 if there is none. -/
def minPrice (prices : List ℕ) : ℕ := prices.min?.getD 0

/-- Entire places have the price of their rate plan, others that of their cheapest unit. -/
def effectivePrice (loaded : LoadedListing) : ℕ :=
  let ratePrice := loaded.ratePlan.elim 0 (·.basePrice)
  let unitPrices := (loaded.unitTypes.map (·.basePrice)).filter (0 < ·)
  if roomsRequiredForType loaded.listing.listingType loaded.listing.bookingModel then
    minPrice unitPrices
  else if 0 < ratePrice then ratePrice
  else minPrice unitPrices

structure ListingCompletionFlags where
  locationComplete : Bool
  aboutComplete : Bool
  pricingComplete : Bool
  photosComplete : Bool
  photosQualityComplete : Bool
  roomsComplete : Bool
  walkthroughComplete : Bool
  amenitiesComplete : Bool
  houseRulesComplete : Bool
  deriving DecidableEq, Repr

def present (text : String) : Bool := SqlText.trim text ≠ ""

def computeCompletionFlags (loaded : LoadedListing) : ListingCompletionFlags :=
  let listing := loaded.listing
  let roomsNeeded := roomsRequiredForType listing.listingType listing.bookingModel
  let photoCount := (loaded.media.filter (·.kind = .photo)).length
  { locationComplete := present listing.city ∧ listing.address.any present ∧
      listing.geoLat.isSome ∧ listing.geoLng.isSome
    aboutComplete := present listing.title ∧ SqlText.trim listing.title ≠ "Untitled listing" ∧
      20 ≤ listing.description.elim 0 (fun text => utf16Length (SqlText.trim text)) ∧
      1 ≤ loaded.rules.elim 0 (·.maxGuests)
    pricingComplete := (roomsNeeded → 0 < loaded.unitTypes.length) ∧ 0 < effectivePrice loaded
    photosComplete := 5 ≤ photoCount
    photosQualityComplete := 12 ≤ photoCount
    roomsComplete := roomsNeeded → 0 < loaded.unitTypes.length
    walkthroughComplete := loaded.media.any (·.kind = .walkthrough)
    amenitiesComplete := 0 < loaded.rules.elim 0 (·.amenities.length)
    houseRulesComplete := loaded.rules.any fun rules =>
      rules.petsPolicy.isSome ∨ rules.smokingPolicy.isSome }

/-- The weight of a part that is complete. -/
def weight (complete : Bool) (points : ℕ) : ℕ := if complete then points else 0

def computeCompletionPercentage (flags : ListingCompletionFlags) : ℕ :=
  let optionalBits := ([flags.photosQualityComplete, flags.amenitiesComplete,
    flags.houseRulesComplete].filter (· = true)).length
  -- `Math.round((5 * optionalBits) / 3)`
  let optional := (10 * optionalBits + 3) / 6
  let score := weight flags.locationComplete 20 + weight flags.aboutComplete 20 +
    weight flags.pricingComplete 20 + weight flags.photosComplete 30 +
    weight flags.walkthroughComplete 5 + optional
  min 100 (if flags.roomsComplete then score else min score 55)

def assertCanSubmit (flags : ListingCompletionFlags) : Option String :=
  if flags.locationComplete = false then
    some "Location (city, address, and map pin) is required."
  else if flags.aboutComplete = false then
    some "Title, description (20+ characters), and guest capacity are required."
  else if flags.roomsComplete = false then
    some "Room configuration is required for this property type."
  else if flags.pricingComplete = false then some "Pricing is required."
  else if flags.photosComplete = false then some "At least 5 photos are required to submit."
  else none

structure CreateDraftListingDto where
  listingType : ListingType
  guestHouse : Bool
  propertyDetails : Option JsonObject
  deriving DecidableEq, Repr

def defaultBookingModel : ListingType → BookingModel
  | .hotel => .roomTypes
  | .hostel => .dormAndPrivate
  | _ => .entireProperty

def draftListing (userId : ℕ) (dto : CreateDraftListingDto) (now id : ℕ) : Listing :=
  { id
    hostUserId := userId
    title := "Untitled listing"
    listingType := dto.listingType
    bookingModel := some (defaultBookingModel dto.listingType)
    city := ""
    neighborhood := none
    postalCode := none
    buildingName := none
    landmark := none
    address := none
    geoLat := none
    geoLng := none
    propertyDetails := (dto.propertyDetails.getD []).spread
      (if dto.guestHouse then [("guest_house", "true")] else [])
    safetyFeatures := []
    policies := []
    status := .draft
    pausedFromStatus := none
    checkinTime := "14:00"
    checkoutTime := "11:00"
    description := none
    instantBooking := false
    lastEditedAt := now
    archivedAt := none }

def draftRules (listingId id : ℕ) : ListingRules :=
  { id
    listingId
    petsPolicy := some .no
    smokingPolicy := some .notAllowed
    quietHours := false
    couplesWelcome := true
    maxGuests := 2
    amenities := []
    cancellationPolicy := .moderate }

def draftRatePlan (listingId id : ℕ) : RatePlan :=
  { id, listingId, currency := "MAD", basePrice := 0, weekendPrice := none }

def draftContact (listingId : ℕ) (hostProfile : Option HostProfile) (id : ℕ) : CheckInContact :=
  { id
    listingId
    fullName := SqlText.trim ((hostProfile.bind (·.fullName)).getD "")
    phone := SqlText.trim ((hostProfile.bind (·.phone)).getD "")
    role := .owner
    accessInstructions := none }

def draftUnit (listingType : ListingType) (listingId id : ℕ) : UnitType :=
  { id
    listingId
    kind := match listingType with
      | .villa => .villaUnit
      | .riad => .riadRoom
      | _ => .apartmentUnit
    name := "Entire place"
    quantity := 1
    maxGuests := 2
    amenities := []
    pricingUnit := .night
    basePrice := 0
    currency := "MAD"
    sortOrder := 0
    isActive := true }

structure StatusResponse where
  id : ℕ
  status : ListingStatus
  message : String
  deriving DecidableEq, Repr

/-- An entire place has one unit from the start. -/
def insertDraftUnit (listingType : ListingType) (listingId : ℕ) : Hosting Unit :=
  if roomsRequiredForType listingType (some (defaultBookingModel listingType)) then pure ()
  else do
    let _ ← Hosting.insert fun id => .unitType (draftUnit listingType listingId id)

/-- The rows of a draft. -/
def insertDraft (userId : ℕ) (dto : CreateDraftListingDto) (hostProfile : Option HostProfile) :
    Hosting ℕ := do
  let now ← Hosting.now
  let listingId ← Hosting.insert fun id => .listing (draftListing userId dto now id)
  let _ ← Hosting.insert fun id => .rules (draftRules listingId id)
  let _ ← Hosting.insert fun id => .ratePlan (draftRatePlan listingId id)
  let _ ← Hosting.insert fun id => .contact (draftContact listingId hostProfile id)
  insertDraftUnit dto.listingType listingId
  pure listingId

def createListing (userId : ℕ) (dto : CreateDraftListingDto) : Hosting StatusResponse := do
  assertCanList userId
  let hostProfile ← resolveProfileForUser userId
  let listingId ← Hosting.transaction (insertDraft userId dto hostProfile)
  pure ⟨listingId, .draft, "Draft listing created. Continue editing to submit for review."⟩

structure UpdateRulesDto where
  petsPolicy : Option PetsPolicy
  smokingPolicy : Option SmokingPolicy
  maxGuests : Option ℕ
  amenities : Option (List String)
  cancellationPolicy : Option CancellationPolicy
  couplesWelcome : Option Bool
  deriving DecidableEq, Repr

/-- `weekendPrice` may be left out, and it may be given as `null`. -/
structure UpdateRatePlanDto where
  currency : Option String
  basePrice : Option ℕ
  weekendPrice : Option (Option ℕ)
  deriving DecidableEq, Repr

structure UpdateCheckInContactDto where
  fullName : Option String
  phone : Option String
  role : Option ContactRole
  accessInstructions : Option (Option String)
  deriving DecidableEq, Repr

/-- A field of type `Option (Option _)` may be left out, and it may be given as `null`. -/
structure UpdateHostListingDto where
  title : Option String
  listingType : Option ListingType
  city : Option String
  neighborhood : Option (Option String)
  address : Option (Option String)
  postalCode : Option (Option String)
  buildingName : Option (Option String)
  landmark : Option (Option String)
  geoLat : Option (Option ℤ)
  geoLng : Option (Option ℤ)
  description : Option (Option String)
  checkinTime : Option String
  checkoutTime : Option String
  instantBooking : Option Bool
  propertyDetails : Option JsonObject
  policies : Option JsonObject
  safetyFeatures : Option JsonObject
  rules : Option UpdateRulesDto
  ratePlan : Option UpdateRatePlanDto
  checkInContact : Option UpdateCheckInContactDto
  deriving DecidableEq, Repr

/-- Every status there is. -/
def editableStatuses : List ListingStatus :=
  [.draft, .rejected, .submitted, .approved, .live, .paused]

def editable (message : String) (loaded : LoadedListing) : Except StaysError Unit :=
  if loaded.listing.status ∈ editableStatuses then .ok () else .error (.badRequest message)

def locationLocked (listing : Listing) : Bool :=
  listing.status ∈ [ListingStatus.live, .approved, .paused]

def locationTouched (dto : UpdateHostListingDto) : Bool :=
  dto.city.isSome ∨ dto.address.isSome ∨ dto.geoLat.isSome ∨ dto.geoLng.isSome ∨
    dto.neighborhood.isSome ∨ dto.postalCode.isSome ∨ dto.buildingName.isSome ∨
    dto.landmark.isSome

def checkUpdate (dto : UpdateHostListingDto) (loaded : LoadedListing) : Except StaysError Unit := do
  editable "This listing cannot be edited in its current status." loaded
  if dto.listingType.any (· ≠ loaded.listing.listingType) then
    .error (.badRequest "Property type cannot be changed after the listing is created.")
  else if locationLocked loaded.listing ∧ locationTouched dto then
    .error (.badRequest ("Location changes on live listings require moderation. " ++
      "Contact support or wait for the next release."))
  else .ok ()

/-- `value || null`. -/
def nonempty (text : Option String) : Option String := text.filter (· ≠ "")

def updatedListing (dto : UpdateHostListingDto) (now : ℕ) (listing : Listing) : Listing :=
  let locked := locationLocked listing
  { listing with
    title := dto.title.getD listing.title
    city := if locked then listing.city else dto.city.getD listing.city
    neighborhood := if locked then listing.neighborhood
      else dto.neighborhood.getD listing.neighborhood
    address := if locked then listing.address else dto.address.getD listing.address
    postalCode := if locked then listing.postalCode
      else (dto.postalCode.map nonempty).getD listing.postalCode
    buildingName := if locked then listing.buildingName
      else (dto.buildingName.map nonempty).getD listing.buildingName
    landmark := if locked then listing.landmark
      else (dto.landmark.map nonempty).getD listing.landmark
    geoLat := if locked then listing.geoLat else dto.geoLat.getD listing.geoLat
    geoLng := if locked then listing.geoLng else dto.geoLng.getD listing.geoLng
    description := dto.description.getD listing.description
    checkinTime := dto.checkinTime.getD listing.checkinTime
    checkoutTime := dto.checkoutTime.getD listing.checkoutTime
    instantBooking := dto.instantBooking.getD listing.instantBooking
    propertyDetails := dto.propertyDetails.elim listing.propertyDetails
      listing.propertyDetails.spread
    policies := dto.policies.elim listing.policies listing.policies.spread
    safetyFeatures := dto.safetyFeatures.elim listing.safetyFeatures listing.safetyFeatures.spread
    lastEditedAt := now }

def updatedRules (dto : UpdateRulesDto) (rules : ListingRules) : ListingRules :=
  { rules with
    petsPolicy := dto.petsPolicy.or rules.petsPolicy
    smokingPolicy := dto.smokingPolicy.or rules.smokingPolicy
    maxGuests := dto.maxGuests.getD rules.maxGuests
    amenities := dto.amenities.getD rules.amenities
    cancellationPolicy := dto.cancellationPolicy.getD rules.cancellationPolicy
    couplesWelcome := dto.couplesWelcome.getD rules.couplesWelcome }

def updatedRatePlan (dto : UpdateRatePlanDto) (ratePlan : RatePlan) : RatePlan :=
  { ratePlan with
    currency := dto.currency.getD ratePlan.currency
    basePrice := dto.basePrice.getD ratePlan.basePrice
    weekendPrice := dto.weekendPrice.getD ratePlan.weekendPrice }

def updatedContact (dto : UpdateCheckInContactDto) (contact : CheckInContact) : CheckInContact :=
  { contact with
    fullName := dto.fullName.getD contact.fullName
    phone := dto.phone.getD contact.phone
    role := dto.role.getD contact.role
    accessInstructions := dto.accessInstructions.getD contact.accessInstructions }

/-- The price of the only unit of an entire place. -/
def syncUnitPrice (listingId price : ℕ) : Hosting Unit := do
  let units ← Hosting.read fun s => s.unitTypes.rows.filter (·.listingId = listingId)
  match units with
  | [unit] => saveUnitType { unit with basePrice := price }
  | _ => pure ()

def updateRules (dto : Option UpdateRulesDto) (loaded : LoadedListing) : Hosting Unit :=
  match dto, loaded.rules with
  | some dto, some rules => saveRules (updatedRules dto rules)
  | _, _ => pure ()

/-- The new price of the rate plan of an entire place is that of its unit. -/
def updateUnitPrice (price : Option ℕ) (listing : Listing) : Hosting Unit :=
  match price with
  | some price =>
    if roomsRequiredForType listing.listingType listing.bookingModel then pure ()
    else syncUnitPrice listing.id price
  | none => pure ()

def updateRatePlan (dto : Option UpdateRatePlanDto) (loaded : LoadedListing) : Hosting Unit :=
  match dto, loaded.ratePlan with
  | some dto, some ratePlan => do
    saveRatePlan (updatedRatePlan dto ratePlan)
    updateUnitPrice dto.basePrice loaded.listing
  | _, _ => pure ()

def updateContact (dto : Option UpdateCheckInContactDto) (loaded : LoadedListing) : Hosting Unit :=
  match dto, loaded.checkInContact with
  | some dto, some contact => saveContact (updatedContact dto contact)
  | _, _ => pure ()

def updateListing (userId listingId : ℕ) (dto : UpdateHostListingDto) : Hosting LoadedListing := do
  assertCanList userId
  let loaded ← requireOwnedListing userId listingId allRelations
  let _ ← reviseListing (checkUpdate dto) timed (updatedListing dto) loaded
  updateRules dto.rules loaded
  updateRatePlan dto.ratePlan loaded
  updateContact dto.checkInContact loaded
  requireOwnedListing userId listingId allRelations

structure MediaItemDto where
  assetId : String
  kind : MediaKind
  sortOrder : Option ℕ
  category : Option String
  isCover : Option Bool
  deriving DecidableEq, Repr

/-- The media storage answers with 0 if it has none of the candidates. -/
def assertOwnedListingAsset (_ : MediaItemDto) : Hosting Unit := do
  let found ← Program.receive
  Program.require (found ≠ 0)
    (.badRequest "Invalid media asset_id — upload the file first as this host")

def mediaRow (listingId : ℕ) (item : MediaItemDto) (index id : ℕ) : ListingMedia :=
  { id
    listingId
    kind := item.kind
    assetId := item.assetId
    sortOrder := item.sortOrder.getD index
    isRequired := item.kind = .walkthrough
    category := item.category
    isCover := item.isCover.getD false }

/-- `update(listingId, { last_edited_at: new Date() })`. -/
def touch (listingId : ℕ) : Hosting Unit := do
  let now ← Hosting.now
  let _ ← Hosting.update fun s => (s.listings.find? listingId).toList.map fun listing =>
    .listing { listing with lastEditedAt := now }

def insertMedia (listingId : ℕ) (item : MediaItemDto × ℕ) : Hosting Unit := do
  let _ ← Hosting.insert fun id => .media (mediaRow listingId item.1 item.2 id)

def replaceMediaRows (listingId : ℕ) (media : List MediaItemDto) : Hosting Unit := do
  let _ ← Hosting.update fun s => (s.media.rows.filter (·.listingId = listingId)).map fun row =>
    .noMedia row.id
  Program.forEach (insertMedia listingId) media.zipIdx
  touch listingId

def replaceListingMedia (userId listingId : ℕ) (media : List MediaItemDto) :
    Hosting LoadedListing := do
  assertCanList userId
  let loaded ← requireOwnedListing userId listingId [.media]
  Program.ofExcept (editable "Media cannot be changed in the current listing status." loaded)
  Program.forEach assertOwnedListingAsset media
  Hosting.transaction (replaceMediaRows listingId media)
  requireOwnedListing userId listingId allRelations

structure UnitTypeItemDto where
  kind : UnitKind
  name : String
  quantity : Option ℕ
  maxGuests : Option ℕ
  basePrice : ℕ
  currency : Option String
  pricingUnit : Option PricingUnit
  amenities : Option (List String)
  sortOrder : Option ℕ
  isActive : Option Bool
  deriving DecidableEq, Repr

def unitRow (listingId : ℕ) (item : UnitTypeItemDto) (index id : ℕ) : UnitType :=
  { id
    listingId
    kind := item.kind
    name := item.name
    quantity := item.quantity.getD 1
    maxGuests := item.maxGuests.getD 2
    amenities := item.amenities.getD []
    pricingUnit := item.pricingUnit.getD .night
    basePrice := item.basePrice
    currency := item.currency.getD "MAD"
    sortOrder := item.sortOrder.getD index
    isActive := item.isActive.getD true }

def checkUnitTypes (unitTypes : List UnitTypeItemDto) (loaded : LoadedListing) :
    Except StaysError Unit := do
  editable "Unit types cannot be changed in the current listing status." loaded
  if (loaded.listing.status = .live ∨ loaded.listing.status = .approved) ∧ unitTypes = [] then
    .error (.badRequest "Live or approved listings must keep at least one unit type.")
  else .ok ()

def insertUnit (listingId : ℕ) (item : UnitTypeItemDto × ℕ) : Hosting Unit := do
  let _ ← Hosting.insert fun id => .unitType (unitRow listingId item.1 item.2 id)

/-- The rate plan gets the lowest price of the units. -/
def replaceUnitRows (listingId : ℕ) (unitTypes : List UnitTypeItemDto) : Hosting Unit := do
  let _ ← Hosting.update fun s =>
    (s.unitTypes.rows.filter (·.listingId = listingId)).map fun row => .noUnitType row.id
  Program.forEach (insertUnit listingId) unitTypes.zipIdx
  let _ ← Hosting.update fun s =>
    (s.ratePlans.rows.filter (·.listingId = listingId)).map fun plan =>
      .ratePlan { plan with basePrice := minPrice (unitTypes.map (·.basePrice)) }
  touch listingId

def replaceListingUnitTypes (userId listingId : ℕ) (unitTypes : List UnitTypeItemDto) :
    Hosting LoadedListing := do
  assertCanList userId
  let loaded ← requireOwnedListing userId listingId []
  Program.ofExcept (checkUnitTypes unitTypes loaded)
  Hosting.transaction (replaceUnitRows listingId unitTypes)
  requireOwnedListing userId listingId allRelations

/-- What a paused listing remembers of its status. -/
def pausedFrom (status : ListingStatus) : PausedFrom :=
  if status = .approved then .approved else .live

def paused (_ : Unit) (listing : Listing) : Listing :=
  { listing with status := .paused, pausedFromStatus := some (pausedFrom listing.status) }

def pausable (message : String) (loaded : LoadedListing) : Except StaysError Unit :=
  if loaded.listing.status ∈ [ListingStatus.live, .approved] then .ok ()
  else .error (.badRequest message)

/-- The status that a paused listing goes back to. -/
def restoreTo (listing : Listing) : ListingStatus :=
  if listing.pausedFromStatus = some .approved then .approved else .live

def resumed (_ : Unit) (listing : Listing) : Listing :=
  { listing with status := restoreTo listing, pausedFromStatus := none }

def onlyWhen (status : ListingStatus) (message : String) (loaded : LoadedListing) :
    Except StaysError Unit :=
  if loaded.listing.status = status then .ok () else .error (.badRequest message)

def pauseListing (userId listingId : ℕ) : Hosting StatusResponse := do
  let loaded ← requireOwnedListing userId listingId []
  let listing ← reviseListing (pausable "Only live or approved listings can be paused.") noInput
    paused loaded
  pure ⟨listing.id, listing.status, "Listing paused and hidden from search results."⟩

def resumeListing (userId listingId : ℕ) : Hosting StatusResponse := do
  assertCanList userId
  let loaded ← requireOwnedListing userId listingId []
  let listing ← reviseListing (onlyWhen .paused "Only paused listings can be resumed.") noInput
    resumed loaded
  pure ⟨listing.id, listing.status,
    if listing.status = .live then "Listing is live again and visible in search."
    else "Listing restored to approved (not live). Use set-live when ready."⟩

def checkSubmit (loaded : LoadedListing) : Except StaysError Unit :=
  let listing := loaded.listing
  if listing.status ≠ .draft ∧ listing.status ≠ .rejected then
    .error (.badRequest
      "Only draft listings (or listings that need changes) can be submitted.")
  else if listing.archivedAt.isSome then .error (.badRequest "This draft has been archived.")
  else match assertCanSubmit (computeCompletionFlags loaded) with
    | some message => .error (.badRequest message)
    | none =>
      if roomsRequiredForType listing.listingType listing.bookingModel ∧
          loaded.unitTypes.any (·.basePrice ≤ 0) then
        .error (.badRequest "Each room type needs a price greater than zero.")
      else .ok ()

def submitted (now : ℕ) (listing : Listing) : Listing :=
  { listing with status := .submitted, lastEditedAt := now }

structure SubmitResponse where
  id : ℕ
  status : ListingStatus
  message : String
  completionPercentage : ℕ
  deriving DecidableEq, Repr

def submitListing (userId listingId : ℕ) : Hosting SubmitResponse := do
  assertCanList userId
  let loaded ← requireOwnedListing userId listingId allRelations
  let listing ← reviseListing checkSubmit timed submitted loaded
  pure ⟨listing.id, .submitted,
    "Listing submitted for review. Our team will review it within 1–2 business days.",
    computeCompletionPercentage (computeCompletionFlags loaded)⟩

structure AdminResponse where
  status : ListingStatus
  message : String
  deriving DecidableEq, Repr

/-- What administrators do with a listing, with its entry in the audit log. -/
def adminRevise (listingId adminUserId : ℕ) (action : String)
    (check : LoadedListing → Except StaysError Unit) (prepare : Listing → Hosting Unit)
    (edit : Unit → Listing → Listing) : Hosting Listing := do
  let found ← Hosting.read (findListing [] listingId)
  let loaded ← Program.expect found listingNotFound
  let listing ← reviseListing check prepare edit loaded
  Hosting.audit adminUserId "LISTING" listingId action
  pure listing

def withStatus (status : ListingStatus) (_ : Unit) (listing : Listing) : Listing :=
  { listing with status }

def approveListing (listingId adminUserId : ℕ) : Hosting AdminResponse := do
  let _ ← adminRevise listingId adminUserId "LISTING_APPROVED"
    (onlyWhen .submitted "Only SUBMITTED listings can be approved") noInput (withStatus .approved)
  pure ⟨.approved, "Listing approved"⟩

/-- The reason goes to the audit log. -/
def rejectListing (listingId : ℕ) (_reason : String) (adminUserId : ℕ) : Hosting AdminResponse := do
  let _ ← adminRevise listingId adminUserId "LISTING_REJECTED"
    (onlyWhen .submitted "Only SUBMITTED listings can be rejected") noInput (withStatus .rejected)
  pure ⟨.rejected, "Listing rejected"⟩

def setListingLive (listingId adminUserId : ℕ) : Hosting AdminResponse := do
  let _ ← adminRevise listingId adminUserId "LISTING_SET_LIVE"
    (onlyWhen .approved "Only APPROVED listings can be set LIVE") noInput (withStatus .live)
  pure ⟨.live, "Listing is now live"⟩

/-- `pauseListing` of the administrators. -/
def takeOffline (listingId adminUserId : ℕ) : Hosting AdminResponse := do
  let _ ← adminRevise listingId adminUserId "LISTING_PAUSED"
    (pausable "Only LIVE or APPROVED listings can be paused") noInput paused
  pure ⟨.paused, "Listing paused and hidden from search. It can be resumed later."⟩

/-- The listings of a frozen host stay paused. -/
def requireUnfrozen (listing : Listing) : Hosting Unit := do
  let hostProfile ← resolveProfileForUser listing.hostUserId
  Program.require (¬hostProfile.any (·.listingFrozen)) (.badRequest
    "Host listing access is frozen. Unfreeze the host before resuming this listing.")

def unpauseListing (listingId adminUserId : ℕ) : Hosting AdminResponse := do
  let listing ← adminRevise listingId adminUserId "LISTING_RESUMED"
    (onlyWhen .paused "Only PAUSED listings can be resumed") requireUnfrozen resumed
  pure ⟨listing.status,
    if listing.status = .live then "Listing is live again"
    else "Listing restored to approved (not live). Use set-live when ready."⟩

inductive ListingCall where
  | createListing (userId : ℕ) (dto : CreateDraftListingDto)
  | updateListing (userId listingId : ℕ) (dto : UpdateHostListingDto)
  | replaceListingMedia (userId listingId : ℕ) (media : List MediaItemDto)
  | replaceListingUnitTypes (userId listingId : ℕ) (unitTypes : List UnitTypeItemDto)
  | submitListing (userId listingId : ℕ)
  | pauseListing (userId listingId : ℕ)
  | resumeListing (userId listingId : ℕ)
  | approveListing (listingId adminUserId : ℕ)
  | rejectListing (listingId : ℕ) (reason : String) (adminUserId : ℕ)
  | setListingLive (listingId adminUserId : ℕ)
  | takeOffline (listingId adminUserId : ℕ)
  | unpauseListing (listingId adminUserId : ℕ)
  deriving DecidableEq, Repr

inductive ListingAnswer where
  | detail (loaded : LoadedListing)
  | status (response : StatusResponse)
  | submitted (response : SubmitResponse)
  | reviewed (response : AdminResponse)
  deriving DecidableEq, Repr

def ListingCall.program : ListingCall → Hosting ListingAnswer
  | .createListing userId dto => .status <$> ListingOperations.createListing userId dto
  | .updateListing userId listingId dto =>
    .detail <$> ListingOperations.updateListing userId listingId dto
  | .replaceListingMedia userId listingId media =>
    .detail <$> ListingOperations.replaceListingMedia userId listingId media
  | .replaceListingUnitTypes userId listingId unitTypes =>
    .detail <$> ListingOperations.replaceListingUnitTypes userId listingId unitTypes
  | .submitListing userId listingId =>
    .submitted <$> ListingOperations.submitListing userId listingId
  | .pauseListing userId listingId => .status <$> ListingOperations.pauseListing userId listingId
  | .resumeListing userId listingId => .status <$> ListingOperations.resumeListing userId listingId
  | .approveListing listingId adminUserId =>
    .reviewed <$> ListingOperations.approveListing listingId adminUserId
  | .rejectListing listingId reason adminUserId =>
    .reviewed <$> ListingOperations.rejectListing listingId reason adminUserId
  | .setListingLive listingId adminUserId =>
    .reviewed <$> ListingOperations.setListingLive listingId adminUserId
  | .takeOffline listingId adminUserId =>
    .reviewed <$> ListingOperations.takeOffline listingId adminUserId
  | .unpauseListing listingId adminUserId =>
    .reviewed <$> ListingOperations.unpauseListing listingId adminUserId

end NexaStays.ListingOperations
