import NexaStays.Database
import NexaStays.EntitySave

/-!
# The tables of hosts and their listings

Row types, the committed store and its row writes, for the functions that hosts and
administrators call on host profiles and listings. Prices are in hundredths, an instant is
its distance in milliseconds from the epoch, a JSON value is its text. The columns that the
database fills by itself, those that only other functions use, and the columns of a unit type
that are only passed on (`bed_config`, `size_sqm`, `details`) are left out.
-/
namespace NexaStays.HostingStore

open NexaStays.KeyedTable NexaStays.Transactions NexaStays.EntitySave
open NexaStays.Database (ListingStatus StaysError)

/-- A JSON object, as its members in order. -/
abbrev JsonObject := List (String × String)

/-- `{ ...a, ...b }`. -/
def JsonObject.spread (a b : JsonObject) : JsonObject :=
  a.filter (fun m => b.all fun n => n.1 ≠ m.1) ++ b

inductive ApplicationStatus where
  | notStarted | draft | pending | approved | rejected
  deriving DecidableEq, Repr

inductive VerificationStatus where
  | pending | approved | rejected
  deriving DecidableEq, Repr

inductive IdentityStatus where
  | notStarted | pending | verified | rejected | failed | notRequired
  deriving DecidableEq, Repr

inductive OnboardingSource where
  | web | mobile | admin | unknown
  deriving DecidableEq, Repr

structure HostProfile where
  id : ℕ
  userId : ℕ
  hostVerificationStatus : VerificationStatus
  applicationStatus : ApplicationStatus
  identityStatus : IdentityStatus
  source : OnboardingSource
  submittedFrom : Option String
  fullName : Option String
  email : Option String
  phone : Option String
  city : Option String
  hostType : Option String
  hostingPoliciesAcceptedAt : Option ℕ
  identityReused : Bool
  listingFrozen : Bool
  documentType : Option String
  documentNumberHash : Option String
  documentFrontAssetId : Option String
  documentBackAssetId : Option String
  selfieAssetId : Option String
  submittedAt : Option ℕ
  reviewedAt : Option ℕ
  reviewedBy : Option ℕ
  rejectionReason : Option String
  deriving DecidableEq, Repr

inductive ListingType where
  | apartment | hotel | riad | villa | hostel
  deriving DecidableEq, Repr

inductive BookingModel where
  | entireProperty | privateRoom | multiUnit | roomTypes | dormBeds | privateRooms
  | dormAndPrivate | both
  deriving DecidableEq, Repr

/-- What `paused_from_status` remembers. -/
inductive PausedFrom where
  | live | approved
  deriving DecidableEq, Repr

/-- Coordinates are in units of the last decimal place of their columns. -/
structure Listing where
  id : ℕ
  hostUserId : ℕ
  title : String
  listingType : ListingType
  bookingModel : Option BookingModel
  city : String
  neighborhood : Option String
  postalCode : Option String
  buildingName : Option String
  landmark : Option String
  address : Option String
  geoLat : Option ℤ
  geoLng : Option ℤ
  propertyDetails : JsonObject
  safetyFeatures : JsonObject
  policies : JsonObject
  status : ListingStatus
  pausedFromStatus : Option PausedFrom
  checkinTime : String
  checkoutTime : String
  description : Option String
  instantBooking : Bool
  lastEditedAt : ℕ
  archivedAt : Option ℕ
  deriving DecidableEq, Repr

inductive PetsPolicy where
  | allowed | dogsCats | no
  deriving DecidableEq, Repr

inductive SmokingPolicy where
  | allowed | notAllowed
  deriving DecidableEq, Repr

inductive CancellationPolicy where
  | flexible | moderate | strict
  deriving DecidableEq, Repr

structure ListingRules where
  id : ℕ
  listingId : ℕ
  petsPolicy : Option PetsPolicy
  smokingPolicy : Option SmokingPolicy
  quietHours : Bool
  couplesWelcome : Bool
  maxGuests : ℕ
  amenities : List String
  cancellationPolicy : CancellationPolicy
  deriving DecidableEq, Repr

structure RatePlan where
  id : ℕ
  listingId : ℕ
  currency : String
  basePrice : ℕ
  weekendPrice : Option ℕ
  deriving DecidableEq, Repr

inductive ContactRole where
  | owner | coHost | agent
  deriving DecidableEq, Repr

structure CheckInContact where
  id : ℕ
  listingId : ℕ
  fullName : String
  phone : String
  role : ContactRole
  accessInstructions : Option String
  deriving DecidableEq, Repr

inductive MediaKind where
  | photo | video | walkthrough
  deriving DecidableEq, Repr

structure ListingMedia where
  id : ℕ
  listingId : ℕ
  kind : MediaKind
  assetId : String
  sortOrder : ℕ
  isRequired : Bool
  category : Option String
  isCover : Bool
  deriving DecidableEq, Repr

inductive UnitKind where
  | apartmentUnit | hotelRoom | riadRoom | hostelDorm | hostelPrivate | villaUnit
  deriving DecidableEq, Repr

inductive PricingUnit where
  | night | bedNight | roomNight
  deriving DecidableEq, Repr

structure UnitType where
  id : ℕ
  listingId : ℕ
  kind : UnitKind
  name : String
  quantity : ℕ
  maxGuests : ℕ
  amenities : List String
  pricingUnit : PricingUnit
  basePrice : ℕ
  currency : String
  sortOrder : ℕ
  isActive : Bool
  deriving DecidableEq, Repr

structure AuditLog where
  id : ℕ
  actorUserId : ℕ
  entityType : String
  entityId : ℕ
  action : String
  deriving DecidableEq, Repr

structure Store where
  hostProfiles : Table HostProfile.id
  listings : Table Listing.id
  rules : Table ListingRules.id
  ratePlans : Table RatePlan.id
  contacts : Table CheckInContact.id
  media : Table ListingMedia.id
  unitTypes : Table UnitType.id
  auditLogs : Table AuditLog.id

inductive Key where
  | hostProfile (id : ℕ)
  | listing (id : ℕ)
  | rules (id : ℕ)
  | ratePlan (id : ℕ)
  | contact (id : ℕ)
  | media (id : ℕ)
  | unitType (id : ℕ)
  | auditLog (id : ℕ)
  deriving DecidableEq, Repr

/-- The write of one row: inserted or overwritten, or deleted. -/
inductive Write where
  | hostProfile (row : HostProfile)
  | listing (row : Listing)
  | rules (row : ListingRules)
  | ratePlan (row : RatePlan)
  | contact (row : CheckInContact)
  | media (row : ListingMedia)
  | noMedia (id : ℕ)
  | unitType (row : UnitType)
  | noUnitType (id : ℕ)
  | auditLog (row : AuditLog)
  deriving DecidableEq, Repr

def Write.key : Write → Key
  | .hostProfile p => .hostProfile p.id
  | .listing l => .listing l.id
  | .rules r => .rules r.id
  | .ratePlan r => .ratePlan r.id
  | .contact c => .contact c.id
  | .media m => .media m.id
  | .noMedia id => .media id
  | .unitType u => .unitType u.id
  | .noUnitType id => .unitType id
  | .auditLog a => .auditLog a.id

namespace Store

def write (s : Store) : Write → Store
  | .hostProfile p => { s with hostProfiles := s.hostProfiles.put p }
  | .listing l => { s with listings := s.listings.put l }
  | .rules r => { s with rules := s.rules.put r }
  | .ratePlan r => { s with ratePlans := s.ratePlans.put r }
  | .contact c => { s with contacts := s.contacts.put c }
  | .media m => { s with media := s.media.put m }
  | .noMedia id => { s with media := s.media.delete id }
  | .unitType u => { s with unitTypes := s.unitTypes.put u }
  | .noUnitType id => { s with unitTypes := s.unitTypes.delete id }
  | .auditLog a => { s with auditLogs := s.auditLogs.put a }

def present (s : Store) : Key → Bool
  | .hostProfile id => (s.hostProfiles.find? id).isSome
  | .listing id => (s.listings.find? id).isSome
  | .rules id => (s.rules.find? id).isSome
  | .ratePlan id => (s.ratePlans.find? id).isSome
  | .contact id => (s.contacts.find? id).isSome
  | .media id => (s.media.find? id).isSome
  | .unitType id => (s.unitTypes.find? id).isSome
  | .auditLog id => (s.auditLogs.find? id).isSome

/-- A new deployment. -/
def blank : Store :=
  { hostProfiles := .empty
    listings := .empty
    rules := .empty
    ratePlans := .empty
    contacts := .empty
    media := .empty
    unitTypes := .empty
    auditLogs := .empty }

end Store

instance : Storage Store Key Write where
  write := Store.write
  keyOf := Write.key
  present := Store.present

@[simp] theorem storage_write (s : Store) (w : Write) : Storage.write s w = s.write w := rfl

@[simp] theorem storage_keyOf (w : Write) : Storage.keyOf Store w = w.key := rfl

@[simp] theorem storage_present (s : Store) (k : Key) : Storage.present s k = s.present k := rfl

/-- The programs of the hosting functions. -/
abbrev Hosting := Program Store Key Write StaysError

namespace Hosting

abbrev read {α : Type} (f : Store → α) : Hosting α := Program.query .database f

abbrev findOne {α : Type} (f : Store → List α) : Hosting (Option α) :=
  Program.findOne .database f

abbrev lockRow {α : Type} (key : Key) (f : Store → α) : Hosting α :=
  Program.lockRow .database key f

abbrev update (ws : Store → List Write) : Hosting (List Write) := Program.writeRows .database ws

abbrev insert (row : ℕ → Write) : Hosting ℕ := Program.insertRow .database row

abbrev transaction {α : Type} (p : Hosting α) : Hosting α := Program.transaction .database p

/-- `new Date()`. -/
abbrev now : Hosting ℕ := Program.receive

/-- `auditRepo.save(auditRepo.create({ … }))`. -/
def audit (actorUserId : ℕ) (entityType : String) (entityId : ℕ) (action : String) :
    Hosting Unit := do
  let _ ← Hosting.insert fun id => .auditLog ⟨id, actorUserId, entityType, entityId, action⟩

end Hosting

instance : Columns HostProfile where
  merge old new row :=
    { id := column old.id new.id row.id
      userId := column old.userId new.userId row.userId
      hostVerificationStatus :=
        column old.hostVerificationStatus new.hostVerificationStatus row.hostVerificationStatus
      applicationStatus := column old.applicationStatus new.applicationStatus row.applicationStatus
      identityStatus := column old.identityStatus new.identityStatus row.identityStatus
      source := column old.source new.source row.source
      submittedFrom := column old.submittedFrom new.submittedFrom row.submittedFrom
      fullName := column old.fullName new.fullName row.fullName
      email := column old.email new.email row.email
      phone := column old.phone new.phone row.phone
      city := column old.city new.city row.city
      hostType := column old.hostType new.hostType row.hostType
      hostingPoliciesAcceptedAt := column old.hostingPoliciesAcceptedAt
        new.hostingPoliciesAcceptedAt row.hostingPoliciesAcceptedAt
      identityReused := column old.identityReused new.identityReused row.identityReused
      listingFrozen := column old.listingFrozen new.listingFrozen row.listingFrozen
      documentType := column old.documentType new.documentType row.documentType
      documentNumberHash :=
        column old.documentNumberHash new.documentNumberHash row.documentNumberHash
      documentFrontAssetId :=
        column old.documentFrontAssetId new.documentFrontAssetId row.documentFrontAssetId
      documentBackAssetId :=
        column old.documentBackAssetId new.documentBackAssetId row.documentBackAssetId
      selfieAssetId := column old.selfieAssetId new.selfieAssetId row.selfieAssetId
      submittedAt := column old.submittedAt new.submittedAt row.submittedAt
      reviewedAt := column old.reviewedAt new.reviewedAt row.reviewedAt
      reviewedBy := column old.reviewedBy new.reviewedBy row.reviewedBy
      rejectionReason := column old.rejectionReason new.rejectionReason row.rejectionReason }
  merge_self old new := by simp only [column_self]

instance : Columns Listing where
  merge old new row :=
    { id := column old.id new.id row.id
      hostUserId := column old.hostUserId new.hostUserId row.hostUserId
      title := column old.title new.title row.title
      listingType := column old.listingType new.listingType row.listingType
      bookingModel := column old.bookingModel new.bookingModel row.bookingModel
      city := column old.city new.city row.city
      neighborhood := column old.neighborhood new.neighborhood row.neighborhood
      postalCode := column old.postalCode new.postalCode row.postalCode
      buildingName := column old.buildingName new.buildingName row.buildingName
      landmark := column old.landmark new.landmark row.landmark
      address := column old.address new.address row.address
      geoLat := column old.geoLat new.geoLat row.geoLat
      geoLng := column old.geoLng new.geoLng row.geoLng
      propertyDetails := column old.propertyDetails new.propertyDetails row.propertyDetails
      safetyFeatures := column old.safetyFeatures new.safetyFeatures row.safetyFeatures
      policies := column old.policies new.policies row.policies
      status := column old.status new.status row.status
      pausedFromStatus := column old.pausedFromStatus new.pausedFromStatus row.pausedFromStatus
      checkinTime := column old.checkinTime new.checkinTime row.checkinTime
      checkoutTime := column old.checkoutTime new.checkoutTime row.checkoutTime
      description := column old.description new.description row.description
      instantBooking := column old.instantBooking new.instantBooking row.instantBooking
      lastEditedAt := column old.lastEditedAt new.lastEditedAt row.lastEditedAt
      archivedAt := column old.archivedAt new.archivedAt row.archivedAt }
  merge_self old new := by simp only [column_self]

instance : Columns ListingRules where
  merge old new row :=
    { id := column old.id new.id row.id
      listingId := column old.listingId new.listingId row.listingId
      petsPolicy := column old.petsPolicy new.petsPolicy row.petsPolicy
      smokingPolicy := column old.smokingPolicy new.smokingPolicy row.smokingPolicy
      quietHours := column old.quietHours new.quietHours row.quietHours
      couplesWelcome := column old.couplesWelcome new.couplesWelcome row.couplesWelcome
      maxGuests := column old.maxGuests new.maxGuests row.maxGuests
      amenities := column old.amenities new.amenities row.amenities
      cancellationPolicy :=
        column old.cancellationPolicy new.cancellationPolicy row.cancellationPolicy }
  merge_self old new := by simp only [column_self]

instance : Columns RatePlan where
  merge old new row :=
    { id := column old.id new.id row.id
      listingId := column old.listingId new.listingId row.listingId
      currency := column old.currency new.currency row.currency
      basePrice := column old.basePrice new.basePrice row.basePrice
      weekendPrice := column old.weekendPrice new.weekendPrice row.weekendPrice }
  merge_self old new := by simp only [column_self]

instance : Columns CheckInContact where
  merge old new row :=
    { id := column old.id new.id row.id
      listingId := column old.listingId new.listingId row.listingId
      fullName := column old.fullName new.fullName row.fullName
      phone := column old.phone new.phone row.phone
      role := column old.role new.role row.role
      accessInstructions :=
        column old.accessInstructions new.accessInstructions row.accessInstructions }
  merge_self old new := by simp only [column_self]

instance : Columns UnitType where
  merge old new row :=
    { id := column old.id new.id row.id
      listingId := column old.listingId new.listingId row.listingId
      kind := column old.kind new.kind row.kind
      name := column old.name new.name row.name
      quantity := column old.quantity new.quantity row.quantity
      maxGuests := column old.maxGuests new.maxGuests row.maxGuests
      amenities := column old.amenities new.amenities row.amenities
      pricingUnit := column old.pricingUnit new.pricingUnit row.pricingUnit
      basePrice := column old.basePrice new.basePrice row.basePrice
      currency := column old.currency new.currency row.currency
      sortOrder := column old.sortOrder new.sortOrder row.sortOrder
      isActive := column old.isActive new.isActive row.isActive }
  merge_self old new := by simp only [column_self]

end NexaStays.HostingStore
