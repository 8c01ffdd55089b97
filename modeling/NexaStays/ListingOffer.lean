import NexaStays.ListingOperations

/-!
# Listings that are worked on by one call after the other

The offer of a listing is its row with its unit types and its rate plans. A call that runs
alone changes it as `OfferLaw` says. Whatever the calls, only `setListingLive` publishes a
listing. A bookable listing keeps its rooms and its price if it is not emptied while it is
under review or paused, and not submitted without a room.
-/
namespace NexaStays.ListingOffer

open NexaStays.KeyedTable NexaStays.Transactions NexaStays.EntitySave NexaStays.HostingStore
open NexaStays.ListingOperations NexaStays.Phases NexaStays.Sequences
open NexaStays.Database (ListingStatus StaysError)

structure Offer where
  listing : Option Listing
  units : List UnitType
  plans : List RatePlan
  deriving DecidableEq, Repr

/-- The offer with a new version of a rate plan. -/
def Offer.putPlan (o : Offer) (row : RatePlan) : Offer :=
  { o with plans := o.plans.map fun p => if p.id = row.id then row else p }

/-- The offer with a new version of a unit type. -/
def Offer.putUnit (o : Offer) (row : UnitType) : Offer :=
  { o with units := o.units.map fun u => if u.id = row.id then row else u }

/-- The offer of the listing `id`. -/
def offer (id : ℕ) (s : Store) : Offer :=
  { listing := s.listings.find? id
    units := s.unitTypes.rows.filter (·.listingId = id)
    plans := s.ratePlans.rows.filter (·.listingId = id) }

section Writes

variable {id : ℕ} {s : Store}

theorem offer_listing (row : Listing) : offer id (s.write (.listing row)) =
    if id = row.id then { offer id s with listing := some row } else offer id s := by
  by_cases h : id = row.id <;> simp [offer, Store.write, h]

@[simp] theorem offer_rules (row : ListingRules) :
    offer id (s.write (.rules row)) = offer id s := rfl

@[simp] theorem offer_contact (row : CheckInContact) :
    offer id (s.write (.contact row)) = offer id s := rfl

@[simp] theorem offer_media (row : ListingMedia) :
    offer id (s.write (.media row)) = offer id s := rfl

@[simp] theorem offer_noMedia (n : ℕ) : offer id (s.write (.noMedia n)) = offer id s := rfl

@[simp] theorem offer_auditLog (row : AuditLog) :
    offer id (s.write (.auditLog row)) = offer id s := rfl

theorem offer_insertPlan {row : RatePlan} (h : s.ratePlans.find? row.id = none) :
    offer id (s.write (.ratePlan row)) =
      if row.listingId = id then { offer id s with plans := (offer id s).plans ++ [row] }
      else offer id s := by
  by_cases hid : row.listingId = id
  · simp [offer, Store.write, hid, Table.filter_put_of_absent h]
  · simp [offer, Store.write, hid, Table.filter_put_of_neg, h]

theorem offer_insertUnit {row : UnitType} (h : s.unitTypes.find? row.id = none) :
    offer id (s.write (.unitType row)) =
      if row.listingId = id then { offer id s with units := (offer id s).units ++ [row] }
      else offer id s := by
  by_cases hid : row.listingId = id
  · simp [offer, Store.write, hid, Table.filter_put_of_absent h]
  · simp [offer, Store.write, hid, Table.filter_put_of_neg, h]

theorem offer_updatePlan {row old : RatePlan} (h : s.ratePlans.find? row.id = some old)
    (hlisting : row.listingId = old.listingId) : offer id (s.write (.ratePlan row)) =
      if row.listingId = id then (offer id s).putPlan row else offer id s := by
  by_cases hid : row.listingId = id
  · have hold : old.listingId = id := hlisting ▸ hid
    simp [offer, Offer.putPlan, Store.write, hid, Table.filter_put_of_present h, hold]
  · have hold : old.listingId ≠ id := hlisting ▸ hid
    simp [offer, Store.write, hid, Table.filter_put_of_neg, h, hold]

theorem offer_updateUnit {row old : UnitType} (h : s.unitTypes.find? row.id = some old)
    (hlisting : row.listingId = old.listingId) : offer id (s.write (.unitType row)) =
      if row.listingId = id then (offer id s).putUnit row else offer id s := by
  by_cases hid : row.listingId = id
  · have hold : old.listingId = id := hlisting ▸ hid
    simp [offer, Offer.putUnit, Store.write, hid, Table.filter_put_of_present h, hold]
  · have hold : old.listingId ≠ id := hlisting ▸ hid
    simp [offer, Store.write, hid, Table.filter_put_of_neg, h, hold]

theorem publish_noUnits (s : Store) (rows : List UnitType) :
    publish s (rows.map fun row => Write.noUnitType row.id) =
      { s with unitTypes := s.unitTypes.deleteAll rows } := by
  induction rows generalizing s with
  | nil => rfl
  | cons row rows ih => rw [List.map_cons, publish_cons, ih]; rfl

theorem publish_noMedia (s : Store) (rows : List ListingMedia) :
    publish s (rows.map fun row => Write.noMedia row.id) =
      { s with media := s.media.deleteAll rows } := by
  induction rows generalizing s with
  | nil => rfl
  | cons row rows ih => rw [List.map_cons, publish_cons, ih]; rfl

theorem publish_plans (s : Store) (rows : List RatePlan) :
    publish s (rows.map Write.ratePlan) = { s with ratePlans := s.ratePlans.putAll rows } := by
  induction rows generalizing s with
  | nil => rfl
  | cons row rows ih => rw [List.map_cons, publish_cons, ih]; rfl

/-- The unit types of a listing are deleted. -/
theorem offer_noUnits (listingId : ℕ) :
    offer id (publish s ((s.unitTypes.rows.filter (·.listingId = listingId)).map fun row =>
      Write.noUnitType row.id)) =
      if listingId = id then { offer id s with units := [] } else offer id s := by
  rw [publish_noUnits]
  by_cases hid : listingId = id
  · subst hid
    simp [offer, Table.filter_deleteAll_self]
  · have hneg : ∀ row : UnitType, decide (row.listingId = id) = true →
        decide (row.listingId = listingId) = false := by
      intro row hrow
      simp only [decide_eq_true_eq] at hrow
      simp [hrow, Ne.symm hid]
    simp [offer, Table.filter_deleteAll_of_neg hneg, hid]

/-- The rate plans of a listing get a new price. -/
theorem offer_price (listingId price : ℕ) :
    offer id (publish s ((s.ratePlans.rows.filter (·.listingId = listingId)).map fun plan =>
      Write.ratePlan { plan with basePrice := price })) =
      if listingId = id then
        { offer id s with plans := (offer id s).plans.map fun p => { p with basePrice := price } }
      else offer id s := by
  have hrows : ((s.ratePlans.rows.filter (·.listingId = listingId)).map fun plan =>
      Write.ratePlan { plan with basePrice := price }) =
      (((s.ratePlans.rows.filter (·.listingId = listingId)).map fun plan =>
        { plan with basePrice := price }).map Write.ratePlan) := by
    rw [List.map_map]
    rfl
  have hkey : ∀ plan : RatePlan, ({ plan with basePrice := price } : RatePlan).id = plan.id :=
    fun _ => rfl
  rw [hrows, publish_plans]
  by_cases hid : listingId = id
  · subst hid
    simp [offer, Table.filter_update_self hkey]
  · have hneg : ∀ row : RatePlan, decide (row.listingId = id) = true →
        decide (row.listingId = listingId) = false := by
      intro row hrow
      simp only [decide_eq_true_eq] at hrow
      simp [hrow, Ne.symm hid]
    simp [offer, Table.filter_update_of_neg hkey _ _ hneg, hid]

end Writes

/-- What a call makes of the row of the listing `id`. -/
inductive StatusLaw (id : ℕ) : ListingCall → Listing → Listing → Prop where
  | update {userId dto now l} :
    StatusLaw id (.updateListing userId id dto) l (updatedListing dto now l)
  | replaceMedia {userId media now l} :
    StatusLaw id (.replaceListingMedia userId id media) l { l with lastEditedAt := now }
  | pause {userId} {l : Listing} (status : l.status = .live ∨ l.status = .approved) :
    StatusLaw id (.pauseListing userId id) l (paused () l)
  | resume {userId} {l : Listing} (status : l.status = .paused) :
    StatusLaw id (.resumeListing userId id) l (resumed () l)
  | approve {adminUserId} {l : Listing} (status : l.status = .submitted) :
    StatusLaw id (.approveListing id adminUserId) l (withStatus .approved () l)
  | reject {reason adminUserId} {l : Listing} (status : l.status = .submitted) :
    StatusLaw id (.rejectListing id reason adminUserId) l (withStatus .rejected () l)
  | setLive {adminUserId} {l : Listing} (status : l.status = .approved) :
    StatusLaw id (.setListingLive id adminUserId) l (withStatus .live () l)
  | takeOffline {adminUserId} {l : Listing} (status : l.status = .live ∨ l.status = .approved) :
    StatusLaw id (.takeOffline id adminUserId) l (paused () l)
  | unpause {adminUserId} {l : Listing} (status : l.status = .paused) :
    StatusLaw id (.unpauseListing id adminUserId) l (resumed () l)

/-- What a call that runs alone makes of the offer of the listing `id`. -/
inductive OfferLaw (id : ℕ) : ListingCall → Offer → Offer → Prop where
  | draft {userId dto now units} {plan : RatePlan} {o : Offer} (absent : o.listing = none)
    (unpriced : ∀ u ∈ units, u.basePrice = 0) (free : plan.basePrice = 0) :
    OfferLaw id (.createListing userId dto) o
      ⟨some (draftListing userId dto now id), o.units ++ units, o.plans ++ [plan]⟩
  | row {c o l l'} (found : o.listing = some l) (change : StatusLaw id c l l') :
    OfferLaw id c o { o with listing := some l' }
  | submit {userId o now} {loaded : LoadedListing}
    (found : o.listing = some loaded.listing) (units : loaded.unitTypes = o.units)
    (plan : loaded.ratePlan = o.plans.head?) (check : checkSubmit loaded = .ok ()) :
    OfferLaw id (.submitListing userId id) o
      { o with listing := some (submitted now loaded.listing) }
  | plan {userId listingId dto edit} {plan : RatePlan} {o : Offer} (given : dto.ratePlan = some edit)
    (found : o.plans.head? = some plan) :
    OfferLaw id (.updateListing userId listingId dto) o (o.putPlan (updatedRatePlan edit plan))
  | unit {userId listingId dto edit} {unit : UnitType} {plan : RatePlan} {o : Offer}
    (given : dto.ratePlan = some edit) (priced : edit.basePrice = some plan.basePrice)
    (current : o.plans.head? = some plan) (found : o.units = [unit]) :
    OfferLaw id (.updateListing userId listingId dto) o
      { o with units := [{ unit with basePrice := plan.basePrice }] }
  | replaceUnits {userId items now units} {o : Offer} {loaded : LoadedListing}
    (found : o.listing = some loaded.listing) (check : checkUnitTypes items loaded = .ok ())
    (prices : units.map (·.basePrice) = items.map (·.basePrice)) :
    OfferLaw id (.replaceListingUnitTypes userId id items) o
      { listing := some { loaded.listing with lastEditedAt := now }
        units
        plans := o.plans.map fun p => { p with basePrice := minPrice (items.map (·.basePrice)) } }

/-- What a statement of a call makes of the store. -/
def law (id : ℕ) (c : ListingCall) (s t : Store) : Prop :=
  offer id t = offer id s ∨ OfferLaw id c (offer id s) (offer id t)

theorem law_same {id : ℕ} {c : ListingCall} {s t : Store} (h : offer id t = offer id s) :
    law id c s t := Or.inl h

section Alone

variable {id : ℕ} {c : ListingCall} {s : Store}

theorem returns_profile {R : Store → Store → Prop} {userId : ℕ} :
    Returns R (fun _ t => t = s) (resolveProfileForUser userId) s :=
  Returns.findOne fun _ => rfl

theorem returns_timed {R : Store → Store → Prop} {listing : Listing} :
    Returns R (fun _ t => t = s) (timed listing) s :=
  Returns.receive (P := fun _ t => t = s) fun _ => rfl

theorem returns_assertCanList {R : Store → Store → Prop} {userId : ℕ} :
    Returns R (fun _ t => t = s) (assertCanList userId) s := by
  have hcan : Returns R (fun _ t => t = s) (canList userId) s :=
    returns_profile.bind fun _ _ ht => Returns.pure ht
  refine hcan.bind fun mayList t ht => ?_
  subst ht
  cases mayList with
  | true => exact Returns.pure rfl
  | false => exact returns_profile.bind fun _ _ _ => Returns.throw

/-- What was loaded is still stored. -/
structure Loaded (s : Store) (loaded : LoadedListing) : Prop where
  listing : s.listings.find? loaded.listing.id = some loaded.listing
  rules : ∀ row ∈ loaded.rules, s.rules.find? row.id = some row
  plan : ∀ row ∈ loaded.ratePlan,
    s.ratePlans.rows.find? (·.listingId = loaded.listing.id) = some row
  contact : ∀ row ∈ loaded.checkInContact, s.contacts.find? row.id = some row

theorem loaded_of_find {relations : List Relation} {listingId : ℕ} {loaded : LoadedListing}
    (h : findListing relations listingId s = some loaded) :
    Loaded s loaded ∧ loaded.listing.id = listingId := by
  obtain ⟨listing, hlisting, rfl⟩ := Option.map_eq_some_iff.mp h
  have hid : listing.id = listingId := Table.key_of_find? hlisting
  refine ⟨⟨?_, fun row hrow => ?_, fun row hrow => ?_, fun row hrow => ?_⟩, hid⟩
  · rw [load, hid]
    exact hlisting
  · simp only [load, Option.mem_def, Option.ite_none_right_eq_some] at hrow
    exact Table.find?_key (List.mem_of_find?_eq_some hrow.2)
  · simp only [load, Option.mem_def, Option.ite_none_right_eq_some] at hrow
    exact hrow.2
  · simp only [load, Option.mem_def, Option.ite_none_right_eq_some] at hrow
    exact Table.find?_key (List.mem_of_find?_eq_some hrow.2)

theorem Loaded.plan_find {loaded : LoadedListing} (h : Loaded s loaded) {row : RatePlan}
    (hrow : row ∈ loaded.ratePlan) :
    s.ratePlans.find? row.id = some row ∧ row.listingId = loaded.listing.id := by
  have hfind := h.plan row hrow
  exact ⟨Table.find?_key (List.mem_of_find?_eq_some hfind),
    by simpa using List.find?_some hfind⟩

theorem returns_requireOwnedListing {R : Store → Store → Prop} {userId listingId : ℕ}
    {relations : List Relation} :
    Returns R (fun loaded t => t = s ∧ findListing relations listingId s = some loaded)
      (requireOwnedListing userId listingId relations) s := by
  refine Returns.bind (P := fun found t => t = s ∧ findListing relations listingId s = found)
    (Returns.query ⟨rfl, rfl⟩) fun found t ht => ?_
  obtain ⟨rfl, hfound⟩ := ht
  refine Returns.bind (P := fun loaded u => u = t ∧ found = some loaded)
    (Returns.expect fun loaded hloaded => ⟨rfl, hloaded⟩) fun loaded u hu => ?_
  obtain ⟨rfl, rfl⟩ := hu
  refine Returns.bind (P := fun _ v => v = u) (Returns.require fun _ => rfl) fun _ v hv => ?_
  subst hv
  exact Returns.pure ⟨rfl, hfound⟩

theorem returns_saveRules {P : Unit → Store → Prop} {old new : ListingRules}
    (hfound : s.rules.find? old.id = some old) (hid : new.id = old.id)
    (h : P () (s.write (.rules new))) : Returns (law id c) P (saveRules new) s := by
  refine returns_saveEntity (by rw [hid]; exact hfound) ?_ (law_same rfl) h
  simp [rulesTable, Store.write, Table.put_self hfound]

theorem returns_saveContact {P : Unit → Store → Prop} {old new : CheckInContact}
    (hfound : s.contacts.find? old.id = some old) (hid : new.id = old.id)
    (h : P () (s.write (.contact new))) : Returns (law id c) P (saveContact new) s := by
  refine returns_saveEntity (by rw [hid]; exact hfound) ?_ (law_same rfl) h
  simp [contactTable, Store.write, Table.put_self hfound]

theorem returns_saveRatePlan {P : Unit → Store → Prop} {old new : RatePlan}
    (hfound : s.ratePlans.find? old.id = some old) (hid : new.id = old.id)
    (hlaw : law id c s (s.write (.ratePlan new))) (h : P () (s.write (.ratePlan new))) :
    Returns (law id c) P (saveRatePlan new) s := by
  refine returns_saveEntity (by rw [hid]; exact hfound) ?_ hlaw h
  simp [ratePlanTable, Store.write, Table.put_self hfound]

theorem returns_saveUnitType {P : Unit → Store → Prop} {old new : UnitType}
    (hfound : s.unitTypes.find? old.id = some old) (hid : new.id = old.id)
    (hlaw : law id c s (s.write (.unitType new))) (h : P () (s.write (.unitType new))) :
    Returns (law id c) P (saveUnitType new) s := by
  refine returns_saveEntity (by rw [hid]; exact hfound) ?_ hlaw h
  simp [unitTypeTable, Store.write, Table.put_self hfound]

/-- A relation that was not changed. -/
theorem returns_saveRelation {ρ : Type} {save : ρ → Hosting Unit} {row : Option ρ}
    (h : ∀ r ∈ row, Returns (law id c) (fun _ t => t = s) (save r) s) :
    Returns (law id c) (fun _ t => t = s) (saveRelation save row) s := by
  cases row with
  | none => exact Returns.pure rfl
  | some r => exact h r rfl

/-- The save of a listing with relations that were not changed. -/
theorem returns_saveListing {loaded : LoadedListing} (hloaded : Loaded s loaded) {new : Listing}
    (hid : new.id = loaded.listing.id) (hlaw : law id c s (s.write (.listing new))) :
    Returns (law id c) (fun _ t => t = s.write (.listing new)) (saveListing loaded new) s := by
  refine Returns.bind (P := fun _ t => t = s.write (.listing new)) ?_ fun _ t ht => ?_
  · refine returns_saveEntity (by rw [hid]; exact hloaded.listing) ?_ hlaw
      rfl
    simp [listingTable, Store.write, Table.put_self hloaded.listing]
  subst ht
  refine Returns.bind (returns_saveRelation fun row hrow => ?_) fun _ t ht => ?_
  · have hfound := hloaded.rules row hrow
    refine returns_saveRules hfound rfl ?_
    simp [Store.write, Table.put_self hfound]
  subst ht
  refine Returns.bind (returns_saveRelation fun row hrow => ?_) fun _ t ht => ?_
  · have hfound := (hloaded.plan_find hrow).1
    have hsame : (s.write (.listing new)).write (.ratePlan row) = s.write (.listing new) := by
      simp [Store.write, Table.put_self hfound]
    exact returns_saveRatePlan hfound rfl (law_same (by rw [hsame])) hsame
  subst ht
  refine returns_saveRelation fun row hrow => ?_
  have hfound := hloaded.contact row hrow
  refine returns_saveContact hfound rfl ?_
  simp [Store.write, Table.put_self hfound]

variable {ι : Type} {check : LoadedListing → Except StaysError Unit}
  {prepare : Listing → Hosting ι} {edit : ι → Listing → Listing}

/-- A listing is checked, changed and saved. -/
theorem returns_reviseListing {loaded : LoadedListing} (hloaded : Loaded s loaded)
    (hedit : ∀ i l, (edit i l).id = l.id)
    (hprepare : Returns (law id c) (fun _ t => t = s) (prepare loaded.listing) s)
    (hlaw : ∀ i, check loaded = .ok () →
      law id c s (s.write (.listing (edit i loaded.listing)))) :
    Returns (law id c) (fun row t => row.id = loaded.listing.id ∧ t = s.write (.listing row))
      (reviseListing check prepare edit loaded) s := by
  refine Returns.bind (P := fun _ t => t = s ∧ check loaded = .ok ())
    (Returns.ofExcept fun _ h => ⟨rfl, h⟩) fun _ t ht => ?_
  obtain ⟨rfl, hcheck⟩ := ht
  refine hprepare.bind fun i u hu => ?_
  subst hu
  refine (returns_saveListing hloaded (hedit i _) (hlaw i hcheck)).bind fun _ v hv => ?_
  subst hv
  exact Returns.pure ⟨hedit i _, rfl⟩

/-- A lawful change of the row that was loaded. -/
theorem law_row {l l' : Listing} (hfound : s.listings.find? l.id = some l) (hid : l'.id = l.id)
    (hlaw : StatusLaw l.id c l l') : law id c s (s.write (.listing l')) := by
  rw [law, offer_listing]
  by_cases h : id = l'.id
  · obtain rfl := h.trans hid
    rw [if_pos h]
    exact Or.inr (.row hfound hlaw)
  · rw [if_neg h]
    exact Or.inl rfl

theorem returns_updateRules {dto : Option UpdateRulesDto} {loaded : LoadedListing}
    (hloaded : Loaded s loaded) :
    Returns (law id c) (fun _ t => t.listings = s.listings ∧ t.ratePlans = s.ratePlans ∧
      t.contacts = s.contacts) (updateRules dto loaded) s := by
  unfold updateRules
  split
  · rename_i edit row hrow
    exact returns_saveRules (hloaded.rules row hrow) rfl ⟨rfl, rfl, rfl⟩
  · exact Returns.pure ⟨rfl, rfl, rfl⟩

/-- The price of the only unit of a listing follows that of the rate plan. -/
theorem returns_updateUnitPrice {userId updated : ℕ} {dto : UpdateHostListingDto}
    {edit : UpdateRatePlanDto} (hgiven : dto.ratePlan = some edit) {listing : Listing}
    {p : RatePlan} (hplan : (offer listing.id s).plans.head? = some p)
    (hprice : ∀ price ∈ edit.basePrice, p.basePrice = price) :
    Returns (law id (.updateListing userId updated dto)) (fun _ t => t.contacts = s.contacts)
      (updateUnitPrice edit.basePrice listing) s := by
  unfold updateUnitPrice
  split
  · rename_i price hgivenPrice
    obtain rfl := hprice price hgivenPrice
    split_ifs
    · exact Returns.pure rfl
    · refine Returns.bind (P := fun units t => t = s ∧
        units = s.unitTypes.rows.filter (·.listingId = listing.id))
        (Returns.query ⟨rfl, rfl⟩) fun units t ht => ?_
      obtain ⟨rfl, hunits⟩ := ht
      split
      · rename_i unit
        have hmem : unit ∈ t.unitTypes.rows.filter (·.listingId = listing.id) := by simp [← hunits]
        have hrow := Table.find?_of_mem_filter hmem
        have hlisting : unit.listingId = listing.id := by simpa using (List.mem_filter.mp hmem).2
        refine returns_saveUnitType hrow rfl ?_ rfl
        have hput : offer id (t.write (.unitType { unit with basePrice := p.basePrice })) =
            if unit.listingId = id then
              (offer id t).putUnit { unit with basePrice := p.basePrice }
            else offer id t := offer_updateUnit hrow rfl
        rw [law, hput]
        by_cases hid : unit.listingId = id
        · have hone : (offer id t).units = [unit] := by rw [offer, ← hid, hlisting, ← hunits]
          have hcurrent : (offer id t).plans.head? = some p := by rw [← hid, hlisting, hplan]
          simp only [if_pos hid, Offer.putUnit, hone, List.map_cons, List.map_nil, if_true]
          exact Or.inr (.unit hgiven hgivenPrice hcurrent hone)
        · rw [if_neg hid]
          exact Or.inl rfl
      · exact Returns.pure rfl
  · exact Returns.pure rfl

theorem returns_updateRatePlan {userId updated : ℕ} {dto : UpdateHostListingDto}
    {loaded : LoadedListing} (hplan : ∀ row ∈ loaded.ratePlan,
      s.ratePlans.rows.find? (·.listingId = loaded.listing.id) = some row) :
    Returns (law id (.updateListing userId updated dto)) (fun _ t => t.contacts = s.contacts)
      (updateRatePlan dto.ratePlan loaded) s := by
  unfold updateRatePlan
  split
  · rename_i edit row hgiven hrow
    have hfind := hplan row hrow
    have hfound := Table.find?_key (List.mem_of_find?_eq_some hfind)
    have hlisting : row.listingId = loaded.listing.id := by simpa using List.find?_some hfind
    have hhead : (offer loaded.listing.id s).plans.head? = some row := by
      rw [offer, List.head?_filter]
      exact hfind
    have hwrite : ∀ id, offer id (s.write (.ratePlan (updatedRatePlan edit row))) =
        if row.listingId = id then (offer id s).putPlan (updatedRatePlan edit row)
        else offer id s := fun _ => offer_updatePlan hfound rfl
    refine Returns.bind (P := fun _ t => t = s.write (.ratePlan (updatedRatePlan edit row)))
      (returns_saveRatePlan hfound rfl ?_ rfl) fun _ t ht => ?_
    · rw [law, hwrite]
      by_cases hid : row.listingId = id
      · rw [if_pos hid]
        exact Or.inr (.plan hgiven (by rw [← hid, hlisting, hhead]))
      · rw [if_neg hid]
        exact Or.inl rfl
    · subst ht
      refine (returns_updateUnitPrice hgiven (p := updatedRatePlan edit row) ?_ ?_).mono
        fun _ _ h => h
      · rw [hwrite, if_pos hlisting]
        simp [Offer.putPlan, List.head?_map, hhead, updatedRatePlan]
      · intro price hprice
        rw [updatedRatePlan, Option.mem_def.mp hprice, Option.getD_some]
  · exact Returns.pure rfl

theorem returns_updateContact {dto : Option UpdateCheckInContactDto} {loaded : LoadedListing}
    (hcontact : ∀ row ∈ loaded.checkInContact, s.contacts.find? row.id = some row) :
    Returns (law id c) (fun _ _ => True) (updateContact dto loaded) s := by
  unfold updateContact
  split
  · rename_i edit row hrow
    exact returns_saveContact (hcontact row hrow) rfl trivial
  · exact Returns.pure trivial

theorem returns_updateListing {userId updated : ℕ} {dto : UpdateHostListingDto} :
    Returns (law id (.updateListing userId updated dto)) (fun _ _ => True)
      (updateListing userId updated dto) s := by
  refine returns_assertCanList.bind fun _ t ht => ?_
  subst ht
  refine returns_requireOwnedListing.bind fun loaded t ht => ?_
  obtain ⟨rfl, hfind⟩ := ht
  obtain ⟨hloaded, rfl⟩ := loaded_of_find hfind
  have hedit : ∀ now l, (updatedListing dto now l).id = l.id := fun _ _ => rfl
  refine (returns_reviseListing hloaded hedit returns_timed
    fun now _ => law_row hloaded.listing rfl .update).bind fun row t' ht => ?_
  obtain ⟨hid, rfl⟩ := ht
  have hsaved : Loaded (t.write (.listing row)) { loaded with listing := row } := by
    refine ⟨?_, hloaded.rules, ?_, hloaded.contact⟩
    · simp [Store.write]
    · rw [hid]
      exact hloaded.plan
  refine (returns_updateRules hsaved).bind
    fun _ u hu => ?_
  obtain ⟨-, hplans, hcontacts⟩ := hu
  refine (returns_updateRatePlan (by rw [hplans]; exact hloaded.plan)).bind
    fun _ v hv => ?_
  refine (returns_updateContact
    (by rw [hv, hcontacts]; exact hloaded.contact)).bind fun _ w _ => ?_
  exact returns_requireOwnedListing.mono fun _ _ _ => trivial

/-- A change of the status by the host. -/
theorem returns_hostRevise {userId listingId : ℕ} {relations : List Relation} {β : Type}
    {answer : LoadedListing → Listing → β} (hedit : ∀ i l, (edit i l).id = l.id)
    (hprepare : ∀ l, Returns (law id c) (fun _ t => t = s) (prepare l) s)
    (hlaw : ∀ loaded i, findListing relations listingId s = some loaded → Loaded s loaded →
      loaded.listing.id = listingId → check loaded = .ok () →
        law id c s (s.write (.listing (edit i loaded.listing)))) :
    Returns (law id c) (fun _ _ => True) (do
      let loaded ← requireOwnedListing userId listingId relations
      let listing ← reviseListing check prepare edit loaded
      pure (answer loaded listing)) s := by
  refine returns_requireOwnedListing.bind fun loaded t ht => ?_
  obtain ⟨rfl, hfind⟩ := ht
  obtain ⟨hloaded, hid⟩ := loaded_of_find hfind
  exact (returns_reviseListing hloaded hedit (hprepare _)
    fun i hcheck => hlaw loaded i hfind hloaded hid hcheck).bind fun _ _ _ => Returns.pure trivial

theorem onlyWhen_iff {status : ListingStatus} {message : String} {loaded : LoadedListing} :
    onlyWhen status message loaded = .ok () ↔ loaded.listing.status = status := by
  unfold onlyWhen
  split_ifs with h <;> simp [h]

theorem pausable_iff {message : String} {loaded : LoadedListing} :
    pausable message loaded = .ok () ↔
      loaded.listing.status = .live ∨ loaded.listing.status = .approved := by
  unfold pausable
  split_ifs with h <;> simpa using h

theorem returns_pauseListing {userId listingId : ℕ} :
    Returns (law id (.pauseListing userId listingId)) (fun _ _ => True)
      (pauseListing userId listingId) s := by
  refine returns_hostRevise (fun _ _ => rfl) (fun _ => Returns.pure rfl)
    fun loaded _ _ hloaded hid hcheck => ?_
  subst hid
  exact law_row hloaded.listing rfl (.pause (pausable_iff.mp hcheck))

theorem returns_resumeListing {userId listingId : ℕ} :
    Returns (law id (.resumeListing userId listingId)) (fun _ _ => True)
      (resumeListing userId listingId) s := by
  refine returns_assertCanList.bind fun _ t ht => ?_
  subst ht
  refine returns_hostRevise (fun _ _ => rfl) (fun _ => Returns.pure rfl)
    fun loaded _ _ hloaded hid hcheck => ?_
  subst hid
  exact law_row hloaded.listing rfl (.resume (onlyWhen_iff.mp hcheck))

theorem returns_submitListing {userId listingId : ℕ} :
    Returns (law id (.submitListing userId listingId)) (fun _ _ => True)
      (submitListing userId listingId) s := by
  refine returns_assertCanList.bind fun _ t ht => ?_
  subst ht
  refine returns_hostRevise (fun _ _ => rfl) (fun _ => returns_timed)
    fun loaded now hfind hloaded hlisting hcheck => ?_
  subst hlisting
  obtain ⟨listing, -, rfl⟩ := Option.map_eq_some_iff.mp hfind
  rw [law, offer_listing]
  by_cases hid : id = listing.id
  · have hhere : id = (submitted now (load allRelations t listing).listing).id := hid
    rw [if_pos hhere]
    subst hid
    refine Or.inr (.submit hloaded.listing ?_ ?_ hcheck)
    · simp [load, offer, allRelations]
    · simp [load, offer, allRelations, List.head?_filter]
  · have hother : ¬id = (submitted now (load allRelations t listing).listing).id := hid
    rw [if_neg hother]
    exact Or.inl rfl

theorem returns_audit {actor entityId : ℕ} {entityType action : String} :
    Returns (law id c) (fun _ _ => True) (Hosting.audit actor entityType entityId action) s :=
  Returns.bind (P := fun _ _ => True)
    (Returns.insertRow fun _ _ => ⟨law_same (by simp), trivial⟩) fun _ _ _ => Returns.pure trivial

theorem returns_requireUnfrozen {R : Store → Store → Prop} {listing : Listing} :
    Returns R (fun _ t => t = s) (requireUnfrozen listing) s := by
  refine returns_profile.bind fun profile t ht => ?_
  subst ht
  exact Returns.require fun _ => rfl

/-- A change of the status by an administrator. -/
theorem returns_adminRevise {listingId adminUserId : ℕ} {action : String} {β : Type}
    {prepare : Listing → Hosting Unit} {edit : Unit → Listing → Listing} {answer : Listing → β}
    (hedit : ∀ i l, (edit i l).id = l.id)
    (hprepare : ∀ l, Returns (law id c) (fun _ t => t = s) (prepare l) s)
    (hlaw : ∀ loaded i, loaded.listing.id = listingId → check loaded = .ok () →
      StatusLaw loaded.listing.id c loaded.listing (edit i loaded.listing)) :
    Returns (law id c) (fun _ _ => True) (do
      let listing ← adminRevise listingId adminUserId action check prepare edit
      pure (answer listing)) s := by
  refine Returns.bind (P := fun _ _ => True) ?_ fun _ _ _ => Returns.pure trivial
  refine Returns.bind (P := fun found t => t = s ∧ findListing [] listingId s = found)
    (Returns.query ⟨rfl, rfl⟩) fun found t ht => ?_
  obtain ⟨rfl, hfound⟩ := ht
  refine Returns.bind (P := fun loaded u => u = t ∧ found = some loaded)
    (Returns.expect fun loaded hloaded => ⟨rfl, hloaded⟩) fun loaded u hu => ?_
  obtain ⟨rfl, rfl⟩ := hu
  obtain ⟨hloaded, hid⟩ := loaded_of_find hfound
  refine (returns_reviseListing hloaded hedit (hprepare _) fun i hcheck =>
    law_row hloaded.listing (hedit i _) (hlaw loaded i hid hcheck)).bind fun _ _ _ => ?_
  exact returns_audit.bind fun _ _ _ => Returns.pure trivial

theorem stages_draft {userId : ℕ} {dto : CreateDraftListingDto} {profile : Option HostProfile} :
    Stages (fun _ ws => law id (.createListing userId dto) s (publish s ws))
      (insertDraft userId dto profile) [] s := by
  refine Stages.bind (S := fun _ ws => ws = []) (Stages.receive fun _ => rfl) fun now ws hws => ?_
  subst hws
  refine Stages.bind (S := fun n ws => s.listings.find? n = none ∧
    ws = [Write.listing (draftListing userId dto now n)])
    (Stages.insertRow fun n hn => ?_) fun n ws hws => ?_
  · simpa [Write.key, Store.present, draftListing] using hn
  obtain ⟨hfresh, rfl⟩ := hws
  refine Stages.bind (S := fun m ws => ws = [Write.listing (draftListing userId dto now n),
    .rules (draftRules n m)]) (Stages.insertRow fun m _ => rfl) fun m ws hws => ?_
  subst hws
  refine Stages.bind (S := fun k ws => s.ratePlans.find? k = none ∧
    ws = [Write.listing (draftListing userId dto now n), .rules (draftRules n m),
      .ratePlan (draftRatePlan n k)]) (Stages.insertRow fun k hk => ?_) fun k ws hws => ?_
  · simpa [Write.key, Store.present, Store.write, draftRatePlan] using hk
  obtain ⟨hplan, rfl⟩ := hws
  refine Stages.bind (S := fun j ws => ws = [Write.listing (draftListing userId dto now n),
    .rules (draftRules n m), .ratePlan (draftRatePlan n k), .contact (draftContact n profile j)])
    (Stages.insertRow fun j _ => rfl) fun j ws hws => ?_
  subst hws
  have hdraft : ∀ units, (∀ u ∈ units, u.basePrice = 0) → ∀ t : Store,
      offer id t = (if n = id then
        ⟨some (draftListing userId dto now id), (offer id s).units ++ units,
          (offer id s).plans ++ [draftRatePlan n k]⟩ else offer id s) →
      law id (.createListing userId dto) s t := by
    intro units hunits t ht
    by_cases hid : n = id
    · rw [if_pos hid] at ht
      rw [law, ht]
      exact Or.inr (.draft (hid ▸ hfresh) hunits rfl)
    · rw [if_neg hid] at ht
      exact Or.inl ht
  have hrows : offer id (publish s [Write.listing (draftListing userId dto now n),
      .rules (draftRules n m), .ratePlan (draftRatePlan n k),
      .contact (draftContact n profile j)]) = if n = id then
        ⟨some (draftListing userId dto now id), (offer id s).units,
          (offer id s).plans ++ [draftRatePlan n k]⟩ else offer id s := by
    simp only [publish_cons, publish_nil, storage_write, offer_contact]
    rw [offer_insertPlan (by exact hplan), offer_rules, offer_listing]
    by_cases hid : n = id
    · subst hid
      simp [draftRatePlan, draftListing]
    · have hid' : ¬id = n := Ne.symm hid
      simp [draftRatePlan, draftListing, hid, hid']
  refine Stages.bind (S := fun _ ws => law id (.createListing userId dto) s (publish s ws)) ?_
    fun _ ws hws => Stages.pure hws
  unfold insertDraftUnit
  split_ifs
  · refine Stages.pure (hdraft [] (by simp) _ ?_)
    rw [hrows, List.append_nil]
  · refine Stages.bind (S := fun _ ws => law id (.createListing userId dto) s (publish s ws))
      (Stages.insertRow fun i hi => ?_) fun _ ws hws => Stages.pure hws
    refine hdraft [draftUnit dto.listingType n i] (by simp [draftUnit]) _ ?_
    rw [publish_append, publish_cons, publish_nil, storage_write, offer_insertUnit, hrows]
    · by_cases hid : n = id <;> simp [draftUnit, hid]
    · simpa [Write.key, Store.present] using hi

theorem returns_createListing {userId : ℕ} {dto : CreateDraftListingDto} :
    Returns (law id (.createListing userId dto)) (fun _ _ => True) (createListing userId dto) s := by
  refine returns_assertCanList.bind fun _ t ht => ?_
  subst ht
  refine returns_profile.bind fun profile u hu => ?_
  subst hu
  refine Returns.bind (P := fun _ _ => True) (Returns.transaction ?_) fun _ _ _ =>
    Returns.pure trivial
  exact (stages_draft).mono fun _ ws h => ⟨h, trivial⟩

/-- The time of the last edit of a listing is set. -/
theorem stages_touch {listingId : ℕ} {ws : List Write} {l : Listing}
    (hfound : (publish s ws).listings.find? listingId = some l) {S : List Write → Prop}
    (h : ∀ now, S (ws ++ [.listing { l with lastEditedAt := now }])) :
    Stages (fun _ => S) (touch listingId) ws s := by
  refine Stages.bind (S := fun _ ws' => ws' = ws) (Stages.receive fun _ => rfl) fun now ws' hws => ?_
  subst hws
  refine Stages.bind (S := fun _ => S) (Stages.writeRows ?_) fun _ ws'' hws => Stages.pure hws
  rw [hfound]
  exact h now

/-- The offer after the time of the last edit was set. -/
theorem offer_touch {l : Listing} {now : ℕ} :
    offer id (s.write (.listing { l with lastEditedAt := now })) = if l.id = id then
      { offer id s with listing := some { l with lastEditedAt := now } } else offer id s := by
  rw [offer_listing]
  by_cases hid : l.id = id
  · subst hid
    simp
  · have hid' : ¬id = l.id := Ne.symm hid
    simp [hid, hid']

theorem stages_replaceMediaRows {userId listingId : ℕ} {media rows : List MediaItemDto} {l : Listing}
    (hfound : s.listings.find? listingId = some l) :
    Stages (fun _ ws => law id (.replaceListingMedia userId listingId media) s (publish s ws))
      (replaceMediaRows listingId rows) [] s := by
  have hid : l.id = listingId := Table.key_of_find? hfound
  refine Stages.bind (S := fun _ ws => (publish s ws).listings = s.listings ∧
    offer id (publish s ws) = offer id s) (Stages.writeRows ?_) fun _ ws hws => ?_
  · rw [List.nil_append, publish_nil, publish_noMedia]
    exact ⟨rfl, rfl⟩
  refine Stages.bind (Stages.forEach (fun _ ws => (publish s ws).listings = s.listings ∧
    offer id (publish s ws) = offer id s) (fun _ item ws' hws' => ?_) hws) fun _ ws' hws' => ?_
  · refine Stages.bind (S := fun _ ws => (publish s ws).listings = s.listings ∧
      offer id (publish s ws) = offer id s) (Stages.insertRow fun n _ => ?_) fun _ _ h =>
        Stages.pure h
    rw [publish_append]
    exact hws'
  obtain ⟨hlistings, hoffer⟩ := hws'
  have hfound' : (publish s ws').listings.find? listingId = some l := by rw [hlistings, hfound]
  refine stages_touch hfound' fun now => ?_
  rw [publish_append, publish_cons, publish_nil, storage_write, law,
    offer_touch, hoffer]
  subst hid
  by_cases hl : l.id = id
  · subst hl
    rw [if_pos rfl]
    exact Or.inr (.row hfound .replaceMedia)
  · rw [if_neg hl]
    exact Or.inl rfl

theorem returns_replaceListingMedia {userId listingId : ℕ} {media : List MediaItemDto} :
    Returns (law id (.replaceListingMedia userId listingId media)) (fun _ _ => True)
      (replaceListingMedia userId listingId media) s := by
  refine returns_assertCanList.bind fun _ t ht => ?_
  subst ht
  refine returns_requireOwnedListing.bind fun loaded t ht => ?_
  obtain ⟨rfl, hfind⟩ := ht
  refine Returns.bind (P := fun _ u => u = t) (Returns.ofExcept fun _ _ => rfl) fun _ u hu => ?_
  subst hu
  refine Returns.bind (P := fun _ v => v = u) (Returns.forEach (fun item _ => ?_) rfl)
    fun _ v hv => ?_
  · refine Returns.bind (P := fun _ v => v = u) (Returns.receive fun _ => rfl) fun _ v hv => ?_
    subst hv
    exact Returns.require fun _ => rfl
  subst hv
  obtain ⟨listing, hlisting, -⟩ := Option.map_eq_some_iff.mp hfind
  refine Returns.bind (P := fun _ _ => True) (Returns.transaction ?_) fun _ w _ =>
    returns_requireOwnedListing.mono fun _ _ _ => trivial
  exact (stages_replaceMediaRows hlisting).mono fun _ ws h => ⟨h, trivial⟩

/-- The offer with other units. -/
def withUnits (listingId id : ℕ) (units : List UnitType) (o : Offer) : Offer :=
  if listingId = id then { o with units } else o

/-- The writes `ws` replace the units of a listing by units of the prices `prices`. -/
def Replaces (s : Store) (listingId : ℕ) (prices : List ℕ) (ws : List Write) : Prop :=
  ∀ id, ∃ units, units.map (·.basePrice) = prices ∧
    offer id (publish s ws) = withUnits listingId id units (offer id s)

theorem stages_insertUnits {listingId : ℕ} {items : List UnitTypeItemDto} {ws : List Write}
    (h : Replaces s listingId [] ws) :
    Stages (fun _ ws' => Replaces s listingId (items.map (·.basePrice)) ws')
      (Program.forEach (insertUnit listingId) items.zipIdx) ws s := by
  have hprices : items.map (·.basePrice) =
      items.zipIdx.map fun item : UnitTypeItemDto × ℕ => item.1.basePrice := by
    conv_lhs => rw [← List.zipIdx_map_fst 0 items, List.map_map]
    rfl
  rw [hprices]
  refine Stages.forEach (fun done => Replaces s listingId
    (done.map fun item : UnitTypeItemDto × ℕ => item.1.basePrice)) (fun done item ws' hdone => ?_) h
  refine Stages.bind (S := fun _ => Replaces s listingId
    ((done ++ [item]).map fun item : UnitTypeItemDto × ℕ => item.1.basePrice))
    (Stages.insertRow fun n hn id => ?_) fun _ _ h => Stages.pure h
  obtain ⟨units, hunits, hoffer⟩ := hdone id
  have hfresh : (publish s ws').unitTypes.find? n = none := by
    simpa [Write.key, Store.present, unitRow] using hn
  refine ⟨units ++ [unitRow listingId item.1 item.2 n], by simp [hunits, unitRow], ?_⟩
  rw [publish_append, publish_cons, publish_nil, storage_write, offer_insertUnit hfresh, hoffer]
  by_cases hid : listingId = id <;> simp [withUnits, unitRow, hid]

theorem stages_replaceUnitRows {userId listingId : ℕ} {items : List UnitTypeItemDto}
    {loaded : LoadedListing} (hfound : s.listings.find? listingId = some loaded.listing)
    (hcheck : checkUnitTypes items loaded = .ok ()) :
    Stages (fun _ ws => law id (.replaceListingUnitTypes userId listingId items) s (publish s ws))
      (replaceUnitRows listingId items) [] s := by
  have hlisting : loaded.listing.id = listingId := Table.key_of_find? hfound
  refine Stages.bind (S := fun _ => Replaces s listingId [])
    (Stages.writeRows fun id => ⟨[], rfl, offer_noUnits listingId⟩) fun _ ws hws => ?_
  refine (stages_insertUnits hws).bind fun _ ws' hws' => ?_
  refine Stages.bind (S := fun _ ws => ∀ id, ∃ units,
    units.map (·.basePrice) = items.map (·.basePrice) ∧ offer id (publish s ws) =
      if listingId = id then
        ⟨(offer id s).listing, units, (offer id s).plans.map fun p =>
          { p with basePrice := minPrice (items.map (·.basePrice)) }⟩
      else offer id s) (Stages.writeRows fun id => ?_) fun _ ws'' hws'' => ?_
  · obtain ⟨units, hunits, hoffer⟩ := hws' id
    refine ⟨units, hunits, ?_⟩
    rw [publish_append, offer_price, hoffer]
    by_cases hid : listingId = id <;> simp [withUnits, hid]
  have hfound' : (publish s ws'').listings.find? listingId = some loaded.listing := by
    obtain ⟨units, -, hoffer⟩ := hws'' listingId
    rw [if_pos rfl] at hoffer
    exact (congrArg Offer.listing hoffer).trans hfound
  refine stages_touch hfound' fun now => ?_
  obtain ⟨units, hunits, hoffer⟩ := hws'' id
  rw [publish_append, publish_cons, publish_nil, storage_write, law,
    offer_touch, hoffer]
  by_cases hid : listingId = id
  · subst hid
    simp only [if_pos hlisting, if_true]
    exact Or.inr (.replaceUnits hfound hcheck hunits)
  · have hid' : ¬loaded.listing.id = id := by rwa [hlisting]
    rw [if_neg hid', if_neg hid]
    exact Or.inl rfl

theorem returns_replaceListingUnitTypes {userId listingId : ℕ} {items : List UnitTypeItemDto} :
    Returns (law id (.replaceListingUnitTypes userId listingId items)) (fun _ _ => True)
      (replaceListingUnitTypes userId listingId items) s := by
  refine returns_assertCanList.bind fun _ t ht => ?_
  subst ht
  refine returns_requireOwnedListing.bind fun loaded t ht => ?_
  obtain ⟨rfl, hfind⟩ := ht
  refine Returns.bind (P := fun _ u => u = t ∧ checkUnitTypes items loaded = .ok ())
    (Returns.ofExcept fun _ h => ⟨rfl, h⟩) fun _ u hu => ?_
  obtain ⟨rfl, hcheck⟩ := hu
  obtain ⟨hloaded, hid⟩ := loaded_of_find hfind
  have hfound : u.listings.find? listingId = some loaded.listing := hid ▸ hloaded.listing
  refine Returns.bind (P := fun _ _ => True) (Returns.transaction ?_) fun _ w _ =>
    returns_requireOwnedListing.mono fun _ _ _ => trivial
  exact (stages_replaceUnitRows hfound hcheck).mono fun _ ws h => ⟨h, trivial⟩

/-- Every call that runs alone changes the offer of the listing as the law says. -/
theorem returns_program (id : ℕ) (c : ListingCall) (s : Store) :
    Returns (law id c) (fun _ _ => True) c.program s := by
  have hanswer : ∀ {β : Type} {p : Hosting β} {f : β → ListingAnswer},
      Returns (law id c) (fun _ _ => True) p s → Returns (law id c) (fun _ _ => True) (f <$> p) s :=
    fun h => h.bind fun _ _ _ => Returns.pure trivial
  cases c with
  | createListing userId dto => exact hanswer returns_createListing
  | updateListing userId listingId dto => exact hanswer returns_updateListing
  | replaceListingMedia userId listingId media => exact hanswer returns_replaceListingMedia
  | replaceListingUnitTypes userId listingId items => exact hanswer returns_replaceListingUnitTypes
  | submitListing userId listingId => exact hanswer returns_submitListing
  | pauseListing userId listingId => exact hanswer returns_pauseListing
  | resumeListing userId listingId => exact hanswer returns_resumeListing
  | approveListing listingId adminUserId =>
    exact hanswer (returns_adminRevise (fun _ _ => rfl) (fun _ => Returns.pure rfl)
      fun _ _ hid hcheck => hid ▸ .approve (onlyWhen_iff.mp hcheck))
  | rejectListing listingId reason adminUserId =>
    exact hanswer (returns_adminRevise (fun _ _ => rfl) (fun _ => Returns.pure rfl)
      fun _ _ hid hcheck => hid ▸ .reject (onlyWhen_iff.mp hcheck))
  | setListingLive listingId adminUserId =>
    exact hanswer (returns_adminRevise (fun _ _ => rfl) (fun _ => Returns.pure rfl)
      fun _ _ hid hcheck => hid ▸ .setLive (onlyWhen_iff.mp hcheck))
  | takeOffline listingId adminUserId =>
    exact hanswer (returns_adminRevise (fun _ _ => rfl) (fun _ => Returns.pure rfl)
      fun _ _ hid hcheck => hid ▸ .takeOffline (pausable_iff.mp hcheck))
  | unpauseListing listingId adminUserId =>
    exact hanswer (returns_adminRevise (fun _ _ => rfl) (fun _ => returns_requireUnfrozen)
      fun _ _ hid hcheck => hid ▸ .unpause (onlyWhen_iff.mp hcheck))

end Alone

def sampleHost : HostProfile :=
  { id := 1
    userId := 7
    hostVerificationStatus := .approved
    applicationStatus := .approved
    identityStatus := .verified
    source := .web
    submittedFrom := none
    fullName := some "Salma"
    email := none
    phone := some "+212612345678"
    city := none
    hostType := none
    hostingPoliciesAcceptedAt := none
    identityReused := true
    listingFrozen := false
    documentType := none
    documentNumberHash := none
    documentFrontAssetId := none
    documentBackAssetId := none
    selfieAssetId := none
    submittedAt := none
    reviewedAt := none
    reviewedBy := none
    rejectionReason := none }

def sampleStore : Store := publish .blank [.hostProfile sampleHost]

def sampleUpdate : UpdateHostListingDto :=
  { title := some "Hotel in the medina"
    listingType := none
    city := some "Fes"
    neighborhood := none
    address := some (some "2 Derb Sidi")
    postalCode := none
    buildingName := none
    landmark := none
    geoLat := some (some 340)
    geoLng := some (some (-50))
    description := some (some "Ten rooms around a court")
    checkinTime := none
    checkoutTime := none
    instantBooking := none
    propertyDetails := none
    policies := none
    safetyFeatures := none
    rules := none
    ratePlan := none
    checkInContact := none }

def samplePhoto : MediaItemDto := ⟨"front", .photo, none, none, none⟩

def sampleRoom : UnitTypeItemDto :=
  ⟨.hotelRoom, "Double", none, none, 50000, none, none, none, none, none⟩

/-- A hotel is drafted, edited, submitted, approved and published. -/
def publication : List (ListingCall × List Action) :=
  [(.createListing 7 ⟨.hotel, false, none⟩, System.turns 0 1 11),
    (.updateListing 7 7 sampleUpdate, System.turns 0 1 10),
    (.replaceListingMedia 7 7 (List.replicate 5 samplePhoto), System.turns 0 1 19),
    (.replaceListingUnitTypes 7 7 [sampleRoom], System.turns 0 1 11),
    (.submitListing 7 7, System.turns 0 1 9),
    (.approveListing 7 9, System.turns 0 1 4),
    (.setListingLive 7 9, System.turns 0 11 4)]

/-- Then it is paused, emptied and resumed. -/
def emptying : List (ListingCall × List Action) :=
  [(.pauseListing 7 7, System.turns 0 1 3),
    (.replaceListingUnitTypes 7 7 [], System.turns 0 1 10),
    (.resumeListing 7 7, System.turns 0 1 5)]

/-- The prices that are accepted from outside are at least 1. -/
def Accepted : ListingCall → Prop
  | .updateListing _ _ dto => ∀ edit ∈ dto.ratePlan, ∀ price ∈ edit.basePrice, 100 ≤ price
  | .replaceListingUnitTypes _ _ items => ∀ item ∈ items, 100 ≤ item.basePrice
  | _ => True

/-- The call does not empty the listing `id` while it is under review or paused, and does not
submit it without a room. -/
def Wary (id : ℕ) : ListingCall → Offer → Prop
  | .replaceListingUnitTypes _ listingId items, o => listingId = id → items = [] →
    ∀ l ∈ o.listing, l.status ≠ .submitted ∧ l.status ≠ .paused
  | .submitListing _ listingId, o => listingId = id → o.units ≠ []
  | _, _ => True

instance : DecidablePred Accepted := fun c => by
  cases c <;> unfold Accepted <;> infer_instance

instance (id : ℕ) (c : ListingCall) (o : Offer) : Decidable (Wary id c o) := by
  cases c <;> unfold Wary <;> infer_instance

/-- A listing that left its draft has rooms and a price, and a price that is missing is
missing everywhere. -/
structure Bookable (o : Offer) : Prop where
  absent : o.listing = none → o.units = [] ∧ o.plans = []
  priced : ∀ l ∈ o.listing, ∃ plan, o.plans = [plan] ∧
    (plan.basePrice = 0 → ∀ u ∈ o.units, u.basePrice = 0) ∧
    (l.status ≠ .draft → l.status ≠ .rejected → o.units ≠ [] ∧ 0 < plan.basePrice)

theorem minPrice_ge {bound : ℕ} {prices : List ℕ} (hne : prices ≠ [])
    (h : ∀ price ∈ prices, bound ≤ price) : bound ≤ minPrice prices := by
  unfold minPrice
  cases hmin : prices.min? with
  | none => exact absurd (List.min?_eq_none_iff.mp hmin) hne
  | some price => exact h price (List.min?_mem hmin)

/-- A listing without a price has none that could be shown. -/
theorem effectivePrice_eq_zero {loaded : LoadedListing}
    (hplan : ∀ plan ∈ loaded.ratePlan, plan.basePrice = 0)
    (hunits : ∀ u ∈ loaded.unitTypes, u.basePrice = 0) : effectivePrice loaded = 0 := by
  have hrate : loaded.ratePlan.elim 0 (·.basePrice) = 0 := by
    cases hsome : loaded.ratePlan with
    | none => rfl
    | some plan => exact hplan plan hsome
  have hprices : ((loaded.unitTypes.map (·.basePrice)).filter (0 < ·)) = [] := by
    apply List.filter_eq_nil_iff.mpr
    intro price hprice
    obtain ⟨u, hu, rfl⟩ := List.mem_map.mp hprice
    simp [hunits u hu]
  simp [effectivePrice, hrate, hprices, minPrice]

theorem checkSubmit_price {loaded : LoadedListing} (h : checkSubmit loaded = .ok ()) :
    0 < effectivePrice loaded := by
  have hflags : assertCanSubmit (computeCompletionFlags loaded) = none := by
    cases hmessage : assertCanSubmit (computeCompletionFlags loaded) with
    | none => rfl
    | some message =>
      simp only [checkSubmit, hmessage] at h
      split_ifs at h
  have hpricing : (computeCompletionFlags loaded).pricingComplete = true := by
    unfold assertCanSubmit at hflags
    split_ifs at hflags
    simp_all
  simp only [computeCompletionFlags, decide_eq_true_eq] at hpricing
  exact hpricing.2

theorem checkUnitTypes_empty {loaded : LoadedListing} (h : checkUnitTypes [] loaded = .ok ()) :
    loaded.listing.status ≠ .live ∧ loaded.listing.status ≠ .approved := by
  have hstatus : loaded.listing.status ∈ editableStatuses := by
    cases loaded.listing.status <;> decide
  simp only [checkUnitTypes, editable, if_pos hstatus, bind, Except.bind, and_true] at h
  split_ifs at h with hkeep
  exact not_or.mp hkeep

theorem StatusLaw.left_draft {id : ℕ} {c : ListingCall} {l l' : Listing} (h : StatusLaw id c l l')
    (hdraft : l'.status ≠ .draft) (hrejected : l'.status ≠ .rejected) :
    l.status ≠ .draft ∧ l.status ≠ .rejected := by
  cases h with
  | update | replaceMedia => exact ⟨hdraft, hrejected⟩
  | pause status | takeOffline status => obtain h | h := status <;> simp [h]
  | resume status | unpause status | approve status | setLive status => simp [status]
  | reject => exact absurd rfl hrejected

theorem OfferLaw.bookable {id : ℕ} {c : ListingCall} {o o' : Offer} (h : OfferLaw id c o o')
    (haccepted : Accepted c) (hwary : Wary id c o) (hbookable : Bookable o) : Bookable o' := by
  cases h with
  | @draft _ _ _ units plan _ absent unpriced free =>
    obtain ⟨hunits, hplans⟩ := hbookable.absent absent
    refine ⟨fun h => (nomatch h), fun l hl => ⟨plan, by simp [hplans], fun _ u hu => ?_,
      fun hdraft => ?_⟩⟩
    · rw [hunits, List.nil_append] at hu
      exact unpriced u hu
    · obtain rfl := Option.some.inj hl
      exact absurd rfl hdraft
  | @row _ _ l l' found change =>
    refine ⟨fun h => (nomatch h), fun k hk => ?_⟩
    obtain rfl := Option.some.inj hk
    obtain ⟨plan, hplans, hfree, hpriced⟩ := hbookable.priced l found
    refine ⟨plan, hplans, hfree, fun hdraft hrejected => ?_⟩
    obtain ⟨hdraft', hrejected'⟩ := change.left_draft hdraft hrejected
    exact hpriced hdraft' hrejected'
  | @submit _ _ _ loaded found units plan check =>
    refine ⟨fun h => (nomatch h), fun k _ => ?_⟩
    obtain ⟨plan', hplans, hfree, -⟩ := hbookable.priced _ found
    refine ⟨plan', hplans, hfree, fun _ _ => ⟨hwary rfl, ?_⟩⟩
    rw [hplans, List.head?_cons] at plan
    have hprice := checkSubmit_price check
    by_contra hzero
    have hzero' : plan'.basePrice = 0 := by omega
    rw [effectivePrice_eq_zero (by simpa [plan] using hzero') (units ▸ hfree hzero')] at hprice
    omega
  | @plan _ _ dto edit plan _ given found =>
    refine ⟨fun h => ?_, fun l hl => ?_⟩
    · obtain ⟨hunits, hplans⟩ := hbookable.absent h
      exact ⟨hunits, by simp [Offer.putPlan, hplans]⟩
    · obtain ⟨plan', hplans, hfree, hpriced⟩ := hbookable.priced l hl
      rw [hplans, List.head?_cons, Option.some.injEq] at found
      subst found
      refine ⟨updatedRatePlan edit plan', by simp [Offer.putPlan, hplans, updatedRatePlan], ?_⟩
      cases hprice : edit.basePrice with
      | none =>
        have hsame : (updatedRatePlan edit plan').basePrice = plan'.basePrice := by
          simp [updatedRatePlan, hprice]
        rw [hsame]
        exact ⟨hfree, hpriced⟩
      | some price =>
        have hnew : (updatedRatePlan edit plan').basePrice = price := by
          simp [updatedRatePlan, hprice]
        have hmin := haccepted edit given price hprice
        rw [hnew]
        exact ⟨fun h => by omega, fun hdraft hrejected =>
          ⟨(hpriced hdraft hrejected).1, by omega⟩⟩
  | @unit _ _ dto edit unit plan _ given priced current found =>
    refine ⟨fun h => ?_, fun l hl => ?_⟩
    · rw [(hbookable.absent h).1] at found
      cases found
    · obtain ⟨plan', hplans, hfree, hpriced⟩ := hbookable.priced l hl
      rw [hplans, List.head?_cons, Option.some.injEq] at current
      subst current
      exact ⟨plan', hplans, fun hzero u hu => by simpa [List.mem_singleton.mp hu] using hzero,
        fun hdraft hrejected => ⟨by simp, (hpriced hdraft hrejected).2⟩⟩
  | @replaceUnits _ items _ units _ loaded found check prices =>
    refine ⟨fun h => (nomatch h), fun l hl => ?_⟩
    obtain rfl := Option.some.inj hl
    obtain ⟨plan, hplans, -, -⟩ := hbookable.priced _ found
    refine ⟨{ plan with basePrice := minPrice (items.map (·.basePrice)) }, by simp [hplans], ?_⟩
    by_cases hempty : items = []
    · subst hempty
      obtain rfl := List.map_eq_nil_iff.mp prices
      refine ⟨by simp, fun hdraft hrejected => ?_⟩
      obtain ⟨hlive, happroved⟩ := checkUnitTypes_empty check
      obtain ⟨hsubmitted, hpaused⟩ := hwary rfl rfl _ found
      cases hstatus : loaded.listing.status <;> simp_all
    · have hmin : 100 ≤ minPrice (items.map (·.basePrice)) := by
        refine minPrice_ge (by simpa using hempty) fun price hprice => ?_
        obtain ⟨item, hitem, rfl⟩ := List.mem_map.mp hprice
        exact haccepted item hitem
      have hunits : units ≠ [] := by
        rintro rfl
        exact hempty (List.map_eq_nil_iff.mp prices.symm)
      exact ⟨fun h => by simp only at h; omega, fun _ _ => ⟨hunits, by simp only; omega⟩⟩

theorem OfferLaw.wary {id : ℕ} {c : ListingCall} {o o' : Offer} (h : OfferLaw id c o o')
    (hwary : Wary id c o) : Wary id c o' := by
  cases h with
  | draft | plan | unit => trivial
  | row found change => cases change <;> trivial
  | submit => exact hwary
  | replaceUnits found =>
    intro hid hempty l hl
    obtain rfl := Option.some.inj hl
    have hbefore := hwary hid hempty _ found
    exact hbefore

/-- A turn that meets the condition keeps a listing bookable. -/
theorem bookable_of_chain {id : ℕ} {c : ListingCall} {s t : Store} (haccepted : Accepted c)
    (hwary : Wary id c (offer id s)) (hbookable : Bookable (offer id s))
    (h : Relation.ReflTransGen (law id c) s t) : Bookable (offer id t) := by
  have hboth : Bookable (offer id t) ∧ Wary id c (offer id t) := by
    induction h with
    | refl => exact ⟨hbookable, hwary⟩
    | tail _ step ih =>
      obtain hsame | hlaw := step
      · rwa [hsame]
      · exact ⟨hlaw.bookable haccepted ih.2 ih.1, hlaw.wary ih.2⟩
  exact hboth.1

/-- In every state of a sequence in which the listing is not emptied while it is under review
or paused, and not submitted without a room, a live listing has a room and a price. -/
theorem live_bookable (id : ℕ) {s t : Store} {turns : List (Turn ListingCall Store)}
    (hs : offer id s = ⟨none, [], []⟩) (h : Sequence ListingCall.program s turns t)
    (hturns : ∀ turn ∈ turns, Accepted turn.call ∧ Wary id turn.call (offer id turn.before))
    {l : Listing} (hl : t.listings.find? id = some l) (hlive : l.status = .live) :
    (load allRelations t l).unitTypes ≠ [] ∧
      ∃ plan ∈ (load allRelations t l).ratePlan, 0 < plan.basePrice := by
  have hstart : Bookable (offer id s) := by
    rw [hs]
    exact ⟨fun _ => ⟨rfl, rfl⟩, fun l hl => nomatch hl⟩
  have hbookable : Bookable (offer id t) := by
    refine h.invariant (P := fun u => Bookable (offer id u)) hstart hturns
      fun turn hturn hrun hbefore => ?_
    obtain ⟨sys, hrun, hstore⟩ := hrun
    rw [← hstore]
    exact bookable_of_chain hturn.1 hturn.2 hbefore
      (chain_of_run (returns_program id turn.call turn.before) hrun)
  obtain ⟨plan, hplans, -, hpriced⟩ := hbookable.priced l hl
  obtain ⟨hunits, hprice⟩ := hpriced (by simp [hlive]) (by simp [hlive])
  have hid : l.id = id := Table.key_of_find? hl
  refine ⟨?_, plan, ?_, hprice⟩
  · have hsame : (load allRelations t l).unitTypes = (offer id t).units := by
      simp [load, allRelations, offer, hid]
    rwa [hsame]
  · have hhead : (offer id t).plans.head? = some plan := by rw [hplans, List.head?_cons]
    simpa [load, allRelations, hid, offer, List.head?_filter] using hhead

/-- The hotel has its room and a price once it is live. -/
theorem hotel_bookable :
    let t := endOf ListingCall.program sampleStore publication
    let l := (t.listings.find? 7).get (by decide +kernel)
    (load allRelations t l).unitTypes ≠ [] ∧
      ∃ plan ∈ (load allRelations t l).ratePlan, 0 < plan.basePrice :=
  live_bookable 7 (by decide +kernel) (sequence_of_plan (by decide +kernel)) (by decide +kernel)
    (Option.some_get _).symm (by decide +kernel)

/-- The hotel is live again without a room, at no price. -/
theorem hotel_emptied :
    let plan := publication ++ emptying
    let t := endOf ListingCall.program sampleStore plan
    Sequence ListingCall.program sampleStore (turnsOf ListingCall.program sampleStore plan) t ∧
      (∀ turn ∈ turnsOf ListingCall.program sampleStore plan, Accepted turn.call) ∧
      (t.listings.find? 7).map (·.status) = some .live ∧ (offer 7 t).units = [] ∧
      (offer 7 t).plans.map (·.basePrice) = [0] :=
  ⟨sequence_of_plan (by decide +kernel), by decide +kernel, by decide +kernel, by decide +kernel,
    by decide +kernel⟩

def statusOf (id : ℕ) (s : Store) : Option ListingStatus := (s.listings.find? id).map (·.status)

/-- A listing that is live, or was when it was paused. -/
def Standing (o : Offer) : Prop :=
  ∃ l ∈ o.listing, l.status = .live ∨ l.status = .paused ∧ l.pausedFromStatus ≠ some .approved

/-- An administrator publishes the approved listing `id`. -/
def Publishes (id : ℕ) (turn : Turn ListingCall Store) : Prop :=
  (∃ adminUserId, turn.call = .setListingLive id adminUserId) ∧
    statusOf id turn.before = some .approved ∧ statusOf id turn.after = some .live

/-- The host submits the listing `id`. -/
def Submits (id : ℕ) (turn : Turn ListingCall Store) : Prop :=
  (∃ userId, turn.call = .submitListing userId id) ∧
    statusOf id turn.before ≠ some .submitted ∧ statusOf id turn.after = some .submitted

/-- The listing was published after its latest submission. -/
def Published (id : ℕ) (turns : List (Turn ListingCall Store)) : Prop :=
  ∃ done turn rest, turns = done ++ turn :: rest ∧ Publishes id turn ∧
    ∀ later ∈ rest, ¬Submits id later

/-- A listing is standing before every change but its publication, if it is afterwards. -/
theorem OfferLaw.standing {id : ℕ} {c : ListingCall} {o o' : Offer} (h : OfferLaw id c o o')
    (hc : ∀ adminUserId, c ≠ .setListingLive id adminUserId) (hstanding : Standing o') :
    Standing o := by
  obtain ⟨l', hl', hstatus⟩ := hstanding
  cases h with
  | draft =>
    obtain rfl := Option.some.inj hl'
    simp [draftListing] at hstatus
  | @row _ _ l _ found change =>
    obtain rfl := Option.some.inj hl'
    refine ⟨l, found, ?_⟩
    cases change with
    | update | replaceMedia => exact hstatus
    | pause status | takeOffline status =>
      obtain h | h := status
      · exact Or.inl h
      · simp [paused, pausedFrom, h] at hstatus
    | resume status | unpause status =>
      refine Or.inr ⟨status, fun happroved => ?_⟩
      simp [resumed, restoreTo, happroved] at hstatus
    | approve => simp [withStatus] at hstatus
    | reject => simp [withStatus] at hstatus
    | setLive => exact absurd rfl (hc _)
  | submit =>
    obtain rfl := Option.some.inj hl'
    simp [submitted] at hstatus
  | plan | unit => exact ⟨l', hl', hstatus⟩
  | replaceUnits found =>
    obtain rfl := Option.some.inj hl'
    exact ⟨_, found, hstatus⟩

/-- A `setListingLive` leaves the listing as it is, or publishes it. -/
theorem publishes_of_chain {id adminUserId : ℕ} {s t : Store}
    (h : Relation.ReflTransGen (law id (.setListingLive id adminUserId)) s t) :
    (offer id t).listing = (offer id s).listing ∨
      Publishes id ⟨.setListingLive id adminUserId, s, t⟩ := by
  induction h with
  | refl => exact Or.inl rfl
  | @tail u v _ step ih =>
    obtain hsame | hlaw := step
    · have hlisting : v.listings.find? id = u.listings.find? id := congrArg Offer.listing hsame
      obtain ih | ⟨hcall, hbefore, hafter⟩ := ih
      · exact Or.inl (hlisting.trans ih)
      · exact Or.inr ⟨hcall, hbefore, by rw [statusOf, hlisting]; exact hafter⟩
    · generalize ho' : offer id v = o' at hlaw
      cases hlaw with
      | @row _ _ l _ found change =>
        cases change with
        | setLive status =>
          right
          have hlive : statusOf id v = some .live := by
            have hlisting := congrArg Offer.listing ho'
            simp only [offer] at hlisting
            rw [statusOf, hlisting]
            rfl
          obtain ih | ⟨-, -, hafter⟩ := ih
          · have happroved : statusOf id s = some .approved := by
              simp only [offer] at ih found
              rw [statusOf, ← ih, found, Option.map_some, status]
            exact ⟨⟨adminUserId, rfl⟩, happroved, hlive⟩
          · simp only [offer] at found
            rw [statusOf, found, Option.map_some, status] at hafter
            cases hafter

/-- After a turn that leaves the listing standing, it was so before, or was published. -/
theorem standing_of_chain {id : ℕ} {c : ListingCall} {s t : Store}
    (h : Relation.ReflTransGen (law id c) s t) (hstanding : Standing (offer id t)) :
    Standing (offer id s) ∨ Publishes id ⟨c, s, t⟩ := by
  by_cases hc : ∀ adminUserId, c ≠ .setListingLive id adminUserId
  · left
    induction h with
    | refl => exact hstanding
    | tail _ step ih =>
      obtain hsame | hlaw := step
      · exact ih (hsame ▸ hstanding)
      · exact ih (hlaw.standing hc hstanding)
  · simp only [not_forall, not_not] at hc
    obtain ⟨adminUserId, rfl⟩ := hc
    obtain hsame | hpublishes := publishes_of_chain h
    · obtain ⟨l, hl, hstatus⟩ := hstanding
      exact Or.inl ⟨l, hsame ▸ hl, hstatus⟩
    · exact Or.inr hpublishes

/-- In every state of a sequence in which the listing is live, an administrator has published
it, when it was approved, after its latest submission. -/
theorem live_was_published (id : ℕ) {s t : Store} {turns : List (Turn ListingCall Store)}
    (hs : s.listings.find? id = none) (h : Sequence ListingCall.program s turns t)
    (hlive : statusOf id t = some .live) : Published id turns := by
  have hpublished : Standing (offer id t) → Published id turns := by
    clear hlive
    induction h with
    | nil =>
      rintro ⟨l, hl, -⟩
      simp [offer, hs] at hl
    | @snoc turns u c sys turns_run run ih =>
      intro hstanding
      have hchain := chain_of_run (returns_program id c u) run
      obtain hbefore | hpublishes := standing_of_chain hchain hstanding
      · obtain ⟨done, turn, rest, hturns, hpublishes, hlater⟩ := ih hbefore
        refine ⟨done, turn, rest ++ [⟨c, u, sys.store⟩], by simp [hturns], hpublishes, ?_⟩
        intro later hmem
        obtain hmem | hmem := List.mem_append.mp hmem
        · exact hlater later hmem
        · obtain rfl := List.mem_singleton.mp hmem
          rintro ⟨-, -, hafter⟩
          obtain ⟨l, hl, hstatus⟩ := hstanding
          simp only [offer, Option.mem_def] at hl
          rw [statusOf, hl, Option.map_some, Option.some.injEq] at hafter
          simp [hafter] at hstatus
      · exact ⟨turns, _, [], rfl, hpublishes, by simp⟩
  obtain ⟨l, hl, hstatus⟩ := Option.map_eq_some_iff.mp hlive
  exact hpublished ⟨l, hl, Or.inl hstatus⟩

/-- The hotel was published. -/
theorem hotel_published :
    Published 7 (turnsOf ListingCall.program sampleStore publication) :=
  live_was_published 7 (by decide +kernel) (sequence_of_plan (by decide +kernel))
    (by decide +kernel)

end NexaStays.ListingOffer
