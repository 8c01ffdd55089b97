import NexaStays.Interference

/-!
# Creating a booking keeps to the discipline

The lock of the listing is held from before the second look for the key to the commit,
so the range found free and the key found unused are so when the booking is published.
-/
namespace NexaStays.Conformance

open NexaStays.KeyedTable NexaStays.Transactions NexaStays.RelyGuarantee NexaStays.Database
  NexaStays.Money NexaStays.Availability NexaStays.BookingDate NexaStays.CreateBooking
  NexaStays.Calls NexaStays.Effects NexaStays.Persistence NexaStays.Invariant
  NexaStays.Interference

open NexaStays.RelyGuarantee.Discipline

variable {env : Env} {apart payable : Prop} {s : Store} {userId : ℕ} {dto : CreateBookingDto}
  {isVerified : Bool} {α : Type} {Q : α → Session Key Write → Store → Prop}
  {E : StaysError → Session Key Write → Store → Prop} {P : Store → Prop} {c : Call}
  {ses : Session Key Write}

/-- The look for the idempotency key. -/
theorem wp_findByIdempotencyKey {k : Option StaysBooking → Stays α} (hpending : ses.pending = [])
    (hP : (discipline env apart payable).Stable c ses.held P) (hs : P s)
    (h : ∀ s' o, Consistent s' → P s' →
      (∀ b, o = some b → b ∈ s'.bookings.rows ∧ b.guestUserId = userId ∧
        b.idempotencyKey = dto.key) →
      (o = none → KeyUnused s' userId dto.key) →
      (discipline env apart payable).wp c Q E (k o) ses s')
    (hE : ∀ e s', Consistent s' → P s' → E e ses s' := by intros; trivial) :
    (discipline env apart payable).wp c Q E (findByIdempotencyKey userId dto >>= k) ses s := by
  have hview : ∀ s : Store, ses.view s = s := fun s => by simp [Session.view, hpending]
  unfold findByIdempotencyKey
  cases hkey : dto.key with
  | none =>
    refine wp_of_inv hP hs fun s' hinv hs' => ?_
    have hnone : KeyUnused s' userId dto.key := fun hne => absurd hkey hne
    exact h s' none hinv hs' (by simp) fun _ => hkey ▸ hnone
  | some key =>
    refine wp_findOne hP hs (fun s' o hinv hs' hsome hnone => ?_) (hE _)
    rw [hview] at hsome hnone
    refine h s' o hinv hs' (fun b hb => ?_) fun ho _ a ha hguest => ?_
    · obtain ⟨hmem, hof⟩ := List.mem_filter.mp (hsome b hb)
      simpa [hkey, hmem] using hof
    · have hrow := List.filter_eq_nil_iff.mp (hnone ho) a ha
      simpa [hguest, hkey] using hrow

/-- What the second half of the transaction knows, while it holds its locks. -/
structure Reserved (apart : Prop) (userId : ℕ) (dto : CreateBookingDto) (checkin checkout : ℤ)
    (s : Store) : Prop where
  free : overlappingBookings s dto.listingId checkin checkout none = []
  unused : apart → KeyUnused s userId dto.key

theorem stable_reserved {held : List Key} (hk : Key.listing dto.listingId ∈ held)
    (checkin checkout : ℤ) :
    (discipline env apart payable).Stable (.createBooking userId dto isVerified) held
      (Reserved apart userId dto checkin checkout) :=
  fun _ _ hs h => ⟨stable_free hk checkin checkout hs.free h, stable_keyUnused hk hs.unused h⟩

/-- What the new row takes from the request. -/
structure RowOf (userId : ℕ) (dto : CreateBookingDto) (checkin checkout : ℤ) (id : ℕ)
    (b : StaysBooking) : Prop where
  id : b.id = id
  guest : b.guestUserId = userId
  listing : b.listingId = dto.listingId
  key : b.idempotencyKey = dto.key
  dates : b.checkinDate = checkin ∧ b.checkoutDate = checkout
  status : b.status = .paymentPending
  priced : Priced b

theorem rowOf_newBooking (checkin checkout : ℤ) (ratePlan : RatePlan) (rates : FeeRates)
    (reference : BookingReference) (createdAt : ℤ) (id : ℕ) :
    RowOf userId dto checkin checkout id
      (newBooking userId dto checkin checkout ratePlan rates reference createdAt id) :=
  ⟨rfl, rfl, rfl, rfl, ⟨rfl, rfl⟩, rfl, ⟨rfl, rfl⟩⟩

/-- The publication of the new row. -/
theorem RowOf.effect {checkin checkout : ℤ} {id : ℕ} {b : StaysBooking} {held : List Key}
    {counter : BookingRefCounter} (hrow : RowOf userId dto checkin checkout id b)
    (hdates : checkin < checkout) (hk : Key.listing dto.listingId ∈ held)
    (hs : Reserved apart userId dto checkin checkout s) (hfresh : s.bookings.find? id = none) :
    Effect env apart (.createBooking userId dto isVerified) held s
      [.refCounter counter, .booking b] := by
  have hnew : NewBooking s b := by
    refine ⟨by rw [hrow.id, hfresh], ?_, ?_, hrow.status, hrow.priced⟩
    · rw [hrow.listing, hrow.dates.1, hrow.dates.2]
      exact hs.free
    · rw [hrow.dates.1, hrow.dates.2]
      exact hdates
  have hrequested : Requested (.createBooking userId dto isVerified) held b := by
    refine ⟨⟨dto, isVerified, by rw [hrow.guest], hrow.listing.symm, hrow.key.symm⟩, ?_⟩
    rw [hrow.listing]
    exact hk
  refine .book hrequested hnew fun happly => ?_
  rw [hrow.guest, hrow.key]
  exact hs.unused happly

theorem wp_allocateBookingReference {k : BookingReference → Stays α} {year : ℤ} {held : List Key}
    (hP : (discipline env apart payable).Stable c held P) (hs : P s)
    (h : ∀ s' counter reference, P s' → (discipline env apart payable).wp c Q (fun _ _ _ => True)
      (k reference) ⟨.refCounter year :: held, [.refCounter counter], true⟩ s') :
    (discipline env apart payable).wp c Q (fun _ _ _ => True)
      (allocateBookingReference year >>= k) ⟨held, [], true⟩ s := by
  refine wp_bind (wp_stage hP hs (fun s' _ hs' => ?_) fun s' _ hs' => wp_throw .true trivial)
  exact wp_return (h s' _ _ hs')

theorem reserve_conforms {listing : StaysListing} {checkin checkout : ℤ}
    (hdates : checkin < checkout) (hs : apart → KeyUnused s userId dto.key) :
    (discipline env apart payable).Inside (.createBooking userId dto isVerified)
      (fun b => Answers payable (.createBooking userId dto isVerified) (.booking b)) .database
      (reserve userId dto listing checkin checkout) ⟨[.listing dto.listingId], [], true⟩ s := by
  unfold reserve
  have hlock : Key.listing dto.listingId ∈ [Key.listing dto.listingId] := by simp
  refine wp_isListingAvailable rfl (stable_keyUnused hlock) hs (stable_free hlock checkin checkout)
    (fun _ => id) fun s₁ available hinv₁ hs₁ hfree => ?_
  have hreserved : (discipline env apart payable).Stable (.createBooking userId dto isVerified)
      [.listing dto.listingId] (Reserved apart userId dto checkin checkout) :=
    stable_reserved hlock checkin checkout
  refine wp_require (stable_keyUnused hlock) hs₁ fun havailable => ?_
  have hs₁ : Reserved apart userId dto checkin checkout s₁ := ⟨hfree havailable, hs₁⟩
  refine wp_expect hreserved hs₁ fun ratePlan _ => ?_
  refine wp_query hreserved hs₁ fun s₂ _ hs₂ => ?_
  generalize Store.settings _ = rates
  refine wp_receive hreserved hs₂ fun s₃ year _ hs₃ => ?_
  refine wp_allocateBookingReference hreserved hs₃ fun s₄ counter reference hs₄ => ?_
  have hreserved : ∀ {held}, Key.listing dto.listingId ∈ held →
      (discipline env apart payable).Stable (.createBooking userId dto isVerified) held
        (Reserved apart userId dto checkin checkout) := fun hk => stable_reserved hk checkin checkout
  refine wp_receive (hreserved (by simp)) hs₄ fun s₅ createdAt _ hs₅ => ?_
  refine wp_stageInsert (hreserved (by simp)) hs₅ fun s₆ id _ hs₆ hfresh => ?_
  have hfresh : s₆.bookings.find? id = none := by
    simpa [Storage.present, Store.present, Write.key, newBooking, Store.write] using hfresh
  have hrow : RowOf userId dto checkin checkout id
      (newBooking userId dto checkin checkout ratePlan rates reference createdAt id) :=
    rowOf_newBooking checkin checkout ratePlan rates reference createdAt id
  generalize newBooking userId dto checkin checkout ratePlan rates reference createdAt id = b
    at hrow ⊢
  have hP : (discipline env apart payable).Stable (.createBooking userId dto isVerified)
      [.booking b.id, .refCounter year, .listing dto.listingId]
      fun s => Reserved apart userId dto checkin checkout s ∧ s.bookings.find? id = none :=
    (hreserved (by simp)).and (stable_booking (by simp [hrow.id]) none)
  refine wp_query hP ⟨hs₆, hfresh⟩ fun s₇ _ hs₇ => wp_query hP hs₇ fun s₈ _ hs₈ => ?_
  have hread : ∀ held, ((Session.view ⟨held, [.refCounter counter] ++ [.booking b], true⟩
      s₈).bookings.find? id).getD b = b := by
    intro held
    simp [Session.view, Store.write, hrow.id]
  rw [hread]
  refine Inside.return hP hs₈ (persistent_answers _) fun s₉ _ hs₉ => ⟨Or.inr ?_, ?_⟩
  · exact hrow.effect hdates (by simp) hs₉.1 hs₉.2
  · have hfind : (publish s₉ [.refCounter counter, .booking b]).bookings.find? b.id = some b := by
      simp [Store.write]
    exact ⟨b, hfind, hrow.guest, hrow.key, .refl b⟩

/-- The transaction, from the lock of the listing on. -/
theorem createBookingTransaction_conforms :
    (discipline env apart payable).Inside (.createBooking userId dto isVerified)
      (fun b => Answers payable (.createBooking userId dto isVerified) (.booking b)) .database
      (createBookingTransaction userId dto) .opened s := by
  unfold createBookingTransaction
  refine wp_lockRow_opened .true trivial (fun s₁ _ _ habsent => ?_) fun s₁ _ _ _ _ => ?_
  · have hnone : s₁.listings.find? dto.listingId = none := by
      simpa [Storage.present, Store.present] using habsent
    rw [hnone]
    exact wp_throw .true trivial
  refine wp_expect .true trivial fun _ _ => wp_query .true trivial fun s₂ _ _ => ?_
  refine wp_expect .true trivial fun listing _ => wp_require .true trivial fun _ => ?_
  refine wp_require .true trivial fun _ => wp_require .true trivial fun _ => ?_
  refine wp_ofExcept .true trivial fun checkin _ => wp_ofExcept .true trivial fun checkout _ => ?_
  refine wp_require .true trivial fun hnights => ?_
  have hdates : checkin < checkout := by
    unfold bookingNightsBetween at hnights
    omega
  refine wp_findByIdempotencyKey rfl .true trivial fun s₃ found _ _ hfound hunused => ?_
  cases found with
  | none => exact reserve_conforms hdates fun _ => hunused rfl
  | some existing =>
    obtain ⟨hmem, hguest, hkey⟩ := hfound existing rfl
    have hstay : (discipline env apart payable).Persistent _ :=
      persistent_stay existing existing.id
    have hexisting : ∃ r, s₃.bookings.find? existing.id = some r ∧ SameStay existing r :=
      ⟨existing, Table.find?_key hmem, .refl existing⟩
    refine wp_query hstay.stable hexisting fun s₄ _ hs₄ => ?_
    obtain ⟨r, hr, hsame⟩ := hs₄
    have hview : ∀ held, (Session.view ⟨held, [], true⟩ s₄).bookings.find? existing.id = some r :=
      fun _ => hr
    rw [hview]
    have hstay : (discipline env apart payable).Persistent _ :=
      persistent_stay r r.id
    have hrow : ∃ r', s₄.bookings.find? r.id = some r' ∧ SameStay r r' :=
      ⟨r, by rw [Table.key_of_find? hr, hr], .refl r⟩
    refine Inside.return hstay.stable hrow (persistent_answers _) fun s₅ _ hs₅ => ⟨Or.inl rfl, ?_⟩
    obtain ⟨r', hr', hsame'⟩ := hs₅
    obtain ⟨_, _, rfl⟩ := hsame'
    obtain ⟨_, _, rfl⟩ := hsame
    exact ⟨_, hr', hguest, hkey, ⟨_, _, rfl⟩⟩

/-- `createBooking` keeps to the discipline, and answers with the booking of the key. -/
theorem createBooking_conforms :
    (discipline env apart payable).Outside (.createBooking userId dto isVerified)
      (fun b => Answers payable (.createBooking userId dto isVerified) (.booking b))
      (createBooking userId dto isVerified) s := by
  unfold createBooking
  refine wp_require .true trivial (fun _ => ?_) fun _ _ _ => rfl
  refine wp_findByIdempotencyKey rfl .true trivial (fun s₁ found _ _ hfound _ => ?_)
    fun _ _ _ _ => rfl
  cases found with
  | none => exact Outside.transaction createBookingTransaction_conforms
  | some booking =>
    obtain ⟨hmem, hguest, hkey⟩ := hfound booking rfl
    exact Outside.pure (persistent_answers _).stable
      ⟨booking, Table.find?_key hmem, hguest, hkey, .refl booking⟩

end NexaStays.Conformance
