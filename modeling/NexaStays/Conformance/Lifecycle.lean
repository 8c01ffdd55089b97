import NexaStays.Conformance.Payments

/-!
# The end of a booking keeps to the discipline

The jobs read their candidates first and write later. An expiry looks at the status
again when it writes; a completion does not, but the booking it read was paid, and
still is.
-/
namespace NexaStays.Conformance

open NexaStays.KeyedTable NexaStays.Transactions NexaStays.RelyGuarantee NexaStays.Database
  NexaStays.Payments NexaStays.Lifecycle NexaStays.Calls NexaStays.Effects
  NexaStays.Persistence NexaStays.Invariant NexaStays.Interference

open NexaStays.RelyGuarantee.Discipline

variable {env : Env} {apart payable : Prop} {s : Store} {c : Call} {held : List Key} {now : ℤ}

/-- The orders an expiry releases are orders of the booking. -/
theorem orders_of_pending {bookingId : ℕ} {oid : String}
    (h : oid ∈ (s.intents.rows.filter fun i =>
      i.bookingId = bookingId ∧ i.status = .pending).filterMap cmiOrder) :
    OrderFor s oid bookingId := by
  obtain ⟨i, hi, hoid⟩ := List.mem_filterMap.mp h
  obtain ⟨hmem, hof⟩ := List.mem_filter.mp hi
  unfold cmiOrder at hoid
  split_ifs at hoid with hcmi
  exact ⟨i, mem_intentsOf.mpr ⟨hmem, hcmi, hoid⟩, (of_decide_eq_true hof).1⟩

theorem expireBooking_conforms (bookingId : ℕ) :
    (discipline env apart payable).Outside c (fun _ _ => True) (expireBooking env bookingId) s := by
  unfold expireBooking
  refine wp_publish .true trivial (fun s₁ hinv _ => ⟨expireHold_publishes bookingId, ?_⟩)
    fun _ _ _ => rfl
  by_cases hne : expireHold bookingId s₁ = []
  · rw [if_pos hne]
    exact Outside.pure .true trivial
  rw [if_neg hne]
  have hclosed : (discipline env apart payable).Persistent _ :=
    persistent_closedUnpaid bookingId
  refine wp_query hclosed.stable (closedUnpaid_of_expireHold hinv hne) (fun s₂ hinv₂ hs₂ => ?_)
    fun _ _ _ => rfl
  have hview : Session.idle.view s₂ = s₂ := rfl
  rw [hview]
  have horders : ∀ oid ∈ (if env.isMockPaymentProvider then [] else
      (s₂.intents.rows.filter fun i => i.bookingId = bookingId ∧ i.status = .pending).filterMap
        cmiOrder), OrderFor s₂ oid bookingId := by
    intro oid hoid
    split_ifs at hoid
    · simp at hoid
    · exact orders_of_pending hoid
  generalize (if env.isMockPaymentProvider then [] else _) = oids at horders ⊢
  have hP : (discipline env apart payable).Persistent fun s => ClosedUnpaid s bookingId ∧
      ∀ oid, oid ∈ oids → OrderFor s oid bookingId :=
    hclosed.and (.forall fun oid => .forall fun _ => persistent_orderFor oid bookingId)
  refine Outside.bind .true trivial (Outside.forEach hP oids (fun oid hoid s' _ hs' => ?_)
    ⟨hs₂, horders⟩ hinv₂) fun _ s₃ _ _ _ => ?_
  · exact Outside.attempt .true trivial
      (voidCmiPreAuth_conforms (n := 0) (fun _ => ⟨bookingId, hs'.2 oid hoid, hs'.1⟩) (Nat.zero_le _))
      (fun _ => .true) (fun _ _ _ _ _ => trivial) fun _ _ _ _ => Outside.pure .true trivial
  · exact wp_publish .true trivial (fun s₄ _ _ => ⟨cancelPendingIntents_publishes bookingId,
      Outside.pure .true trivial⟩) fun _ _ _ => rfl

/-- `expirePendingPayments` keeps to the discipline. -/
theorem expirePendingPayments_conforms :
    (discipline env apart payable).Outside c (fun _ _ => True) (expirePendingPayments env now) s := by
  unfold expirePendingPayments
  refine wp_query .true trivial (fun s₁ hinv _ => ?_) fun _ _ _ => rfl
  exact Outside.forEach .true _ (fun b _ s' _ _ => Outside.attempt .true trivial
    (expireBooking_conforms b.id) (fun _ => .true) (fun _ _ _ _ _ => trivial)
    fun _ _ _ _ => Outside.pure .true trivial) trivial hinv

/-- The completion of a paid booking: nothing is written, or the row moves on. -/
theorem completeBooking_publishes {bookingId : ℕ} (completedAt : ℤ) (hpaid : Paid s bookingId) :
    (discipline env apart payable).Publishes c held s (completeBooking bookingId completedAt s) := by
  unfold completeBooking
  cases hrow : s.bookings.find? bookingId with
  | none => exact Or.inl (updateBooking_of_absent hrow)
  | some b =>
    have hid : b.id = bookingId := Table.key_of_find? hrow
    rw [updateBooking_of_row hrow]
    exact Or.inr (.complete (by rw [hid, hrow]) (hid ▸ hpaid))

theorem completeStay_conforms {bookingId : ℕ} (hpaid : Paid s bookingId) :
    (discipline env apart payable).Outside c (fun _ _ => True) (completeStay bookingId) s := by
  have hP : (discipline env apart payable).Persistent _ :=
    persistent_paid bookingId
  unfold completeStay
  refine wp_receive hP.stable hpaid fun s₁ completedAt _ hs₁ => ?_
  exact wp_publish hP.stable hs₁ (fun s₂ _ hs₂ => ⟨completeBooking_publishes _ hs₂,
    Outside.pure .true trivial⟩) fun _ _ _ => rfl

/-- A job that completes the stays it has read. -/
theorem completeStays_conforms {stays : List StaysBooking} (hinv : Consistent s)
    (hstays : ∀ b ∈ stays, b ∈ s.bookings.rows ∧ b.status ∈ paidCompleteStatuses) :
    (discipline env apart payable).Outside c (fun _ _ => True)
      (Program.forEach (fun b => Program.attempt (completeStay b.id) fun _ => pure ()) stays) s := by
  have hpaid : ∀ b, b ∈ stays → Paid s b.id := by
    intro b hb
    obtain ⟨hmem, hstatus⟩ := hstays b hb
    refine paid_of_confirmed hinv hmem ?_
    revert hstatus
    cases b.status <;> decide
  have hP : (discipline env apart payable).Persistent fun s => ∀ b, b ∈ stays → Paid s b.id :=
    .forall fun b => .forall fun _ => persistent_paid b.id
  exact Outside.forEach hP stays (fun b hb s' _ hs' => Outside.attempt .true trivial
    (completeStay_conforms (hs' b hb)) (fun _ => .true) (fun _ _ _ _ _ => trivial)
    fun _ _ _ _ => Outside.pure .true trivial) hpaid hinv

/-- `autoCompletePastStays` keeps to the discipline. -/
theorem autoCompletePastStays_conforms :
    (discipline env apart payable).Outside c (fun _ _ => True) (autoCompletePastStays env now) s := by
  unfold autoCompletePastStays
  refine wp_query .true trivial (fun s₁ hinv _ => completeStays_conforms hinv fun b hb => ?_)
    fun _ _ _ => rfl
  obtain ⟨hmem, hof⟩ := List.mem_filter.mp hb
  exact ⟨hmem, (of_decide_eq_true hof).1⟩

/-- `finalizeCheckoutDayStays` keeps to the discipline. -/
theorem finalizeCheckoutDayStays_conforms :
    (discipline env apart payable).Outside c (fun _ _ => True)
      (finalizeCheckoutDayStays env now) s := by
  unfold finalizeCheckoutDayStays
  refine wp_query .true trivial (fun s₁ hinv _ => completeStays_conforms hinv fun b hb => ?_)
    fun _ _ _ => rfl
  obtain ⟨hmem, hof⟩ := List.mem_filter.mp hb
  exact ⟨hmem, (of_decide_eq_true hof).1⟩

/-- The completed row of a stay under review. -/
def completedRow (completedAt : ℤ) (b : StaysBooking) : Write :=
  .booking { b with status := .completed, completedAt := some completedAt }

/-- The stay that a review completes, as its transaction has locked it. -/
def ReviewedStay (stay : Option StaysBooking) (s : Store) : Prop :=
  ∀ b, b ∈ stay → s.bookings.find? b.id = some b ∧ Paid s b.id

theorem stable_reviewedStay {stay : Option StaysBooking}
    (hk : ∀ b ∈ stay, Key.booking b.id ∈ held) :
    (discipline env apart payable).Stable c held (ReviewedStay stay) :=
  fun _ _ hs h b hb => ⟨stable_booking (hk b hb) _ (hs b hb).1 h,
    (persistent_paid b.id).stable (hs b hb).2 h⟩

theorem wp_completeReviewed {α : Type} {Q : α → Session Key Write → Store → Prop}
    {k : Unit → Stays α} {booking : StaysBooking}
    (hpaid : booking.status ∈ paidCompleteStatuses → Paid s booking.id)
    (h : ∀ s' stay, ReviewedStay stay s' → (discipline env apart payable).wp c Q
      (fun _ _ _ => True) (k ()) ⟨stay.toList.map fun b => .booking b.id,
        stay.toList.map (completedRow (booking.completedAt.getD now)), true⟩ s') :
    (discipline env apart payable).wp c Q (fun _ _ _ => True)
      (completeReviewed booking now >>= k) .opened s := by
  unfold completeReviewed
  by_cases hstatus : booking.status ∈ paidCompleteStatuses
  · rw [if_pos hstatus]
    refine wp_bind (wp_stage (persistent_paid booking.id).stable (hpaid hstatus)
      (fun s₁ _ hs₁ => ?_) fun _ _ _ => wp_throw .true trivial)
    refine wp_return ?_
    rw [publish_nil, completeBooking]
    cases hrow : s₁.bookings.find? booking.id with
    | none =>
      rw [updateBooking_of_absent hrow]
      exact h s₁ none fun b hb => nomatch hb
    | some b =>
      have hid : b.id = booking.id := Table.key_of_find? hrow
      rw [updateBooking_of_row hrow]
      refine h s₁ (some b) fun b' hb' => ?_
      obtain rfl : b = b' := Option.some.inj hb'
      exact ⟨by rw [hid, hrow], hid ▸ hs₁⟩
  · rw [if_neg hstatus]
    exact h s none fun b hb => nomatch hb

/-- What a review writes before the aggregates leaves the listings alone. -/
theorem listings_publish_review (s : Store) (stay : Option StaysBooking) (completedAt : ℤ)
    (r : StaysListingReview) :
    (publish s (stay.toList.map (completedRow completedAt) ++ [.review r])).listings =
      s.listings := by
  cases stay <;> rfl

/-- The review and the aggregates, after the stay was completed. -/
theorem publishReview_conforms {stay : Option StaysBooking} {completedAt : ℤ} {guestUserId : ℕ}
    {stars : ℤ} {comment : String} {booking : StaysBooking} {listing : StaysListing}
    (hs : ReviewedStay stay s) :
    (discipline env apart payable).Inside c (fun _ _ => True) .database (do
        let id ← Stays.insert fun id =>
          .review (newReview booking listing guestUserId stars comment id)
        Stays.read fun _ => ()
        recalculateForListing booking.listingId
        pure (newReview booking listing guestUserId stars comment id))
      ⟨stay.toList.map fun b => .booking b.id, stay.toList.map (completedRow completedAt), true⟩
      s := by
  have hk : ∀ b ∈ stay, Key.booking b.id ∈ stay.toList.map fun b => Key.booking b.id :=
    fun b hb => List.mem_map_of_mem (Option.mem_toList.mpr hb)
  have hP : ∀ keys, (discipline env apart payable).Stable c
      (keys ++ stay.toList.map fun b => Key.booking b.id) (ReviewedStay stay) := fun keys =>
    stable_reviewedStay fun b hb => List.mem_append_right _ (hk b hb)
  refine wp_stageInsert (stable_reviewedStay hk) hs fun s₁ id _ hs₁ _ => ?_
  refine wp_query (hP [_]) hs₁ fun s₂ _ hs₂ => wp_bind (wp_query (hP [_]) hs₂ (fun s₃ _ hs₃ => ?_)
    fun _ _ _ => wp_throw .true trivial)
  generalize List.filter _ _ = rows
  refine wp_stage (hP [_]) hs₃ (fun s₄ _ hs₄ => wp_return ?_) fun _ _ _ => wp_throw .true trivial
  rw [listings_publish_review]
  have hreviewed : ∀ l, l ∈ s₄.listings.find? booking.listingId → s₄.listings.find? l.id = some l := by
    intro l hl
    rw [Table.key_of_find? hl, hl]
  generalize s₄.listings.find? booking.listingId = reviewed at hreviewed ⊢
  have hlistings : ∀ {c held}, (∀ l, l ∈ reviewed → Key.listing l.id ∈ held) →
      (discipline env apart payable).Stable c held
        fun s => ∀ l, l ∈ reviewed → s.listings.find? l.id = some l :=
    fun hk _ _ hs h l hl => stable_listing (hk l hl) _ (hs l hl) h
  refine Inside.return ((stable_reviewedStay fun b hb => ?_).and (hlistings fun l hl => ?_))
    ⟨hs₄, hreviewed⟩ .true fun s₅ _ hs₅ => ⟨Or.inr ?_, trivial⟩
  · exact List.mem_append_right _ (List.mem_cons_of_mem _ (hk b hb))
  · refine List.mem_append_left _ (List.mem_map.mpr ⟨_, List.mem_map_of_mem
      (Option.mem_toList.mpr hl), rfl⟩)
  · rw [List.append_assoc]
    exact .review hs₅.1 hs₅.2

/-- Where the check of a review leaves its transaction. -/
def Checked (ses : Session Key Write) (s : Store) : Prop :=
  ∃ stay completedAt, ses = ⟨stay.toList.map fun b => .booking b.id,
    stay.toList.map (completedRow completedAt), true⟩ ∧ ReviewedStay stay s

theorem assertCanReview_conforms {guestUserId bookingId : ℕ} :
    (discipline env apart payable).wp c (fun _ => Checked) (fun _ _ _ => True)
      (assertCanReview env guestUserId bookingId now) .opened s := by
  unfold assertCanReview
  refine wp_query .true trivial fun s₁ hinv _ => ?_
  have hview : Session.opened.view s₁ = s₁ := rfl
  rw [hview]
  cases hrow : s₁.bookings.find? bookingId with
  | none => exact wp_throw .true trivial
  | some booking =>
    have hpaid : booking.status ∈ paidCompleteStatuses → Paid s₁ booking.id := by
      intro hstatus
      refine paid_of_confirmed hinv (Table.mem_of_find? hrow) ?_
      revert hstatus
      cases booking.status <;> decide
    have hP : (discipline env apart payable).Persistent fun s =>
        booking.status ∈ paidCompleteStatuses → Paid s booking.id :=
      .forall fun _ => persistent_paid booking.id
    refine wp_require hP.stable hpaid fun _ => wp_require hP.stable hpaid fun _ => ?_
    refine wp_completeReviewed hpaid fun s₂ stay hs₂ => ?_
    have hP : (discipline env apart payable).Stable c
        (stay.toList.map fun b => Key.booking b.id) (ReviewedStay stay) :=
      stable_reviewedStay fun b hb => List.mem_map_of_mem (Option.mem_toList.mpr hb)
    refine wp_expect hP hs₂ fun listing _ => wp_require hP hs₂ fun _ => ?_
    refine wp_query hP hs₂ fun s₃ _ hs₃ => wp_require hP hs₃ fun _ => ?_
    intro s₄ hlater _
    exact ⟨stay, _, rfl, hP.later hs₃ hlater⟩

/-- `createReview` keeps to the discipline. -/
theorem createReview_conforms {guestUserId bookingId : ℕ} {rating : ℚ} {comment : String} :
    (discipline env apart payable).Outside c (fun _ _ => True)
      (createReview env guestUserId bookingId rating comment now) s := by
  unfold createReview
  refine wp_expect .true trivial (fun stars _ => ?_) fun _ _ _ => rfl
  refine wp_require .true trivial (fun _ => Outside.transaction ?_) fun _ _ _ => rfl
  refine wp_bind (wp_mono (fun loaded ses s₁ _ h => ?_) (fun _ _ _ _ _ => wp_throw .true trivial)
    assertCanReview_conforms)
  obtain ⟨stay, completedAt, rfl, hs₁⟩ := h
  exact publishReview_conforms hs₁

end NexaStays.Conformance
