import NexaStays.Conformance.Gateway

/-!
# Payments keep to the discipline

Opening an intent, the transaction that confirms a payment, and what follows its
outcome at the gateway.
-/
namespace NexaStays.Conformance

open NexaStays.KeyedTable NexaStays.Transactions NexaStays.RelyGuarantee NexaStays.Database
  NexaStays.Money NexaStays.Availability NexaStays.Payments NexaStays.Cancellation NexaStays.Calls
  NexaStays.Effects NexaStays.Persistence NexaStays.Invariant NexaStays.Interference

open NexaStays.RelyGuarantee.Discipline

variable {env : Env} {apart payable : Prop} {s : Store} {c : Call} {oid : String} {n : ℕ}
  {held : List Key}

/-- A booking before its confirmation has an empty ledger. -/
theorem ledgerOf_pre (hinv : Consistent s) {b : StaysBooking} (hb : b ∈ s.bookings.rows)
    (hstatus : b.status ∈ preConfirmationBookingStatuses) : ledgerOf s b.id = [] := by
  have hform := hinv.ledgers.form b hb
  generalize ledgerOf s b.id = l at hform
  cases hform with
  | unpaid => rfl
  | paid hpaid => exact absurd hpaid (not_paid_of_pre hstatus)
  | refunded hrefunded => exact absurd (paid_of_refunded hrefunded) (not_paid_of_pre hstatus)

/-- A booking past its confirmation is paid. -/
theorem paid_of_confirmed (hinv : Consistent s) {b : StaysBooking} (hb : b ∈ s.bookings.rows)
    (hstatus : b.status ∈ confirmedBookingStatuses) : Paid s b.id := by
  rw [hinv.ledgers.paid_iff hb]
  intro hnil
  have hform := hinv.ledgers.form b hb
  rw [hnil] at hform
  cases hform with
  | unpaid hunpaid => exact hunpaid hstatus

theorem updateBooking_of_row {id : ℕ} {p : StaysBooking → Bool} {f : StaysBooking → StaysBooking}
    {b : StaysBooking} (hrow : s.bookings.find? id = some b) :
    updateBooking id p f s = if p b then [.booking (f b)] else [] := by
  unfold updateBooking
  rw [hrow]
  split_ifs with hp <;> simp [hp]

theorem updateBooking_of_absent {id : ℕ} {p : StaysBooking → Bool}
    {f : StaysBooking → StaysBooking} (hrow : s.bookings.find? id = none) :
    updateBooking id p f s = [] := by
  simp [updateBooking, hrow]

/-- A hold that ends: nothing is written, or an unpaid booking expires. -/
theorem expireHold_publishes (id : ℕ) :
    (discipline env apart payable).Publishes c held s (expireHold id s) := by
  unfold expireHold
  cases hrow : s.bookings.find? id with
  | none => exact Or.inl (updateBooking_of_absent hrow)
  | some b =>
    rw [updateBooking_of_row hrow]
    split_ifs with hstatus
    · exact Or.inr (.expire (by rw [Table.key_of_find? hrow, hrow]) (by simpa using hstatus))
    · exact Or.inl rfl

/-- A hold that has just ended leaves its booking closed. -/
theorem closedUnpaid_of_expireHold (hinv : Consistent s) {id : ℕ} (hne : expireHold id s ≠ []) :
    ClosedUnpaid (publish s (expireHold id s)) id := by
  unfold expireHold at hne ⊢
  cases hrow : s.bookings.find? id with
  | none => exact absurd (updateBooking_of_absent hrow) hne
  | some b =>
    rw [updateBooking_of_row hrow] at hne ⊢
    split_ifs at hne ⊢ with hstatus
    · have hid : b.id = id := Table.key_of_find? hrow
      have hnil : ledgerOf s b.id = [] :=
        ledgerOf_pre hinv (Table.mem_of_find? hrow) (by simpa using hstatus)
      refine ⟨hid ▸ hnil, { b with status := .expired }, ?_, by simp⟩
      rw [← hid]
      exact Table.find?_key (Table.mem_put_self _ _)
    · exact absurd rfl hne

theorem pendingRows_filter {p : StaysPaymentIntent → Bool}
    (hp : ∀ i, p i = true → i.status = .pending) : PendingRows s (s.intents.rows.filter p) where
  row _ hi := Table.find?_key (List.mem_filter.mp hi).1
  pending i hi := hp i (List.mem_filter.mp hi).2
  nodup := Table.nodup_filter s.intents p

theorem pendingRows_of_booking (bookingId : ℕ) : PendingRows s
    (s.intents.rows.filter fun i => i.bookingId = bookingId ∧ i.status = .pending) :=
  pendingRows_filter fun _ hi => (of_decide_eq_true hi).2

theorem cancelPendingIntents_publishes (bookingId : ℕ) :
    (discipline env apart payable).Publishes c held s (cancelPendingIntents bookingId s) :=
  Or.inr (.dropIntents (pendingRows_of_booking bookingId))

theorem newIntent_known {booking r : StaysBooking} {amount : ℤ} {key : Option String}
    {now random createdAt id : ℕ} (hfresh : s.intents.find? id = none)
    (hrow : s.bookings.find? booking.id = some r) (htotal : r.totalPaid = some amount)
    (hpos : 0 < amount) :
    NewIntent s (newIntent env booking amount key now random createdAt id) where
  fresh := hfresh
  booking := ⟨r, hrow, htotal⟩
  positive := hpos
  status := rfl
  metadata := rfl
  order hcmi := by
    have hlive : env.isMockPaymentProvider = false := by
      by_contra hmock
      simp [newIntent, hmock] at hcmi
    exact ⟨now, by simp [newIntent, hlive]⟩

theorem openIntent_conforms {booking : StaysBooking} {key : Option String}
    (hstay : ∃ r, s.bookings.find? booking.id = some r ∧ SameStay booking r) :
    (discipline env apart payable).Outside c (fun _ _ => True) (openIntent env booking key) s := by
  have hP : (discipline env apart payable).Persistent _ :=
    persistent_stay booking booking.id
  unfold openIntent
  refine wp_expect hP.stable hstay (fun totalPaid hlock => ?_) fun _ _ _ => rfl
  obtain ⟨hpos, hamount⟩ := lockIntentAmount_eq_some.mp hlock
  have htotal : booking.totalPaid = some totalPaid := by
    cases hpaid : booking.totalPaid with
    | none => simp [hpaid] at hpos
    | some total => simpa [hpaid] using hamount.symm
  refine wp_receive hP.stable hstay fun s₁ now _ hs₁ => wp_receive hP.stable hs₁ fun s₂ random _ hs₂ =>
    wp_receive hP.stable hs₂ fun s₃ createdAt _ hs₃ => ?_
  refine wp_publishInsert hP.stable hs₃ (fun s₄ id _ hs₄ hfresh => ⟨Or.inr ?_, ?_⟩)
    fun _ _ _ => rfl
  · obtain ⟨r, hrow, ⟨_, _, rfl⟩⟩ := hs₄
    have hfresh : s₄.intents.find? id = none := by
      simpa [Storage.present, Store.present, Write.key, newIntent] using hfresh
    exact .openIntent (newIntent_known hfresh hrow htotal (hamount ▸ hpos))
  · exact Outside.pure .true trivial

theorem pendingOrOpenIntent_conforms {booking : StaysBooking} {key : Option String}
    (hstay : ∃ r, s.bookings.find? booking.id = some r ∧ SameStay booking r) :
    (discipline env apart payable).Outside c (fun _ _ => True)
      (pendingOrOpenIntent env booking key) s := by
  have hP : (discipline env apart payable).Persistent _ :=
    persistent_stay booking booking.id
  unfold pendingOrOpenIntent
  refine wp_findOne hP.stable hstay (fun s₁ pendingIntent _ hs₁ _ _ => ?_) fun _ _ _ => rfl
  cases pendingIntent with
  | none => exact openIntent_conforms hs₁
  | some intent =>
    exact wp_require .true trivial (fun _ => Outside.pure .true trivial) fun _ _ _ => rfl

theorem getOrOpenIntent_conforms {booking : StaysBooking} {key : Option String}
    (hstay : ∃ r, s.bookings.find? booking.id = some r ∧ SameStay booking r) :
    (discipline env apart payable).Outside c (fun _ _ => True) (getOrOpenIntent env booking key)
      s := by
  have hP : (discipline env apart payable).Persistent _ :=
    persistent_stay booking booking.id
  have hrest : ∀ s existing, (∃ r, s.bookings.find? booking.id = some r ∧ SameStay booking r) →
      (discipline env apart payable).Outside c (fun _ _ => True) (match existing with
        | some intent => pure intent
        | none => pendingOrOpenIntent env booking key) s := by
    intro s existing hs
    cases existing with
    | some intent => exact Outside.pure .true trivial
    | none => exact pendingOrOpenIntent_conforms hs
  unfold getOrOpenIntent intentWithKey
  cases truthy key with
  | none => exact hrest s none hstay
  | some key' =>
    exact wp_findOne hP.stable hstay (fun s₁ existing _ hs₁ _ _ => hrest s₁ existing hs₁)
      fun _ _ _ => rfl

/-- `createOrGetIntent` keeps to the discipline. -/
theorem createOrGetIntent_conforms {bookingId guestUserId : ℕ} {key : Option String} :
    (discipline env apart payable).Outside c (fun _ _ => True)
      (createOrGetIntent env bookingId guestUserId key) s := by
  unfold createOrGetIntent
  refine wp_query .true trivial (fun s₁ _ _ => ?_) fun _ _ _ => rfl
  have hview : (Session.idle.view s₁).bookings.find? bookingId = s₁.bookings.find? bookingId := rfl
  rw [hview]
  cases hrow : s₁.bookings.find? bookingId with
  | none => exact Outside.throw
  | some booking =>
    have hstay : ∃ r, s₁.bookings.find? booking.id = some r ∧ SameStay booking r :=
      ⟨booking, by rw [Table.key_of_find? hrow, hrow], .refl booking⟩
    have hP : (discipline env apart payable).Persistent _ :=
      persistent_stay booking booking.id
    refine wp_require hP.stable hstay (fun _ => ?_) fun _ _ _ => rfl
    refine wp_require hP.stable hstay (fun _ => ?_) fun _ _ _ => rfl
    refine wp_isListingAvailable rfl hP.stable hstay .true (fun _ _ => trivial)
      (fun s₂ available _ hs₂ _ => ?_) fun _ _ _ _ => rfl
    split_ifs
    · exact getOrOpenIntent_conforms hs₂
    · refine wp_publish .true trivial (fun s₃ _ _ => ⟨expireHold_publishes _, ?_⟩) fun _ _ _ => rfl
      exact wp_publish .true trivial (fun s₄ _ _ => ⟨cancelPendingIntents_publishes _, Outside.throw⟩)
        fun _ _ _ => rfl

end NexaStays.Conformance
