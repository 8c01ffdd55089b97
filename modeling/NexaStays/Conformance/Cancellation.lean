import NexaStays.Conformance.Payments

/-!
# Cancelling keeps to the discipline

The refund is computed before the transaction, from columns that never change; whether
it is recorded is decided under the lock of the booking, where it stays decided.
-/
namespace NexaStays.Conformance

open NexaStays.KeyedTable NexaStays.Transactions NexaStays.RelyGuarantee NexaStays.Database
  NexaStays.Money NexaStays.Payments NexaStays.Cancellation NexaStays.Calls NexaStays.Effects
  NexaStays.Persistence NexaStays.Invariant NexaStays.Interference

open NexaStays.RelyGuarantee.Discipline

variable {env : Env} {apart payable : Prop} {s : Store} {c : Call} {held : List Key}
  {booking : StaysBooking} {now : ℤ} {refund : Option StaysLedgerEntry}

/-- The refund depends on nothing that changes. -/
theorem theoreticalRefund_congr {b b' : StaysBooking} {l l' : Option StaysListing}
    (hsame : SameStay b b') (hpolicy : policyOf l = policyOf l') :
    theoreticalRefund b l now = theoreticalRefund b' l' now := by
  obtain ⟨_, _, rfl⟩ := hsame
  simp only [theoreticalRefund, hpolicy]

theorem stable_refundRule (hb : Key.booking booking.id ∈ held)
    (he : ∀ e ∈ refund, Key.ledger e.id ∈ held) :
    (discipline env apart payable).Stable c held fun s => RefundRule s booking now refund := by
  intro s s' hs h
  have hpolicy : policyOf (s'.listings.find? booking.listingId) =
      policyOf (s.listings.find? booking.listingId) :=
    (persistent_policy booking.listingId _).stable rfl h
  have htheory : theoreticalRefund booking (s'.listings.find? booking.listingId) now =
      theoreticalRefund booking (s.listings.find? booking.listingId) now :=
    theoreticalRefund_congr (.refl booking) hpolicy
  refine ⟨fun e hmem => ?_, fun hnone hpaid => ?_⟩
  · obtain ⟨hfresh, hpaid, hunrefunded, hpos, heq⟩ := hs.entry e hmem
    refine ⟨stable_ledger (he e hmem) none hfresh h, (persistent_paid booking.id).stable hpaid h,
      stable_unrefunded hb hunrefunded h, hpos, ?_⟩
    rw [htheory]
    exact heq
  · have hpaid' : Paid s booking.id := by
      by_contra hunpaid
      exact stable_unpaid hb hunpaid h hpaid
    rw [htheory]
    exact (hs.none hnone hpaid').imp (fun hr => (persistent_refunded booking.id).stable hr h) id

theorem stable_pendingRows {is : List StaysPaymentIntent} (hk : ∀ i ∈ is, Key.intent i.id ∈ held) :
    (discipline env apart payable).Stable c held fun s => PendingRows s is :=
  fun _ _ hs h => ⟨fun i hi => stable_intent (hk i hi) _ (hs.row i hi) h, hs.pending, hs.nodup⟩

/-- What the gateway part of a cancellation relies on. -/
structure CancelKnown (bookingId : ℕ) (outcome : CancelOutcome) (s : Store) : Prop where
  refunded : 0 < outcome.refundAmount → refundsOf bookingId s ≠ []
  closed : ∀ oid ∈ outcome.cmiVoidCandidates, MessageKnown s oid .void

theorem persistent_cancelKnown (bookingId : ℕ) (outcome : CancelOutcome) :
    (discipline env apart payable).Persistent (CancelKnown bookingId outcome) :=
  fun _ _ _ _ _ h hs => ⟨fun hpos => refunded_persists h (hs.refunded hpos),
    fun oid hoid => messageKnown_persists h (hs.closed oid hoid)⟩

/-- What the transaction knows once the refund is decided. -/
structure Decided (b : StaysBooking) (now : ℤ) (refund : Option StaysLedgerEntry)
    (voids : List String) (s : Store) : Prop where
  row : s.bookings.find? b.id = some b
  rule : RefundRule s b now refund
  orders : ∀ oid ∈ voids, OrderFor s oid b.id
  unpaid : voids ≠ [] → ¬Paid s b.id

variable {b : StaysBooking} {voids : List String} {userId : ℕ} {by' : CancelledBy}
  {outcome : CancelOutcome}

theorem stable_decided (hb : Key.booking b.id ∈ held)
    (he : ∀ e ∈ refund, Key.ledger e.id ∈ held) :
    (discipline env apart payable).Stable c held (Decided b now refund voids) :=
  fun _ _ hs h => ⟨stable_booking hb _ hs.row h, stable_refundRule hb he hs.rule h,
    fun oid hoid => (persistent_orderFor oid b.id).stable (hs.orders oid hoid) h,
    fun hne => stable_unpaid hb (hs.unpaid hne) h⟩

/-- The store after a cancellation is published. -/
theorem publish_cancel (s : Store) (b : StaysBooking) (refund : Option StaysLedgerEntry)
    (is : List StaysPaymentIntent) :
    publish s (.booking b :: (refund.toList.map .ledger ++ cancelWrites is)) =
      { s with
        bookings := s.bookings.put b
        ledger := s.ledger.putAll refund.toList
        intents := s.intents.putAll (is.map cancelled) } := by
  rw [publish_cons, publish_append, publish_cancelWrites]
  cases refund <;> rfl

/-- What the gateway part relies on holds when the cancellation is published. -/
theorem cancelKnown_of_decided {is : List StaysPaymentIntent} (hinv : Consistent s)
    (hamount : 0 < outcome.refundAmount → refund ≠ none)
    (heffect : Effect env apart c held s (.booking { b with status := by'.status } ::
      (refund.toList.map .ledger ++ cancelWrites is)))
    (hs : Decided b now refund outcome.cmiVoidCandidates s) :
    CancelKnown b.id outcome (publish s (.booking { b with status := by'.status } ::
      (refund.toList.map .ledger ++ cancelWrites is))) := by
  refine ⟨fun hpos => ?_, fun oid hoid => ⟨b.id, orderFor_persists heffect (hs.orders oid hoid), ?_⟩⟩
  · obtain ⟨e, rfl⟩ := Option.ne_none_iff_exists'.mp (hamount hpos)
    obtain ⟨-, -, -, -, heq⟩ := hs.rule.entry e rfl
    rw [refunded_iff, publish_cancel]
    exact ⟨e, Table.mem_put_self _ _, by rw [heq]; rfl, by rw [heq]; rfl⟩
  · have hunpaid := hs.unpaid (List.ne_nil_of_mem hoid)
    have hnone : refund = none := by
      by_contra hsome
      obtain ⟨e, rfl⟩ := Option.ne_none_iff_exists'.mp hsome
      exact hunpaid (hs.rule.entry e rfl).2.1
    have hnil : ledgerOf s b.id = [] := by
      by_contra hne
      exact hunpaid ((hinv.ledgers.paid_iff (Table.mem_of_find? hs.row)).mpr hne)
    rw [publish_cancel, hnone]
    refine ⟨hnil, { b with status := by'.status }, Table.find?_key (Table.mem_put_self _ _), ?_⟩
    cases by' <;> simp [CancelledBy.status]

theorem closeCancel_conforms (hb : Key.booking b.id ∈ held)
    (he : ∀ e ∈ refund, Key.ledger e.id ∈ held) (hstatus : b.status ∉ nonCancellable)
    (hamount : 0 < outcome.refundAmount → refund ≠ none)
    (hs : Decided b now refund outcome.cmiVoidCandidates s) :
    (discipline env apart payable).Inside (.cancel b.id userId by' now) (CancelKnown b.id)
      .database (do
        let _ ← Stays.update (cancelPendingIntents b.id)
        pure outcome)
      ⟨held, .booking { b with status := by'.status } :: refund.toList.map .ledger, true⟩ s := by
  refine wp_stage (stable_decided hb he) hs fun s₁ _ hs₁ => ?_
  have hview : ∀ s : Store, (publish s (.booking { b with status := by'.status } ::
      refund.toList.map .ledger)).intents = s.intents := by
    intro s
    cases refund <;> rfl
  have hwrites : cancelPendingIntents b.id (publish s₁ (.booking { b with status := by'.status } ::
      refund.toList.map .ledger)) = cancelWrites (s₁.intents.rows.filter fun i =>
        i.bookingId = b.id ∧ i.status = .pending) := by
    rw [cancelPendingIntents, updateIntents, hview]
    rfl
  rw [hwrites]
  have hrows := pendingRows_of_booking (s := s₁) b.id
  generalize s₁.intents.rows.filter _ = is at hrows ⊢
  refine Inside.return ((stable_decided (by simp [hb]) fun e hmem => by simp [he e hmem]).and
    (stable_pendingRows fun i hi => ?_)) ⟨hs₁, hrows⟩ (persistent_cancelKnown _ _)
    fun s₂ hinv hs₂ => ?_
  · exact List.mem_append_left _ (List.mem_map.mpr ⟨.intent (cancelled i),
      List.mem_map_of_mem hi, rfl⟩)
  · have heffect : ∀ held, Effect env apart (.cancel b.id userId by' now) held s₂
        (.booking { b with status := by'.status } ::
          (refund.toList.map .ledger ++ cancelWrites is)) :=
      fun _ => .cancel rfl hs₂.1.row hstatus hs₂.1.rule hs₂.2
    exact ⟨Or.inr (heffect _), cancelKnown_of_decided hinv hamount (heffect []) hs₂.1⟩

/-- The decision about the refund, under what the transaction knows by then. -/
theorem wp_recordRefund {α : Type} {Q : α → Session Key Write → Store → Prop} {k : ℤ → Stays α}
    {paid : Bool} {amount : ℤ} {pending : List Write} {P : Store → Prop}
    (hb : Key.booking b.id ∈ held) (hsame : SameStay booking b)
    (hledger : ∀ s : Store, (publish s pending).ledger = s.ledger)
    (hP : ∀ {held}, Key.booking b.id ∈ held → (discipline env apart payable).Stable c held P)
    (hs : P s) (hpaid : ∀ s, P s → if paid then Paid s b.id else ¬Paid s b.id)
    (htheory : ∀ s, P s → theoreticalRefund b (s.listings.find? b.listingId) now = amount)
    (h : ∀ s' refund recorded, P s' → RefundRule s' b now refund →
      (0 < recorded → refund ≠ none) → (discipline env apart payable).wp c Q (fun _ _ _ => True)
        (k recorded) ⟨refund.toList.map (fun e => .ledger e.id) ++ held,
          pending ++ refund.toList.map .ledger, true⟩ s') :
    (discipline env apart payable).wp c Q (fun _ _ _ => True) (recordRefund booking paid amount >>= k)
      ⟨held, pending, true⟩ s := by
  have hid : booking.id = b.id := by
    obtain ⟨_, _, rfl⟩ := hsame
    rfl
  have hread : ∀ s : Store, refundsOf b.id (publish s pending) = refundsOf b.id s := by
    intro s
    rw [refundsOf, refundsOf, hledger]
  have hzero : ∀ s, P s → RefundRule s b now none → (discipline env apart payable).wp c Q
      (fun _ _ _ => True) (k 0) ⟨held, pending, true⟩ s := by
    intro s hs hrule
    simpa using h s none 0 hs hrule (by simp)
  refine wp_bind (wp_query (hP hb) hs (fun s₁ _ hs₁ => ?_) fun _ _ _ => wp_throw .true trivial)
  have hview : Session.view ⟨held, pending, true⟩ s₁ = publish s₁ pending := rfl
  rw [hview, hid, hread]
  have hpaid₁ := hpaid s₁ hs₁
  cases paid with
  | false =>
    simp only [Bool.false_eq_true, if_false, false_and] at hpaid₁ ⊢
    exact wp_return (hzero s₁ hs₁ ⟨by simp, fun _ hp => absurd hp hpaid₁⟩)
  | true =>
    simp only [if_true, true_and] at hpaid₁ ⊢
    split_ifs with hrecord
    · obtain ⟨hunrefunded, hpos⟩ := hrecord
      refine wp_stageInsert ((hP hb).and (stable_unrefunded hb)) ⟨hs₁, hunrefunded⟩
        (fun s₂ id _ hs₂ hfresh => ?_) fun _ _ _ => wp_throw .true trivial
      have hnone : s₂.ledger.find? id = none := by
        have hput : ((publish s₂ pending).ledger.find? id).isSome = false := hfresh
        rw [hledger] at hput
        simpa using hput
      have hentry : ledgerEntry booking .refund amount .pending id =
          ledgerEntry b .refund (theoreticalRefund b (s₂.listings.find? b.listingId) now)
            .pending id := by
        obtain ⟨_, _, rfl⟩ := hsame
        rw [htheory s₂ hs₂.1]
        rfl
      refine wp_return (h s₂ (some (ledgerEntry booking .refund amount .pending id)) amount hs₂.1
        ⟨fun e he => ?_, by simp⟩ (by simp))
      obtain rfl := Option.some.inj he
      exact ⟨hnone, by simpa using hpaid s₂ hs₂.1, hs₂.2, hpos, hentry⟩
    · refine wp_return (hzero s₁ hs₁ ⟨by simp, fun _ _ => ?_⟩)
      rw [htheory s₁ hs₁]
      by_cases hrefunded : refundsOf b.id s₁ = []
      · have hle : ¬0 < amount := fun hpos => hrecord ⟨hrefunded, hpos⟩
        exact Or.inr (not_lt.mp hle)
      · exact Or.inl hrefunded

/-- Whether the booking was found paid, under its lock. -/
theorem stable_settled {bookingId : ℕ} {paid : Bool} (hb : Key.booking bookingId ∈ held) :
    (discipline env apart payable).Stable c held
      fun s => if paid then Paid s bookingId else ¬Paid s bookingId := by
  cases paid with
  | false => exact stable_unpaid hb
  | true => exact (persistent_paid bookingId).stable

/-- The orders a cancellation releases are orders of the booking. -/
theorem orders_of_openCmiIntents {bookingId : ℕ} {oid : String}
    (h : oid ∈ (openCmiIntents bookingId s).filterMap (·.providerIntentId)) :
    OrderFor s oid bookingId := by
  obtain ⟨i, hi, hoid⟩ := List.mem_filterMap.mp h
  obtain ⟨hmem, hof⟩ := List.mem_filter.mp hi
  obtain ⟨hbook, hcmi, -⟩ := of_decide_eq_true hof
  exact ⟨i, mem_intentsOf.mpr ⟨hmem, hcmi, hoid⟩, hbook⟩

/-- The transaction, for a booking and a listing that were read before. -/
theorem cancelTransaction_conforms {listing : Option StaysListing}
    (hstay : ∃ r, s.bookings.find? booking.id = some r ∧ SameStay booking r)
    (hpolicy : policyOf (s.listings.find? booking.listingId) = policyOf listing) :
    (discipline env apart payable).Inside (.cancel booking.id userId by' now)
      (CancelKnown booking.id) .database
      (cancelTransaction booking by'.status (theoreticalRefund booking listing now)) .opened s := by
  have hread : (discipline env apart payable).Persistent _ :=
    (persistent_stay booking
    booking.id).and (persistent_policy booking.listingId (policyOf listing))
  unfold cancelTransaction
  refine wp_lockRow_opened hread.stable ⟨hstay, hpolicy⟩ (fun s₁ _ hs₁ habsent => ?_)
    fun s₁ _ hs₁ _ _ => ?_
  · obtain ⟨r, hr, -⟩ := hs₁.1
    simp [Storage.present, Store.present, hr] at habsent
  obtain ⟨⟨b, hrow, hsame⟩, hpolicy₁⟩ := hs₁
  have hid : b.id = booking.id := Table.key_of_find? hrow
  have hP : ∀ {c held}, Key.booking b.id ∈ held → (discipline env apart payable).Stable c held
      fun s => s.bookings.find? b.id = some b ∧
        policyOf (s.listings.find? booking.listingId) = policyOf listing :=
    fun hb => (stable_booking hb _).and (persistent_policy booking.listingId _).stable
  have htheory : ∀ s : Store, s.bookings.find? b.id = some b ∧
      policyOf (s.listings.find? booking.listingId) = policyOf listing →
      theoreticalRefund b (s.listings.find? b.listingId) now =
        theoreticalRefund booking listing now := by
    intro s hs
    obtain ⟨_, _, rfl⟩ := hsame
    exact (theoreticalRefund_congr ⟨_, _, rfl⟩ hs.2.symm).symm
  rw [hrow]
  have hs₁ : s₁.bookings.find? b.id = some b ∧
    policyOf (s₁.listings.find? booking.listingId) = policyOf listing := ⟨by rw [hid, hrow], hpolicy₁⟩
  refine wp_expect (hP (by simp [hid])) hs₁ fun b' hb' => ?_
  obtain rfl : b = b' := Option.some.inj hb'
  refine wp_require (hP (by simp [hid])) hs₁ fun hstatus => ?_
  refine wp_stage (hP (by simp [hid])) hs₁ fun s₂ _ hs₂ => ?_
  rw [← hid, updateBooking_of_row (s := publish s₂ []) hs₂.1]
  simp only [decide_true, if_true, List.map_cons, List.map_nil, List.nil_append, List.cons_append]
  refine wp_require (hP (by simp)) hs₂ fun _ => ?_
  refine wp_query (hP (by simp)) hs₂ fun s₃ _ hs₃ => ?_
  obtain ⟨paid, hpaid⟩ : ∃ paid : Bool, paid = decide (settledGuestPayment s₃ b.id ≠ []) := ⟨_, rfl⟩
  have hsettled : if paid then Paid s₃ b.id else ¬Paid s₃ b.id := by
    by_cases h : settledGuestPayment s₃ b.id = [] <;> simp [hpaid, h, Paid]
  have hview : ∀ held, decide (settledGuestPayment (Session.view
      ⟨held, [.booking { b with status := by'.status }], true⟩ s₃) b.id ≠ []) = paid :=
    fun _ => hpaid.symm
  simp only [hview]
  refine wp_recordRefund (b := b) (by simp) hsame (fun _ => rfl) (fun hb => (hP hb).and
    (stable_settled hb)) ⟨hs₃, hsettled⟩ (fun _ hs => hs.2) (fun s hs => htheory s hs.1)
    fun s₄ refund recorded hs₄ hrule hrecorded => ?_
  have hb : ∀ keys, Key.booking b.id ∈ keys ++ [Key.booking b.id, Key.booking b.id] :=
    fun _ => List.mem_append_right _ (by simp)
  have he : ∀ e ∈ refund, Key.ledger e.id ∈
      refund.toList.map (fun e => Key.ledger e.id) ++ [Key.booking b.id, Key.booking b.id] :=
    fun e he => List.mem_append_left _ (List.mem_map_of_mem (Option.mem_toList.mpr he))
  have hP' : (discipline env apart payable).Stable (.cancel b.id userId by' now)
      (refund.toList.map (fun e => Key.ledger e.id) ++ [Key.booking b.id, Key.booking b.id])
      fun s => ((s.bookings.find? b.id = some b ∧
        policyOf (s.listings.find? booking.listingId) = policyOf listing) ∧
        if paid then Paid s b.id else ¬Paid s b.id) ∧ RefundRule s b now refund :=
    ((hP (hb _)).and (stable_settled (hb _))).and (stable_refundRule (hb _) he)
  refine wp_query hP' ⟨hs₄, hrule⟩ fun s₅ _ hs₅ => ?_
  have hopen : ∀ held, openCmiIntents b.id (Session.view ⟨held,
      [.booking { b with status := by'.status }] ++ refund.toList.map .ledger, true⟩ s₅) =
        openCmiIntents b.id s₅ := by
    intro held
    cases refund <;> rfl
  simp only [hopen]
  have hdecided : Decided b now refund
      ((if paid then [] else openCmiIntents b.id s₅).filterMap (·.providerIntentId)) s₅ := by
    refine ⟨hs₅.1.1.1, hs₅.2, fun oid hoid => ?_, fun hne => ?_⟩ <;> cases paid
    · exact orders_of_openCmiIntents hoid
    · simp at hoid
    · exact hs₅.1.2
    · simp at hne
  exact closeCancel_conforms (hb _) he hstatus hrecorded hdecided

theorem cancelAtGateway_conforms {bookingId : ℕ} (hinv : Consistent s)
    (hs : CancelKnown bookingId outcome s) :
    (discipline env apart payable).Outside c (fun _ _ => True)
      (cancelAtGateway env bookingId outcome) s := by
  unfold cancelAtGateway
  split_ifs with hmock hrefund
  · exact Outside.pure .true trivial
  · have hbody : (discipline env apart payable).Outside c (fun _ _ => True) (do
        let _ ← refundCmiForBooking bookingId outcome.refundAmount
        pure ()) s :=
      Outside.bind .true trivial (refundCmiForBooking_conforms (hs.refunded hrefund.2))
        fun _ _ _ _ _ => Outside.pure .true trivial
    exact Outside.attempt .true trivial hbody (fun _ => .true) (fun _ _ _ _ _ => trivial)
      fun _ _ _ _ => Outside.pure .true trivial
  · refine Outside.forEach (persistent_cancelKnown bookingId outcome) outcome.cmiVoidCandidates
      (fun oid hoid s' _ hs' => ?_) hs hinv
    exact Outside.attempt .true trivial
      (voidCmiPreAuth_conforms (n := 0) (fun _ => hs'.closed oid hoid) (Nat.zero_le _))
      (fun _ => .true) (fun _ _ _ _ _ => trivial) fun _ _ _ _ => Outside.pure .true trivial

/-- `cancel` keeps to the discipline. -/
theorem cancel_conforms {bookingId : ℕ} :
    (discipline env apart payable).Outside (.cancel bookingId userId by' now) (fun _ _ => True)
      (cancel env bookingId userId by' now) s := by
  unfold cancel
  refine wp_query .true trivial (fun s₁ _ _ => ?_) fun _ _ _ => rfl
  have hview : Session.idle.view s₁ = s₁ := rfl
  rw [hview]
  cases hrow : s₁.bookings.find? bookingId with
  | none => exact Outside.throw
  | some booking =>
    have hid : booking.id = bookingId := Table.key_of_find? hrow
    have hP : (discipline env apart payable).Persistent _ :=
      (persistent_stay booking
      booking.id).and (persistent_policy booking.listingId
        (policyOf (s₁.listings.find? booking.listingId)))
    have hs₁ : (∃ r, s₁.bookings.find? booking.id = some r ∧ SameStay booking r) ∧
        policyOf (s₁.listings.find? booking.listingId) =
          policyOf (s₁.listings.find? booking.listingId) :=
      ⟨⟨booking, by rw [hid, hrow], .refl booking⟩, rfl⟩
    subst hid
    refine wp_require hP.stable hs₁ (fun _ => ?_) fun _ _ _ => rfl
    refine wp_require hP.stable hs₁ (fun _ => ?_) fun _ _ _ => rfl
    refine wp_require hP.stable hs₁ (fun _ => ?_) fun _ _ _ => rfl
    refine wp_require hP.stable hs₁ (fun _ => ?_) fun _ _ _ => rfl
    refine Outside.bind .true trivial (Outside.transaction (cancelTransaction_conforms hs₁.1 hs₁.2))
      fun outcome s₂ hinv _ hs₂ => ?_
    refine Outside.bind .true trivial (cancelAtGateway_conforms hinv hs₂) fun _ s₃ _ _ _ => ?_
    refine wp_query .true trivial (fun s₄ _ _ => ?_) fun _ _ _ => rfl
    exact wp_expect .true trivial (fun _ _ => Outside.pure .true trivial) fun _ _ _ => rfl

end NexaStays.Conformance
