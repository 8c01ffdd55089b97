import NexaStays.Conformance.Payments

/-!
# The confirmation of a payment keeps to the discipline

The transaction locks the intent, then the booking. What it has read of them stays
true to its commit, and its outcome says what is true of the booking from then on.
-/
namespace NexaStays.Conformance

open NexaStays.KeyedTable NexaStays.Transactions NexaStays.RelyGuarantee NexaStays.Database
  NexaStays.Money NexaStays.Availability NexaStays.Payments NexaStays.Cancellation NexaStays.Calls
  NexaStays.Effects NexaStays.Persistence NexaStays.Invariant NexaStays.Interference

open NexaStays.RelyGuarantee.Discipline

variable {env : Env} {apart payable : Prop} {s : Store} {c : Call} {oid : String} {n : ℕ}
  {held : List Key}

/-- What an outcome says about the booking of the intent, once the transaction is over. -/
def Outcome (payable : Prop) (c : Call) (bookingId : ℕ) :
    PaymentConfirmationOutcome → Store → Prop
  | .confirmed, s | .alreadyProcessed, s => Paid s bookingId
  | .datesUnavailable, s => ClosedUnpaid s bookingId
  | .bookingNotPayable, _ => payable → ∀ body, c ≠ .handleCmiCallback body
  | .intentNotFound, _ => False

theorem persistent_outcome (bookingId : ℕ) (outcome : PaymentConfirmationOutcome) :
    (discipline env apart payable).Persistent (Outcome payable c bookingId outcome) := by
  cases outcome with
  | confirmed => exact persistent_paid bookingId
  | alreadyProcessed => exact persistent_paid bookingId
  | datesUnavailable => exact persistent_closedUnpaid bookingId
  | bookingNotPayable => exact fun _ _ _ _ _ _ h => h
  | intentNotFound => exact fun _ _ _ _ _ _ h => h

/-- The rows the transaction has locked, as it has read them. -/
structure Locked (intent : StaysPaymentIntent) (booking : StaysBooking) (s : Store) : Prop where
  intent : s.intents.find? intent.id = some intent
  booking : s.bookings.find? booking.id = some booking

theorem stable_locked {intent : StaysPaymentIntent} {booking : StaysBooking}
    (hi : Key.intent intent.id ∈ held) (hb : Key.booking booking.id ∈ held) :
    (discipline env apart payable).Stable c held (Locked intent booking) :=
  fun _ _ hs h => ⟨stable_intent hi _ hs.intent h, stable_booking hb _ hs.booking h⟩

theorem setIntentStatus_of_row {id : ℕ} {status : IntentStatus} {i : StaysPaymentIntent}
    (hrow : s.intents.find? id = some i) :
    setIntentStatus id status s = [.intent { i with status }] := by
  rw [setIntentStatus, updateIntents_eq, hrow]
  rfl

/-- The guarded update of a booking that awaits payment, after the one of the intent. -/
theorem updatePending_of_row {f : StaysBooking → StaysBooking} {i : StaysPaymentIntent}
    {b : StaysBooking} (hrow : s.bookings.find? b.id = some b) (hstatus : b.status = .paymentPending) :
    updateBooking b.id (fun b => b.status = .paymentPending) f (publish s [.intent i]) =
      [.booking (f b)] := by
  have hrow' : (publish s [.intent i]).bookings.find? b.id = some b := hrow
  rw [updateBooking_of_row hrow', hstatus]
  rfl

/-- A number that is fresh after another ledger row was written. -/
theorem fresh_put (t : Table StaysLedgerEntry.id) (e : StaysLedgerEntry) (id : ℕ)
    (h : ((t.put e).find? id).isSome = false) : e.id ≠ id ∧ t.find? id = none := by
  rw [Table.find?_put] at h
  split_ifs at h with hid
  · simp at h
  · exact ⟨fun heq => hid heq.symm, by simpa using h⟩

/-- The rows of the payment, as the transaction has numbered them. -/
structure Numbered (id₁ id₂ id₃ : ℕ) (s : Store) : Prop where
  guestPayment : s.ledger.find? id₁ = none
  platformFee : s.ledger.find? id₂ = none
  hostPayout : s.ledger.find? id₃ = none

theorem stable_numbered {id₁ id₂ id₃ : ℕ} (h₁ : Key.ledger id₁ ∈ held) (h₂ : Key.ledger id₂ ∈ held)
    (h₃ : Key.ledger id₃ ∈ held) :
    (discipline env apart payable).Stable c held (Numbered id₁ id₂ id₃) :=
  fun _ _ hs h => ⟨stable_ledger h₁ _ hs.guestPayment h, stable_ledger h₂ _ hs.platformFee h,
    stable_ledger h₃ _ hs.hostPayout h⟩

theorem confirm_effect {intent : StaysPaymentIntent} {booking : StaysBooking} {id₁ id₂ id₃ : ℕ}
    (hcaller : Confirms env c intent) (hbook : intent.bookingId = booking.id)
    (hstatus : booking.status = .paymentPending) (hs : Locked intent booking s)
    (hn : Numbered id₁ id₂ id₃ s) (hne : id₁ ≠ id₂ ∧ id₁ ≠ id₃ ∧ id₂ ≠ id₃) :
    Effect env apart c held s [.intent { intent with status := .succeeded },
      .booking { booking with status := .confirmed },
      .ledger (ledgerEntry booking .guestPayment intent.amount .settled id₁),
      .ledger (ledgerEntry booking .platformFee (booking.guestFee + booking.hostFee) .settled id₂),
      .ledger (ledgerEntry booking .hostPayout (booking.payoutAmount.getD 0) .pending id₃)] := by
  refine .confirm hcaller hs.intent hs.booking hbook hstatus ⟨rfl, rfl, rfl, hne⟩ ?_
  simp only [List.forall_mem_cons, List.not_mem_nil, false_imp_iff, implies_true, and_true]
  exact ⟨hn.guestPayment, hn.platformFee, hn.hostPayout⟩

theorem recordPayment_conforms {intent : StaysPaymentIntent} {booking : StaysBooking}
    (hcaller : Confirms env c intent) (hbook : intent.bookingId = booking.id)
    (hstatus : booking.status = .paymentPending) (hi : Key.intent intent.id ∈ held)
    (hb : Key.booking booking.id ∈ held) (hs : Locked intent booking s) :
    (discipline env apart payable).Inside c (Outcome payable c intent.bookingId) .database
      (recordPayment intent booking) ⟨held, [], true⟩ s := by
  unfold recordPayment
  dsimp only
  split
  · exact wp_throw .true trivial
  refine wp_stage (stable_locked hi hb) hs fun s₁ _ hs₁ => ?_
  rw [setIntentStatus_of_row (s := publish s₁ []) hs₁.intent]
  refine wp_stage (stable_locked (by simp [hi]) (by simp [hb])) hs₁ fun s₂ _ hs₂ => ?_
  rw [List.nil_append, updatePending_of_row hs₂.booking hstatus, if_neg (List.cons_ne_nil _ _)]
  refine wp_stageInsert (stable_locked (by simp [hi]) (by simp [hb])) hs₂ fun s₃ id₁ _ hs₃ h₁ => ?_
  have h₁ : s₃.ledger.find? id₁ = none := by
    simpa [Storage.present, Store.present, Write.key, ledgerEntry, Store.write] using h₁
  refine wp_stageInsert ((stable_locked (by simp [hi]) (by simp [hb])).and
    (stable_ledger (by simp [Write.key, ledgerEntry]) none)) ⟨hs₃, h₁⟩ fun s₄ id₂ _ hs₄ h₂ => ?_
  obtain ⟨hne₁₂, h₂⟩ := fresh_put s₄.ledger
    (ledgerEntry booking .guestPayment intent.amount .settled id₁) id₂ h₂
  refine wp_stageInsert (((stable_locked (by simp [hi]) (by simp [hb])).and
    (stable_ledger (by simp [Write.key, ledgerEntry]) none)).and
    (stable_ledger (by simp [Write.key, ledgerEntry]) none)) ⟨hs₄, h₂⟩ fun s₅ id₃ _ hs₅ h₃ => ?_
  obtain ⟨hne₂₃, h₃⟩ := fresh_put (s₅.ledger.put
    (ledgerEntry booking .guestPayment intent.amount .settled id₁))
    (ledgerEntry booking .platformFee (booking.guestFee + booking.hostFee) .settled id₂) id₃ h₃
  obtain ⟨hne₁₃, h₃⟩ := fresh_put s₅.ledger
    (ledgerEntry booking .guestPayment intent.amount .settled id₁) id₃ (by rw [h₃]; rfl)
  have hP : (discipline env apart payable).Stable c
      ([.ledger id₃, .ledger id₂, .ledger id₁, .booking booking.id, .intent intent.id] ++ held)
      fun s => Locked intent booking s ∧ Numbered id₁ id₂ id₃ s :=
    (stable_locked (by simp) (by simp)).and (stable_numbered (by simp) (by simp) (by simp))
  refine wp_query hP ⟨hs₅.1.1, hs₅.1.2, hs₅.2, h₃⟩ fun s₆ _ hs₆ => ?_
  refine Inside.return hP hs₆ (persistent_outcome _ _) fun s₇ _ hs₇ => ⟨Or.inr ?_, ?_⟩
  · exact confirm_effect hcaller hbook hstatus hs₇.1 hs₇.2 ⟨hne₁₂, hne₁₃, hne₂₃⟩
  · have hset : Settlement intent booking
        (ledgerEntry booking .guestPayment intent.amount .settled id₁)
        (ledgerEntry booking .platformFee (booking.guestFee + booking.hostFee) .settled id₂)
        (ledgerEntry booking .hostPayout (booking.payoutAmount.getD 0) .pending id₃) :=
      ⟨rfl, rfl, rfl, hne₁₂, hne₁₃, hne₂₃⟩
    rw [hbook]
    exact paid_of_settlement hset (t := s₇.ledger) rfl

theorem closedUnpaid_of_expired (hinv : Consistent s) {b : StaysBooking} {i : StaysPaymentIntent}
    (hrow : s.bookings.find? b.id = some b) (hstatus : b.status = .paymentPending) :
    ClosedUnpaid (publish s [.intent i, .booking { b with status := .expired }]) b.id := by
  have hnil : ledgerOf s b.id = [] :=
    ledgerOf_pre hinv (Table.mem_of_find? hrow) (by simp [hstatus, preConfirmationBookingStatuses])
  refine ⟨hnil, { b with status := .expired }, ?_, by simp⟩
  exact Table.find?_key (Table.mem_put_self _ _)

/-- From the lock of a booking that awaits payment on. -/
theorem confirmBooking_conforms {intent : StaysPaymentIntent} {booking : StaysBooking}
    (hcaller : Confirms env c intent) (hbook : intent.bookingId = booking.id)
    (hstatus : booking.status = .paymentPending) (hunpaid : intent.status ≠ .succeeded)
    (hi : Key.intent intent.id ∈ held) (hb : Key.booking booking.id ∈ held)
    (hs : Locked intent booking s) :
    (discipline env apart payable).Inside c (Outcome payable c intent.bookingId) .database
      (confirmBooking intent booking) ⟨held, [], true⟩ s := by
  have hrest : ∀ {held s}, Key.intent intent.id ∈ held → Key.booking booking.id ∈ held →
      Locked intent booking s →
      (discipline env apart payable).Inside c (Outcome payable c intent.bookingId) .database (do
        let stillAvailable ← isListingAvailable booking.listingId booking.checkinDate
          booking.checkoutDate (some booking.id)
        if stillAvailable then recordPayment intent booking
        else do
          let _ ← Stays.update (setIntentStatus intent.id .failed)
          let _ ← Stays.update (updateBooking booking.id (fun b => b.status = .paymentPending)
            fun b => { b with status := .expired })
          pure .datesUnavailable) ⟨held, [], true⟩ s := by
    intro held s hi hb hs
    refine wp_isListingAvailable rfl (stable_locked hi hb) hs .true (fun _ _ => trivial)
      fun s₁ available _ hs₁ _ => ?_
    split_ifs
    · exact recordPayment_conforms hcaller hbook hstatus hi hb hs₁
    refine wp_stage (stable_locked hi hb) hs₁ fun s₂ _ hs₂ => ?_
    rw [setIntentStatus_of_row (s := publish s₂ []) hs₂.intent]
    refine wp_stage (stable_locked (by simp [hi]) (by simp [hb])) hs₂ fun s₃ _ hs₃ => ?_
    rw [List.nil_append, updatePending_of_row hs₃.booking hstatus]
    refine Inside.return (stable_locked (by simp [hi]) (by simp [hb])) hs₃ (persistent_outcome _ _)
      fun s₄ hinv hs₄ => ⟨Or.inr ?_, ?_⟩
    · exact .reject hs₄.intent hunpaid hs₄.booking hstatus
    · rw [hbook]
      exact closedUnpaid_of_expired hinv hs₄.booking hstatus
  exact wp_lockRow_opened (stable_locked hi hb) hs (fun s₁ _ hs₁ _ => hrest hi hb hs₁)
    fun s₁ _ hs₁ _ _ => hrest (by simp [hi]) (by simp [hb]) hs₁

/-- From the lock of an intent that has not succeeded on. -/
theorem settleIntent_conforms {intent : StaysPaymentIntent} (hcaller : Confirms env c intent)
    (hunpaid : intent.status ≠ .succeeded) (hs : s.intents.find? intent.id = some intent) :
    (discipline env apart payable).Inside c (Outcome payable c intent.bookingId) .database
      (settleIntent intent) ⟨[.intent intent.id], [], true⟩ s := by
  have hP : ∀ {held}, Key.intent intent.id ∈ held → (discipline env apart payable).Stable c held
      fun s => s.intents.find? intent.id = some intent := fun hi => stable_intent hi _
  unfold settleIntent
  refine wp_query (hP (by simp)) hs fun s₁ _ hs₁ => ?_
  have hview : settledGuestPayment (Session.view ⟨[.intent intent.id], [], true⟩ s₁)
    intent.bookingId = settledGuestPayment s₁ intent.bookingId := rfl
  rw [hview]
  split_ifs with hpaid
  · have hP' : ∀ {held}, Key.intent intent.id ∈ held → (discipline env apart payable).Stable c held
        fun s => s.intents.find? intent.id = some intent ∧ Paid s intent.bookingId :=
      fun hi => (hP hi).and (persistent_paid intent.bookingId).stable
    refine wp_stage (hP' (by simp)) ⟨hs₁, hpaid⟩ fun s₂ _ hs₂ => ?_
    rw [setIntentStatus_of_row (s := publish s₂ []) hs₂.1]
    refine Inside.return (hP' (by simp)) hs₂ (persistent_outcome _ _) fun s₃ hinv hs₃ => ?_
    have heffect : ∀ held, Effect env apart c held s₃ [.intent { intent with status := .succeeded }] :=
      fun _ => .markPaid hs₃.1 hs₃.2
    exact ⟨Or.inr (heffect _), paid_persists (heffect []) hs₃.2⟩
  refine wp_lockRow_opened (hP (by simp)) hs₁ (fun s₂ hinv hs₂ habsent => ?_)
    fun s₂ hinv hs₂ hguard _ => ?_
  · obtain ⟨b, hb, -⟩ := hinv.intents.booking intent (Table.mem_of_find? hs₂)
    simp [Storage.present, Store.present, hb] at habsent
  obtain ⟨booking, hb, -⟩ := hinv.intents.booking intent (Table.mem_of_find? hs₂)
  have hid : booking.id = intent.bookingId := Table.key_of_find? hb
  have hlocked : Locked intent booking s₂ := ⟨hs₂, by rw [hid, hb]⟩
  have hmem : booking ∈ s₂.bookings.rows := Table.mem_of_find? hb
  have hreturn : ∀ outcome, Outcome payable c intent.bookingId outcome s₂ →
      (discipline env apart payable).Inside c (Outcome payable c intent.bookingId) StaysError.database
        (.pure outcome) ⟨[.booking intent.bookingId, .intent intent.id], [], true⟩ s₂ :=
    fun outcome h => Inside.return (persistent_outcome intent.bookingId outcome).stable h
      (persistent_outcome intent.bookingId outcome) fun s₃ _ hs₃ => ⟨Or.inl rfl, hs₃⟩
  rw [hb]
  dsimp only
  split_ifs with hstatus hconfirmed
  · exact confirmBooking_conforms hcaller hid.symm hstatus hunpaid (by simp) (by simp [hid]) hlocked
  · exact hreturn .alreadyProcessed (hid ▸ paid_of_confirmed hinv hmem hconfirmed)
  · refine hreturn .bookingNotPayable fun hpayable body hcall => ?_
    obtain ⟨b, hb', hstatus'⟩ := hguard hpayable body intent.bookingId hcall rfl
    obtain rfl : booking = b := Option.some.inj (hb.symm.trans hb')
    exact hstatus'.elim hstatus hconfirmed

theorem confirms_of_sameOrder {i i' : StaysPaymentIntent} (h : Confirms env c i)
    (hsame : SameOrder i i') : Confirms env c i' := by
  obtain ⟨_, _, rfl⟩ := hsame
  exact h

/-- The transaction, for an intent that was read before. -/
theorem confirmTransaction_conforms {intent : StaysPaymentIntent} (hcaller : Confirms env c intent)
    (hs : OrderKept intent s) :
    (discipline env apart payable).Inside c (Outcome payable c intent.bookingId) .database
      (confirmTransaction intent.id) .opened s := by
  unfold confirmTransaction
  refine wp_lockRow_opened (persistent_order intent).stable hs (fun s₁ _ hs₁ habsent => ?_)
    fun s₁ hinv hs₁ _ _ => ?_
  · obtain ⟨i, hrow, -⟩ := find?_of_orderKept hs₁
    simp [Storage.present, Store.present, hrow] at habsent
  obtain ⟨i, hrow, hsame⟩ := find?_of_orderKept hs₁
  have hmem : i ∈ s₁.intents.rows := Table.mem_of_find? hrow
  have hid : i.id = intent.id := Table.key_of_find? hrow
  have hbook : i.bookingId = intent.bookingId := by
    obtain ⟨_, _, rfl⟩ := hsame
    rfl
  rw [hrow, ← hbook]
  dsimp only
  split_ifs with hstatus
  · have hpaid : Paid s₁ i.bookingId := hinv.intents.succeeded i hmem hstatus
    exact Inside.return (persistent_paid i.bookingId).stable hpaid (persistent_outcome _ _)
      fun s₂ _ hs₂ => ⟨Or.inl rfl, hs₂⟩
  · rw [← hid]
    exact settleIntent_conforms (confirms_of_sameOrder hcaller hsame) hstatus (by rw [hid, hrow])

/-- What the gateway has been asked for an order when the handler returns. -/
def Asked (payable : Prop) (c : Call) (provider : Provider) (oid : String) (n : ℕ)
    (outcome : PaymentConfirmationOutcome) (s : Store) : Prop :=
  provider = .cmi → oid ≠ "" → outcome ≠ .intentNotFound →
    (payable → ∀ body, c ≠ .handleCmiCallback body) ∨ Sent .postAuth oid 0 s ∨ Sent .void oid n s

theorem persistent_asked (provider : Provider) (outcome : PaymentConfirmationOutcome) :
    (discipline env apart payable).Persistent (Asked payable c provider oid n outcome) := by
  refine .forall fun _ => .forall fun _ => .forall fun _ => ?_
  intro c' held s ws hinv heffect h
  obtain h | h | h := h
  · exact Or.inl h
  · exact Or.inr (Or.inl ((persistent_sent _ _ _ : (discipline env apart payable).Persistent _) hinv heffect h))
  · exact Or.inr (Or.inr ((persistent_sent _ _ _ : (discipline env apart payable).Persistent _) hinv heffect h))

theorem afterConfirmation_conforms {provider : Provider} {intent : StaysPaymentIntent}
    {outcome : PaymentConfirmationOutcome} (hseen : Seen intent s) (hprovider : intent.provider = provider)
    (hoid : intent.providerIntentId = some oid) (hn : Reached n s)
    (hs : Outcome payable c intent.bookingId outcome s) :
    (discipline env apart payable).Outside c
      (fun _ => Asked payable c provider oid n outcome)
      (afterConfirmation provider oid intent outcome) s := by
  have hasked : (discipline env apart payable).Persistent (Asked payable c provider oid n outcome) :=
    persistent_asked provider outcome
  have hintent : provider = .cmi → OrderFor s oid intent.bookingId := by
    intro hcmi
    obtain ⟨i, hmem, ⟨_, _, rfl⟩, -⟩ := hseen.1
    exact ⟨_, mem_intentsOf.mpr ⟨hmem, hprovider.trans hcmi, hoid⟩, rfl⟩
  have hpost : provider = .cmi → Paid s intent.bookingId → MessageKnown s oid .postAuth :=
    fun hcmi hpaid => ⟨intent.bookingId, hintent hcmi, hpaid⟩
  cases provider with
  | mock =>
    have hmock : afterConfirmation .mock oid intent outcome = pure () := by cases outcome <;> rfl
    rw [hmock]
    exact Outside.pure hasked.stable fun hcmi => by simp at hcmi
  | cmi =>
    cases outcome with
    | intentNotFound => exact hs.elim
    | bookingNotPayable => exact Outside.pure hasked.stable fun _ _ _ => Or.inl hs
    | confirmed =>
      have hrow : ∀ i ∈ some intent, Seen i s ∧ i.providerIntentId = some oid := by
        rintro i ⟨⟩
        exact ⟨hseen, hoid⟩
      exact wp_mono (fun _ ses s' _ h => ⟨h.1, fun _ _ _ => Or.inr (Or.inl h.2)⟩) (fun _ _ _ _ h => h)
        (captureCmiAfterConfirm_conforms hrow (hpost rfl hs))
    | alreadyProcessed =>
      have hrow : ∀ i ∈ (none : Option StaysPaymentIntent),
          Seen i s ∧ i.providerIntentId = some oid := by simp
      exact wp_mono (fun _ ses s' _ h => ⟨h.1, fun _ _ _ => Or.inr (Or.inl h.2)⟩) (fun _ _ _ _ h => h)
        (captureCmiAfterConfirm_conforms hrow (hpost rfl hs))
    | datesUnavailable =>
      exact wp_mono (fun _ ses s' _ h => ⟨h.1, fun _ hne _ => Or.inr (Or.inr (h.2 hne))⟩)
        (fun _ _ _ _ h => h)
        (voidCmiPreAuth_conforms (fun _ => ⟨intent.bookingId, hintent rfl, hs⟩) hn)

/-- `confirmPaymentSuccess` keeps to the discipline. -/
theorem confirmPaymentSuccess_conforms {provider : Provider}
    (hcaller : ∀ i : StaysPaymentIntent, i.provider = provider → i.providerIntentId = some oid →
      Confirms env c i) (hn : Reached n s) :
    (discipline env apart payable).Outside c (Asked payable c provider oid n)
      (confirmPaymentSuccess provider oid) s := by
  have hasked : ∀ outcome,
      (discipline env apart payable).Persistent (Asked payable c provider oid n outcome) :=
    persistent_asked provider
  unfold confirmPaymentSuccess
  refine wp_findOne (persistent_reached n).stable hn (fun s₁ found hinv hs₁ hsome _ => ?_)
    fun _ _ _ => rfl
  cases found with
  | none => exact Outside.pure (hasked _).stable fun _ _ hfound => absurd rfl hfound
  | some intent =>
    obtain ⟨hmem, hprovider, hoid⟩ := mem_intentsOf.mp (hsome intent rfl)
    refine Outside.bind ((persistent_seen intent).and (persistent_reached n))
      ⟨seen_of_mem hinv hmem, hs₁⟩ (Outside.transaction (confirmTransaction_conforms
        (hcaller intent hprovider hoid) (orderKept_of_mem hmem))) fun outcome s₂ _ hs₂ houtcome => ?_
    refine Outside.bind .true trivial (afterConfirmation_conforms hs₂.1 hprovider hoid hs₂.2 houtcome)
      fun _ s₃ _ _ hs₃ => ?_
    exact Outside.pure (hasked outcome).stable hs₃

/-- `handleCmiCallback` keeps to the discipline. -/
theorem handleCmiCallback_conforms {body : CallbackBody} (hn : Reached n s) :
    (discipline env apart payable).Outside (.handleCmiCallback body)
      (fun outcome s => body.order ≠ "" ∧ ∀ o, outcome = some o →
        Asked payable (.handleCmiCallback body) .cmi body.order n o s)
      (handleCmiCallback env body) s := by
  have hR : ∀ outcome, (discipline env apart payable).Persistent fun s => body.order ≠ "" ∧
      ∀ o, outcome = some o → Asked payable (.handleCmiCallback body) .cmi body.order n o s :=
    fun outcome => Persistent.and (fun _ _ _ _ _ _ h => h)
      (.forall fun o => .forall fun _ => persistent_asked _ o)
  unfold handleCmiCallback
  dsimp only
  refine wp_require (persistent_reached n).stable hn (fun _ => ?_) fun _ _ _ => rfl
  refine wp_expect (persistent_reached n).stable hn (fun oid horder => ?_) fun _ _ _ => rfl
  obtain ⟨rfl, hne⟩ := verifyCallback_order horder
  split_ifs with hsuccess
  · refine Outside.bind .true trivial (confirmPaymentSuccess_conforms (fun i hcmi hoid => ?_) hn)
      fun outcome s₁ _ _ hs₁ => Outside.pure (hR _).stable ⟨hne, fun o ho => ?_⟩
    · exact ⟨_, hoid, Or.inr ⟨body, rfl, hsuccess, horder⟩⟩
    · obtain rfl : outcome = o := Option.some.inj ho
      exact hs₁
  · exact Outside.pure (hR none).stable ⟨hne, by simp⟩

/-- A callback that arrives keeps to the discipline, and deals with its authorisation. -/
theorem receiveCallback_conforms {body : CallbackBody} :
    (discipline env apart payable).Outside (.handleCmiCallback body)
      (Answers payable (.handleCmiCallback body)) (receiveCallback env body) s := by
  unfold receiveCallback
  refine Outside.bind .true trivial (sendToGateway_conforms (n := 0)
    (show MessageKnown _ _ .callback from trivial) (Nat.zero_le _)) fun arrival s₁ hinv _ harrival => ?_
  have hreached : Reached (arrival.seq + 1) s₁ := hinv.gateway.numbered arrival harrival.2.2.2
  refine Outside.bind (persistent_message arrival) harrival.2.2.2 (handleCmiCallback_conforms hreached)
    fun outcome s₂ _ hmem hs₂ => Outside.pure (persistent_answers _).stable ?_
  cases outcome with
  | none => trivial
  | some o =>
    refine ⟨⟨arrival, hmem, rfl, harrival.1, harrival.2.1⟩, ?_⟩
    intro hpayable hfound
    obtain hnot | ⟨m, hm, hop, hoid, -⟩ | ⟨m, hm, hop, hoid, hseq⟩ :=
      hs₂.2 o rfl rfl hs₂.1 hfound
    · exact absurd rfl (hnot hpayable body)
    · exact ⟨m, hm, hoid, Or.inl hop⟩
    · exact ⟨m, hm, hoid, Or.inr ⟨hop, hseq⟩⟩

end NexaStays.Conformance
