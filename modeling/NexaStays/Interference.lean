import NexaStays.Invariant

/-!
# The protocol of the calls

The discipline that every call of the service keeps to: it publishes effects only, and
they keep the invariant of the store. What a call has read stays true while it holds
the lock of the row, or because no effect takes it back.
-/
namespace NexaStays.Interference

open NexaStays.KeyedTable NexaStays.Transactions NexaStays.RelyGuarantee NexaStays.Database
  NexaStays.Availability NexaStays.Payments NexaStays.Cancellation NexaStays.CreateBooking
  NexaStays.Calls NexaStays.Effects NexaStays.Persistence NexaStays.Invariant

open NexaStays.RelyGuarantee.Discipline

/-- Two calls that create the booking of one guest and one key on two listings do not
hold the locks of these listings at the same time. -/
def KeysApart (c : Call) (held : List Key) (c' : Call) (held' : List Key) : Prop :=
  ∀ userId dto isVerified dto' isVerified', c = .createBooking userId dto isVerified →
    c' = .createBooking userId dto' isVerified' → dto.key ≠ none → dto.key = dto'.key →
    dto.listingId ≠ dto'.listingId → Key.listing dto.listingId ∈ held →
    Key.listing dto'.listingId ∉ held'

/-- The booking with this id can be paid or is paid. -/
def Payable (s : Store) (bookingId : ℕ) : Prop :=
  ∃ b, s.bookings.find? bookingId = some b ∧
    (b.status = .paymentPending ∨ b.status ∈ confirmedBookingStatuses)

instance (s : Store) (bookingId : ℕ) : Decidable (Payable s bookingId) :=
  inferInstanceAs (Decidable (∃ b ∈ s.bookings.find? bookingId,
    b.status = .paymentPending ∨ b.status ∈ confirmedBookingStatuses))

/-- What is assumed of the bookings that gateway callbacks lock. -/
def CallbackPayable (c : Call) (s : Store) (key : Key) : Prop :=
  ∀ body bookingId, c = .handleCmiCallback body → key = .booking bookingId → Payable s bookingId

/-- The authorisation of an order is dealt with, for the callback at this place of the
traffic: a capture was attempted, or a release since. -/
def DealtWith (s : Store) (oid : String) (seq : ℕ) : Prop :=
  ∃ m ∈ s.gateway.rows, m.oid = oid ∧ (m.op = .postAuth ∨ m.op = .void ∧ seq < m.seq)

instance (s : Store) (oid : String) (seq : ℕ) : Decidable (DealtWith s oid seq) :=
  inferInstanceAs (Decidable (∃ m ∈ s.gateway.rows,
    m.oid = oid ∧ (m.op = .postAuth ∨ m.op = .void ∧ seq < m.seq)))

/-- A callback about the order is at this place of the traffic. -/
def Arrived (s : Store) (oid : String) (seq : ℕ) : Prop :=
  ∃ m ∈ s.gateway.rows, m.seq = seq ∧ m.op = .callback ∧ m.oid = oid

/-- What an answer says about the store. -/
def Answers (payable : Prop) : Call → Answer → Store → Prop
  | .createBooking userId dto _, .booking b, s => ∃ r, s.bookings.find? b.id = some r ∧
    r.guestUserId = userId ∧ r.idempotencyKey = dto.key ∧ SameStay b r
  | .handleCmiCallback body, .callback seq (some outcome), s => Arrived s body.order seq ∧
    (payable → outcome ≠ .intentNotFound → DealtWith s body.order seq)
  | _, _, _ => True

/-- The discipline of the calls. The two assumptions on runs are optional: that keys
are `apart`, and that callbacks find their booking `payable`. -/
def discipline (env : Env) (apart payable : Prop) : Discipline Call Store Key Write Answer where
  Inv := Consistent
  Legal c held s ws := Effect env apart c held s ws
  Post := Answers payable
  Guard c s key := payable → CallbackPayable c s key
  Apart c held c' held' := apart → KeysApart c held c' held'
  inv_legal := Consistent.effect

variable {env : Env} {apart payable : Prop} {c : Call} {held : List Key} {s s' : Store}
  {ws : List Write}

/-- The interference of the other calls, as effects. -/
theorem interference_iff : (discipline env apart payable).Interference c held s s' ↔
    ∃ c' held' ws, Effect env apart c' held' s ws ∧ held.Disjoint held' ∧
      (∀ w ∈ ws, w.key ∉ held) ∧ (apart → KeysApart c held c' held') ∧ Consistent s ∧
      s' = publish s ws :=
  Iff.rfl

/-- What effects on other rows do not change is stable under the locks of the rows. -/
theorem stable_of_locked {P : Store → Prop}
    (h : ∀ {c' held' s ws}, Consistent s → Effect env apart c' held' s ws →
      (∀ w ∈ ws, w.key ∉ held) → P s → P (publish s ws)) :
    (discipline env apart payable).Stable c held P := by
  rintro s s' hs hstep
  obtain ⟨c', held', ws, heffect, -, hkeys, -, hinv, rfl⟩ := interference_iff.mp hstep
  exact h hinv heffect hkeys hs

/-- The row under a key is the same in both stores. -/
def SameRow (s s' : Store) : Key → Prop
  | .booking id => s'.bookings.find? id = s.bookings.find? id
  | .intent id => s'.intents.find? id = s.intents.find? id
  | .listing id => s'.listings.find? id = s.listings.find? id
  | .ledger id => s'.ledger.find? id = s.ledger.find? id
  | _ => True

theorem SameRow.trans {s₁ s₂ s₃ : Store} {k : Key} (h : SameRow s₁ s₂ k) (h' : SameRow s₂ s₃ k) :
    SameRow s₁ s₃ k := by
  cases k <;> simp_all [SameRow]

theorem sameRow_write {w : Write} {k : Key} (h : w.key ≠ k) : SameRow s (s.write w) k := by
  cases w <;> cases k <;> simp only [SameRow, Store.write] <;>
    exact Table.find?_put_of_ne fun hid => h (by rw [hid]; rfl)

theorem sameRow_publish {k : Key} (h : ∀ w ∈ ws, w.key ≠ k) : SameRow s (publish s ws) k := by
  induction ws generalizing s with
  | nil => cases k <;> simp [SameRow]
  | cons w ws ih =>
    have hw : SameRow s (s.write w) k := sameRow_write (h w (by simp))
    exact hw.trans (ih fun x hx => h x (by simp [hx]))

theorem sameRow_of_locked {k : Key} (hkeys : ∀ w ∈ ws, w.key ∉ held) (hk : k ∈ held) :
    SameRow s (publish s ws) k :=
  sameRow_publish fun w hw hwk => hkeys w hw (hwk ▸ hk)

theorem stable_booking {id : ℕ} (hk : Key.booking id ∈ held) (o : Option StaysBooking) :
    (discipline env apart payable).Stable c held fun s => s.bookings.find? id = o :=
  stable_of_locked fun _ _ hkeys h => Eq.trans (sameRow_of_locked (k := .booking id) hkeys hk) h

theorem stable_intent {id : ℕ} (hk : Key.intent id ∈ held) (o : Option StaysPaymentIntent) :
    (discipline env apart payable).Stable c held fun s => s.intents.find? id = o :=
  stable_of_locked fun _ _ hkeys h => Eq.trans (sameRow_of_locked (k := .intent id) hkeys hk) h

theorem stable_listing {id : ℕ} (hk : Key.listing id ∈ held) (o : Option StaysListing) :
    (discipline env apart payable).Stable c held fun s => s.listings.find? id = o :=
  stable_of_locked fun _ _ hkeys h => Eq.trans (sameRow_of_locked (k := .listing id) hkeys hk) h

theorem stable_ledger {id : ℕ} (hk : Key.ledger id ∈ held) (o : Option StaysLedgerEntry) :
    (discipline env apart payable).Stable c held fun s => s.ledger.find? id = o :=
  stable_of_locked fun _ _ hkeys h => Eq.trans (sameRow_of_locked (k := .ledger id) hkeys hk) h

/-- An entry of a booking whose row is locked, but for the settlement of a refund. -/
theorem entry_of_locked (h : Effect env apart c held s ws) {id : ℕ}
    (hkeys : ∀ w ∈ ws, w.key ≠ .booking id) {e : StaysLedgerEntry}
    (he : e ∈ (publish s ws).ledger.rows) (hid : e.bookingId = id) :
    e ∈ s.ledger.rows ∨ e.type = .refund ∧ ∃ r ∈ s.ledger.rows, r.bookingId = id ∧
      r.type = .refund := by
  have hrows : (publish s ws).bookings.find? id = s.bookings.find? id :=
    sameRow_publish (k := .booking id) hkeys
  obtain hsame | ⟨i, b, gp, pf, hp, hrow, hstatus, -, -, hset, -, hbookings, -, hput⟩ |
    ⟨b, userId, by', now, r, -, -, hrow, hstatus, hrule, hbookings, hput⟩ | ⟨r, hrow, htype, -, hput⟩ :=
    ledger_effect h
  · exact Or.inl (by rwa [hsame] at he)
  · have hother : b.id ≠ id := by
      rintro rfl
      rw [hbookings, Table.find?_put, if_pos rfl, hrow] at hrows
      have heq := congrArg (Option.map (·.status)) hrows
      simp [hstatus] at heq
    rw [hput] at he
    obtain rfl | ⟨he, -⟩ := Table.mem_put.mp he
    · exact absurd hid (by rw [hset.hostPayout]; exact hother)
    obtain rfl | ⟨he, -⟩ := Table.mem_put.mp he
    · exact absurd hid (by rw [hset.platformFee]; exact hother)
    obtain rfl | ⟨he, -⟩ := Table.mem_put.mp he
    · exact absurd hid (by rw [hset.guestPayment]; exact hother)
    · exact Or.inl he
  · have hother : b.id ≠ id := by
      rintro rfl
      rw [hbookings, Table.find?_put, if_pos rfl, hrow] at hrows
      have heq : by'.status = b.status := congrArg StaysBooking.status (Option.some.inj hrows)
      rw [← heq] at hstatus
      cases by' <;> simp [CancelledBy.status, nonCancellable] at hstatus
    rw [hput] at he
    obtain rfl | ⟨he, -⟩ := Table.mem_put.mp he
    · rw [(hrule.entry e rfl).2.2.2.2] at hid
      exact absurd hid hother
    · exact Or.inl he
  · rw [hput] at he
    obtain rfl | ⟨he, -⟩ := Table.mem_put.mp he
    · exact Or.inr ⟨htype, r, Table.mem_of_find? hrow, hid, htype⟩
    · exact Or.inl he

/-- A locked booking that is not paid stays unpaid. -/
theorem stable_unpaid {id : ℕ} (hk : Key.booking id ∈ held) :
    (discipline env apart payable).Stable c held fun s => ¬Paid s id := by
  refine stable_of_locked fun _ heffect hkeys hunpaid hpaid => ?_
  obtain ⟨e, he, hid, htype, hstatus⟩ := paid_iff.mp hpaid
  obtain hold | ⟨hrefund, -⟩ :=
    entry_of_locked heffect (fun w hw hwk => hkeys w hw (hwk ▸ hk)) he hid
  · exact hunpaid (paid_iff.mpr ⟨e, hold, hid, htype, hstatus⟩)
  · simp [htype] at hrefund

/-- A locked booking without a refund stays without one. -/
theorem stable_unrefunded {id : ℕ} (hk : Key.booking id ∈ held) :
    (discipline env apart payable).Stable c held fun s => refundsOf id s = [] := by
  refine stable_of_locked fun _ heffect hkeys hnone => ?_
  by_contra hrefund
  obtain ⟨e, he, hid, htype⟩ := refunded_iff.mp hrefund
  have hold := entry_of_locked heffect (fun w hw hwk => hkeys w hw (hwk ▸ hk)) he hid
  refine refunded_iff.mpr ?_ hnone
  obtain hold | ⟨-, r, hr, hrid, hrtype⟩ := hold
  · exact ⟨e, hold, hid, htype⟩
  · exact ⟨r, hr, hrid, hrtype⟩

/-- Nights of a locked listing that are free stay free. -/
theorem stable_free {listingId : ℕ} (hk : Key.listing listingId ∈ held) (checkin checkout : ℤ) :
    (discipline env apart payable).Stable c held
      fun s => overlappingBookings s listingId checkin checkout none = [] := by
  rintro s s' hfree hstep
  obtain ⟨c', held', ws, heffect, hdisj, -, -, -, rfl⟩ := interference_iff.mp hstep
  rw [overlappingBookings_eq_nil] at hfree ⊢
  obtain hsame | ⟨b, -, hrequested, -, hput⟩ | ⟨b, b', hrow, hmove, hput⟩ :=
    bookings_effect heffect
  · rwa [hsame]
  · intro x hx hl hbooked
    rw [hput] at hx
    obtain rfl | ⟨hx, -⟩ := Table.mem_put.mp hx
    · exact absurd hrequested.locked (hl ▸ hdisj hk)
    · exact hfree x hx hl hbooked
  · intro x hx hl hbooked
    rw [hput] at hx
    obtain rfl | ⟨hx, -⟩ := Table.mem_put.mp hx
    · have hb := booked_of_moves hmove hbooked
      obtain ⟨_, _, rfl⟩ := hmove.sameStay
      exact hfree b (Table.mem_of_find? hrow) hl hb
    · exact hfree x hx hl hbooked

/-- A key that is not in use stays so, while its listing is locked and keys are apart. -/
theorem stable_keyUnused {userId : ℕ} {dto : CreateBookingDto} {isVerified : Bool}
    (hk : Key.listing dto.listingId ∈ held) :
    (discipline env apart payable).Stable (.createBooking userId dto isVerified) held
      fun s => apart → KeyUnused s userId dto.key := by
  rintro s s' hunused hstep happly hkey a ha hguest
  obtain ⟨c', held', ws, heffect, hdisj, -, hkeys, -, rfl⟩ := interference_iff.mp hstep
  have hold := hunused happly hkey
  obtain hsame | ⟨b, -, hrequested, -, hput⟩ | ⟨b, b', hrow, hmove, hput⟩ :=
    bookings_effect heffect
  · exact hold a (by rwa [hsame] at ha) hguest
  · rw [hput] at ha
    obtain rfl | ⟨ha, -⟩ := Table.mem_put.mp ha
    · obtain ⟨dto', isVerified', hcall, hlisting, hkey'⟩ := hrequested.call
      intro heq
      by_cases hl : dto.listingId = dto'.listingId
      · exact hdisj hk (by rw [hl, hlisting]; exact hrequested.locked)
      · exact hkeys happly userId dto isVerified dto' isVerified' rfl (hguest ▸ hcall) hkey
          (heq.symm.trans hkey'.symm) hl hk (hlisting ▸ hrequested.locked)
    · exact hold a ha hguest
  · rw [hput] at ha
    obtain rfl | ⟨ha, -⟩ := Table.mem_put.mp ha
    · obtain ⟨_, _, rfl⟩ := hmove.sameStay
      exact hold b (Table.mem_of_find? hrow) hguest
    · exact hold a ha hguest

theorem persistent_stay (b : StaysBooking) (id : ℕ) : (discipline env apart payable).Persistent
    fun s => ∃ r, s.bookings.find? id = some r ∧ SameStay b r := by
  intro c held s ws _ heffect h
  obtain ⟨r, hr, hsame⟩ := h
  obtain ⟨r', hr', hsame'⟩ := sameStay_persists heffect hr
  exact ⟨r', hr', hsame.trans hsame'⟩

theorem persistent_policy (id : ℕ) (policy : Money.CancellationPolicy) :
    (discipline env apart payable).Persistent fun s => policyOf (s.listings.find? id) = policy :=
  fun _ _ _ _ _ heffect h => (policy_persists heffect id).trans h

theorem persistent_paid (id : ℕ) : (discipline env apart payable).Persistent fun s => Paid s id :=
  fun _ _ _ _ _ heffect h => paid_persists heffect h

theorem persistent_refunded (id : ℕ) :
    (discipline env apart payable).Persistent fun s => refundsOf id s ≠ [] :=
  fun _ _ _ _ _ heffect h => refunded_persists heffect h

theorem persistent_closedUnpaid (id : ℕ) :
    (discipline env apart payable).Persistent fun s => ClosedUnpaid s id :=
  fun _ _ _ _ _ heffect h => closedUnpaid_persists heffect h

/-- The order of an intent stays in the table, and so does its success. -/
def OrderKept (i : StaysPaymentIntent) (s : Store) : Prop :=
  ∃ i' ∈ s.intents.rows, SameOrder i i' ∧ (i.status = .succeeded → i'.status = .succeeded)

theorem orderKept_of_mem {i : StaysPaymentIntent} (h : i ∈ s.intents.rows) : OrderKept i s :=
  ⟨i, h, .refl i, id⟩

theorem persistent_order (i : StaysPaymentIntent) :
    (discipline env apart payable).Persistent (OrderKept i) := by
  intro c held s ws _ heffect h
  obtain ⟨i', hmem, hsame, hstatus⟩ := h
  obtain ⟨i'', hmem', hsame', hstatus'⟩ := intent_persists heffect hmem
  exact ⟨i'', hmem', hsame.trans hsame', fun hs => hstatus' (hstatus hs)⟩

theorem persistent_captureAsked (i : StaysPaymentIntent) :
    (discipline env apart payable).Persistent fun s => CaptureAsked s i :=
  fun _ _ _ _ hinv heffect h => captureAsked_persists hinv.gateway.numbered heffect (.refl i) h

theorem persistent_message (m : GatewayMessage) :
    (discipline env apart payable).Persistent fun s => m ∈ s.gateway.rows :=
  fun _ _ _ _ hinv heffect h => message_persists hinv.gateway.numbered heffect h

theorem persistent_orderFor (oid : String) (bookingId : ℕ) :
    (discipline env apart payable).Persistent fun s => OrderFor s oid bookingId :=
  fun _ _ _ _ _ heffect h => orderFor_persists heffect h

theorem persistent_known (oid : String) (op : CmiOp) :
    (discipline env apart payable).Persistent fun s => MessageKnown s oid op :=
  fun _ _ _ _ _ heffect h => messageKnown_persists heffect h

/-- The traffic has got this far. -/
def Reached (n : ℕ) (s : Store) : Prop := n ≤ s.gateway.rows.length

theorem persistent_reached (n : ℕ) : (discipline env apart payable).Persistent (Reached n) := by
  intro c held s ws hinv heffect h
  obtain hsame | ⟨op, oid, amount, delivered, -, rfl⟩ := gateway_effect heffect
  · rwa [Reached, hsame]
  · rw [Reached, gateway_publish_message, rows_put_message hinv.gateway, List.length_append]
    exact Nat.le_add_right_of_le h

/-- A message of this kind about the order, not before place `n` of the traffic. -/
def Sent (op : CmiOp) (oid : String) (n : ℕ) (s : Store) : Prop :=
  ∃ m ∈ s.gateway.rows, m.op = op ∧ m.oid = oid ∧ n ≤ m.seq

theorem persistent_sent (op : CmiOp) (oid : String) (n : ℕ) :
    (discipline env apart payable).Persistent (Sent op oid n) := by
  intro c held s ws hinv heffect h
  obtain ⟨m, hm, hof⟩ := h
  exact ⟨m, message_persists hinv.gateway.numbered heffect hm, hof⟩

/-- The refund entry with this id stays one. -/
theorem persistent_refundEntry (id : ℕ) : (discipline env apart payable).Persistent
    fun s => ∃ e, s.ledger.find? id = some e ∧ e.type = .refund := by
  intro c held s ws _ heffect h
  obtain ⟨e, he, htype⟩ := h
  have hid : e.id = id := Table.key_of_find? he
  obtain hmem | ⟨-, hmem⟩ := entry_persists heffect (Table.mem_of_find? he)
  · exact ⟨e, hid ▸ Table.find?_key hmem, htype⟩
  · exact ⟨{ e with status := .settled }, by rw [← hid]; exact Table.find?_key hmem, htype⟩

theorem persistent_answers (a : Answer) :
    (discipline env apart payable).Persistent (Answers payable c a) := by
  intro c' held s ws hinv heffect h
  unfold Answers at h ⊢
  split at h
  · obtain ⟨r, hr, hguest, hkey, hsame⟩ := h
    obtain ⟨r', hr', hsame'⟩ := sameStay_persists heffect hr
    have hall := hsame.trans hsame'
    obtain ⟨_, _, rfl⟩ := hsame'
    exact ⟨_, hr', hguest, hkey, hall⟩
  · obtain ⟨⟨arrival, hmem, harrival⟩, hdealt⟩ := h
    refine ⟨⟨arrival, message_persists hinv.gateway.numbered heffect hmem, harrival⟩, ?_⟩
    intro hpayable hfound
    obtain ⟨m, hm, hof⟩ := hdealt hpayable hfound
    exact ⟨m, message_persists hinv.gateway.numbered heffect hm, hof⟩
  · trivial

end NexaStays.Interference
