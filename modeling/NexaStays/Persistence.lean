import NexaStays.Effects

/-!
# What no effect takes back

Bookings keep everything but their status, intents keep their order, payments,
refunds and gateway messages stay. These facts hold of every effect, so they survive
whatever the other calls publish.
-/
namespace NexaStays.Persistence

open NexaStays.KeyedTable NexaStays.Transactions NexaStays.Database NexaStays.Payments
  NexaStays.Cancellation NexaStays.Calls NexaStays.Effects

theorem publish_cancelWrites (s : Store) (is : List StaysPaymentIntent) :
    publish s (cancelWrites is) =
      { s with intents := s.intents.putAll (is.map cancelled) } := by
  induction is generalizing s with
  | nil => rfl
  | cons i is ih => exact ih _

theorem publish_blocks (s : Store) (rows : List StaysAvailabilityBlock) :
    publish s (rows.map .block) = { s with blocks := s.blocks.putAll rows } := by
  induction rows generalizing s with
  | nil => rfl
  | cons b rows ih => exact ih _

/-- The rows of intents after some of them were cancelled. -/
theorem mem_cancelled {s : Store} {is : List StaysPaymentIntent} (h : PendingRows s is)
    {x : StaysPaymentIntent}
    (hx : x ∈ (s.intents.putAll (is.map cancelled)).rows) :
    x ∈ s.intents.rows ∨ ∃ i ∈ s.intents.rows, i.status = .pending ∧
      x = cancelled i := by
  obtain ⟨i, hi, rfl⟩ := (Table.mem_putAll_map (f := cancelled) (fun _ => rfl) h.row h.nodup).mp hx
  split_ifs with hmem
  · obtain ⟨j, hj, hji⟩ := List.mem_map.mp hmem
    obtain rfl : j = i := s.intents.eq_of_key_eq (Table.mem_of_find? (h.row j hj)) hi hji
    exact Or.inr ⟨j, hi, h.pending j hj, rfl⟩
  · exact Or.inl hi

theorem find?_cancelled {s : Store} {is : List StaysPaymentIntent} (h : PendingRows s is)
    {i : StaysPaymentIntent} (hi : i ∈ s.intents.rows) :
    i ∈ (s.intents.putAll (is.map cancelled)).rows ∨
      i.status = .pending ∧ cancelled i ∈
        (s.intents.putAll (is.map cancelled)).rows := by
  have hrow := (Table.mem_putAll_map (f := cancelled) (fun _ => rfl) h.row h.nodup).mpr ⟨i, hi, rfl⟩
  split_ifs at hrow with hmem
  · obtain ⟨j, hj, hji⟩ := List.mem_map.mp hmem
    obtain rfl : j = i := s.intents.eq_of_key_eq (Table.mem_of_find? (h.row j hj)) hi hji
    exact Or.inr ⟨h.pending j hj, hrow⟩
  · exact Or.inl hrow

/-- The same stay at another point of its life. -/
def SameStay (b b' : StaysBooking) : Prop :=
  ∃ status completedAt, b' = { b with status, completedAt }

theorem SameStay.refl (b : StaysBooking) : SameStay b b := ⟨b.status, b.completedAt, rfl⟩

theorem SameStay.trans {a b d : StaysBooking} (h : SameStay a b) (h' : SameStay b d) :
    SameStay a d := by
  obtain ⟨status, completedAt, rfl⟩ := h
  obtain ⟨status', completedAt', rfl⟩ := h'
  exact ⟨status', completedAt', rfl⟩

/-- How the row of a booking changes when it was already there. -/
inductive Moves (s : Store) (b : StaysBooking) : StaysBooking → Prop where
  | expire (status : b.status ∈ preConfirmationBookingStatuses) :
    Moves s b { b with status := .expired }
  | confirm (status : b.status = .paymentPending) : Moves s b { b with status := .confirmed }
  | cancel {by' : CancelledBy} (status : b.status ∉ nonCancellable) :
    Moves s b { b with status := by'.status }
  | complete {completedAt : ℤ} (paid : Paid s b.id) :
    Moves s b { b with status := .completed, completedAt := some completedAt }

theorem Moves.sameStay {s : Store} {b b' : StaysBooking} (h : Moves s b b') : SameStay b b' := by
  cases h
  case expire => exact ⟨.expired, b.completedAt, rfl⟩
  case confirm => exact ⟨.confirmed, b.completedAt, rfl⟩
  case cancel by' _ => exact ⟨by'.status, b.completedAt, rfl⟩
  case complete completedAt _ => exact ⟨.completed, some completedAt, rfl⟩

variable {env : Env} {strict : Prop} {c : Call} {held : List Key} {s : Store} {ws : List Write}

/-- The bookings after an effect: as before, with a new row, or with one row moved on. -/
theorem bookings_effect (h : Effect env strict c held s ws) :
    (publish s ws).bookings = s.bookings ∨
    (∃ b, NewBooking s b ∧ Requested c held b ∧
      (strict → KeyUnused s b.guestUserId b.idempotencyKey) ∧
      (publish s ws).bookings = s.bookings.put b) ∨
    ∃ b b', s.bookings.find? b.id = some b ∧ Moves s b b' ∧
      (publish s ws).bookings = s.bookings.put b' := by
  cases h with
  | book requested new unused => exact Or.inr (Or.inl ⟨_, new, requested, unused, rfl⟩)
  | openIntent => exact Or.inl rfl
  | expire row status => exact Or.inr (Or.inr ⟨_, _, row, .expire status, rfl⟩)
  | dropIntents => exact Or.inl (by rw [publish_cancelWrites])
  | confirm _ _ booking _ status =>
    exact Or.inr (Or.inr ⟨_, _, booking, .confirm status, rfl⟩)
  | markPaid => exact Or.inl rfl
  | reject _ _ booking status =>
    exact Or.inr (Or.inr ⟨_, _, booking, .expire (by simp [status, preConfirmationBookingStatuses]),
      rfl⟩)
  | @cancel b by' _ _ refund _ _ booking status =>
    refine Or.inr (Or.inr ⟨_, _, booking, @Moves.cancel _ _ by' status, ?_⟩)
    cases refund <;> simp [publish_cancelWrites, Store.write]
  | complete row paid => exact Or.inr (Or.inr ⟨_, _, row, .complete paid, rfl⟩)
  | @review stay completedAt _ reviewed _ booking =>
    cases stay with
    | none => exact Or.inl (by cases reviewed <;> rfl)
    | some b =>
      obtain ⟨row, paid⟩ := booking b rfl
      exact Or.inr (Or.inr ⟨_, _, row, @Moves.complete _ _ completedAt paid,
        by cases reviewed <;> rfl⟩)
  | message => exact Or.inl rfl
  | patch => exact Or.inl rfl
  | settleRefund => exact Or.inl rfl
  | hostBlock => exact Or.inl (by rw [publish_blocks])

/-- A booking stays in the table, and stays the same stay. -/
theorem booking_persists (h : Effect env strict c held s ws) {id : ℕ} {b : StaysBooking}
    (hb : s.bookings.find? id = some b) :
    ∃ b', (publish s ws).bookings.find? id = some b' ∧ (b' = b ∨ Moves s b b') := by
  obtain hsame | ⟨a, hnew, -, -, hput⟩ | ⟨a, a', row, hmove, hput⟩ := bookings_effect h
  · exact ⟨b, by rwa [hsame], Or.inl rfl⟩
  · have hne : id ≠ a.id := by
      rintro rfl
      simp [hnew.fresh] at hb
    exact ⟨b, by rw [hput, Table.find?_put_of_ne hne, hb], Or.inl rfl⟩
  · have hid : a'.id = a.id := by
      obtain ⟨_, _, rfl⟩ := hmove.sameStay
      rfl
    by_cases hne : id = a.id
    · obtain rfl : a = b := by simpa [hne, row] using hb
      exact ⟨a', by simp [hput, hne, hid], Or.inr hmove⟩
    · exact ⟨b, by rw [hput, Table.find?_put_of_ne (by rwa [hid]), hb], Or.inl rfl⟩

theorem sameStay_persists (h : Effect env strict c held s ws) {id : ℕ} {b : StaysBooking}
    (hb : s.bookings.find? id = some b) :
    ∃ b', (publish s ws).bookings.find? id = some b' ∧ SameStay b b' := by
  obtain ⟨b', hb', rfl | hmove⟩ := booking_persists h hb
  · exact ⟨b', hb', .refl b'⟩
  · exact ⟨b', hb', hmove.sameStay⟩

theorem mem_put_fresh {ρ κ : Type} {key : ρ → κ} [DecidableEq κ] {t : Table key} {r x : ρ}
    (hr : t.find? (key r) = none) (hx : x ∈ t.rows) : x ∈ (t.put r).rows :=
  Table.mem_put.mpr (Or.inr ⟨hx, Table.find?_eq_none.mp hr x hx⟩)

/-- The ledger after an effect: as before, with the rows of a payment, with a refund, or
with a refund settled. -/
theorem ledger_effect (h : Effect env strict c held s ws) :
    (publish s ws).ledger = s.ledger ∨
    (∃ i b gp pf hp, s.bookings.find? b.id = some b ∧ b.status = .paymentPending ∧
      s.intents.find? i.id = some i ∧ i.bookingId = b.id ∧ Settlement i b gp pf hp ∧
      (∀ e ∈ [gp, pf, hp], s.ledger.find? e.id = none) ∧
      (publish s ws).bookings = s.bookings.put { b with status := .confirmed } ∧
      (publish s ws).intents = s.intents.put { i with status := .succeeded } ∧
      (publish s ws).ledger = ((s.ledger.put gp).put pf).put hp) ∨
    (∃ b userId by' now e, c = .cancel b.id userId by' now ∧
      .booking { b with status := CancelledBy.status by' } ∈ ws ∧
      s.bookings.find? b.id = some b ∧ b.status ∉ nonCancellable ∧ RefundRule s b now (some e) ∧
      (publish s ws).bookings = s.bookings.put { b with status := CancelledBy.status by' } ∧
      (publish s ws).ledger = s.ledger.put e) ∨
    ∃ e, s.ledger.find? e.id = some e ∧ e.type = .refund ∧
      (publish s ws).bookings = s.bookings ∧
      (publish s ws).ledger = s.ledger.put { e with status := .settled } := by
  cases h with
  | book => exact Or.inl rfl
  | openIntent => exact Or.inl rfl
  | expire => exact Or.inl rfl
  | dropIntents => exact Or.inl (by rw [publish_cancelWrites])
  | confirm _ intent booking ofBooking status settlement fresh =>
    exact Or.inr (Or.inl ⟨_, _, _, _, _, booking, status, intent, ofBooking, settlement, fresh,
      rfl, rfl, rfl⟩)
  | markPaid => exact Or.inl rfl
  | reject => exact Or.inl rfl
  | @cancel b by' userId now refund _ request booking status rule =>
    cases refund with
    | none => exact Or.inl (by simp [publish_cancelWrites, Store.write])
    | some e =>
      exact Or.inr (Or.inr (Or.inl ⟨b, userId, by', now, e, request, by simp, booking, status, rule,
        by simp [publish_cancelWrites, Store.write], by simp [publish_cancelWrites, Store.write]⟩))
  | complete => exact Or.inl rfl
  | @review stay _ _ reviewed =>
    exact Or.inl (by cases stay <;> cases reviewed <;> rfl)
  | message => exact Or.inl rfl
  | patch => exact Or.inl rfl
  | settleRefund row type => exact Or.inr (Or.inr (Or.inr ⟨_, row, type, rfl, rfl⟩))
  | hostBlock => exact Or.inl (by rw [publish_blocks])

/-- An entry stays, but for a refund that is settled. -/
theorem entry_persists (h : Effect env strict c held s ws) {e : StaysLedgerEntry}
    (he : e ∈ s.ledger.rows) :
    e ∈ (publish s ws).ledger.rows ∨
      e.type = .refund ∧ { e with status := .settled } ∈ (publish s ws).ledger.rows := by
  obtain hsame | ⟨i, b, gp, pf, hp, -, -, -, -, hset, hfresh, -, -, hput⟩ |
    ⟨b, userId, by', now, r, -, -, -, -, hrule, -, hput⟩ | ⟨r, hrow, htype, -, hput⟩ := ledger_effect h
  · exact Or.inl (by rwa [hsame])
  · obtain ⟨hgp, hpf, hhp⟩ : s.ledger.find? gp.id = none ∧ s.ledger.find? pf.id = none ∧
      s.ledger.find? hp.id = none := by simpa using hfresh
    obtain ⟨hne₁, hne₂, hne₃⟩ := hset.distinct
    have h₁ := mem_put_fresh hgp he
    have h₂ := mem_put_fresh (r := pf) (by simp [hpf, hne₁.symm]) h₁
    have h₃ := mem_put_fresh (r := hp) (by simp [hhp, hne₂.symm, hne₃.symm]) h₂
    exact Or.inl (hput ▸ h₃)
  · exact Or.inl (hput ▸ mem_put_fresh (hrule.entry r rfl).1 he)
  · by_cases hid : e.id = r.id
    · obtain rfl : e = r := s.ledger.eq_of_key_eq he (Table.mem_of_find? hrow) hid
      exact Or.inr ⟨htype, hput ▸ Table.mem_put_self _ _⟩
    · exact Or.inl (hput ▸ Table.mem_put.mpr (Or.inr ⟨he, hid⟩))

theorem paid_persists (h : Effect env strict c held s ws) {id : ℕ} (hpaid : Paid s id) :
    Paid (publish s ws) id := by
  obtain ⟨e, he, hid, htype, hstatus⟩ := paid_iff.mp hpaid
  obtain hmem | ⟨hrefund, -⟩ := entry_persists h he
  · exact paid_iff.mpr ⟨e, hmem, hid, htype, hstatus⟩
  · simp [htype] at hrefund

theorem refunded_iff {s : Store} {id : ℕ} :
    refundsOf id s ≠ [] ↔ ∃ e ∈ s.ledger.rows, e.bookingId = id ∧ e.type = .refund := by
  simp [refundsOf, List.eq_nil_iff_forall_not_mem, List.mem_filter]

theorem refunded_persists (h : Effect env strict c held s ws) {id : ℕ}
    (hrefund : refundsOf id s ≠ []) : refundsOf id (publish s ws) ≠ [] := by
  obtain ⟨e, he, hid, htype⟩ := refunded_iff.mp hrefund
  obtain hmem | ⟨-, hmem⟩ := entry_persists h he
  · exact refunded_iff.mpr ⟨e, hmem, hid, htype⟩
  · exact refunded_iff.mpr ⟨_, hmem, hid, htype⟩

/-- A new entry belongs to a booking that has not ended. -/
theorem entry_origin (h : Effect env strict c held s ws) {e : StaysLedgerEntry}
    (he : e ∈ (publish s ws).ledger.rows) :
    (∃ e₀ ∈ s.ledger.rows, e₀.bookingId = e.bookingId) ∨
      ∃ b, s.bookings.find? e.bookingId = some b ∧ b.status ∉ nonCancellable := by
  obtain hsame | ⟨i, b, gp, pf, hp, hrow, hstatus, -, -, hset, -, -, -, hput⟩ |
    ⟨b, userId, by', now, r, -, -, hrow, hstatus, hrule, -, hput⟩ | ⟨r, hrow, -, -, hput⟩ := ledger_effect h
  · exact Or.inl ⟨e, by rwa [hsame] at he, rfl⟩
  · have hopen : b.status ∉ nonCancellable := by simp [hstatus, nonCancellable]
    have hnew : ∀ {x}, x.bookingId = b.id → e = x →
        ∃ b, s.bookings.find? e.bookingId = some b ∧ b.status ∉ nonCancellable := by
      rintro x hx rfl
      exact ⟨b, by rwa [hx], hopen⟩
    rw [hput] at he
    obtain heq | ⟨he, -⟩ := Table.mem_put.mp he
    · exact Or.inr (hnew (by rw [hset.hostPayout]; rfl) heq)
    obtain heq | ⟨he, -⟩ := Table.mem_put.mp he
    · exact Or.inr (hnew (by rw [hset.platformFee]; rfl) heq)
    obtain heq | ⟨he, -⟩ := Table.mem_put.mp he
    · exact Or.inr (hnew (by rw [hset.guestPayment]; rfl) heq)
    · exact Or.inl ⟨e, he, rfl⟩
  · rw [hput] at he
    obtain rfl | ⟨he, -⟩ := Table.mem_put.mp he
    · have hid : e.bookingId = b.id := by
        rw [(hrule.entry e rfl).2.2.2.2]
        rfl
      exact Or.inr ⟨b, by rwa [hid], hstatus⟩
    · exact Or.inl ⟨e, he, rfl⟩
  · rw [hput] at he
    obtain rfl | ⟨he, -⟩ := Table.mem_put.mp he
    · exact Or.inl ⟨r, Table.mem_of_find? hrow, rfl⟩
    · exact Or.inl ⟨e, he, rfl⟩

/-- A booking that ended unpaid stays so. -/
theorem closedUnpaid_persists (h : Effect env strict c held s ws) {id : ℕ}
    (hclosed : ClosedUnpaid s id) : ClosedUnpaid (publish s ws) id := by
  obtain ⟨hnil, b, hb, hstatus⟩ := hclosed
  have hid : b.id = id := Table.key_of_find? hb
  have hnone : ∀ e ∈ s.ledger.rows, e.bookingId ≠ id := by
    simpa [ledgerOf, List.filter_eq_nil_iff] using hnil
  have hended : b.status ∈ nonCancellable := by
    simp only [List.mem_cons, List.not_mem_nil, or_false] at hstatus
    rcases hstatus with h | h | h <;> simp [h, nonCancellable]
  refine ⟨List.filter_eq_nil_iff.mpr fun e he hbook => ?_, ?_⟩
  · have hbook : e.bookingId = id := of_decide_eq_true hbook
    obtain ⟨e₀, he₀, heq⟩ | ⟨b', hb', hopen⟩ := entry_origin h he
    · exact hnone e₀ he₀ (heq.trans hbook)
    · rw [hbook, hb] at hb'
      obtain rfl : b = b' := Option.some.inj hb'
      exact hopen hended
  · obtain ⟨b', hb', rfl | hmove⟩ := booking_persists h hb
    · exact ⟨b', hb', hstatus⟩
    · exfalso
      cases hmove with
      | expire hpre =>
        revert hpre hended
        cases b.status <;> decide
      | confirm hpending => simp [hpending, nonCancellable] at hended
      | cancel hopen => exact hopen hended
      | complete hpaid =>
        obtain ⟨e, he, hbook, -⟩ := paid_iff.mp hpaid
        exact hnone e he (hbook.trans hid)

/-- The same order, with another status or other metadata. -/
def SameOrder (i i' : StaysPaymentIntent) : Prop :=
  ∃ status metadata, i' = { i with status, metadata }

theorem SameOrder.refl (i : StaysPaymentIntent) : SameOrder i i := ⟨i.status, i.metadata, rfl⟩

theorem SameOrder.trans {i j k : StaysPaymentIntent} (h : SameOrder i j) (h' : SameOrder j k) :
    SameOrder i k := by
  obtain ⟨status, metadata, rfl⟩ := h
  obtain ⟨status', metadata', rfl⟩ := h'
  exact ⟨status', metadata', rfl⟩

/-- How the row of an intent changes in an effect that leaves the store at `s'`. -/
inductive MovesIntent (s s' : Store) (i : StaysPaymentIntent) : StaysPaymentIntent → Prop where
  | succeed (paid : Paid s' i.bookingId) : MovesIntent s s' i { i with status := .succeeded }
  | fail (unpaid : i.status ≠ .succeeded) : MovesIntent s s' i { i with status := .failed }
  | cancel (pending : i.status = .pending) : MovesIntent s s' i (cancelled i)
  | patch {metadata : IntentMetadata}
    (asked : metadata.cmiCaptureStatus = some .succeeded → CaptureAsked s i) :
    MovesIntent s s' i { i with metadata }

theorem MovesIntent.sameOrder {s s' : Store} {i i' : StaysPaymentIntent}
    (h : MovesIntent s s' i i') : SameOrder i i' := by
  cases h
  case succeed => exact ⟨.succeeded, i.metadata, rfl⟩
  case fail => exact ⟨.failed, i.metadata, rfl⟩
  case cancel => exact ⟨.cancelled, i.metadata, rfl⟩
  case patch metadata _ => exact ⟨i.status, metadata, rfl⟩

/-- A success is never taken back. -/
theorem MovesIntent.succeeded {s s' : Store} {i i' : StaysPaymentIntent}
    (h : MovesIntent s s' i i') (hi : i.status = .succeeded) : i'.status = .succeeded := by
  cases h with
  | succeed => rfl
  | fail unpaid => exact absurd hi unpaid
  | cancel pending => simp [hi] at pending
  | patch => exact hi

theorem paid_of_settlement {s : Store} {i : StaysPaymentIntent} {b : StaysBooking}
    {gp pf hp : StaysLedgerEntry} {t : Table StaysLedgerEntry.id} (h : Settlement i b gp pf hp)
    (hput : s.ledger = ((t.put gp).put pf).put hp) : Paid s b.id := by
  obtain ⟨hne₁, hne₂, -⟩ := h.distinct
  refine paid_iff.mpr ⟨gp, ?_, ?_⟩
  · rw [hput]
    simp [Table.mem_put, hne₁, hne₂]
  · rw [h.guestPayment]
    exact ⟨rfl, rfl, rfl⟩

/-- The intents after an effect: as before, with a new one, or with some moved on. -/
theorem intents_effect (h : Effect env strict c held s ws) :
    (publish s ws).intents = s.intents ∨
    (∃ i, NewIntent s i ∧ (publish s ws).intents = s.intents.put i) ∨
    (∃ is, PendingRows s is ∧ (publish s ws).intents = s.intents.putAll (is.map cancelled)) ∨
    ∃ i i', s.intents.find? i.id = some i ∧ MovesIntent s (publish s ws) i i' ∧
      (publish s ws).intents = s.intents.put i' := by
  cases h with
  | book => exact Or.inl rfl
  | openIntent new => exact Or.inr (Or.inl ⟨_, new, rfl⟩)
  | expire => exact Or.inl rfl
  | dropIntents rows =>
    exact Or.inr (Or.inr (Or.inl ⟨_, rows, by rw [publish_cancelWrites]⟩))
  | confirm _ intent _ ofBooking _ settlement =>
    refine Or.inr (Or.inr (Or.inr ⟨_, _, intent, .succeed ?_, rfl⟩))
    rw [ofBooking]
    exact paid_of_settlement settlement (t := s.ledger) rfl
  | markPaid intent paid =>
    exact Or.inr (Or.inr (Or.inr ⟨_, _, intent, .succeed paid, rfl⟩))
  | reject intent unpaid =>
    exact Or.inr (Or.inr (Or.inr ⟨_, _, intent, .fail unpaid, rfl⟩))
  | @cancel _ _ _ _ refund is _ _ _ _ rows =>
    refine Or.inr (Or.inr (Or.inl ⟨is, rows, ?_⟩))
    cases refund <;> simp [publish_cancelWrites, Store.write]
  | complete => exact Or.inl rfl
  | @review stay _ _ reviewed => exact Or.inl (by cases stay <;> cases reviewed <;> rfl)
  | message => exact Or.inl rfl
  | patch row asked => exact Or.inr (Or.inr (Or.inr ⟨_, _, row, .patch asked, rfl⟩))
  | settleRefund => exact Or.inl rfl
  | hostBlock => exact Or.inl (by rw [publish_blocks])

/-- Where a row of the intents comes from. -/
theorem intent_origin (h : Effect env strict c held s ws) {x : StaysPaymentIntent}
    (hx : x ∈ (publish s ws).intents.rows) :
    x ∈ s.intents.rows ∨ NewIntent s x ∨
      ∃ i ∈ s.intents.rows, MovesIntent s (publish s ws) i x := by
  obtain hsame | ⟨i, hnew, hput⟩ | ⟨is, hrows, hput⟩ | ⟨i, i', hrow, hmove, hput⟩ :=
    intents_effect h
  · exact Or.inl (by rwa [hsame] at hx)
  · rw [hput] at hx
    obtain rfl | ⟨hx, -⟩ := Table.mem_put.mp hx
    · exact Or.inr (Or.inl hnew)
    · exact Or.inl hx
  · rw [hput] at hx
    obtain hx | ⟨i, hi, hpending, rfl⟩ := mem_cancelled hrows hx
    · exact Or.inl hx
    · exact Or.inr (Or.inr ⟨i, hi, .cancel hpending⟩)
  · rw [hput] at hx
    obtain rfl | ⟨hx, -⟩ := Table.mem_put.mp hx
    · exact Or.inr (Or.inr ⟨i, Table.mem_of_find? hrow, hmove⟩)
    · exact Or.inl hx

/-- An intent stays in the table; its order stays, and so does a success. -/
theorem intent_persists (h : Effect env strict c held s ws) {i : StaysPaymentIntent}
    (hi : i ∈ s.intents.rows) :
    ∃ i' ∈ (publish s ws).intents.rows, SameOrder i i' ∧
      (i.status = .succeeded → i'.status = .succeeded) := by
  obtain hsame | ⟨x, hnew, hput⟩ | ⟨is, hrows, hput⟩ | ⟨x, x', hrow, hmove, hput⟩ :=
    intents_effect h
  · exact ⟨i, by rwa [hsame], .refl i, id⟩
  · exact ⟨i, hput ▸ mem_put_fresh hnew.fresh hi, .refl i, id⟩
  · obtain hmem | ⟨hpending, hmem⟩ := find?_cancelled hrows hi
    · exact ⟨i, hput ▸ hmem, .refl i, id⟩
    · exact ⟨cancelled i, hput ▸ hmem, ⟨.cancelled, i.metadata, rfl⟩,
        fun hs => by simp [hs] at hpending⟩
  · have hid : x'.id = x.id := by
      obtain ⟨_, _, rfl⟩ := hmove.sameOrder
      rfl
    by_cases hix : i.id = x.id
    · obtain rfl : i = x := s.intents.eq_of_key_eq hi (Table.mem_of_find? hrow) hix
      exact ⟨x', hput ▸ Table.mem_put_self _ _, hmove.sameOrder, hmove.succeeded⟩
    · exact ⟨i, hput ▸ Table.mem_put.mpr (Or.inr ⟨hi, by rwa [hid]⟩), .refl i, id⟩

theorem orderFor_persists (h : Effect env strict c held s ws) {oid : String} {bookingId : ℕ}
    (horder : OrderFor s oid bookingId) : OrderFor (publish s ws) oid bookingId := by
  obtain ⟨i, hi, hbook⟩ := horder
  obtain ⟨hmem, hof⟩ := List.mem_filter.mp hi
  obtain ⟨i', hmem', ⟨_, _, rfl⟩, -⟩ := intent_persists h hmem
  exact ⟨_, List.mem_filter.mpr ⟨hmem', hof⟩, hbook⟩

theorem gateway_effect (h : Effect env strict c held s ws) :
    (publish s ws).gateway = s.gateway ∨
      ∃ op oid amount delivered, MessageKnown s oid op ∧
        ws = [.gateway (gatewayMessage op oid amount delivered s)] := by
  cases h with
  | dropIntents => exact Or.inl (by rw [publish_cancelWrites])
  | @cancel _ _ _ _ refund => exact Or.inl (by cases refund <;> simp [publish_cancelWrites, Store.write])
  | @review stay _ _ reviewed => exact Or.inl (by cases stay <;> cases reviewed <;> rfl)
  | message known => exact Or.inr ⟨_, _, _, _, known, rfl⟩
  | hostBlock => exact Or.inl (by rw [publish_blocks])
  | _ => exact Or.inl rfl

@[simp] theorem gateway_publish_message (m : GatewayMessage) :
    (publish s [.gateway m]).gateway = s.gateway.put m := rfl

/-- The listings after an effect: as before, or with new aggregates of one of them. -/
theorem listings_effect (h : Effect env strict c held s ws) :
    (publish s ws).listings = s.listings ∨
      ∃ l aggregates, s.listings.find? l.id = some l ∧
        (publish s ws).listings = s.listings.put { l with aggregates } := by
  cases h with
  | dropIntents => exact Or.inl (by rw [publish_cancelWrites])
  | @cancel _ _ _ _ refund =>
    exact Or.inl (by cases refund <;> simp [publish_cancelWrites, Store.write])
  | @review stay _ _ reviewed aggregates _ listing =>
    cases reviewed with
    | none => exact Or.inl (by cases stay <;> rfl)
    | some l => exact Or.inr ⟨l, aggregates, listing l rfl, by cases stay <;> rfl⟩
  | hostBlock => exact Or.inl (by rw [publish_blocks])
  | _ => exact Or.inl rfl

/-- No effect changes the policy of a listing. -/
theorem policy_persists (h : Effect env strict c held s ws) (id : ℕ) :
    policyOf ((publish s ws).listings.find? id) = policyOf (s.listings.find? id) := by
  obtain hsame | ⟨l, aggregates, hrow, hput⟩ := listings_effect h
  · rw [hsame]
  · rw [hput, Table.find?_put]
    split_ifs with hid
    · rw [show id = l.id from hid, hrow]
      rfl
    · rfl

end NexaStays.Persistence
