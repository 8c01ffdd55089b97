import NexaStays.Persistence

/-!
# The invariant of the committed store

Four parts: held nights of a listing are disjoint, the ledger of a booking has one of
three forms, intents agree with their bookings, and the gateway was only asked for
what the ledger justifies. Every effect keeps them.
-/
namespace NexaStays.Invariant

open NexaStays.KeyedTable NexaStays.Transactions NexaStays.Database NexaStays.Money
  NexaStays.Availability NexaStays.Payments NexaStays.Cancellation NexaStays.Calls
  NexaStays.Effects NexaStays.Persistence

/-- The half-open night ranges of two stays have no night in common. -/
def Apart (a b : StaysBooking) : Prop :=
  a.checkoutDate ≤ b.checkinDate ∨ b.checkoutDate ≤ a.checkinDate

theorem Apart.symm {a b : StaysBooking} (h : Apart a b) : Apart b a := Or.symm h

structure BookingsKept (t : Table StaysBooking.id) : Prop where
  apart : ∀ a ∈ t.rows, ∀ b ∈ t.rows, a.id ≠ b.id → a.listingId = b.listingId →
    a.status ∈ bookedStatuses → b.status ∈ bookedStatuses → Apart a b
  dates : ∀ b ∈ t.rows, b.checkinDate < b.checkoutDate
  priced : ∀ b ∈ t.rows, Priced b

/-- No booking moves into a status that holds nights from one that does not. -/
theorem booked_of_moves {s : Store} {b b' : StaysBooking} (h : Moves s b b')
    (hb' : b'.status ∈ bookedStatuses) : b.status ∈ bookedStatuses := by
  cases h with
  | expire => simp [bookedStatuses] at hb'
  | confirm hpending => simp [hpending, bookedStatuses]
  | @cancel by' => cases by' <;> simp [bookedStatuses, CancelledBy.status] at hb'
  | complete => simp [bookedStatuses] at hb'

theorem BookingsKept.new {s : Store} {b : StaysBooking} (h : BookingsKept s.bookings)
    (hnew : NewBooking s b) : BookingsKept (s.bookings.put b) := by
  have hfree := overlappingBookings_eq_nil.mp hnew.free
  refine ⟨fun x hx y hy hne hl hbx hby => ?_, fun x hx => ?_, fun x hx => ?_⟩
  · obtain rfl | ⟨hx', -⟩ := Table.mem_put.mp hx <;>
      obtain rfl | ⟨hy', -⟩ := Table.mem_put.mp hy
    · exact absurd rfl hne
    · exact hfree y hy' hl.symm hby
    · exact Apart.symm (hfree x hx' hl hbx)
    · exact h.apart x hx' y hy' hne hl hbx hby
  · obtain rfl | ⟨hx, -⟩ := Table.mem_put.mp hx
    · exact hnew.dates
    · exact h.dates x hx
  · obtain rfl | ⟨hx, -⟩ := Table.mem_put.mp hx
    · exact hnew.priced
    · exact h.priced x hx

theorem BookingsKept.moved {s : Store} {b b' : StaysBooking} (h : BookingsKept s.bookings)
    (hrow : s.bookings.find? b.id = some b) (hmove : Moves s b b') :
    BookingsKept (s.bookings.put b') := by
  have hb := Table.mem_of_find? hrow
  have hbooked := booked_of_moves hmove
  obtain ⟨status, completedAt, rfl⟩ := hmove.sameStay
  refine ⟨fun x hx y hy hne hl hbx hby => ?_, fun x hx => ?_, fun x hx => ?_⟩
  · obtain rfl | ⟨hx', -⟩ := Table.mem_put.mp hx <;>
      obtain rfl | ⟨hy', -⟩ := Table.mem_put.mp hy
    · exact absurd rfl hne
    · exact h.apart b hb y hy' hne hl (hbooked hbx) hby
    · exact h.apart x hx' b hb hne hl hbx (hbooked hby)
    · exact h.apart x hx' y hy' hne hl hbx hby
  · obtain rfl | ⟨hx, -⟩ := Table.mem_put.mp hx
    · exact h.dates b hb
    · exact h.dates x hx
  · obtain rfl | ⟨hx, -⟩ := Table.mem_put.mp hx
    · exact ⟨(h.priced b hb).total, (h.priced b hb).payout⟩
    · exact h.priced x hx

variable {env : Env} {strict : Prop} {c : Call} {held : List Key} {s : Store} {ws : List Write}

theorem BookingsKept.effect (h : BookingsKept s.bookings) (he : Effect env strict c held s ws) :
    BookingsKept (publish s ws).bookings := by
  obtain hsame | ⟨b, hnew, -, -, hput⟩ | ⟨b, b', hrow, hmove, hput⟩ := bookings_effect he
  · rwa [hsame]
  · exact hput ▸ h.new hnew
  · exact hput ▸ h.moved hrow hmove

/-- The three entries of a confirmed payment: the guest's money is the payout and the fees. -/
structure PaymentRows (b : StaysBooking) (gp pf hp : StaysLedgerEntry) : Prop where
  guestPayment : gp.type = .guestPayment ∧ gp.status = .settled ∧
    gp.amount = b.totalSubtotal + b.guestFee
  platformFee : pf.type = .platformFee ∧ pf.amount = b.guestFee + b.hostFee
  hostPayout : hp.type = .hostPayout ∧ hp.status = .pending ∧
    hp.amount = b.totalSubtotal - b.hostFee

structure RefundRow (b : StaysBooking) (rf : StaysLedgerEntry) : Prop where
  type : rf.type = .refund
  positive : 0 < rf.amount
  bounded : rf.amount ≤ b.totalSubtotal + b.guestFee

/-- Where a payment has been made. -/
def paidStatuses : List BookingStatus :=
  [.confirmed, .checkedIn, .completed, .cancelledByGuest, .cancelledByHost]

/-- Where a refund may have been recorded. -/
def refundedStatuses : List BookingStatus := [.completed, .cancelledByGuest, .cancelledByHost]

/-- The ledger of a booking, with the statuses it goes with. -/
inductive BookingLedger (b : StaysBooking) : List StaysLedgerEntry → Prop where
  | unpaid (status : b.status ∉ confirmedBookingStatuses) : BookingLedger b []
  | paid {gp pf hp} (status : b.status ∈ paidStatuses) (rows : PaymentRows b gp pf hp) :
    BookingLedger b [gp, pf, hp]
  | refunded {gp pf hp rf} (status : b.status ∈ refundedStatuses) (rows : PaymentRows b gp pf hp)
    (refund : RefundRow b rf) : BookingLedger b [gp, pf, hp, rf]

structure LedgersKept (s : Store) : Prop where
  owned : ∀ e ∈ s.ledger.rows, ∃ b, s.bookings.find? e.bookingId = some b
  form : ∀ b ∈ s.bookings.rows, BookingLedger b (ledgerOf s b.id)

theorem settledGuestPayment_eq (s : Store) (id : ℕ) : settledGuestPayment s id =
    (ledgerOf s id).filter fun e => e.type = .guestPayment ∧ e.status = .settled := by
  simp [settledGuestPayment, ledgerOf, List.filter_filter, Bool.and_comm]

theorem refundsOf_eq (s : Store) (id : ℕ) :
    refundsOf id s = (ledgerOf s id).filter fun e => e.type = .refund := by
  simp [refundsOf, ledgerOf, List.filter_filter, Bool.and_comm]

/-- A booking is paid exactly when its ledger is not empty. -/
theorem LedgersKept.paid_iff (h : LedgersKept s) {b : StaysBooking} (hb : b ∈ s.bookings.rows) :
    Paid s b.id ↔ ledgerOf s b.id ≠ [] := by
  rw [Paid, settledGuestPayment_eq]
  have hform := h.form b hb
  generalize ledgerOf s b.id = l at hform
  cases hform with
  | unpaid => simp
  | paid _ rows => simp [rows.guestPayment]
  | refunded _ rows => simp [rows.guestPayment]

theorem LedgersKept.refunded_status (h : LedgersKept s) {b : StaysBooking}
    (hb : b ∈ s.bookings.rows) (hrefund : refundsOf b.id s ≠ []) :
    b.status ∈ refundedStatuses := by
  rw [refundsOf_eq] at hrefund
  have hform := h.form b hb
  generalize ledgerOf s b.id = l at hform hrefund
  cases hform with
  | unpaid => simp at hrefund
  | paid _ rows =>
    simp [rows.guestPayment, rows.platformFee, rows.hostPayout] at hrefund
  | refunded status => exact status

theorem paid_of_refunded {status : BookingStatus} (h : status ∈ refundedStatuses) :
    status ∈ paidStatuses := by
  revert h
  cases status <;> decide

theorem not_paid_of_pre {status : BookingStatus} (h : status ∈ preConfirmationBookingStatuses) :
    status ∉ paidStatuses := by
  revert h
  cases status <;> decide

/-- A ledger goes with a booking that moves on, unless it is being confirmed. -/
theorem BookingLedger.moved {b b' : StaysBooking} {l : List StaysLedgerEntry}
    (h : BookingLedger b l) (hmove : Moves s b b') (hpaid : Paid s b.id → l ≠ [])
    (hnot : b.status = .paymentPending → b'.status ≠ .confirmed) : BookingLedger b' l := by
  have hsame := hmove.sameStay
  have hunpaid : l = [] → b'.status ∉ confirmedBookingStatuses := by
    intro hnil
    cases hmove with
    | expire => simp [confirmedBookingStatuses]
    | confirm hpending => exact absurd rfl (hnot hpending)
    | @cancel by' => cases by' <;> simp [confirmedBookingStatuses, CancelledBy.status]
    | complete hp => exact absurd hnil (hpaid hp)
  have hrefunded : b.status ∈ paidStatuses → b'.status ∈ refundedStatuses := by
    intro hstatus
    cases hmove with
    | expire hpre => exact absurd hstatus (not_paid_of_pre hpre)
    | confirm hpending => simp [hpending, paidStatuses] at hstatus
    | @cancel by' => cases by' <;> simp [refundedStatuses, CancelledBy.status]
    | complete => simp [refundedStatuses]
  obtain ⟨status, completedAt, rfl⟩ := hsame
  cases h with
  | unpaid => exact .unpaid (hunpaid rfl)
  | paid hstatus rows =>
    exact .paid (paid_of_refunded (hrefunded hstatus))
      ⟨rows.guestPayment, rows.platformFee, rows.hostPayout⟩
  | refunded hstatus rows refund =>
    exact .refunded (hrefunded (paid_of_refunded hstatus))
      ⟨rows.guestPayment, rows.platformFee, rows.hostPayout⟩
      ⟨refund.type, refund.positive, refund.bounded⟩

variable {s' : Store}

theorem LedgersKept.frame (h : LedgersKept s) (hb : s'.bookings = s.bookings)
    (hl : s'.ledger = s.ledger) : LedgersKept s' :=
  ⟨by rw [hb, hl]; exact h.owned, by unfold ledgerOf; rw [hb, hl]; exact h.form⟩

theorem LedgersKept.new (h : LedgersKept s) {b : StaysBooking} (hnew : NewBooking s b)
    (hb : s'.bookings = s.bookings.put b) (hl : s'.ledger = s.ledger) : LedgersKept s' := by
  have hother : ∀ e ∈ s.ledger.rows, e.bookingId ≠ b.id := by
    intro e he hid
    obtain ⟨a, ha⟩ := h.owned e he
    rw [hid, hnew.fresh] at ha
    exact nomatch ha
  have hledger : ∀ id, ledgerOf s' id = ledgerOf s id := fun id => by rw [ledgerOf, hl]; rfl
  refine ⟨fun e he => ?_, fun x hx => ?_⟩
  · rw [hl] at he
    rw [hb, Table.find?_put_of_ne (hother e he)]
    exact h.owned e he
  · rw [hb] at hx
    rw [hledger]
    obtain rfl | ⟨hx, -⟩ := Table.mem_put.mp hx
    · have hnil : ledgerOf s x.id = [] :=
        List.filter_eq_nil_iff.mpr fun e he => by simpa using hother e he
      rw [hnil]
      exact .unpaid (by simp [hnew.status, confirmedBookingStatuses])
    · exact h.form x hx

/-- The rows of bookings after one of them moved on. -/
theorem owned_put {b' : StaysBooking} {id : ℕ}
    (h : ∃ a, s.bookings.find? id = some a) : ∃ a, (s.bookings.put b').find? id = some a := by
  obtain ⟨a, ha⟩ := h
  rw [Table.find?_put]
  split_ifs
  · exact ⟨b', rfl⟩
  · exact ⟨a, ha⟩

theorem LedgersKept.moved (h : LedgersKept s) {b b' : StaysBooking}
    (hrow : s.bookings.find? b.id = some b) (hmove : Moves s b b')
    (hnot : b.status = .paymentPending → b'.status ≠ .confirmed)
    (hb : s'.bookings = s.bookings.put b') (hl : s'.ledger = s.ledger) : LedgersKept s' := by
  have hmem := Table.mem_of_find? hrow
  have hid : b'.id = b.id := by
    obtain ⟨_, _, rfl⟩ := hmove.sameStay
    rfl
  have hledger : ∀ id, ledgerOf s' id = ledgerOf s id := fun id => by rw [ledgerOf, hl]; rfl
  refine ⟨fun e he => ?_, fun x hx => ?_⟩
  · rw [hl] at he
    rw [hb]
    exact owned_put (h.owned e he)
  · rw [hb] at hx
    rw [hledger]
    obtain rfl | ⟨hx, -⟩ := Table.mem_put.mp hx
    · rw [hid]
      exact (h.form b hmem).moved hmove (h.paid_iff hmem).mp hnot
    · exact h.form x hx

/-- The entries of a booking after an entry of one booking was added. -/
theorem ledgerOf_put {t : Table StaysLedgerEntry.id} {e : StaysLedgerEntry}
    (hfresh : t.find? e.id = none) (id : ℕ) :
    (t.put e).rows.filter (fun x => x.bookingId = id) =
      t.rows.filter (fun x => x.bookingId = id) ++ if e.bookingId = id then [e] else [] := by
  split_ifs with hid
  · exact Table.filter_put_of_absent hfresh (by simpa using hid)
  · simpa using Table.filter_put_of_neg (by simpa using hid) (by simp [hfresh])

theorem LedgersKept.confirmed (h : LedgersKept s) (hkept : BookingsKept s.bookings)
    {i : StaysPaymentIntent} {b : StaysBooking} {gp pf hp : StaysLedgerEntry}
    (hrow : s.bookings.find? b.id = some b) (hstatus : b.status = .paymentPending)
    (hamount : b.totalPaid = some i.amount) (hset : Settlement i b gp pf hp)
    (hfresh : ∀ e ∈ [gp, pf, hp], s.ledger.find? e.id = none)
    (hb : s'.bookings = s.bookings.put { b with status := .confirmed })
    (hl : s'.ledger = ((s.ledger.put gp).put pf).put hp) : LedgersKept s' := by
  have hmem := Table.mem_of_find? hrow
  obtain ⟨hne₁, hne₂, hne₃⟩ := hset.distinct
  obtain ⟨hgp, hpf, hhp⟩ : s.ledger.find? gp.id = none ∧ s.ledger.find? pf.id = none ∧
    s.ledger.find? hp.id = none := by simpa using hfresh
  have hgpid : gp.bookingId = b.id := by rw [hset.guestPayment]; rfl
  have hpfid : pf.bookingId = b.id := by rw [hset.platformFee]; rfl
  have hhpid : hp.bookingId = b.id := by rw [hset.hostPayout]; rfl
  have hledger : ∀ id, ledgerOf s' id =
      ledgerOf s id ++ if b.id = id then [gp, pf, hp] else [] := by
    intro id
    rw [ledgerOf, hl, ledgerOf_put (by simp [hhp, hne₂.symm, hne₃.symm]),
      ledgerOf_put (by simp [hpf, hne₁.symm]), ledgerOf_put hgp, hgpid, hpfid, hhpid]
    split_ifs <;> simp [ledgerOf]
  refine ⟨fun e he => ?_, fun x hx => ?_⟩
  · rw [hb]
    refine owned_put ?_
    rw [hl] at he
    obtain rfl | ⟨he, -⟩ := Table.mem_put.mp he
    · exact ⟨b, by rwa [hhpid]⟩
    obtain rfl | ⟨he, -⟩ := Table.mem_put.mp he
    · exact ⟨b, by rwa [hpfid]⟩
    obtain rfl | ⟨he, -⟩ := Table.mem_put.mp he
    · exact ⟨b, by rwa [hgpid]⟩
    · exact h.owned e he
  · rw [hb] at hx
    rw [hledger]
    obtain rfl | ⟨hx, hne⟩ := Table.mem_put.mp hx
    · have hnil : ledgerOf s b.id = [] := by
        have hform := h.form b hmem
        generalize ledgerOf s b.id = l at hform
        cases hform with
        | unpaid => rfl
        | paid hpaid => simp [hstatus, paidStatuses] at hpaid
        | refunded hpaid => simp [hstatus, refundedStatuses] at hpaid
      have hpriced := hkept.priced b hmem
      have htotal : i.amount = b.totalSubtotal + b.guestFee :=
        Option.some.inj (hamount.symm.trans hpriced.total)
      have hpayout : b.payoutAmount.getD 0 = b.totalSubtotal - b.hostFee := by
        rw [hpriced.payout]
        rfl
      simp only [hnil, if_true, List.nil_append]
      refine .paid (by simp [paidStatuses]) ⟨?_, ?_, ?_⟩
      · rw [hset.guestPayment]
        exact ⟨rfl, rfl, htotal⟩
      · rw [hset.platformFee]
        exact ⟨rfl, rfl⟩
      · rw [hset.hostPayout]
        exact ⟨rfl, rfl, hpayout⟩
    · have hid : b.id ≠ x.id := fun hid => hne hid.symm
      simpa [hid] using h.form x hx

/-- A booking with a payment and without a refund. -/
theorem BookingLedger.unrefunded {b : StaysBooking} {l : List StaysLedgerEntry}
    (h : BookingLedger b l) (hpaid : l ≠ []) (hnone : l.filter (fun e => e.type = .refund) = []) :
    ∃ gp pf hp, l = [gp, pf, hp] ∧ PaymentRows b gp pf hp := by
  cases h with
  | unpaid => exact absurd rfl hpaid
  | @paid gp pf hp _ rows => exact ⟨gp, pf, hp, rfl, rows⟩
  | refunded _ rows refund => simp [refund.type] at hnone

theorem LedgersKept.refund (h : LedgersKept s) {b : StaysBooking} (by' : CancelledBy) {now : ℤ}
    {e : StaysLedgerEntry} (hrow : s.bookings.find? b.id = some b)
    (htotal : 0 < b.totalSubtotal + b.guestFee) (hrule : RefundRule s b now (some e))
    (hb : s'.bookings = s.bookings.put { b with status := by'.status })
    (hl : s'.ledger = s.ledger.put e) : LedgersKept s' := by
  have hmem := Table.mem_of_find? hrow
  obtain ⟨hfresh, hpaid, hnone, hpos, heq⟩ := hrule.entry e rfl
  have hid : e.bookingId = b.id := by rw [heq]; rfl
  refine ⟨fun x hx => ?_, fun x hx => ?_⟩
  · rw [hb]
    refine owned_put ?_
    rw [hl] at hx
    obtain rfl | ⟨hx, -⟩ := Table.mem_put.mp hx
    · exact ⟨b, by rwa [hid]⟩
    · exact h.owned x hx
  · rw [hb] at hx
    rw [ledgerOf, hl, ledgerOf_put hfresh, hid]
    obtain rfl | ⟨hx, hne⟩ := Table.mem_put.mp hx
    · rw [refundsOf_eq] at hnone
      obtain ⟨gp, pf, hp, hlist, rows⟩ :=
        (h.form b hmem).unrefunded ((h.paid_iff hmem).mp hpaid) hnone
      have hledger : s.ledger.rows.filter (fun x => x.bookingId = b.id) = [gp, pf, hp] := hlist
      simp only [hledger, if_true, List.cons_append, List.nil_append]
      refine .refunded (by cases by' <;> simp [CancelledBy.status, refundedStatuses])
        ⟨rows.guestPayment, rows.platformFee, rows.hostPayout⟩ ⟨by rw [heq]; rfl, hpos, ?_⟩
      rw [heq]
      exact calculateRefund_le _ _ htotal
    · have hne' : b.id ≠ x.id := fun hid => hne hid.symm
      simpa [hne', ledgerOf] using h.form x hx

theorem LedgersKept.settled (h : LedgersKept s) {e : StaysLedgerEntry}
    (hrow : s.ledger.find? e.id = some e) (htype : e.type = .refund)
    (hb : s'.bookings = s.bookings)
    (hl : s'.ledger = s.ledger.put { e with status := .settled }) : LedgersKept s' := by
  have hother : ∀ x ∈ s.ledger.rows, x.type ≠ .refund → x.id ≠ e.id := by
    intro x hx hne hid
    exact hne (s.ledger.eq_of_key_eq hx (Table.mem_of_find? hrow) hid ▸ htype)
  refine ⟨fun x hx => ?_, fun b hb' => ?_⟩
  · rw [hb]
    rw [hl] at hx
    obtain rfl | ⟨hx, -⟩ := Table.mem_put.mp hx
    · exact h.owned e (Table.mem_of_find? hrow)
    · exact h.owned x hx
  · rw [hb] at hb'
    have hform := h.form b hb'
    by_cases hid : e.bookingId = b.id
    · have hmap : ledgerOf s' b.id = (ledgerOf s b.id).map
          fun x => if x.id = e.id then { e with status := .settled } else x := by
        rw [ledgerOf, hl]
        exact Table.filter_put_of_present hrow (by simpa using hid) (by simpa using hid)
      have hmem : ∀ x ∈ ledgerOf s b.id, x ∈ s.ledger.rows := fun x hx => (List.mem_filter.mp hx).1
      rw [hmap]
      generalize ledgerOf s b.id = l at hform hmem
      have hpay : ∀ {gp pf hp}, PaymentRows b gp pf hp → gp ∈ s.ledger.rows → pf ∈ s.ledger.rows →
          hp ∈ s.ledger.rows → gp.id ≠ e.id ∧ pf.id ≠ e.id ∧ hp.id ≠ e.id :=
        fun rows hgp hpf hhp => ⟨hother _ hgp (by simp [rows.guestPayment]),
          hother _ hpf (by simp [rows.platformFee]), hother _ hhp (by simp [rows.hostPayout])⟩
      cases hform with
      | unpaid status => exact .unpaid status
      | paid status rows =>
        obtain ⟨h₁, h₂, h₃⟩ := hpay rows (hmem _ (by simp)) (hmem _ (by simp)) (hmem _ (by simp))
        simpa [h₁, h₂, h₃] using BookingLedger.paid status rows
      | @refunded _ _ _ rf status rows refund =>
        obtain ⟨h₁, h₂, h₃⟩ := hpay rows (hmem _ (by simp)) (hmem _ (by simp)) (hmem _ (by simp))
        simp only [List.map_cons, List.map_nil, h₁, h₂, h₃, if_false]
        refine .refunded status rows ?_
        split_ifs with hrf
        · obtain rfl : rf = e :=
            s.ledger.eq_of_key_eq (hmem rf (by simp)) (Table.mem_of_find? hrow) hrf
          exact ⟨refund.type, refund.positive, refund.bounded⟩
        · exact refund
    · have hsame : ledgerOf s' b.id = ledgerOf s b.id := by
        rw [ledgerOf, hl]
        exact Table.filter_put_of_neg (by simpa using hid) (by simp [hrow, hid])
      rwa [hsame]

structure IntentsKept (s : Store) : Prop where
  booking : ∀ i ∈ s.intents.rows, ∃ b, s.bookings.find? i.bookingId = some b ∧
    b.totalPaid = some i.amount
  positive : ∀ i ∈ s.intents.rows, 0 < i.amount
  order : ∀ i ∈ s.intents.rows, i.provider = .cmi →
    ∃ n, i.providerIntentId = some (orderId i.bookingId n)
  succeeded : ∀ i ∈ s.intents.rows, i.status = .succeeded → Paid s i.bookingId
  captured : ∀ i ∈ s.intents.rows, i.metadata.cmiCaptureStatus = some .succeeded →
    CaptureAsked s i
  payer : ∀ id, Paid s id → ∃ i ∈ s.intents.rows, i.bookingId = id ∧ i.status = .succeeded

theorem message_persists (hseq : ∀ m ∈ s.gateway.rows, m.seq < s.gateway.rows.length)
    (h : Effect env strict c held s ws) {m : GatewayMessage} (hm : m ∈ s.gateway.rows) :
    m ∈ (publish s ws).gateway.rows := by
  obtain hsame | ⟨op, oid, amount, delivered, -, rfl⟩ := gateway_effect h
  · rwa [hsame]
  · rw [gateway_publish_message, Table.mem_put]
    exact Or.inr ⟨hm, (hseq m hm).ne⟩

theorem captureAsked_persists (hseq : ∀ m ∈ s.gateway.rows, m.seq < s.gateway.rows.length)
    (h : Effect env strict c held s ws) {i i' : StaysPaymentIntent} (hsame : SameOrder i i')
    (hasked : CaptureAsked s i) : CaptureAsked (publish s ws) i' := by
  obtain ⟨m, hm, hop, hoid⟩ := hasked
  obtain ⟨_, _, rfl⟩ := hsame
  exact ⟨m, message_persists hseq h hm, hop, hoid⟩

/-- A settled payment is an old one, or the one of an intent that has just succeeded. -/
theorem paid_origin (h : Effect env strict c held s ws) {id : ℕ} (hpaid : Paid (publish s ws) id) :
    Paid s id ∨ ∃ i ∈ (publish s ws).intents.rows, i.bookingId = id ∧ i.status = .succeeded := by
  obtain ⟨e, he, hid, htype, hstatus⟩ := paid_iff.mp hpaid
  obtain hsame | ⟨i, b, gp, pf, hp, -, -, -, hbook, hset, -, -, hintents, hput⟩ |
    ⟨b, userId, by', now, r, -, -, -, -, hrule, -, hput⟩ | ⟨r, -, htyper, -, hput⟩ := ledger_effect h
  · exact Or.inl (paid_iff.mpr ⟨e, by rwa [hsame] at he, hid, htype, hstatus⟩)
  · have hsucceeded : b.id = id → ∃ i ∈ (publish s ws).intents.rows,
        i.bookingId = id ∧ i.status = .succeeded := by
      intro heq
      exact ⟨{ i with status := .succeeded }, hintents ▸ Table.mem_put_self _ _,
        hbook.trans heq, rfl⟩
    rw [hput] at he
    obtain rfl | ⟨he, -⟩ := Table.mem_put.mp he
    · exact Or.inr (hsucceeded (by rw [← hid, hset.hostPayout]; rfl))
    obtain rfl | ⟨he, -⟩ := Table.mem_put.mp he
    · exact Or.inr (hsucceeded (by rw [← hid, hset.platformFee]; rfl))
    obtain rfl | ⟨he, -⟩ := Table.mem_put.mp he
    · exact Or.inr (hsucceeded (by rw [← hid, hset.guestPayment]; rfl))
    · exact Or.inl (paid_iff.mpr ⟨e, he, hid, htype, hstatus⟩)
  · rw [hput] at he
    obtain rfl | ⟨he, -⟩ := Table.mem_put.mp he
    · rw [(hrule.entry e rfl).2.2.2.2] at htype
      simp [ledgerEntry] at htype
    · exact Or.inl (paid_iff.mpr ⟨e, he, hid, htype, hstatus⟩)
  · rw [hput] at he
    obtain rfl | ⟨he, -⟩ := Table.mem_put.mp he
    · simp [htyper] at htype
    · exact Or.inl (paid_iff.mpr ⟨e, he, hid, htype, hstatus⟩)

theorem IntentsKept.effect (hi : IntentsKept s)
    (hseq : ∀ m ∈ s.gateway.rows, m.seq < s.gateway.rows.length)
    (h : Effect env strict c held s ws) : IntentsKept (publish s ws) := by
  have hbooking : ∀ {id b}, s.bookings.find? id = some b →
      ∃ b', (publish s ws).bookings.find? id = some b' ∧ b'.totalPaid = b.totalPaid := by
    intro id b hb
    obtain ⟨b', hb', _, _, rfl⟩ := sameStay_persists h hb
    exact ⟨_, hb', rfl⟩
  refine ⟨fun x hx => ?_, fun x hx => ?_, fun x hx => ?_, fun x hx => ?_, fun x hx => ?_,
    fun id hpaid => ?_⟩
  · have hold : ∃ b, s.bookings.find? x.bookingId = some b ∧ b.totalPaid = some x.amount := by
      obtain hx | hnew | ⟨i, hmem, hmove⟩ := intent_origin h hx
      · exact hi.booking x hx
      · exact hnew.booking
      · obtain ⟨_, _, rfl⟩ := hmove.sameOrder
        exact hi.booking i hmem
    obtain ⟨b, hb, htotal⟩ := hold
    obtain ⟨b', hb', hpaid⟩ := hbooking hb
    exact ⟨b', hb', hpaid.trans htotal⟩
  · obtain hx | hnew | ⟨i, hmem, hmove⟩ := intent_origin h hx
    · exact hi.positive x hx
    · exact hnew.positive
    · obtain ⟨_, _, rfl⟩ := hmove.sameOrder
      exact hi.positive i hmem
  · obtain hx | hnew | ⟨i, hmem, hmove⟩ := intent_origin h hx
    · exact hi.order x hx
    · exact hnew.order
    · obtain ⟨_, _, rfl⟩ := hmove.sameOrder
      exact hi.order i hmem
  · intro hstatus
    obtain hx | hnew | ⟨i, hmem, hmove⟩ := intent_origin h hx
    · exact paid_persists h (hi.succeeded x hx hstatus)
    · simp [hnew.status] at hstatus
    · cases hmove with
      | succeed paid => exact paid
      | fail => simp at hstatus
      | cancel => simp [cancelled] at hstatus
      | patch => exact paid_persists h (hi.succeeded i hmem hstatus)
  · intro hcaptured
    obtain hx | hnew | ⟨i, hmem, hmove⟩ := intent_origin h hx
    · exact captureAsked_persists hseq h (.refl x) (hi.captured x hx hcaptured)
    · simp [hnew.metadata] at hcaptured
    · have hasked : CaptureAsked s i := by
        cases hmove with
        | succeed => exact hi.captured i hmem hcaptured
        | fail => exact hi.captured i hmem hcaptured
        | cancel => exact hi.captured i hmem hcaptured
        | patch asked => exact asked hcaptured
      exact captureAsked_persists hseq h hmove.sameOrder hasked
  · obtain hold | hnew := paid_origin h hpaid
    · obtain ⟨i, hmem, hbook, hstatus⟩ := hi.payer id hold
      obtain ⟨i', hmem', ⟨_, _, rfl⟩, hstatus'⟩ := intent_persists h hmem
      exact ⟨_, hmem', hbook, hstatus' hstatus⟩
    · exact hnew

/-- A paid booking has a positive total. -/
theorem IntentsKept.total_pos (hi : IntentsKept s) (hk : BookingsKept s.bookings)
    {b : StaysBooking} (hrow : s.bookings.find? b.id = some b) (hpaid : Paid s b.id) :
    0 < b.totalSubtotal + b.guestFee := by
  obtain ⟨i, hmem, hbook, -⟩ := hi.payer b.id hpaid
  obtain ⟨a, ha, htotal⟩ := hi.booking i hmem
  rw [hbook, hrow] at ha
  obtain rfl : b = a := Option.some.inj ha
  have hpriced := (hk.priced b (Table.mem_of_find? hrow)).total
  have hamount : i.amount = b.totalSubtotal + b.guestFee :=
    Option.some.inj (htotal.symm.trans hpriced)
  have hpos := hi.positive i hmem
  omega

theorem LedgersKept.effect (h : LedgersKept s) (hk : BookingsKept s.bookings) (hi : IntentsKept s)
    (he : Effect env strict c held s ws) : LedgersKept (publish s ws) := by
  cases he with
  | book _ new => exact h.new new rfl rfl
  | openIntent => exact h.frame rfl rfl
  | expire row status => exact h.moved row (.expire status) (by simp) rfl rfl
  | dropIntents => exact h.frame (by rw [publish_cancelWrites]) (by rw [publish_cancelWrites])
  | @confirm i b _ _ _ _ intent booking ofBooking status settlement fresh =>
    have hamount : b.totalPaid = some i.amount := by
      obtain ⟨a, ha, htotal⟩ := hi.booking i (Table.mem_of_find? intent)
      rw [ofBooking, booking] at ha
      obtain rfl : b = a := Option.some.inj ha
      exact htotal
    exact h.confirmed hk booking status hamount settlement fresh rfl rfl
  | markPaid => exact h.frame rfl rfl
  | reject _ _ booking status =>
    have hpre : .paymentPending ∈ preConfirmationBookingStatuses := by decide
    exact h.moved booking (.expire (status ▸ hpre)) (by simp) rfl rfl
  | @cancel b by' _ now refund is _ booking status rule =>
    cases refund with
    | none =>
      refine h.moved booking (@Moves.cancel _ _ by' status) (fun _ => ?_)
        (by simp [publish_cancelWrites, Store.write]) (by simp [publish_cancelWrites, Store.write])
      cases by' <;> simp [CancelledBy.status]
    | some e =>
      have hpaid := (rule.entry e rfl).2.1
      exact h.refund by' booking (hi.total_pos hk booking hpaid) rule
        (by simp [publish_cancelWrites, Store.write]) (by simp [publish_cancelWrites, Store.write])
  | complete row paid => exact h.moved row (.complete paid) (by simp) rfl rfl
  | @review stay completedAt _ reviewed _ booking =>
    cases stay with
    | none => exact h.frame (by cases reviewed <;> rfl) (by cases reviewed <;> rfl)
    | some b =>
      obtain ⟨row, paid⟩ := booking b rfl
      exact h.moved row (@Moves.complete _ _ completedAt paid) (by simp)
        (by cases reviewed <;> rfl) (by cases reviewed <;> rfl)
  | message => exact h.frame rfl rfl
  | patch => exact h.frame rfl rfl
  | settleRefund row type => exact h.settled row type rfl rfl
  | hostBlock => exact h.frame (by rw [publish_blocks]) (by rw [publish_blocks])

/-- The traffic is numbered; every message was justified, and an authorisation is used
once. -/
structure GatewayKept (s : Store) : Prop where
  numbered : ∀ m ∈ s.gateway.rows, m.seq < s.gateway.rows.length
  known : ∀ m ∈ s.gateway.rows, MessageKnown s m.oid m.op
  once : ∀ m ∈ s.gateway.rows, ∀ n ∈ s.gateway.rows, m.op = .postAuth → n.op = .postAuth →
    m.accepted = true → n.accepted = true → m.oid = n.oid → m = n

/-- What justified a message is not taken back. -/
theorem messageKnown_persists (h : Effect env strict c held s ws) {oid : String} {op : CmiOp}
    (hknown : MessageKnown s oid op) : MessageKnown (publish s ws) oid op := by
  cases op with
  | preAuth => trivial
  | callback => trivial
  | postAuth =>
    obtain ⟨id, horder, hpaid⟩ := hknown
    exact ⟨id, orderFor_persists h horder, paid_persists h hpaid⟩
  | void =>
    obtain ⟨id, horder, hclosed⟩ := hknown
    exact ⟨id, orderFor_persists h horder, closedUnpaid_persists h hclosed⟩
  | credit =>
    obtain ⟨id, horder, hrefund⟩ := hknown
    exact ⟨id, orderFor_persists h horder, refunded_persists h hrefund⟩

theorem rows_put_message (h : GatewayKept s) (op : CmiOp) (oid : String) (amount : Option ℤ)
    (delivered : Bool) : (s.gateway.put (gatewayMessage op oid amount delivered s)).rows =
      s.gateway.rows ++ [gatewayMessage op oid amount delivered s] :=
  Table.rows_put_of_absent (Table.find?_eq_none.mpr fun m hm => (h.numbered m hm).ne)

/-- A second `PostAuth` of an order is not accepted. -/
theorem not_accepted_again {m : GatewayMessage} (hm : m ∈ s.gateway.rows) (hop : m.op = .postAuth)
    (haccepted : m.accepted = true) (amount : Option ℤ) (delivered : Bool) :
    (gatewayMessage .postAuth m.oid amount delivered s).accepted = false := by
  have hused : (s.gateway.rows.any fun n =>
      n.oid = m.oid ∧ (n.op = .postAuth ∨ n.op = .void) ∧ n.accepted) = true :=
    List.any_eq_true.mpr ⟨m, hm, by simp [hop, haccepted]⟩
  have hclosed : preAuthOpen s m.oid = false := by
    rw [preAuthOpen, hused]
    simp
  simp [gatewayMessage, gatewayAccepts, hclosed]

theorem GatewayKept.effect (hg : GatewayKept s) (h : Effect env strict c held s ws) :
    GatewayKept (publish s ws) := by
  obtain hsame | ⟨op, oid, amount, delivered, hknown, rfl⟩ := gateway_effect h
  · refine ⟨?_, fun m hm => ?_, ?_⟩
    · rw [hsame]
      exact hg.numbered
    · exact messageKnown_persists h (hg.known m (by rwa [hsame] at hm))
    · rw [hsame]
      exact hg.once
  · have hrows := rows_put_message hg op oid amount delivered
    rw [← gateway_publish_message] at hrows
    refine ⟨fun m hm => ?_, fun m hm => ?_, fun m hm n hn hmop hnop hma hna hoid => ?_⟩
    · rw [hrows] at hm ⊢
      rw [List.length_append, List.length_singleton]
      obtain hm | rfl := List.mem_append.mp hm |>.imp_right List.mem_singleton.mp
      · have hlt := hg.numbered m hm
        omega
      · exact Nat.lt_succ_self _
    · rw [hrows] at hm
      obtain hm | rfl := List.mem_append.mp hm |>.imp_right List.mem_singleton.mp
      · exact messageKnown_persists h (hg.known m hm)
      · exact messageKnown_persists h hknown
    · rw [hrows] at hm hn
      obtain hm' | rfl := List.mem_append.mp hm |>.imp_right List.mem_singleton.mp <;>
        obtain hn' | rfl := List.mem_append.mp hn |>.imp_right List.mem_singleton.mp
      · exact hg.once m hm' n hn' hmop hnop hma hna hoid
      · obtain rfl : op = .postAuth := hnop
        obtain rfl : m.oid = oid := hoid
        simp [not_accepted_again hm' hmop hma] at hna
      · obtain rfl : op = .postAuth := hmop
        obtain rfl : oid = n.oid := hoid
        simp [not_accepted_again hn' hnop hna] at hma
      · rfl

structure Consistent (s : Store) : Prop where
  bookings : BookingsKept s.bookings
  ledgers : LedgersKept s
  intents : IntentsKept s
  gateway : GatewayKept s

theorem Consistent.effect (hs : Consistent s) (h : Effect env strict c held s ws) :
    Consistent (publish s ws) where
  bookings := hs.bookings.effect h
  ledgers := hs.ledgers.effect hs.bookings hs.intents h
  intents := hs.intents.effect hs.gateway.numbered h
  gateway := hs.gateway.effect h

theorem consistent_of_fresh (h : Store.Fresh s) : Consistent s := by
  have hunpaid : ∀ id, ¬Paid s id := fun id hpaid => by simp [paid_iff, h.ledger] at hpaid
  refine ⟨⟨?_, ?_, ?_⟩, ⟨?_, ?_⟩, ⟨?_, ?_, ?_, ?_, ?_, ?_⟩, ⟨?_, ?_, ?_⟩⟩ <;>
    simp [h.bookings, h.intents, h.ledger, h.gateway, hunpaid]

end NexaStays.Invariant
