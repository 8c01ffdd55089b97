import NexaStays.Conformance.System

/-!
# The ledger of a booking

A booking has no entries, or the three of its payment, which balance, and then at most
one refund, which the payment covers.
-/
namespace NexaStays.LedgerWellFormed

open NexaStays.KeyedTable NexaStays.Transactions NexaStays.Database NexaStays.Payments
  NexaStays.Calls NexaStays.Effects NexaStays.Invariant NexaStays.Conformance

/-- The entries of one kind. -/
def entriesOf (s : Store) (bookingId : ℕ) (type : EntryType) : List StaysLedgerEntry :=
  s.ledger.rows.filter fun e => e.bookingId = bookingId ∧ e.type = type

theorem entriesOf_eq (s : Store) (bookingId : ℕ) (type : EntryType) :
    entriesOf s bookingId type = (ledgerOf s bookingId).filter fun e => e.type = type := by
  simp [entriesOf, ledgerOf, List.filter_filter, Bool.and_comm]

/-- One payment, settled and split into the fee and the payout, and one refund at most. -/
structure Balanced (s : Store) (bookingId : ℕ) (gp pf hp : StaysLedgerEntry) : Prop where
  guestPayment : entriesOf s bookingId .guestPayment = [gp]
  platformFee : entriesOf s bookingId .platformFee = [pf]
  hostPayout : entriesOf s bookingId .hostPayout = [hp]
  settled : gp.status = .settled
  split : gp.amount = pf.amount + hp.amount
  refund : entriesOf s bookingId .refund = [] ∨
    ∃ rf, entriesOf s bookingId .refund = [rf] ∧ rf.amount ≤ gp.amount

theorem split_of_rows {b : StaysBooking} {gp pf hp : StaysLedgerEntry} (h : PaymentRows b gp pf hp) :
    gp.amount = pf.amount + hp.amount := by
  have hgp := h.guestPayment.2.2
  have hpf := h.platformFee.2
  have hhp := h.hostPayout.2.2
  omega

theorem balanced_of_form {s : Store} {b : StaysBooking} (h : BookingLedger b (ledgerOf s b.id)) :
    ledgerOf s b.id = [] ∨ ∃ gp pf hp, Balanced s b.id gp pf hp := by
  generalize hl : ledgerOf s b.id = l at h
  cases h with
  | unpaid => exact Or.inl rfl
  | @paid gp pf hp _ rows =>
    obtain ⟨hgp, hsettled, hamount⟩ := rows.guestPayment
    have hpf := rows.platformFee.1
    have hhp := rows.hostPayout.1
    refine Or.inr ⟨gp, pf, hp, ?_, ?_, ?_, hsettled, split_of_rows rows, Or.inl ?_⟩ <;>
      simp [entriesOf_eq, hl, hgp, hpf, hhp]
  | @refunded gp pf hp rf _ rows refund =>
    obtain ⟨hgp, hsettled, hamount⟩ := rows.guestPayment
    have hpf := rows.platformFee.1
    have hhp := rows.hostPayout.1
    have hrf := refund.type
    have hbound : rf.amount ≤ gp.amount := by
      rw [hamount]
      exact refund.bounded
    refine Or.inr ⟨gp, pf, hp, ?_, ?_, ?_, hsettled, split_of_rows rows, Or.inr ⟨rf, ?_, hbound⟩⟩ <;>
      simp [entriesOf_eq, hl, hgp, hpf, hhp, hrf]

/-- In every reachable state each booking has no ledger entries or a balanced ledger,
and a succeeded intent is one of a booking with a settled payment. -/
theorem ledger_well_formed {env : Env} {sys : StaysSystem}
    (h : Reachable env (fun _ _ => True) sys) :
    (∀ b ∈ sys.store.bookings.rows,
      ledgerOf sys.store b.id = [] ∨ ∃ gp pf hp, Balanced sys.store b.id gp pf hp) ∧
    ∀ i ∈ sys.store.intents.rows, i.status = .succeeded →
      (∃ b, sys.store.bookings.find? i.bookingId = some b) ∧
        ∃ e ∈ entriesOf sys.store i.bookingId .guestPayment, e.status = .settled := by
  have hkept := consistent_of_reachable h
  constructor
  · intro b hb
    exact balanced_of_form (hkept.ledgers.form b hb)
  · intro i hi hsucceeded
    obtain ⟨b, hb, -⟩ := hkept.intents.booking i hi
    obtain ⟨e, he, hid, htype, hsettled⟩ := paid_iff.mp (hkept.intents.succeeded i hi hsucceeded)
    exact ⟨⟨b, hb⟩, e, List.mem_filter.mpr ⟨he, by simp [hid, htype]⟩, hsettled⟩

/-- A payment and its early cancellation. -/
theorem ledger_well_formed_refunded : ∃ sys : StaysSystem,
    sys.store.ledger.rows.map (fun e => (e.type, e.amount)) =
      [(.guestPayment, 21000), (.platformFee, 2000), (.hostPayout, 19000), (.refund, 21000)] ∧
    (∀ b ∈ sys.store.bookings.rows,
      ledgerOf sys.store b.id = [] ∨ ∃ gp pf hp, Balanced sys.store b.id gp pf hp) ∧
    ∀ i ∈ sys.store.intents.rows, i.status = .succeeded →
      (∃ b, sys.store.bookings.find? i.bookingId = some b) ∧
        ∃ e ∈ entriesOf sys.store i.bookingId .guestPayment, e.status = .settled := by
  obtain ⟨sys, hreach, hrows⟩ := exists_reachable (fun _ _ => True)
    (samplePaying ++ [.cancel 9 2 .guest (21910 * dayMs)])
    (samplePayment ++ System.turns 3 60 16)
    (fun sys => sys.store.ledger.rows.map (fun e => (e.type, e.amount)) =
      [(.guestPayment, 21000), (.platformFee, 2000), (.hostPayout, 19000), (.refund, 21000)])
    (by decide +kernel)
  exact ⟨sys, of_decide_eq_true hrows, ledger_well_formed hreach⟩

end NexaStays.LedgerWellFormed
