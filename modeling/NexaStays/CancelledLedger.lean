import NexaStays.Conformance.System
import NexaStays.HostReports

/-!
# The ledger of a cancelled booking

Cancelling a paid booking records the refund and leaves the payout of the host in the
reports. The payment covers both only where nothing is refunded: when the booking was
unpaid, or was cancelled after the last moment of its policy.
-/
namespace NexaStays.CancelledLedger

open NexaStays.KeyedTable NexaStays.Transactions NexaStays.Database NexaStays.Money
  NexaStays.Payments NexaStays.Cancellation NexaStays.Calls NexaStays.Effects
  NexaStays.Persistence NexaStays.Invariant NexaStays.HostReports NexaStays.Conformance

def amountOf (s : Store) (bookingId : ℕ) (type : EntryType) : ℤ :=
  (((ledgerOf s bookingId).filter fun e => e.type = type).map (·.amount)).sum

def settledPayment (s : Store) (bookingId : ℕ) : ℤ :=
  ((settledGuestPayment s bookingId).map (·.amount)).sum

/-- The guest's money pays for the payout in the reports, the fee and the refund. -/
def Covered (s : Store) (bookingId : ℕ) : Prop :=
  reportedPayout s bookingId + amountOf s bookingId .platformFee + amountOf s bookingId .refund ≤
    settledPayment s bookingId

/-- The payout and the fee use up the payment, so there is nothing left for a refund. -/
theorem covered_iff {s : Store} {b : StaysBooking} (h : BookingLedger b (ledgerOf s b.id)) :
    Covered s b.id ↔ refundsOf b.id s = [] := by
  unfold Covered settledPayment amountOf reportedPayout
  rw [settledGuestPayment_eq, refundsOf_eq]
  generalize ledgerOf s b.id = l at h
  cases h with
  | unpaid => simp
  | @paid gp pf hp _ rows =>
    obtain ⟨hgp, hgps, hgpa⟩ := rows.guestPayment
    obtain ⟨hpf, hpfa⟩ := rows.platformFee
    obtain ⟨hhp, hhps, hhpa⟩ := rows.hostPayout
    simp only [countsAsPayout, List.filter_cons, List.filter_nil, hgp, hgps, hpf, hhp, hhps]
    simp only [hgpa, hpfa, hhpa, reduceCtorEq, false_and, true_and, List.mem_cons, true_or,
      decide_true, decide_false, if_true, if_false, Bool.false_eq_true, List.map_cons,
      List.map_nil, List.sum_cons, List.sum_nil, iff_true]
    omega
  | @refunded gp pf hp rf _ rows refund =>
    obtain ⟨hgp, hgps, hgpa⟩ := rows.guestPayment
    obtain ⟨hpf, hpfa⟩ := rows.platformFee
    obtain ⟨hhp, hhps, hhpa⟩ := rows.hostPayout
    have hrf := refund.type
    have hpos := refund.positive
    simp only [countsAsPayout, List.filter_cons, List.filter_nil, hgp, hgps, hpf, hhp, hhps, hrf]
    simp only [hgpa, hpfa, hhpa, reduceCtorEq, false_and, true_and, List.mem_cons, true_or,
      decide_true, decide_false, if_true, if_false, Bool.false_eq_true, List.map_cons,
      List.map_nil, List.sum_cons, List.sum_nil, iff_false]
    omega

/-- The instant of a cancellation. -/
def cancelledAt : Call → Option ℤ
  | .cancel _ _ _ now => some now
  | _ => none

/-- The last moment of the policy has passed for this booking. -/
def Late (s : Store) (b : StaysBooking) (now : ℤ) : Prop :=
  isLate (policyOf (s.listings.find? b.listingId)) (hoursToCheckin b.checkinDate now)

instance (s : Store) (b : StaysBooking) (now : ℤ) : Decidable (Late s b now) :=
  inferInstanceAs (Decidable (isLate _ _))

/-- A cancellation that is carried out on a paid booking is late. -/
def CancelsLate (sys : StaysSystem) (a : Action) : Prop :=
  ∀ now ∈ (sys.caller a).bind cancelledAt, ∀ b ∈ (sys.writes a).filterMap Write.booking?,
    Paid sys.store b.id → Late sys.store b now

instance (sys : StaysSystem) (a : Action) : Decidable (CancelsLate sys a) :=
  inferInstanceAs (Decidable (∀ now ∈ (sys.caller a).bind cancelledAt,
    ∀ b ∈ (sys.writes a).filterMap Write.booking?, Paid sys.store b.id → Late sys.store b now))

variable {env : Env} {strict : Prop} {c : Call} {held : List Key} {s : Store} {ws : List Write}

/-- A refund is an old one, or the one a cancellation records. -/
theorem refund_origin (h : Effect env strict c held s ws) {id : ℕ}
    (hrefund : refundsOf id (publish s ws) ≠ []) :
    refundsOf id s ≠ [] ∨ ∃ b userId by' now e, c = .cancel b.id userId by' now ∧
      .booking { b with status := CancelledBy.status by' } ∈ ws ∧ RefundRule s b now (some e) := by
  obtain ⟨e, he, hid, htype⟩ := refunded_iff.mp hrefund
  obtain hsame | ⟨i, b, gp, pf, hp, -, -, -, -, hset, -, -, -, hput⟩ |
    ⟨b, userId, by', now, r, hcall, hwrite, -, -, hrule, -, -⟩ | ⟨r, hrow, -, -, hput⟩ :=
    ledger_effect h
  · exact Or.inl (refunded_iff.mpr ⟨e, by rwa [hsame] at he, hid, htype⟩)
  · have hnot : e.type ≠ .guestPayment ∧ e.type ≠ .platformFee ∧ e.type ≠ .hostPayout := by
      simp [htype]
    rw [hput] at he
    obtain rfl | ⟨he, -⟩ := Table.mem_put.mp he
    · exact absurd (by rw [hset.hostPayout]; rfl) hnot.2.2
    obtain rfl | ⟨he, -⟩ := Table.mem_put.mp he
    · exact absurd (by rw [hset.platformFee]; rfl) hnot.2.1
    obtain rfl | ⟨he, -⟩ := Table.mem_put.mp he
    · exact absurd (by rw [hset.guestPayment]; rfl) hnot.1
    · exact Or.inl (refunded_iff.mpr ⟨e, he, hid, htype⟩)
  · exact Or.inr ⟨b, userId, by', now, r, hcall, hwrite, hrule⟩
  · rw [hput] at he
    obtain rfl | ⟨he, -⟩ := Table.mem_put.mp he
    · exact Or.inl (refunded_iff.mpr ⟨r, Table.mem_of_find? hrow, hid, htype⟩)
    · exact Or.inl (refunded_iff.mpr ⟨e, he, hid, htype⟩)

/-- Late cancellations record no refund. -/
theorem no_refund {sys : StaysSystem} (h : Reachable env CancelsLate sys) (id : ℕ) :
    refundsOf id sys.store = [] := by
  refine run_of_effects (P := fun s => ∀ id, refundsOf id s = [])
    (fun sys a _ => admits_any sys a) (fun s hfresh id => ?_)
    (fun sys a c ws held hreach hlate hpub heffect hnone id => ?_) h id
  · simp [refundsOf, hfresh.ledger]
  · by_contra hrefund
    obtain hold | ⟨b, userId, by', now, e, hcall, hwrite, hrule⟩ := refund_origin heffect hrefund
    · exact hold (hnone id)
    obtain ⟨-, hpaid, -, hpos, heq⟩ := hrule.entry e rfl
    have hnow : now ∈ (sys.caller a).bind cancelledAt := by
      rw [System.caller_eq hpub, hcall]
      rfl
    have hmem := mem_bookings.mpr (System.writes_eq hpub ▸ hwrite)
    have hzero : theoreticalRefund b (sys.store.listings.find? b.listingId) now = 0 :=
      calculateRefund_of_late (hlate now hnow _ hmem hpaid) _ _
    have hamount : e.amount = theoreticalRefund b (sys.store.listings.find? b.listingId) now := by
      rw [heq]
      rfl
    omega

/-- In a run whose cancellations of paid bookings are all late, the payment of every
cancelled booking covers what its ledger owes. -/
theorem cancelled_covered {env : Env} {sys : StaysSystem} (h : Reachable env CancelsLate sys) :
    ∀ b ∈ sys.store.bookings.rows, b.status ∈ cancelledStatuses → Covered sys.store b.id := by
  intro b hb _
  have hkept := consistent_of_reachable h
  exact (covered_iff (hkept.ledgers.form b hb)).mpr (no_refund h b.id)

/-- A moderate policy, and a cancellation on the day before check-in. -/
theorem cancelled_covered_late : ∃ sys : StaysSystem,
    sys.store.bookings.rows.map (·.status) = [.cancelledByGuest] ∧
    ∀ b ∈ sys.store.bookings.rows, b.status ∈ cancelledStatuses → Covered sys.store b.id := by
  obtain ⟨sys, hreach, hrows⟩ := exists_reachable CancelsLate
    (samplePaying ++ [.cancel 9 2 .guest (21923 * dayMs + 1)])
    (samplePayment ++ System.turns 3 60 10)
    (fun sys => sys.store.bookings.rows.map (·.status) = [.cancelledByGuest])
    (by decide +kernel)
  exact ⟨sys, of_decide_eq_true hrows, cancelled_covered hreach⟩

/-- Two weeks before check-in the guest gets everything back, and the payout stays. -/
theorem early_cancellation_uncovered : ∃ sys : StaysSystem,
    Reachable sampleEnv (fun _ _ => True) sys ∧
    ∃ b ∈ sys.store.bookings.rows, b.status = .cancelledByGuest ∧ ¬Covered sys.store b.id := by
  obtain ⟨sys, hreach, hrow⟩ := exists_reachable (fun _ _ => True)
    (samplePaying ++ [.cancel 9 2 .guest (21910 * dayMs)])
    (samplePayment ++ System.turns 3 60 16)
    (fun sys => sys.store.bookings.rows.any fun b => b.status = .cancelledByGuest ∧
      settledPayment sys.store b.id < reportedPayout sys.store b.id +
        amountOf sys.store b.id .platformFee + amountOf sys.store b.id .refund) (by decide +kernel)
  obtain ⟨b, hb, hboth⟩ := List.any_eq_true.mp hrow
  obtain ⟨hstatus, hless⟩ := of_decide_eq_true hboth
  exact ⟨sys, hreach, b, hb, hstatus, not_le.mpr hless⟩

end NexaStays.CancelledLedger
