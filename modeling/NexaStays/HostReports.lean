import NexaStays.Effects
import NexaStays.JsNumbers
import Mathlib.Algebra.BigOperators.Group.List.Basic
import Mathlib.Data.List.Dedup
import Mathlib.Tactic.Ring

/-!
# Payouts in the reports of a host

`sumHostPayoutLedger` of the dashboard and `sumPayoutsByListing` of the analytics add up
the same ledger rows: the pending and the settled payouts of a host's bookings.
-/
namespace NexaStays.HostReports

open NexaStays.KeyedTable NexaStays.Database NexaStays.Effects NexaStays.JsNumbers

open NexaStays.JsNumbers.JsNumber (ofHundredths round)

/-- `type = 'HOST_PAYOUT' AND status IN ('PENDING', 'SETTLED')`. -/
def countsAsPayout (e : StaysLedgerEntry) : Bool :=
  e.type = .hostPayout ∧ e.status ∈ [EntryStatus.pending, .settled]

/-- The booking of an entry, by the inner join. -/
def bookingOf (s : Store) (e : StaysLedgerEntry) : Option StaysBooking :=
  s.bookings.find? e.bookingId

/-- The host of a booking, by the inner join with its listing. -/
def hostOf (s : Store) (b : StaysBooking) : Option ℕ :=
  (s.listings.find? b.listingId).map (·.hostUserId)

/-- The pending and the settled payouts. -/
@[ext]
structure Payouts (R : Type) where
  pending : R
  paidOut : R
  deriving DecidableEq, Repr

section Reports

variable {R : Type} [JsNumber R]

/-- `cur.pending += amt` or `cur.paid_out += amt`. -/
def Payouts.add (cur : Payouts R) (e : StaysLedgerEntry) : Payouts R :=
  let amt := ofHundredths e.amount
  { pending := if e.status = .pending then cur.pending + amt else cur.pending
    paidOut := if e.status = .settled then cur.paidOut + amt else cur.paidOut }

namespace Dashboard

def round2 (n : R) : R := round (n * hundred) / hundred

/-- The rows of the dashboard's query. -/
def payoutRows (s : Store) (hostUserId : ℕ) : List StaysLedgerEntry :=
  s.ledger.rows.filter fun e => countsAsPayout e ∧ (bookingOf s e).bind (hostOf s) = some hostUserId

/-- Nothing for a host without listings. -/
def sumHostPayoutLedger (s : Store) (hostUserId : ℕ) (listingIds : List ℕ) : Payouts R :=
  if listingIds = [] then ⟨0, 0⟩
  else
    let sums := (payoutRows s hostUserId).foldl Payouts.add ⟨0, 0⟩
    ⟨round2 sums.pending, round2 sums.paidOut⟩

end Dashboard

namespace Analytics

def round2 (n : R) : R := round (n * hundred) / hundred

/-- The rows of the analytics' query. -/
def payoutRows (s : Store) (hostUserId : ℕ) : List StaysLedgerEntry :=
  s.ledger.rows.filter fun e => countsAsPayout e ∧ (bookingOf s e).bind (hostOf s) = some hostUserId

/-- The sums of each listing that has a row. -/
def sumPayoutsByListing (s : Store) (hostUserId : ℕ) : List (ℕ × Payouts R) :=
  let rows := payoutRows s hostUserId
  let listingOf := fun e => (bookingOf s e).map (·.listingId)
  (rows.filterMap listingOf).dedup.map fun listingId =>
    (listingId, (rows.filter fun e => listingOf e = some listingId).foldl Payouts.add ⟨0, 0⟩)

end Analytics

end Reports

theorem Dashboard.round2_eq {x : ℚ} (h : IsHundredths x) : Dashboard.round2 x = x := h.round_eq

theorem Analytics.round2_eq {x : ℚ} (h : IsHundredths x) : Analytics.round2 x = x := h.round_eq

/-- What a row adds to one of the two sums. -/
def amountOf (status : EntryStatus) (e : StaysLedgerEntry) : ℚ :=
  if e.status = status then ofHundredths e.amount else 0

theorem isHundredths_amounts (status : EntryStatus) (rows : List StaysLedgerEntry) :
    IsHundredths (rows.map (amountOf status)).sum := by
  induction rows with
  | nil => exact isHundredths_zero
  | cons e rows ih =>
    rw [List.map_cons, List.sum_cons]
    refine IsHundredths.add ?_ ih
    unfold amountOf
    split_ifs
    · exact isHundredths_ofHundredths _
    · exact isHundredths_zero

theorem foldl_add (rows : List StaysLedgerEntry) (cur : Payouts ℚ) :
    rows.foldl Payouts.add cur =
      ⟨cur.pending + (rows.map (amountOf .pending)).sum,
        cur.paidOut + (rows.map (amountOf .settled)).sum⟩ := by
  induction rows generalizing cur with
  | nil => simp
  | cons e rows ih =>
    rw [List.foldl_cons, ih]
    by_cases hpending : e.status = .pending <;> by_cases hsettled : e.status = .settled <;>
      simp [Payouts.add, amountOf, hpending, hsettled, add_assoc]

def Payouts.total (sums : Payouts ℚ) : ℚ := sums.pending + sums.paidOut

/-- A counted row adds its amount to one of the two sums. -/
theorem total_foldl {rows : List StaysLedgerEntry} (h : ∀ e ∈ rows, countsAsPayout e = true) :
    (rows.foldl Payouts.add ⟨0, 0⟩).total = ofHundredths (rows.map (·.amount)).sum := by
  rw [foldl_add, Payouts.total, zero_add, zero_add]
  induction rows with
  | nil => simp [ofHundredths]
  | cons e rows ih =>
    have hstatus : e.status = .pending ∨ e.status = .settled := by
      simpa using (of_decide_eq_true (h e (by simp))).2
    have hcons : amountOf .pending e + amountOf .settled e = (ofHundredths e.amount : ℚ) := by
      obtain hpending | hsettled := hstatus
      · simp [amountOf, hpending]
      · simp [amountOf, hsettled]
    have hrest := ih fun x hx => h x (by simp [hx])
    have hadd : (ofHundredths (e.amount + (rows.map (·.amount)).sum) : ℚ) =
        ofHundredths e.amount + ofHundredths (rows.map (·.amount)).sum := by
      simp only [ofHundredths]
      push_cast
      ring
    rw [List.map_cons, List.map_cons, List.map_cons, List.sum_cons, List.sum_cons, List.sum_cons,
      hadd, ← hrest, ← hcons]
    ring

/-- What the reports count of one booking. -/
def reportedPayout (s : Store) (bookingId : ℕ) : ℤ :=
  (((ledgerOf s bookingId).filter countsAsPayout).map (·.amount)).sum

/-- The two queries are the same. -/
theorem Analytics.payoutRows_eq : Analytics.payoutRows = Dashboard.payoutRows := rfl

theorem countsAsPayout_of_mem {s : Store} {hostUserId : ℕ} {e : StaysLedgerEntry}
    (h : e ∈ Dashboard.payoutRows s hostUserId) : countsAsPayout e = true :=
  (of_decide_eq_true (List.mem_filter.mp h).2).1

/-- The dashboard shows the sum of the rows. -/
theorem total_sumHostPayoutLedger (s : Store) (hostUserId : ℕ) {listingIds : List ℕ}
    (h : listingIds ≠ []) :
    (Dashboard.sumHostPayoutLedger s hostUserId listingIds : Payouts ℚ).total =
      ofHundredths ((Dashboard.payoutRows s hostUserId).map (·.amount)).sum := by
  have hrows := total_foldl fun e (he : e ∈ Dashboard.payoutRows s hostUserId) =>
    countsAsPayout_of_mem he
  rw [Dashboard.sumHostPayoutLedger, if_neg h, ← hrows, foldl_add]
  simp only [zero_add, Dashboard.round2_eq (isHundredths_amounts _ _)]

/-- So does the analytics, listing by listing. -/
theorem total_sumPayoutsByListing {s : Store} {hostUserId listingId : ℕ} {sums : Payouts ℚ}
    (h : (listingId, sums) ∈ Analytics.sumPayoutsByListing s hostUserId) :
    sums.total = ofHundredths (((Analytics.payoutRows s hostUserId).filter fun e =>
      (bookingOf s e).map (·.listingId) = some listingId).map (·.amount)).sum := by
  obtain ⟨l, -, heq⟩ := List.mem_map.mp h
  obtain ⟨rfl, rfl⟩ := Prod.mk.inj heq
  exact total_foldl fun e he => countsAsPayout_of_mem (List.mem_filter.mp he).1

/-- Of a booking on a listing of the host, the rows are the payouts of its ledger. -/
theorem payoutRows_of_booking {s : Store} {hostUserId : ℕ} {b : StaysBooking}
    (hb : s.bookings.find? b.id = some b) (hhost : hostOf s b = some hostUserId) :
    (((Dashboard.payoutRows s hostUserId).filter fun e => e.bookingId = b.id).map
      (·.amount)).sum = reportedPayout s b.id := by
  have hrows : (Dashboard.payoutRows s hostUserId).filter (fun e => e.bookingId = b.id) =
      (ledgerOf s b.id).filter countsAsPayout := by
    rw [Dashboard.payoutRows, ledgerOf, List.filter_filter, List.filter_filter]
    apply List.filter_congr
    intro e _
    by_cases hid : e.bookingId = b.id <;> simp [bookingOf, hid, hb, hhost]
  rw [hrows, reportedPayout]

end NexaStays.HostReports
