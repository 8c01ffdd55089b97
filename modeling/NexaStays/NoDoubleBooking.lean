import Mathlib.Data.Int.ConditionallyCompleteOrder
import Mathlib.Order.CompletePartialOrder
import Mathlib.Order.Interval.Set.Basic
import NexaStays.Conformance.System

/-!
# No double booking

Two bookings of one listing never hold the same night.
-/
namespace NexaStays.NoDoubleBooking

open NexaStays.Transactions NexaStays.Database NexaStays.Availability NexaStays.Calls
  NexaStays.Invariant NexaStays.Conformance

/-- The nights of a stay. -/
def nights (b : StaysBooking) : Set ℤ := Set.Ico b.checkinDate b.checkoutDate

theorem disjoint_nights {a b : StaysBooking} (h : Apart a b) : Disjoint (nights a) (nights b) := by
  rw [Set.disjoint_left]
  intro night ha hb
  have hlo : b.checkinDate ≤ night ∧ a.checkinDate ≤ night := ⟨hb.1, ha.1⟩
  have hhi : night < a.checkoutDate ∧ night < b.checkoutDate := ⟨ha.2, hb.2⟩
  obtain h | h := h <;> omega

/-- In every state that any interleaving of any number of calls reaches, the bookings of
a listing that hold nights hold disjoint ranges of them. -/
theorem no_double_booking {env : Env} {sys : StaysSystem}
    (h : Reachable env (fun _ _ => True) sys) :
    ∀ a ∈ sys.store.bookings.rows, ∀ b ∈ sys.store.bookings.rows, a ≠ b →
      a.listingId = b.listingId → a.status ∈ bookedStatuses → b.status ∈ bookedStatuses →
      Disjoint (nights a) (nights b) := by
  intro a ha b hb hne hlisting hbooked hbooked'
  have hid : a.id ≠ b.id := fun hid => hne (sys.store.bookings.eq_of_key_eq ha hb hid)
  have hkept := (consistent_of_reachable h).bookings
  exact disjoint_nights (hkept.apart a ha b hb hid hlisting hbooked hbooked')

/-- Two guests, and the second stay starts on the day the first one ends. -/
theorem no_double_booking_adjacent : ∃ sys : StaysSystem,
    sys.store.bookings.rows.map (fun b => (b.checkinDate, b.status)) =
      [(21924, .paymentPending), (21926, .paymentPending)] ∧
    ∀ a ∈ sys.store.bookings.rows, ∀ b ∈ sys.store.bookings.rows, a ≠ b →
      a.listingId = b.listingId → a.status ∈ bookedStatuses → b.status ∈ bookedStatuses →
      Disjoint (nights a) (nights b) := by
  obtain ⟨sys, hreach, hrows⟩ := exists_reachable (fun _ _ => True)
    [.createBooking 2 (sampleRequest 1 10 none) true,
      .createBooking 3 (sampleRequest 1 12 none) true]
    (System.turns 0 0 13 ++ System.turns 1 20 13)
    (fun sys => sys.store.bookings.rows.map (fun b => (b.checkinDate, b.status)) =
      [(21924, .paymentPending), (21926, .paymentPending)]) (by decide +kernel)
  exact ⟨sys, of_decide_eq_true hrows, no_double_booking hreach⟩

end NexaStays.NoDoubleBooking
