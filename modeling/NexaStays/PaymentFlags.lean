import Mathlib.Data.Finset.Max
import NexaStays.Calls
import NexaStays.Keyset

/-!
# The flag of a failed payment

The detail of a booking calls its payment failed if the newest intent is; the list of the
guest's bookings if any intent is. A retry after a failure tells them apart.
-/
namespace NexaStays.PaymentFlags

open NexaStays.KeyedTable NexaStays.Transactions NexaStays.Database NexaStays.Keyset

structure LifecycleExtras where
  paymentFailed : Option Bool
  hasReviewed : Bool
  reviewRating : Option ℤ
  deriving DecidableEq, Repr

/-- `!!extras.paymentFailed`, the `payment_failed` of a response. -/
def LifecycleExtras.shown (extras : LifecycleExtras) : Bool := extras.paymentFailed.getD false

def awaitsPayment (booking : StaysBooking) : Bool :=
  booking.status = .paymentPending ∨ booking.status = .initiated

def intentsFor (s : Store) (bookingId : ℕ) : List StaysPaymentIntent :=
  s.intents.rows.filter fun i => i.bookingId = bookingId

/-- The intents that may come first by `created_at` descending. -/
def newestIntents (s : Store) (bookingId : ℕ) : List StaysPaymentIntent :=
  (intentsFor s bookingId).filter fun i =>
    (intentsFor s bookingId).all fun j => j.createdAt ≤ i.createdAt

/-- Of intents created at one instant, `n` says which one the database returns. -/
def lifecycleExtrasForBooking (s : Store) (n : ℕ) (booking : StaysBooking) : LifecycleExtras :=
  let rating := (s.reviews.rows.find? fun r => r.bookingId = booking.id).map (·.rating)
  if awaitsPayment booking then
    let latest := Program.pick n (newestIntents s booking.id)
    { paymentFailed := some (latest.any fun i => i.status = .failed)
      hasReviewed := rating.isSome
      reviewRating := rating }
  else { paymentFailed := none, hasReviewed := rating.isSome, reviewRating := rating }

/-- The loop over the intents of the pending bookings, newest first. -/
def collectFailed (intents : List StaysPaymentIntent) : List ℕ :=
  intents.foldl (fun failed intent =>
    if intent.status = .failed ∧ intent.bookingId ∉ failed then failed ++ [intent.bookingId]
    else failed) []

def failedIntentBookingIds (s : Store) (pendingIds : List ℕ) : List ℕ :=
  if pendingIds = [] then []
  else collectFailed (orderBy (fun i => -i.createdAt)
    (s.intents.rows.filter fun i => i.bookingId ∈ pendingIds))

/-- The bookings of the guest with the extras of their responses. -/
def getGuestBookings (s : Store) (guestUserId : ℕ) : List (StaysBooking × LifecycleExtras) :=
  let bookings := orderBy (fun b => -b.createdAt)
    (s.bookings.rows.filter fun b => b.guestUserId = guestUserId)
  let failed := failedIntentBookingIds s ((bookings.filter awaitsPayment).map (·.id))
  bookings.map fun b =>
    let rating := (s.reviews.rows.reverse.find? fun r => r.bookingId = b.id).map (·.rating)
    (b, { paymentFailed := some (b.id ∈ failed)
          hasReviewed := rating.isSome
          reviewRating := rating })

variable {s : Store} {booking : StaysBooking}

theorem mem_collectFailed {intents : List StaysPaymentIntent} {id : ℕ} :
    id ∈ collectFailed intents ↔ ∃ i ∈ intents, i.status = .failed ∧ i.bookingId = id := by
  have hloop : ∀ (intents : List StaysPaymentIntent) (failed : List ℕ),
      id ∈ intents.foldl (fun failed intent =>
        if intent.status = .failed ∧ intent.bookingId ∉ failed then failed ++ [intent.bookingId]
        else failed) failed ↔
      id ∈ failed ∨ ∃ i ∈ intents, i.status = .failed ∧ i.bookingId = id := by
    intro intents
    induction intents with
    | nil => simp
    | cons i intents ih =>
      intro failed
      rw [List.foldl_cons, ih, List.exists_mem_cons_iff]
      split_ifs with h
      · simp only [List.mem_append, List.mem_singleton, h.1, true_and]
        grind
      · constructor
        · rintro (hid | hrest)
          · exact Or.inl hid
          · exact Or.inr (Or.inr hrest)
        · rintro (hid | ⟨hfailed, rfl⟩ | hrest)
          · exact Or.inl hid
          · exact Or.inl (by_contra fun hnew => h ⟨hfailed, hnew⟩)
          · exact Or.inr hrest
  simpa [collectFailed] using hloop intents []

theorem mem_failedIntentBookingIds {pendingIds : List ℕ} {id : ℕ} :
    id ∈ failedIntentBookingIds s pendingIds ↔
      id ∈ pendingIds ∧ ∃ i ∈ intentsFor s id, i.status = .failed := by
  rw [failedIntentBookingIds]
  split_ifs with hnone
  · simp [hnone]
  · rw [mem_collectFailed]
    constructor
    · rintro ⟨i, hi, hfailed, rfl⟩
      obtain ⟨hrow, hpending⟩ := List.mem_filter.mp (mem_orderBy.mp hi)
      exact ⟨by simpa using hpending, i, List.mem_filter.mpr ⟨hrow, by simp⟩, hfailed⟩
    · rintro ⟨hpending, i, hi, hfailed⟩
      obtain ⟨hrow, hid⟩ := List.mem_filter.mp hi
      obtain rfl : i.bookingId = id := by simpa using hid
      exact ⟨i, mem_orderBy.mpr (List.mem_filter.mpr ⟨hrow, by simpa using hpending⟩), hfailed, rfl⟩

/-- The list looks at all the intents of a pending booking. -/
theorem listed_iff (hrow : booking ∈ s.bookings.rows) :
    ∃ extras, (booking, extras) ∈ getGuestBookings s booking.guestUserId ∧
      (∀ extras', (booking, extras') ∈ getGuestBookings s booking.guestUserId → extras' = extras) ∧
      (extras.shown = true ↔
        awaitsPayment booking = true ∧ ∃ i ∈ intentsFor s booking.id, i.status = .failed) := by
  have hmem : booking ∈ orderBy (fun b => -b.createdAt)
      (s.bookings.rows.filter fun b => b.guestUserId = booking.guestUserId) :=
    mem_orderBy.mpr (List.mem_filter.mpr ⟨hrow, by simp⟩)
  refine ⟨_, List.mem_map.mpr ⟨booking, hmem, rfl⟩, fun extras' h => ?_, ?_⟩
  · obtain ⟨b, -, hb⟩ := List.mem_map.mp h
    obtain ⟨rfl, rfl⟩ := Prod.mk.inj hb
    rfl
  · simp only [LifecycleExtras.shown, Option.getD_some, decide_eq_true_eq,
      mem_failedIntentBookingIds]
    refine and_congr_left fun _ => ⟨fun hid => ?_, fun hawaits => ?_⟩
    · obtain ⟨b, hb, hsame⟩ := List.mem_map.mp hid
      obtain ⟨hlisted, hawaits⟩ := List.mem_filter.mp hb
      have hb' : b ∈ s.bookings.rows := List.mem_of_mem_filter (mem_orderBy.mp hlisted)
      rwa [← s.bookings.eq_of_key_eq hb' hrow hsame]
    · exact List.mem_map.mpr ⟨booking, List.mem_filter.mpr ⟨hmem, hawaits⟩, rfl⟩

theorem newestIntents_ne_nil (h : intentsFor s booking.id ≠ []) :
    newestIntents s booking.id ≠ [] := by
  obtain ⟨first, hfirst⟩ := List.exists_mem_of_ne_nil _ h
  obtain ⟨i, hi, hmax⟩ := Finset.exists_max_image (intentsFor s booking.id).toFinset
    (fun i => i.createdAt) ⟨first, List.mem_toFinset.mpr hfirst⟩
  refine List.ne_nil_of_mem (a := i) (List.mem_filter.mpr ⟨List.mem_toFinset.mp hi, ?_⟩)
  simpa using fun j hj => hmax j (List.mem_toFinset.mpr hj)

/-- The detail looks at one of the newest intents. -/
theorem detail_iff {n : ℕ} :
    (lifecycleExtrasForBooking s n booking).shown = true ↔ awaitsPayment booking = true ∧
      ∃ i ∈ Program.pick n (newestIntents s booking.id), i.status = .failed := by
  rw [lifecycleExtrasForBooking]
  split_ifs with h
  · cases Program.pick n (newestIntents s booking.id) <;> simp [LifecycleExtras.shown, h]
  · simp [LifecycleExtras.shown, h]

/-- The booking awaits no payment, or none of its intents has failed, or the newest has. -/
def InStep (s : Store) (booking : StaysBooking) : Prop :=
  awaitsPayment booking = false ∨ (∀ i ∈ intentsFor s booking.id, i.status ≠ .failed) ∨
    ∀ i ∈ newestIntents s booking.id, i.status = .failed

instance (s : Store) (booking : StaysBooking) : Decidable (InStep s booking) :=
  inferInstanceAs (Decidable (_ ∨ _ ∨ _))

/-- The list and the detail agree, whichever of the newest intents the detail is given, exactly
about the bookings whose failures, if any, are the last word. -/
theorem flags_agree_iff (hrow : booking ∈ s.bookings.rows) :
    (∀ n, ∀ extras, (booking, extras) ∈ getGuestBookings s booking.guestUserId →
      extras.shown = (lifecycleExtrasForBooking s n booking).shown) ↔ InStep s booking := by
  obtain ⟨listed, hlisted, honly, hshown⟩ := listed_iff hrow
  constructor
  · intro hagree
    by_contra hout
    simp only [InStep, not_or, Bool.not_eq_false] at hout
    obtain ⟨hawaits, hfailed, hnewest⟩ := hout
    push Not at hfailed hnewest
    obtain ⟨i, hi, hi'⟩ := hnewest
    obtain ⟨n, hn, rfl⟩ := List.getElem_of_mem hi
    have hpick : Program.pick n (newestIntents s booking.id) = some (newestIntents s booking.id)[n] := by
      rw [Program.pick, Nat.mod_eq_of_lt hn]
      exact List.getElem?_eq_getElem hn
    have hdetail := (hagree n listed hlisted).symm.trans (hshown.mpr ⟨hawaits, hfailed⟩)
    obtain ⟨-, j, hj, hj'⟩ := detail_iff.mp hdetail
    rw [hpick] at hj
    exact hi' (Option.some.inj hj ▸ hj')
  · intro hstep n extras hextras
    rw [honly extras hextras]
    refine Bool.eq_iff_iff.mpr ((hshown.trans (and_congr_right fun hawaits => ?_)).trans
      detail_iff.symm)
    constructor
    · rintro ⟨i, hi, hfailed⟩
      have hnewest : ∀ i ∈ newestIntents s booking.id, i.status = .failed := by
        obtain hno | hnone | hnewest := hstep
        · exact absurd hawaits (by simp [hno])
        · exact absurd hfailed (hnone i hi)
        · exact hnewest
      cases hpick : Program.pick n (newestIntents s booking.id) with
      | none =>
        have hnil := Program.pick_eq_none hpick
        exact absurd hnil (newestIntents_ne_nil (List.ne_nil_of_mem hi))
      | some j => exact ⟨j, rfl, hnewest j (Program.mem_of_pick hpick)⟩
    · rintro ⟨i, hi, hfailed⟩
      exact ⟨i, List.mem_of_mem_filter (Program.mem_of_pick hi), hfailed⟩

/-- A booking that awaits its payment. -/
def unpaid : StaysBooking where
  id := 1
  bookingReference := ⟨2026, 1⟩
  listingId := 1
  guestUserId := 2
  status := .paymentPending
  checkinDate := 20000
  checkoutDate := 20003
  guestCount := 1
  totalSubtotal := 30000
  guestFee := 1500
  hostFee := 1500
  totalPaid := some 31500
  payoutAmount := some 28500
  currency := "MAD"
  idempotencyKey := none
  createdAt := 0
  completedAt := none

def attempt (id : ℕ) (status : IntentStatus) (createdAt : ℤ) : StaysPaymentIntent where
  id
  bookingId := 1
  provider := .mock
  providerIntentId := none
  amount := 31500
  currency := "MAD"
  status
  idempotencyKey := none
  metadata := {}
  createdAt

def attempts (intents : List StaysPaymentIntent) : Store :=
  { Calls.sampleStore with bookings := Table.ofRows [unpaid], intents := Table.ofRows intents }

theorem flags_agree_iff_failed :
    (∀ n, ∀ extras, (unpaid, extras) ∈ getGuestBookings (attempts [attempt 1 .failed 10]) 2 →
      extras.shown = (lifecycleExtrasForBooking (attempts [attempt 1 .failed 10]) n unpaid).shown) ↔
    InStep (attempts [attempt 1 .failed 10]) unpaid :=
  flags_agree_iff (by decide)

/-- A failed attempt and a pending one after it: the list says failed, the detail does not. -/
theorem retry_disagrees : ∃ extras,
    (unpaid, extras) ∈ getGuestBookings (attempts [attempt 1 .failed 10, attempt 2 .pending 20]) 2 ∧
      extras.shown ≠ (lifecycleExtrasForBooking
        (attempts [attempt 1 .failed 10, attempt 2 .pending 20]) 0 unpaid).shown :=
  ⟨⟨some true, false, none⟩, by decide, by decide⟩

end NexaStays.PaymentFlags
