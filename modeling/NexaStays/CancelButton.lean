import NexaStays.Calls
import NexaStays.Outcomes
import NexaStays.SoloRuns

/-!
# The cancel button

`canCancel` shows the button from the lifecycle of a booking: whether its payment window is
open, whether its check-in day has come. `cancel` looks at the stored status alone.
-/
namespace NexaStays.CancelButton

open NexaStays.KeyedTable NexaStays.Transactions NexaStays.Database NexaStays.Payments
  NexaStays.Cancellation NexaStays.Lifecycle NexaStays.Outcomes

open NexaStays.Calls (sampleEnv sampleStore)

open NexaStays.SoloRuns (Undisturbed single)

def canCancel (env : Env) (booking : StaysBooking) (now : ℤ) : Bool :=
  computeLifecycle env booking now = .pendingPayment ∨ computeLifecycle env booking now = .upcoming

/-- The refusals of a request that is well formed and comes from the right person: the
status of the booking forbids it, or has changed in the meantime. -/
inductive IsRefusal : StaysError → Prop where
  | badRequest (message : String) : IsRefusal (.badRequest message)
  | conflict (message : String) : IsRefusal (.conflict message)

/-- A cancellation by the guest, alone in its system, that ends in a refusal. -/
def Refused (env : Env) (s : Store) (booking : StaysBooking) (now : ℤ) : Prop :=
  ∃ sys, System.Run (Undisturbed True)
      (single () (cancel env booking.id booking.guestUserId .guest now) s) sys ∧
    ∃ t ∈ sys.threads, ∃ e, IsRefusal e ∧ t.program = .throw e

variable {env : Env} {s : Store} {booking : StaysBooking} {now : ℤ}

section Cancellable

/-- Nothing of what a program throws is a refusal. -/
abbrev Goes {α : Type} (p : Stays α) (ses : Session Key Write) (s : Store) : Prop :=
  Yields (.alone Store) (fun _ _ _ => True) (fun e _ _ => ¬IsRefusal e) p ses s

theorem not_refusal_database : ¬IsRefusal .database := fun h => by cases h

theorem recordRefund_goes (ses : Session Key Write) (paid : Bool) (refund : ℤ) (s : Store) :
    Goes (recordRefund booking paid refund) ses s := by
  refine yields_query (fun s' _ => ?_) fun _ _ => not_refusal_database
  by_cases h : paid = true ∧
      (if paid then refundsOf booking.id (ses.view s') else []) = [] ∧ 0 < refund
  · rw [if_pos h]
    exact yields_insertRow (fun _ _ _ => yields_pure fun _ _ => trivial)
      fun _ _ => not_refusal_database
  · rw [if_neg h]
    exact yields_pure fun _ _ => trivial

/-- The row of the booking is there and its status can be cancelled. -/
theorem cancelTransaction_goes (hrow : s.bookings.find? booking.id = some booking)
    (hstatus : booking.status ∉ nonCancellable) (status : BookingStatus) (refund : ℤ) :
    Goes (cancelTransaction booking status refund) .opened s := by
  have hmatched : updateBooking booking.id (fun b => b.status = booking.status)
      (fun b => { b with status }) s ≠ [] := by
    simp [updateBooking, hrow]
  refine yields_lockRow (fun s' hs => ?_) fun _ _ => not_refusal_database
  obtain rfl : s = s' := hs
  refine yields_expect (fun locked hlocked => ?_) fun _ _ _ h => by cases h
  obtain rfl : booking = locked := Option.some.inj (hrow.symm.trans hlocked)
  refine yields_require (fun _ => ?_) fun h => absurd hstatus h
  refine yields_writeRows (fun s' hs => ?_) fun _ _ => not_refusal_database
  obtain rfl : s = s' := hs
  have hview : (Session.opened.acquire (Session.opened.view s) (Key.booking booking.id)).view s =
      s := view_acquire ..
  refine yields_require (fun _ => ?_) fun h => absurd (by rwa [hview]) h
  refine yields_query (fun s₁ _ => ?_) fun _ _ => not_refusal_database
  refine yields_bind (fun _ _ _ _ he _ => he) (recordRefund_goes _ _ _ s₁) fun _ ses s₂ _ => ?_
  refine yields_query (fun s₃ _ => ?_) fun _ _ => not_refusal_database
  refine yields_writeRows (fun s₄ _ => ?_) fun _ _ => not_refusal_database
  exact yields_pure fun _ _ => trivial

/-- What the gateway answers is only logged. -/
theorem cancelAtGateway_goes (bookingId : ℕ) (outcome : CancelOutcome) (ses : Session Key Write)
    (s : Store) : Goes (cancelAtGateway env bookingId outcome) ses s := by
  have hattempt : ∀ (p : Stays Unit) ses s, Goes (Program.attempt p fun _ => pure ()) ses s :=
    fun p ses s => yields_attempt (yields_trivial p ses s) (fun _ _ _ _ _ _ => trivial)
      fun _ _ _ _ => yields_pure fun _ _ => trivial
  unfold cancelAtGateway
  split_ifs
  · exact yields_pure fun _ _ => trivial
  · exact hattempt _ ses s
  · induction outcome.cmiVoidCandidates generalizing ses s with
    | nil => exact yields_pure fun _ _ => trivial
    | cons oid rest ih =>
      exact yields_bind (fun _ _ _ _ he _ => he) (hattempt _ ses s) fun _ ses s _ => ih ses s

theorem cancel_goes (hrow : s.bookings.find? booking.id = some booking)
    (hstatus : booking.status ∉ nonCancellable) :
    Goes (cancel env booking.id booking.guestUserId .guest now) .idle s := by
  refine yields_query (fun s' hs => ?_) fun _ _ => not_refusal_database
  obtain rfl : s = s' := hs
  refine yields_expect (fun loaded hloaded => ?_) fun _ _ _ h => by cases h
  obtain ⟨b, hb, rfl⟩ := Option.map_eq_some_iff.mp hloaded
  obtain rfl : booking = b := Option.some.inj (hrow.symm.trans hb)
  refine yields_require (fun _ => ?_) fun _ _ _ h => by cases h
  refine yields_require (fun _ => ?_) fun h => absurd (fun _ => by simp) h
  refine yields_require (fun _ => ?_) fun h => absurd (fun h => by cases h) h
  refine yields_require (fun _ => ?_) fun h => absurd hstatus h
  refine yields_bind (fun _ _ _ _ he _ => he) (yields_transaction (Q := fun _ _ _ => True) ?_
    not_refusal_database) fun outcome ses s' _ => ?_
  · exact (cancelTransaction_goes hrow hstatus _ _).mono (fun _ _ _ _ _ => trivial)
      fun _ _ _ he => he
  refine yields_bind (fun _ _ _ _ he _ => he) (cancelAtGateway_goes _ outcome ses s')
    fun _ ses s' _ => ?_
  refine yields_query (fun _ _ => ?_) fun _ _ => not_refusal_database
  exact yields_expect (fun _ _ => yields_pure fun _ _ => trivial) fun _ _ _ h => by cases h

end Cancellable

/-- A final status is refused by the first check. -/
theorem cancel_refused (hrow : s.bookings.find? booking.id = some booking)
    (hstatus : booking.status ∈ nonCancellable) : Refused env s booking now := by
  let e : StaysError := .badRequest s!"Cannot cancel booking in status {statusText booking.status}"
  let sys : System Unit Store Key Write StaysError CancelResult := ⟨s, [⟨(), .idle, .throw e⟩]⟩
  have hstep : (single () (cancel env booking.id booking.guestUserId .guest now) s).step
      (.run 0 0) = some sys := by
    refine System.step_eq_some.mpr ⟨_, .throw e, .idle, [], rfl, ?_, rfl⟩
    have hrest : (Session.idle : Session Key Write).view s = s := rfl
    simp only [System.move, cancel, Stays.read, Program.query, single, bind, Program.handle,
      advance, hrest, hrow]
    simp [Program.expect, Program.require, Program.handle, hstatus, e]
  exact ⟨sys, .tail (.refl _) (by trivial) hstep, _, List.mem_singleton_self _, e, .badRequest _, rfl⟩

/-- The stored status alone decides. -/
theorem refused_iff (hrow : s.bookings.find? booking.id = some booking) :
    Refused env s booking now ↔ booking.status ∈ nonCancellable := by
  refine ⟨fun ⟨sys, hrun, t, ht, e, hrefusal, hthrown⟩ => ?_, cancel_refused hrow⟩
  by_contra hstatus
  have hstart : Kept (.alone Store) () (fun _ _ _ => True) (fun e _ _ => ¬IsRefusal e)
      (single () (cancel env booking.id booking.guestUserId .guest now) s) := by
    intro i t ht _
    obtain rfl : t = ⟨(), .idle, cancel env booking.id booking.guestUserId .guest now⟩ := by
      cases i with
      | zero => exact (Option.some.inj ht).symm
      | succ i => cases ht
    exact cancel_goes hrow hstatus
  exact (hstart.run_alone rfl hrun).thrown rfl ht rfl hthrown hrefusal

/-- A hold whose payment window is over, or a paid stay whose check-in day has come (or its
check-out day, where that one is earlier). -/
def OutOfStep (env : Env) (booking : StaysBooking) (now : ℤ) : Prop :=
  isPaymentExpired env booking now = true ∨
    booking.status ∈ paidCompleteStatuses ∧
      (parseDateOnly env booking.checkinDate ≤ env.startOfDay now ∨
        parseDateOnly env booking.checkoutDate ≤ env.startOfDay now)

instance (env : Env) (booking : StaysBooking) (now : ℤ) : Decidable (OutOfStep env booking now) :=
  inferInstanceAs (Decidable (_ ∨ _ ∧ (_ ∨ _)))

/-- The button shows what can be cancelled and is not out of step. -/
theorem canCancel_iff :
    canCancel env booking now = true ↔
      booking.status ∉ nonCancellable ∧ ¬OutOfStep env booking now := by
  unfold canCancel OutOfStep computeLifecycle
  cases hstatus : booking.status with
  | initiated | paymentPending =>
    cases hexpired : isPaymentExpired env booking now <;>
      simp [nonCancellable, paidCompleteStatuses]
  | confirmed | checkedIn =>
    have hopen : isPaymentExpired env booking now = false := by
      simp [isPaymentExpired, hstatus, preConfirmationBookingStatuses]
    by_cases hover : parseDateOnly env booking.checkoutDate ≤ env.startOfDay now
    · simp [nonCancellable, paidCompleteStatuses, hopen, hover]
    · by_cases hstarted : parseDateOnly env booking.checkinDate ≤ env.startOfDay now <;>
        simp [nonCancellable, paidCompleteStatuses, hopen, hover, hstarted]
  | completed | cancelledByGuest | cancelledByHost | expired => simp [nonCancellable]

/-- A final status is in step: it shows no button and refuses. -/
theorem not_outOfStep_of_final (h : booking.status ∈ nonCancellable) :
    ¬OutOfStep env booking now := by
  cases hstatus : booking.status <;>
    simp_all [nonCancellable, OutOfStep, isPaymentExpired, preConfirmationBookingStatuses,
      paidCompleteStatuses]

/-- The button and the cancellation agree exactly about the bookings that are in step. -/
theorem button_agrees_iff (env : Env) (now : ℤ) {s : Store} {booking : StaysBooking}
    (hrow : s.bookings.find? booking.id = some booking) :
    (¬Refused env s booking now ↔ canCancel env booking now = true) ↔
      ¬OutOfStep env booking now := by
  rw [refused_iff hrow, canCancel_iff]
  constructor
  · intro hagrees hout
    have hfinal : booking.status ∉ nonCancellable := fun h => not_outOfStep_of_final h hout
    exact (hagrees.mp hfinal).2 hout
  · intro hstep
    exact ⟨fun h => ⟨h, hstep⟩, fun h => h.1⟩

/-- A paid stay on its day of check-in, in the small deployment. -/
def arriving : StaysBooking where
  id := 1
  bookingReference := ⟨2026, 1⟩
  listingId := 1
  guestUserId := 2
  status := .confirmed
  checkinDate := 20000
  checkoutDate := 20003
  guestCount := 1
  totalSubtotal := 30000
  guestFee := 1500
  hostFee := 1500
  totalPaid := some 31500
  payoutAmount := some 28500
  currency := "MAD"
  idempotencyKey := none
  createdAt := 0
  completedAt := none

def arrivals : Store := { sampleStore with bookings := Table.ofRows [arriving] }

theorem button_agrees_iff_arriving :
    (¬Refused sampleEnv arrivals arriving (19999 * dayMs) ↔
      canCancel sampleEnv arriving (19999 * dayMs) = true) ↔
      ¬OutOfStep sampleEnv arriving (19999 * dayMs) :=
  button_agrees_iff sampleEnv (19999 * dayMs) (by decide)

/-- At noon of the day of check-in no button is shown, and nothing refuses. -/
theorem arriving_disagrees :
    arrivals.bookings.find? arriving.id = some arriving ∧
      ¬(¬Refused sampleEnv arrivals arriving (20000 * dayMs + 43200000) ↔
        canCancel sampleEnv arriving (20000 * dayMs + 43200000) = true) := by
  have hrow : arrivals.bookings.find? arriving.id = some arriving := by decide
  refine ⟨hrow, ?_⟩
  rw [refused_iff hrow]
  decide

end NexaStays.CancelButton
