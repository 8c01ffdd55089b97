import NexaStays.Database
import NexaStays.RelyGuarantee

/-!
# Availability of a listing

A stay occupies the nights `[checkin, checkout)`. A listing is available for a range
if no booking with a status in `BOOKED_STATUSES` overlaps it and no night of it is
blocked.
-/
namespace NexaStays.Availability

open NexaStays.Transactions NexaStays.Database NexaStays.RelyGuarantee

/-- `BOOKED_STATUSES`: the statuses that occupy listing nights. -/
def bookedStatuses : List BookingStatus := [.initiated, .paymentPending, .confirmed, .checkedIn]

/-- The rows the availability query counts: held nights, strict half-open overlap. -/
def overlaps (listingId : ℕ) (checkin checkout : ℤ) (excludeBookingId : Option ℕ)
    (b : StaysBooking) : Bool :=
  b.listingId = listingId ∧ b.status ∈ bookedStatuses ∧ b.checkinDate < checkout ∧
    checkin < b.checkoutDate ∧ excludeBookingId ≠ some b.id

def overlappingBookings (s : Store) (listingId : ℕ) (checkin checkout : ℤ)
    (excludeBookingId : Option ℕ) : List StaysBooking :=
  s.bookings.rows.filter (overlaps listingId checkin checkout excludeBookingId)

def blockedNights (s : Store) (listingId : ℕ) (checkin checkout : ℤ) :
    List StaysAvailabilityBlock :=
  s.blocks.rows.filter fun ab =>
    ab.listingId = listingId ∧ ab.isBlocked ∧ checkin ≤ ab.date ∧ ab.date < checkout

/-- Two counts, one after the other. -/
def isListingAvailable (listingId : ℕ) (checkin checkout : ℤ) (excludeBookingId : Option ℕ) :
    Stays Bool := do
  let overlapping ← Stays.read fun s =>
    (overlappingBookings s listingId checkin checkout excludeBookingId).length
  if overlapping > 0 then pure false
  else do
    let blocked ← Stays.read fun s => (blockedNights s listingId checkin checkout).length
    pure (blocked == 0)

theorem overlappingBookings_eq_nil {s : Store} {listingId : ℕ} {checkin checkout : ℤ} :
    overlappingBookings s listingId checkin checkout none = [] ↔
      ∀ b ∈ s.bookings.rows, b.listingId = listingId → b.status ∈ bookedStatuses →
        checkout ≤ b.checkinDate ∨ b.checkoutDate ≤ checkin := by
  simp only [overlappingBookings, overlaps, List.filter_eq_nil_iff, decide_eq_true_eq,
    not_and, reduceCtorEq, ne_eq, not_false_eq_true, and_true]
  refine forall₂_congr fun b _ => forall₂_congr fun _ _ => ?_
  omega

section Rules

open NexaStays.RelyGuarantee.Discipline

variable {τ ξ α : Type} {D : Discipline τ Store Key Write ξ} {c : τ}
  {Q : α → Session Key Write → Store → Prop} {E : StaysError → Session Key Write → Store → Prop}
  {P : Store → Prop} {ses : Session Key Write} {s : Store}

/-- The availability query; `F` is what stays true of a range found free. -/
theorem wp_isListingAvailable {listingId : ℕ} {checkin checkout : ℤ} {ex : Option ℕ}
    {k : Bool → Stays α} {F : Store → Prop} (hpending : ses.pending = [])
    (hP : D.Stable c ses.held P) (hs : P s) (hF : D.Stable c ses.held F)
    (hfree : ∀ s', overlappingBookings s' listingId checkin checkout ex = [] → F s')
    (h : ∀ s' available, D.Inv s' → P s' → (available = true → F s') →
      D.wp c Q E (k available) ses s')
    (hE : ∀ e s', D.Inv s' → P s' → E e ses s' := by intros; trivial) :
    D.wp c Q E (isListingAvailable listingId checkin checkout ex >>= k) ses s := by
  have hview : ∀ s : Store, ses.view s = s := fun s => by simp [Session.view, hpending]
  have hthrow : ∀ e s', D.Inv s' → P s' → D.wp c Q E (.throw e) ses s' := fun e s' _ h' t ht hinv =>
    hE e t hinv (hP.later h' ht)
  refine wp_bind (wp_query hP hs (fun s₁ hi₁ h₁ => ?_) (hthrow _))
  rw [hview]
  split_ifs with hover
  · exact wp_return (h s₁ false hi₁ h₁ nofun)
  · have hnil : overlappingBookings s₁ listingId checkin checkout ex = [] :=
      List.eq_nil_of_length_eq_zero (by omega)
    refine wp_query (hP.and hF) ⟨h₁, hfree s₁ hnil⟩ (fun s₂ hi₂ h₂ => ?_)
      (fun s' hi h' => hthrow _ s' hi h'.1)
    exact wp_return (h s₂ _ hi₂ h₂.1 fun _ => h₂.2)

end Rules

end NexaStays.Availability
