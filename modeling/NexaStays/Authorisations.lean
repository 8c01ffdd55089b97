import NexaStays.Conformance.System

/-!
# Authorisations that are dealt with

The handler of a success callback captures the authorisation or releases it, unless it
finds the booking closed: then it returns `BOOKING_NOT_PAYABLE` and the authorisation
stays open at the gateway.
-/
namespace NexaStays.Authorisations

open NexaStays.Transactions NexaStays.Database NexaStays.Payments NexaStays.Cancellation
  NexaStays.Calls NexaStays.Interference NexaStays.Conformance

/-- The booking whose row a callback is about to lock. -/
def bookingToLock (t : StaysThread) : Option ℕ :=
  match t.call, t.program with
  | .handleCmiCallback _, .lock (.booking id) _ _ => some id
  | _, _ => none

/-- A callback locks the row of a booking that awaits payment or was confirmed. -/
def LocksPayable (sys : StaysSystem) : Action → Prop
  | .run i _ => ∀ t ∈ sys.threads[i]?, ∀ id ∈ bookingToLock t, Payable (t.session.view sys.store) id
  | _ => True

instance (sys : StaysSystem) : ∀ a, Decidable (LocksPayable sys a)
  | .run i _ => inferInstanceAs (Decidable (∀ t ∈ sys.threads[i]?, ∀ id ∈ bookingToLock t,
    Payable (t.session.view sys.store) id))
  | .fail _ => inferInstanceAs (Decidable True)
  | .crash _ => inferInstanceAs (Decidable True)

theorem admits_of_locksPayable {env : Env} {sys : StaysSystem} {a : Action}
    (h : LocksPayable sys a) : (discipline env False True).Admits sys a := by
  constructor
  · intro _ _ _ _ _ _ _ _ _ hfalse
    exact hfalse.elim
  · rintro i n t key k err rfl ht hprogram - body bookingId hcall rfl
    apply h t ht
    simp [bookingToLock, hcall, hprogram]

/-- In a run whose callbacks lock payable bookings, a callback for an intent returns only
after a capture of its order was attempted, or a release since the callback arrived. -/
theorem callback_deals_with {env : Env} {sys : StaysSystem} (h : Reachable env LocksPayable sys) :
    ∀ t ∈ sys.threads, ∀ body seq outcome, t.call = .handleCmiCallback body →
      t.program.result = some (.callback seq (some outcome)) →
      Arrived sys.store body.order seq ∧
        (outcome ≠ .intentNotFound → DealtWith sys.store body.order seq) := by
  intro t ht body seq outcome hcall hresult
  have hsound := sound_of_reachable (fun _ _ => admits_of_locksPayable) h
  have hpost := hsound.post ht hresult
  rw [hcall] at hpost
  obtain ⟨harrived, hdealt⟩ := hpost
  exact ⟨harrived, hdealt trivial⟩

/-- The callback of a booking that awaits payment. -/
theorem callback_deals_with_paid : ∃ sys : StaysSystem, ∃ t ∈ sys.threads,
    t.call = .handleCmiCallback (sampleCallback "STAYS-9-25" "210.00") ∧
    t.program.result = some (.callback 0 (some .confirmed)) ∧
    DealtWith sys.store "STAYS-9-25" 0 := by
  obtain ⟨sys, hreach, hdone⟩ := exists_reachable LocksPayable samplePaying
    samplePayment
    (fun sys => sys.threads.any fun t =>
      t.call = .handleCmiCallback (sampleCallback "STAYS-9-25" "210.00") ∧
        t.program.result = some (.callback 0 (some .confirmed))) (by decide +kernel)
  obtain ⟨t, ht, hboth⟩ := List.any_eq_true.mp hdone
  obtain ⟨hcall, hresult⟩ := of_decide_eq_true hboth
  exact ⟨sys, t, ht, hcall, hresult,
    (callback_deals_with hreach t ht _ _ _ hcall hresult).2 (by decide)⟩

/-- The host cancels while the guest is at the gateway; the guest authorises, and the
callback leaves the authorisation open. -/
theorem authorisation_left_open : ∃ sys : StaysSystem,
    Reachable sampleEnv (fun _ _ => True) sys ∧ preAuthOpen sys.store "STAYS-9-25" = true ∧
    ∃ t ∈ sys.threads, t.call = .handleCmiCallback (sampleCallback "STAYS-9-25" "210.00") ∧
      t.program.result = some (.callback 2 (some .bookingNotPayable)) ∧
      ¬DealtWith sys.store "STAYS-9-25" 2 := by
  obtain ⟨sys, hreach, hboth⟩ := exists_reachable (fun _ _ => True)
    (samplePaying ++ [.cancel 9 1 .host 0, .authorize "STAYS-9-25"])
    (System.turns 0 0 13 ++ System.turns 1 20 9 ++ System.turns 3 60 15 ++
      System.turns 4 0 1 ++ System.turns 2 40 8)
    (fun sys => preAuthOpen sys.store "STAYS-9-25" && sys.threads.any fun t =>
      t.call = .handleCmiCallback (sampleCallback "STAYS-9-25" "210.00") ∧
        t.program.result = some (.callback 2 (some .bookingNotPayable)) ∧
        ¬DealtWith sys.store "STAYS-9-25" 2) (by decide +kernel)
  obtain ⟨hopen, hany⟩ := Bool.and_eq_true_iff.mp hboth
  obtain ⟨t, ht, hleft⟩ := List.any_eq_true.mp hany
  exact ⟨sys, hreach, hopen, t, ht, of_decide_eq_true hleft⟩

end NexaStays.Authorisations
