import NexaStays.Conformance.Booking
import NexaStays.Conformance.Cancellation
import NexaStays.Conformance.Confirmation
import NexaStays.Conformance.Lifecycle

/-!
# Every run of the service

All calls keep to the discipline, so every state they reach is consistent and every
publication is one of the effects, in any order of the statements of any number of
calls.
-/
namespace NexaStays.Conformance

open NexaStays.KeyedTable NexaStays.Transactions NexaStays.RelyGuarantee NexaStays.Database
  NexaStays.BookingDate NexaStays.Payments NexaStays.HostCalendar NexaStays.Calls
  NexaStays.Effects NexaStays.Invariant NexaStays.Interference

open NexaStays.RelyGuarantee.Discipline

variable {env : Env} {apart payable : Prop} {s : Store} {c : Call}

theorem setHostAvailabilityBlock_conforms {listingId hostUserId : ℕ} {fromDate toDate : Option Ymd}
    {isBlocked : Bool} : (discipline env apart payable).Outside c (fun _ _ => True)
      (setHostAvailabilityBlock listingId hostUserId fromDate toDate isBlocked) s := by
  unfold setHostAvailabilityBlock
  refine wp_query .true trivial (fun s₁ _ _ => ?_) fun _ _ _ => rfl
  refine wp_expect .true trivial (fun _ _ => ?_) fun _ _ _ => rfl
  refine wp_expect .true trivial (fun start _ => ?_) fun _ _ _ => rfl
  refine wp_expect .true trivial (fun stop _ => ?_) fun _ _ _ => rfl
  refine wp_require .true trivial (fun _ => ?_) fun _ _ _ => rfl
  refine wp_ofExcept .true trivial (fun cursor _ => ?_) fun _ _ _ _ => rfl
  refine wp_ofExcept .true trivial (fun last _ => ?_) fun _ _ _ _ => rfl
  refine wp_require .true trivial (fun _ => ?_) fun _ _ _ => rfl
  refine wp_publish .true trivial (fun s₂ _ _ => ⟨Or.inr ?_, Outside.pure .true trivial⟩)
    fun _ _ _ => rfl
  have hrows : (nightsBetween cursor last).map (fun date => Write.block
      (hostBlock listingId isBlocked date)) =
        ((nightsBetween cursor last).map (hostBlock listingId isBlocked)).map .block := by
    rw [List.map_map]
    rfl
  rw [hrows]
  exact .hostBlock

/-- Every call keeps to the discipline. -/
theorem program_conforms (env : Env) (apart payable : Prop) (c : Call) (s : Store) :
    (discipline env apart payable).Outside c (Answers payable c) (program env c) s := by
  have hP : ∀ c a, (discipline env apart payable).Stable c [] (Answers payable c a) :=
    fun c a => (persistent_answers a).stable
  cases c with
  | createBooking userId dto isVerified =>
    exact Outside.map (fun _ => hP _ _) (fun _ _ h => h) createBooking_conforms
  | createOrGetIntent bookingId guestUserId key =>
    exact Outside.map (fun _ => hP _ _) (fun _ _ _ => trivial) createOrGetIntent_conforms
  | confirmPaymentSuccess provider oid =>
    refine Outside.map (fun _ => hP _ _) (fun _ _ _ => trivial)
      (confirmPaymentSuccess_conforms (n := 0) (fun i hprovider hoid => ?_) (Nat.zero_le _))
    exact ⟨oid, hoid, Or.inl (by rw [hprovider])⟩
  | handleCmiCallback body => exact receiveCallback_conforms
  | cancel bookingId userId by' now =>
    exact Outside.map (fun _ => hP _ _) (fun _ _ _ => trivial) cancel_conforms
  | expirePendingPayments now =>
    exact Outside.map (fun _ => hP _ _) (fun _ _ _ => trivial) expirePendingPayments_conforms
  | autoCompletePastStays now =>
    exact Outside.map (fun _ => hP _ _) (fun _ _ _ => trivial) autoCompletePastStays_conforms
  | finalizeCheckoutDayStays now =>
    exact Outside.map (fun _ => hP _ _) (fun _ _ _ => trivial) finalizeCheckoutDayStays_conforms
  | createReview guestUserId bookingId rating comment now =>
    exact Outside.map (fun _ => hP _ _) (fun _ _ _ => trivial) createReview_conforms
  | setHostAvailabilityBlock listingId hostUserId fromDate toDate isBlocked =>
    exact Outside.map (fun _ => hP _ _) (fun _ _ _ => trivial) setHostAvailabilityBlock_conforms
  | authorize oid =>
    exact Outside.map (fun _ => hP _ _) (fun _ _ _ => trivial)
      (sendToGateway_conforms (n := 0) (show MessageKnown _ oid .preAuth from trivial) (Nat.zero_le _))

variable {ok : StaysSystem → Action → Prop} {sys sys' : StaysSystem} {a : Action}

theorem sound_initial (h : Store.Fresh s) (calls : List Call) :
    (discipline env apart payable).Sound (initial env s calls) := by
  refine Sound.initial (consistent_of_fresh h) (fun t ht => ?_) fun t ht => ?_
  · obtain ⟨c, -, rfl⟩ := List.mem_map.mp ht
    rfl
  · obtain ⟨c, -, rfl⟩ := List.mem_map.mp ht
    exact wp_mono (fun _ _ _ _ h => h.2) (fun _ _ _ _ _ => trivial)
      (program_conforms env apart payable c s)

/-- The global invariant, in every state of a run that the assumptions admit. -/
theorem sound_of_reachable
    (hok : ∀ sys a, ok sys a → (discipline env apart payable).Admits sys a)
    (h : Reachable env ok sys) : (discipline env apart payable).Sound sys := by
  obtain ⟨s, calls, hfresh, hrun⟩ := h
  exact Sound.run hok hrun (sound_initial hfresh calls)

/-- Without assumptions every step is admitted. -/
theorem admits_any (sys : StaysSystem) (a : Action) : (discipline env False False).Admits sys a :=
  ⟨fun _ _ _ _ _ hfalse => hfalse.elim, fun _ _ _ hfalse => hfalse.elim⟩

theorem consistent_of_reachable (h : Reachable env ok sys) : Consistent sys.store :=
  (sound_of_reachable (fun sys a _ => admits_any sys a) h).inv

/-- Whatever an admitted step makes visible is nothing or an effect of its call. -/
theorem effect_of_publishes
    (hok : ∀ sys a, ok sys a → (discipline env apart payable).Admits sys a)
    (h : Reachable env ok sys) (ha : (discipline env apart payable).Admits sys a) {ws : List Write}
    (hpub : sys.published a = some (c, ws)) : ws = [] ∨ ∃ held, Effect env apart c held sys.store ws := by
  obtain ⟨held, hnil | heffect⟩ := (sound_of_reachable hok h).publishes ha hpub
  · exact Or.inl hnil
  · exact Or.inr ⟨held, heffect⟩

/-- Of any step it is an effect, if nothing is said about keys. -/
theorem effect_of_any (h : Reachable env ok sys) {ws : List Write}
    (hpub : sys.published a = some (c, ws)) : ws = [] ∨ ∃ held, Effect env False c held sys.store ws :=
  effect_of_publishes (fun sys a _ => admits_any sys a) h (admits_any sys a) hpub

/-- A step publishes the rows of its call, and nothing else. -/
theorem publishes_of_step (hstep : sys.step a = some sys') :
    ∃ c ws, sys.published a = some (c, ws) ∧ sys'.store = publish sys.store ws := by
  obtain ⟨t, p, ses, ws, ht, hmove, rfl⟩ := System.step_eq_some.mp hstep
  exact ⟨t.call, ws, System.published_eq_some.mpr ⟨t, p, ses, ht, rfl, hmove⟩, rfl⟩

theorem reachable_step (h : Reachable env ok sys) (ha : ok sys a) (hstep : sys.step a = some sys') :
    Reachable env ok sys' := by
  obtain ⟨s, calls, hfresh, hrun⟩ := h
  exact ⟨s, calls, hfresh, .tail hrun ha hstep⟩

/-- A property that every effect keeps holds in every state of a run, if it holds at the
start. -/
theorem run_of_effects {P : Store → Prop}
    (hok : ∀ sys a, ok sys a → (discipline env apart payable).Admits sys a)
    (hstart : ∀ s, Store.Fresh s → P s)
    (hstep : ∀ sys a c ws held, Reachable env ok sys → ok sys a →
      sys.published a = some (c, ws) → Effect env apart c held sys.store ws →
      P sys.store → P (publish sys.store ws))
    (h : Reachable env ok sys) : P sys.store := by
  obtain ⟨s, calls, hfresh, hrun⟩ := h
  induction hrun with
  | refl => exact hstart s hfresh
  | @tail mid sys' a run meets step ih =>
    have hreach : Reachable env ok mid := ⟨s, calls, hfresh, run⟩
    obtain ⟨c, ws, hpub, hstore⟩ := publishes_of_step step
    rw [hstore]
    obtain rfl | ⟨held, heffect⟩ := effect_of_publishes hok hreach (hok mid a meets) hpub
    · exact ih
    · exact hstep mid a c ws held hreach meets hpub heffect ih

end NexaStays.Conformance
