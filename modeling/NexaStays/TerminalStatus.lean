import NexaStays.Conformance.System

/-!
# Terminal statuses

A cancelled, expired or completed booking keeps its status, as long as no completion is
carried out on a booking that was cancelled after the job or the review had read it: the
`UPDATE` that completes a stay does not look at the status again.
-/
namespace NexaStays.TerminalStatus

open NexaStays.KeyedTable NexaStays.Transactions NexaStays.Database NexaStays.Payments
  NexaStays.Cancellation NexaStays.Calls NexaStays.Effects NexaStays.Persistence
  NexaStays.Invariant NexaStays.Conformance

def terminalStatuses : List BookingStatus := cancelledStatuses ++ [.expired, .completed]

/-- A completion meets a row that nobody has cancelled. -/
def CompletesUncancelled (sys : StaysSystem) (a : Action) : Prop :=
  ∀ b ∈ (sys.writes a).filterMap Write.booking?, b.status = .completed →
    ∀ r ∈ sys.store.bookings.find? b.id, r.status ∉ cancelledStatuses

instance (sys : StaysSystem) (a : Action) : Decidable (CompletesUncancelled sys a) :=
  inferInstanceAs (Decidable (∀ b ∈ (sys.writes a).filterMap Write.booking?, b.status = .completed →
    ∀ r ∈ sys.store.bookings.find? b.id, r.status ∉ cancelledStatuses))

/-- A row that is found after some writes was there before, or is one of them. -/
theorem booking_written {s : Store} {ws : List Write} {id : ℕ} {b : StaysBooking}
    (h : (publish s ws).bookings.find? id = some b) :
    s.bookings.find? id = some b ∨ .booking b ∈ ws := by
  induction ws generalizing s with
  | nil => exact Or.inl h
  | cons w ws ih =>
    obtain hfound | hmem := ih h
    · cases w with
      | booking a =>
        have hput : (if id = a.id then some a else s.bookings.find? id) = some b := by
          simpa [Store.write] using hfound
        split_ifs at hput with hid
        · obtain rfl : a = b := Option.some.inj hput
          exact Or.inr (by simp)
        · exact Or.inl hput
      | _ => exact Or.inl hfound
    · exact Or.inr (by simp [hmem])

theorem not_expired_of_paid {s : Store} {b : StaysBooking} (hledgers : LedgersKept s)
    (hb : b ∈ s.bookings.rows) (hpaid : Paid s b.id) : b.status ≠ .expired := by
  intro hexpired
  have hform := hledgers.form b hb
  have hne := (hledgers.paid_iff hb).mp hpaid
  generalize ledgerOf s b.id = l at hform hne
  cases hform with
  | unpaid => exact hne rfl
  | paid hstatus => simp [hexpired, paidStatuses] at hstatus
  | refunded hstatus => simp [hexpired, refundedStatuses] at hstatus

/-- Only a completion moves a booking that has ended, and only a cancelled one. -/
theorem status_of_moves {s : Store} {b b' : StaysBooking} (hledgers : LedgersKept s)
    (hb : b ∈ s.bookings.rows) (hterminal : b.status ∈ terminalStatuses) (h : Moves s b b') :
    b'.status = b.status ∨ b.status ∈ cancelledStatuses ∧ b'.status = .completed := by
  have hended : b.status ∈ nonCancellable := by
    revert hterminal
    cases b.status <;> decide
  cases h with
  | expire hpre =>
    have hopen : b.status ∉ terminalStatuses := by
      revert hpre
      cases b.status <;> decide
    exact absurd hterminal hopen
  | confirm hpending => simp [hpending, terminalStatuses, cancelledStatuses] at hterminal
  | cancel hopen => exact absurd hended hopen
  | complete hpaid =>
    have hexpired := not_expired_of_paid hledgers hb hpaid
    by_cases hcancelled : b.status ∈ cancelledStatuses
    · exact Or.inr ⟨hcancelled, rfl⟩
    · left
      show BookingStatus.completed = b.status
      revert hterminal hexpired hcancelled
      cases b.status <;> decide

/-- One step, from any reachable state. -/
theorem status_of_step {env : Env} {ok : StaysSystem → Action → Prop} {sys sys' : StaysSystem}
    {a : Action} (h : Reachable env ok sys) (ha : CompletesUncancelled sys a)
    (hstep : sys.step a = some sys') {id : ℕ} {b : StaysBooking}
    (hb : sys.store.bookings.find? id = some b) (hterminal : b.status ∈ terminalStatuses) :
    ∃ b', sys'.store.bookings.find? id = some b' ∧ b'.status = b.status := by
  obtain ⟨c, ws, hpub, hstore⟩ := publishes_of_step hstep
  obtain rfl | ⟨held, heffect⟩ := effect_of_any h hpub
  · exact ⟨b, by rw [hstore]; exact hb, rfl⟩
  obtain ⟨b', hb', hmove⟩ := booking_persists heffect hb
  refine ⟨b', by rwa [hstore], ?_⟩
  obtain rfl | hmove := hmove
  · rfl
  have hledgers := (consistent_of_reachable h).ledgers
  obtain hsame | ⟨hcancelled, hcompleted⟩ :=
    status_of_moves hledgers (Table.mem_of_find? hb) hterminal hmove
  · exact hsame
  have hid : b'.id = id := Table.key_of_find? hb'
  obtain hold | hwritten := booking_written hb'
  · obtain rfl : b = b' := Option.some.inj (hb.symm.trans hold)
    rfl
  · have hmem : b' ∈ (sys.writes a).filterMap Write.booking? :=
      mem_bookings.mpr (System.writes_eq hpub ▸ hwritten)
    exact absurd hcancelled (ha b' hmem hcompleted b (by rw [hid, hb]; rfl))

/-- From any reachable state, a run in which completions meet uncancelled rows leaves
every terminal status as it is. -/
theorem terminal_absorbing {env : Env} {sys sys' : StaysSystem}
    (h : Reachable env (fun _ _ => True) sys) (hrun : System.Run CompletesUncancelled sys sys')
    {id : ℕ} {b : StaysBooking} (hb : sys.store.bookings.find? id = some b)
    (hterminal : b.status ∈ terminalStatuses) :
    ∃ b', sys'.store.bookings.find? id = some b' ∧ b'.status = b.status := by
  induction hrun with
  | refl => exact ⟨b, hb, rfl⟩
  | tail run meets step ih =>
    obtain ⟨b', hb', hstatus⟩ := ih
    obtain ⟨b'', hb'', hstatus'⟩ := status_of_step (h.trans (run.mono fun _ _ _ => trivial)) meets
      step hb' (hstatus ▸ hterminal)
    exact ⟨b'', hb'', hstatus'.trans hstatus⟩

/-- The stay is completed by the job; then its guest tries to cancel it. -/
theorem terminal_absorbing_completed : ∃ sys sys' : StaysSystem,
    sys.store.bookings.rows.map (·.status) = [.completed] ∧
    System.Run CompletesUncancelled sys sys' ∧
    ∃ b', sys'.store.bookings.find? 9 = some b' ∧ b'.status = .completed := by
  obtain ⟨sys, sys', hreach, hrun, hstart, -⟩ := exists_reachable_run (fun _ _ => True)
    CompletesUncancelled
    (samplePaying ++
      [.autoCompletePastStays (21927 * dayMs), .cancel 9 2 .guest (21927 * dayMs)])
    (samplePayment ++ System.turns 3 80 3) (System.turns 4 100 1)
    (fun sys => (sys.store.bookings.find? 9).map (·.status) = some .completed ∧
      sys.store.bookings.rows.map (·.status) = [.completed])
    (fun _ => true) (by decide +kernel)
  obtain ⟨hfound, hrows⟩ := of_decide_eq_true hstart
  obtain ⟨b, hb, hstatus⟩ := Option.map_eq_some_iff.mp hfound
  obtain ⟨b', hb', hsame⟩ := terminal_absorbing hreach hrun hb (by rw [hstatus]; decide)
  exact ⟨sys, sys', hrows, hrun, b', hb', hsame.trans hstatus⟩

/-- The job reads a confirmed past stay, the guest cancels it, and the job completes it. -/
theorem cancelled_then_completed : ∃ sys sys' : StaysSystem,
    Reachable sampleEnv (fun _ _ => True) sys ∧ System.Run (fun _ _ => True) sys sys' ∧
    sys.store.bookings.rows.map (·.status) = [.cancelledByGuest] ∧
    sys'.store.bookings.rows.map (·.status) = [.completed] := by
  obtain ⟨sys, sys', hreach, hrun, hstart, hend⟩ := exists_reachable_run (fun _ _ => True)
    (fun _ _ => True)
    (samplePaying ++
      [.autoCompletePastStays (21927 * dayMs), .cancel 9 2 .guest (21927 * dayMs)])
    (samplePayment ++ System.turns 3 80 1 ++ System.turns 4 100 10)
    (System.turns 3 81 2)
    (fun sys => sys.store.bookings.rows.map (·.status) = [.cancelledByGuest])
    (fun sys => sys.store.bookings.rows.map (·.status) = [.completed]) (by decide +kernel)
  exact ⟨sys, sys', hreach, hrun, of_decide_eq_true hstart, of_decide_eq_true hend⟩

end NexaStays.TerminalStatus
