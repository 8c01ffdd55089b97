import NexaStays.Conformance.System

/-!
# The lives of the stays

The abstract service: a stay has a status, it is paid or not, and refunded or not. Every step of
the service, whatever calls overlap, is one step of one life or is not seen at all; what the lives
never take back, the service never takes back.
-/
namespace NexaStays.StayLives

open NexaStays.KeyedTable NexaStays.Transactions NexaStays.Database NexaStays.Payments
  NexaStays.Cancellation NexaStays.Calls NexaStays.Effects NexaStays.Persistence
  NexaStays.Invariant NexaStays.Conformance

structure Life where
  status : BookingStatus
  paid : Bool
  refunded : Bool
  deriving DecidableEq, Repr

def Life.requested : Life := ⟨.paymentPending, false, false⟩

/-- What may happen to one stay. -/
inductive LifeStep : Life → Life → Prop where
  | expire {status : BookingStatus} (unconfirmed : status ∈ preConfirmationBookingStatuses) :
    LifeStep ⟨status, false, false⟩ ⟨.expired, false, false⟩
  | confirm : LifeStep .requested ⟨.confirmed, true, false⟩
  | cancel {status : BookingStatus} {paid refunded : Bool} (by' : CancelledBy)
    (running : status ∉ nonCancellable) (covered : refunded = true → paid = true) :
    LifeStep ⟨status, paid, false⟩ ⟨by'.status, paid, refunded⟩
  | complete {status : BookingStatus} {refunded : Bool} :
    LifeStep ⟨status, true, refunded⟩ ⟨.completed, true, refunded⟩

/-- The stays that there are. -/
abbrev Lives := ℕ → Option Life

inductive LivesStep : Lives → Lives → Prop where
  | book {L : Lives} {id : ℕ} (absent : L id = none) :
    LivesStep L (Function.update L id (some .requested))
  | live {L : Lives} {id : ℕ} {l l' : Life} (found : L id = some l) (step : LifeStep l l') :
    LivesStep L (Function.update L id (some l'))

/-- Requested, confirmed, and ended. -/
def phase : BookingStatus → ℕ
  | .initiated | .paymentPending => 0
  | .confirmed | .checkedIn => 1
  | .completed | .cancelledByGuest | .cancelledByHost | .expired => 2

/-- A later point of the same life. -/
structure Later (l l' : Life) : Prop where
  phase : phase l.status ≤ phase l'.status
  paid : l.paid = true → l'.paid = true
  refunded : l.refunded = true → l'.refunded = true

theorem Later.refl (l : Life) : Later l l := ⟨le_rfl, id, id⟩

theorem Later.trans {l m n : Life} (h : Later l m) (h' : Later m n) : Later l n :=
  ⟨h.phase.trans h'.phase, h'.paid ∘ h.paid, h'.refunded ∘ h.refunded⟩

theorem phase_le (status : BookingStatus) : phase status ≤ 2 := by
  cases status <;> decide

theorem LifeStep.later {l l' : Life} (h : LifeStep l l') : Later l l' := by
  cases h with
  | expire => exact ⟨phase_le _, id, id⟩
  | confirm => exact ⟨by decide, fun _ => rfl, id⟩
  | cancel by' =>
    refine ⟨?_, id, fun h => ?_⟩
    · cases by' <;> exact phase_le _
    · cases h
  | complete => exact ⟨phase_le _, id, id⟩

theorem LivesStep.later {L L' : Lives} (h : LivesStep L L') {id : ℕ} {l : Life}
    (hl : L id = some l) : ∃ l', L' id = some l' ∧ Later l l' := by
  cases h with
  | @book new absent =>
    have hne : id ≠ new := by
      rintro rfl
      rw [absent] at hl
      cases hl
    exact ⟨l, by rw [Function.update_of_ne hne, hl], .refl l⟩
  | @live moved m m' found step =>
    by_cases hid : id = moved
    · subst hid
      obtain rfl : m = l := Option.some.inj (found.symm.trans hl)
      exact ⟨m', Function.update_self .., step.later⟩
    · exact ⟨l, by rw [Function.update_of_ne hid, hl], .refl l⟩

/-- No life is lost, and none goes back. -/
theorem later_of_run {L L' : Lives} (h : Relation.ReflTransGen LivesStep L L') {id : ℕ} {l : Life}
    (hl : L id = some l) : ∃ l', L' id = some l' ∧ Later l l' := by
  induction h with
  | refl => exact ⟨l, hl, .refl l⟩
  | tail _ step ih =>
    obtain ⟨m, hm, hlater⟩ := ih
    obtain ⟨n, hn, hlater'⟩ := step.later hm
    exact ⟨n, hn, hlater.trans hlater'⟩

def lifeOf (s : Store) (b : StaysBooking) : Life :=
  ⟨b.status, decide (Paid s b.id), decide (refundsOf b.id s ≠ [])⟩

def lives (s : Store) : Lives := fun id => (s.bookings.find? id).map (lifeOf s)

variable {s s' : Store} {b b' : StaysBooking}

theorem lifeOf_congr (hledger : ledgerOf s' b.id = ledgerOf s b.id) : lifeOf s' b = lifeOf s b := by
  simp only [lifeOf, Paid, settledGuestPayment_eq, refundsOf_eq, hledger]

/-- One row of the bookings is written, with entries of no other booking. -/
theorem lives_put (hbookings : s'.bookings = s.bookings.put b')
    (hledger : ∀ id, id ≠ b'.id → ledgerOf s' id = ledgerOf s id) :
    lives s' = Function.update (lives s) b'.id (some (lifeOf s' b')) := by
  funext id
  by_cases hid : id = b'.id
  · subst hid
    rw [Function.update_self, lives, hbookings, Table.find?_put, if_pos rfl]
    rfl
  · rw [Function.update_of_ne hid, lives, hbookings, Table.find?_put_of_ne hid, lives]
    cases hrow : s.bookings.find? id with
    | none => rfl
    | some b =>
      have hkey : b.id = id := Table.key_of_find? hrow
      exact congrArg some (lifeOf_congr (hledger b.id (by rwa [hkey])))

theorem lives_of_find (hrow : s.bookings.find? b.id = some b) :
    lives s b.id = some (lifeOf s b) := by
  rw [lives, hrow]
  rfl

theorem flags_of_nil (h : ledgerOf s b.id = []) : lifeOf s b = ⟨b.status, false, false⟩ := by
  simp [lifeOf, Paid, settledGuestPayment_eq, refundsOf_eq, h]

/-- An unconfirmed booking has no entries. -/
theorem nil_of_pre (h : LedgersKept s) (hb : b ∈ s.bookings.rows)
    (hpre : b.status ∈ preConfirmationBookingStatuses) : ledgerOf s b.id = [] := by
  have hform := h.form b hb
  generalize ledgerOf s b.id = l at hform
  cases hform with
  | unpaid => rfl
  | paid hstatus => exact absurd hstatus (not_paid_of_pre hpre)
  | refunded hstatus => exact absurd (paid_of_refunded hstatus) (not_paid_of_pre hpre)

/-- A booking that may be cancelled has no refund. -/
theorem not_refunded (h : LedgersKept s) (hb : b ∈ s.bookings.rows)
    (hrunning : b.status ∉ nonCancellable) : refundsOf b.id s = [] := by
  by_contra hrefund
  have hstatus := h.refunded_status hb hrefund
  revert hrunning hstatus
  cases b.status <;> decide

theorem not_refunded_of_new (hkept : LedgersKept s) (hnew : NewBooking s b) :
    ledgerOf s b.id = [] := by
  refine List.filter_eq_nil_iff.mpr fun e he hid => ?_
  obtain ⟨a, ha⟩ := hkept.owned e he
  rw [of_decide_eq_true hid, hnew.fresh] at ha
  cases ha

/-- Not seen, or one step. -/
def Steps (L L' : Lives) : Prop := L' = L ∨ LivesStep L L'

variable {env : Env} {strict : Prop} {c : Call} {held : List Key} {ws : List Write}

theorem steps_put (b' : StaysBooking) (hrow : s.bookings.find? b.id = some b) (hid : b'.id = b.id)
    (hbookings : s'.bookings = s.bookings.put b')
    (hledger : ∀ id, id ≠ b.id → ledgerOf s' id = ledgerOf s id)
    (hstep : LifeStep (lifeOf s b) (lifeOf s' b')) : Steps (lives s) (lives s') := by
  rw [lives_put hbookings (by rwa [hid]), hid]
  exact .inr (.live (lives_of_find hrow) hstep)

theorem steps_complete {t : ℤ} (hrow : s.bookings.find? b.id = some b)
    (hpaid : Paid s b.id)
    (hbookings : s'.bookings = s.bookings.put
      { b with status := .completed, completedAt := some t })
    (hledger : ∀ id, ledgerOf s' id = ledgerOf s id) : Steps (lives s) (lives s') := by
  refine steps_put _ hrow (by rfl) hbookings (fun id _ => hledger id) ?_
  rw [lifeOf_congr (hledger _)]
  simp only [lifeOf, hpaid, decide_true]
  exact .complete

theorem steps_expire (hkept : LedgersKept s) (hrow : s.bookings.find? b.id = some b)
    (hpre : b.status ∈ preConfirmationBookingStatuses)
    (hbookings : s'.bookings = s.bookings.put { b with status := .expired })
    (hledger : ∀ id, ledgerOf s' id = ledgerOf s id) : Steps (lives s) (lives s') := by
  have hnil := nil_of_pre hkept (Table.mem_of_find? hrow) hpre
  refine steps_put _ hrow (by rfl) hbookings (fun id _ => hledger id) ?_
  rw [lifeOf_congr (hledger _), flags_of_nil hnil, flags_of_nil (by exact hnil)]
  exact .expire hpre

theorem steps_confirm (hkept : LedgersKept s) {i : StaysPaymentIntent}
    {gp pf hp : StaysLedgerEntry} (hrow : s.bookings.find? b.id = some b)
    (hstatus : b.status = .paymentPending) (hset : Settlement i b gp pf hp)
    (hfresh : ∀ e ∈ [gp, pf, hp], s.ledger.find? e.id = none)
    (hbookings : s'.bookings = s.bookings.put { b with status := .confirmed })
    (hput : s'.ledger = ((s.ledger.put gp).put pf).put hp) : Steps (lives s) (lives s') := by
  have hnil := nil_of_pre hkept (Table.mem_of_find? hrow)
    (by simp [hstatus, preConfirmationBookingStatuses])
  obtain ⟨hne₁, hne₂, hne₃⟩ := hset.distinct
  obtain ⟨hgp, hpf, hhp⟩ : s.ledger.find? gp.id = none ∧ s.ledger.find? pf.id = none ∧
    s.ledger.find? hp.id = none := by simpa using hfresh
  have hledger : ∀ id, ledgerOf s' id =
      ledgerOf s id ++ if b.id = id then [gp, pf, hp] else [] := by
    intro id
    have hgpid : gp.bookingId = b.id := by rw [hset.guestPayment]; rfl
    have hpfid : pf.bookingId = b.id := by rw [hset.platformFee]; rfl
    have hhpid : hp.bookingId = b.id := by rw [hset.hostPayout]; rfl
    rw [ledgerOf, hput, ledgerOf_put (by simp [hhp, hne₂.symm, hne₃.symm]),
      ledgerOf_put (by simp [hpf, hne₁.symm]), ledgerOf_put hgp, hgpid, hpfid, hhpid]
    split_ifs <;> simp [ledgerOf]
  refine steps_put _ hrow (by rfl) hbookings (fun id hid => ?_) ?_
  · rw [hledger, if_neg (Ne.symm hid), List.append_nil]
  · have hafter : lifeOf s' { b with status := .confirmed } = ⟨.confirmed, true, false⟩ := by
      simp only [lifeOf, Paid, settledGuestPayment_eq, refundsOf_eq, hledger, hnil, if_pos,
        List.nil_append]
      rw [hset.guestPayment, hset.platformFee, hset.hostPayout]
      rfl
    rw [flags_of_nil hnil, hstatus, hafter]
    exact .confirm

theorem steps_cancel (hkept : LedgersKept s) (by' : CancelledBy) {now : ℤ}
    {refund : Option StaysLedgerEntry} (hrow : s.bookings.find? b.id = some b)
    (hrunning : b.status ∉ nonCancellable) (hrule : RefundRule s b now refund)
    (hbookings : s'.bookings = s.bookings.put { b with status := by'.status })
    (hput : s'.ledger = s.ledger.putAll refund.toList) : Steps (lives s) (lives s') := by
  have hnone := not_refunded hkept (Table.mem_of_find? hrow) hrunning
  have hbefore : lifeOf s b = ⟨b.status, decide (Paid s b.id), false⟩ := by
    simp [lifeOf, hnone]
  cases refund with
  | none =>
    have hledger : ∀ id, ledgerOf s' id = ledgerOf s id := fun id => by
      rw [ledgerOf, hput]
      rfl
    refine steps_put _ hrow (by rfl) hbookings (fun id _ => hledger id) ?_
    have hafter : lifeOf s' { b with status := by'.status } =
        ⟨by'.status, decide (Paid s b.id), false⟩ := by
      rw [lifeOf_congr (hledger _)]
      simp [lifeOf, hnone]
    rw [hbefore, hafter]
    exact .cancel by' hrunning fun h => by cases h
  | some e =>
    obtain ⟨hfresh, hpaid, -, -, heq⟩ := hrule.entry e rfl
    have hid : e.bookingId = b.id := by rw [heq]; rfl
    have htype : e.type = .refund := by rw [heq]; rfl
    have hledger : ∀ id, ledgerOf s' id = ledgerOf s id ++ if b.id = id then [e] else [] := by
      intro id
      rw [ledgerOf, hput, ← hid]
      exact ledgerOf_put hfresh id
    refine steps_put _ hrow (by rfl) hbookings (fun id hne => ?_) ?_
    · rw [hledger, if_neg (Ne.symm hne), List.append_nil]
    · have hafter : lifeOf s' { b with status := by'.status } = ⟨by'.status, true, true⟩ := by
        have hbought : ∃ x ∈ ledgerOf s b.id, x.type = .guestPayment ∧ x.status = .settled := by
          obtain ⟨x, hx, hown, hguest, hsettled⟩ := paid_iff.mp hpaid
          exact ⟨x, List.mem_filter.mpr ⟨hx, decide_eq_true hown⟩, hguest, hsettled⟩
        simp [lifeOf, Paid, settledGuestPayment_eq, refundsOf_eq, hledger, List.filter_append,
          htype, hbought]
      rw [hbefore, hafter, decide_eq_true hpaid]
      exact .cancel by' hrunning fun _ => rfl

/-- A refund that is settled is the same refund. -/
theorem steps_settle {e : StaysLedgerEntry} (hrow : s.ledger.find? e.id = some e)
    (htype : e.type = .refund) (hbookings : s'.bookings = s.bookings)
    (hput : s'.ledger = s.ledger.put { e with status := .settled }) :
    lives s' = lives s := by
  have hpaid : ∀ id, Paid s' id ↔ Paid s id := by
    intro id
    rw [paid_iff, paid_iff, hput]
    constructor
    · rintro ⟨x, hx, hid, hguest, hsettled⟩
      obtain rfl | ⟨hx, -⟩ := Table.mem_put.mp hx
      · rw [htype] at hguest
        cases hguest
      · exact ⟨x, hx, hid, hguest, hsettled⟩
    · rintro ⟨x, hx, hid, hguest, hsettled⟩
      refine ⟨x, Table.mem_put.mpr (.inr ⟨hx, fun hkey => ?_⟩), hid, hguest, hsettled⟩
      obtain rfl : x = e := s.ledger.eq_of_key_eq hx (Table.mem_of_find? hrow) hkey
      rw [htype] at hguest
      cases hguest
  have hrefunds : ∀ id, refundsOf id s' ≠ [] ↔ refundsOf id s ≠ [] := by
    intro id
    rw [refunded_iff, refunded_iff, hput]
    constructor
    · rintro ⟨x, hx, hid, hrefund⟩
      obtain rfl | ⟨hx, -⟩ := Table.mem_put.mp hx
      · exact ⟨e, Table.mem_of_find? hrow, hid, htype⟩
      · exact ⟨x, hx, hid, hrefund⟩
    · rintro ⟨x, hx, hid, hrefund⟩
      by_cases hkey : x.id = e.id
      · obtain rfl : x = e := s.ledger.eq_of_key_eq hx (Table.mem_of_find? hrow) hkey
        exact ⟨_, Table.mem_put_self _ _, hid, htype⟩
      · exact ⟨x, Table.mem_put.mpr (.inr ⟨hx, hkey⟩), hid, hrefund⟩
  have hlife : lifeOf s' = lifeOf s := by
    funext b
    simp only [lifeOf, hpaid, hrefunds]
  funext id
  rw [lives, lives, hbookings, hlife]

theorem steps_of_effect (hkept : LedgersKept s) (h : Effect env strict c held s ws) :
    Steps (lives s) (lives (publish s ws)) := by
  cases h with
  | @book counter b requested new =>
    have hnil := not_refunded_of_new hkept new
    have hput : lives (publish s [.refCounter counter, .booking b]) = Function.update (lives s) b.id
        (some (lifeOf (publish s [.refCounter counter, .booking b]) b)) :=
      lives_put rfl fun _ _ => rfl
    rw [hput, flags_of_nil (by exact hnil), new.status]
    exact .inr (.book (by rw [lives, new.fresh]; rfl))
  | expire row status => exact steps_expire hkept row status rfl fun _ => rfl
  | confirm _ _ booking _ status settlement fresh =>
    exact steps_confirm hkept booking status settlement fresh rfl rfl
  | reject _ _ booking status =>
    exact steps_expire hkept booking (by simp [status, preConfirmationBookingStatuses]) rfl
      fun _ => rfl
  | @cancel b by' _ _ refund _ _ booking status rule =>
    refine steps_cancel hkept by' booking status rule ?_ ?_
    · cases refund <;> simp [publish_cancelWrites, Store.write]
    · cases refund <;> simp [publish_cancelWrites, Store.write]
  | complete row paid => exact steps_complete row paid rfl fun _ => rfl
  | @review stay completedAt _ reviewed _ booking =>
    cases stay with
    | none => exact .inl (by cases reviewed <;> rfl)
    | some b =>
      obtain ⟨row, paid⟩ := booking b rfl
      exact steps_complete (t := completedAt) row paid (by cases reviewed <;> rfl)
        fun _ => by cases reviewed <;> rfl
  | settleRefund row type => exact .inl (steps_settle row type rfl rfl)
  | dropIntents => exact .inl (by rw [publish_cancelWrites]; rfl)
  | hostBlock => exact .inl (by rw [publish_blocks]; rfl)
  | openIntent | markPaid | message | patch => exact .inl rfl

variable {ok ok' : StaysSystem → Action → Prop} {sys sys' : StaysSystem} {a : Action}

/-- A step of the service is a step of one life, or not seen. -/
theorem steps_of_step (h : Reachable env ok sys) (hstep : sys.step a = some sys') :
    Steps (lives sys.store) (lives sys'.store) := by
  obtain ⟨c, ws, hpub, hstore⟩ := publishes_of_step hstep
  rw [hstore]
  obtain rfl | ⟨held, heffect⟩ := effect_of_any h hpub
  · exact .inl rfl
  · exact steps_of_effect (consistent_of_reachable h).ledgers heffect

theorem lives_run (h : Reachable env ok sys) (hrun : System.Run ok sys sys') :
    Relation.ReflTransGen LivesStep (lives sys.store) (lives sys'.store) := by
  induction hrun with
  | refl => exact .refl
  | tail run _ step ih =>
    obtain hsame | hlive := steps_of_step (h.trans run) step
    · rwa [hsame]
    · exact ih.tail hlive

/-- Whatever calls overlap, fail or die, every step of the service is one step of one life or
changes none, and so the service lives the lives of stays that begin with none. -/
theorem service_lives {env : Env} {sys : StaysSystem} (h : Reachable env (fun _ _ => True) sys) :
    (∀ a sys', sys.step a = some sys' → Steps (lives sys.store) (lives sys'.store)) ∧
      Relation.ReflTransGen LivesStep (fun _ => none) (lives sys.store) := by
  refine ⟨fun _ _ hstep => steps_of_step h hstep, ?_⟩
  obtain ⟨s, calls, hfresh, hrun⟩ := h
  have hnone : lives s = fun _ => none := by
    funext id
    have habsent : s.bookings.find? id = none := Table.find?_eq_none.mpr (by simp [hfresh.bookings])
    rw [lives, habsent]
    rfl
  rw [← hnone]
  exact lives_run ⟨s, calls, hfresh, .refl _⟩ hrun

/-- A stay that is paid for, in a booking that a schedule reaches. -/
theorem service_lives_paid : ∃ sys : StaysSystem,
    lives sys.store 9 = some ⟨.confirmed, true, false⟩ ∧
    (∀ a sys', sys.step a = some sys' → Steps (lives sys.store) (lives sys'.store)) ∧
    Relation.ReflTransGen LivesStep (fun _ => none) (lives sys.store) := by
  obtain ⟨sys, hreach, hlife⟩ := exists_reachable (fun _ _ => True) samplePaying samplePayment
    (fun sys => lives sys.store 9 = some ⟨.confirmed, true, false⟩) (by decide +kernel)
  exact ⟨sys, of_decide_eq_true hlife, service_lives hreach⟩

/-- From any reachable state, no run loses a stay, takes it back, or forgets that it was paid or
refunded. -/
theorem stay_goes_on {env : Env} {sys sys' : StaysSystem}
    (h : Reachable env (fun _ _ => True) sys) (hrun : System.Run (fun _ _ => True) sys sys')
    {id : ℕ} {b : StaysBooking} (hb : sys.store.bookings.find? id = some b) :
    ∃ b', sys'.store.bookings.find? id = some b' ∧ phase b.status ≤ phase b'.status ∧
      (Paid sys.store id → Paid sys'.store id) ∧
      (refundsOf id sys.store ≠ [] → refundsOf id sys'.store ≠ []) := by
  have hlife : lives sys.store id = some (lifeOf sys.store b) := by
    rw [lives, hb]
    rfl
  obtain ⟨l, hl, hlater⟩ := later_of_run (lives_run h hrun) hlife
  obtain ⟨b', hb', rfl⟩ := Option.map_eq_some_iff.mp hl
  obtain rfl : b.id = id := Table.key_of_find? hb
  have hid : b'.id = b.id := Table.key_of_find? hb'
  refine ⟨b', hb', hlater.phase, fun hpaid => ?_, fun hrefund => ?_⟩
  · have hflag : (lifeOf sys'.store b').paid = true := hlater.paid (decide_eq_true hpaid)
    rw [← hid]
    exact of_decide_eq_true hflag
  · have hflag : (lifeOf sys'.store b').refunded = true :=
      hlater.refunded (decide_eq_true hrefund)
    rw [← hid]
    exact of_decide_eq_true hflag

/-- The paid stay is cancelled; it remains paid. -/
theorem stay_goes_on_cancelled : ∃ sys sys' : StaysSystem,
    sys.store.bookings.rows.map (·.status) = [.confirmed] ∧
    System.Run (fun _ _ => True) sys sys' ∧
    ∃ b', sys'.store.bookings.find? 9 = some b' ∧ 1 ≤ phase b'.status ∧ Paid sys'.store 9 := by
  obtain ⟨sys, sys', hreach, hrun, hstart, -⟩ := exists_reachable_run (fun _ _ => True)
    (fun _ _ => True) (samplePaying ++ [.cancel 9 2 .guest (21910 * dayMs)])
    samplePayment (System.turns 3 60 16)
    (fun sys => (sys.store.bookings.find? 9).map (·.status) = some .confirmed ∧
      sys.store.bookings.rows.map (·.status) = [.confirmed] ∧ Paid sys.store 9)
    (fun _ => true) (by decide +kernel)
  obtain ⟨hfound, hrows, hpaid⟩ := of_decide_eq_true hstart
  obtain ⟨b, hb, hstatus⟩ := Option.map_eq_some_iff.mp hfound
  obtain ⟨b', hb', hphase, hkept, -⟩ := stay_goes_on hreach hrun hb
  rw [hstatus] at hphase
  exact ⟨sys, sys', hrows, hrun, b', hb', hphase, hkept hpaid⟩

end NexaStays.StayLives
