import NexaStays.Conformance.System
import NexaStays.GatewayTexts

/-!
# Captures of a booking

A success callback of a paid booking is captured again: for another order of the
booking, or after the money was sent back. Where neither happens, a booking is captured
once, and nothing is captured after a release or a refund.
-/
namespace NexaStays.Captures

open NexaStays.KeyedTable NexaStays.Transactions NexaStays.Database NexaStays.Payments
  NexaStays.Cancellation NexaStays.Calls NexaStays.Effects NexaStays.Persistence
  NexaStays.Invariant NexaStays.GatewayTexts NexaStays.Conformance

/-- The order is the one that paid its booking, and nothing of it is to be paid back. -/
def PaidBy (s : Store) (oid : String) : Prop :=
  ∀ i ∈ intentsOf .cmi oid s, refundsOf i.bookingId s = [] ∧
    ∀ j ∈ s.intents.rows, j.bookingId = i.bookingId → j.status = .succeeded →
      j.providerIntentId = some oid

instance (s : Store) (oid : String) : Decidable (PaidBy s oid) :=
  inferInstanceAs (Decidable (∀ i ∈ intentsOf .cmi oid s, refundsOf i.bookingId s = [] ∧
    ∀ j ∈ s.intents.rows, j.bookingId = i.bookingId → j.status = .succeeded →
      j.providerIntentId = some oid))

/-- A capture is for the order that paid the booking. -/
def CapturesPaidOrder (sys : StaysSystem) (a : Action) : Prop :=
  ∀ m ∈ (sys.writes a).filterMap Write.message?, m.op = .postAuth → PaidBy sys.store m.oid

instance (sys : StaysSystem) (a : Action) : Decidable (CapturesPaidOrder sys a) :=
  inferInstanceAs (Decidable (∀ m ∈ (sys.writes a).filterMap Write.message?,
    m.op = .postAuth → PaidBy sys.store m.oid))

/-- The requests that give the money of a booking back. -/
def Returns (op : CmiOp) : Prop := op = .void ∨ op = .credit

structure CapturesKept (s : Store) : Prop where
  paid : ∀ m ∈ s.gateway.rows, m.op = .postAuth → ∀ id, OrderFor s m.oid id →
    ∃ j ∈ s.intents.rows, j.bookingId = id ∧ j.status = .succeeded ∧
      j.providerIntentId = some m.oid
  oneOrder : ∀ m ∈ s.gateway.rows, ∀ n ∈ s.gateway.rows, m.op = .postAuth → n.op = .postAuth →
    ∀ id, OrderFor s m.oid id → OrderFor s n.oid id → m.oid = n.oid
  first : ∀ m ∈ s.gateway.rows, ∀ n ∈ s.gateway.rows, Returns m.op → n.op = .postAuth →
    ∀ id, OrderFor s m.oid id → OrderFor s n.oid id → n.seq < m.seq

variable {env : Env} {strict : Prop} {c : Call} {held : List Key} {s : Store} {ws : List Write}

/-- A merchant request is about an order of some booking. -/
theorem order_of_known {oid : String} {op : CmiOp} (h : MessageKnown s oid op)
    (hop : op = .postAuth ∨ Returns op) : ∃ id, OrderFor s oid id := by
  obtain rfl | rfl | rfl := hop
  · obtain ⟨id, horder, -⟩ := h
    exact ⟨id, horder⟩
  · obtain ⟨id, horder, -⟩ := h
    exact ⟨id, horder⟩
  · obtain ⟨id, horder, -⟩ := h
    exact ⟨id, horder⟩

/-- No effect makes the order of a message that was sent one of another booking. -/
theorem orderFor_before (h : Effect env strict c held s ws) (hs : Consistent s)
    {m : GatewayMessage} (hm : m ∈ s.gateway.rows) (hop : m.op = .postAuth ∨ Returns m.op) {id : ℕ}
    (horder : OrderFor (publish s ws) m.oid id) : OrderFor s m.oid id := by
  obtain ⟨id', horder'⟩ := order_of_known (hs.gateway.known m hm) hop
  have hsame : id' = id :=
    orderFor_unique (hs.effect h).intents (orderFor_persists h horder') horder
  exact hsame ▸ horder'

theorem CapturesKept.frame (hk : CapturesKept s) (hs : Consistent s)
    (h : Effect env strict c held s ws) (hsame : (publish s ws).gateway = s.gateway) :
    CapturesKept (publish s ws) := by
  refine ⟨?_, ?_, ?_⟩ <;> rw [hsame]
  · intro m hm hop id horder
    obtain ⟨j, hj, hid, hstatus, hoid⟩ := hk.paid m hm hop id (orderFor_before h hs hm (Or.inl hop) horder)
    obtain ⟨j', hj', ⟨_, _, rfl⟩, hstatus'⟩ := intent_persists h hj
    exact ⟨_, hj', hid, hstatus' hstatus, hoid⟩
  · intro m hm n hn hmop hnop id hmo hno
    exact hk.oneOrder m hm n hn hmop hnop id (orderFor_before h hs hm (Or.inl hmop) hmo)
      (orderFor_before h hs hn (Or.inl hnop) hno)
  · intro m hm n hn hmop hnop id hmo hno
    exact hk.first m hm n hn hmop hnop id (orderFor_before h hs hm (Or.inr hmop) hmo)
      (orderFor_before h hs hn (Or.inl hnop) hno)

/-- The intent that paid the booking of an order that may be captured. -/
theorem payer_of_paidBy (hs : Consistent s) {oid : String} {id : ℕ} (hsafe : PaidBy s oid)
    (hknown : MessageKnown s oid .postAuth) (horder : OrderFor s oid id) :
    Paid s id ∧ refundsOf id s = [] ∧ ∃ j ∈ s.intents.rows, j.bookingId = id ∧
      j.status = .succeeded ∧ j.providerIntentId = some oid := by
  obtain ⟨id', horder', hpaid⟩ := hknown
  obtain rfl : id' = id := orderFor_unique hs.intents horder' horder
  obtain ⟨j, hj, hid, hstatus⟩ := hs.intents.payer id' hpaid
  obtain ⟨i, hi, hbook⟩ := horder
  obtain ⟨hnone, hall⟩ := hsafe i hi
  rw [hbook] at hnone hall
  exact ⟨hpaid, hnone, j, hj, hid, hstatus, hall j hj hid hstatus⟩

/-- A captured order of a booking, and another that may be captured, are the same. -/
theorem oid_eq_of_paidBy (hk : CapturesKept s) {m : GatewayMessage} (hm : m ∈ s.gateway.rows)
    (hop : m.op = .postAuth) {oid : String} {id : ℕ} (hsafe : PaidBy s oid)
    (horder : OrderFor s m.oid id) (horder' : OrderFor s oid id) : m.oid = oid := by
  obtain ⟨j, hj, hid, hstatus, hoid⟩ := hk.paid m hm hop id horder
  obtain ⟨i, hi, hbook⟩ := horder'
  have hsame := (hsafe i hi).2 j hj (hid.trans hbook.symm) hstatus
  exact Option.some.inj (hoid.symm.trans hsame)

/-- Nothing was given back of a booking whose order may be captured. -/
theorem not_returned (hs : Consistent s) {m : GatewayMessage} (hm : m ∈ s.gateway.rows) {id : ℕ}
    (horder : OrderFor s m.oid id) (hpaid : Paid s id) (hnone : refundsOf id s = []) :
    ¬Returns m.op := by
  have hknown := hs.gateway.known m hm
  intro hop
  obtain hvoid | hcredit := hop
  · rw [hvoid] at hknown
    obtain ⟨id', horder', hclosed, -⟩ := hknown
    obtain rfl : id' = id := orderFor_unique hs.intents horder' horder
    obtain ⟨e, he, hid, -⟩ := paid_iff.mp hpaid
    have hmem : e ∈ ledgerOf s id' := List.mem_filter.mpr ⟨he, decide_eq_true hid⟩
    rw [hclosed] at hmem
    exact nomatch hmem
  · rw [hcredit] at hknown
    obtain ⟨id', horder', hrefund⟩ := hknown
    obtain rfl : id' = id := orderFor_unique hs.intents horder' horder
    exact hrefund hnone

/-- A message joins the traffic. -/
theorem CapturesKept.message (hk : CapturesKept s) (hs : Consistent s) {op : CmiOp} {oid : String}
    {amount : Option ℤ} {delivered : Bool} (hknown : MessageKnown s oid op)
    (hsafe : op = .postAuth → PaidBy s oid) :
    CapturesKept (publish s [.gateway (gatewayMessage op oid amount delivered s)]) := by
  have hrows := rows_put_message hs.gateway op oid amount delivered
  have hcases : ∀ m ∈ (publish s [Write.gateway (gatewayMessage op oid amount delivered s)]).gateway.rows,
      m ∈ s.gateway.rows ∨ m = gatewayMessage op oid amount delivered s := by
    intro m hm
    rw [gateway_publish_message, hrows] at hm
    exact (List.mem_append.mp hm).imp_right List.mem_singleton.mp
  refine ⟨fun m hm hop id horder => ?_, fun m hm n hn hmop hnop id hmo hno => ?_,
    fun m hm n hn hmop hnop id hmo hno => ?_⟩
  · obtain hm | rfl := hcases m hm
    · exact hk.paid m hm hop id horder
    · obtain rfl : op = .postAuth := hop
      exact (payer_of_paidBy hs (hsafe rfl) hknown horder).2.2
  · obtain hm' | rfl := hcases m hm <;> obtain hn' | rfl := hcases n hn
    · exact hk.oneOrder m hm' n hn' hmop hnop id hmo hno
    · exact oid_eq_of_paidBy hk hm' hmop (hsafe hnop) hmo hno
    · exact (oid_eq_of_paidBy hk hn' hnop (hsafe hmop) hno hmo).symm
    · rfl
  · obtain hm' | rfl := hcases m hm <;> obtain hn' | rfl := hcases n hn
    · exact hk.first m hm' n hn' hmop hnop id hmo hno
    · obtain rfl : op = .postAuth := hnop
      obtain ⟨hpaid, hnone, -⟩ := payer_of_paidBy hs (hsafe rfl) hknown hno
      exact absurd hmop (not_returned hs hm' hmo hpaid hnone)
    · exact hs.gateway.numbered n hn'
    · obtain rfl : op = .postAuth := hnop
      obtain hvoid | hcredit := hmop
      · exact nomatch hvoid
      · exact nomatch hcredit

theorem capturesKept_of_reachable {sys : StaysSystem} (h : Reachable env CapturesPaidOrder sys) :
    CapturesKept sys.store := by
  refine run_of_effects (P := CapturesKept) (fun sys a _ => admits_any sys a) (fun s hfresh => ?_)
    (fun sys a c ws held hreach hsafe hpub heffect hk => ?_) h
  · refine ⟨?_, ?_, ?_⟩ <;> simp [hfresh.gateway]
  · have hs := consistent_of_reachable hreach
    obtain hsame | ⟨op, oid, amount, delivered, hknown, rfl⟩ := gateway_effect heffect
    · exact hk.frame hs heffect hsame
    · refine hk.message hs hknown fun hop => ?_
      have hmem := mem_messages.mpr (System.writes_eq hpub ▸ List.mem_singleton_self _)
      exact hsafe _ hmem hop

/-- In a run that captures only the order that paid, and nothing that is to be paid
back, at most one capture of a booking is accepted, and no capture comes after a release
or a refund. -/
theorem captured_once {env : Env} {sys : StaysSystem} (h : Reachable env CapturesPaidOrder sys)
    (bookingId : ℕ) :
    (∀ m ∈ sys.store.gateway.rows, ∀ n ∈ sys.store.gateway.rows, m.op = .postAuth →
      n.op = .postAuth → m.accepted = true → n.accepted = true →
      OrderFor sys.store m.oid bookingId → OrderFor sys.store n.oid bookingId → m = n) ∧
    ∀ m ∈ sys.store.gateway.rows, ∀ n ∈ sys.store.gateway.rows, Returns m.op → n.op = .postAuth →
      OrderFor sys.store m.oid bookingId → OrderFor sys.store n.oid bookingId → n.seq < m.seq := by
  have hkept := capturesKept_of_reachable h
  have hgateway := (consistent_of_reachable h).gateway
  constructor
  · intro m hm n hn hmop hnop hma hna hmo hno
    have hoid := hkept.oneOrder m hm n hn hmop hnop bookingId hmo hno
    exact hgateway.once m hm n hn hmop hnop hma hna hoid
  · intro m hm n hn hmop hnop hmo hno
    exact hkept.first m hm n hn hmop hnop bookingId hmo hno

/-- The order is authorised, the callback arrives, and the capture goes through. -/
theorem captured_once_paid : ∃ sys : StaysSystem,
    (sys.store.gateway.rows.filter fun m => m.op = .postAuth ∧ m.accepted).length = 1 ∧
    ∀ m ∈ sys.store.gateway.rows, ∀ n ∈ sys.store.gateway.rows, m.op = .postAuth →
      n.op = .postAuth → m.accepted = true → n.accepted = true →
      OrderFor sys.store m.oid 9 → OrderFor sys.store n.oid 9 → m = n := by
  obtain ⟨sys, hreach, hsent⟩ := exists_reachable CapturesPaidOrder
    (samplePaying ++ [.authorize "STAYS-9-25"])
    (System.turns 3 0 1 ++ samplePayment)
    (fun sys =>
      (sys.store.gateway.rows.filter fun m => m.op = .postAuth ∧ m.accepted).length = 1)
    (by decide +kernel)
  exact ⟨sys, of_decide_eq_true hsent, (captured_once hreach 9).1⟩

/-- Two requests open an intent each, the guest authorises both orders, and the callback
of the second one is captured as well. -/
theorem captured_twice : ∃ sys : StaysSystem, Reachable sampleEnv (fun _ _ => True) sys ∧
    ∃ m ∈ sys.store.gateway.rows, ∃ n ∈ sys.store.gateway.rows, m ≠ n ∧ m.op = .postAuth ∧
      n.op = .postAuth ∧ m.accepted = true ∧ n.accepted = true ∧
      OrderFor sys.store m.oid 9 ∧ OrderFor sys.store n.oid 9 := by
  obtain ⟨sys, hreach, hsent⟩ := exists_reachable (fun _ _ => True)
    [.createBooking 2 (sampleRequest 1 10 none) true, .createOrGetIntent 9 2 none,
      .createOrGetIntent 9 2 none, .authorize "STAYS-9-25", .authorize "STAYS-9-35",
      .handleCmiCallback (sampleCallback "STAYS-9-25" "210.00"),
      .handleCmiCallback (sampleCallback "STAYS-9-35" "210.00")]
    (System.turns 0 0 13 ++ System.turns 1 20 5 ++ System.turns 2 30 9 ++
      System.turns 1 25 4 ++ System.turns 3 0 1 ++ System.turns 4 0 1 ++ System.turns 5 40 20 ++
      System.turns 6 80 13)
    (fun sys => sys.store.gateway.rows.any fun m => sys.store.gateway.rows.any fun n =>
      m ≠ n ∧ m.op = .postAuth ∧ n.op = .postAuth ∧ m.accepted = true ∧ n.accepted = true ∧
      OrderFor sys.store m.oid 9 ∧ OrderFor sys.store n.oid 9) (by decide +kernel)
  obtain ⟨m, hm, hrest⟩ := List.any_eq_true.mp hsent
  obtain ⟨n, hn, hboth⟩ := List.any_eq_true.mp hrest
  exact ⟨sys, hreach, m, hm, n, hn, of_decide_eq_true hboth⟩

/-- The capture gets lost on its way, the guest cancels, the refund is refused because
nothing was captured, and the callback that the gateway repeats is captured. -/
theorem captured_after_refund : ∃ sys : StaysSystem, Reachable sampleEnv (fun _ _ => True) sys ∧
    ∃ m ∈ sys.store.gateway.rows, ∃ n ∈ sys.store.gateway.rows, m.op = .credit ∧ n.op = .postAuth ∧
      m.seq < n.seq ∧ n.accepted = true ∧
      OrderFor sys.store m.oid 9 ∧ OrderFor sys.store n.oid 9 := by
  obtain ⟨sys, hreach, hsent⟩ := exists_reachable (fun _ _ => True)
    (samplePaying ++ [.cancel 9 2 .guest (21910 * dayMs),
      .handleCmiCallback (sampleCallback "STAYS-9-25" "210.00"), .authorize "STAYS-9-25"])
    (System.turns 0 0 13 ++ System.turns 1 20 9 ++ System.turns 5 0 1 ++
      System.turns 2 40 17 ++ System.turns 2 0 1 ++ System.turns 2 58 2 ++
      System.turns 3 60 16 ++ System.turns 4 80 11)
    (fun sys => sys.store.gateway.rows.any fun m => sys.store.gateway.rows.any fun n =>
      m.op = .credit ∧ n.op = .postAuth ∧ m.seq < n.seq ∧ n.accepted = true ∧
        OrderFor sys.store m.oid 9 ∧ OrderFor sys.store n.oid 9) (by decide +kernel)
  obtain ⟨m, hm, hrest⟩ := List.any_eq_true.mp hsent
  obtain ⟨n, hn, hboth⟩ := List.any_eq_true.mp hrest
  exact ⟨sys, hreach, m, hm, n, hn, of_decide_eq_true hboth⟩

end NexaStays.Captures
