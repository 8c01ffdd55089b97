import NexaStays.CancelledLedger
import NexaStays.GatewayTexts
import NexaStays.GroupedSums
import Mathlib.Algebra.Order.BigOperators.Group.List

/-!
# The books

The tables of the service are books: a stay, an order and an entry of the ledger are never
rewritten, and the traffic with the gateway is only added to. Over the whole ledger the payments
are the fees and the payouts, and the refunds never exceed them; every request to the gateway has
its reason in the books, for good.
-/
namespace NexaStays.Journal

open NexaStays.KeyedTable NexaStays.Transactions NexaStays.Database NexaStays.Payments
  NexaStays.Cancellation NexaStays.Calls NexaStays.Effects NexaStays.Persistence
  NexaStays.Invariant NexaStays.CancelledLedger NexaStays.GatewayTexts NexaStays.GroupedSums
  NexaStays.Conformance

/-- Later books say what the earlier ones said. Of a stay the status may move, of an order the
status and the notes, and a refund may be settled. -/
structure Continues (s s' : Store) : Prop where
  stays : ∀ id b, s.bookings.find? id = some b →
    ∃ b', s'.bookings.find? id = some b' ∧ SameStay b b'
  entries : ∀ e ∈ s.ledger.rows, e ∈ s'.ledger.rows ∨
    e.type = .refund ∧ { e with status := .settled } ∈ s'.ledger.rows
  orders : ∀ i ∈ s.intents.rows, ∃ i' ∈ s'.intents.rows, SameOrder i i' ∧
    (i.status = .succeeded → i'.status = .succeeded)
  traffic : s.gateway.rows <+: s'.gateway.rows

theorem Continues.refl (s : Store) : Continues s s where
  stays _ b hb := ⟨b, hb, .refl b⟩
  entries _ he := Or.inl he
  orders i hi := ⟨i, hi, .refl i, id⟩
  traffic := List.prefix_refl _

theorem Continues.trans {s t u : Store} (h : Continues s t) (h' : Continues t u) :
    Continues s u where
  stays id b hb := by
    obtain ⟨b', hb', hsame⟩ := h.stays id b hb
    obtain ⟨b'', hb'', hsame'⟩ := h'.stays id b' hb'
    exact ⟨b'', hb'', hsame.trans hsame'⟩
  entries e he := by
    obtain hmem | ⟨htype, hmem⟩ := h.entries e he
    · exact h'.entries e hmem
    · obtain hmem' | ⟨-, hmem'⟩ := h'.entries _ hmem
      · exact Or.inr ⟨htype, hmem'⟩
      · exact Or.inr ⟨htype, hmem'⟩
  orders i hi := by
    obtain ⟨j, hj, hsame, hkept⟩ := h.orders i hi
    obtain ⟨k, hk, hsame', hkept'⟩ := h'.orders j hj
    exact ⟨k, hk, hsame.trans hsame', fun hs => hkept' (hkept hs)⟩
  traffic := h.traffic.trans h'.traffic

variable {env : Env} {strict : Prop} {c : Call} {held : List Key} {s : Store} {ws : List Write}

theorem continues_effect (hs : Consistent s) (h : Effect env strict c held s ws) :
    Continues s (publish s ws) where
  stays _ _ hb := sameStay_persists h hb
  entries _ he := entry_persists h he
  orders _ hi := intent_persists h hi
  traffic := by
    obtain hsame | ⟨op, oid, amount, delivered, -, rfl⟩ := gateway_effect h
    · simp only [hsame, List.prefix_refl]
    · rw [gateway_publish_message]
      exact ⟨_, (rows_put_message hs.gateway op oid amount delivered).symm⟩

variable {ok : StaysSystem → Action → Prop} {sys sys' : StaysSystem} {a : Action}

theorem continues_step (h : Reachable env ok sys) (hstep : sys.step a = some sys') :
    Continues sys.store sys'.store := by
  obtain ⟨c, ws, hpub, hstore⟩ := publishes_of_step hstep
  rw [hstore]
  obtain rfl | ⟨held, heffect⟩ := effect_of_any h hpub
  · exact .refl _
  · exact continues_effect (consistent_of_reachable h) heffect

/-- From any reachable state, no run of the service rewrites the books. -/
theorem books_continue {env : Env} {sys sys' : StaysSystem}
    (h : Reachable env (fun _ _ => True) sys) (hrun : System.Run (fun _ _ => True) sys sys') :
    Continues sys.store sys'.store := by
  induction hrun with
  | refl => exact .refl _
  | tail run _ step ih => exact ih.trans (continues_step (h.trans run) step)

/-- The payment of a stay is still in the books after its cancellation, with the refund next to
it. -/
theorem books_continue_cancelled : ∃ sys sys' : StaysSystem,
    sys.store.ledger.rows.length = 3 ∧ sys'.store.ledger.rows.length = 4 ∧
    Continues sys.store sys'.store := by
  obtain ⟨sys, sys', hreach, hrun, hpaid, hrefunded⟩ := exists_reachable_run (fun _ _ => True)
    (fun _ _ => True) (samplePaying ++ [.cancel 9 2 .guest (21910 * dayMs)])
    samplePayment (System.turns 3 60 16)
    (fun sys => sys.store.ledger.rows.length = 3) (fun sys => sys.store.ledger.rows.length = 4)
    (by decide +kernel)
  exact ⟨sys, sys', of_decide_eq_true hpaid, of_decide_eq_true hrefunded,
    books_continue hreach hrun⟩

/-- The entries of one kind, all stays together. -/
def total (s : Store) (type : EntryType) : ℤ :=
  ((s.ledger.rows.filter fun e => e.type = type).map (·.amount)).sum

/-- The totals are those of the stays, added up. -/
theorem sum_amountOf (h : LedgersKept s) (type : EntryType) :
    ((s.bookings.rows.map (·.id)).map fun id => amountOf s id type).sum = total s type := by
  have hkeys : ∀ e ∈ s.ledger.rows.filter fun e => e.type = type,
      ∃ id ∈ s.bookings.rows.map (·.id), some e.bookingId = some id := by
    intro e he
    obtain ⟨b, hb⟩ := h.owned e (List.mem_of_mem_filter he)
    exact ⟨b.id, List.mem_map_of_mem (Table.mem_of_find? hb), by rw [Table.key_of_find? hb]⟩
  have hsum := sum_by_key (fun e : StaysLedgerEntry => some e.bookingId) (fun e => e.amount)
    s.bookings.nodup hkeys
  rw [total, ← hsum]
  refine congrArg List.sum (List.map_congr_left fun id _ => ?_)
  simp only [amountOf, ledgerOf, List.filter_filter, Option.some.injEq]
  simp only [Bool.and_comm]

/-- One stay. -/
theorem amounts_of_form {b : StaysBooking} (h : BookingLedger b (ledgerOf s b.id))
    (hpos : ledgerOf s b.id ≠ [] → 0 < b.totalSubtotal + b.guestFee) :
    amountOf s b.id .guestPayment = amountOf s b.id .platformFee + amountOf s b.id .hostPayout ∧
      amountOf s b.id .refund ≤ amountOf s b.id .guestPayment := by
  unfold amountOf
  generalize ledgerOf s b.id = l at h hpos
  cases h with
  | unpaid => simp
  | @paid gp pf hp _ rows =>
    obtain ⟨hgp, -, hgpa⟩ := rows.guestPayment
    obtain ⟨hpf, hpfa⟩ := rows.platformFee
    obtain ⟨hhp, -, hhpa⟩ := rows.hostPayout
    have hpaid := hpos (List.cons_ne_nil _ _)
    simp only [List.filter_cons, List.filter_nil, hgp, hpf, hhp, reduceCtorEq, decide_true,
      decide_false, if_true, if_false, Bool.false_eq_true, List.map_cons, List.map_nil,
      List.sum_cons, List.sum_nil]
    omega
  | @refunded gp pf hp rf _ rows refund =>
    obtain ⟨hgp, -, hgpa⟩ := rows.guestPayment
    obtain ⟨hpf, hpfa⟩ := rows.platformFee
    obtain ⟨hhp, -, hhpa⟩ := rows.hostPayout
    have hbound := refund.bounded
    simp only [List.filter_cons, List.filter_nil, hgp, hpf, hhp, refund.type, reduceCtorEq,
      decide_true, decide_false, if_true, if_false, Bool.false_eq_true, List.map_cons,
      List.map_nil, List.sum_cons, List.sum_nil]
    omega

/-- In every reachable state the payments of the ledger are its fees and its payouts, and the
refunds do not exceed them. -/
theorem books_balance {env : Env} {sys : StaysSystem} (h : Reachable env (fun _ _ => True) sys) :
    total sys.store .guestPayment = total sys.store .platformFee + total sys.store .hostPayout ∧
      total sys.store .refund ≤ total sys.store .guestPayment := by
  have hs := consistent_of_reachable h
  have hledgers := hs.ledgers
  have hstay : ∀ id ∈ sys.store.bookings.rows.map (·.id),
      amountOf sys.store id .guestPayment =
          amountOf sys.store id .platformFee + amountOf sys.store id .hostPayout ∧
        amountOf sys.store id .refund ≤ amountOf sys.store id .guestPayment := by
    intro id hid
    obtain ⟨b, hb, rfl⟩ := List.mem_map.mp hid
    refine amounts_of_form (hledgers.form b hb) fun hpaid => ?_
    exact hs.intents.total_pos hs.bookings (Table.find?_key hb) ((hledgers.paid_iff hb).mpr hpaid)
  simp only [← sum_amountOf hledgers]
  constructor
  · rw [← List.sum_map_add]
    exact congrArg List.sum (List.map_congr_left fun id hid => (hstay id hid).1)
  · exact List.sum_le_sum fun id hid => (hstay id hid).2

/-- A payment and its refund. -/
theorem books_balance_refunded : ∃ sys : StaysSystem, total sys.store .refund = 21000 ∧
    total sys.store .guestPayment = total sys.store .platformFee + total sys.store .hostPayout ∧
      total sys.store .refund ≤ total sys.store .guestPayment := by
  obtain ⟨sys, hreach, htotal⟩ := exists_reachable (fun _ _ => True)
    (samplePaying ++ [.cancel 9 2 .guest (21910 * dayMs)])
    (samplePayment ++ System.turns 3 60 16)
    (fun sys => total sys.store .refund = 21000) (by decide +kernel)
  exact ⟨sys, of_decide_eq_true htotal, books_balance hreach⟩

/-- A request that has its reason in the books belongs to a stay with an entry there, unless it
is a release. -/
theorem ledger_of_known (hs : Consistent s) {oid : String} {op : CmiOp} {id : ℕ}
    (hknown : MessageKnown s oid op) (hop : op = .postAuth ∨ op = .credit)
    (horder : OrderFor s oid id) : ledgerOf s id ≠ [] := by
  obtain rfl | rfl := hop
  · obtain ⟨id', horder', hpaid⟩ := hknown
    obtain rfl := orderFor_unique hs.intents horder' horder
    obtain ⟨e, he, hid, -⟩ := paid_iff.mp hpaid
    exact List.ne_nil_of_mem (List.mem_filter.mpr ⟨he, decide_eq_true hid⟩)
  · obtain ⟨id', horder', hrefund⟩ := hknown
    obtain rfl := orderFor_unique hs.intents horder' horder
    obtain ⟨e, he, hid, -⟩ := refunded_iff.mp hrefund
    exact List.ne_nil_of_mem (List.mem_filter.mpr ⟨he, decide_eq_true hid⟩)

theorem ledger_of_release (hs : Consistent s) {oid : String} {id : ℕ}
    (hknown : MessageKnown s oid .void) (horder : OrderFor s oid id) : ledgerOf s id = [] := by
  obtain ⟨id', horder', hclosed, -⟩ := hknown
  obtain rfl := orderFor_unique hs.intents horder' horder
  exact hclosed

/-- In every reachable state a capture was asked for a stay that is paid, a release for one that
was closed unpaid, a refund for one whose refund is in the books; of a stay whose money was
released nothing was captured or refunded, and an order is captured once. -/
theorem requests_have_reasons {env : Env} {sys : StaysSystem}
    (h : Reachable env (fun _ _ => True) sys) :
    (∀ m ∈ sys.store.gateway.rows, MessageKnown sys.store m.oid m.op) ∧
    (∀ m ∈ sys.store.gateway.rows, ∀ n ∈ sys.store.gateway.rows, ∀ id,
      OrderFor sys.store m.oid id → OrderFor sys.store n.oid id → m.op = .void →
      n.op ≠ .postAuth ∧ n.op ≠ .credit) ∧
    ∀ m ∈ sys.store.gateway.rows, ∀ n ∈ sys.store.gateway.rows, m.op = .postAuth →
      n.op = .postAuth → m.accepted = true → n.accepted = true → m.oid = n.oid → m = n := by
  have hs := consistent_of_reachable h
  refine ⟨hs.gateway.known, fun m hm n hn id hmo hno hvoid => ?_, hs.gateway.once⟩
  have hreleased := hs.gateway.known m hm
  rw [hvoid] at hreleased
  have hnone := ledger_of_release hs hreleased hmo
  have hsome := fun hop => ledger_of_known hs (hs.gateway.known n hn) hop hno
  exact ⟨fun hop => hsome (Or.inl hop) hnone, fun hop => hsome (Or.inr hop) hnone⟩

/-- The guest authorises the order, and the payment captures it. -/
theorem requests_have_reasons_captured : ∃ sys : StaysSystem,
    (∃ m ∈ sys.store.gateway.rows, m.op = .postAuth ∧ m.accepted = true) ∧
    ∀ m ∈ sys.store.gateway.rows, MessageKnown sys.store m.oid m.op := by
  obtain ⟨sys, hreach, hsent⟩ := exists_reachable (fun _ _ => True)
    (samplePaying ++ [.authorize "STAYS-9-25"]) (System.turns 3 0 1 ++ samplePayment)
    (fun sys => ∃ m ∈ sys.store.gateway.rows, m.op = .postAuth ∧ m.accepted = true)
    (by decide +kernel)
  exact ⟨sys, of_decide_eq_true hsent, (requests_have_reasons hreach).1⟩

end NexaStays.Journal
