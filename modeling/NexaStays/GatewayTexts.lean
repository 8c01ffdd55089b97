import NexaStays.DelimitedText
import NexaStays.Invariant

/-!
# What the texts of the gateway tell

The order id names its booking, and the signed text of a callback names its fields,
whatever the store key contains.
-/
namespace NexaStays.GatewayTexts

open NexaStays.DelimitedText NexaStays.Database NexaStays.Payments NexaStays.Effects
  NexaStays.Invariant

/-- The fields of a callback that the gateway signs. -/
structure SignedCallback where
  oid : String
  procReturnCode : String
  amount : String
  deriving DecidableEq, Repr

namespace SignedCallback

/-- Without the delimiter in a field. -/
structure Plain (cb : SignedCallback) : Prop where
  oid : '|' ∉ cb.oid.toList
  procReturnCode : '|' ∉ cb.procReturnCode.toList
  amount : '|' ∉ cb.amount.toList

def text (cb : SignedCallback) (storeKey : String) : String :=
  callbackText cb.oid storeKey cb.procReturnCode cb.amount

end SignedCallback

theorem toList_callbackText (oid storeKey code amount : String) :
    (callbackText oid storeKey code amount).toList = oid.toList ++ '|' ::
      (storeKey.toList ++ '|' :: (code.toList ++ '|' :: amount.toList)) := by
  simp [callbackText]

/-- A text that was signed has the fields it was signed with. -/
theorem callbackText_inj {cb : SignedCallback} (hplain : cb.Plain)
    {oid storeKey code amount : String} (h : callbackText oid storeKey code amount = cb.text storeKey) :
    oid = cb.oid ∧ code = cb.procReturnCode ∧ amount = cb.amount := by
  have hlist := congrArg String.toList h
  rw [SignedCallback.text, toList_callbackText, toList_callbackText] at hlist
  obtain ⟨hoid, hcode, hamount⟩ :=
    around_inj hplain.oid hplain.procReturnCode hplain.amount hlist
  exact ⟨String.toList_inj.mp hoid, String.toList_inj.mp hcode, String.toList_inj.mp hamount⟩

theorem toList_orderId (bookingId now : ℕ) : (orderId bookingId now).toList =
    "STAYS-".toList ++ ((Nat.repr bookingId).toList ++ '-' :: (Nat.repr now).toList) := by
  simp [orderId, toString]

/-- The order of one booking is not the order of another. -/
theorem orderId_inj {a b m n : ℕ} (h : orderId a m = orderId b n) : a = b := by
  have hlist := congrArg String.toList h
  rw [toList_orderId, toList_orderId] at hlist
  have hnumbers := List.append_cancel_left hlist
  obtain ⟨hid, -⟩ := append_cons_inj (notMem_repr (by decide) a) (notMem_repr (by decide) b) hnumbers
  exact repr_inj hid

/-- So an order at the gateway is of one booking. -/
theorem orderFor_unique {s : Store} (h : IntentsKept s) {oid : String} {a b : ℕ}
    (ha : OrderFor s oid a) (hb : OrderFor s oid b) : a = b := by
  obtain ⟨i, hi, rfl⟩ := ha
  obtain ⟨j, hj, rfl⟩ := hb
  obtain ⟨hmem, hof⟩ := List.mem_filter.mp hi
  obtain ⟨hmem', hof'⟩ := List.mem_filter.mp hj
  obtain ⟨hcmi, hoid⟩ := of_decide_eq_true hof
  obtain ⟨hcmi', hoid'⟩ := of_decide_eq_true hof'
  obtain ⟨m, horder⟩ := h.order i hmem hcmi
  obtain ⟨n, horder'⟩ := h.order j hmem' hcmi'
  have hsame : some (orderId i.bookingId m) = some (orderId j.bookingId n) := by
    rw [← horder, ← horder', hoid, hoid']
  exact orderId_inj (Option.some.inj hsame)

end NexaStays.GatewayTexts
