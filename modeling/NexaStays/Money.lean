import Mathlib.Data.Rat.Floor
import Mathlib.Tactic.Linarith

/-!
# Amounts, fees and refunds

Amounts are whole cents, the `decimal(18,2)` of the tables; fee rates are in
ten-thousandths, the `decimal(6,4)` of the platform settings. The arithmetic of the
source on these values is exact up to `Math.round`, which rounds half up.
-/
namespace NexaStays.Money

/-- `Math.round (n / d)`, half up. -/
def mathRound (n : ℤ) (d : ℕ) : ℤ := (2 * n + d) / (2 * d)

theorem mathRound_half (n : ℤ) : mathRound n 2 = (n + 1) / 2 := by
  unfold mathRound
  omega

/-- `n` and `Math.round (n / d)` differ by at most one half. -/
theorem mathRound_spec (n : ℤ) {d : ℕ} (hd : 0 < d) :
    d * (2 * mathRound n d - 1) ≤ 2 * n ∧ 2 * n < d * (2 * mathRound n d + 1) := by
  have hpos : (0 : ℤ) < 2 * d := by omega
  have hlo := Int.mul_ediv_self_le (x := 2 * n + d) (k := 2 * d) (by omega)
  have hhi := Int.lt_mul_ediv_self_add (x := 2 * n + d) (k := 2 * d) hpos
  constructor <;> unfold mathRound <;> linarith

/-- Guest and host fee rates, in ten-thousandths. -/
structure FeeRates where
  guestFeePct : ℤ
  hostFeePct : ℤ
  deriving DecidableEq, Repr

structure FeeBreakdown where
  guestFee : ℤ
  hostFee : ℤ
  totalPaid : ℤ
  payoutAmount : ℤ
  deriving DecidableEq, Repr

def feesFromRates (subtotal : ℤ) (rates : FeeRates) : FeeBreakdown :=
  let guestFee := mathRound (subtotal * rates.guestFeePct) 10000
  let hostFee := mathRound (subtotal * rates.hostFeePct) 10000
  { guestFee, hostFee, totalPaid := subtotal + guestFee, payoutAmount := subtotal - hostFee }

/-- The guest's money splits exactly into the payout and the two fees. -/
theorem totalPaid_feesFromRates (subtotal : ℤ) (rates : FeeRates) :
    (feesFromRates subtotal rates).totalPaid =
      (feesFromRates subtotal rates).payoutAmount +
        ((feesFromRates subtotal rates).guestFee + (feesFromRates subtotal rates).hostFee) := by
  simp only [feesFromRates]
  ring

/-- `assertPositiveMoney` then `roundMoney`, which is the identity on cents. -/
def lockIntentAmount (bookingTotalPaid : ℤ) : Option ℤ :=
  if 0 < bookingTotalPaid then some bookingTotalPaid else none

theorem lockIntentAmount_eq_some {total amount : ℤ} :
    lockIntentAmount total = some amount ↔ 0 < total ∧ amount = total := by
  unfold lockIntentAmount
  split_ifs with h <;> simp [h, eq_comm]

/-- The amounts `checkConfirmationLedgerInvariant` looks at. -/
structure ConfirmationAmounts where
  guestPayment : ℤ
  platformFee : ℤ
  hostPayout : ℤ
  guestFee : ℤ
  hostFee : ℤ
  deriving DecidableEq, Repr

/-- Two cents. -/
def eps : ℤ := 2

def checkConfirmationLedgerInvariant (input : ConfirmationAmounts) : Except String Unit :=
  if eps < |input.guestFee + input.hostFee - input.platformFee| then
    .error "PLATFORM_FEE_MUST_EQUAL_GUEST_FEE_PLUS_HOST_FEE"
  else if eps < |input.guestPayment - (input.hostPayout + input.platformFee)| then
    .error "GUEST_PAYMENT_MUST_EQUAL_HOST_PAYOUT_PLUS_PLATFORM_FEE"
  else .ok ()

inductive CancellationPolicy where
  | flexible
  | moderate
  | strict
  deriving DecidableEq, Repr

def calculateRefund (policy : CancellationPolicy) (hoursToCheckin : ℚ)
    (subtotal guestFee : ℤ) : ℤ :=
  let totalPaid := subtotal + guestFee
  match policy with
  | .flexible =>
    if 24 ≤ hoursToCheckin then totalPaid
    -- the penalty is a tenth of the subtotal, so the total less the penalty is in tenths of a cent
    else max 0 (mathRound (10 * totalPaid - max subtotal 0) 10)
  | .moderate =>
    if 5 * 24 ≤ hoursToCheckin then totalPaid
    else if 24 ≤ hoursToCheckin then mathRound totalPaid 2
    else 0
  | .strict => if 7 * 24 ≤ hoursToCheckin then mathRound totalPaid 2 else 0

theorem calculateRefund_le (policy : CancellationPolicy) (hours : ℚ) {subtotal guestFee : ℤ}
    (htotal : 0 < subtotal + guestFee) :
    calculateRefund policy hours subtotal guestFee ≤ subtotal + guestFee := by
  cases policy <;> simp only [calculateRefund, mathRound_half]
  case flexible =>
    split_ifs
    · exact le_refl _
    · refine max_le htotal.le ?_
      unfold mathRound
      omega
  case moderate => split_ifs <;> omega
  case strict => split_ifs <;> omega

/-- The guest gets nothing back: too late under a policy with a last moment. -/
def isLate (policy : CancellationPolicy) (hoursToCheckin : ℚ) : Prop :=
  match policy with
  | .flexible => False
  | .moderate => hoursToCheckin < 24
  | .strict => hoursToCheckin < 7 * 24

instance (hoursToCheckin : ℚ) : ∀ policy, Decidable (isLate policy hoursToCheckin)
  | .flexible => inferInstanceAs (Decidable False)
  | .moderate => inferInstanceAs (Decidable (hoursToCheckin < 24))
  | .strict => inferInstanceAs (Decidable (hoursToCheckin < 7 * 24))

theorem calculateRefund_of_late {policy : CancellationPolicy} {hours : ℚ} (h : isLate policy hours)
    (subtotal guestFee : ℤ) : calculateRefund policy hours subtotal guestFee = 0 := by
  cases policy with
  | flexible => exact h.elim
  | moderate =>
    have hlate : hours < 24 := h
    rw [calculateRefund, if_neg (by linarith), if_neg (by linarith)]
  | strict =>
    have hlate : hours < 7 * 24 := h
    rw [calculateRefund, if_neg (by linarith)]

/-- Only a late cancellation of a paid booking refunds nothing. -/
theorem calculateRefund_pos_iff (policy : CancellationPolicy) (hours : ℚ)
    {subtotal guestFee : ℤ} (hfee : 0 ≤ guestFee) (htotal : 0 < subtotal + guestFee) :
    0 < calculateRefund policy hours subtotal guestFee ↔ ¬ isLate policy hours := by
  cases policy <;> simp only [calculateRefund, mathRound_half, isLate]
  case flexible =>
    simp only [not_false_eq_true, iff_true]
    split_ifs
    · exact htotal
    · refine lt_max_of_lt_right ?_
      unfold mathRound
      omega
  case moderate =>
    split_ifs with h120 h24
    · simp only [htotal, true_iff, not_lt]
      linarith
    · simp only [not_lt.mpr h24, not_false_eq_true, iff_true]
      omega
    · simp [not_le.mp h24]
  case strict =>
    split_ifs with h
    · simp only [not_lt.mpr h, not_false_eq_true, iff_true]
      omega
    · simp [not_le.mp h]

end NexaStays.Money
