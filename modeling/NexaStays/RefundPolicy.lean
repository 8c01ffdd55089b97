import Mathlib.Algebra.Order.Archimedean.Real.Basic
import NexaStays.Money

/-!
# The refund policies compared

The refund as a function of the hours to check-in: it never exceeds what was paid, a guest
who cancels earlier never gets less, and a more lenient policy never gives less. The hours
are taken from any ordered field, so that the thresholds are compared with real numbers too.
-/
namespace NexaStays.RefundPolicy

open NexaStays.Money

variable {K : Type*} [Field K] [LinearOrder K]

/-- `calculateRefund`, for hours of any ordered field. -/
def refundAt (policy : CancellationPolicy) (hoursToCheckin : K) (subtotal guestFee : ℤ) : ℤ :=
  let totalPaid := subtotal + guestFee
  match policy with
  | .flexible =>
    if 24 ≤ hoursToCheckin then totalPaid
    else max 0 (mathRound (10 * totalPaid - max subtotal 0) 10)
  | .moderate =>
    if 5 * 24 ≤ hoursToCheckin then totalPaid
    else if 24 ≤ hoursToCheckin then mathRound totalPaid 2
    else 0
  | .strict => if 7 * 24 ≤ hoursToCheckin then mathRound totalPaid 2 else 0

/-- The embedding of the rational hours keeps the refund. -/
theorem refundAt_cast [IsStrictOrderedRing K] (policy : CancellationPolicy) (hours : ℚ)
    (subtotal guestFee : ℤ) :
    refundAt policy (hours : K) subtotal guestFee = calculateRefund policy hours subtotal guestFee := by
  have h24 : (24 : K) ≤ hours ↔ 24 ≤ hours := by exact_mod_cast Iff.rfl
  have h120 : (5 * 24 : K) ≤ hours ↔ 5 * 24 ≤ hours := by exact_mod_cast Iff.rfl
  have h168 : (7 * 24 : K) ≤ hours ↔ 7 * 24 ≤ hours := by exact_mod_cast Iff.rfl
  cases policy <;> simp only [refundAt, calculateRefund, h24, h120, h168]

/-- The penalty of a late cancellation leaves at least nine tenths of the subtotal. -/
theorem late_flexible_bounds {subtotal guestFee : ℤ} (hsubtotal : 0 ≤ subtotal)
    (hfee : 0 ≤ guestFee) :
    0 ≤ mathRound (10 * (subtotal + guestFee) - max subtotal 0) 10 ∧
      mathRound (10 * (subtotal + guestFee) - max subtotal 0) 10 ≤ subtotal + guestFee := by
  rw [max_eq_left hsubtotal, mathRound]
  constructor <;> omega

theorem half_bounds {total : ℤ} (htotal : 0 ≤ total) :
    0 ≤ mathRound total 2 ∧ mathRound total 2 ≤ total := by
  rw [mathRound_half]
  constructor <;> omega

theorem refundAt_bounds (policy : CancellationPolicy) (hours : K) {subtotal guestFee : ℤ}
    (hsubtotal : 0 ≤ subtotal) (hfee : 0 ≤ guestFee) :
    0 ≤ refundAt policy hours subtotal guestFee ∧
      refundAt policy hours subtotal guestFee ≤ subtotal + guestFee := by
  have hlate := late_flexible_bounds hsubtotal hfee
  have hhalf := half_bounds (add_nonneg hsubtotal hfee)
  have htotal := add_nonneg hsubtotal hfee
  cases policy with
  | flexible =>
    simp only [refundAt]
    split_ifs
    · exact ⟨htotal, le_rfl⟩
    · exact ⟨le_max_left _ _, max_le htotal hlate.2⟩
  | moderate =>
    simp only [refundAt]
    split_ifs
    · exact ⟨htotal, le_rfl⟩
    · exact hhalf
    · exact ⟨le_rfl, htotal⟩
  | strict =>
    simp only [refundAt]
    split_ifs
    · exact hhalf
    · exact ⟨le_rfl, htotal⟩

omit [Field K] in
/-- A choice at a threshold grows with the hours if the late branch gives no more. -/
theorem threshold_mono {threshold hours later : K} (hhours : hours ≤ later) {early late early' : ℤ}
    (hlate : late ≤ early) (hearly : early = early') {late' : ℤ} (hlate' : late ≤ late') :
    (if threshold ≤ hours then early else late) ≤ if threshold ≤ later then early' else late' := by
  subst hearly
  split_ifs with h h'
  · exact le_rfl
  · exact absurd (h.trans hhours) h'
  · exact hlate
  · exact hlate'

theorem refundAt_mono (policy : CancellationPolicy) {hours later : K} (hhours : hours ≤ later)
    {subtotal guestFee : ℤ} (hsubtotal : 0 ≤ subtotal) (hfee : 0 ≤ guestFee) :
    refundAt policy hours subtotal guestFee ≤ refundAt policy later subtotal guestFee := by
  have hlate := late_flexible_bounds hsubtotal hfee
  have hhalf := half_bounds (add_nonneg hsubtotal hfee)
  have htotal := add_nonneg hsubtotal hfee
  cases policy with
  | flexible => exact threshold_mono hhours (max_le htotal hlate.2) rfl le_rfl
  | moderate =>
    refine threshold_mono hhours ?_ rfl (threshold_mono hhours hhalf.1 rfl le_rfl)
    split_ifs
    · exact hhalf.2
    · exact htotal
  | strict => exact threshold_mono hhours hhalf.1 rfl le_rfl

theorem moderate_le_flexible [IsStrictOrderedRing K] (hours : K) {subtotal guestFee : ℤ}
    (hsubtotal : 0 ≤ subtotal) (hfee : 0 ≤ guestFee) :
    refundAt .moderate hours subtotal guestFee ≤ refundAt .flexible hours subtotal guestFee := by
  by_cases h24 : 24 ≤ hours
  · have hfull : refundAt .flexible hours subtotal guestFee = subtotal + guestFee := if_pos h24
    rw [hfull]
    exact (refundAt_bounds .moderate hours hsubtotal hfee).2
  · have h120 : ¬ 5 * 24 ≤ hours := by
      rw [not_le] at h24 ⊢
      linarith
    have hnone : refundAt .moderate hours subtotal guestFee = 0 := by
      rw [refundAt, if_neg h120, if_neg h24]
    rw [hnone]
    exact (refundAt_bounds .flexible hours hsubtotal hfee).1

theorem strict_le_moderate [IsStrictOrderedRing K] (hours : K) {subtotal guestFee : ℤ}
    (hsubtotal : 0 ≤ subtotal) (hfee : 0 ≤ guestFee) :
    refundAt .strict hours subtotal guestFee ≤ refundAt .moderate hours subtotal guestFee := by
  by_cases h168 : 7 * 24 ≤ hours
  · have h120 : 5 * 24 ≤ hours := by linarith
    have hfull : refundAt .moderate hours subtotal guestFee = subtotal + guestFee := if_pos h120
    rw [hfull]
    exact (refundAt_bounds .strict hours hsubtotal hfee).2
  · have hnone : refundAt .strict hours subtotal guestFee = 0 := if_neg h168
    rw [hnone]
    exact (refundAt_bounds .moderate hours hsubtotal hfee).1

/-- The law of the refunds, at all real hours; at rational ones it is about `calculateRefund`. -/
theorem refund_law {subtotal guestFee : ℤ} (hsubtotal : 0 ≤ subtotal) (hfee : 0 ≤ guestFee) :
    (∀ policy (hours : ℚ), calculateRefund policy hours subtotal guestFee =
      refundAt policy (hours : ℝ) subtotal guestFee) ∧
    (∀ policy (hours : ℝ), 0 ≤ refundAt policy hours subtotal guestFee ∧
      refundAt policy hours subtotal guestFee ≤ subtotal + guestFee) ∧
    (∀ policy (hours later : ℝ), hours ≤ later →
      refundAt policy hours subtotal guestFee ≤ refundAt policy later subtotal guestFee) ∧
    ∀ hours : ℝ,
      refundAt .strict hours subtotal guestFee ≤ refundAt .moderate hours subtotal guestFee ∧
      refundAt .moderate hours subtotal guestFee ≤ refundAt .flexible hours subtotal guestFee := by
  refine ⟨fun policy hours => ?_, fun policy hours => ?_, fun policy hours later hhours => ?_,
    fun hours => ?_⟩
  · exact (refundAt_cast policy hours subtotal guestFee).symm
  · exact refundAt_bounds policy hours hsubtotal hfee
  · exact refundAt_mono policy hhours hsubtotal hfee
  · exact ⟨strict_le_moderate hours hsubtotal hfee, moderate_le_flexible hours hsubtotal hfee⟩

/-- 99.99 and a fee of 5.00, a day and a half before. -/
theorem refund_law_sample :
    refundAt .strict (36 : ℝ) 9999 500 ≤ refundAt .moderate (36 : ℝ) 9999 500 ∧
      refundAt .moderate (36 : ℝ) 9999 500 ≤ refundAt .flexible (36 : ℝ) 9999 500 :=
  (refund_law (by decide) (by decide)).2.2.2 36

end NexaStays.RefundPolicy
