import Mathlib.Algebra.Order.Floor.Ring
import Mathlib.Data.Int.ConditionallyCompleteOrder
import Mathlib.Data.Rat.Floor

/-!
# Numbers of the language

Amounts are read from decimal columns with two digits, added up as doubles and rounded with
`Math.round`. The operations are those of any arithmetic: the doubles, or the rational numbers,
where nothing is lost.
-/
namespace NexaStays.JsNumbers

/-- `Math.round`, half up. -/
def mathRound (x : ℚ) : ℤ := ⌊x + 1 / 2⌋

theorem mathRound_intCast (n : ℤ) : mathRound n = n := by
  rw [mathRound, Int.floor_intCast_add]
  norm_num

/-- The numbers of a report. -/
class JsNumber (R : Type) where
  zero : Zero R
  add : Add R
  sub : Sub R
  mul : Mul R
  div : Div R
  max : Max R
  /-- `Number(text)`, of a decimal with so many hundredths. -/
  ofHundredths : ℤ → R
  round : R → R

section Operations

-- the rational numbers and the doubles keep the operations that they have
variable {R : Type} [JsNumber R]

instance (priority := low) JsNumber.toZero : Zero R := JsNumber.zero

instance (priority := low) JsNumber.toAdd : Add R := JsNumber.add

instance (priority := low) JsNumber.toSub : Sub R := JsNumber.sub

instance (priority := low) JsNumber.toMul : Mul R := JsNumber.mul

instance (priority := low) JsNumber.toDiv : Div R := JsNumber.div

instance (priority := low) JsNumber.toMax : Max R := JsNumber.max

end Operations

/-- The literal `100`. -/
def hundred {R : Type} [JsNumber R] : R := JsNumber.ofHundredths 10000

/-- Exact arithmetic. -/
instance : JsNumber ℚ where
  zero := inferInstance
  add := inferInstance
  sub := inferInstance
  mul := inferInstance
  div := inferInstance
  max := inferInstance
  ofHundredths n := n / 100
  round x := mathRound x

/-- The decimal nearest to a number of hundredths. -/
def floatOfHundredths (n : ℤ) : Float :=
  if 0 ≤ n then Float.ofScientific n.natAbs true 2 else -Float.ofScientific n.natAbs true 2

/-- `Math.round` of a double: of `m * 2 ^ e`, with the sign of a zero. -/
def floatRound (x : Float) : Float :=
  match x.toModel.unpack with
  | .finite sign m e _ =>
    let whole (n : ℤ) : ℤ :=
      if 0 ≤ e then n * (Nat.shiftLeft 1 e.toNat : ℕ)
      else Int.shiftRight (2 * n + (Nat.shiftLeft 1 (-e).toNat : ℕ)) ((-e).toNat + 1)
    match sign with
    | .positive => Float.ofInt (whole m)
    | .negative => -Float.ofInt (-whole (-m))
  | _ => x

instance : JsNumber Float where
  zero := ⟨0⟩
  add := inferInstance
  sub := inferInstance
  mul := inferInstance
  div := inferInstance
  max := ⟨fun x y => if x ≤ y then y else x⟩
  ofHundredths := floatOfHundredths
  round := floatRound

/-- A whole number of hundredths. -/
def IsHundredths (x : ℚ) : Prop := ∃ n : ℤ, x = n / 100

theorem isHundredths_ofHundredths (n : ℤ) : IsHundredths (JsNumber.ofHundredths n) := ⟨n, rfl⟩

theorem isHundredths_zero : IsHundredths 0 := ⟨0, by norm_num⟩

theorem IsHundredths.add {x y : ℚ} (hx : IsHundredths x) (hy : IsHundredths y) :
    IsHundredths (x + y) := by
  obtain ⟨m, rfl⟩ := hx
  obtain ⟨n, rfl⟩ := hy
  exact ⟨m + n, by push_cast; ring⟩

theorem IsHundredths.sub {x y : ℚ} (hx : IsHundredths x) (hy : IsHundredths y) :
    IsHundredths (x - y) := by
  obtain ⟨m, rfl⟩ := hx
  obtain ⟨n, rfl⟩ := hy
  exact ⟨m - n, by push_cast; ring⟩

theorem IsHundredths.max {x y : ℚ} (hx : IsHundredths x) (hy : IsHundredths y) :
    IsHundredths (max x y) := by
  rcases max_choice x y with h | h
  · rwa [h]
  · rwa [h]

/-- Exact hundredths are not rounded. -/
theorem IsHundredths.round_eq {x : ℚ} (h : IsHundredths x) :
    JsNumber.round (x * hundred) / hundred = x := by
  obtain ⟨n, rfl⟩ := h
  have hscaled : (n / 100 : ℚ) * hundred = n := by
    show (n / 100 : ℚ) * ((10000 : ℤ) / 100) = n
    push_cast
    ring
  rw [hscaled]
  show ((mathRound n : ℤ) : ℚ) / ((10000 : ℤ) / 100) = _
  rw [mathRound_intCast]
  push_cast
  ring

end NexaStays.JsNumbers
