import Mathlib.Analysis.SpecialFunctions.Log.Basic
import Mathlib.Analysis.SpecialFunctions.Sqrt
import Descent.Scalar.Quotient

/-!
# Exact real numbers as scalars

The arithmetic in which nothing is rounded and every value is finite. How real numbers are read from
text and written as text is left open by `RealText`: it decides what is logged and which texts are
accepted as data, and no theorem depends on it.
-/

namespace Descent

noncomputable instance instScalarReal : Scalar ℝ where
  toBEq := inferInstance
  decidableLT := inferInstance
  decidableLE := inferInstance
  sqrt := Real.sqrt
  log := Real.log
  abs a := |a|
  isFinite _ := true
  ofNat n := n
  zero_beq_zero := beq_self_eq_true 0

/-- How real numbers are read from text and written as text, and which one stands for a missing
value. -/
class RealText where
  ofText? : String → Option ℝ
  missing : ℝ
  scientific : Nat → ℝ → String
  shortest : ℝ → String

/-- A way to read and write real numbers in which no text is a number. -/
@[reducible] def RealText.mute : RealText where
  ofText? _ := none
  missing := 0
  scientific _ _ := ""
  shortest _ := ""

/-- Every integer is a real number, and every real number has an integer part. -/
noncomputable instance instNumeralReal [RealText] : Numeral ℝ where
  ofInt? i := some i
  leastFrom i := i
  ofText? := RealText.ofText?
  missing := RealText.missing
  truncate? a := some (if 0 ≤ a then ⌊a⌋ else ⌈a⌉)
  scientific := RealText.scientific
  shortest := RealText.shortest

/-- A quotient of real numbers is a fault only if the divisor is zero. -/
theorem Scalar.quotient_real {b : ℝ} (h : b ≠ 0) (a : ℝ) : Scalar.quotient a b = .ok (a / b) :=
  Scalar.quotient_of_ne_zero (beq_eq_false_iff_ne.2 h) a

end Descent
