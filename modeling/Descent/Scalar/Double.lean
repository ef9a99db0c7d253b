import Descent.Scalar
import Descent.Decimal.Shortest
import Descent.Decimal.Numeral

/-!
# Doubles as scalars

IEEE double precision: every operation rounds to nearest, comparisons with a not-a-number are false,
a missing value is a not-a-number.
-/

namespace Descent

instance instScalarFloat : Scalar Float where
  decidableLT := inferInstance
  decidableLE := inferInstance
  sqrt := Float.sqrt
  log := Float.log
  abs := Float.abs
  isFinite := Float.isFinite
  ofNat := Float.ofNat
  zero_beq_zero := by decide +kernel

/-- The integer part of a finite double. -/
def truncateDouble? (a : Float) : Option Int :=
  match Decimal.Binary.ofFloat a with
  | .finite negative mantissa exponent =>
    let (num, den) := Decimal.Binary.quotient mantissa exponent
    let whole : Int := num / den
    some (if negative then -whole else whole)
  | _ => none

/-- The least double that is not below an integer. The nearest one is, or its successor. -/
def leastDoubleFrom (i : Int) : Float :=
  match Decimal.ofInt? i with
  | none => if i < 0 then Float.ofBits 0xFFEFFFFFFFFFFFFF else 1.0 / 0.0
  | some a =>
    match truncateDouble? a with
    | some whole =>
      if whole < i then Float.ofBits (if i < 0 then a.toBits - 1 else a.toBits + 1) else a
    | none => a

instance instNumeralFloat : Numeral Float where
  ofInt? := Decimal.ofInt?
  leastFrom := leastDoubleFrom
  ofText? := Decimal.readFloat?
  missing := 0.0 / 0.0
  truncate? := truncateDouble?
  scientific := Decimal.scientific
  shortest := Decimal.shortest

end Descent
