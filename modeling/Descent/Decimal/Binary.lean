/-!
# The exact value of a double

`Binary.ofFloat` takes a double apart into sign, mantissa and exponent. A finite double is exactly
`± mantissa * 2 ^ exponent`, which the decimal writers then handle in natural numbers.
-/

namespace Descent.Decimal

/-- A double taken apart. -/
inductive Binary where
  | notANumber
  | infinite (negative : Bool)
  | finite (negative : Bool) (mantissa : Nat) (exponent : Int)
  deriving DecidableEq, Repr

/-- The fields of the 64 bits: a sign, eleven bits of exponent, fifty-two of fraction. A zero
exponent field means no hidden leading one. -/
def Binary.ofFloat (a : Float) : Binary :=
  let bits : Nat := a.toBits.toNat
  let negative : Bool := bits / Nat.pow 2 63 = 1
  let biased : Nat := bits / Nat.pow 2 52 % Nat.pow 2 11
  let fraction : Nat := bits % Nat.pow 2 52
  if biased = 2047 then
    if fraction = 0 then .infinite negative else .notANumber
  else if biased = 0 then .finite negative fraction (-1074)
  else .finite negative (Nat.pow 2 52 + fraction) ((biased : Int) - 1075)

/-- The quotient of natural numbers equal to `mantissa * 2 ^ exponent`. -/
def Binary.quotient (mantissa : Nat) (exponent : Int) : Nat × Nat :=
  if 0 ≤ exponent then (mantissa * Nat.pow 2 exponent.toNat, 1)
  else (mantissa, Nat.pow 2 (-exponent).toNat)

end Descent.Decimal
