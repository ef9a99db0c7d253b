/-!
# Rounding a quotient

* `roundDiv num den`: the integer nearest to `num / den`, a tie going to the even neighbour.
* `leadingExponent num den`: the decimal exponent of `num / den`, so that
  `10 ^ e ≤ num / den < 10 ^ (e + 1)`.

Both work on exact natural numbers; nothing is lost on the way.
-/

namespace Descent.Decimal

/-- The integer nearest to `num / den`; a tie goes to the even neighbour. -/
def roundDiv (num den : Nat) : Nat :=
  let q := num / den
  let r := num % den
  if 2 * r < den then q
  else if den < 2 * r then q + 1
  else if q % 2 = 0 then q else q + 1

/-- The quotient `num / den` in units of `10 ^ e`, as a pair of natural numbers. -/
def scaleBy (num den : Nat) (e : Int) : Nat × Nat :=
  if 0 ≤ e then (num, den * Nat.pow 10 e.toNat) else (num * Nat.pow 10 (-e).toNat, den)

/-- Whether `10 ^ e ≤ num / den`. -/
def reaches (num den : Nat) (e : Int) : Bool :=
  let (a, b) := scaleBy num den e
  b ≤ a

/-- The decimal exponent of the positive quotient `num / den`. The binary logarithms of the two
numbers put it within one of an estimate, and exact comparison decides among the three. -/
def leadingExponent (num den : Nat) : Int :=
  let e := (((num.log2 : Int) - den.log2 - 1) * 30103).fdiv 100000
  if reaches num den (e + 1) then e + 1
  else if reaches num den e then e
  else e - 1

end Descent.Decimal
