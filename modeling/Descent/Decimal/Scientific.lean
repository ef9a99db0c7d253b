import Descent.Decimal.Rounding
import Descent.Decimal.Binary

/-!
# Scientific notation with a fixed number of places

`scientific places a` writes a double as one digit, a point, `places` digits and an exponent of at
least two digits, rounded correctly from its exact value: `2.500000000e-01`. The sign of a zero is
kept; what is not finite is written `nan`, `inf` or `-inf`.
-/

namespace Descent.Decimal

/-- Decimal digits and exponent of the positive quotient `num / den`: the first component has
`places + 1` digits and stands for itself times `10 ^ (exponent - places)`. -/
def roundedDigits (places num den : Nat) : Nat × Int :=
  let e := leadingExponent num den
  let (a, b) := scaleBy num den (e - places)
  let n := roundDiv a b
  if n = Nat.pow 10 (places + 1) then (Nat.pow 10 places, e + 1) else (n, e)

/-- An exponent has a sign and at least two digits. -/
def exponentText (e : Int) : String :=
  let digits := e.natAbs.repr
  let padded := if digits.length < 2 then "0" ++ digits else digits
  (if e < 0 then "e-" else "e+") ++ padded

/-- The digits of `n` with a point after the first, the count of digits being `places + 1`. -/
def pointAfterFirst (places n : Nat) : String :=
  let digits := n.repr.toList
  let padded := List.replicate (places + 1 - digits.length) '0' ++ digits
  match padded with
  | [] => ""
  | d :: rest => if rest.isEmpty then String.ofList [d] else String.ofList (d :: '.' :: rest)

/-- A double in scientific notation with `places` digits after the point. -/
def scientific (places : Nat) (a : Float) : String :=
  match Binary.ofFloat a with
  | .notANumber => "nan"
  | .infinite negative => if negative then "-inf" else "inf"
  | .finite negative mantissa exponent =>
    let (digits, e) :=
      if mantissa = 0 then (0, 0)
      else
        let (num, den) := Binary.quotient mantissa exponent
        roundedDigits places num den
    (if negative then "-" else "") ++ pointAfterFirst places digits ++ exponentText e

end Descent.Decimal
