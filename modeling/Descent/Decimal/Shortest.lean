import Descent.Decimal.Scientific

/-!
# The shortest decimal that reads back

Every real number of an interval around a double rounds to that double; the ends belong to the
interval exactly when the mantissa is even. `shortestDigits` looks on the decimal grids of 1, 2, …
17 digits for a point of that interval: the first grid that has one wins, and of two points of one
grid the one nearer to the value. `shortest` writes the digits found: positionally when the decimal
exponent is between -4 and 15, with an exponent otherwise.
-/

namespace Descent.Decimal

/-- The reals that round to `mantissa * 2 ^ exponent`, in quarters of a unit in the last place:
`lo` and `hi` count from `4 * mantissa`, and the step below a power of two is half as wide. -/
structure Basin where
  value : Nat
  lo : Nat
  hi : Nat
  closed : Bool

def Basin.of (mantissa : Nat) (exponent : Int) : Basin where
  value := 4 * mantissa
  lo := if mantissa = Nat.pow 2 52 ∧ -1074 < exponent then 4 * mantissa - 1 else 4 * mantissa - 2
  hi := 4 * mantissa + 2
  closed := mantissa % 2 = 0

/-- Whether the quotient `num / den` lies in the basin. -/
def Basin.contains (b : Basin) (num den : Nat) : Bool :=
  if b.closed then b.lo * den ≤ num ∧ num ≤ b.hi * den else b.lo * den < num ∧ num < b.hi * den

/-- The decimal with the fewest digits in the basin of `mantissa * 2 ^ exponent`, as digits and the
exponent of their last place. The search tries grids of `digits + 1` and more digits. -/
def shortestFrom (mantissa : Nat) (exponent : Int) (digits : Nat) : Nat → Nat × Int
  | 0 =>
    let (num, den) := Binary.quotient mantissa exponent
    let (n, e) := roundedDigits 16 num den
    (n, e - 16)
  | left + 1 =>
    let (num, den) := Binary.quotient mantissa exponent
    let unit := leadingExponent num den - digits
    let (a, b) := scaleBy num den unit
    let below := a / b
    let basin := Basin.of mantissa exponent
    -- A grid point `c` is `c * b / a` times the value, hence `4 * mantissa * c * b / a` quarters.
    let inside (c : Nat) : Bool := basin.contains (4 * mantissa * c * b) a
    let nearer := roundDiv a b
    let farther := if nearer = below then below + 1 else below
    if inside nearer then (nearer, unit)
    else if inside farther then (farther, unit)
    else shortestFrom mantissa exponent (digits + 1) left

/-- Drop the zeros at the end of a digit string, counting them into the exponent. -/
def trimZeros (n : Nat) (unit : Int) : Nat → Nat × Int
  | 0 => (n, unit)
  | left + 1 => if n % 10 = 0 ∧ n ≠ 0 then trimZeros (n / 10) (unit + 1) left else (n, unit)

/-- The shortest decimal of a positive double as digits and the exponent of the first of them. -/
def shortestDigits (mantissa : Nat) (exponent : Int) : List Char × Int :=
  let (n, unit) := shortestFrom mantissa exponent 0 17
  let (n, unit) := trimZeros n unit 20
  let digits := n.repr.toList
  (digits, unit + digits.length - 1)

/-- Digits in positional notation, with at least one digit on each side of the point. -/
def positional (digits : List Char) (e : Int) : List Char :=
  if e < 0 then '0' :: '.' :: (List.replicate ((-e).toNat - 1) '0' ++ digits)
  else
    let whole := digits.take (e.toNat + 1)
    let fraction := digits.drop (e.toNat + 1)
    let padded := whole ++ List.replicate (e.toNat + 1 - whole.length) '0'
    padded ++ '.' :: (if fraction.isEmpty then ['0'] else fraction)

/-- Digits with an exponent; a lone digit stands without a point. -/
def exponential (digits : List Char) (e : Int) : List Char :=
  match digits with
  | [] => []
  | [d] => d :: (exponentText e).toList
  | d :: rest => d :: '.' :: rest ++ (exponentText e).toList

/-- The shortest text that reads back as the same double. -/
def shortest (a : Float) : String :=
  match Binary.ofFloat a with
  | .notANumber => "nan"
  | .infinite negative => if negative then "-inf" else "inf"
  | .finite negative mantissa exponent =>
    let body :=
      if mantissa = 0 then ['0', '.', '0']
      else
        let (digits, e) := shortestDigits mantissa exponent
        if -4 ≤ e ∧ e < 16 then positional digits e else exponential digits e
    (if negative then "-" else "") ++ String.ofList body

end Descent.Decimal
