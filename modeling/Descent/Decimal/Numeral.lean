import Descent.Text.Blank
import Descent.Text.Digit

/-!
# Reading numerals

`readFloat? text` reads a real number as people write it: blanks around it, a sign, digits with an
optional point and exponent, single underscores between digits, or one of the words `nan`, `inf`
and `infinity` in any case. The value is the double nearest to the decimal; what is too large
becomes infinite.

`ofDecimal` is that rounding: `mantissa * 10 ^ exponent` to the nearest double.
-/

namespace Descent.Decimal

open Text (digitValue? strip)

/-- The double nearest to `mantissa * 10 ^ exponent`. Far outside the range of doubles the answer is
known without computing the power. -/
def ofDecimal (mantissa : Nat) (exponent : Int) : Float :=
  let top := exponent + mantissa.repr.length
  if mantissa = 0 ∨ top < -400 then 0.0
  else if 400 < top then 1.0 / 0.0
  else Float.ofScientific mantissa (exponent < 0) exponent.natAbs

/-- The double nearest to an integer, none when it lies outside the range of doubles. -/
def ofInt? (i : Int) : Option Float :=
  let a := ofDecimal i.natAbs 0
  if a.isFinite then some (if i < 0 then -a else a) else none

/-- Underscores stand only between two digits. -/
def underscoresOk : Bool → List Char → Bool
  | _, [] => true
  | afterDigit, '_' :: rest =>
    match rest with
    | [] => false
    | c :: _ => afterDigit && (digitValue? c).isSome && underscoresOk false rest
  | _, c :: rest => underscoresOk (digitValue? c).isSome rest

/-- The digits at the front, as their number, their value and the rest. -/
def takeDigits : (count value : Nat) → List Char → Nat × Nat × List Char
  | count, value, [] => (count, value, [])
  | count, value, c :: rest =>
    match digitValue? c with
    | some d => takeDigits (count + 1) (10 * value + d) rest
    | none => (count, value, c :: rest)

/-- A sign at the front and the rest. -/
def takeSign : List Char → Bool × List Char
  | '-' :: rest => (true, rest)
  | '+' :: rest => (false, rest)
  | rest => (false, rest)

/-- An exponent that fills the text, zero when the text is empty. -/
def readExponent? : List Char → Option Int
  | [] => some 0
  | c :: rest =>
    if c = 'e' ∨ c = 'E' then
      let (negative, rest) := takeSign rest
      match takeDigits 0 0 rest with
      | (count, value, []) =>
        if count = 0 then none else some (if negative then -(value : Int) else value)
      | _ => none
    else none

/-- An unsigned decimal: digits, perhaps a point among them, perhaps an exponent. -/
def readUnsigned? (s : List Char) : Option Float :=
  let (before, value, rest) := takeDigits 0 0 s
  let (after, value, rest) :=
    match rest with
    | '.' :: rest => takeDigits 0 value rest
    | rest => (0, value, rest)
  if before + after = 0 then none
  else (readExponent? rest).map fun e => ofDecimal value (e - after)

/-- Reads a number, none when the text is not one. -/
def readFloat? (text : String) : Option Float :=
  let (negative, body) := takeSign (strip text.toList)
  let signed (a : Float) : Float := if negative then -a else a
  let word := String.ofList (body.map Char.toLower)
  if word = "nan" then some (signed (0.0 / 0.0))
  else if word = "inf" ∨ word = "infinity" then some (signed (1.0 / 0.0))
  else if underscoresOk false body then
    (readUnsigned? (body.filter (· ≠ '_'))).map signed
  else none

end Descent.Decimal
