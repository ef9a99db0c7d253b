import Descent.Decimal.Numeral
import Descent.Decimal.Scientific
import Descent.Logging.Level
import Descent.Text.Quoted

/-!
# Fields of log lines

A field of a layout says which part of a record is written and how: `%(levelname)-8s` pads to eight
characters on the right, `%(levelno)03d` pads a number with zeros, `%(levelno)#x` writes it in base
sixteen with a mark of the base, `%(message).20s` cuts a text, `%(message)r` puts it between quotes.

* `Style` holds the flags, the width, the places and the conversion letter; `Style.take?` reads it.
* `Style.write` writes a text or a level in a style. Not every conversion fits every value; a level
  is a number in most of them.
-/

namespace Descent.Logging

/-- How a value is written. -/
structure Style where
  /-- Padding goes to the right. -/
  left : Bool
  /-- A number that is not negative has a plus sign. -/
  plus : Bool
  /-- A number that is not negative has a blank in the place of its sign. -/
  blank : Bool
  /-- The base is marked, a point is always written, and zeros at the end are kept. -/
  alternate : Bool
  /-- Numbers are padded with zeros, after the sign. -/
  zero : Bool
  width : Nat
  places : Option Nat
  conversion : Char

/-- What a field is filled with. -/
inductive FieldValue where
  | text (s : List Char)
  | level (level : Level)

namespace Style

/-- The characters that stand for flags. -/
def isFlag (c : Char) : Bool :=
  c = '#' || c = '0' || c = '+' || c = ' ' || c = '-'

/-- A number at the front, zero when there is none, and the rest. -/
def takeNumber (s : List Char) : Nat × List Char :=
  ((s.takeWhile Char.isDigit).foldl (fun n c => 10 * n + (c.toNat - 48)) 0,
    s.dropWhile Char.isDigit)

/-- A letter for the size of a number may precede the conversion and means nothing. -/
def dropSize : List Char → List Char
  | c :: rest => if c = 'h' || c = 'l' || c = 'L' then rest else c :: rest
  | [] => []

/-- The least width that no line has. -/
def widthBound : Nat := Nat.pow 2 32

/-- The least number of places that no value has. -/
def placesBound : Nat := Nat.pow 2 31

/-- A style at the front and the rest of the text. -/
def take? (s : List Char) : Option (Style × List Char) :=
  let flags := s.takeWhile isFlag
  let (width, s) := takeNumber (s.dropWhile isFlag)
  let (places, s) : Option Nat × List Char :=
    match s with
    | '.' :: s =>
      let (n, s) := takeNumber s
      (some n, s)
    | s => (none, s)
  match dropSize s with
  | conversion :: rest =>
    if widthBound ≤ width || placesBound ≤ places.getD 0 then none
    else some (⟨flags.contains '-', flags.contains '+', flags.contains ' ', flags.contains '#',
      flags.contains '0', width, places, conversion⟩, rest)
  | [] => none

/-- A text padded with blanks to the width. -/
def pad (style : Style) (s : List Char) : List Char :=
  let gap := List.replicate (style.width - s.length) ' '
  if style.left then s ++ gap else gap ++ s

/-- A number padded to the width; zeros go between what leads it and its digits. -/
def padNumber (style : Style) (lead digits : List Char) : List Char :=
  if style.zero && !style.left then
    lead ++ List.replicate (style.width - lead.length - digits.length) '0' ++ digits
  else style.pad (lead ++ digits)

/-- A text cut to the places and padded. -/
def writeText (style : Style) (s : List Char) : List Char :=
  style.pad (match style.places with | some n => s.take n | none => s)

/-- What stands in the place of the sign. -/
def sign (style : Style) (i : Int) : List Char :=
  if i < 0 then ['-'] else if style.plus then ['+'] else if style.blank then [' '] else []

/-- An integer in a base; the places are the least number of digits. -/
def writeInteger (style : Style) (base : Nat) (mark : List Char) (i : Int) : List Char :=
  let digits := Nat.toDigits base i.natAbs
  let padded := List.replicate (style.places.getD 0 - digits.length) '0' ++ digits
  style.padNumber (style.sign i ++ if style.alternate then mark else []) padded

/-- Zeros at the end of a fraction are left out, unless all is to be kept. -/
def fraction (style : Style) (digits : List Char) : List Char :=
  if style.alternate then digits else (digits.reverse.dropWhile (· = '0')).reverse

/-- A fraction behind its point; without a fraction the point stands if it is always written. -/
def pointed (style : Style) (digits : List Char) : List Char :=
  if digits.isEmpty && !style.alternate then [] else '.' :: digits

/-- A whole number with a fixed number of places. -/
def fixed (style : Style) (n : Nat) : List Char :=
  n.repr.toList ++ style.pointed (List.replicate (style.places.getD 6) '0')

/-- A whole number as decimal digits, `places` of them after the first, and an exponent. -/
def significant (places n : Nat) : List Char × Int :=
  let (digits, e) := if n = 0 then (0, 0) else Decimal.roundedDigits places n 1
  (List.replicate (places + 1 - digits.repr.length) '0' ++ digits.repr.toList, e)

/-- Digits with a point after the first of them and an exponent. -/
def withExponent (style : Style) (digits : List Char) (e : Int) : List Char :=
  digits.take 1 ++ style.pointed (digits.drop 1) ++ (Decimal.exponentText e).toList

/-- A whole number in scientific notation. -/
def scientific (style : Style) (n : Nat) : List Char :=
  let (digits, e) := significant (style.places.getD 6) n
  style.withExponent digits e

/-- A whole number with so many digits that count, in the shorter of the two notations. -/
def general (style : Style) (n : Nat) : List Char :=
  let count := max 1 (style.places.getD 6)
  let (digits, e) := significant (count - 1) n
  if e < count then
    let before := e.toNat + 1
    digits.take before ++ style.pointed (style.fraction (digits.drop before))
  else style.withExponent (digits.take 1 ++ style.fraction (digits.drop 1)) e

/-- The double nearest to a natural number, which is a natural number again; none beyond the range
of doubles. -/
def nearest? (n : Nat) : Option Nat :=
  (Decimal.ofInt? n).bind fun a =>
    match Decimal.Binary.ofFloat a with
    | .finite _ mantissa exponent =>
      let (num, den) := Decimal.Binary.quotient mantissa exponent
      some (num / den)
    | _ => none

/-- An integer written as the real number next to it. -/
def writeReal (style : Style) (form : Style → Nat → List Char) (i : Int) :
    Option (List Char) :=
  (nearest? i.natAbs).map fun n => style.padNumber (style.sign i) (form style n)

/-- A value as plain text. -/
def plain : FieldValue → List Char
  | .text s => s
  | .level level => level.plain.toList

/-- The character that a value stands for. -/
def character? : FieldValue → Option Char
  | .text [c] => some c
  | .text _ => none
  | .level level =>
    let i := level.value
    if h : 0 ≤ i ∧ Nat.isValidChar i.toNat then some (Char.ofNatAux i.toNat h.2) else none

/-- A number in a style, none when the conversion is not one for numbers. -/
def writeNumber (style : Style) (i : Int) : Option (List Char) :=
  match style.conversion with
  | 'd' | 'i' | 'u' => some (style.writeInteger 10 [] i)
  | 'o' => some (style.writeInteger 8 ['0', 'o'] i)
  | 'x' => some (style.writeInteger 16 ['0', 'x'] i)
  | 'X' => some ((style.writeInteger 16 ['0', 'x'] i).map Char.toUpper)
  | 'f' | 'F' => style.writeReal fixed i
  | 'e' => style.writeReal scientific i
  | 'E' => (style.writeReal scientific i).map (List.map Char.toUpper)
  | 'g' => style.writeReal general i
  | 'G' => (style.writeReal general i).map (List.map Char.toUpper)
  | _ => none

/-- A value in a style, none when the conversion does not fit the value. -/
def write (style : Style) (value : FieldValue) : Option (List Char) :=
  match style.conversion, value with
  | 's', v => some (style.writeText (plain v))
  | 'r', .text s => some (style.writeText (Text.quoted s))
  | 'a', .text s => some (style.writeText (Text.quotedAscii s))
  | 'r', v | 'a', v => some (style.writeText (plain v))
  | 'c', v => (character? v).map fun c => style.pad [c]
  | _, .level level => style.writeNumber level.value
  | _, .text _ => none

end Style

end Descent.Logging
