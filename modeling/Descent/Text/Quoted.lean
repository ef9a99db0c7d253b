import Descent.Text.Printable

/-!
# Quoted text

`quoted` writes a text between apostrophes, or between quotation marks when it holds an apostrophe
and no quotation mark. The mark in use and the backslash stand behind a backslash, tab and line
ends have their letters, and characters that are not printable are written by number.
`quotedAscii` writes all that is not ASCII by number as well.
-/

namespace Descent.Text

/-- A digit of base sixteen. -/
def hexDigit (n : Nat) : Char :=
  if n < 10 then Char.ofNat (48 + n) else Char.ofNat (87 + n)

/-- The last `width` digits of a number in base sixteen. -/
def hexDigits (n : Nat) : (width : Nat) → List Char
  | 0 => []
  | width + 1 => hexDigits (n / 16) width ++ [hexDigit (n % 16)]

/-- A character by number: two, four or eight digits, as many as it takes. -/
def byNumber (c : Char) : List Char :=
  let n := c.toNat
  if n < 0x100 then '\\' :: 'x' :: hexDigits n 2
  else if n < 0x10000 then '\\' :: 'u' :: hexDigits n 4
  else '\\' :: 'U' :: hexDigits n 8

/-- A character between quotes; `plain` tells which characters stand for themselves. -/
def quotedChar (mark : Char) (plain : Char → Bool) (c : Char) : List Char :=
  if c = mark || c = '\\' then ['\\', c]
  else if c = '\t' then ['\\', 't']
  else if c = '\n' then ['\\', 'n']
  else if c = '\r' then ['\\', 'r']
  else if plain c then [c]
  else byNumber c

/-- The mark that a text is put between. -/
def markFor (s : List Char) : Char :=
  if s.contains '\'' && !s.contains '"' then '"' else '\''

/-- A text between quotes; `plain` tells which characters stand for themselves. -/
def quotedBy (plain : Char → Bool) (s : List Char) : List Char :=
  let mark := markFor s
  mark :: (s.flatMap (quotedChar mark plain) ++ [mark])

/-- A text between quotes. -/
def quoted (s : List Char) : List Char :=
  quotedBy isPrintable s

/-- A text between quotes, in ASCII. -/
def quotedAscii (s : List Char) : List Char :=
  quotedBy (fun c => c.toNat < 128 && isPrintable c) s

end Descent.Text
