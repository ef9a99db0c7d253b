import Descent.Logging.Field
import Descent.Text.Digit
import Descent.Text.Word

/-!
# Layouts of log lines

A layout is a text with fields such as `%(name)s`. `Layout.isValid` accepts a layout that holds at
least one field anywhere, where it goes by the look of a field; `Layout.render` fills the fields in
from a record, which fails when a field asks for what records do not have. Two percent signs stand
for one.
-/

namespace Descent.Logging

/-- What a log line is made from. -/
structure Record where
  name : String
  level : Level
  message : String

/-- A layout text. -/
abbrev Layout := String

namespace Layout

/-- The layout used unless another is asked for. -/
def standard : Layout :=
  "[%(levelname)s] %(name)s: %(message)s"

/-- A number or a star at the front is left out; without either nothing is. -/
def dropCount : List Char → List Char
  | '*' :: rest => rest
  | s => s.dropWhile fun c => (Text.digitValue? c).isSome

/-- A point with a number or a star behind it is left out. -/
def dropPlaces : List Char → List Char
  | '.' :: s => if (dropCount s).length < s.length then dropCount s else '.' :: s
  | s => s

/-- The letters that may end a field. Case does not matter, which admits three letters outside ASCII
that are another case of one within. -/
def isConversion (c : Char) : Bool :=
  "diouxefgcrsa%".toList.contains c.toLower || c = 'İ' || c = 'ı' || c = 'ſ'

/-- Whether a text starts with the look of a field: a name in parentheses, flags, a width, places
and a conversion letter. -/
def startsWithField : List Char → Bool
  | '%' :: '(' :: s =>
    match s.dropWhile Text.isWord with
    | ')' :: rest =>
      !(s.takeWhile Text.isWord).isEmpty &&
        match dropPlaces (dropCount (rest.dropWhile Style.isFlag)) with
        | c :: _ => isConversion c
        | [] => false
    | _ => false
  | _ => false

/-- Whether a field stands anywhere in the text. -/
def hasField : List Char → Bool
  | [] => false
  | c :: s => startsWithField (c :: s) || hasField s

/-- A layout must hold at least one field. -/
def isValid (layout : Layout) : Bool :=
  hasField layout.toList

/-- The part of a record that a field names. -/
def value? (record : Record) (name : List Char) : Option FieldValue :=
  match String.ofList name with
  | "name" => some (.text record.name.toList)
  | "levelname" => some (.text record.level.label.toList)
  | "levelno" => some (.level record.level)
  | "message" => some (.text record.message.toList)
  | _ => none

/-- A field without its percent sign at the front, filled in; and the rest. -/
def takeField? (record : Record) : List Char → Option (List Char × List Char)
  | '(' :: s =>
    match s.dropWhile (· ≠ ')') with
    | _ :: rest => do
      let value ← value? record (s.takeWhile (· ≠ ')'))
      let (style, rest) ← Style.take? rest
      return (← style.write value, rest)
    | [] => none
  | _ => none

/-- The text of a layout filled in, none when a field cannot be. The count bounds the number of
pieces and is the length of the text. -/
def renderFrom (record : Record) : Nat → List Char → Option (List Char)
  | _, [] => some []
  | 0, _ => none
  | left + 1, '%' :: '%' :: rest => (renderFrom record left rest).map ('%' :: ·)
  | left + 1, '%' :: s => do
    let (value, rest) ← takeField? record s
    let back ← renderFrom record left rest
    return value ++ back
  | left + 1, c :: rest => (renderFrom record left rest).map (c :: ·)

/-- The line that a layout makes of a record. -/
def render (layout : Layout) (record : Record) : Option String :=
  (renderFrom record layout.toList.length layout.toList).map String.ofList

end Layout

end Descent.Logging
