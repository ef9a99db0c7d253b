import Descent.Number
import Descent.Block

/-!
# Data handed over by callers

What a caller passes as a vector or a matrix, and what a caller's function returns, is a `Datum`:
nested sequences of numbers, or anything else that was put there by mistake. Two readings turn it
into numbers.

* `Datum.toVector name`: a sequence of numbers. Text is read character by character and a record key
  by key; a lone number is refused; nested sequences are refused with their shape.
* `Datum.toBlock`: a block of any number of axes, with its shape.

In both, integers must be in range, text must be a number, flags count as one and zero and a missing
entry as the missing value of the arithmetic. The first entry that cannot be read decides the fault;
a shape that is not uniform is reported before any entry.

Data combine as well: `Datum.add` adds numbers and joins sequences or texts, `Datum.mul` multiplies
numbers and repeats sequences or texts, `Datum.union` combines the bits of whole numbers. What would
be too long is a fault.

`Datum.given?` tells whether anything was handed over at all.
-/

namespace Descent

/-- The length of the longest sequences and texts that can be kept. -/
def maxLength : Nat := Nat.pow 2 32

/-- Data of unknown shape. -/
inductive Datum (α : Type) where
  /-- A flat sequence of scalars. -/
  | vector (entries : Array α)
  | sequence (items : List (Datum α))
  | number (n : Number α)
  | flag (b : Bool)
  | nothing
  | text (s : String)
  | record (keys : List String)

namespace Datum

variable {α : Type}

/-- What kind of value this is, in the words that faults use. -/
def kindText : Datum α → String
  | vector _ | sequence _ => "list"
  | number (.whole _) => "int"
  | number (.real _) => "float"
  | flag _ => "bool"
  | nothing => "NoneType"
  | text _ => "str"
  | record _ => "dict"

/-- The largest number of axes. -/
def maxAxes : Nat := 64

mutual

/-- The shape of nested data, none when it is not uniform. -/
def shape? : Datum α → Option (List Nat)
  | vector entries => some [entries.size]
  | sequence items => (commonShape? items).map (items.length :: ·)
  | _ => some []

/-- The shape that all items share; no items share the empty one. -/
def commonShape? : List (Datum α) → Option (List Nat)
  | [] => some []
  | [item] => shape? item
  | item :: rest =>
    match shape? item, commonShape? rest with
    | some a, some b => if a = b then some a else none
    | _, _ => none

end

mutual

/-- The entries of nested data that are not sequences themselves, in order. -/
def leaves : Datum α → List (Datum α)
  | vector v => v.toList.map fun a => number (.real a)
  | sequence items => allLeaves items
  | item => [item]

/-- The leaves of several items, one after the other. -/
def allLeaves : List (Datum α) → List (Datum α)
  | [] => []
  | item :: rest => leaves item ++ allLeaves rest

end

/-- Nested data as a block of leaves. -/
def arrange (d : Datum α) : Except Fault (Block (Datum α)) :=
  match d.shape? with
  | none => .error .ragged
  | some shape => if shape.length ≤ maxAxes then .ok ⟨shape, d.leaves.toArray⟩ else .error .ragged

/-- A value that is not missing. -/
def given? : Datum α → Option (Datum α)
  | nothing => none
  | d => some d

/-- The items of a sequence. -/
def items? : Datum α → Option (List (Datum α))
  | vector v => some (v.toList.map fun a => number (.real a))
  | sequence items => some items
  | _ => none

/-- Whether a value is a text. -/
def isText : Datum α → Bool
  | text _ => true
  | _ => false

/-- A value as a number; a flag counts as one or zero. -/
def number? : Datum α → Option (Number α)
  | number n => some n
  | flag b => some (.whole (if b then 1 else 0))
  | _ => none

/-- A value that must be a number. -/
def toNumber (d : Datum α) : Except Fault (Number α) :=
  match d.number? with
  | some n => .ok n
  | none => .error .notNumber

variable [Numeral α]

/-- A value that must be a number and satisfy a bound; `name` is what the fault calls it. -/
def insist (d : Datum α) (name : String) (bound : Bound) : Except Fault (Number α) := do
  (← d.toNumber).insist name bound

/-- A value that must be a number between zero and one. -/
def insistInUnit (d : Datum α) (name : String) : Except Fault α := do
  return (← d.insist name .openUnit).ceiling

/-- A text as one number. -/
def textScalar (s : String) : Except Fault α :=
  match Numeral.ofText? s with
  | some a => .ok a
  | none => .error .unreadable

/-- A value that is no sequence, as one number. -/
def leaf : Datum α → Except Fault α
  | number n => n.toScalar
  | flag b => .ok (if b then 1 else 0)
  | nothing => .ok Numeral.missing
  | text s => textScalar s
  | _ => .error .notNumber

/-- Nested data as a block of scalars. -/
def toBlock (d : Datum α) : Except Fault (Block α) := do
  (← d.arrange).mapM leaf

/-- Data as a vector; `name` is what faults call it. -/
def toVector (name : String) : Datum α → Except Fault (Array α)
  | vector v => .ok v
  | d@(sequence _) => d.toBlock >>= Block.toVector name
  | text s => (s.toList.mapM fun c => textScalar (String.ofList [c])).map List.toArray
  | record keys => (keys.mapM textScalar).map List.toArray
  | _ => .error (.notSequence name)

/-- The sum of two numbers, or two sequences or texts joined. -/
def add (c d : Datum α) : Except Fault (Datum α) :=
  match c, d with
  | text first, text second => .ok (text (first ++ second))
  | _, _ =>
    match c.items?, d.items? with
    | some first, some second => .ok (sequence (first ++ second))
    | _, _ =>
      match c.number?, d.number? with
      | some m, some n => (m.add n).map number
      | _, _ => .error .notCombinable

/-- A list several times in a row. -/
def repeatList {β : Type} (items : List β) (count : Nat) : Except Fault (List β) :=
  if items.isEmpty then .ok []
  else if maxLength < items.length * count then .error .memory
  else .ok (List.replicate count items).flatten

/-- A sequence or a text repeated. A text whose length would be no index is out of range. -/
def repeated (d : Datum α) (n : Number α) : Except Fault (Datum α) :=
  match d, d.items? with
  | text s, _ => do
    let count ← n.toRepeats
    if Number.indexBound ≤ s.length * count then throw .outOfRange
    return text (String.ofList (← repeatList s.toList count))
  | _, some items => do return sequence (← repeatList items (← n.toRepeats))
  | _, none => .error .notCombinable

/-- The product of two numbers, or a sequence or a text repeated. -/
def mul (c d : Datum α) : Except Fault (Datum α) :=
  match c.number?, d.number? with
  | some m, some n => (m.mul n).map number
  | some m, none => d.repeated m
  | none, some n => c.repeated n
  | none, none => .error .notCombinable

/-- The bits that are set in one of two integers or in both; those of a negative integer go on
without end. -/
def bitUnion : Int → Int → Int
  | .ofNat m, .ofNat n => .ofNat (m ||| n)
  | .ofNat m, .negSucc n => .negSucc (n - (n &&& m))
  | .negSucc m, .ofNat n => .negSucc (m - (m &&& n))
  | .negSucc m, .negSucc n => .negSucc (m &&& n)

/-- The union of two whole numbers, two flags or two records. -/
def union (c d : Datum α) : Except Fault (Datum α) :=
  match c, d with
  | flag a, flag b => .ok (flag (a || b))
  | record first, record second => .ok (record (first ++ second.filter (!first.contains ·)))
  | _, _ =>
    match c.number?, d.number? with
    | some (.whole i), some (.whole k) => .ok (number (.whole (bitUnion i k)))
    | _, _ => .error .notCombinable

end Datum

end Descent
