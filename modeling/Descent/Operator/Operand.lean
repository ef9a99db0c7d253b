import Descent.Datum

/-!
# Operands of entrywise arithmetic

Data and blocks take part in sums and products entry by entry. Whether an entry is a number is found
out at one of two times, and the `Grain` of an operand says when.

* If both operands hold nothing but numbers, these are read first, then the shapes are compared.
* If one of them is `mixed`, the shapes are compared first, and then every pair of entries is read
  and combined in turn. The result is mixed as well.
* Texts do not combine with numbers; this is refused at once, whatever the shapes.

`Operand.ofDatum` arranges data as an operand; `Operand.combine` combines two.
-/

namespace Descent

/-- What is known of the entries of an operand before any of them is read. -/
inductive Grain where
  /-- All of them are numbers. -/
  | numbers
  /-- All of them are numbers or texts, and some are texts. -/
  | texts
  /-- They are read one by one. -/
  | mixed
  deriving DecidableEq, Repr

/-- Entries that take part in arithmetic. -/
structure Operand (α : Type) where
  grain : Grain
  block : Block (Datum α)

namespace Operand

variable {α : Type}

/-- Whether a value can only be read by itself: what is neither a number nor a text, and an integer
that has no place in a word of 64 bits, with a sign or without. -/
def isApart : Datum α → Bool
  | .number (.whole i) => i < -Number.indexBound || 2 * Number.indexBound ≤ i
  | .nothing | .record _ => true
  | _ => false

/-- The grain of the entries of a sequence. -/
def grainOf (entries : Array (Datum α)) : Grain :=
  if entries.any isApart then .mixed else if entries.any Datum.isText then .texts else .numbers

/-- Data as an operand. A number that stands alone is a number whatever its size. -/
def ofDatum (d : Datum α) : Except Fault (Operand α) := do
  let block ← d.arrange
  return ⟨if d.number?.isSome then .numbers else grainOf block.entries, block⟩

/-- A block of scalars as an operand of the given grain. -/
def ofBlock (grain : Grain) (b : Block α) : Operand α :=
  ⟨grain, b.map fun a => .number (.real a)⟩

variable [Numeral α]

/-- An entry that takes part in arithmetic. -/
def quantity (d : Datum α) : Except Fault α :=
  match d.number? with
  | some n => n.toScalar
  | none => .error .notCombinable

/-- Two operands combined entry by entry, and the grain of the result. -/
def combine (f : α → α → α) (first second : Operand α) : Except Fault (Grain × Block α) :=
  match first.grain, second.grain with
  | .numbers, .numbers => do
    let a ← first.block.mapM quantity
    let b ← second.block.mapM quantity
    return (.numbers, ← Block.combine (fun a b => .ok (f a b)) a b)
  | .mixed, _ | _, .mixed => do
    let pair (c d : Datum α) : Except Fault α := return f (← quantity c) (← quantity d)
    return (.mixed, ← Block.combine pair first.block second.block)
  | _, _ => .error .notCombinable

end Operand

end Descent
