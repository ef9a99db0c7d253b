import Descent.Scalar
import Descent.Fault

/-!
# Numbers as they were given

Callers give numbers as integers of any size or as scalars of the arithmetic. A `Number` keeps
which it was, because an integer may lie outside the range of the arithmetic or between two of its
scalars.

* `Number.toScalar` takes a number into the arithmetic, which fails outside its range;
* `Number.isBelow`, `Number.isAtMost` and `Number.isAtLeast` compare a number exactly with an
  integer; what cannot be compared is neither below nor above any;
* `Number.insist` refuses a number that does not satisfy its bound;
* `Number.ceiling` is the scalar that stands for a number on the right of `<`;
* `Number.roundsBelow`, `Number.roundsUntil` are the numbers of rounds of a loop that counts up to a
  number.
-/

namespace Descent

/-- A number as it was given; whole numbers are kept exactly. -/
inductive Number (α : Type) where
  | whole (i : Int)
  | real (a : α)

namespace Number

/-- More rounds than any run makes, in the place of a budget without an end. -/
def endless : Nat := 1000000000000

variable {α : Type} [Numeral α]

/-- The scalar nearest to a number. -/
def toScalar : Number α → Except Fault α
  | .whole i =>
    match Numeral.ofInt? i with
    | some a => .ok a
    | none => .error .outOfRange
  | .real a => .ok a

/-- Whether a number is below a bound. -/
def isBelow (bound : Nat) : Number α → Bool
  | .whole i => i < bound
  | .real a => a < Scalar.ofNat bound

/-- Whether a number is a bound or below it. -/
def isAtMost (bound : Nat) : Number α → Bool
  | .whole i => i ≤ bound
  | .real a => a ≤ Scalar.ofNat bound

/-- Whether a number is an integer or above it. -/
def isAtLeast (bound : Int) : Number α → Bool
  | .whole i => bound ≤ i
  | .real a => Numeral.leastFrom bound ≤ a

/-- The scalar that scalars are compared with to see whether they are below a number. -/
def ceiling : Number α → α
  | .whole i => Numeral.leastFrom i
  | .real a => a

/-- Whether a number satisfies a bound. What cannot be compared is refused only by a bound on both
sides. -/
def admits (bound : Bound) (n : Number α) : Bool :=
  match bound with
  | .nonNegative => !n.isBelow 0
  | .positive => !n.isAtMost 0
  | .openUnit => 0 < n.ceiling && n.ceiling < 1
  | .atLeastOne => !n.isBelow 1
  | .aboveOne => !n.isAtMost 1

/-- A number that satisfies a bound; `name` is what the fault calls it. -/
def insist (n : Number α) (name : String) (bound : Bound) : Except Fault (Number α) := do
  demand (n.admits bound) name bound
  return n

/-- The integer part of a number, toward zero. -/
def truncate : Number α → Except Fault Int
  | .whole i => .ok i
  | .real a =>
    match Numeral.truncate? a with
    | some i => .ok i
    | none => .error (if a == a then .outOfRange else .noInteger)

/-- Indices, lengths and numbers of repetitions are below this bound in size. -/
def indexBound : Nat := Nat.pow 2 63

/-- A number as a count of things: it must be whole, and below zero there are none. -/
def toCount : Number α → Except Fault Nat
  | .whole i => .ok i.toNat
  | .real _ => .error .notNumber

/-- How often something is repeated. The number must be whole and could be an index; below zero it
stands for not at all. -/
def toRepeats : Number α → Except Fault Nat
  | .whole i =>
    if i < indexBound && -indexBound ≤ i then .ok i.toNat else .error .outOfRange
  | .real _ => .error .notCombinable

/-- How many counts from zero on come before a scalar, none when there is no end to them. -/
def countsBefore? (a : α) : Option Nat :=
  match Numeral.truncate? a with
  | none => none
  | some i =>
    match (Numeral.ofInt? i : Option α) with
    | some b => some (if b < a then (i + 1).toNat else i.toNat)
    | none => some i.toNat

/-- The rounds of a loop that goes on while its count is below a number. The counts below infinity
have no end: there the loop is cut off after `endless` rounds, where one without a bound would go
on. No count is below a not-a-number. -/
def roundsBelow : Number α → Nat
  | .whole i => i.toNat
  | .real a => (countsBefore? a).getD (if 0 < a then endless else 0)

/-- The rounds of a loop that goes on until its count reaches a number. No count reaches infinity or
a not-a-number: there the loop is cut off after `endless` rounds, where one without a bound would
go on. -/
def roundsUntil : Number α → Nat
  | .whole i => i.toNat
  | .real a => (countsBefore? a).getD (if a < 0 then 0 else endless)

/-- The sum of two numbers, exact for whole ones. -/
def add : Number α → Number α → Except Fault (Number α)
  | .whole i, .whole k => .ok (.whole (i + k))
  | m, n => do return .real ((← m.toScalar) + (← n.toScalar))

/-- The product of two numbers, exact for whole ones. -/
def mul : Number α → Number α → Except Fault (Number α)
  | .whole i, .whole k => .ok (.whole (i * k))
  | m, n => do return .real ((← m.toScalar) * (← n.toScalar))

end Number

end Descent
