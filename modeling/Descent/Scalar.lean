/-!
# Scalars

The solvers are written once for every arithmetic. `Scalar` holds the operations they use: the field
operations, square root and logarithm, order tests, and a test that tells finite values from the
rest. The one law asked for is that zero equals itself, so doubles with their roundings, infinities
and not-a-numbers are an instance just as well as exact real numbers; whatever a theorem needs
beyond the operations it states itself.

`Numeral` adds what is needed where scalars enter or leave: reading them from integers and text, and
writing them.
-/

namespace Descent

/-- An arithmetic to run the solvers on. -/
class Scalar (α : Type) extends Add α, Sub α, Mul α, Div α, Neg α, Zero α, One α, OfScientific α,
    LT α, LE α, BEq α where
  decidableLT : DecidableLT α
  decidableLE : DecidableLE α
  /-- The square root. -/
  sqrt : α → α
  /-- The natural logarithm. -/
  log : α → α
  /-- The absolute value. -/
  abs : α → α
  /-- Neither infinite nor undefined. -/
  isFinite : α → Bool
  /-- The scalar that stands for a count. -/
  ofNat : Nat → α
  zero_beq_zero : ((0 : α) == 0) = true

/-- Order tests of an arithmetic can be run. -/
instance Scalar.instDecidableLT {α : Type} [Scalar α] (a b : α) : Decidable (a < b) :=
  Scalar.decidableLT a b

/-- Order tests of an arithmetic can be run. -/
instance Scalar.instDecidableLE {α : Type} [Scalar α] (a b : α) : Decidable (a ≤ b) :=
  Scalar.decidableLE a b

/-- An arithmetic whose scalars can be read and written. -/
class Numeral (α : Type) extends Scalar α where
  /-- The scalar nearest to an integer, none when it is out of range. -/
  ofInt? : Int → Option α
  /-- The least scalar that is not below an integer: exactly the scalars below the one are below the
  other. -/
  leastFrom : Int → α
  /-- The scalar that a text denotes, none when it denotes none. -/
  ofText? : String → Option α
  /-- The scalar that stands for a missing value. -/
  missing : α
  /-- The integer part, none when there is none. -/
  truncate? : α → Option Int
  /-- Scientific notation with the given number of places. -/
  scientific : Nat → α → String
  /-- The shortest text that reads back. -/
  shortest : α → String

namespace Scalar

variable {α : Type} [Scalar α]

/-- The larger of a bound and a value; a value that cannot be compared yields the bound. -/
def atLeast (bound a : α) : α :=
  if bound < a then a else bound

/-- The smaller of a bound and a value; a value that cannot be compared yields the bound. -/
def atMost (bound a : α) : α :=
  if a < bound then a else bound

end Scalar

end Descent
