/-!
# Faults

Everything that can go wrong in a run is a `Fault`: a cause with the data that belong to it. The
kind of a fault and its wording are functions of the cause. A fault without a wording of its own,
such as text that is no number, has no message.
-/

namespace Descent

/-- What a parameter must satisfy. -/
inductive Bound where
  | nonNegative
  | positive
  | openUnit
  | atLeastOne
  | aboveOne
  deriving DecidableEq, Repr

/-- The wording of a bound, to follow the name of the parameter. -/
def Bound.text : Bound → String
  | .nonNegative => "must be non-negative"
  | .positive => "must be positive"
  | .openUnit => "must lie in (0, 1)"
  | .atLeastOne => "must be at least 1"
  | .aboveOne => "must be greater than 1"

/-- Why a run ends without a result. -/
inductive Fault where
  /-- A vector was expected and the data have another number of axes. -/
  | rank (name : String) (shape : List Nat)
  /-- Two vectors that belong together differ in length. -/
  | lengths (first : String) (firstLength : Nat) (second : String) (secondLength : Nat)
  /-- An operator of a fixed size met a vector of another length. -/
  | operand (kind : String) (size : Int) (length : Nat)
  /-- A map used as an operator returned a vector of another length. -/
  | image (length expected : Nat)
  /-- Two operators of different fixed sizes cannot be added. -/
  | summands (left right : Int)
  /-- A dense operator needs as many rows as columns. -/
  | notSquare (shape : List Nat)
  /-- A sequence of numbers was expected. -/
  | notSequence (name : String)
  /-- A value that is no linear operator. -/
  | notOperator (kind : String)
  /-- A value that is no stopping criterion. -/
  | notCriterion (kind : String)
  /-- A parameter outside its bound. -/
  | parameter (name : String) (bound : Bound)
  /-- Some constraints of a family come with this derivative and some without. -/
  | partialDerivative (what : String)
  /-- The method needs second derivatives of the barrier. -/
  | hessianNeeded
  /-- The barrier has no second derivatives. -/
  | hessianMissing
  /-- Nested data whose rows differ in shape, or that are nested too deeply. -/
  | ragged
  /-- Text that is no number. -/
  | unreadable
  /-- A not-a-number where an integer is needed. -/
  | noInteger
  /-- A value that cannot be a number at all. -/
  | notNumber
  /-- A number out of the range of the arithmetic, or of all lengths. -/
  | outOfRange
  /-- A length that no vector can have. -/
  | tooLong
  /-- A vector, a sequence or a text that is too long to be kept. -/
  | memory
  /-- A quotient with a divisor of zero. -/
  | divisionByZero
  /-- Vectors of different lengths in one arithmetic operation. -/
  | unequal
  /-- A value that cannot be applied to arguments. -/
  | notApplicable
  /-- An operator combined with something that does not combine with it. -/
  | notCombinable
  /-- A line format without any field. -/
  | format
  /-- A logging level that is neither a number nor a name. -/
  | level
  /-- A name that stands for something else than a logging level. -/
  | levelName
  deriving DecidableEq, Repr

namespace Fault

/-- The kinds of faults that a caller may want to tell apart. -/
inductive Kind where
  | dimension
  | value
  | type
  | overflow
  | memory
  | division
  | unsupported
  deriving DecidableEq, Repr

/-- The kind of a fault. -/
def kind : Fault → Kind
  | rank .. | lengths .. | operand .. | image .. | summands .. | notSquare .. => .dimension
  | notSequence .. | notOperator .. | notCriterion .. | notNumber | notApplicable | notCombinable
  | level => .type
  | parameter .. | partialDerivative .. | hessianNeeded | ragged | unreadable | noInteger | unequal
  | tooLong | format | levelName => .value
  | outOfRange => .overflow
  | memory => .memory
  | divisionByZero => .division
  | hessianMissing => .unsupported

/-- A shape in parentheses; a single axis keeps a comma. -/
def shapeText : List Nat → String
  | [] => "()"
  | [n] => "(" ++ n.repr ++ ",)"
  | shape => "(" ++ String.intercalate ", " (shape.map Nat.repr) ++ ")"

/-- The wording of a fault, if it has one. -/
def message : Fault → Option String
  | rank name shape => some s!"{name} must be one-dimensional, got shape {shapeText shape}"
  | lengths a m b n => some s!"{a} has length {m} but {b} has length {n}"
  | operand kind size length => some s!"{kind} of size {size} applied to vector of length {length}"
  | image length expected =>
    some s!"operator returned length {length} for input of length {expected}"
  | summands a b => some s!"cannot add operators of sizes {a} and {b}"
  | notSquare shape => some s!"matrix must be square, got shape {shapeText shape}"
  | notSequence name => some s!"{name} must be a sequence of real numbers"
  | notOperator kind => some s!"cannot interpret {kind} as a linear operator"
  | notCriterion kind => some s!"cannot interpret {kind} as a stopping criterion"
  | parameter name bound => some s!"{name} {bound.text}"
  | partialDerivative what => some s!"either all constraints or none must provide a {what}"
  | hessianNeeded => some "truncated Newton needs a barrier with a Hessian"
  | hessianMissing => some "CustomBarrier does not provide a Hessian"
  | _ => none

end Fault

/-- Refuses a parameter unless it satisfies its bound. -/
def demand (satisfied : Bool) (name : String) (bound : Bound) : Except Fault Unit :=
  if satisfied then .ok () else .error (.parameter name bound)

end Descent
