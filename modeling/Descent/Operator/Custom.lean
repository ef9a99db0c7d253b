import Descent.Operator
import Descent.Ray

/-!
# Operators of the callers' own

An `Operator` knows how it acts. Callers may also bring operators of their own, and add and scale
them like any other. Such an operator may declare a size, and a vector is checked against it before
the operator is asked. Its image is taken as it is: nobody looks at the length of it, so an operator
of the library may meet an image of any length. `CustomOperator` therefore acts on arrays.

* `CustomOperator.size?`, `CustomOperator.add`: as for operators of the library.
* `CustomOperator.apply`: the image of an array. The images that a sum adds up are stretched to a
  common length; if there is none, that is a fault.
* `CustomOperator.actsOn`: the images as vectors of one length, for whoever multiplies them with a
  vector of that length.
-/

namespace Descent

/-- An operator of the library, one of the callers' own, or a sum or a multiple of operators. -/
inductive CustomOperator (α σ : Type) where
  | library (op : Operator α σ)
  /-- An operator of the callers' own: the name of its form, the length of vectors that it insists
  on, and what it makes of a vector that has this length. -/
  | own (kind : String) (size? : Option Int) (action : Array α → Run α σ (Array α))
  | sum (left right : CustomOperator α σ)
  | scaled (inner : CustomOperator α σ) (factor : α)

/-- Two arrays combined entry by entry. An array of one entry is stretched to the length of the
other; any other difference is a fault. -/
def Ray.entrywise {α : Type} [Scalar α] (f : α → α → α) (a b : Array α) :
    Except Fault (Array α) := do
  let n ← commonLength a.size b.size
  return Array.zipWith f (stretch n a) (stretch n b)

namespace CustomOperator

variable {α σ : Type}

/-- The name of each form of operator. -/
def kindText : CustomOperator α σ → String
  | library op => op.kindText
  | own kind .. => kind
  | sum .. => "SumOperator"
  | scaled .. => "ScaledOperator"

/-- The length of vectors that an operator insists on. -/
def size? : CustomOperator α σ → Option Int
  | library op => op.size?
  | own _ size? _ => size?
  | sum left right => left.size? <|> right.size?
  | scaled inner _ => inner.size?

/-- The sum of two operators whose sizes do not contradict each other. -/
def add (left right : CustomOperator α σ) : Except Fault (CustomOperator α σ) :=
  match left.size?, right.size? with
  | some a, some b => if a = b then .ok (sum left right) else .error (.summands a b)
  | _, _ => .ok (sum left right)

/-- The fault of an operator that met a vector of length `n`. -/
def misfit (op : CustomOperator α σ) (n : Nat) : Fault :=
  .operand op.kindText (op.size?.getD 0) n

/-- Refuses a vector of length `n` unless the operator has that size or none. -/
def fits (op : CustomOperator α σ) (n : Nat) : Run α σ Unit :=
  match op.size? with
  | some size => if size = n then pure () else throw (op.misfit n)
  | none => pure ()

variable [Numeral α]

/-- The image of an array. What an operator of the callers' own returns is the image, whatever its
length is. -/
def apply : CustomOperator α σ → Array α → Run α σ (Array α)
  | library op, v => do
    let image ← op.apply (Vec.ofArray v)
    return image.toArray
  | own kind size? action, v => do
    fits (own kind size? action) v.size
    action v
  | sum left right, v => do
    fits (sum left right) v.size
    let a ← left.apply v
    let b ← right.apply v
    Run.ofExcept (Ray.entrywise (· + ·) a b)
  | scaled inner factor, v => do
    fits (scaled inner factor) v.size
    let a ← inner.apply v
    return a.map (factor * ·)

/-- The images of vectors of length `n`, to be multiplied with such vectors: a product with an array
of another length is a fault. -/
def actsOn (op : CustomOperator α σ) (n : Nat) (v : Vec α n) : Run α σ (Vec α n) := do
  let image ← op.apply v.toArray
  if h : image.size = n then return ⟨image, h⟩ else throw .unequal

end CustomOperator

end Descent
