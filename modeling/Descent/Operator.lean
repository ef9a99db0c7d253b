import Descent.Field

/-!
# Linear operators

An `Operator` is a linear map known by what it does to a vector. Diagonal and dense operators have a
size, a wrapped map may declare one, sums and multiples have the size of what they are made of, and
all others adapt to the vector at hand.

* `Operator.size?`: the size an operator insists on.
* `Operator.add`: the sum, refused when both sizes are known and differ.
* `Operator.apply`: the image of a vector. Every operator first compares its size with the length of
  the vector; a wrapped map must return a vector of the same length.
* `Operator.dense`: the operator of a square block.
-/

namespace Descent

/-- A linear map known by its action. -/
inductive Operator (α σ : Type) where
  | zero
  | identity
  /-- Each entry times its own factor. -/
  | diagonal (factors : Array α)
  /-- A square matrix. -/
  | matrix (n : Nat) (rows : Mat α n n)
  /-- A matrix of any size given by its entries; what is built is kept in `slot`. -/
  | entries (slot : Nat) (entry : Nat → Nat → Run α σ α)
  /-- A function from vectors to vectors. -/
  | function (map : VectorField α σ) (size? : Option Int)
  | sum (left right : Operator α σ)
  | scaled (inner : Operator α σ) (factor : α)

namespace Operator

variable {α σ : Type}

/-- The name of each form of operator. -/
def kindText : Operator α σ → String
  | zero => "ZeroOperator"
  | identity => "IdentityOperator"
  | diagonal _ => "DiagonalOperator"
  | matrix .. => "DenseOperator"
  | entries .. => "EntryOperator"
  | function .. => "FunctionOperator"
  | sum .. => "SumOperator"
  | scaled .. => "ScaledOperator"

/-- The length of vectors that an operator insists on. -/
def size? : Operator α σ → Option Int
  | zero | identity | entries .. => none
  | diagonal factors => some factors.size
  | matrix n _ => some n
  | function _ size? => size?
  | sum left right => left.size? <|> right.size?
  | scaled inner _ => inner.size?

/-- The sum of two operators whose sizes do not contradict each other. -/
def add (left right : Operator α σ) : Except Fault (Operator α σ) :=
  match left.size?, right.size? with
  | some a, some b => if a = b then .ok (sum left right) else .error (.summands a b)
  | _, _ => .ok (sum left right)

/-- The operator of a square block of numbers. -/
def dense [Scalar α] (b : Block α) : Except Fault (Operator α σ) :=
  match b.shape with
  | [m, n] =>
    if m = n then
      .ok (matrix n (Vector.ofFn fun i => Vector.ofFn fun j => b.entries.getD (i * n + j) 0))
    else .error (.notSquare b.shape)
  | shape => .error (.notSquare shape)

/-- The fault of an operator that met a vector of length `n`. -/
def misfit (op : Operator α σ) (n : Nat) : Fault :=
  .operand op.kindText (op.size?.getD 0) n

/-- Refuses a vector of length `n` unless the operator has that size or none. -/
def fits (op : Operator α σ) (n : Nat) : Run α σ Unit :=
  match op.size? with
  | some size => if size = n then pure () else throw (op.misfit n)
  | none => pure ()

/-- The image of a vector. -/
def apply [Numeral α] {n : Nat} : Operator α σ → Vec α n → Run α σ (Vec α n)
  | zero, _ => pure (Vec.zeros n)
  | identity, v => pure v
  | diagonal factors, v =>
    if h : factors.size = n then pure (Vec.times ⟨factors, h⟩ v)
    else throw ((diagonal factors : Operator α σ).misfit n)
  | matrix k rows, v =>
    if h : k = n then pure (Mat.apply (h ▸ rows : Mat α n n) v)
    else throw ((matrix k rows : Operator α σ).misfit n)
  | entries slot entry, v => do
    let rows ← Run.table slot entry n
    return Mat.apply rows v
  | function map size?, v => do
    fits (function map size?) n
    let image ← Run.ofExcept ((← map v.toArray).toVector "operator output")
    if h : image.size = n then return ⟨image, h⟩ else throw (.image image.size n)
  | sum left right, v => do
    fits (sum left right) n
    let a ← left.apply v
    let b ← right.apply v
    return a + b
  | scaled inner factor, v => do
    fits (scaled inner factor) n
    let a ← inner.apply v
    return factor * a

end Operator

end Descent
