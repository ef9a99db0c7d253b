import Descent.Scalar

/-!
# Vectors and matrices

Vectors carry their length in their type, so a sum, a difference or a product of two vectors is only
ever formed between vectors of one length. Sums, differences, negation and scaling `c * v` are the
entrywise operations of `Vector`. What is defined here are the sums of products, all of them taken
from left to right starting at zero:

* `Vec.dot`, `Vec.norm`;
* `Mat.apply` (rows against a vector) and `Mat.applyTransposed` (columns against a vector).
-/

namespace Descent

/-- A vector of length `n`. -/
abbrev Vec (α : Type) (n : Nat) := Vector α n

/-- A matrix as the vector of its `m` rows. -/
abbrev Mat (α : Type) (m n : Nat) := Vector (Vector α n) m

namespace Vec

variable {α : Type} {n : Nat}

/-- The entries of an array as a vector. -/
def ofArray (entries : Array α) : Vec α entries.size :=
  ⟨entries, rfl⟩

variable [Scalar α]

/-- The zero vector. -/
def zeros (n : Nat) : Vec α n :=
  Vector.replicate n 0

/-- The entrywise product. -/
def times (u v : Vec α n) : Vec α n :=
  Vector.zipWith (· * ·) u v

/-- The entrywise quotient. -/
def divide (u v : Vec α n) : Vec α n :=
  Vector.zipWith (· / ·) u v

/-- Every entry divided by one scalar. -/
def divideBy (v : Vec α n) (c : α) : Vec α n :=
  v.map (· / c)

/-- The point reached from `x` by going `length` along `d`. -/
def along (x : Vec α n) (length : α) (d : Vec α n) : Vec α n :=
  x + length * d

/-- The sum of the products of corresponding entries, from left to right. -/
def dot (u v : Vec α n) : α :=
  (times u v).foldl (· + ·) 0

/-- The Euclidean norm, without any rescaling. -/
def norm (v : Vec α n) : α :=
  Scalar.sqrt (dot v v)

end Vec

namespace Mat

variable {α : Type} {m n : Nat} [Scalar α]

/-- The matrix times a vector: each row against it. -/
def apply (rows : Mat α m n) (v : Vec α n) : Vec α m :=
  rows.map fun row => Vec.dot row v

/-- The transposed matrix times a vector: the rows added up with the entries as weights. -/
def applyTransposed (rows : Mat α m n) (w : Vec α m) : Vec α n :=
  (Vector.zip rows w).foldl (fun sum (row, c) => sum + row.map (· * c)) (Vec.zeros n)

end Mat

end Descent
