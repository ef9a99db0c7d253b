import Descent.Run

/-!
# Functions given by callers

A caller's function takes a point as an array and may have effects and end in a fault. A function
whose value should be a vector may return any data; `VectorField.valueAt` reads the data and insists
on a vector of the length of the point. `tabulate` makes a vector from its entries, and `sameLength`
compares two vectors.
-/

namespace Descent

/-- A function of a point with a number as its value. -/
abbrev ScalarField (α σ : Type) := Array α → Run α σ α

/-- A function of a point whose value should be a vector. -/
abbrev VectorField (α σ : Type) := Array α → Run α σ (Datum α)

/-- A predicate on points. -/
abbrev Region (α σ : Type) := Array α → Run α σ Bool

/-- Reads data as a vector of length `n`; a vector of another length is a fault that names both. -/
def Datum.toVec {α : Type} [Numeral α] (name : String) (n : Nat) (d : Datum α) :
    Except Fault (Vec α n) := do
  let entries ← d.toVector name
  if h : entries.size = n then return ⟨entries, h⟩
  else throw (.lengths name entries.size "x" n)

/-- The value of a vector field at a point, which must be a vector of the length of the point. -/
def VectorField.valueAt {α σ : Type} [Numeral α] {n : Nat} (f : VectorField α σ) (name : String)
    (x : Vec α n) : Run α σ (Vec α n) := do
  Run.ofExcept ((← f x.toArray).toVec name n)

/-- Refuses lengths that no vector has: those that are too large to be kept, those whose size in
bytes, eight for an entry, would be no index, and those that are no index themselves. -/
def checkLength (n : Nat) : Except Fault Unit :=
  if n ≤ maxLength then .ok ()
  else if n < Number.indexBound / 8 then .error .memory
  else if n < Number.indexBound then .error .tooLong
  else .error .outOfRange

/-- The vector of the first `n` values of a function of the index. -/
def tabulate {α σ : Type} [Numeral α] (entry : Nat → Run α σ α) (n : Number α) :
    Run α σ (Array α) := do
  let n ← Run.ofExcept (n.insist "n" .nonNegative)
  let count ← Run.ofExcept n.toCount
  Run.ofExcept (checkLength count)
  (Array.range count).mapM entry

/-- Refuses two vectors of different lengths under their names. -/
def sameLength {α : Type} (a b : Array α) (first second : String) : Except Fault Unit :=
  if a.size = b.size then .ok () else .error (.lengths first a.size second b.size)

end Descent
