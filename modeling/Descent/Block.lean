import Descent.Fault

/-!
# Blocks

A block is a rectangular arrangement of entries along any number of axes, kept in row-major order: a
vector has one axis, a matrix two, a single entry none. Two blocks are combined entry by entry after
they have been stretched to a common shape: axes are compared from the last one on, an axis of
length one is repeated, and a missing axis counts as one of length one.

* `commonLength` and `Block.commonShape`: what two axes or shapes are stretched to;
* `Block.stretch`: a block brought to a shape;
* `Block.combine`: two blocks entry by entry.
-/

namespace Descent

/-- A rectangular block of entries in row-major order. -/
structure Block (β : Type) where
  shape : List Nat
  entries : Array β

/-- The common length of two axes in an entrywise operation. -/
def commonLength (m n : Nat) : Except Fault Nat :=
  if m = n then .ok m
  else if m = 1 then .ok n
  else if n = 1 then .ok m
  else .error .unequal

namespace Block

variable {β γ δ : Type}

/-- A block without axes. -/
def single (entry : β) : Block β :=
  ⟨[], #[entry]⟩

/-- The block with a function applied to every entry. -/
def map (f : β → γ) (b : Block β) : Block γ :=
  ⟨b.shape, b.entries.map f⟩

/-- The block of the values of a function that may fail at an entry; the first failure decides. -/
def mapM (f : β → Except Fault γ) (b : Block β) : Except Fault (Block γ) := do
  return ⟨b.shape, ← b.entries.mapM f⟩

/-- A block with one axis as a vector; `name` is what faults call it. -/
def toVector (name : String) (b : Block β) : Except Fault (Array β) :=
  match b.shape with
  | [_] => .ok b.entries
  | shape => .error (.rank name shape)

/-- The common shape of two, with the last axis first. -/
def commonReversed : List Nat → List Nat → Except Fault (List Nat)
  | [], shape => .ok shape
  | shape, [] => .ok shape
  | m :: first, n :: second => do
    let length ← commonLength m n
    return length :: (← commonReversed first second)

/-- The shape that two blocks are stretched to. -/
def commonShape (first second : List Nat) : Except Fault (List Nat) :=
  (commonReversed first.reverse second.reverse).map List.reverse

/-- The first `count` pieces of `size` entries each. -/
def pieces (size : Nat) : (count : Nat) → List β → List (List β)
  | 0, _ => []
  | count + 1, entries => entries.take size :: pieces size count (entries.drop size)

/-- The entries of a block stretched along its axes, each given with its own length and the length
it is brought to. -/
def stretchAlong : List (Nat × Nat) → List β → List β
  | [], entries => entries
  | (own, length) :: axes, entries =>
    let size := axes.foldl (fun size axis => size * axis.1) 1
    let stretched := ((pieces size own entries).map (stretchAlong axes)).flatten
    if own = length then stretched else (List.replicate length stretched).flatten

/-- The entries of a block brought to a shape. -/
def stretch (shape : List Nat) (b : Block β) : List β :=
  let own := List.replicate (shape.length - b.shape.length) 1 ++ b.shape
  stretchAlong (own.zip shape) b.entries.toList

/-- Two blocks combined entry by entry, in order; the first entry that cannot be combined decides
the fault, after the shapes. -/
def combine (f : β → γ → Except Fault δ) (first : Block β) (second : Block γ) :
    Except Fault (Block δ) := do
  let shape ← commonShape first.shape second.shape
  let pairs := (first.stretch shape).zip (second.stretch shape)
  let entries ← pairs.mapM fun (a, b) => f a b
  return ⟨shape, entries.toArray⟩

end Block

end Descent
