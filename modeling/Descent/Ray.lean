import Descent.Field

/-!
# Rays

A line search sees of a problem only what happens on the ray `x + length * direction`: the slope of
the function there and whether the point is outside its domain. `Ray` is that restriction.

* `Ray.through` restricts a gradient and a domain between vectors of one length.
* `Ray.stretched` restricts them between arrays whose lengths may differ. An array of length one is
  stretched to the length of the other; any other difference is a fault. A product of arrays of
  different lengths is a fault as well.
-/

namespace Descent

/-- A function restricted to a ray: its slope along the ray, and where the ray is outside the
domain. -/
structure Ray (α σ : Type) where
  slope : α → Run α σ α
  outside : α → Run α σ Bool

/-- The predicate of a problem without a domain: no point is outside. -/
def Region.everywhere {α σ : Type} : Region α σ := fun _ => pure false

namespace Ray

variable {α σ : Type}

/-- The restriction to the ray from `x` along `d`. -/
def through [Scalar α] {n : Nat} (gradient : Vec α n → Run α σ (Vec α n))
    (outside : Vec α n → Run α σ Bool) (x d : Vec α n) : Ray α σ where
  slope length := do
    let g ← gradient (Vec.along x length d)
    return Vec.dot g d
  outside length := outside (Vec.along x length d)

/-- An array brought to a length: a single entry is repeated. -/
def stretch [Scalar α] (length : Nat) (a : Array α) : Array α :=
  if a.size = length then a else Array.replicate length (a.getD 0 0)

/-- The product of two arrays of one length. -/
def product [Scalar α] (a b : Array α) : Except Fault α :=
  if h : b.size = a.size then .ok (Vec.dot (Vec.ofArray a) ⟨b, h⟩) else .error .unequal

/-- The point at a length along the ray between arrays. -/
def pointAt [Scalar α] (x d : Array α) (length : α) : Except Fault (Array α) := do
  let n ← commonLength x.size d.size
  return Array.zipWith (· + ·) (stretch n x) (stretch n (d.map (length * ·)))

/-- The restriction to the ray from `x` along `d` between arrays. -/
def stretched [Numeral α] (gradient : VectorField α σ) (outside : Region α σ) (x d : Array α) :
    Ray α σ where
  slope length := do
    let point ← Run.ofExcept (pointAt x d length)
    let g ← gradient.valueAt "gradient" (Vec.ofArray point)
    Run.ofExcept (product g.toArray d)
  outside length := do
    let point ← Run.ofExcept (pointAt x d length)
    outside point

end Ray

end Descent
