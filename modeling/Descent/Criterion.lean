import Descent.Field

/-!
# Stopping criteria

A criterion looks at the gradient and the number of completed iterations and says whether to stop.

* `gradientNorm tol`: the norm of the gradient is below `tol`.
* `iterations limit`: at least `limit` iterations are complete.
* `predicate p`: a condition of the caller's, on the gradient alone or on both.
* `any members`: one of the members says so; they are asked in order until one does.

`CriterionLike.toCriterion` reads what callers give: a criterion, a number as the tolerance of a
gradient norm, or a condition.
-/

namespace Descent

/-- A condition of the caller's, on the gradient alone or also on the number of iterations. -/
inductive Condition (α σ : Type) where
  | onGradient (p : Array α → Run α σ Bool)
  | onBoth (p : Array α → Number α → Run α σ Bool)

/-- A rule that says when to stop. -/
inductive Criterion (α σ : Type) where
  | gradientNorm (tolerance : α)
  | iterations (limit : Int)
  | predicate (p : Condition α σ)
  | any (members : List (Criterion α σ))
  /-- Something that cannot be asked. It can only stand among the members of another criterion. -/
  | unusable

/-- What may be given where a criterion is expected. -/
inductive CriterionLike (α σ : Type) where
  | criterion (c : Criterion α σ)
  | condition (p : Condition α σ)
  | datum (d : Datum α)

/-- A condition on a gradient and a number of iterations. -/
def Condition.holds {α σ : Type} {n : Nat} (p : Condition α σ) (g : Vec α n)
    (count : Number α) : Run α σ Bool :=
  match p with
  | onGradient p => p g.toArray
  | onBoth p => p g.toArray count

namespace Criterion

variable {α σ : Type}

section

variable [Numeral α] {n : Nat}

mutual

/-- Whether to stop at gradient `g` after `count` iterations. -/
def holds (g : Vec α n) (count : Number α) : Criterion α σ → Run α σ Bool
  | gradientNorm tolerance => pure (decide (Vec.norm g < tolerance))
  | iterations limit => pure (count.isAtLeast limit)
  | predicate p => p.holds g count
  | any members => anyHolds g count members
  | unusable => throw .notApplicable

/-- Whether one of several criteria says to stop; the first that does ends the questions. -/
def anyHolds (g : Vec α n) (count : Number α) : List (Criterion α σ) → Run α σ Bool
  | [] => pure false
  | c :: rest => do
    if ← c.holds g count then return true else anyHolds g count rest

end

end

/-- The name of each form of criterion. -/
def kindText : Criterion α σ → String
  | gradientNorm _ => "GradientNormCriterion"
  | iterations _ => "MaxIterationCriterion"
  | predicate _ => "PredicateCriterion"
  | any _ => "AnyCriterion"
  | unusable => ""

variable [Numeral α]

/-- A criterion with its parameter, for the forms that have one. -/
def describe : Criterion α σ → Option String
  | c@(gradientNorm tolerance) => some (c.kindText ++ "(tol=" ++ Numeral.shortest tolerance ++ ")")
  | c@(iterations limit) => some (c.kindText ++ "(maxiter=" ++ toString limit ++ ")")
  | _ => none

/-- The criterion that the gradient norm is below a tolerance, whose sign is looked at first. -/
def ofTolerance (tolerance : Number α) : Except Fault (Criterion α σ) := do
  return gradientNorm (← (← tolerance.insist "tol" .nonNegative).toScalar)

/-- The criterion that a number of iterations, without its fraction, is complete. -/
def ofLimit (limit : Number α) : Except Fault (Criterion α σ) := do
  return iterations (← (← limit.insist "maxiter" .nonNegative).truncate)

end Criterion

namespace CriterionLike

variable {α σ : Type}

/-- The criterion that is meant. -/
def toCriterion [Numeral α] : CriterionLike α σ → Except Fault (Criterion α σ)
  | criterion c => .ok c
  | condition p => .ok (.predicate p)
  | datum d =>
    match d with
    | .number n => do Criterion.ofTolerance (.real (← n.toScalar))
    | _ => .error (.notCriterion d.kindText)

/-- A value as a member of `Criterion.any`, where it is asked as it stands: about the gradient and
the number of iterations. -/
def toMember : CriterionLike α σ → Criterion α σ
  | criterion c => c
  | condition p@(.onBoth _) => .predicate p
  | _ => .unusable

/-- The first criterion or the second. Data are united as data. -/
def orElse [Numeral α] (first second : CriterionLike α σ) : Except Fault (CriterionLike α σ) :=
  match first, second with
  | criterion c, _ => do return criterion (.any [c, ← second.toCriterion])
  | datum c, datum d => (c.union d).map datum
  | _, _ => .error .notCombinable

end CriterionLike

end Descent
