import Descent.Ray
import Descent.Scalar.Quotient

/-!
# The search along a ray

`Ray.search` looks for a length at which the slope has become small: at most `threshold` times the
slope at the start, in absolute value. Only slopes are used, no values.

* `Ray.bracket` doubles the length while the slope stays negative and shrinks it while the point is
  outside the domain or the slope is not finite. It ends at a small slope, at a positive one, which
  together with the last negative one forms a `Bracket`, or when its rounds run out.
* `Ray.refine` narrows a bracket by false position. The value kept at one end is halved each time
  the other end moves twice in a row (the Illinois rule), and the bracket is bisected when that has
  happened twice or when the secant leaves the bracket.

The length returned is the start, a length with a small slope, or the largest one known to lie
before the minimum.
-/

namespace Descent.Ray

/-- How a search is carried out. -/
structure Rule (α : Type) where
  /-- The slope to reach, relative to the slope at the start. -/
  threshold : α
  /-- The first length to try. -/
  start : α
  /-- The factor by which a length outside the domain is drawn back. -/
  shrink : α
  /-- The number of rounds of each of the two phases. -/
  rounds : Nat

/-- What a search returns: a length and the number of slopes that were computed. -/
structure Found (α : Type) where
  length : α
  evaluations : Nat

/-- The end of a bracket that moved last. -/
inductive Side where
  | none
  | lower
  | upper
  deriving DecidableEq, Repr

/-- Two lengths with the minimum between them. -/
structure Bracket (α : Type) where
  lower : α
  /-- The slope at the lower end, perhaps halved. It is negative. -/
  lowerSlope : α
  upper : α
  /-- The slope at the upper end, perhaps halved. It is positive. -/
  upperSlope : α
  /-- The end that moved last. -/
  side : Side
  /-- How many times in a row that end has moved again. -/
  repeats : Nat

/-- How the first phase ends. -/
inductive Bracketing (α : Type) where
  | found (length : α) (evaluations : Nat)
  | between (bracket : Bracket α) (evaluations : Nat)
  | exhausted (lower : α) (evaluations : Nat)

section

variable {α σ : Type} [Scalar α]

/-- The first phase, in at most `rounds` rounds: `lower` is the last length with a negative slope,
`length` the next one to try. -/
def bracket (ray : Ray α σ) (shrink target : α) :
    (rounds : Nat) → (lower lowerSlope length : α) → (evaluations : Nat) →
      Run α σ (Bracketing α)
  | 0, lower, _, _, k => return .exhausted lower k
  | rounds + 1, lower, lowerSlope, length, k => do
    if ← ray.outside length then
      bracket ray shrink target rounds lower lowerSlope (lower + shrink * (length - lower)) k
    else
      let slope ← ray.slope length
      if !Scalar.isFinite slope then
        bracket ray shrink target rounds lower lowerSlope (lower + shrink * (length - lower))
          (k + 1)
      else if Scalar.abs slope ≤ target then
        return .found length (k + 1)
      else if 0 < slope then
        return .between ⟨lower, lowerSlope, length, slope, .none, 0⟩ (k + 1)
      else
        bracket ray shrink target rounds length slope (length * 2.0) (k + 1)

namespace Bracket

/-- The zero of the straight line through the two slopes, which must differ. -/
def secant (b : Bracket α) : Except Fault α := do
  let fraction ← Scalar.quotient (b.lowerSlope * (b.upper - b.lower))
    (b.upperSlope - b.lowerSlope)
  return b.lower - fraction

/-- The middle of the bracket. -/
def middle (b : Bracket α) : α :=
  0.5 * (b.lower + b.upper)

/-- The next length to try. The middle takes the place of the secant when one end has moved three
times in a row and when the secant is not inside. -/
def trial (b : Bracket α) : Except Fault (α × Nat) := do
  let length ← b.secant
  if 2 ≤ b.repeats || !(b.lower < length && length < b.upper) then return (b.middle, 0)
  else return (length, b.repeats)

/-- The bracket is as narrow as its position can resolve. -/
def isNarrow (b : Bracket α) : Bool :=
  b.upper - b.lower ≤ 1e-15 * b.upper

/-- The upper end moved to a length where nothing is known of the slope. -/
def cutAt (b : Bracket α) (length : α) : Bracket α :=
  { b with upper := length, side := .none }

/-- The upper end moved to a length with a positive slope. -/
def moveUpper (b : Bracket α) (length slope : α) : Bracket α :=
  if b.side = .upper then
    { b with
      upper := length, upperSlope := slope, lowerSlope := b.lowerSlope * 0.5, side := .upper
      repeats := b.repeats + 1 }
  else { b with upper := length, upperSlope := slope, side := .upper, repeats := 0 }

/-- The lower end moved to a length with a negative slope. -/
def moveLower (b : Bracket α) (length slope : α) : Bracket α :=
  if b.side = .lower then
    { b with
      lower := length, lowerSlope := slope, upperSlope := b.upperSlope * 0.5, side := .lower
      repeats := b.repeats + 1 }
  else { b with lower := length, lowerSlope := slope, side := .lower, repeats := 0 }

end Bracket

/-- What one round of the second phase leads to. -/
inductive Round (α : Type) where
  /-- The slope is small at this length. -/
  | found (length : α) (evaluations : Nat)
  | narrowed (bracket : Bracket α) (evaluations : Nat)

/-- One round of the second phase. -/
def narrow (ray : Ray α σ) (target : α) (b : Bracket α) (k : Nat) : Run α σ (Round α) := do
  let (length, repeats) ← Run.ofExcept b.trial
  let b := { b with repeats }
  if ← ray.outside length then
    return .narrowed (b.cutAt length) k
  else
    let slope ← ray.slope length
    if !Scalar.isFinite slope then return .narrowed (b.cutAt length) (k + 1)
    else if Scalar.abs slope ≤ target then return .found length (k + 1)
    else if 0 < slope then return .narrowed (b.moveUpper length slope) (k + 1)
    else return .narrowed (b.moveLower length slope) (k + 1)

/-- The second phase, in at most `rounds` rounds. -/
def refine (ray : Ray α σ) (target : α) :
    (rounds : Nat) → Bracket α → (evaluations : Nat) → Run α σ (Found α)
  | 0, b, k => return ⟨b.lower, k⟩
  | rounds + 1, b, k => do
    if b.isNarrow then return ⟨b.lower, k⟩
    else
      match ← narrow ray target b k with
      | .found length k => return ⟨length, k⟩
      | .narrowed b k => refine ray target rounds b k

/-- The parameters that a search insists on. -/
def Rule.check (rule : Rule α) : Except Fault Unit := do
  demand (!decide (rule.threshold ≤ 0)) "threshold" .positive
  demand (0 < rule.shrink && rule.shrink < 1) "shrink" .openUnit
  demand (!decide (rule.start ≤ 0)) "alpha0" .positive

/-- The search from a start whose slope is `slope`; `k` slopes have been computed so far. -/
def descend (ray : Ray α σ) (rule : Rule α) (slope : α) (k : Nat) : Run α σ (Found α) := do
  if !decide (slope < 0) then return ⟨0, k⟩
  else
    let target := rule.threshold * Scalar.abs slope
    match ← bracket ray rule.shrink target rule.rounds 0 slope rule.start k with
    | .found length k => return ⟨length, k⟩
    | .exhausted lower k => return ⟨lower, k⟩
    | .between b k => refine ray target rule.rounds b k

/-- Looks for a length with a small slope. The slope at the start is computed unless it is known.
Where the function does not descend the length is zero. -/
def search (ray : Ray α σ) (rule : Rule α) (known : Option α) : Run α σ (Found α) := do
  Run.ofExcept rule.check
  match known with
  | some slope => descend ray rule slope 0
  | none => descend ray rule (← ray.slope 0) 1

end

/-- What callers can set. -/
structure Options (α : Type) [Scalar α] where
  threshold : α := 1e-6
  start : α := 1
  shrink : α := 0.5
  /-- The number of rounds, which must be a whole number. -/
  rounds : Datum α := .number (.whole 60)

/-- The rule that callers have set, but for the number of rounds. -/
def Options.rule {α : Type} [Scalar α] (o : Options α) (rounds : Nat) : Rule α :=
  ⟨o.threshold, o.start, o.shrink, rounds⟩

/-- The search for arrays as callers give them. The number of rounds they have set is only looked at
where the function descends. -/
def searchArrays {α σ : Type} [Numeral α] (gradient : VectorField α σ) (x d : Array α)
    (options : Options α) (outside : Region α σ) (gradientAtStart : Option (Array α)) :
    Run α σ (Found α) := do
  let ray := stretched gradient outside x d
  Run.ofExcept (options.rule 0).check
  let (slope, k) ← match gradientAtStart with
    | some g => do pure (← Run.ofExcept (product g d), 0)
    | none => do pure (← ray.slope 0, 1)
  if !decide (slope < 0) then return ⟨0, k⟩
  else
    let rounds ← Run.ofExcept (options.rounds.toNumber >>= Number.toCount)
    descend ray (options.rule rounds) slope k

end Descent.Ray
