import Descent.Proofs.Minimize.Heads
import Descent.Proofs.Scalar.Positive

/-!
# The first trial of a search

A search by conjugate gradients is refused unless the length that it tries first is positive. In
doubles that length is found by quotients that can overflow or vanish. A length that repeats the
change of the step before is only taken if it is a positive number. The length that takes its place
is one over the norm of the direction, and that is positive as long as the norm is a number. But the
norm overflows where the squares of the entries of the direction do, and one over infinity is zero.

* `Conjugate.startLength_pos`: along a direction with a finite norm the first length is positive,
  whatever the step before was;
* `Conjugate.Rule.searching_of_pos`, `Conjugate.Rule.searching_of_le`: a search with a positive
  first length is carried out, and any other one is refused;
* `search_starts`: what becomes of the search of an iteration, and `search_refused_cliff`: a
  minimization that ends in a refusal.
-/

namespace Descent

namespace Conjugate

/-- **The first length is positive along a direction with a finite norm.** -/
theorem startLength_pos {n : Nat} {d : Vec Float n} (h : (Vec.norm d).isFinite = true)
    (previous : Option (Previous Float)) (slope : Float) : 0 < startLength previous slope d := by
  have hfallback : 0 < if Vec.norm d ≤ 1 then (1 : Float) else 1 / Vec.norm d := by
    split
    · decide +kernel
    · exact Double.one_div_pos h ‹_›
  unfold startLength
  cases previous with
  | none => exact hfallback
  | some p =>
    dsimp only
    split
    · exact hfallback
    · split
      · exact hfallback
      · rename_i hkept
        simp only [Bool.or_eq_true, Bool.not_eq_true', decide_eq_true_eq, not_or,
          Bool.not_eq_false] at hkept
        exact Double.pos_of_not_le hkept.1 hkept.2

/-- Without a step before, the first length vanishes along a direction whose norm overflows. -/
theorem startLength_of_infinite {n : Nat} {d : Vec Float n} (h : Vec.norm d = 1 / 0)
    (slope : Float) : startLength none slope d = 0 := by
  have hvanishes : (if (1 / 0 : Float) ≤ 1 then (1 : Float) else 1 / (1 / 0)) = 0 := by
    decide +kernel
  unfold startLength
  rw [h]
  exact hvanishes

variable {rule : Rule Float} {start : Float}

/-- A search with a positive first length is carried out. -/
theorem Rule.searching_of_pos (h : 0 < start) : rule.searching start =
    (fun threshold => ⟨threshold, start, shrink, rounds⟩) <$> rule.threshold.toScalar := by
  have hdemand : demand (!decide (start ≤ 0)) "alpha0" .positive = .ok () := by
    rw [decide_eq_false (Double.not_le_of_pos h)]
    rfl
  rw [searching, hdemand]
  rfl

/-- A search is refused if its first length is at most zero. -/
theorem Rule.searching_of_le (h : start ≤ 0) :
    rule.searching start = .error (.parameter "alpha0" .positive) := by
  have hdemand : demand (!decide (start ≤ 0)) "alpha0" .positive =
      .error (.parameter "alpha0" .positive) := by
    rw [decide_eq_true h]
    rfl
  rw [searching, hdemand]
  rfl

end Conjugate

open Conjugate

/-- **Searches start as long as norms do not overflow.** For doubles, whatever state an iteration
has come to: along a direction with a finite norm the first length to try is positive and the search
is carried out with it. Without a step before, the search along a direction whose norm overflows is
refused. -/
theorem search_starts {σ : Type} {n : Nat} (problem : Problem Float σ n) (rule : Rule Float)
    {s t : State Float n} {slope : Float} (haim : aim s = some (t, slope)) :
    ((Vec.norm t.direction).isFinite = true →
      0 < startLength t.previous slope t.direction ∧ leg problem rule s = (do
        let threshold ← Run.ofExcept rule.threshold.toScalar
        let found ← Ray.search (Ray.through problem.gradient problem.outside t.point t.direction)
          ⟨threshold, startLength t.previous slope t.direction, shrink, rounds⟩
          (some (Vec.dot t.gradient t.direction))
        settle problem rule t slope found)) ∧
    (Vec.norm t.direction = 1 / 0 → t.previous = none →
      leg problem rule s = throw (.parameter "alpha0" .positive)) := by
  rw [leg_eq, haim]
  dsimp only
  constructor
  · intro hfinite
    have hpos := startLength_pos hfinite t.previous slope
    refine ⟨hpos, ?_⟩
    rw [seek, Rule.searching_of_pos hpos]
    cases rule.threshold.toScalar <;> rfl
  · intro hinfinite hfirst
    have hle : startLength t.previous slope t.direction ≤ 0 := by
      rw [hfirst, startLength_of_infinite hinfinite]
      decide +kernel
    rw [seek, Rule.searching_of_le hle]
    rfl

/-- The state that a minimization in the bowl starts from at `(1, 1)`. -/
def bowlHead : State Float 2 where
  point := #v[1, 1]
  gradient := #v[1, 4]
  smoothed := #v[1, 4]
  product := 17
  direction := #v[-1, -4]
  sinceRestart := 0
  previous := none
  iterations := 0
  evaluations := 1

/-- The first search in the bowl starts. -/
theorem search_starts_bowl :
    aim bowlHead = some (bowlHead, Vec.dot bowlHead.gradient bowlHead.direction) ∧
    (Vec.norm bowlHead.direction).isFinite = true ∧
    0 < startLength none (Vec.dot bowlHead.gradient bowlHead.direction) bowlHead.direction := by
  have haim : aim bowlHead = some (bowlHead, Vec.dot bowlHead.gradient bowlHead.direction) :=
    if_pos (by decide +kernel)
  have hfinite : (Vec.norm bowlHead.direction).isFinite = true := by decide +kernel
  obtain ⟨hstarts, -⟩ := search_starts ⟨bowl.valueAt "gradient", smooth none,
    fun x => Region.everywhere x.toArray, fun _ _ => pure false⟩ ⟨.real 1e-6, 2⟩ haim
  exact ⟨haim, hfinite, (hstarts hfinite).1⟩

/-- The field with the value `1e200` everywhere. -/
def cliff : VectorField Float Unit := fun _ => return .vector #[1e200]

/-- The first search along the cliff is refused, though there is nothing wrong with what was given:
any positive length would have done. -/
theorem search_refused_cliff :
    (minimizeConjugate none cliff (.vector #[0]) {} (fun x => return !(x.getD 0 0 == 0))
      none).fault? (.initial ()) = some (.parameter "alpha0" .positive) := by
  decide +kernel

end Descent
