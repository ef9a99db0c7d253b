import Descent.Proofs.Exact.Real
import Descent.Proofs.Run.Lockstep
import Descent.Ray.Search

/-!
# Searches along scaled slopes

Two rays whose slopes differ by a positive factor look the same to a search, with exact real numbers
as scalars. It compares slopes with each other, with zero and with a target that is relative to the
first slope, and it divides slopes by differences of slopes.

* `Ray.Scales`: the slopes of one ray are those of another times a factor;
* `Ray.bracket_related`, `Ray.narrow_related`: the phases of a search go through the same lengths,
  with brackets whose slopes differ by the factor;
* `Ray.search_related`: searches find the same length with the same number of slopes.
-/

namespace Descent.Ray

variable {σ : Type} {J : Session ℝ σ → Session ℝ σ → Prop} {c target : ℝ}
  {first second : Ray ℝ σ}

/-- The slopes of the second ray are `c` times those of the first, and both are outside at the same
lengths. -/
structure Scales (J : Session ℝ σ → Session ℝ σ → Prop) (c : ℝ) (first second : Ray ℝ σ) :
    Prop where
  slope : ∀ length, Run.Related J (fun a b => b = c * a) (first.slope length) (second.slope length)
  outside : ∀ length, Run.Related J Eq (first.outside length) (second.outside length)

/-- A bracket with both slopes multiplied. -/
def Bracket.scaled (c : ℝ) (b : Bracket ℝ) : Bracket ℝ :=
  { b with lowerSlope := c * b.lowerSlope, upperSlope := c * b.upperSlope }

/-- The end of the first phase when all slopes are multiplied. -/
def Bracketing.scaled (c : ℝ) : Bracketing ℝ → Bracketing ℝ
  | .found length k => .found length k
  | .between b k => .between (b.scaled c) k
  | .exhausted lower k => .exhausted lower k

/-- The end of a round of the second phase when all slopes are multiplied. -/
def Round.scaled (c : ℝ) : Round ℝ → Round ℝ
  | .found length k => .found length k
  | .narrowed b k => .narrowed (b.scaled c) k

section

variable (hc : 0 < c)
include hc

theorem abs_mul_le_iff (a target : ℝ) :
    Scalar.abs a ≤ target ↔ Scalar.abs (c * a) ≤ c * target := by
  change |a| ≤ target ↔ |c * a| ≤ c * target
  rw [abs_mul, abs_of_pos hc, mul_le_mul_iff_right₀ hc]

/-- **The first phase tries the same lengths.** -/
theorem bracket_related (h : Scales J c first second) (shrink target : ℝ) :
    ∀ rounds lower lowerSlope length k,
      Run.Related J (fun p q => q = p.scaled c)
        (bracket first shrink target rounds lower lowerSlope length k)
        (bracket second shrink (c * target) rounds lower (c * lowerSlope) length k) := by
  intro rounds
  induction rounds with
  | zero => exact fun lower lowerSlope length k => .pure rfl
  | succ rounds ih =>
    intro lower lowerSlope length k
    refine .bind (h.outside length) ?_
    rintro out _ rfl
    refine .ite Iff.rfl (fun _ => ih _ _ _ _) fun _ => ?_
    refine .bind (h.slope length) ?_
    rintro slope _ rfl
    refine .ite Iff.rfl (fun _ => ih _ _ _ _) fun _ => ?_
    refine .ite (abs_mul_le_iff hc slope target) (fun _ => .pure rfl) fun _ => ?_
    exact .ite (mul_pos_iff_of_pos_left hc).symm (fun _ => .pure rfl) fun _ => ih _ _ _ _

namespace Bracket

theorem secant_scaled (b : Bracket ℝ) : (b.scaled c).secant = b.secant := by
  have hquotient : Scalar.quotient (c * b.lowerSlope * (b.upper - b.lower))
      (c * b.upperSlope - c * b.lowerSlope) =
      Scalar.quotient (b.lowerSlope * (b.upper - b.lower)) (b.upperSlope - b.lowerSlope) := by
    rw [mul_assoc, ← mul_sub]
    by_cases hzero : b.upperSlope - b.lowerSlope = 0
    · rw [hzero, mul_zero]
      simp [Scalar.quotient]
    · rw [Scalar.quotient_real hzero, Scalar.quotient_real (mul_ne_zero hc.ne' hzero),
        mul_div_mul_left _ _ hc.ne']
  exact congrArg (· >>= fun fraction => pure (b.lower - fraction)) hquotient

theorem trial_scaled (b : Bracket ℝ) : (b.scaled c).trial = b.trial := by
  rw [trial, secant_scaled hc]
  rfl

omit hc in
theorem moveUpper_scaled (b : Bracket ℝ) (length slope : ℝ) :
    (b.scaled c).moveUpper length (c * slope) = (b.moveUpper length slope).scaled c := by
  unfold moveUpper
  split
  · rw [if_pos ‹_›]
    simp only [scaled, mul_assoc]
  · rw [if_neg ‹_›]
    rfl

omit hc in
theorem moveLower_scaled (b : Bracket ℝ) (length slope : ℝ) :
    (b.scaled c).moveLower length (c * slope) = (b.moveLower length slope).scaled c := by
  unfold moveLower
  split
  · rw [if_pos ‹_›]
    simp only [scaled, mul_assoc]
  · rw [if_neg ‹_›]
    rfl

end Bracket

/-- A round of the second phase tries the same length. -/
theorem narrow_related (h : Scales J c first second) (target : ℝ) (b : Bracket ℝ) (k : Nat) :
    Run.Related J (fun p q => q = p.scaled c) (narrow first target b k)
      (narrow second (c * target) (b.scaled c) k) := by
  rw [narrow, narrow, Bracket.trial_scaled hc]
  refine .check ?_
  rintro ⟨length, repeats⟩ -
  refine .bind (h.outside length) ?_
  rintro out _ rfl
  refine .ite Iff.rfl (fun _ => .pure rfl) fun _ => ?_
  refine .bind (h.slope length) ?_
  rintro slope _ rfl
  refine .ite Iff.rfl (fun _ => .pure rfl) fun _ => ?_
  refine .ite (abs_mul_le_iff hc slope target) (fun _ => .pure rfl) fun _ => ?_
  refine .ite (mul_pos_iff_of_pos_left hc).symm (fun _ => .pure ?_) fun _ => .pure ?_
  · exact congrArg (Round.narrowed · (k + 1))
      (Bracket.moveUpper_scaled { b with repeats } length slope)
  · exact congrArg (Round.narrowed · (k + 1))
      (Bracket.moveLower_scaled { b with repeats } length slope)

/-- **The second phase tries the same lengths.** -/
theorem refine_related (h : Scales J c first second) (target : ℝ) : ∀ rounds b k,
    Run.Related J Eq (refine first target rounds b k)
      (refine second (c * target) rounds (b.scaled c) k) := by
  intro rounds
  induction rounds with
  | zero => exact fun b k => .pure rfl
  | succ rounds ih =>
    intro b k
    refine .ite Iff.rfl (fun _ => .pure rfl) fun _ => ?_
    refine .bind (narrow_related hc h target b k) ?_
    rintro round _ rfl
    cases round with
    | found length k => exact .pure rfl
    | narrowed b k => exact ih b k

theorem descend_related (h : Scales J c first second) (rule : Rule ℝ) (slope : ℝ) (k : Nat) :
    Run.Related J Eq (descend first rule slope k) (descend second rule (c * slope) k) := by
  have hdescends : slope < 0 ↔ c * slope < 0 := by
    rw [← mul_lt_mul_iff_right₀ hc, mul_zero]
  have htarget : rule.threshold * Scalar.abs (c * slope) =
      c * (rule.threshold * Scalar.abs slope) := by
    change rule.threshold * |c * slope| = c * (rule.threshold * |slope|)
    rw [abs_mul, abs_of_pos hc, mul_left_comm]
  refine .ite (by simpa using not_congr hdescends) (fun _ => .pure rfl) fun _ => ?_
  dsimp only
  rw [htarget]
  refine .bind (bracket_related hc h _ _ _ _ _ _ _) ?_
  rintro found _ rfl
  cases found with
  | found length k => exact .pure rfl
  | between b k => exact refine_related hc h _ _ b k
  | exhausted lower k => exact .pure rfl

/-- **Searches find the same length.** -/
theorem search_related (h : Scales J c first second) (rule : Rule ℝ) (slope : ℝ) :
    Run.Related J Eq (search first rule (some slope)) (search second rule (some (c * slope))) :=
  .check fun _ _ => descend_related hc h rule slope 0

end

end Descent.Ray
