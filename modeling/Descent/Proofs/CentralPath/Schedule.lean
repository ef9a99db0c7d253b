import Descent.Proofs.Exact.Number
import Descent.CentralPath

/-!
# Schedules of central paths

The schedule fixes a path in advance, but for the functions that are minimized on it.

* `CentralPath.Schedule.scaleOf`: the scale of every stage; `CentralPath.Schedule.budget`: how many
  stages there may be;
* `CentralPath.Options.schedule_bounds`: the bounds within which a schedule that was read lies;
* `CentralPath.Schedule.scaleOf_exact`: over the reals the scales are a geometric sequence, and
  `CentralPath.Options.exists_isLeast` names the stage at which the gap is small enough.
-/

namespace Descent.CentralPath

section

variable {α : Type} [Numeral α] {path : Options α} {schedule : Schedule α}

/-- The scale of the stage with an index: the first is given, and each is the one before times the
factor. -/
def Schedule.scaleOf (schedule : Schedule α) : (index : Nat) → Except Fault α
  | 0 => schedule.initialScale.toScalar
  | index + 1 => do
    let scale ← schedule.scaleOf index
    let factor ← schedule.scaleFactor.toScalar
    return scale * factor

/-- The number of stages that there may be. -/
def Schedule.budget (schedule : Schedule α) : Nat :=
  schedule.maxStages.roundsUntil - 1 + 1

theorem Schedule.scaleOf_succ {index : Nat} {scale factor : α}
    (hscale : schedule.scaleOf index = .ok scale)
    (hfactor : schedule.scaleFactor.toScalar = .ok factor) :
    schedule.scaleOf (index + 1) = .ok (scale * factor) := by
  rw [scaleOf, hscale, hfactor]
  rfl

/-- Every part of a schedule is within its bounds. -/
theorem Options.schedule_bounds (h : path.schedule = .ok schedule) :
    schedule.dualityGap.admits .positive = true ∧ schedule.initialScale.admits .positive = true ∧
      schedule.scaleFactor.admits .aboveOne = true ∧
      schedule.maxStages.admits .atLeastOne = true := by
  obtain ⟨_, hgap, h⟩ := Fault.bind_eq_ok h
  obtain ⟨_, hinitial, h⟩ := Fault.bind_eq_ok h
  obtain ⟨_, hfactor, h⟩ := Fault.bind_eq_ok h
  obtain ⟨_, hbudget, h⟩ := Fault.bind_eq_ok h
  cases h
  exact ⟨Datum.admits_of_insist hgap, Datum.admits_of_insist hinitial,
    Datum.admits_of_insist hfactor, Datum.admits_of_insist hbudget⟩

/-- A whole number of stages is the number of stages that there may be. -/
theorem Options.budget_of_whole (h : path.schedule = .ok schedule) {count : Int}
    (hcount : schedule.maxStages = .whole count) : (schedule.budget : Int) = count := by
  obtain ⟨-, -, -, hbound⟩ := Options.schedule_bounds h
  rw [hcount] at hbound
  simp only [Number.admits, Number.isBelow, Bool.not_eq_true', decide_eq_false_iff_not] at hbound
  simp only [Schedule.budget, hcount, Number.roundsUntil]
  omega

end

/-! ## Exact scales -/

section

variable [RealText] {path : Options ℝ} {schedule : Schedule ℝ}

theorem Options.dualityGap_pos (h : path.schedule = .ok schedule) :
    0 < schedule.dualityGap.ceiling := by
  have hbound := (Options.schedule_bounds h).1
  simp only [Number.admits, Bool.not_eq_true'] at hbound
  exact_mod_cast Number.lt_of_isAtMost hbound (Number.toScalar_exact _)

theorem Options.initialScale_pos (h : path.schedule = .ok schedule) {t : ℝ}
    (ht : schedule.initialScale.toScalar = .ok t) : 0 < t := by
  have hbound := (Options.schedule_bounds h).2.1
  simp only [Number.admits, Bool.not_eq_true'] at hbound
  exact_mod_cast Number.lt_of_isAtMost hbound ht

theorem Options.one_lt_scaleFactor (h : path.schedule = .ok schedule) {factor : ℝ}
    (hfactor : schedule.scaleFactor.toScalar = .ok factor) : 1 < factor := by
  have hbound := (Options.schedule_bounds h).2.2.1
  simp only [Number.admits, Bool.not_eq_true'] at hbound
  exact_mod_cast Number.lt_of_isAtMost hbound hfactor

theorem Options.scale_pos (h : path.schedule = .ok schedule) {t factor : ℝ} (ht : 0 < t)
    (hfactor : schedule.scaleFactor.toScalar = .ok factor) : 0 < t * factor :=
  mul_pos ht (one_pos.trans (Options.one_lt_scaleFactor h hfactor))

/-- The scales are a geometric sequence. -/
theorem Schedule.scaleOf_exact {t factor : ℝ} (ht : schedule.initialScale.toScalar = .ok t)
    (hfactor : schedule.scaleFactor.toScalar = .ok factor) (index : Nat) :
    schedule.scaleOf index = .ok (t * factor ^ index) := by
  induction index with
  | zero => rw [scaleOf, ht, pow_zero, mul_one]
  | succ index ih => rw [scaleOf_succ ih hfactor, mul_assoc, ← pow_succ]

/-- There is a first stage at which `count` multipliers leave a gap that is small enough. -/
theorem Options.exists_isLeast (h : path.schedule = .ok schedule) (count : Nat) {t factor : ℝ}
    (ht : schedule.initialScale.toScalar = .ok t)
    (hfactor : schedule.scaleFactor.toScalar = .ok factor) :
    ∃ needed, IsLeast {k | 1 ≤ k ∧ count / (t * factor ^ (k - 1)) < schedule.dualityGap.ceiling}
      needed := by
  have hgap := Options.dualityGap_pos h
  have hpos := Options.initialScale_pos h ht
  have hone := Options.one_lt_scaleFactor h hfactor
  obtain ⟨index, hindex⟩ := pow_unbounded_of_one_lt (count / (schedule.dualityGap.ceiling * t)) hone
  have hsmall : ∃ k, 1 ≤ k ∧ count / (t * factor ^ (k - 1)) < schedule.dualityGap.ceiling := by
    refine ⟨index + 1, Nat.le_add_left 1 index, ?_⟩
    rw [Nat.add_sub_cancel, div_lt_iff₀ (mul_pos hpos (pow_pos (one_pos.trans hone) index)),
      ← mul_assoc]
    rwa [div_lt_iff₀' (mul_pos hgap hpos)] at hindex
  classical
  exact ⟨Nat.find hsmall, Nat.find_spec hsmall, fun k hk => Nat.find_min' hsmall hk⟩

end

end Descent.CentralPath
