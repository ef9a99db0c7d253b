import Mathlib.Order.Bounds.Basic
import Descent.Proofs.Exact.Number
import Descent.Proofs.Ray.Samples

/-!
# The furthest length that still descends

Over the reals every length that a search tries lies strictly ahead of the last one with a negative
slope: where the first phase draws back, doubles, and where the second one places its trial. So a
search that does not end at a small slope returns the largest length, of all it has tried, at which
the function still descends.

* `Ray.descents`: zero and the lengths with a negative slope;
* `Ray.Rule.Brackets.furthest`, `Ray.Rule.Narrows.furthest`: what both phases keep;
* `Ray.Rule.Ends.furthest`: the length returned.
-/

namespace Descent.Ray

/-- Zero and the lengths at which a negative slope was computed. -/
def descents (samples : List (Sample ℝ)) : Set ℝ :=
  {length | length = 0 ∨ ∃ slope < 0, ⟨length, slope⟩ ∈ samples}

variable {samples : List (Sample ℝ)} {lower length slope : ℝ}

theorem descents_nil : descents [] = {0} := by
  ext length
  simp [descents]

/-- A sample whose slope is not negative is no descent. -/
theorem descents_cons_of_not_neg (h : ¬slope < 0) :
    descents (⟨length, slope⟩ :: samples) = descents samples := by
  ext other
  refine or_congr_right (exists_congr fun a => and_congr_right fun ha => ?_)
  rw [List.mem_cons, Sample.mk.injEq]
  exact or_iff_right fun heq => h (heq.2 ▸ ha)

/-- A descent ahead of all others is the furthest one. -/
theorem isGreatest_cons (h : IsGreatest (descents samples) lower) (hlt : lower < length)
    (hslope : slope < 0) : IsGreatest (descents (⟨length, slope⟩ :: samples)) length := by
  refine ⟨.inr ⟨slope, hslope, List.mem_cons_self⟩, fun other hother => ?_⟩
  rcases hother with rfl | ⟨a, ha, hmem⟩
  · exact (h.2 (.inl rfl)).trans hlt.le
  · rcases List.mem_cons.1 hmem with heq | hmem
    · cases heq
      exact le_rfl
    · exact (h.2 (.inr ⟨a, ha, hmem⟩)).trans hlt.le

/-- A slope that is neither small nor positive is negative. -/
theorem slope_neg {target : ℝ} (htarget : 0 ≤ target) (hsmall : ¬Scalar.abs slope ≤ target)
    (hpos : ¬0 < slope) : slope < 0 := by
  refine (not_lt.1 hpos).lt_of_ne ?_
  rintro rfl
  exact hsmall (le_of_eq_of_le abs_zero htarget)

theorem Bracket.middle_eq (b : Bracket ℝ) : b.middle = (b.lower + b.upper) / 2 := by
  rw [middle]
  norm_num
  ring

/-- The trial lies strictly inside the bracket: at the secant if that does, else in the middle. -/
theorem Bracket.trial_mem {b : Bracket ℝ} {repeats : Nat} (h : b.lower < b.upper)
    (htrial : b.trial = .ok (length, repeats)) : b.lower < length ∧ length < b.upper := by
  obtain ⟨secant, -, htrial⟩ := Fault.bind_eq_ok htrial
  split at htrial
  · cases htrial
    rw [middle_eq]
    exact ⟨by linarith, by linarith⟩
  · cases htrial
    rename_i hinside
    simp only [Bool.or_eq_true, decide_eq_true_eq, Bool.not_eq_true', not_or, Bool.not_eq_false,
      Bool.and_eq_true] at hinside
    exact hinside.2

namespace Rule

variable {rule : Rule ℝ} {start : ℝ}

/-- The parameters of a search that starts. -/
structure Valid (rule : Rule ℝ) : Prop where
  threshold_pos : 0 < rule.threshold
  shrink_pos : 0 < rule.shrink
  start_pos : 0 < rule.start

theorem valid_of_check (h : rule.check = .ok ()) : rule.Valid := by
  obtain ⟨_, hthreshold, h⟩ := Fault.bind_eq_ok h
  obtain ⟨_, hshrink, hstart⟩ := Fault.bind_eq_ok h
  simp only [demand_eq_ok, Bool.not_eq_true', decide_eq_false_iff_not, not_le, Bool.and_eq_true,
    decide_eq_true_eq] at hthreshold hshrink hstart
  exact ⟨hthreshold, hshrink.1, hstart⟩

theorem target_nonneg (hrule : rule.Valid) (start : ℝ) : 0 ≤ rule.target start :=
  mul_nonneg hrule.threshold_pos.le (abs_nonneg start)

/-- A large slope that is not positive is negative. -/
theorem Large.neg (h : rule.Large start slope) (hrule : rule.Valid) (hneg : ¬0 < slope) :
    slope < 0 :=
  slope_neg (target_nonneg hrule start) h.large hneg

/-! ## What both phases keep -/

theorem Brackets.furthest (hrule : rule.Valid) {lowerSlope : ℝ}
    (h : rule.Brackets start samples lower lowerSlope length) :
    IsGreatest (descents samples) lower ∧ lower < length := by
  induction h with
  | start =>
    rw [descents_nil]
    exact ⟨isGreatest_singleton, hrule.start_pos⟩
  | outside _ ih =>
    exact ⟨ih.1, lt_add_of_pos_right _ (mul_pos hrule.shrink_pos (sub_pos.2 ih.2))⟩
  | infinite _ hslope => cases hslope
  | @negative samples lower _ length _ _ hslope hneg ih =>
    have hlength : 0 < length := (ih.1.2 (.inl rfl)).trans_lt ih.2
    refine ⟨isGreatest_cons ih.1 ih.2 (hslope.neg hrule hneg), ?_⟩
    exact lt_mul_of_one_lt_right hlength (by norm_num)

theorem Narrows.furthest (hrule : rule.Valid) {b : Bracket ℝ} (h : rule.Narrows start samples b) :
    IsGreatest (descents samples) b.lower ∧ b.lower < b.upper := by
  induction h with
  | between h _ hpos =>
    obtain ⟨hgreatest, hlt⟩ := h.furthest hrule
    rw [descents_cons_of_not_neg hpos.not_gt]
    exact ⟨hgreatest, hlt⟩
  | outside _ htrial ih => exact ⟨ih.1, (Bracket.trial_mem ih.2 htrial).1⟩
  | infinite _ _ hslope => cases hslope
  | positive _ htrial _ hpos ih =>
    rw [descents_cons_of_not_neg hpos.not_gt, Bracket.lower_moveUpper, Bracket.upper_moveUpper]
    exact ⟨ih.1, (Bracket.trial_mem ih.2 htrial).1⟩
  | negative _ htrial hslope hneg ih =>
    obtain ⟨hlower, hupper⟩ := Bracket.trial_mem ih.2 htrial
    rw [Bracket.lower_moveLower, Bracket.upper_moveLower]
    exact ⟨isGreatest_cons ih.1 hlower (hslope.neg hrule hneg), hupper⟩

/-- **The length returned** has a small slope, or it is the furthest one at which the function
descends. -/
theorem Ends.furthest (hrule : rule.Valid) (h : rule.Ends start samples length) :
    0 ≤ length ∧ ((∃ slope, ⟨length, slope⟩ ∈ samples ∧ |slope| ≤ rule.target start) ∨
      IsGreatest (descents samples) length) := by
  have hnonneg {samples : List (Sample ℝ)} {lower : ℝ} (h : IsGreatest (descents samples) lower) :
      0 ≤ lower := h.2 (.inl rfl)
  cases h with
  | early h hslope =>
    obtain ⟨hgreatest, hlt⟩ := h.furthest hrule
    exact ⟨((hnonneg hgreatest).trans_lt hlt).le,
      .inl ⟨_, List.mem_cons_self, hslope.small⟩⟩
  | late h htrial hslope =>
    obtain ⟨hgreatest, hlt⟩ := h.furthest hrule
    exact ⟨((hnonneg hgreatest).trans_lt (Bracket.trial_mem hlt htrial).1).le,
      .inl ⟨_, List.mem_cons_self, hslope.small⟩⟩
  | exhausted h => exact ⟨hnonneg (h.furthest hrule).1, .inr (h.furthest hrule).1⟩
  | lower h => exact ⟨hnonneg (h.furthest hrule).1, .inr (h.furthest hrule).1⟩

end Rule

end Descent.Ray
