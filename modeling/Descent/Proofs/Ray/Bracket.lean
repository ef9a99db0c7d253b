import Descent.Proofs.Ray.Furthest
import Descent.Proofs.Ray.Rounds

/-!
# Brackets over the reals

The slopes that a bracket keeps need not be the slopes at its ends: they may have been halved, and
an upper end that was cut off keeps the slope of another length. Only their signs matter for where
the next trial lies, and no round changes these.

* `Ray.Bracket.Signed`: the signs. `Ray.bracket_signed`, `Ray.narrow_signed`: both phases keep them.
* `Ray.Bracket.Proper`: the ends are in order as well. `Ray.Bracket.Proper.secant_mem`: then the
  secant lies strictly inside.
* `Ray.Turns.proper`, `Ray.Turns.interval_subset`, `Ray.Turns.width_lt`: a round leads to a proper
  bracket inside the one before and narrower; `Ray.Turns.width_eq`: of half the width if it is a
  bisection. `Ray.path_width`: rounds in a row.
-/

namespace Descent.Ray

variable {σ : Type}

/-! ## Signs -/

/-- The slopes at the two ends have opposite signs. -/
def Bracket.Signed (b : Bracket ℝ) : Prop :=
  b.lowerSlope < 0 ∧ 0 < b.upperSlope

def Bracketing.Signed : Bracketing ℝ → Prop
  | .between b _ => b.Signed
  | _ => True

def Round.Signed : Round ℝ → Prop
  | .narrowed b _ => b.Signed
  | .found _ _ => True

variable {ray : Ray ℝ σ} {target : ℝ}

theorem bracket_signed (ray : Ray ℝ σ) (shrink : ℝ) (htarget : 0 ≤ target) :
    ∀ rounds lower lowerSlope length k, lowerSlope < 0 →
      (bracket ray shrink target rounds lower lowerSlope length k).Keeps Invariant.none
        Bracketing.Signed := by
  intro rounds
  induction rounds with
  | zero => exact fun lower lowerSlope length k _ => .pure trivial
  | succ rounds ih =>
    intro lower lowerSlope length k hlower
    refine .bind (Run.keeps_none _) fun out _ => .ite (fun _ => ih _ _ _ _ hlower) fun _ => ?_
    refine .bind (Run.keeps_none _) fun slope _ => ?_
    refine .ite (fun _ => ih _ _ _ _ hlower) fun _ => .ite (fun _ => .pure trivial) fun hsmall => ?_
    refine .ite (fun hpos => .pure ⟨hlower, hpos⟩) fun hpos => ?_
    exact ih _ _ _ _ (slope_neg htarget hsmall hpos)

theorem Bracket.Signed.moveUpper {b : Bracket ℝ} (hb : b.Signed) (length : ℝ) {slope : ℝ}
    (hslope : 0 < slope) : (b.moveUpper length slope).Signed := by
  have hhalf : b.lowerSlope * 0.5 < 0 := mul_neg_of_neg_of_pos hb.1 (by norm_num)
  unfold Bracket.moveUpper
  split
  · exact ⟨hhalf, hslope⟩
  · exact ⟨hb.1, hslope⟩

theorem Bracket.Signed.moveLower {b : Bracket ℝ} (hb : b.Signed) (length : ℝ) {slope : ℝ}
    (hslope : slope < 0) : (b.moveLower length slope).Signed := by
  have hhalf : 0 < b.upperSlope * 0.5 := mul_pos hb.2 (by norm_num)
  unfold Bracket.moveLower
  split
  · exact ⟨hslope, hhalf⟩
  · exact ⟨hslope, hb.2⟩

theorem Bracket.Moves.signed {b c : Bracket ℝ} {trial : Trial ℝ} (h : b.Moves target trial c)
    (htarget : 0 ≤ target) (hb : b.Signed) : c.Signed := by
  cases h with
  | outside | infinite => exact hb
  | positive _ _ hpos => exact hb.moveUpper _ hpos
  | negative _ hlarge hneg => exact hb.moveLower _ (slope_neg htarget hlarge hneg)

theorem narrow_signed (ray : Ray ℝ σ) (htarget : 0 ≤ target) {b : Bracket ℝ} (hb : b.Signed)
    (k : Nat) : (narrow ray target b k).Keeps Invariant.none Round.Signed := by
  rw [narrow_eq]
  refine .check fun next _ => .bind (Run.keeps_none _) fun slope? _ => .pure ?_
  cases hsettle : Bracket.settle target { b with repeats := next.2 } k ⟨next.1, slope?⟩ with
  | found length j => trivial
  | narrowed c j => exact (Bracket.moves_of_settle hsettle).signed htarget hb

/-! ## Proper brackets -/

/-- The ends are in order, and the slopes kept for them have opposite signs. -/
structure Bracket.Proper (b : Bracket ℝ) : Prop where
  signed : b.Signed
  lower_lt_upper : b.lower < b.upper

/-- The lengths between the ends. -/
def Bracket.interval (b : Bracket ℝ) : Set ℝ :=
  Set.Icc b.lower b.upper

def Bracket.width (b : Bracket ℝ) : ℝ :=
  b.upper - b.lower

variable {b c : Bracket ℝ} {trial : Trial ℝ}

/-- **The secant lies strictly inside.** -/
theorem Bracket.Proper.secant_mem (h : b.Proper) :
    ∃ secant, b.secant = .ok secant ∧ b.lower < secant ∧ secant < b.upper := by
  have hwidth : 0 < b.upper - b.lower := sub_pos.2 h.lower_lt_upper
  have hrise : 0 < b.upperSlope - b.lowerSlope := sub_pos.2 (h.signed.1.trans h.signed.2)
  have hback : b.lowerSlope * (b.upper - b.lower) / (b.upperSlope - b.lowerSlope) < 0 :=
    div_neg_of_neg_of_pos (mul_neg_of_neg_of_pos h.signed.1 hwidth) hrise
  have hahead : -(b.upper - b.lower) <
      b.lowerSlope * (b.upper - b.lower) / (b.upperSlope - b.lowerSlope) := by
    rw [lt_div_iff₀ hrise]
    linarith [mul_pos h.signed.2 hwidth]
  refine ⟨b.lower - b.lowerSlope * (b.upper - b.lower) / (b.upperSlope - b.lowerSlope), ?_,
    by linarith, by linarith⟩
  rw [secant, Scalar.quotient_real hrise.ne']
  rfl

/-- There is a next trial, strictly inside. -/
theorem Bracket.Proper.exists_trial (h : b.Proper) : ∃ length repeats,
    b.trial = .ok (length, repeats) ∧ b.lower < length ∧ length < b.upper := by
  obtain ⟨secant, hsecant, -⟩ := h.secant_mem
  cases htrial : b.trial with
  | ok next => exact ⟨next.1, next.2, rfl, trial_mem h.lower_lt_upper htrial⟩
  | error fault =>
    rw [trial, hsecant] at htrial
    change (if _ then _ else _) = _ at htrial
    split at htrial <;> cases htrial

namespace Bracket.Moves

/-- An end that moves inside leaves a proper bracket. -/
theorem proper (h : b.Moves target trial c) (htarget : 0 ≤ target) (hb : b.Signed)
    (hlower : b.lower < trial.length) (hupper : trial.length < b.upper) : c.Proper := by
  refine ⟨h.signed htarget hb, ?_⟩
  obtain ⟨hl, hu⟩ | ⟨hl, hu⟩ := h.ends <;> rwa [hl, hu]

theorem interval_subset (h : b.Moves target trial c) (hlower : b.lower < trial.length)
    (hupper : trial.length < b.upper) : c.interval ⊆ b.interval := by
  obtain ⟨hl, hu⟩ | ⟨hl, hu⟩ := h.ends <;> rw [interval, interval, hl, hu]
  · exact Set.Icc_subset_Icc_right hupper.le
  · exact Set.Icc_subset_Icc_left hlower.le

theorem width_lt (h : b.Moves target trial c) (hlower : b.lower < trial.length)
    (hupper : trial.length < b.upper) : c.width < b.width := by
  obtain ⟨hl, hu⟩ | ⟨hl, hu⟩ := h.ends <;> rw [width, width, hl, hu] <;> linarith

/-- The middle halves the width. -/
theorem width_eq (h : b.Moves target trial c) (hmiddle : trial.length = b.middle) :
    c.width = b.width / 2 := by
  rw [middle_eq] at hmiddle
  obtain ⟨hl, hu⟩ | ⟨hl, hu⟩ := h.ends <;> rw [width, width, hl, hu] <;> linarith

end Bracket.Moves

/-! ## Rounds -/

namespace Turns

variable {h h' : Head ℝ} {t u : Session ℝ σ} {narrowing : Narrowing ℝ}

/-- The trial of a round lies strictly inside the bracket. -/
theorem trial_mem (hturns : Turns ray target h t narrowing h' u) (hb : h.bracket.Proper) :
    h.bracket.lower < narrowing.trial.length ∧ narrowing.trial.length < h.bracket.upper := by
  obtain ⟨repeats, htrial, -⟩ := hturns.moves
  exact Bracket.trial_mem hb.lower_lt_upper htrial

theorem proper (hturns : Turns ray target h t narrowing h' u) (htarget : 0 ≤ target)
    (hb : h.bracket.Proper) : h'.bracket.Proper := by
  obtain ⟨hlower, hupper⟩ := hturns.trial_mem hb
  obtain ⟨repeats, -, hmoves⟩ := hturns.moves
  exact hmoves.proper htarget hb.signed hlower hupper

/-- **The new bracket is nested in the old one**, strictly by `width_lt`. -/
theorem interval_subset (hturns : Turns ray target h t narrowing h' u) (hb : h.bracket.Proper) :
    h'.bracket.interval ⊆ h.bracket.interval := by
  obtain ⟨hlower, hupper⟩ := hturns.trial_mem hb
  obtain ⟨repeats, -, hmoves⟩ := hturns.moves
  exact hmoves.interval_subset hlower hupper

theorem width_lt (hturns : Turns ray target h t narrowing h' u) (hb : h.bracket.Proper) :
    h'.bracket.width < h.bracket.width := by
  obtain ⟨hlower, hupper⟩ := hturns.trial_mem hb
  obtain ⟨repeats, -, hmoves⟩ := hturns.moves
  exact hmoves.width_lt hlower hupper

/-- A bisection halves the width. -/
theorem width_eq (hturns : Turns ray target h t narrowing h' u)
    (hbisects : narrowing.bracket.Bisects) : h'.bracket.width = h.bracket.width / 2 := by
  obtain ⟨repeats, htrial, hmoves⟩ := hturns.moves
  rw [hturns.bracket] at hbisects
  have hmiddle := Except.ok.inj (htrial.symm.trans hbisects.trial_eq)
  exact hmoves.width_eq (congrArg Prod.fst hmiddle)

end Turns

/-- Rounds in a row narrow the bracket, to half its width or less if one of them is a bisection. -/
theorem path_width {h h' : Head ℝ} {s t : Session ℝ σ} {narrowings : List (Narrowing ℝ)}
    (hpath : Run.Path (turn ray target) h s narrowings h' t) (htarget : 0 ≤ target)
    (hb : h.bracket.Proper) :
    h'.bracket.Proper ∧ h'.bracket.width ≤ h.bracket.width ∧
      ((∃ n ∈ narrowings, n.bracket.Bisects) → h'.bracket.width ≤ h.bracket.width / 2) := by
  induction hpath with
  | start => exact ⟨hb, le_rfl, nofun⟩
  | again _ hrun ih =>
    have hturns := turns_of_run hrun
    obtain ⟨hproper, hwidth, hhalf⟩ := ih
    have hlt := hturns.width_lt hproper
    refine ⟨hturns.proper htarget hproper, hlt.le.trans hwidth, ?_⟩
    rintro ⟨n, hmem, hbisects⟩
    obtain hmem | hmem := List.mem_append.1 hmem
    · exact hlt.le.trans (hhalf ⟨n, hmem, hbisects⟩)
    · cases List.mem_singleton.1 hmem
      rw [hturns.width_eq hbisects]
      exact div_le_div_of_nonneg_right hwidth zero_le_two

end Descent.Ray
