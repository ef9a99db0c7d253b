import Descent.Proofs.Run.Lockstep
import Descent.Ray.Search

/-!
# Searches in lock-step

Two rays with the same slopes and the same domain: searches along them go through the same lengths.

* `Ray.bracket_lockstep`, `Ray.narrow_lockstep`, `Ray.refine_lockstep`: the phases of a search;
* `Ray.search_lockstep`: searches find the same length with the same number of slopes.
-/

namespace Descent.Ray

variable {α σ : Type} [Scalar α] {J : Session α σ → Session α σ → Prop} {first second : Ray α σ}

/-- Both rays have the same slopes, and both are outside at the same lengths. -/
structure Lockstep (J : Session α σ → Session α σ → Prop) (first second : Ray α σ) : Prop where
  slope : ∀ length, Run.Related J Eq (first.slope length) (second.slope length)
  outside : ∀ length, Run.Related J Eq (first.outside length) (second.outside length)

/-- The first phase tries the same lengths. -/
theorem bracket_lockstep (h : Lockstep J first second) (shrink target : α) :
    ∀ rounds lower lowerSlope length k,
      Run.Related J Eq (bracket first shrink target rounds lower lowerSlope length k)
        (bracket second shrink target rounds lower lowerSlope length k) := by
  intro rounds
  induction rounds with
  | zero => exact fun lower lowerSlope length k => .pure rfl
  | succ rounds ih =>
    intro lower lowerSlope length k
    refine .bind (h.outside length) ?_
    rintro out _ rfl
    refine .ite Iff.rfl (fun _ => ih _ _ _ _) fun _ => ?_
    refine .bind (h.slope length) ?_
    rintro slope _ rfl
    refine .ite Iff.rfl (fun _ => ih _ _ _ _) fun _ => ?_
    refine .ite Iff.rfl (fun _ => .pure rfl) fun _ => ?_
    exact .ite Iff.rfl (fun _ => .pure rfl) fun _ => ih _ _ _ _

/-- A round of the second phase tries the same length. -/
theorem narrow_lockstep (h : Lockstep J first second) (target : α) (b : Bracket α) (k : Nat) :
    Run.Related J Eq (narrow first target b k) (narrow second target b k) := by
  refine .check fun trial _ => ?_
  refine .bind (h.outside trial.1) ?_
  rintro out _ rfl
  refine .ite Iff.rfl (fun _ => .pure rfl) fun _ => ?_
  refine .bind (h.slope trial.1) ?_
  rintro slope _ rfl
  refine .ite Iff.rfl (fun _ => .pure rfl) fun _ => ?_
  refine .ite Iff.rfl (fun _ => .pure rfl) fun _ => ?_
  exact .ite Iff.rfl (fun _ => .pure rfl) fun _ => .pure rfl

/-- The second phase tries the same lengths. -/
theorem refine_lockstep (h : Lockstep J first second) (target : α) : ∀ rounds b k,
    Run.Related J Eq (refine first target rounds b k) (refine second target rounds b k) := by
  intro rounds
  induction rounds with
  | zero => exact fun b k => .pure rfl
  | succ rounds ih =>
    intro b k
    refine .ite Iff.rfl (fun _ => .pure rfl) fun _ => .bind (narrow_lockstep h target b k) ?_
    rintro round _ rfl
    cases round with
    | found length k => exact .pure rfl
    | narrowed b k => exact ih b k

theorem descend_lockstep (h : Lockstep J first second) (rule : Rule α) (slope : α) (k : Nat) :
    Run.Related J Eq (descend first rule slope k) (descend second rule slope k) := by
  refine .ite Iff.rfl (fun _ => .pure rfl) fun _ => ?_
  refine .bind (bracket_lockstep h _ _ _ _ _ _ _) ?_
  rintro found _ rfl
  cases found with
  | found length k => exact .pure rfl
  | between b k => exact refine_lockstep h _ _ b k
  | exhausted lower k => exact .pure rfl

/-- **Searches find the same length.** -/
theorem search_lockstep (h : Lockstep J first second) (rule : Rule α) (slope : α) :
    Run.Related J Eq (search first rule (some slope)) (search second rule (some slope)) :=
  .check fun _ _ => descend_lockstep h rule slope 0

end Descent.Ray
