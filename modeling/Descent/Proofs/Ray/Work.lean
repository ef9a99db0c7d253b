import Descent.Proofs.Run.Count
import Descent.Ray.Search

/-!
# The work of a search

Each round of a search computes at most one slope, so a search computes at most two for every round
it may make, and it reports as many as it has computed.

* `Ray.Ticks`: every slope along a ray adds one to a count;
* `Ray.bracket_counts`, `Ray.refine_counts`: the two phases; `Ray.descend_counts`,
  `Ray.search_counts`: the search;
* `Ray.search_evaluations`: the bound, whatever the functions of the ray do.
-/

namespace Descent.Ray

variable {α σ : Type} {ray : Ray α σ} {I : Nat → Invariant α σ}

/-- Every slope along the ray adds one to the count, and asking about the domain adds nothing. -/
structure Ticks (I : Nat → Invariant α σ) (ray : Ray α σ) : Prop where
  outside : ∀ length k, (ray.outside length).Keeps (I k) fun _ => True
  slope : ∀ length, (ray.slope length).AddsOne I

/-- Every ray agrees with a count that means nothing. -/
theorem Ticks.unmarked (ray : Ray α σ) : ray.Ticks fun _ => Invariant.none :=
  ⟨fun _ _ => Run.keeps_none _, fun _ => .unmarked _⟩

/-- The number of slopes that have been computed at the end of the first phase. -/
def Bracketing.evaluations : Bracketing α → Nat
  | found _ k | between _ k | exhausted _ k => k

/-- The number of slopes that have been computed after a round of the second phase. -/
def Round.evaluations : Round α → Nat
  | found _ k | narrowed _ k => k

/-- A probe adds at most one to the count. -/
theorem Ticks.probe (h : ray.Ticks I) {β : Type} {length : α} {out : Run α σ β}
    {inside : α → Run α σ β} {count : β → Nat} {k limit : Nat} (hlt : k + 1 ≤ limit)
    (hout : out.Counts I limit k count)
    (hin : ∀ slope, (inside slope).Counts I limit (k + 1) count) :
    Run.Counts I limit k
      (do if ← ray.outside length then out else inside (← ray.slope length)) count := by
  refine .bind (.of_keeps (h.outside length k)) (Nat.le_of_succ_le hlt) fun b _ => ?_
  cases b with
  | true => exact hout
  | false => exact .bind (.of_addsOne (h.slope length) k) hlt fun slope _ => hin slope

variable [Scalar α]

theorem bracket_counts (h : ray.Ticks I) (shrink target : α) :
    ∀ (rounds : Nat) (lower lowerSlope length : α) (k : Nat),
      (bracket ray shrink target rounds lower lowerSlope length k).Counts I (k + rounds) k
        Bracketing.evaluations := by
  intro rounds
  induction rounds with
  | zero =>
    intro lower lowerSlope length k
    exact .pure rfl (Nat.le_refl _)
  | succ rounds ih =>
    intro lower lowerSlope length k
    have hnext : k + 1 + rounds ≤ k + (rounds + 1) := by omega
    have hone : k + 1 ≤ k + (rounds + 1) := by omega
    refine h.probe hone ((ih _ _ _ k).mono (by omega)) fun slope => ?_
    refine .ite (fun _ => (ih _ _ _ _).mono hnext) fun _ => ?_
    refine .ite (fun _ => .pure rfl hone) fun _ => ?_
    exact .ite (fun _ => .pure rfl hone) fun _ => (ih _ _ _ _).mono hnext

theorem narrow_counts (h : ray.Ticks I) (target : α) (b : Bracket α) (k : Nat) :
    (narrow ray target b k).Counts I (k + 1) k Round.evaluations := by
  refine .bind (.ofExcept (Nat.le_refl k)) (Nat.le_succ k) fun trial _ => ?_
  refine h.probe (Nat.le_refl _) (.pure rfl (Nat.le_succ k)) fun slope => ?_
  refine .ite (fun _ => .pure rfl (Nat.le_refl _)) fun _ => ?_
  refine .ite (fun _ => .pure rfl (Nat.le_refl _)) fun _ => ?_
  exact .ite (fun _ => .pure rfl (Nat.le_refl _)) fun _ => .pure rfl (Nat.le_refl _)

theorem refine_counts (h : ray.Ticks I) (target : α) : ∀ (rounds : Nat) (b : Bracket α) (k : Nat),
    (refine ray target rounds b k).Counts I (k + rounds) k Found.evaluations := by
  intro rounds
  induction rounds with
  | zero =>
    intro b k
    exact .pure rfl (Nat.le_refl _)
  | succ rounds ih =>
    intro b k
    refine .ite (fun _ => .pure rfl (by omega)) fun _ => ?_
    refine .bind (narrow_counts h target b k) (by omega) fun r hr => ?_
    cases r with
    | found length j => exact .pure rfl (by simp only [Round.evaluations] at hr ⊢; omega)
    | narrowed b j => exact (ih b j).mono (by simp only [Round.evaluations] at hr; omega)

/-- The search from a start where the slope is known, when `k` slopes have been computed. -/
theorem descend_counts (h : ray.Ticks I) (rule : Rule α) (slope : α) (k : Nat) :
    (descend ray rule slope k).Counts I (k + 2 * rule.rounds) k Found.evaluations := by
  refine .ite (fun _ => .pure rfl (Nat.le_add_right k _)) fun _ => ?_
  refine .bind (bracket_counts h _ _ rule.rounds _ _ _ k) (by omega) fun r hr => ?_
  cases r with
  | found length j => exact .pure rfl (by simp only [Bracketing.evaluations] at hr ⊢; omega)
  | exhausted lower j => exact .pure rfl (by simp only [Bracketing.evaluations] at hr ⊢; omega)
  | between b j =>
    refine (refine_counts h _ rule.rounds b j).mono ?_
    simp only [Bracketing.evaluations] at hr
    omega

/-- **A search computes at most two slopes for every round it may make**, and reports how many. -/
theorem search_counts (h : ray.Ticks I) (rule : Rule α) (slope : α) :
    (search ray rule (some slope)).Counts I (2 * rule.rounds) 0 Found.evaluations := by
  refine .bind (.ofExcept (Nat.le_refl 0)) (Nat.zero_le _) fun _ _ => ?_
  exact (descend_counts h rule slope 0).mono (Nat.le_of_eq (Nat.zero_add _))

theorem search_evaluations (ray : Ray α σ) (rule : Rule α) (slope : α) :
    (search ray rule (some slope)).Keeps Invariant.none fun found =>
      found.evaluations ≤ 2 * rule.rounds :=
  (search_counts (.unmarked ray) rule slope).bounds

end Descent.Ray
