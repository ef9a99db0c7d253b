import Descent.Ray.Search
import Descent.Proofs.Run.Comparison

/-!
# Searches compared

Two rays whose slopes compare at the lengths of a set `S`, which contains every length found inside
the domain: searches along them take the same course.

* `Ray.search_compares`: they find the same length, which is zero or lies in `S`.
-/

namespace Descent.Ray

variable {α σ : Type} [Scalar α] {c : Comparison α σ} {S : α → Prop} {ray ray' : Ray α σ}

/-- Two rays that compare: their slopes at the lengths of `S`, and their domains anywhere. -/
structure Compare (c : Comparison α σ) (S : α → Prop) (ray ray' : Ray α σ) : Prop where
  slope : ∀ length, S length → c.Compares Eq (ray.slope length) (ray'.slope length)
  outside : ∀ length, c.Compares (fun out out' => out = out' ∧ (out = false → S length))
    (ray.outside length) (ray'.outside length)

/-- A length that is zero or lies in `S`. -/
def Admitted (S : α → Prop) (length : α) : Prop :=
  length = 0 ∨ S length

/-- The lengths that the first phase may lead to. -/
def Bracketing.Within (S : α → Prop) : Bracketing α → Prop
  | .found length _ | .exhausted length _ => Admitted S length
  | .between b _ => Admitted S b.lower

/-- The lengths that a round of the second phase may lead to. -/
def Round.Within (S : α → Prop) : Round α → Prop
  | .found length _ => Admitted S length
  | .narrowed b _ => Admitted S b.lower

omit [Scalar α] in
/-- Asking about a length: where it is inside the domain both searches go on with one slope. -/
theorem Compare.probe (h : Compare c S ray ray') {β γ : Type} {R : β → γ → Prop} (length : α)
    {first : Run α σ β} {second : Run α σ γ} {inside : α → Run α σ β} {inside' : α → Run α σ γ}
    (hout : c.Compares R first second)
    (hin : S length → ∀ slope, c.Compares R (inside slope) (inside' slope)) :
    c.Compares R
      (do if ← ray.outside length then first else inside (← ray.slope length))
      (do if ← ray'.outside length then second else inside' (← ray'.slope length)) := by
  refine .bind (h.outside length) ?_
  rintro out _ ⟨rfl, hS⟩
  cases out with
  | true => exact hout
  | false =>
    refine .bind (h.slope length (hS rfl)) ?_
    rintro slope _ rfl
    exact hin (hS rfl) slope

theorem bracket_compares (h : Compare c S ray ray') (shrink target : α) :
    ∀ rounds lower lowerSlope length k, Admitted S lower →
      c.Compares (fun r r' => r = r' ∧ r.Within S)
        (bracket ray shrink target rounds lower lowerSlope length k)
        (bracket ray' shrink target rounds lower lowerSlope length k) := by
  intro rounds
  induction rounds with
  | zero =>
    intro lower lowerSlope length k hlower
    exact .pure ⟨rfl, hlower⟩
  | succ rounds ih =>
    intro lower lowerSlope length k hlower
    refine h.probe length (ih _ _ _ _ hlower) fun hin slope => ?_
    refine .ite Iff.rfl (fun _ => ih _ _ _ _ hlower) fun _ => ?_
    refine .ite Iff.rfl (fun _ => .pure ⟨rfl, .inr hin⟩) fun _ => ?_
    exact .ite Iff.rfl (fun _ => .pure ⟨rfl, hlower⟩) fun _ => ih _ _ _ _ (.inr hin)

theorem narrow_compares (h : Compare c S ray ray') (target : α) {b : Bracket α} (k : Nat)
    (hb : Admitted S b.lower) :
    c.Compares (fun r r' => r = r' ∧ r.Within S) (narrow ray target b k)
      (narrow ray' target b k) := by
  refine .check fun trial _ => ?_
  refine h.probe trial.1 (.pure ⟨rfl, hb⟩) fun hin slope => ?_
  refine .ite Iff.rfl (fun _ => .pure ⟨rfl, hb⟩) fun _ => ?_
  refine .ite Iff.rfl (fun _ => .pure ⟨rfl, .inr hin⟩) fun _ => ?_
  refine .ite Iff.rfl (fun _ => .pure ⟨rfl, ?_⟩) fun _ => .pure ⟨rfl, ?_⟩
  · unfold Bracket.moveUpper
    split <;> exact hb
  · unfold Bracket.moveLower
    split <;> exact .inr hin

theorem refine_compares (h : Compare c S ray ray') (target : α) :
    ∀ rounds (b : Bracket α) k, Admitted S b.lower →
      c.Compares (fun f f' => f = f' ∧ Admitted S f.length) (refine ray target rounds b k)
        (refine ray' target rounds b k) := by
  intro rounds
  induction rounds with
  | zero =>
    intro b k hb
    exact .pure ⟨rfl, hb⟩
  | succ rounds ih =>
    intro b k hb
    refine .ite Iff.rfl (fun _ => .pure ⟨rfl, hb⟩) fun _ => .bind (narrow_compares h target k hb) ?_
    rintro r _ ⟨rfl, hr⟩
    cases r with
    | found length k => exact .pure ⟨rfl, hr⟩
    | narrowed b k => exact ih b k hr

theorem descend_compares (h : Compare c S ray ray') (rule : Rule α) (slope : α) (k : Nat) :
    c.Compares (fun f f' => f = f' ∧ Admitted S f.length) (descend ray rule slope k)
      (descend ray' rule slope k) := by
  refine .ite Iff.rfl (fun _ => .pure ⟨rfl, .inl rfl⟩) fun _ => ?_
  refine .bind (bracket_compares h rule.shrink _ rule.rounds 0 slope rule.start k (.inl rfl)) ?_
  rintro r _ ⟨rfl, hr⟩
  cases r with
  | found length k => exact .pure ⟨rfl, hr⟩
  | exhausted lower k => exact .pure ⟨rfl, hr⟩
  | between b k => exact refine_compares h _ rule.rounds b k hr

/-- **Searches along rays that compare find the same length**, zero or one of `S`. -/
theorem search_compares (h : Compare c S ray ray') (rule : Rule α) (slope : α) :
    c.Compares (fun f f' => f = f' ∧ Admitted S f.length) (search ray rule (some slope))
      (search ray' rule (some slope)) :=
  .check fun _ _ => descend_compares h rule slope 0

end Descent.Ray
