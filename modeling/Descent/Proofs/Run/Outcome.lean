import Descent.Proofs.Run.Comparison
import Mathlib.Data.List.OfFn
import Mathlib.Logic.Equiv.Basic

/-!
# What runs return from any session

Two runs that need not take the same course can still be compared by what they return. Sessions are
of one kind if an invariant holds in them and the same debug lines are written; of two runs from
sessions of one kind, nothing is asked where the first ends in a fault.

* `Comparison.returning I on`: the comparison that excuses every fault. `Run.Match` is both
  directions of it: both runs return, or neither does.
* `Run.Possible`: what a run can return from a session of the kind. `Comparison.compares_returning`:
  runs compare if the second returns what it should whenever that is possible for the first.
* `Comparison.Compares.ofFnM_reordered`: the entries of a vector may be found in any order.
-/

namespace Descent

variable {α σ β γ : Type} {I : Invariant α σ} {on : Logging.Source → Bool}

/-- The runs start from any two sessions of one kind, and every fault of the first is excused. -/
def Comparison.returning (I : Invariant α σ) (on : Logging.Source → Bool) : Comparison α σ where
  related s t := s.Meets I on ∧ t.Meets I on
  excused _ := True
  listens := (Comparison.apart I on).listens
  logged := (Comparison.apart I on).logged

namespace Run

/-- From some session of the kind the run returns `b`. -/
def Possible (I : Invariant α σ) (on : Logging.Source → Bool) (run : Run α σ β) (b : β) : Prop :=
  ∃ s s' : Session α σ, s.Meets I on ∧ run.run s = .ok b s'

/-- Both runs return, results in relation, or neither does. -/
def Match (I : Invariant α σ) (on : Logging.Source → Bool) (R : β → γ → Prop) (first : Run α σ β)
    (second : Run α σ γ) : Prop :=
  ∀ s t, s.Meets I on → t.Meets I on → match first.run s, second.run t with
    | .ok b s', .ok c t' => s'.Meets I on ∧ t'.Meets I on ∧ R b c
    | .error _ _, .error _ _ => True
    | _, _ => False

end Run

namespace Comparison

variable {R : β → γ → Prop} {first : Run α σ β} {second : Run α σ γ}

/-- Where the first run returns, the second returns what is in relation. -/
theorem compares_returning_iff :
    (returning I on).Compares R first second ↔
      ∀ s t b s', s.Meets I on → t.Meets I on → first.run s = .ok b s' →
        ∃ c t', second.run t = .ok c t' ∧ s'.Meets I on ∧ t'.Meets I on ∧ R b c := by
  constructor
  · intro h s t b s' hs ht hr
    have h₁ := h s t ⟨hs, ht⟩
    rw [hr] at h₁
    cases hc : second.run t with
    | ok c t' =>
      rw [hc] at h₁
      exact ⟨c, t', rfl, h₁.1.1, h₁.1.2, h₁.2⟩
    | error fault t' =>
      rw [hc] at h₁
      exact h₁.elim
  · rintro h s t ⟨hs, ht⟩
    cases hr : first.run s with
    | ok b s' =>
      obtain ⟨c, t', hc, hs', ht', hbc⟩ := h s t b s' hs ht hr
      rw [hc]
      exact ⟨⟨hs', ht'⟩, hbc⟩
    | error fault s' =>
      cases second.run t with
      | ok c t' => exact trivial
      | error fault' t' => exact .inl trivial

namespace Compares

/-- Runs that compare from any two sessions of one kind. -/
theorem returning (h : (apart I on).Compares R first second) :
    (returning I on).Compares R first second := by
  refine compares_returning_iff.2 fun s t b s' hs ht hr => ?_
  have h₁ := h s t ⟨hs, ht⟩
  rw [hr] at h₁
  cases hc : second.run t with
  | ok c t' =>
    rw [hc] at h₁
    exact ⟨c, t', rfl, h₁.1.1, h₁.1.2, h₁.2⟩
  | error fault t' =>
    rw [hc] at h₁
    exact h₁.elim

/-- What the first run leaves behind where it returns. -/
theorem possible (h : (Comparison.returning I on).Compares R first second) :
    Run.Triple (·.Meets I on) first (fun b s => s.Meets I on ∧ first.Possible I on b)
      fun _ _ => True := by
  intro s hs
  cases hr : first.run s with
  | ok b s' =>
    obtain ⟨c, t', -, hs', -, -⟩ := compares_returning_iff.1 h s s b s' hs hs hr
    exact ⟨hs', s, s', hs, hr⟩
  | error fault s' => exact trivial

/-- The second run returns from every session of the kind, if the first can return at all. -/
theorem certain (h : (Comparison.returning I on).Compares R first second) {b : β}
    (hb : first.Possible I on b) :
    Run.Triple (·.Meets I on) second (fun c s => s.Meets I on ∧ R b c) fun _ _ => False := by
  obtain ⟨s, s', hs, hr⟩ := hb
  intro t ht
  obtain ⟨c, t', hc, -, ht', hbc⟩ := compares_returning_iff.1 h s t b s' hs ht hr
  rw [hc]
  exact ⟨ht', hbc⟩

end Compares

/-- Two runs compare if the second one returns whatever the first can return. -/
theorem compares_returning {Q : β → Prop}
    (hfirst : Run.Triple (·.Meets I on) first (fun b s => s.Meets I on ∧ Q b) fun _ _ => True)
    (hsecond : ∀ b, Q b →
      Run.Triple (·.Meets I on) second (fun c s => s.Meets I on ∧ R b c) fun _ _ => False) :
    (returning I on).Compares R first second := by
  refine compares_returning_iff.2 fun s t b s' hs ht hr => ?_
  obtain ⟨hs', hb⟩ := hfirst.of_ok hs hr
  have h₁ := hsecond b hb t ht
  cases hc : second.run t with
  | ok c t' =>
    rw [hc] at h₁
    exact ⟨c, t', rfl, hs', h₁.1, h₁.2⟩
  | error fault t' =>
    rw [hc] at h₁
    exact h₁.elim

/-- **The entries of a vector may be found in any order.** -/
theorem Compares.ofFnM_reordered {n : Nat} {R : β → γ → Prop} {f : Fin n → Run α σ β}
    {f' : Fin n → Run α σ γ} (order : Equiv.Perm (Fin n))
    (h : ∀ i, (Comparison.returning I on).Compares R (f (order i)) (f' i)) :
    (Comparison.returning I on).Compares (fun v v' => ∀ i : Fin n, R (v.get (order i)) (v'.get i))
      (Vector.ofFnM f) (Vector.ofFnM f') := by
  have hfirst (i : Fin n) := (h (order.symm i)).possible
  simp only [Equiv.apply_symm_apply] at hfirst
  refine compares_returning (Run.Triple.ofFnM hfirst) fun v hv => ?_
  exact Run.Triple.ofFnM fun i => (h i).certain (hv (order i))

end Comparison

/-- Both directions. -/
theorem Run.Match.of_compares {R : β → γ → Prop} {T : γ → β → Prop} {first : Run α σ β}
    {second : Run α σ γ} (h : (Comparison.returning I on).Compares R first second)
    (hback : (Comparison.returning I on).Compares T second first) :
    Run.Match I on R first second := by
  intro s t hs ht
  cases hr : first.run s with
  | ok b s' =>
    obtain ⟨c, t', hc, hs', ht', hbc⟩ := Comparison.compares_returning_iff.1 h s t b s' hs ht hr
    rw [hc]
    exact ⟨hs', ht', hbc⟩
  | error fault s' =>
    cases hc : second.run t with
    | ok c t' =>
      obtain ⟨b, s'', hb, -⟩ := Comparison.compares_returning_iff.1 hback t s c t' ht hs hc
      rw [hr] at hb
      cases hb
    | error fault' t' => trivial

/-- What is found for the entries of a list is found for the entries of a vector. -/
theorem Run.mapM_ofFn {δ : Type} {n : Nat} (g : Fin n → δ) (f : δ → Run α σ β) :
    (List.ofFn g).mapM f = Vector.toList <$> Vector.ofFnM fun i => f (g i) := by
  induction n with
  | zero =>
    rw [List.ofFn_zero, List.mapM_nil, Vector.ofFnM_zero]
    rfl
  | succ n ih =>
    rw [List.ofFn_succ', List.concat_eq_append, List.mapM_append, ih, Vector.ofFnM_succ]
    simp only [List.mapM_cons, List.mapM_nil, map_eq_pure_bind, bind_assoc, pure_bind,
      Vector.toList_push]

end Descent
