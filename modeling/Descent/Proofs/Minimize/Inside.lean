import Descent.Minimize.Conjugate
import Descent.Minimize.Newton
import Descent.Proofs.Ray.Samples

/-!
# Minimizations stay inside

A method sees its problem through functions of the callers'. `Within I S G T` says what is known of
them, for an invariant `I` and a set `S` of points that contains every point found inside the
domain: the functions other than the question about the domain are only known to be of use on `S`,
where they keep `I`; a gradient `g` at `x` has `G x g`, and a criterion that holds at `g` after `k`
iterations has `T g k`.

* `Conjugate.solve_keeps`, `Newton.solve_keeps`: from a start in `S` both methods keep the
  invariant, return a point in `S` with a gradient that belongs to it, and end by their criterion
  only where it holds.

Each of them comes from what one leg keeps and an induction over the legs.
-/

namespace Descent

section

variable {α σ : Type} {n : Nat} {I : Invariant α σ}

/-- A map that keeps an invariant wherever it is applied. -/
def LinearMap.Kept (I : Invariant α σ) (map : LinearMap α σ n) : Prop :=
  ∀ v, (map v).Keeps I fun _ => True

namespace LinearSystem

variable {system : System α σ n}

/-- The maps of a system keep an invariant. -/
structure System.Kept (I : Invariant α σ) (system : System α σ n) : Prop where
  apply : LinearMap.Kept I system.apply
  precondition : ∀ map ∈ system.precondition, LinearMap.Kept I map

theorem smooth_keeps (h : system.Kept I) (r : Vec α n) :
    (system.smooth r).Keeps I fun _ => True := by
  unfold System.smooth
  split
  · rename_i map hmap
    exact h.precondition map hmap r
  · exact .pure trivial

variable [Scalar α]

theorem step_keeps (h : system.Kept I) (tolerance : α) (s : State α n) :
    (step system tolerance s).Keeps I fun _ => True := by
  refine .bind (h.apply s.direction) fun image _ => ?_
  refine .ite (fun _ => .pure trivial) fun _ => ?_
  refine .ite (fun _ => .pure trivial) fun _ => ?_
  refine .bind (smooth_keeps h _) fun smoothed _ => ?_
  refine .ite (fun _ => .pure trivial) fun _ => ?_
  exact .bind (.ofExcept fun _ _ => trivial) fun _ _ => .pure trivial

theorem iterate_keeps (h : system.Kept I) (tolerance : α) : ∀ budget completed s,
    (iterate system tolerance budget completed s).Keeps I fun _ => True := by
  intro budget
  induction budget with
  | zero =>
    intro completed s
    exact .pure trivial
  | succ budget ih =>
    intro completed s
    refine .bind (step_keeps h tolerance s) fun r _ => ?_
    cases r with
    | refused => exact .pure trivial
    | last exit point residual => exact .pure trivial
    | next t => exact ih (completed + 1) t

theorem solve_keeps (h : system.Kept I) (b guess : Vec α n) (tolerance : α) (budget : Nat) :
    (solve system b guess tolerance budget).Keeps I fun _ => True := by
  refine .bind (h.apply guess) fun image _ => ?_
  refine .ite (fun _ => .pure trivial) fun _ => ?_
  exact .bind (smooth_keeps h _) fun smoothed _ => iterate_keeps h tolerance budget 0 _

end LinearSystem

theorem LinearSystem.run_keeps [Numeral α] {system : System α σ n} (h : system.Kept I)
    (b guess : Vec α n) (tolerance : α) (budget : Nat) :
    (run system b guess tolerance budget).Keeps I fun _ => True := by
  refine .bind (solve_keeps h b guess tolerance budget) fun report _ => ?_
  exact .ite (fun _ => .bind .debug fun _ _ => .pure trivial) fun _ => .pure trivial

end

/-- A search along a ray through a point: the point found is the start or lies in `S`. -/
theorem Ray.search_through_keeps {α σ : Type} {n : Nat} [Scalar α] {I : Invariant α σ}
    {gradient : Vec α n → Run α σ (Vec α n)} {outside : Vec α n → Run α σ Bool}
    {S : Vec α n → Prop} {G : Vec α n → Vec α n → Prop}
    (hgradient : ∀ x, S x → (gradient x).Keeps I (G x))
    (houtside : ∀ x, (outside x).Keeps I fun out => out = false → S x) (x d : Vec α n)
    (rule : Ray.Rule α) (slope : α) :
    (search (through gradient outside x d) rule (some slope)).Keeps I fun found =>
      found.length = 0 ∨ S (Vec.along x found.length d) := by
  refine search_keeps (S := fun length => S (Vec.along x length d))
    (fun length => houtside (Vec.along x length d)) (fun length hin => ?_) rule slope
  exact .bind (hgradient _ hin) fun g _ => .pure trivial

/-- A length that is not found to be zero is not zero. -/
theorem Scalar.ne_zero_of_beq {α : Type} [Scalar α] {a : α} (h : (a == 0) = false) : a ≠ 0 := by
  rintro rfl
  rw [Scalar.zero_beq_zero] at h
  cases h

/-- What `Within` promises of a report: its point is in `S`, the gradient belongs to it, and the
exit is `criterion` only where the criterion holds. -/
def Minimize.Report.At {ε α : Type} {n : Nat} (S : Vec α n → Prop) (G : Vec α n → Vec α n → Prop)
    (T : Vec α n → Nat → Prop) (criterion : ε) (report : Minimize.Report ε α n) : Prop :=
  S report.point ∧ G report.point report.gradient ∧
    (report.exit = criterion → T report.gradient report.iterations)

namespace Conjugate

variable {α σ : Type} {n : Nat} [Numeral α]

/-- What is known of the functions that make up a problem. -/
structure Problem.Within (problem : Problem α σ n) (I : Invariant α σ) (S : Vec α n → Prop)
    (G : Vec α n → Vec α n → Prop) (T : Vec α n → Nat → Prop) : Prop where
  gradient : ∀ x, S x → (problem.gradient x).Keeps I (G x)
  precondition : ∀ x g, S x → (problem.precondition x g).Keeps I fun _ => True
  outside : ∀ x, (problem.outside x).Keeps I fun out => out = false → S x
  stop : ∀ g k, (problem.stop g k).Keeps I fun holds => holds = true → T g k

/-- The state that one search leads to. -/
def Leg.state : Leg α n → State α n
  | .accepted s | .retry s | .ended _ s => s

/-- The point is in `S` and the gradient belongs to it. -/
def State.At (S : Vec α n → Prop) (G : Vec α n → Vec α n → Prop) (s : State α n) : Prop :=
  S s.point ∧ G s.point s.gradient

variable {problem : Problem α σ n} {I : Invariant α σ} {S : Vec α n → Prop}
  {G : Vec α n → Vec α n → Prop} {T : Vec α n → Nat → Prop}

/-- Choosing a direction moves nothing. -/
theorem aim_eq_some {s t : State α n} {slope : α} (h : aim s = some (t, slope)) :
    t.point = s.point ∧ t.gradient = s.gradient := by
  simp only [aim] at h
  split at h
  · cases h
    exact ⟨rfl, rfl⟩
  · split at h
    · cases h
      exact ⟨rfl, rfl⟩
    · cases h

theorem leg_keeps (h : problem.Within I S G T) (rule : Rule α) {s : State α n} (hs : s.At S G) :
    (leg problem rule s).Keeps I fun r =>
      r.state.At S G ∧ ∀ exit t, r = .ended exit t → exit ≠ .criterion := by
  unfold leg
  cases haim : aim s with
  | none =>
    refine .pure ⟨hs, fun exit t ht => ?_⟩
    cases ht
    exact nofun
  | some r =>
    obtain ⟨t, slope⟩ := r
    obtain ⟨hpoint, hgradient⟩ := aim_eq_some haim
    have ht : S t.point ∧ G t.point t.gradient := by
      rw [hpoint, hgradient]
      exact hs
    refine .bind (R := fun _ => True) (.ofExcept fun _ _ => trivial) fun manner _ => ?_
    refine .bind (Ray.search_through_keeps h.gradient h.outside _ _ manner _) fun found hfound => ?_
    refine .ite (fun _ => .ite (fun _ => ?_) fun _ => ?_) fun hmoved => ?_
    · refine .pure ⟨ht, fun exit t ht => ?_⟩
      cases ht
      exact nofun
    · exact .pure ⟨ht, fun _ _ ht => by cases ht⟩
    · have hlength : (found.length == 0) = false := by
        simp only [Bool.or_eq_true, not_or, Bool.not_eq_true] at hmoved
        exact hmoved.1
      have hin := hfound.resolve_left (Scalar.ne_zero_of_beq hlength)
      refine .bind (h.gradient _ hin) fun g hg => ?_
      refine .bind (h.precondition _ g hin) fun z _ => ?_
      exact .pure ⟨⟨hin, hg⟩, fun _ _ ht => by cases ht⟩

omit [Numeral α] in
/-- The criterion is asked before every leg, and the run ends by it only where it holds. -/
theorem stop_keeps (h : problem.Within I S G T) {s : State α n} (hs : s.At S G)
    {rest : Run α σ (Report α n)} (hrest : rest.Keeps I (Minimize.Report.At S G T .criterion)) :
    Run.Keeps I
      (do if ← problem.stop s.gradient s.iterations then return s.report .criterion else rest)
      (Minimize.Report.At S G T .criterion) := by
  refine .bind (h.stop s.gradient s.iterations) fun holds hholds => ?_
  cases holds with
  | true => exact .pure ⟨hs.1, hs.2, fun _ => hholds rfl⟩
  | false => exact hrest

omit [Numeral α] in
theorem report_at {s : State α n} (hs : s.At S G) {exit : Exit} (hexit : exit ≠ .criterion) :
    (s.report exit).At S G T .criterion :=
  ⟨hs.1, hs.2, fun he => absurd he hexit⟩

theorem iterate_keeps (h : problem.Within I S G T) (rule : Rule α) : ∀ budget s, s.At S G →
    (iterate problem rule budget s).Keeps I (Minimize.Report.At S G T .criterion) := by
  intro budget
  induction budget with
  | zero =>
    intro s hs
    exact stop_keeps h hs (.pure (report_at hs nofun))
  | succ budget ih =>
    intro s hs
    refine stop_keeps h hs (.bind (leg_keeps h rule hs) fun r hr => ?_)
    cases r with
    | accepted t => exact ih t hr.1
    | ended exit t => exact .pure (report_at hr.1 (hr.2 exit t rfl))
    | retry t =>
      refine stop_keeps h hr.1 (.bind (leg_keeps h rule hr.1) fun r hr => ?_)
      cases r with
      | accepted t => exact ih t hr.1
      | ended exit t => exact .pure (report_at hr.1 (hr.2 exit t rfl))
      | retry t => exact .pure (report_at hr.1 nofun)

theorem solve_keeps (h : problem.Within I S G T) (rule : Rule α) (budget : Nat) {start : Vec α n}
    (hstart : S start) :
    (solve problem rule budget start).Keeps I (Minimize.Report.At S G T .criterion) := by
  refine .bind (h.gradient start hstart) fun g hg => ?_
  refine .bind (h.precondition start g hstart) fun z _ => ?_
  exact iterate_keeps h rule budget _ ⟨hstart, hg⟩

end Conjugate

namespace Newton

variable {α σ : Type} {n : Nat} [Numeral α]

/-- What is known of the functions that make up a problem. -/
structure Problem.Within (problem : Problem α σ n) (I : Invariant α σ) (S : Vec α n → Prop)
    (G : Vec α n → Vec α n → Prop) (T : Vec α n → Nat → Prop) : Prop where
  gradient : ∀ x, S x → (problem.gradient x).Keeps I (G x)
  hessian : ∀ x, S x → (problem.hessian x).Keeps I (LinearMap.Kept I)
  precondition : ∀ x, S x →
    (problem.precondition x).Keeps I fun smoother => ∀ map ∈ smoother, LinearMap.Kept I map
  outside : ∀ x, (problem.outside x).Keeps I fun out => out = false → S x
  stop : ∀ g k, (problem.stop g k).Keeps I fun holds => holds = true → T g k

/-- The state that one outer iteration leads to. -/
def Leg.state : Leg α n → State α n
  | .accepted s | .ended s => s

/-- The point is in `S` and the gradient belongs to it. -/
def State.At (S : Vec α n → Prop) (G : Vec α n → Vec α n → Prop) (s : State α n) : Prop :=
  S s.point ∧ G s.point s.gradient

variable {problem : Problem α σ n} {I : Invariant α σ} {S : Vec α n → Prop}
  {G : Vec α n → Vec α n → Prop} {T : Vec α n → Nat → Prop}

theorem steepest_keeps {smoother : Option (LinearMap α σ n)}
    (h : ∀ map ∈ smoother, LinearMap.Kept I map) (g : Vec α n) :
    (steepest smoother g).Keeps I fun _ => True := by
  cases smoother with
  | none => exact .pure trivial
  | some map => exact .bind (h map rfl g) fun _ _ => .pure trivial

theorem direction_keeps (h : problem.Within I S G T) (rule : Rule α)
    {smoother : Option (LinearMap α σ n)} (hsmoother : ∀ map ∈ smoother, LinearMap.Kept I map)
    {s : State α n} (hs : S s.point) :
    (direction problem rule smoother s).Keeps I fun _ => True := by
  refine .bind (h.hessian s.point hs) fun hessian hhessian => ?_
  refine .bind (LinearSystem.run_keeps ⟨hhessian, hsmoother⟩ _ _ _ _) fun inner _ => ?_
  refine .ite (fun _ => .pure trivial) fun _ => ?_
  exact .bind (steepest_keeps hsmoother _) fun _ _ => .pure trivial

theorem attempt_keeps (h : problem.Within I S G T) (rule : Rule α) (s : State α n)
    (step : Vec α n) :
    (attempt problem rule s step).Keeps I fun trial => trial.moved = true → S trial.point := by
  refine .bind (Ray.search_through_keeps h.gradient h.outside _ _ _ _) fun found hfound => ?_
  refine .pure fun hmoved => ?_
  have hlength : (found.length == 0) = false := by
    simp only [Bool.not_eq_true', Bool.or_eq_false_iff] at hmoved
    exact hmoved.1
  exact hfound.resolve_left (Scalar.ne_zero_of_beq hlength)

omit [Numeral α] in
theorem arrive_keeps (h : problem.Within I S G T) (s : State α n) {point : Vec α n}
    (hpoint : S point) (evaluations : Nat) :
    (arrive problem s point evaluations).Keeps I fun r => r.state.At S G :=
  .bind (h.gradient point hpoint) fun _ hg => .pure ⟨hpoint, hg⟩

theorem leg_keeps (h : problem.Within I S G T) (rule : Rule α) {s : State α n} (hs : s.At S G) :
    (leg problem rule s).Keeps I fun r => r.state.At S G := by
  refine .bind (h.precondition s.point hs.1) fun smoother hsmoother => ?_
  refine .bind (direction_keeps h rule hsmoother hs.1) fun direction _ => ?_
  refine .bind (attempt_keeps h rule s direction.step) fun first hfirst => ?_
  refine .ite (fun hmoved => arrive_keeps h s (hfirst hmoved) _) fun _ => ?_
  refine .ite (fun _ => ?_) fun _ => .pure hs
  refine .bind .debug fun _ _ => ?_
  refine .bind (steepest_keeps hsmoother s.gradient) fun step _ => ?_
  refine .bind (attempt_keeps h rule s step) fun second hsecond => ?_
  exact .ite (fun hmoved => arrive_keeps h s (hsecond hmoved) _) fun _ => .pure hs

theorem iterate_keeps (h : problem.Within I S G T) (rule : Rule α) : ∀ budget s, s.At S G →
    (iterate problem rule budget s).Keeps I (Minimize.Report.At S G T .criterion) := by
  intro budget
  induction budget with
  | zero =>
    intro s hs
    refine .bind (h.stop s.gradient s.iterations) fun holds hholds => ?_
    cases holds with
    | true => exact .pure ⟨hs.1, hs.2, fun _ => hholds rfl⟩
    | false => exact .pure ⟨hs.1, hs.2, nofun⟩
  | succ budget ih =>
    intro s hs
    refine .bind (h.stop s.gradient s.iterations) fun holds hholds => ?_
    cases holds with
    | true => exact .pure ⟨hs.1, hs.2, fun _ => hholds rfl⟩
    | false =>
      refine .bind (leg_keeps h rule hs) fun r hr => ?_
      cases r with
      | accepted t => exact ih t hr
      | ended t => exact .pure ⟨hr.1, hr.2, nofun⟩

theorem solve_keeps (h : problem.Within I S G T) (rule : Rule α) (budget : Nat) {start : Vec α n}
    (hstart : S start) :
    (solve problem rule budget start).Keeps I (Minimize.Report.At S G T .criterion) :=
  .bind (h.gradient start hstart) fun _ hg => iterate_keeps h rule budget _ ⟨hstart, hg⟩

end Newton

end Descent
