import Descent.Proofs.Minimize.Outer
import Descent.Proofs.Ray.Comparison

/-!
# Minimizations compared

Two problems whose functions compare at the points of a set `S`, which contains every point found
inside the domain: from a start in `S` the methods take the same course with both.

* `LinearSystem.iterateWith_compares`, `Newton.iterateWith_compares`: loops whose steps compare;
* `LinearSystem.run_compares`: solves of linear systems;
* `Conjugate.solve_compares`, `Newton.solve_compares`: both methods report the same, and end at a
  point of `S`;
* `Newton.leg_eq_tries`: an outer iteration of a Newton run depends on nothing but its point and the
  gradient there, apart from the counts.
-/

namespace Descent

variable {α σ : Type} {n : Nat} {c : Comparison α σ}

/-- Two maps that compare wherever they are applied. -/
def LinearMap.Compare (c : Comparison α σ) (map map' : LinearMap α σ n) : Prop :=
  ∀ v, c.Compares Eq (map v) (map' v)

/-! ## Linear systems -/

namespace LinearSystem

variable {system system' : System α σ n}

/-- Two systems whose maps compare. -/
structure System.Compare (c : Comparison α σ) (system system' : System α σ n) : Prop where
  apply : LinearMap.Compare c system.apply system'.apply
  precondition : Option.Rel (LinearMap.Compare c) system.precondition system'.precondition

theorem smooth_compares (h : system.Compare c system') (r : Vec α n) :
    c.Compares Eq (system.smooth r) (system'.smooth r) := by
  unfold System.smooth
  generalize system.precondition = map, system'.precondition = map', h.precondition = hmaps
  cases hmaps with
  | none => exact .pure rfl
  | some hmap => exact hmap r

variable [Scalar α]

theorem step_compares (h : system.Compare c system') (tolerance : α) (s : State α n) :
    c.Compares Eq (step system tolerance s) (step system' tolerance s) := by
  refine .bind (h.apply s.direction) ?_
  rintro image _ rfl
  refine .ite Iff.rfl (fun _ => .pure rfl) fun _ => ?_
  refine .ite Iff.rfl (fun _ => .pure rfl) fun _ => ?_
  refine .bind (smooth_compares h _) ?_
  rintro smoothed _ rfl
  refine .ite Iff.rfl (fun _ => .pure rfl) fun _ => ?_
  exact .check fun beta _ => .pure rfl

/-- The iterations, given what one of them does. -/
def iterateWith (step : State α n → Run α σ (Step α n)) :
    (budget completed : Nat) → State α n → Run α σ (Report α n)
  | 0, completed, s => return ⟨s.point, s.residual, completed, .budget⟩
  | budget + 1, completed, s => do
    match ← step s with
    | .refused => return ⟨s.point, s.residual, completed, .curvature⟩
    | .last exit point residual => return ⟨point, residual, completed + 1, exit⟩
    | .next s => iterateWith step budget (completed + 1) s

theorem iterate_eq_iterateWith (system : System α σ n) (tolerance : α) : ∀ budget completed s,
    iterate system tolerance budget completed s =
      iterateWith (step system tolerance) budget completed s := by
  intro budget
  induction budget with
  | zero => exact fun completed s => rfl
  | succ budget ih =>
    intro completed s
    simp only [iterate, ih]
    rfl

omit [Scalar α] in
/-- Steps that compare at the states with `P`, and lead to such states again. -/
theorem iterateWith_compares {P : State α n → Prop} {step step' : State α n → Run α σ (Step α n)}
    (h : ∀ s, P s → c.Compares (fun r r' => r = r' ∧ ∀ t, r = .next t → P t) (step s) (step' s)) :
    ∀ budget completed s, P s → c.Compares Eq (iterateWith step budget completed s)
      (iterateWith step' budget completed s) := by
  intro budget
  induction budget with
  | zero => exact fun completed s _ => .pure rfl
  | succ budget ih =>
    intro completed s hs
    refine .bind (h s hs) ?_
    rintro r _ ⟨rfl, hr⟩
    cases r with
    | refused => exact .pure rfl
    | last exit point residual => exact .pure rfl
    | next t => exact ih (completed + 1) t (hr t rfl)

theorem iterate_compares (h : system.Compare c system') (tolerance : α) (budget completed : Nat)
    (s : State α n) : c.Compares Eq (iterate system tolerance budget completed s)
      (iterate system' tolerance budget completed s) := by
  simp only [iterate_eq_iterateWith]
  exact iterateWith_compares (P := fun _ => True) (fun s _ =>
    (step_compares h tolerance s).mono fun _ _ hr => ⟨hr, fun _ _ => trivial⟩) _ _ s trivial

theorem solve_compares (h : system.Compare c system') (b guess : Vec α n) (tolerance : α)
    (budget : Nat) : c.Compares Eq (solve system b guess tolerance budget)
      (solve system' b guess tolerance budget) := by
  refine .bind (h.apply guess) ?_
  rintro image _ rfl
  refine .ite Iff.rfl (fun _ => .pure rfl) fun _ => .bind (smooth_compares h _) ?_
  rintro smoothed _ rfl
  exact iterate_compares h tolerance budget 0 _

end LinearSystem

theorem LinearSystem.run_compares [Numeral α] {system system' : System α σ n}
    (h : system.Compare c system') (b guess : Vec α n) (tolerance : α) (budget : Nat) :
    c.Compares Eq (run system b guess tolerance budget) (run system' b guess tolerance budget) := by
  refine .bind (solve_compares h b guess tolerance budget) ?_
  rintro report _ rfl
  exact .ite Iff.rfl (fun _ => .bind (.debug _ _) fun _ _ _ => .pure rfl) fun _ => .pure rfl

/-! ## Searches between vectors -/

theorem Ray.through_compare [Scalar α] {gradient gradient' : Vec α n → Run α σ (Vec α n)}
    {outside outside' : Vec α n → Run α σ Bool} {S : Vec α n → Prop}
    (hgradient : ∀ x, S x → c.Compares Eq (gradient x) (gradient' x))
    (houtside : ∀ x, c.Compares (fun out out' => out = out' ∧ (out = false → S x)) (outside x)
      (outside' x)) (x d : Vec α n) :
    Compare c (fun length => S (Vec.along x length d)) (through gradient outside x d)
      (through gradient' outside' x d) := by
  refine ⟨fun length hin => ?_, fun length => houtside _⟩
  refine .bind (hgradient _ hin) ?_
  rintro g _ rfl
  exact .pure rfl

/-! ## Conjugate gradients -/

namespace Conjugate

variable [Numeral α] {problem problem' : Problem α σ n} {S : Vec α n → Prop}

/-- Two problems whose functions compare at the points of `S`. -/
structure Problem.Compare (c : Comparison α σ) (S : Vec α n → Prop)
    (problem problem' : Problem α σ n) : Prop where
  gradient : ∀ x, S x → c.Compares Eq (problem.gradient x) (problem'.gradient x)
  precondition : ∀ x g, S x →
    c.Compares Eq (problem.precondition x g) (problem'.precondition x g)
  outside : ∀ x, c.Compares (fun out out' => out = out' ∧ (out = false → S x))
    (problem.outside x) (problem'.outside x)
  stop : ∀ g k, c.Compares Eq (problem.stop g k) (problem'.stop g k)

theorem leg_compares (h : problem.Compare c S problem') (rule : Rule α) {s : State α n}
    (hs : S s.point) : c.Compares (fun r r' => r = r' ∧ S r.state.point) (leg problem rule s)
      (leg problem' rule s) := by
  unfold leg
  cases haim : aim s with
  | none => exact .pure ⟨rfl, hs⟩
  | some r =>
    obtain ⟨t, slope⟩ := r
    have ht : S t.point := (aim_eq_some haim).1 ▸ hs
    refine .check fun manner _ => ?_
    refine .bind (Ray.search_compares (Ray.through_compare h.gradient h.outside _ _) manner _) ?_
    rintro found _ ⟨rfl, hfound⟩
    refine .ite Iff.rfl (fun _ => .ite Iff.rfl (fun _ => .pure ⟨rfl, ht⟩) fun _ =>
      .pure ⟨rfl, ht⟩) fun hmoved => ?_
    have hlength : (found.length == 0) = false := by
      simp only [Bool.or_eq_true, not_or, Bool.not_eq_true] at hmoved
      exact hmoved.1
    have hin := hfound.resolve_left (Scalar.ne_zero_of_beq hlength)
    refine .bind (h.gradient _ hin) ?_
    rintro g _ rfl
    refine .bind (h.precondition _ g hin) ?_
    rintro z _ rfl
    exact .pure ⟨rfl, hin⟩

omit [Numeral α] in
/-- Both methods ask their criterion and go on if it does not hold. -/
theorem stop_compares (h : problem.Compare c S problem') {s : State α n} (hs : S s.point)
    {rest rest' : Run α σ (Report α n)}
    (hrest : c.Compares (fun r r' => r = r' ∧ S r.point) rest rest') :
    c.Compares (fun r r' => r = r' ∧ S r.point)
      (do if ← problem.stop s.gradient s.iterations then return s.report .criterion else rest)
      (do if ← problem'.stop s.gradient s.iterations then return s.report .criterion
          else rest') := by
  refine .bind (h.stop s.gradient s.iterations) ?_
  rintro holds _ rfl
  exact .ite Iff.rfl (fun _ => .pure ⟨rfl, hs⟩) fun _ => hrest

theorem iterate_compares (h : problem.Compare c S problem') (rule : Rule α) :
    ∀ budget (s : State α n), S s.point → c.Compares (fun r r' => r = r' ∧ S r.point)
      (iterate problem rule budget s) (iterate problem' rule budget s) := by
  intro budget
  induction budget with
  | zero =>
    intro s hs
    exact stop_compares h hs (.pure ⟨rfl, hs⟩)
  | succ budget ih =>
    intro s hs
    refine stop_compares h hs (.bind (leg_compares h rule hs) ?_)
    rintro r _ ⟨rfl, hr⟩
    cases r with
    | accepted t => exact ih t hr
    | ended exit t => exact .pure ⟨rfl, hr⟩
    | retry t =>
      refine stop_compares h hr (.bind (leg_compares h rule hr) ?_)
      rintro r _ ⟨rfl, hr'⟩
      cases r with
      | accepted u => exact ih u hr'
      | ended exit u => exact .pure ⟨rfl, hr'⟩
      | retry u => exact .pure ⟨rfl, hr'⟩

/-- **Minimizations of problems that compare report the same**, and end at a point of `S`. -/
theorem solve_compares (h : problem.Compare c S problem') (rule : Rule α) (budget : Nat)
    {start : Vec α n} (hs : S start) : c.Compares (fun r r' => r = r' ∧ S r.point)
      (solve problem rule budget start) (solve problem' rule budget start) := by
  refine .bind (h.gradient start hs) ?_
  rintro g _ rfl
  refine .bind (h.precondition start g hs) ?_
  rintro z _ rfl
  exact iterate_compares h rule budget _ hs

end Conjugate

/-! ## Truncated Newton steps -/

namespace Newton

variable [Numeral α] {problem problem' : Problem α σ n} {S : Vec α n → Prop}

/-- Two problems whose functions compare at the points of `S`. -/
structure Problem.Compare (c : Comparison α σ) (S : Vec α n → Prop)
    (problem problem' : Problem α σ n) : Prop where
  gradient : ∀ x, S x → c.Compares Eq (problem.gradient x) (problem'.gradient x)
  hessian : ∀ x, S x →
    c.Compares (LinearMap.Compare c) (problem.hessian x) (problem'.hessian x)
  precondition : ∀ x, S x → c.Compares (Option.Rel (LinearMap.Compare c))
    (problem.precondition x) (problem'.precondition x)
  outside : ∀ x, c.Compares (fun out out' => out = out' ∧ (out = false → S x))
    (problem.outside x) (problem'.outside x)
  stop : ∀ g k, c.Compares Eq (problem.stop g k) (problem'.stop g k)

theorem steepest_compares {smoother smoother' : Option (LinearMap α σ n)}
    (h : Option.Rel (LinearMap.Compare c) smoother smoother') (g : Vec α n) :
    c.Compares Eq (steepest smoother g) (steepest smoother' g) := by
  cases h with
  | none => exact .pure rfl
  | some hmap =>
    refine .bind (hmap g) ?_
    rintro z _ rfl
    exact .pure rfl

theorem direction_compares (h : problem.Compare c S problem') (rule : Rule α)
    {smoother smoother' : Option (LinearMap α σ n)}
    (hsmoother : Option.Rel (LinearMap.Compare c) smoother smoother') {s : State α n}
    (hs : S s.point) : c.Compares Eq (direction problem rule smoother s)
      (direction problem' rule smoother' s) := by
  refine .bind (h.hessian s.point hs) fun hessian hessian' hhessian => ?_
  refine .bind (LinearSystem.run_compares ⟨hhessian, hsmoother⟩ _ _ _ _) ?_
  rintro inner _ rfl
  refine .ite Iff.rfl (fun _ => .pure rfl) fun _ => .bind (steepest_compares hsmoother _) ?_
  rintro step _ rfl
  exact .pure rfl

theorem attempt_compares (h : problem.Compare c S problem') (rule : Rule α) (s : State α n)
    (step : Vec α n) : c.Compares (fun r r' => r = r' ∧ (r.moved = true → S r.point))
      (attempt problem rule s step) (attempt problem' rule s step) := by
  refine .bind (Ray.search_compares (Ray.through_compare h.gradient h.outside _ _) _ _) ?_
  rintro found _ ⟨rfl, hfound⟩
  refine .pure ⟨rfl, fun hmoved => ?_⟩
  have hlength : (found.length == 0) = false := by
    simp only [Bool.not_eq_true', Bool.or_eq_false_iff] at hmoved
    exact hmoved.1
  exact hfound.resolve_left (Scalar.ne_zero_of_beq hlength)

/-- The searches of an outer iteration at a point and the gradient there. -/
def tries (problem : Problem α σ n) (rule : Rule α) (x g : Vec α n) : Run α σ (Tries α n) := do
  let s : State α n := ⟨x, g, 0, 0⟩
  let smoother ← problem.precondition x
  let direction ← direction problem rule smoother s
  seek problem rule smoother s direction

/-- An outer iteration searches, whatever the counts are, and concludes. -/
theorem leg_eq_tries (problem : Problem α σ n) (rule : Rule α) (s : State α n) :
    leg problem rule s = tries problem rule s.point s.gradient >>= conclude problem s := by
  rw [leg_eq_survey]
  simp only [survey, tries, direction_eq, map_eq_pure_bind, bind_assoc, pure_bind, bind_pure]
  rfl

theorem seek_compares (h : problem.Compare c S problem') (rule : Rule α)
    {smoother smoother' : Option (LinearMap α σ n)}
    (hsmoother : Option.Rel (LinearMap.Compare c) smoother smoother') (s : State α n)
    (direction : Direction α n) :
    c.Compares (fun r r' => r = r' ∧ (r.last.moved = true → S r.last.point))
      (seek problem rule smoother s direction) (seek problem' rule smoother' s direction) := by
  refine .bind (attempt_compares h rule _ direction.step) ?_
  rintro first _ ⟨rfl, hfirst⟩
  refine .ite Iff.rfl (fun _ => .pure ⟨rfl, hfirst⟩) fun _ => ?_
  refine .ite Iff.rfl (fun _ => ?_) fun _ => .pure ⟨rfl, hfirst⟩
  refine .bind (.debug _ _) fun _ _ _ => .bind (steepest_compares hsmoother _) ?_
  rintro step _ rfl
  refine .bind (attempt_compares h rule _ step) ?_
  rintro second _ ⟨rfl, hsecond⟩
  exact .pure ⟨rfl, hsecond⟩

theorem tries_compares (h : problem.Compare c S problem') (rule : Rule α) {x : Vec α n} (hx : S x)
    (g : Vec α n) :
    c.Compares (fun r r' => r = r' ∧ (r.last.moved = true → S r.last.point))
      (tries problem rule x g) (tries problem' rule x g) := by
  refine .bind (h.precondition x hx) fun smoother smoother' hsmoother => ?_
  refine .bind (direction_compares h rule hsmoother hx) ?_
  rintro direction _ rfl
  exact seek_compares h rule hsmoother _ direction

omit [Numeral α] in
theorem conclude_compares (h : problem.Compare c S problem') {s : State α n} (hs : S s.point)
    {tries : Tries α n} (htries : tries.last.moved = true → S tries.last.point) :
    c.Compares (fun r r' => r = r' ∧ S r.state.point) (conclude problem s tries)
      (conclude problem' s tries) := by
  refine .ite Iff.rfl (fun hmoved => ?_) fun _ => .pure ⟨rfl, hs⟩
  have hpoint := htries hmoved
  refine .bind (h.gradient _ hpoint) ?_
  rintro g _ rfl
  exact .pure ⟨rfl, hpoint⟩

theorem leg_compares (h : problem.Compare c S problem') (rule : Rule α) {s : State α n}
    (hs : S s.point) : c.Compares (fun r r' => r = r' ∧ S r.state.point) (leg problem rule s)
      (leg problem' rule s) := by
  rw [leg_eq_tries, leg_eq_tries]
  refine .bind (tries_compares h rule hs _) ?_
  rintro tries _ ⟨rfl, htries⟩
  exact conclude_compares h hs htries

/-- The outer iterations, given the criterion and what one of them does. -/
def iterateWith (stop : Vec α n → Nat → Run α σ Bool) (leg : State α n → Run α σ (Leg α n)) :
    (budget : Nat) → State α n → Run α σ (Report α n)
  | 0, s => do
    if ← stop s.gradient s.iterations then return s.report .criterion
    else return s.report .budget
  | budget + 1, s => do
    if ← stop s.gradient s.iterations then return s.report .criterion
    else
      match ← leg s with
      | .accepted s => iterateWith stop leg budget s
      | .ended s => return s.report .noProgress

theorem iterate_eq_iterateWith (problem : Problem α σ n) (rule : Rule α) : ∀ budget s,
    iterate problem rule budget s = iterateWith problem.stop (leg problem rule) budget s := by
  intro budget
  induction budget with
  | zero => exact fun s => rfl
  | succ budget ih =>
    intro s
    simp only [iterate, ih]
    rfl

omit [Numeral α] in
/-- Outer iterations that compare from the points of `S`, and end at such points again. -/
theorem iterateWith_compares {stop stop' : Vec α n → Nat → Run α σ Bool}
    {leg leg' : State α n → Run α σ (Leg α n)}
    (hstop : ∀ g k, c.Compares Eq (stop g k) (stop' g k))
    (hleg : ∀ s, S s.point →
      c.Compares (fun r r' => r = r' ∧ S r.state.point) (leg s) (leg' s)) :
    ∀ budget (s : State α n), S s.point → c.Compares (fun r r' => r = r' ∧ S r.point)
      (iterateWith stop leg budget s) (iterateWith stop' leg' budget s) := by
  intro budget
  induction budget with
  | zero =>
    intro s hs
    refine .bind (hstop s.gradient s.iterations) ?_
    rintro holds _ rfl
    exact .ite Iff.rfl (fun _ => .pure ⟨rfl, hs⟩) fun _ => .pure ⟨rfl, hs⟩
  | succ budget ih =>
    intro s hs
    refine .bind (hstop s.gradient s.iterations) ?_
    rintro holds _ rfl
    refine .ite Iff.rfl (fun _ => .pure ⟨rfl, hs⟩) fun _ => .bind (hleg s hs) ?_
    rintro r _ ⟨rfl, hr⟩
    cases r with
    | accepted t => exact ih t hr
    | ended t => exact .pure ⟨rfl, hr⟩

theorem iterate_compares (h : problem.Compare c S problem') (rule : Rule α) (budget : Nat)
    {s : State α n} (hs : S s.point) : c.Compares (fun r r' => r = r' ∧ S r.point)
      (iterate problem rule budget s) (iterate problem' rule budget s) := by
  simp only [iterate_eq_iterateWith]
  exact iterateWith_compares h.stop (fun s hs => leg_compares h rule hs) budget s hs

/-- **Minimizations of problems that compare report the same**, and end at a point of `S`. -/
theorem solve_compares (h : problem.Compare c S problem') (rule : Rule α) (budget : Nat)
    {start : Vec α n} (hs : S start) : c.Compares (fun r r' => r = r' ∧ S r.point)
      (solve problem rule budget start) (solve problem' rule budget start) := by
  refine .bind (h.gradient start hs) ?_
  rintro g _ rfl
  exact iterate_compares h rule budget hs

end Newton

end Descent
