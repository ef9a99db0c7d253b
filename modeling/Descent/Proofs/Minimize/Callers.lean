import Descent.Proofs.Minimize.Inside
import Descent.Proofs.Minimize.Reading

/-!
# Minimizations of what callers give

The functions that callers give are only known to keep an invariant `I` at the points of a set `S`,
which contains the start and every point found inside the domain.

* `Conjugate.Task.read_within`, `Newton.Task.read_within`: what was read from callers is a problem
  that stays within `S`.
* `minimizeConjugate_keeps`, `minimizeNewton_keeps`: both minimizers keep the invariant and return a
  point of `S`.
* `minimizeConjugate_ends`, `minimizeNewton_ends`: they return the point where they ended;
  `Conjugate.norm_lt_of_ends`, `Newton.norm_lt_of_ends`: where the gradient norm ended them, the
  gradient is small.
-/

namespace Descent

variable {α σ : Type} [Numeral α] {I : Invariant α σ} {S : Array α → Prop}

/-- A function of a point that keeps an invariant on a set of points. -/
def Run.KeptOn {β : Type} (I : Invariant α σ) (S : Array α → Prop) (f : Array α → Run α σ β) :
    Prop :=
  ∀ x, S x → (f x).Keeps I fun _ => True

/-- An operator that keeps an invariant wherever it is applied. -/
def Operator.Kept (I : Invariant α σ) (op : Operator α σ) : Prop :=
  ∀ {n : Nat} (v : Vec α n), (op.apply v).Keeps I fun _ => True

/-- A tensor that keeps an invariant on a set of points, and whose operators there keep it too. -/
def Tensor.KeptOn (I : Invariant α σ) (S : Array α → Prop) (tensor : Tensor α σ) : Prop :=
  ∀ {n : Nat} (x : Vec α n), S x.toArray → (tensor.operatorAt x).Keeps I (Operator.Kept I)

/-- A criterion that keeps an invariant, and holds only where `T` does. -/
def CriterionLike.Kept (I : Invariant α σ) (T : Array α → Nat → Prop) (stop : CriterionLike α σ) :
    Prop :=
  ∀ c, stop.toCriterion = .ok c → ∀ {n : Nat} (g : Vec α n) (k : Nat),
    (c.holds g (.whole k)).Keeps I fun holds => holds = true → T g.toArray k

/-- The points found inside a domain that are as long as a point of `S` belong to `S` as well. -/
def Region.KeptOn (I : Invariant α σ) (S : Array α → Prop) (outside : Region α σ) : Prop :=
  ∀ x y, S x → y.size = x.size → (outside y).Keeps I fun out => out = false → S y

/-- A vector reads as itself. -/
theorem Datum.toVec_vector {n : Nat} (name : String) (v : Vec α n) :
    (Datum.vector v.toArray).toVec name n = .ok v := by
  obtain ⟨a, rfl⟩ := v
  exact dif_pos rfl

/-- The value of a field that returns the entries of a vector is the vector. -/
theorem VectorField.valueAt_eq {f : VectorField α σ} {n : Nat} {x : Vec α n}
    {run : Run α σ (Vec α n)} (h : f x.toArray = run >>= fun g => pure (.vector g.toArray))
    (name : String) : f.valueAt name x = run := by
  rw [valueAt, h, bind_assoc]
  simp only [pure_bind, Datum.toVec_vector]
  exact bind_pure run

theorem VectorField.valueAt_keeps {f : VectorField α σ} (h : Run.KeptOn I S f) (name : String)
    {n : Nat} (x : Vec α n) (hx : S x.toArray) : (f.valueAt name x).Keeps I fun _ => True :=
  .bind (h x.toArray hx) fun _ _ => .ofExcept fun _ _ => trivial

namespace Operator

variable {left right inner : Operator α σ}

omit [Numeral α] in
theorem fits_keeps (op : Operator α σ) (n : Nat) : (op.fits n).Keeps I fun _ => True := by
  unfold fits
  split
  · exact .ite (fun _ => .pure trivial) fun _ => .throw
  · exact .pure trivial

theorem Kept.add (hl : left.Kept I) (hr : right.Kept I) {op : Operator α σ}
    (h : left.add right = .ok op) : op.Kept I := by
  have hop : op = .sum left right := by
    unfold Operator.add at h
    split at h
    · split at h
      · exact (Except.ok.inj h).symm
      · cases h
    · exact (Except.ok.inj h).symm
  subst hop
  intro n v
  unfold Operator.apply
  refine .bind (fits_keeps _ n) fun _ _ => ?_
  exact .bind (hl v) fun a _ => .bind (hr v) fun b _ => .pure trivial

theorem Kept.scaled (h : inner.Kept I) (factor : α) : (Operator.scaled inner factor).Kept I := by
  intro n v
  unfold Operator.apply
  exact .bind (fits_keeps _ n) fun _ _ => .bind (h v) fun a _ => .pure trivial

end Operator

/-- An operator made at every point from what is known there. -/
theorem Tensor.varying_keptOn {f : Array α → Run α σ (OperatorLike α σ)}
    (h : ∀ x, S x → (f x).Keeps I fun o => ∀ op, o.toOperator = .ok op → op.Kept I) :
    (Tensor.varying f).KeptOn I S := by
  intro n x hx
  exact .bind (h x.toArray hx) fun o ho => .ofExcept ho

/-! ## Results without an invariant -/

theorem Vec.norm_ofArray_toArray {n : Nat} (v : Vec α n) :
    Vec.norm (Vec.ofArray v.toArray) = Vec.norm v := by
  obtain ⟨a, rfl⟩ := v
  rfl

omit [Numeral α] in
/-- The length of a point says nothing about a domain. -/
theorem Region.keptOn_size (outside : Region α σ) (n : Nat) :
    outside.KeptOn Invariant.none fun x => x.size = n :=
  fun _ y hx hy => (Run.keeps_none (outside y)).mono fun _ _ _ => hy.trans hx

theorem Tensor.keptOn_none (tensor : Tensor α σ) (S : Array α → Prop) :
    tensor.KeptOn Invariant.none S :=
  fun x _ => (Run.keeps_none (tensor.operatorAt x)).mono fun op _ _ v => Run.keeps_none (op.apply v)

/-- What a function returns at vectors of length `n`, for points given as arrays. -/
theorem VectorField.valueAt_returns {gradient : VectorField α σ} {n : Nat}
    {df : Vec α n → Vec α n} (h : ∀ x, (gradient.valueAt "gradient" x).Returns (df x)) {m : Nat}
    (x : Vec α m) (hx : x.toArray.size = n) :
    (gradient.valueAt "gradient" x).Keeps Invariant.none fun g =>
      ∀ y : Vec α n, y.toArray = x.toArray → g.toArray = (df y).toArray := by
  obtain rfl : m = n := by simpa using hx
  refine (h x).mono fun g hg y hy => ?_
  rw [hg, Vector.toArray_inj.1 hy]

theorem CriterionLike.kept_none (stop : CriterionLike α σ) :
    stop.Kept Invariant.none fun _ _ => True :=
  fun c _ _ g k => (Run.keeps_none (c.holds g (.whole k))).mono fun _ _ _ => trivial

theorem CriterionLike.gradientNorm_kept {stop : CriterionLike α σ} {tolerance : α}
    (h : stop.toCriterion = .ok (.gradientNorm tolerance)) :
    stop.Kept Invariant.none fun g _ => Vec.norm (Vec.ofArray g) < tolerance := by
  intro c hc n g k
  cases h.symm.trans hc
  refine .pure fun hholds => ?_
  have hnorm : Vec.norm g < tolerance := of_decide_eq_true hholds
  rwa [← Vec.norm_ofArray_toArray] at hnorm

/-- A report that keeps to what the functions of callers return, and to a bound on the norm of the
gradient. -/
def Minimize.Report.Small {ε : Type} {n m : Nat} (report : Minimize.Report ε α m)
    (df : Vec α n → Vec α n) (tolerance : α) (criterion : ε) : Prop :=
  report.At (fun x => x.toArray.size = n)
    (fun x g => ∀ y : Vec α n, y.toArray = x.toArray → g.toArray = (df y).toArray)
    (fun g _ => Vec.norm (Vec.ofArray g.toArray) < tolerance) criterion

/-- Where the gradient norm has ended a minimization that was read, the gradient is small. -/
theorem Minimize.Task.norm_lt {P : Nat → Type} {ε ρ τ : Type} {settings : Except Fault τ}
    {start : Datum α} {problem : τ → (n : Nat) → P n} {rule : τ → Nat → ρ} {budget : τ → Number α}
    {task : Minimize.Task P ρ α} {solve : Run α σ (Minimize.Report ε α task.unknowns)}
    {report : Minimize.Report ε α task.unknowns} {s s' : Session α σ} {n : Nat}
    {df : Vec α n → Vec α n} {tolerance : α} {criterion : ε} {x : Vec α n}
    (hread : Minimize.Task.setUp settings start problem rule budget = .ok task)
    (hrun : solve.run s = .ok report s') (hpoint : report.point.toArray = x.toArray)
    (hexit : report.exit = criterion)
    (hkeeps : (∀ w, start.toVector "w0" = .ok w → w.size = n) →
      solve.Keeps Invariant.none (·.Small df tolerance criterion)) :
    Vec.norm (df x) < tolerance := by
  have hunknowns : task.unknowns = n := by simpa using congrArg Array.size hpoint
  have hstart (w : Array α) (hw : start.toVector "w0" = .ok w) : w.size = n :=
    (Minimize.Task.size_of_setUp hread hw).trans hunknowns
  obtain ⟨-, -, hg, hnorm⟩ := (hkeeps hstart).of_ok trivial hrun
  have hsmall : Vec.norm (Vec.ofArray report.gradient.toArray) < tolerance := hnorm hexit
  rwa [hg x hpoint.symm, Vec.norm_ofArray_toArray] at hsmall

/-! ## Conjugate gradients -/

namespace Conjugate

theorem smooth_keeps {preconditioner : Option (Tensor α σ)}
    (h : ∀ tensor ∈ preconditioner, tensor.KeptOn I S) {n : Nat} (x g : Vec α n)
    (hx : S x.toArray) : (smooth preconditioner x g).Keeps I fun _ => True := by
  cases preconditioner with
  | none => exact .pure trivial
  | some tensor => exact .bind (h tensor rfl x hx) fun op hop => hop g

/-- What was read from callers keeps to what their functions do. -/
theorem Task.read_within {gradient : VectorField α σ} {start : Datum α} {options : Options α σ}
    {outside : Region α σ} {preconditioner : Option (Tensor α σ)} {task : Task α σ}
    {G : Array α → Array α → Prop} {T : Array α → Nat → Prop}
    (hread : Task.read gradient start options outside preconditioner = .ok task)
    (hstart : ∀ w, start.toVector "w0" = .ok w → S w)
    (hgradient : ∀ {n : Nat} (x : Vec α n), S x.toArray →
      (gradient.valueAt "gradient" x).Keeps I fun g => G x.toArray g.toArray)
    (houtside : outside.KeptOn I S)
    (hpreconditioner : ∀ tensor ∈ preconditioner, tensor.KeptOn I S)
    (hstop : options.stop.Kept I T) :
    start.toVector "w0" = .ok task.start.toArray ∧
      task.problem.Within I (fun x => S x.toArray) (fun x g => G x.toArray g.toArray)
        (fun g k => T g.toArray k) := by
  obtain ⟨settings, hsettings, hw, hproblem, -⟩ := Minimize.Task.setUp_eq_ok hread
  rw [hproblem]
  refine ⟨hw, ⟨fun x hx => hgradient x hx, fun x g hx => smooth_keeps hpreconditioner x g hx,
    fun x => houtside _ x.toArray (hstart _ hw) (by simp),
    fun g k => hstop _ (Options.settings_eq_ok hsettings).stop g k⟩⟩

/-- A minimization of data that callers gave ended at a point, and why. -/
def Ends (gradient : VectorField α σ) (options : Options α σ) (outside : Region α σ)
    (point : Array α) (exit : Exit) : Prop :=
  ∃ start preconditioner task report, ∃ s s' : Session α σ,
    Task.read gradient start options outside preconditioner = .ok task ∧
      (solve task.problem task.rule task.budget task.start).run s = .ok report s' ∧
      report.point.toArray = point ∧ report.exit = exit

/-- Where the gradient norm has ended a minimization, the gradient is small. -/
theorem norm_lt_of_ends {n : Nat} {gradient : VectorField α σ} {options : Options α σ}
    {outside : Region α σ} {df : Vec α n → Vec α n} {tolerance : α}
    (hgradient : ∀ x, (gradient.valueAt "gradient" x).Returns (df x))
    (hstop : options.stop.toCriterion = .ok (.gradientNorm tolerance)) {x : Vec α n}
    (h : Ends gradient options outside x.toArray .criterion) : Vec.norm (df x) < tolerance := by
  obtain ⟨start, preconditioner, task, report, s, s', hread, hrun, hpoint, hexit⟩ := h
  refine Minimize.Task.norm_lt hread hrun hpoint hexit fun hsize => ?_
  obtain ⟨hw, hwithin⟩ := Task.read_within (I := Invariant.none) (S := fun x => x.size = n)
    (G := fun x g => ∀ y : Vec α n, y.toArray = x → g = (df y).toArray) hread hsize
    (VectorField.valueAt_returns hgradient) (outside.keptOn_size n)
    (fun tensor _ => tensor.keptOn_none fun x => x.size = n) (CriterionLike.gradientNorm_kept hstop)
  exact solve_keeps hwithin _ _ (hsize _ hw)

end Conjugate

/-- **A minimization by conjugate gradients keeps the invariant and stays in the set.** -/
theorem minimizeConjugate_keeps {value : Option (ScalarField α σ)} {gradient : VectorField α σ}
    {start : Datum α} {options : Conjugate.Options α σ} {outside : Region α σ}
    {preconditioner : Option (Tensor α σ)}
    (hstart : ∀ w, start.toVector "w0" = .ok w → S w)
    (hvalue : ∀ f ∈ value, Run.KeptOn I S f) (hgradient : Run.KeptOn I S gradient)
    (houtside : outside.KeptOn I S)
    (hpreconditioner : ∀ tensor ∈ preconditioner, tensor.KeptOn I S)
    (hstop : options.stop.Kept I fun _ _ => True) :
    (minimizeConjugate value gradient start options outside preconditioner).Keeps I S := by
  refine .check fun task hread => ?_
  obtain ⟨hw, hwithin⟩ := Conjugate.Task.read_within (G := fun _ _ => True) hread hstart
    (fun x hx => VectorField.valueAt_keeps hgradient _ x hx) houtside hpreconditioner hstop
  refine .bind (Conjugate.solve_keeps hwithin _ _ (hstart _ hw)) fun report hreport => ?_
  refine .bind .debugEnabled fun enabled _ => ?_
  refine .ite (fun _ => ?_) fun _ => .pure hreport.1
  cases value with
  | none =>
    refine .bind (R := fun _ => True) (.pure trivial) fun _ _ => ?_
    exact .bind .debug fun _ _ => .pure hreport.1
  | some f =>
    refine .bind (hvalue f rfl _ hreport.1) fun _ _ => ?_
    exact .bind .debug fun _ _ => .pure hreport.1

/-- What a minimization returns is where it ended. -/
theorem minimizeConjugate_ends (value : Option (ScalarField α σ)) (gradient : VectorField α σ)
    (start : Datum α) (options : Conjugate.Options α σ) (outside : Region α σ)
    (preconditioner : Option (Tensor α σ)) :
    (minimizeConjugate value gradient start options outside preconditioner).Keeps Invariant.none
      fun x => ∃ exit, Conjugate.Ends gradient options outside x exit := by
  refine .check fun task hread => ?_
  have hsolve := Run.keeps_none (Conjugate.solve task.problem task.rule task.budget task.start)
  refine .bind hsolve.returned fun report hreport => ?_
  obtain ⟨-, s, s', -, hrun⟩ := hreport
  have hends : ∃ exit, Conjugate.Ends gradient options outside report.point.toArray exit :=
    ⟨report.exit, start, preconditioner, task, report, s, s', hread, hrun, rfl, rfl⟩
  refine .bind (Run.keeps_none _) fun enabled _ => ?_
  refine .ite (fun _ => ?_) fun _ => .pure hends
  cases value with
  | none =>
    refine .bind (R := fun _ => True) (.pure trivial) fun _ _ => ?_
    exact .bind (Run.keeps_none _) fun _ _ => .pure hends
  | some f =>
    refine .bind (Run.keeps_none _) fun _ _ => ?_
    exact .bind (Run.keeps_none _) fun _ _ => .pure hends

/-! ## Truncated Newton steps -/

namespace Newton

theorem smootherAt_keeps {preconditioner : Option (Tensor α σ)}
    (h : ∀ tensor ∈ preconditioner, tensor.KeptOn I S) {n : Nat} (x : Vec α n) (hx : S x.toArray) :
    (smootherAt preconditioner x).Keeps I fun smoother =>
      ∀ map ∈ smoother, LinearMap.Kept I map := by
  cases preconditioner with
  | none => exact .pure nofun
  | some tensor =>
    refine .bind (h tensor rfl x hx) fun op hop => .pure fun map hmap => ?_
    cases hmap
    exact fun v => hop v

/-- What was read from callers keeps to what their functions do. -/
theorem Task.read_within {gradient : VectorField α σ} {hessian : Tensor α σ} {start : Datum α}
    {outside : Region α σ} {options : Options α σ} {preconditioner : Option (Tensor α σ)}
    {task : Task α σ} {G : Array α → Array α → Prop} {T : Array α → Nat → Prop}
    (hread : Task.read gradient hessian start outside options preconditioner = .ok task)
    (hstart : ∀ w, start.toVector "w0" = .ok w → S w)
    (hgradient : ∀ {n : Nat} (x : Vec α n), S x.toArray →
      (gradient.valueAt "gradient" x).Keeps I fun g => G x.toArray g.toArray)
    (hhessian : hessian.KeptOn I S)
    (houtside : outside.KeptOn I S)
    (hpreconditioner : ∀ tensor ∈ preconditioner, tensor.KeptOn I S)
    (hstop : options.stop.Kept I T) :
    start.toVector "w0" = .ok task.start.toArray ∧
      task.problem.Within I (fun x => S x.toArray) (fun x g => G x.toArray g.toArray)
        (fun g k => T g.toArray k) := by
  obtain ⟨settings, hsettings, hw, hproblem, -⟩ := Minimize.Task.setUp_eq_ok hread
  rw [hproblem]
  refine ⟨hw, ⟨fun x hx => hgradient x hx, fun x hx => ?_,
    fun x hx => smootherAt_keeps hpreconditioner x hx,
    fun x => houtside _ x.toArray (hstart _ hw) (by simp),
    fun g k => hstop _ (Options.settings_eq_ok hsettings).stop g k⟩⟩
  exact .bind (hhessian x hx) fun op hop => .pure fun v => hop v

/-- A minimization of data that callers gave ended at a point, and why. -/
def Ends (gradient : VectorField α σ) (hessian : Tensor α σ) (options : Options α σ)
    (outside : Region α σ) (point : Array α) (exit : Exit) : Prop :=
  ∃ start preconditioner task report, ∃ s s' : Session α σ,
    Task.read gradient hessian start outside options preconditioner = .ok task ∧
      (solve task.problem task.rule task.budget task.start).run s = .ok report s' ∧
      report.point.toArray = point ∧ report.exit = exit

/-- Where the gradient norm has ended a minimization, the gradient is small. -/
theorem norm_lt_of_ends {n : Nat} {gradient : VectorField α σ} {hessian : Tensor α σ}
    {options : Options α σ} {outside : Region α σ} {df : Vec α n → Vec α n} {tolerance : α}
    (hgradient : ∀ x, (gradient.valueAt "gradient" x).Returns (df x))
    (hstop : options.stop.toCriterion = .ok (.gradientNorm tolerance)) {x : Vec α n}
    (h : Ends gradient hessian options outside x.toArray .criterion) :
    Vec.norm (df x) < tolerance := by
  obtain ⟨start, preconditioner, task, report, s, s', hread, hrun, hpoint, hexit⟩ := h
  refine Minimize.Task.norm_lt hread hrun hpoint hexit fun hsize => ?_
  obtain ⟨hw, hwithin⟩ := Task.read_within (I := Invariant.none) (S := fun x => x.size = n)
    (G := fun x g => ∀ y : Vec α n, y.toArray = x → g = (df y).toArray) hread hsize
    (VectorField.valueAt_returns hgradient) (hessian.keptOn_none fun x => x.size = n)
    (outside.keptOn_size n) (fun tensor _ => tensor.keptOn_none fun x => x.size = n)
    (CriterionLike.gradientNorm_kept hstop)
  exact solve_keeps hwithin _ _ (hsize _ hw)

end Newton

/-- **A minimization by truncated Newton steps keeps the invariant and stays in the set.** -/
theorem minimizeNewton_keeps {gradient : VectorField α σ} {hessian : Tensor α σ} {start : Datum α}
    {outside : Region α σ} {options : Newton.Options α σ} {preconditioner : Option (Tensor α σ)}
    (hstart : ∀ w, start.toVector "w0" = .ok w → S w) (hgradient : Run.KeptOn I S gradient)
    (hhessian : hessian.KeptOn I S)
    (houtside : outside.KeptOn I S)
    (hpreconditioner : ∀ tensor ∈ preconditioner, tensor.KeptOn I S)
    (hstop : options.stop.Kept I fun _ _ => True) :
    (minimizeNewton gradient hessian start outside options preconditioner).Keeps I S := by
  refine .check fun task hread => ?_
  obtain ⟨hw, hwithin⟩ := Newton.Task.read_within (G := fun _ _ => True) hread hstart
    (fun x hx => VectorField.valueAt_keeps hgradient _ x hx) hhessian houtside hpreconditioner hstop
  refine .bind (Newton.solve_keeps hwithin _ _ (hstart _ hw)) fun report hreport => ?_
  exact .bind .debug fun _ _ => .pure hreport.1

/-- What a minimization returns is where it ended. -/
theorem minimizeNewton_ends (gradient : VectorField α σ) (hessian : Tensor α σ) (start : Datum α)
    (outside : Region α σ) (options : Newton.Options α σ) (preconditioner : Option (Tensor α σ)) :
    (minimizeNewton gradient hessian start outside options preconditioner).Keeps Invariant.none
      fun x => ∃ exit, Newton.Ends gradient hessian options outside x exit := by
  refine .check fun task hread => ?_
  have hsolve := Run.keeps_none (Newton.solve task.problem task.rule task.budget task.start)
  refine .bind hsolve.returned fun report hreport => ?_
  obtain ⟨-, s, s', -, hrun⟩ := hreport
  refine .bind (Run.keeps_none _) fun _ _ => .pure ?_
  exact ⟨report.exit, start, preconditioner, task, report, s, s', hread, hrun, rfl, rfl⟩

end Descent
