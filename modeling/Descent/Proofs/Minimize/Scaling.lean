import Descent.Proofs.Exact.Euclidean
import Descent.Proofs.Minimize.Callers
import Descent.Proofs.Minimize.Course
import Descent.Proofs.Ray.Scaling

/-!
# Minimizations of a multiple

Two minimizations by conjugate gradients run in lock-step if the gradients of one are `c > 0` times
those of the other and both arrive at the same preconditioned gradients. Every product of a gradient
with a direction is multiplied by `c`, and the method only forms quotients of such products and
compares them with each other and with zero; directions, lengths and points are the same.

* `Conjugate.State.scaled`: what a state becomes;
* `Conjugate.Problem.Scales`: how two problems correspond;
* `Conjugate.leg_related`, `Conjugate.course_related`: one search, and the loop;
* `Conjugate.record_related`: minimizations for callers, whose gradient tolerances differ by `c`.
-/

open scoped InnerProductSpace

namespace Descent

theorem Vec.dot_smul {n : Nat} (c : ℝ) (u v : Vec ℝ n) : Vec.dot (c • u) v = c * Vec.dot u v :=
  real_inner_smul_left u v c

namespace Conjugate

variable {σ : Type} [RealText] {n : Nat} {J : Session ℝ σ → Session ℝ σ → Prop} {c : ℝ}

/-! ## Scaled states -/

/-- A step whose slope is multiplied. -/
def Previous.scaled (c : ℝ) (p : Previous ℝ) : Previous ℝ := ⟨p.length, c * p.slope⟩

/-- A state whose gradient is multiplied, and nothing else but the products with it. -/
def State.scaled (c : ℝ) (s : State ℝ n) : State ℝ n :=
  { s with
    gradient := c • s.gradient
    product := c * s.product
    previous := s.previous.map (Previous.scaled c) }

def Leg.scaled (c : ℝ) : Leg ℝ n → Leg ℝ n
  | .accepted s => .accepted (s.scaled c)
  | .retry s => .retry (s.scaled c)
  | .ended exit s => .ended exit (s.scaled c)

def Report.scaled (c : ℝ) (r : Report ℝ n) : Report ℝ n :=
  { r with gradient := c • r.gradient }

def Course.scaled (c : ℝ) (course : Course ℝ n) : Course ℝ n :=
  ⟨course.heads.map (State.scaled c), course.report.scaled c⟩

/-- A record whose states and report are scaled; the points, the directions, the lengths, the
restarts and the exit are the same. -/
def Record.scaled (c : ℝ) (r : Record ℝ) : Record ℝ := ⟨r.1, r.2.scaled c⟩

omit [RealText] in
theorem Course.after_scaled (earlier : List (State ℝ n)) (course : Course ℝ n) :
    (course.scaled c).after (earlier.map (State.scaled c)) = (course.after earlier).scaled c := by
  simp [Course.after, Course.scaled]

section

variable (hc : 0 < c)
include hc

theorem aim_scaled (s : State ℝ n) :
    aim (s.scaled c) = (aim s).map fun p => (p.1.scaled c, c * p.2) := by
  have hslope : Vec.dot s.gradient s.direction < 0 ↔
      Vec.dot (c • s.gradient) s.direction < 0 := by
    rw [Vec.dot_smul, ← mul_lt_mul_iff_right₀ hc, mul_zero]
  have hproduct : -s.product < 0 ↔ -(c * s.product) < 0 := by
    rw [neg_lt_zero, neg_lt_zero, mul_pos_iff_of_pos_left hc]
  unfold aim
  dsimp only [State.scaled]
  simp only [← hslope, ← hproduct]
  split
  · rw [Vec.dot_smul]
    rfl
  · split
    · simp only [Option.map_some, mul_neg]
      rfl
    · rfl

theorem startLength_scaled (previous : Option (Previous ℝ)) (slope : ℝ) (d : Vec ℝ n) :
    startLength (previous.map (Previous.scaled c)) (c * slope) d =
      startLength previous slope d := by
  cases previous with
  | none => rfl
  | some p =>
    have hlength : p.length * (c * p.slope) / (c * slope) = p.length * p.slope / slope := by
      rw [mul_left_comm, mul_div_mul_left _ _ hc.ne']
    simp only [startLength, Option.map_some, Previous.scaled, hlength]

theorem beta_scaled (s : State ℝ n) (gradient smoothed : Vec ℝ n) :
    beta (s.scaled c) (c • gradient) smoothed = beta s gradient smoothed := by
  simp only [beta, State.scaled, Vec.dot_smul, mul_pos_iff_of_pos_left hc,
    mul_div_mul_left _ _ hc.ne']

theorem advance_scaled (rule : Rule ℝ) (s : State ℝ n) (previous : Previous ℝ)
    (point gradient smoothed : Vec ℝ n) :
    advance rule (s.scaled c) (previous.scaled c) point (c • gradient) smoothed =
      (advance rule s previous point gradient smoothed).scaled c := by
  simp only [advance, beta_scaled hc, Vec.dot_smul]
  rfl

end

/-! ## The method -/

/-- The gradients of the second problem are `c` times those of the first, and from such gradients
both arrive at the same preconditioned gradient and at the same decision to stop. -/
structure Problem.Scales (J : Session ℝ σ → Session ℝ σ → Prop) (c : ℝ)
    (first second : Problem ℝ σ n) : Prop where
  gradient : ∀ x, Run.Related J (fun g h => h = c • g) (first.gradient x) (second.gradient x)
  precondition : ∀ x g,
    Run.Related J Eq (first.precondition x g) (second.precondition x (c • g))
  outside : ∀ x, Run.Related J Eq (first.outside x) (second.outside x)
  stop : ∀ g k, Run.Related J Eq (first.stop g k) (second.stop (c • g) k)

variable {first second : Problem ℝ σ n}

omit [RealText] in
theorem Problem.Scales.ray (h : first.Scales J c second) (x d : Vec ℝ n) :
    (Ray.through first.gradient first.outside x d).Scales J c
      (Ray.through second.gradient second.outside x d) where
  slope length := by
    refine .bind (h.gradient _) ?_
    rintro g _ rfl
    exact .pure (Vec.dot_smul c g d)
  outside length := h.outside _

/-- **A search from a scaled state leads to the scaled state.** -/
theorem leg_related (hc : 0 < c) (h : first.Scales J c second) (rule : Rule ℝ) (s : State ℝ n) :
    Run.Related J (fun p q => q = p.scaled c) (leg first rule s)
      (leg second rule (s.scaled c)) := by
  unfold leg
  rw [aim_scaled hc]
  cases aim s with
  | none => exact .pure rfl
  | some p =>
    obtain ⟨s, slope⟩ := p
    dsimp only [Option.map_some]
    rw [show (s.scaled c).previous = s.previous.map (Previous.scaled c) from rfl,
      show (s.scaled c).gradient = c • s.gradient from rfl, Vec.dot_smul]
    rw [startLength_scaled hc]
    refine .check fun manner _ => ?_
    refine .bind (Ray.search_related hc (h.ray _ _) manner _) ?_
    rintro found _ rfl
    refine .ite Iff.rfl (fun _ => ?_) fun _ => ?_
    · exact .ite Iff.rfl (fun _ => .pure rfl) fun _ => .pure rfl
    · refine .bind (h.gradient _) ?_
      rintro g _ rfl
      refine .bind (h.precondition _ g) ?_
      rintro z _ rfl
      refine .pure (congrArg Leg.accepted ?_)
      exact advance_scaled hc rule { s with evaluations := s.evaluations + found.evaluations }
        ⟨found.length, slope⟩ _ g z

/-- **The loops run in lock-step.** -/
theorem course_related (hc : 0 < c) (h : first.Scales J c second) (rule : Rule ℝ) :
    ∀ budget s, Run.Related J (fun p q => q = p.scaled c) (course first rule budget s)
      (course second rule budget (s.scaled c)) := by
  -- a search that is retried uses the budget of the one before it, so a round has up to two legs
  intro budget
  induction budget with
  | zero =>
    intro s
    refine .bind (h.stop s.gradient s.iterations) ?_
    rintro holds _ rfl
    exact .ite Iff.rfl (fun _ => .pure rfl) fun _ => .pure rfl
  | succ budget ih =>
    intro s
    refine .bind (h.stop s.gradient s.iterations) ?_
    rintro holds _ rfl
    refine .ite Iff.rfl (fun _ => .pure rfl) fun _ => ?_
    refine .bind (leg_related hc h rule s) ?_
    rintro r _ rfl
    cases r with
    | accepted t =>
      refine .bind (ih t) ?_
      rintro course _ rfl
      exact .pure (Course.after_scaled [s] course)
    | ended exit t => exact .pure rfl
    | retry t =>
      refine .bind (h.stop t.gradient t.iterations) ?_
      rintro holds _ rfl
      refine .ite Iff.rfl (fun _ => .pure rfl) fun _ => ?_
      refine .bind (leg_related hc h rule t) ?_
      rintro r _ rfl
      cases r with
      | accepted u =>
        refine .bind (ih u) ?_
        rintro course _ rfl
        exact .pure (Course.after_scaled [s, t] course)
      | ended exit u => exact .pure rfl
      | retry u => exact .pure rfl

theorem courseFrom_related (hc : 0 < c) (h : first.Scales J c second) (rule : Rule ℝ)
    (budget : Nat) (start : Vec ℝ n) :
    Run.Related J (fun p q => q = p.scaled c) (courseFrom first rule budget start)
      (courseFrom second rule budget start) := by
  refine .bind (h.gradient start) ?_
  rintro g _ rfl
  refine .bind (h.precondition start g) ?_
  rintro z _ rfl
  rw [Vec.dot_smul]
  exact course_related hc h rule budget _

/-! ## Minimizations of what callers give -/

/-- The options with another tolerance of the gradient norm. -/
def Options.stoppedAt (options : Options ℝ σ) (tolerance : ℝ) : Options ℝ σ :=
  { options with stop := .criterion (.gradientNorm tolerance) }

/-- Options that differ in the criterion are read alike. -/
theorem Options.settings_stoppedAt {options : Options ℝ σ} {criterion : Criterion ℝ σ}
    (h : options.stop.toCriterion = .ok criterion) (tolerance : ℝ) :
    (options.stoppedAt tolerance).settings =
      options.settings.map fun settings => { settings with stop := .gradientNorm tolerance } := by
  unfold Options.settings Options.stoppedAt
  rw [h]
  cases options.maxIterations.insist "max_iterations" .nonNegative with
  | error fault => rfl
  | ok maxIterations =>
    cases options.lineSearchThreshold.insist "line_search_threshold" .positive with
    | error fault => rfl
    | ok threshold =>
      cases options.restartInterval.given?.mapM (·.insist "restart_interval" .atLeastOne) <;> rfl

/-- The gradient norm is compared with the tolerance in the same way after scaling. -/
theorem stop_related (hc : 0 < c) (tolerance : ℝ) (g : Vec ℝ n) (count : Number ℝ) :
    Run.Related J Eq ((Criterion.gradientNorm tolerance : Criterion ℝ σ).holds g count)
      ((Criterion.gradientNorm (c * tolerance) : Criterion ℝ σ).holds (c • g) count) := by
  refine .pure (decide_eq_decide.2 ?_)
  rw [Vec.norm_eq_norm, Vec.norm_eq_norm, norm_smul, Real.norm_of_nonneg hc.le,
    mul_lt_mul_iff_right₀ hc]

/-- Two minimizations that were read, whose problems correspond. -/
inductive Task.Scales (J : Session ℝ σ → Session ℝ σ → Prop) (c : ℝ) :
    Task ℝ σ → Task ℝ σ → Prop
  | intro {n : Nat} {first second : Problem ℝ σ n} (h : first.Scales J c second) (rule : Rule ℝ)
      (budget : Nat) (start : Vec ℝ n) :
      Task.Scales J c ⟨n, first, rule, budget, start⟩ ⟨n, second, rule, budget, start⟩

section

variable {gradient gradient' : VectorField ℝ σ} {start : Datum ℝ} {options : Options ℝ σ}
  {outside : Region ℝ σ} {preconditioner preconditioner' : Option (Tensor ℝ σ)} {tolerance : ℝ}

theorem Task.read_related (hc : 0 < c)
    (hstop : options.stop.toCriterion = .ok (.gradientNorm tolerance))
    (hgradient : ∀ {n : Nat} (x : Vec ℝ n), Run.Related J (fun g h => h = c • g)
      (gradient.valueAt "gradient" x) (gradient'.valueAt "gradient" x))
    (hsmooth : ∀ {n : Nat} (x g : Vec ℝ n),
      Run.Related J Eq (smooth preconditioner x g) (smooth preconditioner' x (c • g)))
    (houtside : ∀ x, Run.Related J Eq (outside x) (outside x)) :
    Run.Related J (Task.Scales J c)
      (Run.ofExcept (Task.read gradient start options outside preconditioner))
      (Run.ofExcept (Task.read gradient' start (options.stoppedAt (c * tolerance)) outside
        preconditioner')) := by
  unfold Task.read
  rw [Options.settings_stoppedAt hstop, Minimize.Task.ofExcept_setUp, Minimize.Task.ofExcept_setUp]
  cases hsettings : options.settings with
  | error fault => exact .throw
  | ok settings =>
    have hcriterion : settings.stop = .gradientNorm tolerance :=
      Except.ok.inj ((Options.settings_eq_ok hsettings).stop.symm.trans hstop)
    refine .check fun w _ => .pure ?_
    refine .intro ⟨hgradient, hsmooth, fun x => houtside x.toArray, fun g k => ?_⟩ _ _ _
    show Run.Related J Eq (settings.stop.holds g _) _
    rw [hcriterion]
    exact stop_related hc tolerance g (.whole k)

/-- **Minimizations run in lock-step** if the gradients and the tolerance of one are `c` times those
of the other and both arrive at the same preconditioned gradients. -/
theorem record_related (hc : 0 < c)
    (hstop : options.stop.toCriterion = .ok (.gradientNorm tolerance))
    (hgradient : ∀ {n : Nat} (x : Vec ℝ n), Run.Related J (fun g h => h = c • g)
      (gradient.valueAt "gradient" x) (gradient'.valueAt "gradient" x))
    (hsmooth : ∀ {n : Nat} (x g : Vec ℝ n),
      Run.Related J Eq (smooth preconditioner x g) (smooth preconditioner' x (c • g)))
    (houtside : ∀ x, Run.Related J Eq (outside x) (outside x)) :
    Run.Related J (fun p q => q = Record.scaled c p)
      (record gradient start options outside preconditioner)
      (record gradient' start (options.stoppedAt (c * tolerance)) outside preconditioner') := by
  refine .bind (Task.read_related hc hstop hgradient hsmooth houtside) ?_
  rintro _ _ ⟨h, rule, budget, start⟩
  refine .bind (courseFrom_related hc h rule budget start) ?_
  rintro course _ rfl
  exact .pure rfl

end

end Conjugate

end Descent
