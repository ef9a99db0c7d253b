import Descent.CentralPath
import Descent.Proofs.Exact.Number
import Descent.Proofs.LinearSystem.Truncation
import Descent.Scalar.Double

/-!
# What is refused at entry

Callers set numbers, and each of them has a bound. A `Limit` is such a number with its bound and the
name that faults use; every record of options has a list of them, in the order in which they are
looked at.

* `Limit.Kept`, `Limit.Broken`: comparison finds the number within its bound, or out of it. What
  cannot be compared is found out of a bound on both sides and of no other. Over the reals a limit
  is kept if the bound holds (`Number.admits_real`).
* `Limit.Screens`: a reading ends with the fault of the first limit that is broken, and returns if
  all are kept.
* `limits_checked`: so do all solvers. A call with a broken limit is the fault and nothing else, so
  no function of the caller has been called. Only the limits of the stages of a constrained
  minimization are looked at later, after the preconditioner has been asked for the first scale:
  `not_limits_checked_at_entry`.
-/

namespace Descent

/-- A number that callers set, with the name that faults use and its bound. -/
structure Limit (α : Type) where
  name : String
  given : Datum α
  bound : Bound

namespace Limit

variable {α β γ : Type} [Numeral α] {l : Limit α} {rest limits : List (Limit α)}

/-- A number was given, and it is not found out of its bound. -/
def Kept (l : Limit α) : Prop :=
  ∃ n, l.given.toNumber = .ok n ∧ n.admits l.bound = true

/-- A number was given that is found out of its bound. -/
def Broken (l : Limit α) : Prop :=
  ∃ n, l.given.toNumber = .ok n ∧ n.admits l.bound = false

/-- What a broken limit leads to. -/
def fault (l : Limit α) : Fault := .parameter l.name l.bound

omit [Numeral α] in
@[simp] theorem fault_kind (l : Limit α) : l.fault.kind = .value := rfl

theorem Kept.not_broken (h : l.Kept) : ¬l.Broken := by
  rintro ⟨m, hm, hbroken⟩
  obtain ⟨n, hn, hkept⟩ := h
  rw [hn] at hm
  cases hm
  rw [hkept] at hbroken
  cases hbroken

theorem Kept.insist (h : l.Kept) : ∃ n, l.given.insist l.name l.bound = .ok n := by
  obtain ⟨n, hn, hkept⟩ := h
  refine ⟨n, ?_⟩
  rw [Datum.insist, hn]
  exact Datum.insist_of_admits hkept l.name

theorem Broken.insist (h : l.Broken) : l.given.insist l.name l.bound = .error l.fault := by
  obtain ⟨n, hn, hbroken⟩ := h
  rw [Datum.insist, hn]
  change (demand (n.admits l.bound) l.name l.bound >>= fun _ => _) = _
  rw [demand, if_neg (by simp [hbroken])]
  rfl

/-- Where all other limits are kept, a limit that is broken is no other. -/
theorem Broken.eq_of_others (h : l.Broken) (hl : l ∈ limits) {k : Limit α}
    (hothers : ∀ l ∈ limits, l = k ∨ l.Kept) : l = k :=
  (hothers l hl).resolve_right fun hkept => hkept.not_broken h

/-- Where all other limits are kept, every number was given. -/
theorem Broken.given (h : l.Broken) (hothers : ∀ k ∈ limits, k = l ∨ k.Kept) :
    ∀ k ∈ limits, k.Kept ∨ k.Broken := by
  intro k hk
  rcases hothers k hk with rfl | hkept
  · exact .inr h
  · exact .inl hkept

/-- The first limit that is broken decides the fault of a reading, which returns if all of them are
kept. -/
def Screens : List (Limit α) → Except Fault β → Prop
  | [], e => ∃ b, e = .ok b
  | l :: rest, e => (l.Broken → e = .error l.fault) ∧ (l.Kept → Screens rest e)

namespace Screens

/-- A reading that insists on a limit first. -/
theorem insist {next : Number α → Except Fault β} (h : ∀ n, Screens rest (next n)) :
    Screens (l :: rest) (l.given.insist l.name l.bound >>= next) := by
  refine ⟨fun hbroken => ?_, fun hkept => ?_⟩
  · rw [hbroken.insist]
    rfl
  · obtain ⟨n, hn⟩ := hkept.insist
    rw [hn]
    exact h n

/-- A number between zero and one is read as a scalar. -/
theorem insistInUnit {name : String} {d : Datum α} {next : α → Except Fault β}
    (h : ∀ a, Screens rest (next a)) :
    Screens (⟨name, d, .openUnit⟩ :: rest) (d.insistInUnit name >>= next) := by
  rw [Datum.insistInUnit, bind_assoc]
  exact insist (l := ⟨name, d, .openUnit⟩) fun n => h n.ceiling

/-- A number that need not be given. -/
theorem insistGiven {name : String} {bound : Bound} {d : Datum α}
    {next : Option (Number α) → Except Fault β} (h : ∀ n, Screens rest (next n)) :
    Screens ((d.given?.map fun d => ⟨name, d, bound⟩).toList ++ rest)
      (d.given?.mapM (·.insist name bound) >>= next) := by
  cases d.given? with
  | none => exact h none
  | some d =>
    simp only [Option.mapM_some, map_eq_pure_bind, bind_assoc]
    exact insist (l := ⟨name, d, bound⟩) fun n => h (some n)

/-- What is read after the limits. -/
theorem bind {e : Except Fault β} {next : β → Except Fault γ} (h : Screens limits e)
    (hnext : ∀ b, ∃ c, next b = .ok c) : Screens limits (e >>= next) := by
  induction limits with
  | nil =>
    obtain ⟨b, rfl⟩ := h
    exact hnext b
  | cons l rest ih =>
    refine ⟨fun hbroken => ?_, fun hkept => ih (h.2 hkept)⟩
    rw [h.1 hbroken]
    rfl

/-- A broken limit among others decides the fault, unless an earlier one does. -/
theorem refused {e : Except Fault β} (h : Screens limits e)
    (hgiven : ∀ l ∈ limits, l.Kept ∨ l.Broken) (hbroken : ∃ l ∈ limits, l.Broken) :
    ∃ l ∈ limits, l.Broken ∧ e = .error l.fault := by
  induction limits with
  | nil =>
    obtain ⟨l, hl, -⟩ := hbroken
    cases hl
  | cons l rest ih =>
    rcases hgiven l List.mem_cons_self with hl | hl
    · have hrest : ∃ k ∈ rest, k.Broken := by
        obtain ⟨k, hk, hkbroken⟩ := hbroken
        rcases List.mem_cons.1 hk with rfl | hk
        · exact absurd hkbroken hl.not_broken
        · exact ⟨k, hk, hkbroken⟩
      obtain ⟨k, hk, hfault⟩ :=
        ih (h.2 hl) (fun k hk => hgiven k (List.mem_cons_of_mem l hk)) hrest
      exact ⟨k, List.mem_cons_of_mem l hk, hfault⟩
    · exact ⟨l, List.mem_cons_self, hl, h.1 hl⟩

theorem accepted {e : Except Fault β} (h : Screens limits e) (hkept : ∀ l ∈ limits, l.Kept) :
    ∃ b, e = .ok b := by
  induction limits with
  | nil => exact h
  | cons l rest ih =>
    exact ih (h.2 (hkept l List.mem_cons_self)) fun k hk => hkept k (List.mem_cons_of_mem l hk)

end Screens

/-- A call is screened by limits. If a number that was given is out of its bound, the call is the
fault of such a number and nothing else; if all are within their bounds, what the call starts with
is read. -/
structure Screen {σ : Type} (limits : List (Limit α)) (call : Run α σ β)
    (reading : Except Fault γ) : Prop where
  refused : (∀ l ∈ limits, l.Kept ∨ l.Broken) → (∃ l ∈ limits, l.Broken) →
    ∃ l ∈ limits, l.Broken ∧ l.fault.kind = .value ∧ call = throw l.fault
  accepted : (∀ l ∈ limits, l.Kept) → ∃ c, reading = .ok c

/-- If one limit alone is broken, its fault is the call. -/
theorem Screen.eq_throw {σ : Type} {call : Run α σ β} {reading : Except Fault γ}
    (h : Screen limits call reading) (hl : l ∈ limits) (hbroken : l.Broken)
    (hothers : ∀ k ∈ limits, k = l ∨ k.Kept) : call = throw l.fault := by
  obtain ⟨k, hk, hkbroken, -, hcall⟩ := h.refused (hbroken.given hothers) ⟨l, hl, hbroken⟩
  rwa [hkbroken.eq_of_others hk hothers] at hcall

/-- A call that starts with a reading. -/
theorem Screens.screen {σ : Type} {e : Except Fault γ} (h : Screens limits e)
    (next : γ → Run α σ β) : Screen limits (Run.ofExcept e >>= next) e where
  refused hgiven hbroken := by
    obtain ⟨l, hl, hlbroken, rfl⟩ := h.refused hgiven hbroken
    exact ⟨l, hl, hlbroken, rfl, rfl⟩
  accepted := h.accepted

end Limit

/-! ## What bounds mean -/

/-- What a bound says of a real number. -/
def Bound.Holds : Bound → ℝ → Prop
  | .nonNegative, a => 0 ≤ a
  | .positive, a => 0 < a
  | .openUnit, a => 0 < a ∧ a < 1
  | .atLeastOne, a => 1 ≤ a
  | .aboveOne, a => 1 < a

/-- A real number is refused exactly if it is out of its bound. -/
theorem Number.admits_real [RealText] (n : Number ℝ) (bound : Bound) :
    n.admits bound = true ↔ bound.Holds n.ceiling := by
  have hbelow (k : Nat) : n.isBelow k = true ↔ n.ceiling < k := by
    cases n with
    | whole i =>
      have hceiling : (whole i : Number ℝ).ceiling = (i : ℝ) := rfl
      simp only [isBelow, hceiling, decide_eq_true_eq]
      exact_mod_cast Iff.rfl
    | real a => simp [isBelow, ceiling, Scalar.ofNat]
  have hmost (k : Nat) : n.isAtMost k = true ↔ n.ceiling ≤ k := by
    cases n with
    | whole i =>
      have hceiling : (whole i : Number ℝ).ceiling = (i : ℝ) := rfl
      simp only [isAtMost, hceiling, decide_eq_true_eq]
      exact_mod_cast Iff.rfl
    | real a => simp [isAtMost, ceiling, Scalar.ofNat]
  cases bound with
  | nonNegative => simpa [admits, Bound.Holds] using (hbelow 0).not
  | positive => simpa [admits, Bound.Holds] using (hmost 0).not
  | openUnit => simp [admits, Bound.Holds]
  | atLeastOne => simpa [admits, Bound.Holds] using (hbelow 1).not
  | aboveOne => simpa [admits, Bound.Holds] using (hmost 1).not

/-! ## The limits of every record of options -/

variable {α σ : Type} [Numeral α]

/-- A limit that need not be set. -/
def Datum.limit? (d : Datum α) (name : String) (bound : Bound) : List (Limit α) :=
  (d.given?.map fun d => ⟨name, d, bound⟩).toList

namespace LinearSystem

/-- The budget is the one given with the call or else the one of the options. -/
def Options.limits (o : Options α) (maxIterations : Datum α) : List (Limit α) :=
  ⟨"tolerance", o.tolerance, .nonNegative⟩ ::
    ((o.budget? maxIterations).map fun d => ⟨"max_iterations", d, .nonNegative⟩).toList

theorem Task.read_screens {A : OperatorLike α σ} {b guess : Datum α} {options : Options α}
    {maxIterations : Datum α} {preconditioner : Option (OperatorLike α σ)} {op : Operator α σ}
    {smoother : Option (Operator α σ)} {rhs : Array α} {x : Vec α rhs.size}
    (hA : A.toOperator = .ok op)
    (hpreconditioner : preconditioner.mapM OperatorLike.toOperator = .ok smoother)
    (hb : b.toVector "b" = .ok rhs) (hguess : readGuess rhs.size guess = .ok x) :
    Limit.Screens (options.limits maxIterations)
      (Task.read A b guess options maxIterations preconditioner) := by
  refine Limit.Screens.insist (l := ⟨"tolerance", options.tolerance, .nonNegative⟩)
    fun tolerance => ?_
  rw [hA, hpreconditioner, hb]
  change Limit.Screens _ (readGuess rhs.size guess >>= _)
  rw [hguess]
  change Limit.Screens _ (((options.budget? maxIterations).getD
    (.number (.whole (2 * rhs.size)))).insist "max_iterations" .nonNegative >>= _)
  cases options.budget? maxIterations with
  | none =>
    have hdefault : (Number.whole (2 * rhs.size) : Number α).admits .nonNegative = true := by
      simp only [Number.admits, Number.isBelow, Bool.not_eq_true', decide_eq_false_iff_not]
      omega
    rw [Option.getD_none, Datum.insist_of_admits hdefault]
    exact ⟨_, rfl⟩
  | some d =>
    exact Limit.Screens.insist (l := ⟨"max_iterations", d, .nonNegative⟩) fun _ => ⟨_, rfl⟩

end LinearSystem

/-- The start of a minimization is read after the limits. -/
theorem Minimize.Task.setUp_screens {P : Nat → Type} {ρ τ : Type} {limits : List (Limit α)}
    {settings : Except Fault τ} (h : Limit.Screens limits settings) {start : Datum α} {w : Array α}
    (hstart : start.toVector "w0" = .ok w) (problem : τ → (n : Nat) → P n) (rule : τ → Nat → ρ)
    (budget : τ → Number α) :
    Limit.Screens limits (Minimize.Task.setUp settings start problem rule budget) := by
  refine h.bind fun settings => ?_
  rw [hstart]
  exact ⟨_, rfl⟩

namespace Conjugate

def Options.limits (o : Options α σ) : List (Limit α) :=
  ⟨"max_iterations", o.maxIterations, .nonNegative⟩ ::
    ⟨"line_search_threshold", o.lineSearchThreshold, .positive⟩ ::
    o.restartInterval.limit? "restart_interval" .atLeastOne

variable {options : Options α σ} {criterion : Criterion α σ}

theorem Options.settings_screens (hstop : options.stop.toCriterion = .ok criterion) :
    Limit.Screens options.limits options.settings := by
  refine .insist (l := ⟨_, options.maxIterations, _⟩) fun maxIterations => ?_
  refine .insist (l := ⟨_, options.lineSearchThreshold, _⟩) fun threshold => ?_
  rw [← List.append_nil (options.restartInterval.limit? _ _)]
  refine .insistGiven fun interval => ?_
  rw [hstop]
  exact ⟨_, rfl⟩

end Conjugate

namespace Newton

def Options.limits (o : Options α σ) : List (Limit α) :=
  ⟨"max_iterations", o.maxIterations, .nonNegative⟩ ::
    (o.innerMaxIterations.limit? "inner_max_iterations" .atLeastOne ++
    [⟨"forcing", o.forcing, .openUnit⟩,
      ⟨"line_search_threshold", o.lineSearchThreshold, .openUnit⟩,
      ⟨"damping_factor", o.dampingFactor, .openUnit⟩])

variable {options : Options α σ} {criterion : Criterion α σ}

theorem Options.settings_screens (hstop : options.stop.toCriterion = .ok criterion) :
    Limit.Screens options.limits options.settings := by
  refine .insist (l := ⟨_, options.maxIterations, _⟩) fun maxIterations => ?_
  refine .insistGiven fun cap => .insistInUnit fun forcing => .insistInUnit fun threshold => ?_
  refine .insistInUnit fun damping => ?_
  rw [hstop]
  exact ⟨_, rfl⟩

end Newton

namespace CentralPath

def Options.limits (o : Options α) : List (Limit α) :=
  [⟨"duality_gap", o.dualityGap, .positive⟩,
    ⟨"barrier_initial_scale", o.initialScale, .positive⟩,
    ⟨"barrier_scale_factor", o.scaleFactor, .aboveOne⟩,
    ⟨"max_stages", o.maxStages, .atLeastOne⟩]

theorem Options.schedule_screens (path : Options α) :
    Limit.Screens path.limits path.schedule := by
  refine .insist (l := ⟨_, path.dualityGap, _⟩) fun gap => ?_
  refine .insist (l := ⟨_, path.initialScale, _⟩) fun scale => ?_
  refine .insist (l := ⟨_, path.scaleFactor, _⟩) fun factor => ?_
  exact .insist (l := ⟨_, path.maxStages, _⟩) fun stages => ⟨_, rfl⟩

/-- The first scale is the number that callers have set. -/
theorem Options.initialScale_of_schedule {path : Options α} {schedule : Schedule α}
    (h : path.schedule = .ok schedule) :
    path.initialScale.toNumber = .ok schedule.initialScale := by
  obtain ⟨_, _, h⟩ := Fault.bind_eq_ok h
  obtain ⟨_, hscale, h⟩ := Fault.bind_eq_ok h
  obtain ⟨_, _, h⟩ := Fault.bind_eq_ok h
  obtain ⟨_, _, h⟩ := Fault.bind_eq_ok h
  cases h
  exact Datum.toNumber_of_insist hscale

variable {stage : Stage α σ} {barrier : Barrier α σ} {preconditioner : Option (Preconditioner α σ)}
  {schedule : Schedule α} {x : Array α} {t : α} {fault : Fault}

/-- If the first stage is refused, nothing has happened but that the preconditioner was made. -/
theorem follow_refused (h : ∀ smoother, stage x t smoother = throw fault) (left : Nat)
    (gaps : List α) : follow stage barrier schedule preconditioner left gaps x t =
      stagePreconditioner preconditioner t >>= fun _ => throw fault := by
  have harrive (done : Nat) : arrive stage barrier preconditioner done x t =
      stagePreconditioner preconditioner t >>= fun _ => throw fault := by
    refine bind_congr fun smoother => ?_
    rw [h]
    rfl
  cases left <;> rw [follow, harrive, bind_assoc] <;> rfl

/-- A call whose first stage is screened by limits. Without a preconditioner it is the fault of a
broken limit and nothing else; with one, the preconditioner is asked for the first scale before. -/
def Screened (limits : List (Limit α)) (preconditioner : Option (Preconditioner α σ)) (t : α)
    (call : Run α σ (Certificate α)) : Prop :=
  (∀ l ∈ limits, l.Kept ∨ l.Broken) → (∃ l ∈ limits, l.Broken) →
    ∃ l ∈ limits, l.Broken ∧ l.fault.kind = .value ∧
      (preconditioner = none → call = throw l.fault) ∧
      ∀ p, preconditioner = some p → call = p t >>= fun _ => throw l.fault

/-- If one limit alone is broken, its fault is all that follows the preconditioner. -/
theorem Screened.eq_throw {limits : List (Limit α)} {p : Preconditioner α σ} {l : Limit α}
    {call : Run α σ (Certificate α)} (h : Screened limits (some p) t call) (hl : l ∈ limits)
    (hbroken : l.Broken) (hothers : ∀ k ∈ limits, k = l ∨ k.Kept) :
    call = p t >>= fun _ => throw l.fault := by
  obtain ⟨k, hk, hkbroken, -, -, hcall⟩ := h (hbroken.given hothers) ⟨l, hl, hbroken⟩
  rw [hkbroken.eq_of_others hk hothers] at hcall
  exact hcall p rfl

/-- Stages that start with a reading are screened by its limits. -/
theorem followFrom_screened {β : Type} {limits : List (Limit α)} {e : Except Fault β}
    (hscreens : Limit.Screens limits e)
    (hstage : ∀ x t smoother fault, e = .error fault → stage x t smoother = throw fault)
    {path : Options α} (hschedule : path.schedule = .ok schedule) {start : Datum α}
    (hstart : start.toVector "w0" = .ok x)
    (ht : path.initialScale.toNumber >>= Number.toScalar = .ok t) :
    Screened limits preconditioner t
      (followFrom stage barrier schedule preconditioner start) := by
  intro hgiven hbroken
  obtain ⟨l, hl, hlbroken, he⟩ := hscreens.refused hgiven hbroken
  have hscale : schedule.initialScale.toScalar = .ok t := by
    rwa [Options.initialScale_of_schedule hschedule] at ht
  have hcall : followFrom stage barrier schedule preconditioner start =
      stagePreconditioner preconditioner t >>= fun _ => throw l.fault := by
    unfold followFrom
    rw [hstart]
    change (Run.ofExcept schedule.initialScale.toScalar >>= _) = _
    rw [hscale]
    exact follow_refused (fun smoother => hstage x t smoother l.fault he) _ []
  refine ⟨l, hl, hlbroken, rfl, ?_, ?_⟩
  · rintro rfl
    exact hcall
  · rintro p rfl
    rw [hcall]
    unfold stagePreconditioner
    rw [bind_assoc]
    rfl

end CentralPath

/-! ## Calls -/

open CentralPath

/-- A search looks at its three numbers first. -/
theorem Ray.searchArrays_screened (gradient : VectorField α σ) (x d : Array α)
    (options : Ray.Options α) (outside : Region α σ) (gradientAtStart : Option (Array α)) :
    (options.threshold ≤ 0 ∨ ¬(0 < options.shrink ∧ options.shrink < 1) ∨ options.start ≤ 0 →
      ∃ name bound, searchArrays gradient x d options outside gradientAtStart =
        throw (.parameter name bound)) ∧
    (¬options.threshold ≤ 0 → 0 < options.shrink ∧ options.shrink < 1 → ¬options.start ≤ 0 →
      (options.rule 0).check = .ok ()) := by
  constructor
  · intro hbroken
    suffices hcheck : ∃ name bound, (options.rule 0).check = .error (.parameter name bound) by
      obtain ⟨name, bound, hcheck⟩ := hcheck
      refine ⟨name, bound, ?_⟩
      unfold searchArrays
      rw [hcheck]
      rfl
    unfold Rule.check demand Options.rule
    by_cases hthreshold : options.threshold ≤ 0
    · exact ⟨"threshold", .positive, by simp [hthreshold]; rfl⟩
    · by_cases hshrink : 0 < options.shrink ∧ options.shrink < 1
      · have hstart : options.start ≤ 0 := (hbroken.resolve_left hthreshold).resolve_left
          (not_not_intro hshrink)
        exact ⟨"alpha0", .positive, by simp [hthreshold, hshrink, hstart]; rfl⟩
      · exact ⟨"shrink", .openUnit, by simp [hthreshold, hshrink]; rfl⟩
  · intro hthreshold hshrink hstart
    unfold Rule.check demand Options.rule
    simp [hthreshold, hshrink, hstart]
    rfl

section

variable {path : CentralPath.Options α} {barrier : Barrier α σ} {start : Datum α} {x : Array α}
  {t : α} {preconditioner : Option (Preconditioner α σ)}

/-- The limits of conjugate gradients are looked at in the first stage. -/
theorem minimizeConjugateConstrained_screened {options : Conjugate.Options α σ}
    {criterion : Criterion α σ} (hstop : options.stop.toCriterion = .ok criterion)
    (hstart : start.toVector "w0" = .ok x) (hpath : ∀ l ∈ path.limits, l.Kept)
    (ht : path.initialScale.toNumber >>= Number.toScalar = .ok t)
    (value : Option (ScalarField α σ)) (gradient : VectorField α σ) :
    Screened options.limits preconditioner t
      (minimizeConjugateConstrained value gradient start barrier path options preconditioner) := by
  obtain ⟨schedule, hschedule⟩ := path.schedule_screens.accepted hpath
  unfold minimizeConjugateConstrained
  rw [hschedule]
  refine followFrom_screened (Conjugate.Options.settings_screens hstop) ?_ hschedule hstart ht
  intro x t smoother fault hfault
  unfold conjugateStage minimizeConjugate Conjugate.Task.read
  rw [hfault]
  rfl

/-- The limits of truncated Newton are looked at in the first stage. -/
theorem minimizeNewtonConstrained_screened {options : Newton.Options α σ}
    {criterion : Criterion α σ} (hstop : options.stop.toCriterion = .ok criterion)
    (hstart : start.toVector "w0" = .ok x) (hpath : ∀ l ∈ path.limits, l.Kept)
    (ht : path.initialScale.toNumber >>= Number.toScalar = .ok t)
    (hhessian : barrier.hasHessian = true) (gradient : VectorField α σ) (hessian : Tensor α σ) :
    Screened options.limits preconditioner t
      (minimizeNewtonConstrained gradient hessian start barrier path options preconditioner) := by
  obtain ⟨schedule, hschedule⟩ := path.schedule_screens.accepted hpath
  unfold minimizeNewtonConstrained
  rw [hschedule, hhessian]
  refine followFrom_screened (Newton.Options.settings_screens hstop) ?_ hschedule hstart ht
  intro x t smoother fault hfault
  unfold newtonStage minimizeNewton Newton.Task.read
  rw [hfault]
  rfl

end

/-- Limits are checked when a solver is called, with arguments that can be read otherwise. A call in
which a limit is broken is the fault of a broken limit, with no function of the caller called; if
all limits are kept, what the call starts with is read. Limits are broken as comparison finds them
out of their bounds, and the limits of the stages of a constrained minimization are checked when the
preconditioner has been asked for the first scale. -/
theorem limits_checked :
    (∀ (A : OperatorLike α σ) (b guess : Datum α) (options : LinearSystem.Options α)
        (maxIterations : Datum α) (preconditioner : Option (OperatorLike α σ)) op smoother rhs x,
      A.toOperator = .ok op → preconditioner.mapM OperatorLike.toOperator = .ok smoother →
      b.toVector "b" = .ok rhs → LinearSystem.readGuess rhs.size guess = .ok x →
      Limit.Screen (options.limits maxIterations)
        (solveLinear A b guess options maxIterations preconditioner)
        (LinearSystem.Task.read A b guess options maxIterations preconditioner)) ∧
    (∀ (gradient : VectorField α σ) (x d : Array α) (options : Ray.Options α)
        (outside : Region α σ) (gradientAtStart : Option (Array α)),
      (options.threshold ≤ 0 ∨ ¬(0 < options.shrink ∧ options.shrink < 1) ∨ options.start ≤ 0 →
        ∃ name bound, Ray.searchArrays gradient x d options outside gradientAtStart =
          throw (.parameter name bound)) ∧
      (¬options.threshold ≤ 0 → 0 < options.shrink ∧ options.shrink < 1 → ¬options.start ≤ 0 →
        (options.rule 0).check = .ok ())) ∧
    (∀ (value : Option (ScalarField α σ)) (gradient : VectorField α σ) (start : Datum α)
        (options : Conjugate.Options α σ) (outside : Region α σ)
        (preconditioner : Option (Tensor α σ)) criterion x,
      options.stop.toCriterion = .ok criterion → start.toVector "w0" = .ok x →
      Limit.Screen options.limits
        (minimizeConjugate value gradient start options outside preconditioner)
        (Conjugate.Task.read gradient start options outside preconditioner)) ∧
    (∀ (gradient : VectorField α σ) (hessian : Tensor α σ) (start : Datum α)
        (outside : Region α σ) (options : Newton.Options α σ)
        (preconditioner : Option (Tensor α σ)) criterion x,
      options.stop.toCriterion = .ok criterion → start.toVector "w0" = .ok x →
      Limit.Screen options.limits
        (minimizeNewton gradient hessian start outside options preconditioner)
        (Newton.Task.read gradient hessian start outside options preconditioner)) ∧
    (∀ (value : Option (ScalarField α σ)) (gradient : VectorField α σ) (start : Datum α)
        (barrier : Barrier α σ) (path : CentralPath.Options α) (options : Conjugate.Options α σ)
        (preconditioner : Option (Preconditioner α σ)) criterion x t,
      options.stop.toCriterion = .ok criterion → start.toVector "w0" = .ok x →
      path.initialScale.toNumber >>= Number.toScalar = .ok t →
      Limit.Screen path.limits (minimizeConjugateConstrained value gradient start barrier path
        options preconditioner) path.schedule ∧
      ((∀ l ∈ path.limits, l.Kept) →
        Screened options.limits preconditioner t (minimizeConjugateConstrained value gradient start
          barrier path options preconditioner) ∧
        ((∀ l ∈ options.limits, l.Kept) → ∃ settings, options.settings = .ok settings))) ∧
    ∀ (gradient : VectorField α σ) (hessian : Tensor α σ) (start : Datum α)
        (barrier : Barrier α σ) (path : CentralPath.Options α) (options : Newton.Options α σ)
        (preconditioner : Option (Preconditioner α σ)) criterion x t,
      options.stop.toCriterion = .ok criterion → start.toVector "w0" = .ok x →
      path.initialScale.toNumber >>= Number.toScalar = .ok t → barrier.hasHessian = true →
      Limit.Screen path.limits (minimizeNewtonConstrained gradient hessian start barrier path
        options preconditioner) path.schedule ∧
      ((∀ l ∈ path.limits, l.Kept) →
        Screened options.limits preconditioner t (minimizeNewtonConstrained gradient hessian start
          barrier path options preconditioner) ∧
        ((∀ l ∈ options.limits, l.Kept) → ∃ settings, options.settings = .ok settings)) := by
  refine ⟨?_, Ray.searchArrays_screened, ?_, ?_, ?_, ?_⟩
  · intro A b guess options maxIterations preconditioner op smoother rhs x hA hpreconditioner hb
      hguess
    exact (LinearSystem.Task.read_screens hA hpreconditioner hb hguess).screen _
  · intro value gradient start options outside preconditioner criterion x hstop hstart
    have hsettings := Conjugate.Options.settings_screens hstop
    exact (Minimize.Task.setUp_screens hsettings hstart _ _ _).screen _
  · intro gradient hessian start outside options preconditioner criterion x hstop hstart
    have hsettings := Newton.Options.settings_screens hstop
    exact (Minimize.Task.setUp_screens hsettings hstart _ _ _).screen _
  · intro value gradient start barrier path options preconditioner criterion x t hstop hstart ht
    refine ⟨path.schedule_screens.screen _, fun hpath => ⟨?_, ?_⟩⟩
    · exact minimizeConjugateConstrained_screened hstop hstart hpath ht value gradient
    · exact (Conjugate.Options.settings_screens hstop).accepted
  · intro gradient hessian start barrier path options preconditioner criterion x t hstop hstart ht
      hhessian
    refine ⟨path.schedule_screens.screen _, fun hpath => ⟨?_, ?_⟩⟩
    · exact minimizeNewtonConstrained_screened hstop hstart hpath ht hhessian gradient hessian
    · exact (Newton.Options.settings_screens hstop).accepted

/-- The gradient of `(x - 1) ^ 2 / 2`, which counts its calls. -/
def countedShift : VectorField Float Nat := fun x => do
  modify fun session => { session with caller := session.caller + 1 }
  return .vector #[x.getD 0 0 - 1]

/-- The barrier of no constraints. -/
def unconstrained : Barrier Float Nat :=
  .family ⟨0, fun _ _ => throw .notApplicable, fun _ _ => throw .notApplicable, none, none⟩

/-- The identity as the preconditioner for every scale, which counts its calls. -/
def countedIdentity : Preconditioner Float Nat := fun _ => do
  modify fun session => { session with caller := session.caller + 1 }
  return .constant (.operator .identity)

/-- A tolerance and a budget below zero are refused at once, and a budget of the stages when the
preconditioner has been asked for the first scale. -/
theorem limits_checked_below_zero :
    solveLinear (.operator .identity : OperatorLike Float Nat) (.vector #[1]) .nothing
      { tolerance := .number (.whole (-1)) } .nothing none =
        throw (.parameter "tolerance" .nonNegative) ∧
    minimizeConjugate none countedShift (.vector #[0]) { maxIterations := .number (.whole (-1)) }
      Region.everywhere none = throw (.parameter "max_iterations" .nonNegative) ∧
    minimizeConjugateConstrained none countedShift (.vector #[0]) unconstrained {}
      { maxIterations := .number (.whole (-1)) } (some countedIdentity) =
        countedIdentity 1.0 >>= fun _ => throw (.parameter "max_iterations" .nonNegative) := by
  obtain ⟨hlinear, -, hconjugate, -, hconstrained, -⟩ := limits_checked (α := Float) (σ := Nat)
  have hbudget : (⟨"max_iterations", .number (.whole (-1)), .nonNegative⟩ : Limit Float).Broken :=
    ⟨_, rfl, rfl⟩
  have hothers : ∀ k ∈ Conjugate.Options.limits (α := Float) (σ := Nat)
      { maxIterations := .number (.whole (-1)) },
      k = ⟨"max_iterations", .number (.whole (-1)), .nonNegative⟩ ∨ k.Kept := by
    rintro k (_ | ⟨_, _ | ⟨_, hk⟩⟩)
    · exact .inl rfl
    · exact .inr ⟨_, rfl, by decide +kernel⟩
    · cases hk
  have hpath : ∀ l ∈ CentralPath.Options.limits (α := Float) {}, l.Kept := by
    rintro l (_ | ⟨_, _ | ⟨_, _ | ⟨_, _ | ⟨_, hl⟩⟩⟩⟩)
    · exact ⟨_, rfl, by decide +kernel⟩
    · exact ⟨_, rfl, by decide +kernel⟩
    · exact ⟨_, rfl, by decide +kernel⟩
    · exact ⟨_, rfl, by decide +kernel⟩
    · cases hl
  refine ⟨?_, ?_, ?_⟩
  · refine (hlinear (.operator .identity) (.vector #[1]) .nothing
      { tolerance := .number (.whole (-1)) } .nothing none _ _ _ _ rfl rfl rfl rfl).eq_throw
      (l := ⟨"tolerance", .number (.whole (-1)), .nonNegative⟩) List.mem_cons_self ⟨_, rfl, rfl⟩ ?_
    intro k hk
    exact .inl (List.mem_singleton.1 hk)
  · exact (hconjugate none countedShift (.vector #[0]) { maxIterations := .number (.whole (-1)) }
      Region.everywhere none _ _ rfl rfl).eq_throw List.mem_cons_self hbudget hothers
  · obtain ⟨-, hstages⟩ := hconstrained none countedShift (.vector #[0]) unconstrained {}
      { maxIterations := .number (.whole (-1)) } (some countedIdentity) _ _ _ rfl rfl rfl
    exact (hstages hpath).1.eq_throw List.mem_cons_self hbudget hothers

/-- How a run ends: the fault, if there is one, and the state of the callers' functions. -/
def Run.outcome {β : Type} (run : Run α σ β) (session : Session α σ) : Option Fault × σ :=
  match run.run session with
  | .ok _ session => (none, session.caller)
  | .error fault session => (some fault, session.caller)

/-- What cannot be compared is within a bound on one side, and the preconditioner is called before
the budget of a stage is looked at. -/
theorem not_limits_checked_at_entry :
    ((Ray.searchArrays countedShift #[0] #[1] { threshold := 0 / 0 } Region.everywhere
      none).outcome (.initial 0)).1 = none ∧
    (minimizeConjugateConstrained none countedShift (.vector #[0]) unconstrained {}
      { maxIterations := .number (.whole (-1)) } (some countedIdentity)).outcome (.initial 0) =
      (some (.parameter "max_iterations" .nonNegative), 1) := by
  decide +kernel

end Descent
