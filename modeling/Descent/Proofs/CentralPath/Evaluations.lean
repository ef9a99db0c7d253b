import Descent.Proofs.Barrier.Family
import Descent.Proofs.Ray.Guarded
import Descent.Scalar.Double

/-!
# Where functions are evaluated

The functions of a caller log the points at which they are evaluated, by adding the point to a list
that can be read off the callers' state. `Run.Logs` says which points a run adds to that list,
however it ends, and what is known of its results.

* `evaluations_inside`: a search guards every gradient by the domain; both minimizers evaluate their
  functions only at the start and inside the domain, and so do both constrained minimizers over all
  their stages if the start is inside; for a family, inside means that every constraint is strictly
  satisfied.
-/

namespace Descent

variable {α σ : Type} {points : σ → List (Array α)}

/-- However the run ends, it adds only points of `S` to the log, and its results have `Q`. -/
def Run.Logs {β : Type} (points : σ → List (Array α)) (S : Array α → Prop) (run : Run α σ β)
    (Q : β → Prop) : Prop :=
  ∀ old, Run.Triple (fun s => points s.caller = old) run
    (fun b s => (∃ new, points s.caller = old ++ new ∧ ∀ x ∈ new, S x) ∧ Q b)
    (fun _ s => ∃ new, points s.caller = old ++ new ∧ ∀ x ∈ new, S x)

/-- What is in the log besides `old` are points of `S`. -/
def logInvariant (points : σ → List (Array α)) (S : Array α → Prop) (old : List (Array α)) :
    Invariant α σ :=
  fun _ caller => ∃ new, points caller = old ++ new ∧ ∀ x ∈ new, S x

namespace Run.Logs

variable {β : Type} {run : Run α σ β} {S : Array α → Prop} {Q : β → Prop}

/-- A run that logs points of a smaller set keeps the log within `S`. -/
theorem keeps {S' : Array α → Prop} (h : run.Logs points S' Q) (hS : ∀ x, S' x → S x)
    (old : List (Array α)) : run.Keeps (logInvariant points S old) Q := by
  rintro s ⟨new, hnew, hin⟩
  refine (h (old ++ new)).conseq (fun _ hs => hs) ?_ ?_ s hnew
  · rintro b s' ⟨⟨more, hmore, hin'⟩, hb⟩
    rw [List.append_assoc] at hmore
    exact ⟨⟨_, hmore, List.forall_mem_append.2 ⟨hin, fun x hx => hS x (hin' x hx)⟩⟩, hb⟩
  · rintro fault s' ⟨more, hmore, hin'⟩
    rw [List.append_assoc] at hmore
    exact ⟨_, hmore, List.forall_mem_append.2 ⟨hin, fun x hx => hS x (hin' x hx)⟩⟩

/-- A run that keeps the log within `S` logs points of `S`. -/
theorem of_keeps (h : ∀ old, run.Keeps (logInvariant points S old) Q) : run.Logs points S Q :=
  fun old => (h old).conseq (fun _ hs => ⟨[], by simpa using hs, by simp⟩) (fun _ _ hs => hs)
    (fun _ _ hs => hs)

end Run.Logs

/-- A function logs nothing but the points at which it is evaluated. -/
def LogsPoint {β : Type} (points : σ → List (Array α)) (f : Array α → Run α σ β) : Prop :=
  ∀ x, (f x).Logs points (· = x) fun _ => True

/-- A predicate that logs nothing and always answers the same about a point. -/
def Region.Answers (points : σ → List (Array α)) (isOutside : Array α → Bool)
    (outside : Region α σ) : Prop :=
  ∀ x, (outside x).Logs points (fun _ => False) fun out => out = isOutside x

variable [Numeral α]

/-- A tensor logs the point at which it is evaluated, and so do the operators that it yields there.
-/
def Tensor.LogsPoint (points : σ → List (Array α)) (tensor : Tensor α σ) : Prop :=
  ∀ {n : Nat} (x : Vec α n), (tensor.operatorAt x).Logs points (· = x.toArray) fun op =>
    ∀ {m : Nat} (v : Vec α m), (op.apply v).Logs points (· = x.toArray) fun _ => True

/-- Asking a criterion logs nothing. -/
def CriterionLike.LogsNothing (points : σ → List (Array α)) (stop : CriterionLike α σ) : Prop :=
  ∀ c, stop.toCriterion = .ok c → ∀ {n : Nat} (g : Vec α n) (k : Nat),
    (c.holds g (.whole k)).Logs points (fun _ => False) fun _ => True

/-- The parts of a barrier log the points at which they are evaluated; the question whether a point
is outside logs nothing and always has the same answer. -/
structure Barrier.LogsPoint (points : σ → List (Array α)) (isOutside : Array α → Bool)
    (barrier : Barrier α σ) : Prop where
  value : ∀ {n : Nat} (x : Vec α n), (barrier.value x).Logs points (· = x.toArray) fun _ => True
  gradient : ∀ {n : Nat} (x : Vec α n),
    (barrier.gradient x).Logs points (· = x.toArray) fun _ => True
  hessian : ∀ {n : Nat} (x : Vec α n), (barrier.hessian x).Logs points (· = x.toArray) fun op =>
    ∀ {m : Nat} (v : Vec α m), (op.apply v).Logs points (· = x.toArray) fun _ => True
  multipliers : ∀ {n : Nat} (t : α) (x : Vec α n),
    (barrier.multipliers t x).Logs points (· = x.toArray) fun _ => True
  outside : ∀ {n : Nat} (x : Vec α n),
    (barrier.outside x).Logs points (fun _ => False) fun out => out = isOutside x.toArray

/-- Making a preconditioner for a scale logs nothing, and what is made logs the points at which it
is evaluated. -/
def CentralPath.LogsPoint (points : σ → List (Array α))
    (preconditioner : CentralPath.Preconditioner α σ) : Prop :=
  ∀ t, (preconditioner t).Logs points (fun _ => False) (Tensor.LogsPoint points)

/-- The values of a family log nothing, its derivatives log the points at which they are evaluated.
-/
structure Family.LogsPoint (points : σ → List (Array α)) (c : Nat → Array α → α)
    (f : Family α σ) : Prop where
  value : ∀ i x, (f.value i x).Logs points (fun _ => False) fun v => v = c i x
  gradient : ∀ i, Descent.LogsPoint points (f.gradient i)
  hessian : ∀ hessian ∈ f.hessian, ∀ i, Tensor.LogsPoint points (hessian i)

variable {S : Array α → Prop} (old : List (Array α))

omit [Numeral α] in
theorem LogsPoint.keptOn {β : Type} {f : Array α → Run α σ β} (h : LogsPoint points f) :
    Run.KeptOn (logInvariant points S old) S f :=
  fun x hx => (h x).keeps (fun _ hy => hy ▸ hx) old

theorem Tensor.LogsPoint.keptOn {tensor : Tensor α σ} (h : tensor.LogsPoint points) :
    tensor.KeptOn (logInvariant points S old) S := by
  intro n x hx
  refine ((h x).keeps (fun _ hy => hy ▸ hx) old).mono fun op hop m v => ?_
  exact (hop v).keeps (fun _ hy => hy ▸ hx) old

theorem CriterionLike.LogsNothing.kept {stop : CriterionLike α σ} (h : stop.LogsNothing points) :
    stop.Kept (logInvariant points S old) fun _ _ => True := by
  intro c hc n g k
  exact ((h c hc g k).keeps (fun _ hy => hy.elim) old).mono fun _ _ _ => trivial

theorem Barrier.LogsPoint.keptOn {isOutside : Array α → Bool} {barrier : Barrier α σ}
    (h : barrier.LogsPoint points isOutside) (hS : ∀ x, isOutside x = false → S x) :
    barrier.KeptOn (logInvariant points S old) S where
  value x hx := (h.value x).keeps (fun _ hy => hy ▸ hx) old
  gradient x hx := (h.gradient x).keeps (fun _ hy => hy ▸ hx) old
  hessian x hx := ((h.hessian x).keeps (fun _ hy => hy ▸ hx) old).mono fun _ hop _ v =>
    (hop v).keeps (fun _ hy => hy ▸ hx) old
  multipliers t x hx := (h.multipliers t x).keeps (fun _ hy => hy ▸ hx) old
  outside _ y _ _ := ((h.outside (Vec.ofArray y)).keeps (fun _ hy => hy.elim) old).mono
    fun _ hout ho => hS y (hout ▸ ho)

theorem CentralPath.LogsPoint.keptOn {preconditioner : CentralPath.Preconditioner α σ}
    (h : CentralPath.LogsPoint points preconditioner) :
    CentralPath.KeptOn (logInvariant points S old) S preconditioner :=
  fun t => ((h t).keeps (fun _ hy => hy.elim) old).mono fun _ htensor => htensor.keptOn old

theorem Family.LogsPoint.keptOn {c : Nat → Array α → α} {f : Family α σ}
    (h : f.LogsPoint points c) : f.KeptOn (logInvariant points S old) S c where
  value i x := (h.value i x).keeps (fun _ hy => hy.elim) old
  gradient i := (h.gradient i).keptOn old
  hessian hessian hmem i := Tensor.LogsPoint.keptOn old (h.hessian hessian hmem i)

theorem Family.LogsPoint.outside {c : Nat → Array α → α} {f : Family α σ}
    (h : f.LogsPoint points c) {n : Nat} (x : Vec α n) :
    ((Barrier.family f).outside x).Logs points (fun _ => False)
      fun out => out = false ↔ f.Strict c x.toArray :=
  .of_keeps fun old =>
    Family.outside_keeps (Family.LogsPoint.keptOn (S := fun _ => False) old h).value x

section

variable {value : Option (ScalarField α σ)} {gradient : VectorField α σ} {hessian : Tensor α σ}
  {start : Datum α} {outside : Region α σ} {smoother : Option (Tensor α σ)} {barrier : Barrier α σ}
  {path : CentralPath.Options α} {preconditioner : Option (CentralPath.Preconditioner α σ)}

theorem minimizeConjugate_logs {options : Conjugate.Options α σ}
    (hstart : ∀ w, start.toVector "w0" = .ok w → S w)
    (hvalue : ∀ f ∈ value, LogsPoint points f) (hgradient : LogsPoint points gradient)
    (houtside : ∀ x, (outside x).Logs points (fun _ => False) fun out => out = false → S x)
    (hsmoother : ∀ tensor ∈ smoother, tensor.LogsPoint points)
    (hstop : options.stop.LogsNothing points) :
    (minimizeConjugate value gradient start options outside smoother).Logs points S S := by
  refine .of_keeps fun old => ?_
  exact minimizeConjugate_keeps hstart (fun f hf => (hvalue f hf).keptOn old) (hgradient.keptOn old)
    (fun _ y _ _ => (houtside y).keeps (fun _ hy => hy.elim) old)
    (fun tensor htensor => Tensor.LogsPoint.keptOn old (hsmoother tensor htensor)) (hstop.kept old)

theorem minimizeNewton_logs {options : Newton.Options α σ}
    (hstart : ∀ w, start.toVector "w0" = .ok w → S w) (hgradient : LogsPoint points gradient)
    (hhessian : hessian.LogsPoint points)
    (houtside : ∀ x, (outside x).Logs points (fun _ => False) fun out => out = false → S x)
    (hsmoother : ∀ tensor ∈ smoother, tensor.LogsPoint points)
    (hstop : options.stop.LogsNothing points) :
    (minimizeNewton gradient hessian start outside options smoother).Logs points S S := by
  refine .of_keeps fun old => ?_
  exact minimizeNewton_keeps hstart (hgradient.keptOn old) (Tensor.LogsPoint.keptOn old hhessian)
    (fun _ y _ _ => (houtside y).keeps (fun _ hy => hy.elim) old)
    (fun tensor htensor => Tensor.LogsPoint.keptOn old (hsmoother tensor htensor)) (hstop.kept old)

theorem minimizeConjugateConstrained_logs {options : Conjugate.Options α σ}
    (hstart : ∀ w, start.toVector "w0" = .ok w → S w)
    (hvalue : ∀ f ∈ value, LogsPoint points f) (hgradient : LogsPoint points gradient)
    (hbarrier : ∀ old, barrier.KeptOn (logInvariant points S old) S)
    (hpreconditioner : ∀ p ∈ preconditioner, CentralPath.LogsPoint points p)
    (hstop : options.stop.LogsNothing points) :
    (minimizeConjugateConstrained value gradient start barrier path options preconditioner).Logs
      points S fun c => S c.optimum := by
  refine .of_keeps fun old => ?_
  exact minimizeConjugateConstrained_keeps hstart (fun f hf => (hvalue f hf).keptOn old)
    (hgradient.keptOn old) (hbarrier old) (fun p hp => (hpreconditioner p hp).keptOn old)
    (hstop.kept old)

theorem minimizeNewtonConstrained_logs {options : Newton.Options α σ}
    (hstart : ∀ w, start.toVector "w0" = .ok w → S w) (hgradient : LogsPoint points gradient)
    (hhessian : hessian.LogsPoint points)
    (hbarrier : ∀ old, barrier.KeptOn (logInvariant points S old) S)
    (hpreconditioner : ∀ p ∈ preconditioner, CentralPath.LogsPoint points p)
    (hstop : options.stop.LogsNothing points) :
    (minimizeNewtonConstrained gradient hessian start barrier path options preconditioner).Logs
      points S fun c => S c.optimum := by
  refine .of_keeps fun old => ?_
  exact minimizeNewtonConstrained_keeps hstart (hgradient.keptOn old)
    (Tensor.LogsPoint.keptOn old hhessian) (hbarrier old)
    (fun p hp => (hpreconditioner p hp).keptOn old) (hstop.kept old)

end

/-- The points where a minimization may evaluate: the start, and those inside the domain. -/
def StartOrInside (start : Datum α) (isOutside : Array α → Bool) (x : Array α) : Prop :=
  start.toVector "w0" = .ok x ∨ isOutside x = false

/-- **Functions are evaluated inside the domain only.** A search asks about the domain right before
each gradient, but for the one at the start. So both minimizers evaluate at the start or inside, and
so do both constrained minimizers, over all stages, from a start inside; inside the domain of a
family every constraint is strictly satisfied. -/
theorem evaluations_inside :
    (∀ (calls : σ → List (Ray.Call α)) (gradient : VectorField α σ) (outside : Region α σ)
        (isOutside : Array α → Bool), Ray.Recording calls gradient outside isOutside →
      ∀ (x d : Array α) (options : Ray.Options α) (known : Option (Array α))
          (old : List (Ray.Call α)),
        Run.Triple (fun s => calls s.caller = old)
          (Ray.searchArrays gradient x d options outside known)
          (fun found s => ∃ new, Ray.Searched calls isOutside x d known old new s ∧
            (found.length = 0 ∨
              ∃ point, Ray.pointAt x d found.length = .ok point ∧ .gradient point ∈ new))
          (fun _ s => ∃ new, Ray.Searched calls isOutside x d known old new s)) ∧
    (∀ (value : Option (ScalarField α σ)) (gradient : VectorField α σ) (hessian : Tensor α σ)
        (start : Datum α) (outside : Region α σ) (isOutside : Array α → Bool)
        (smoother : Option (Tensor α σ)) (conjugate : Conjugate.Options α σ)
        (newton : Newton.Options α σ),
      (∀ f ∈ value, LogsPoint points f) → LogsPoint points gradient → hessian.LogsPoint points →
      Region.Answers points isOutside outside → (∀ tensor ∈ smoother, tensor.LogsPoint points) →
      conjugate.stop.LogsNothing points → newton.stop.LogsNothing points →
        (minimizeConjugate value gradient start conjugate outside smoother).Logs points
          (StartOrInside start isOutside) (StartOrInside start isOutside) ∧
        (minimizeNewton gradient hessian start outside newton smoother).Logs points
          (StartOrInside start isOutside) (StartOrInside start isOutside)) ∧
    (∀ (value : Option (ScalarField α σ)) (gradient : VectorField α σ) (hessian : Tensor α σ)
        (start : Datum α) (path : CentralPath.Options α)
        (preconditioner : Option (CentralPath.Preconditioner α σ))
        (conjugate : Conjugate.Options α σ) (newton : Newton.Options α σ),
      (∀ f ∈ value, LogsPoint points f) → LogsPoint points gradient → hessian.LogsPoint points →
      (∀ p ∈ preconditioner, CentralPath.LogsPoint points p) →
      conjugate.stop.LogsNothing points → newton.stop.LogsNothing points →
        (∀ (barrier : Barrier α σ) (isOutside : Array α → Bool),
          barrier.LogsPoint points isOutside →
          (∀ w, start.toVector "w0" = .ok w → isOutside w = false) →
            (minimizeConjugateConstrained value gradient start barrier path conjugate
              preconditioner).Logs points (isOutside · = false)
                (fun c => isOutside c.optimum = false) ∧
            (minimizeNewtonConstrained gradient hessian start barrier path newton
              preconditioner).Logs points (isOutside · = false)
                (fun c => isOutside c.optimum = false)) ∧
        (∀ (f : Family α σ) (c : Nat → Array α → α), f.LogsPoint points c →
          (∀ {n : Nat} (x : Vec α n), ((Barrier.family f).outside x).Logs points (fun _ => False)
            fun out => out = false ↔ f.Strict c x.toArray) ∧
          ((∀ w, start.toVector "w0" = .ok w → f.Strict c w) →
            (minimizeConjugateConstrained value gradient start (.family f) path conjugate
              preconditioner).Logs points (f.Strict c) (fun cert => f.Strict c cert.optimum) ∧
            (minimizeNewtonConstrained gradient hessian start (.family f) path newton
              preconditioner).Logs points (f.Strict c)
                (fun cert => f.Strict c cert.optimum)))) := by
  refine ⟨fun calls gradient outside isOutside h x d options known old => ?_, ?_, ?_⟩
  · exact Ray.searchArrays_guarded h x d options known old
  · intro value gradient hessian start outside isOutside smoother conjugate newton
      hvalue hgradient hhessian houtside hsmoother hconjugate hnewton
    have hstart : ∀ w, start.toVector "w0" = .ok w → StartOrInside start isOutside w :=
      fun w hw => .inl hw
    have hanswer : ∀ x, (outside x).Logs points (fun _ => False)
        fun out => out = false → StartOrInside start isOutside x := fun x old =>
      (houtside x old).conseq (fun _ hs => hs)
        (fun out s hs => ⟨hs.1, fun ho => .inr (hs.2 ▸ ho)⟩) fun _ _ hs => hs
    exact ⟨minimizeConjugate_logs hstart hvalue hgradient hanswer hsmoother hconjugate,
      minimizeNewton_logs hstart hgradient hhessian hanswer hsmoother hnewton⟩
  · intro value gradient hessian start path preconditioner conjugate newton
      hvalue hgradient hhessian hpreconditioner hconjugate hnewton
    constructor
    · intro barrier isOutside h hstart
      have hbarrier : ∀ old, barrier.KeptOn (logInvariant points (isOutside · = false) old)
          (isOutside · = false) := fun old => h.keptOn old fun _ hx => hx
      exact ⟨minimizeConjugateConstrained_logs hstart hvalue hgradient hbarrier hpreconditioner
          hconjugate,
        minimizeNewtonConstrained_logs hstart hgradient hhessian hbarrier hpreconditioner hnewton⟩
    · intro f c h
      refine ⟨fun x => h.outside x, fun hstart => ?_⟩
      have hbarrier : ∀ old, (Barrier.family f).KeptOn (logInvariant points (f.Strict c) old)
          (f.Strict c) := fun old =>
        Family.barrier_keptOn (Family.LogsPoint.keptOn old h) fun _ _ _ _ hy => hy
      exact ⟨minimizeConjugateConstrained_logs hstart hvalue hgradient hbarrier hpreconditioner
          hconjugate,
        minimizeNewtonConstrained_logs hstart hgradient hhessian hbarrier hpreconditioner hnewton⟩

section

/-- The points at which functions were evaluated, among their calls. -/
def evaluated {α : Type} (calls : List (Ray.Call α)) : List (Array α) :=
  calls.filterMap fun
    | .gradient point => some point
    | .outside _ => none

/-- A function that writes down its calls. -/
def written {α : Type} (f : Array α → Datum α) : VectorField α (List (Ray.Call α)) := fun x => do
  modify fun s => { s with caller := s.caller ++ [.gradient x] }
  return f x

/-- A predicate that writes down its calls. -/
def asked {α : Type} (isOutside : Array α → Bool) : Region α (List (Ray.Call α)) := fun x => do
  modify fun s => { s with caller := s.caller ++ [.outside x] }
  return isOutside x

variable {α : Type}

theorem recording_written (f : Array α → Datum α) (isOutside : Array α → Bool) :
    Ray.Recording id (written f) (asked isOutside) isOutside where
  gradient point _ _ hs := congrArg (· ++ [Ray.Call.gradient point]) hs
  outside point _ _ hs := ⟨congrArg (· ++ [Ray.Call.outside point]) hs, rfl⟩

theorem logsPoint_written (f : Array α → Datum α) : LogsPoint evaluated (written f) := by
  rintro x _ s rfl
  exact ⟨⟨[x], by simp [evaluated], by simp⟩, trivial⟩

theorem answers_asked (isOutside : Array α → Bool) :
    Region.Answers evaluated isOutside (asked isOutside) := by
  rintro x _ s rfl
  exact ⟨⟨[], by simp [evaluated], by simp⟩, rfl⟩

theorem logsNothing_gradientNorm [Numeral α] {points : σ → List (Array α)} (tolerance : α) :
    (CriterionLike.criterion (.gradientNorm tolerance)).LogsNothing points := by
  intro c hc n g k
  cases hc
  exact .of_keeps fun old => .pure trivial

/-- How far a number is above one. -/
def aboveOne (x : Array Float) : Float := x.getD 0 0 - 1

/-- The numbers below one. -/
def belowOne : Family Float (List (Ray.Call Float)) where
  count := 1
  value _ x := return aboveOne x
  gradient _ := written fun _ => .vector #[1]
  hessian := none
  hessianDiagonal := none

theorem logsPoint_belowOne : belowOne.LogsPoint evaluated fun _ => aboveOne where
  value _ _ := .of_keeps fun _ => .pure rfl
  gradient _ := logsPoint_written _
  hessian := nofun

/-- Half the square of a number, whose gradient is the number itself, minimized from zero over the
numbers below one. -/
theorem evaluations_inside_belowOne :
    (∀ found s', (Ray.searchArrays (written .vector) #[0] #[1] {}
        (asked fun x => decide (0 ≤ aboveOne x)) none).run (Session.initial []) = .ok found s' →
      ∃ new, Ray.Searched id (fun x => decide (0 ≤ aboveOne x)) #[0] #[1] none [] new s' ∧
        (found.length = 0 ∨ ∃ point, Ray.pointAt #[0] #[1] found.length = .ok point ∧
          .gradient point ∈ new)) ∧
    (minimizeConjugate none (written .vector) (.vector #[0]) {}
      (asked fun x => decide (0 ≤ aboveOne x)) none).Logs evaluated
        (StartOrInside (.vector #[0]) fun x => decide (0 ≤ aboveOne x))
        (StartOrInside (.vector #[0]) fun x => decide (0 ≤ aboveOne x)) ∧
    belowOne.Strict (fun _ => aboveOne) #[0] ∧
    (minimizeNewtonConstrained (written .vector) (.constant (.operator .identity)) (.vector #[0])
      (.family belowOne) {} {} none).Logs evaluated (belowOne.Strict fun _ => aboveOne)
        fun c => belowOne.Strict (fun _ => aboveOne) c.optimum := by
  have hidentity : (Tensor.constant (.operator .identity)).LogsPoint
      (evaluated : List (Ray.Call Float) → _) :=
    fun x => .of_keeps fun _ => .pure fun v => .of_keeps fun _ => .pure trivial
  have hzero : ¬0 ≤ aboveOne #[0] := by decide +kernel
  have hstrict : belowOne.Strict (fun _ => aboveOne) #[0] := fun _ _ => hzero
  obtain ⟨search, minimize, constrained⟩ :=
    @evaluations_inside Float (List (Ray.Call Float)) evaluated _
  refine ⟨fun found s' hr => ?_, ?_, hstrict, ?_⟩
  · have h := search id _ _ _ (recording_written .vector fun x => decide (0 ≤ aboveOne x))
    exact (h #[0] #[1] {} none []).of_ok rfl hr
  · have h := minimize none _ _ (.vector #[0]) _ _ none {} {} nofun (logsPoint_written .vector)
      hidentity (answers_asked fun x => decide (0 ≤ aboveOne x)) nofun
      (logsNothing_gradientNorm _) (logsNothing_gradientNorm _)
    exact h.1
  · have h := constrained none _ _ (.vector #[0]) {} none {} {} nofun (logsPoint_written .vector)
      hidentity nofun (logsNothing_gradientNorm _) (logsNothing_gradientNorm _)
    refine ((h.2 belowOne _ logsPoint_belowOne).2 fun w hw => ?_).2
    cases hw
    exact hstrict

end

end Descent
