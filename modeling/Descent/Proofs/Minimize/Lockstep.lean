import Descent.Proofs.Minimize.Course
import Descent.Proofs.Minimize.Likeness
import Descent.Proofs.Ray.Lockstep

/-!
# Minimizations in lock-step

Two minimizations by conjugate gradients from sessions in relation, whose gradients, preconditioned
gradients, domains and criteria give the same answers: they go through the same states.

* `Operator.Lockstep`, `Tensor.Lockstep`, `CriterionLike.Respects`: what callers give, in lock-step;
* `Conjugate.leg_lockstep`, `Conjugate.course_lockstep`: one search, and the loop;
* `Conjugate.record_lockstep`: minimizations of what callers give.
-/

namespace Descent

variable {α σ : Type} [Numeral α] {J : Session α σ → Session α σ → Prop}

/-! ## What callers give -/

theorem VectorField.valueAt_respects {f : VectorField α σ} (h : ∀ x, (f x).Respects J)
    (name : String) {n : Nat} (x : Vec α n) : (f.valueAt name x).Respects J := by
  refine .bind (h x.toArray) ?_
  rintro d _ rfl
  exact .ofExcept fun _ _ => rfl

/-- Operators of one size whose images are found in lock-step. -/
structure Operator.Lockstep (J : Session α σ → Session α σ → Prop) (op op' : Operator α σ) :
    Prop where
  size : op.size? = op'.size?
  apply : ∀ {n : Nat} (v : Vec α n), Run.Related J Eq (op.apply v) (op'.apply v)

theorem Operator.Lockstep.scaled {op op' : Operator α σ} (h : op.Lockstep J op') (t : α) :
    (op.scaled t).Lockstep J (op'.scaled t) := by
  have hsize : (op.scaled t).size? = (op'.scaled t).size? := h.size
  refine ⟨hsize, fun {n} v => ?_⟩
  unfold Operator.apply
  refine .bind (R := Eq) ?_ fun _ _ _ => .bind (h.apply v) ?_
  · unfold Operator.fits
    rw [← hsize]
    split
    · exact .ite Iff.rfl (fun _ => .pure rfl) fun _ => .throw
    · exact .pure rfl
  · rintro image _ rfl
    exact .pure rfl

/-- Tensors whose operators at a point are found in lock-step, and are in lock-step themselves. -/
def Tensor.Lockstep (J : Session α σ → Session α σ → Prop) (tensor tensor' : Tensor α σ) : Prop :=
  ∀ {n : Nat} (x : Vec α n),
    Run.Related J (Operator.Lockstep J) (tensor.operatorAt x) (tensor'.operatorAt x)

/-- To a criterion the sessions in relation are the same. -/
def CriterionLike.Respects (J : Session α σ → Session α σ → Prop) (stop : CriterionLike α σ) :
    Prop :=
  ∀ criterion, stop.toCriterion = .ok criterion → ∀ {n : Nat} (g : Vec α n) (k : Nat),
    (criterion.holds g (.whole k)).Respects J

namespace Conjugate

/-! ## The method -/

variable {n : Nat} {first second : Problem α σ n}

/-- Both problems give the same answers. -/
structure Problem.Lockstep (J : Session α σ → Session α σ → Prop) (first second : Problem α σ n) :
    Prop where
  gradient : ∀ x, Run.Related J Eq (first.gradient x) (second.gradient x)
  precondition : ∀ x g, Run.Related J Eq (first.precondition x g) (second.precondition x g)
  outside : ∀ x, Run.Related J Eq (first.outside x) (second.outside x)
  stop : ∀ g k, Run.Related J Eq (first.stop g k) (second.stop g k)

omit [Numeral α] in
theorem Problem.Lockstep.ray [Scalar α] (h : first.Lockstep J second) (x d : Vec α n) :
    (Ray.through first.gradient first.outside x d).Lockstep J
      (Ray.through second.gradient second.outside x d) where
  slope length := by
    refine .bind (h.gradient _) ?_
    rintro g _ rfl
    exact .pure rfl
  outside length := h.outside _

/-- A search leads to the same state. -/
theorem leg_lockstep (h : first.Lockstep J second) (rule : Rule α) (s : State α n) :
    Run.Related J Eq (leg first rule s) (leg second rule s) := by
  unfold leg
  cases aim s with
  | none => exact .pure rfl
  | some p =>
    refine .check fun manner _ => .bind (Ray.search_lockstep (h.ray _ _) manner _) ?_
    rintro found _ rfl
    refine .ite Iff.rfl (fun _ => ?_) fun _ => ?_
    · exact .ite Iff.rfl (fun _ => .pure rfl) fun _ => .pure rfl
    · refine .bind (h.gradient _) ?_
      rintro g _ rfl
      refine .bind (h.precondition _ g) ?_
      rintro z _ rfl
      exact .pure rfl

/-- **The loops go through the same states.** -/
theorem course_lockstep (h : first.Lockstep J second) (rule : Rule α) : ∀ budget s,
    Run.Related J Eq (course first rule budget s) (course second rule budget s) := by
  intro budget
  induction budget with
  | zero =>
    intro s
    refine .bind (h.stop s.gradient s.iterations) ?_
    rintro holds _ rfl
    exact .ite Iff.rfl (fun _ => .pure rfl) fun _ => .pure rfl
  | succ budget ih =>
    intro s
    refine .bind (h.stop s.gradient s.iterations) ?_
    rintro holds _ rfl
    refine .ite Iff.rfl (fun _ => .pure rfl) fun _ => .bind (leg_lockstep h rule s) ?_
    rintro r _ rfl
    cases r with
    | accepted t =>
      refine .bind (ih t) ?_
      rintro course _ rfl
      exact .pure rfl
    | ended exit t => exact .pure rfl
    | retry t =>
      refine .bind (h.stop t.gradient t.iterations) ?_
      rintro holds _ rfl
      refine .ite Iff.rfl (fun _ => .pure rfl) fun _ => .bind (leg_lockstep h rule t) ?_
      rintro r _ rfl
      cases r with
      | accepted u =>
        refine .bind (ih u) ?_
        rintro course _ rfl
        exact .pure rfl
      | ended exit u => exact .pure rfl
      | retry u => exact .pure rfl

theorem courseFrom_lockstep (h : first.Lockstep J second) (rule : Rule α) (budget : Nat)
    (start : Vec α n) :
    Run.Related J Eq (courseFrom first rule budget start)
      (courseFrom second rule budget start) := by
  refine .bind (h.gradient start) ?_
  rintro g _ rfl
  refine .bind (h.precondition start g) ?_
  rintro z _ rfl
  exact course_lockstep h rule budget _

/-! ## Minimizations of what callers give -/

theorem smooth_lockstep {preconditioner preconditioner' : Option (Tensor α σ)}
    (h : Option.Rel (Tensor.Lockstep J) preconditioner preconditioner') (x g : Vec α n) :
    Run.Related J Eq (smooth preconditioner x g) (smooth preconditioner' x g) := by
  cases h with
  | none => exact .pure rfl
  | some htensor => exact .bind (htensor x) fun op op' hop => hop.apply g

/-- **Minimizations of what callers give go through the same states.** -/
theorem record_lockstep {gradient : VectorField α σ} {start : Datum α} {options : Options α σ}
    {outside : Region α σ} {preconditioner preconditioner' : Option (Tensor α σ)}
    (hgradient : ∀ x, (gradient x).Respects J) (houtside : ∀ x, (outside x).Respects J)
    (hstop : options.stop.Respects J)
    (hpreconditioner : Option.Rel (Tensor.Lockstep J) preconditioner preconditioner') :
    Run.Related J Eq (record gradient start options outside preconditioner)
      (record gradient start options outside preconditioner') := by
  unfold record Task.read
  simp only [Minimize.Task.ofExcept_setUp, bind_assoc, pure_bind]
  refine .check fun settings hsettings => .check fun w _ => ?_
  refine .bind (courseFrom_lockstep ?_ _ _ _) ?_
  · exact ⟨VectorField.valueAt_respects hgradient "gradient", smooth_lockstep hpreconditioner,
      fun x => houtside x.toArray,
      fun g k => hstop _ (Options.settings_eq_ok hsettings).stop g k⟩
  · rintro course _ rfl
    exact .pure rfl

end Conjugate

end Descent
