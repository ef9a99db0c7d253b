import Descent.Proofs.CentralPath.Comparison
import Descent.Proofs.Operator.Entries

/-!
# Programs that share an entry operator

An entry operator may be used in many places: in sums and multiples, and by solvers whose other
functions use it too. `EntryOperator.comparison` relates sessions that agree in all but the memory
of the operator. A program that is given the operator is `EntryOperator.Uniform` if it only touches
that memory by applying the operator: given two operators that are alike, it does the same.

* `Expression`: sums and multiples with the operator as a summand;
* `Request`, `Request.answer`: what callers may ask for: images under expressions, solves, and
  minimizations; `Request.Uniform.compares`: each of them is as uniform as its parts;
* `performed`: one request after the other, whether or not those before ended in a fault.
-/

namespace Descent

namespace EntryOperator

variable {α σ τ β γ : Type} (e : EntryOperator α σ τ)

/-- Two sessions agree in all but the memory of the operator, and the memories are in relation. -/
structure Beside (R : Memory α → Memory α → Prop) (s t : Session α σ) : Prop where
  logging : s.logging = t.logging
  view : e.view s.caller = e.view t.caller
  size : s.tables.size = t.tables.size
  slot_lt : e.slot < s.tables.size
  others : ∀ k, k ≠ e.slot → s.tables[k]? = t.tables[k]?
  memory : R (e.memory s) (e.memory t)

/-- Sessions that agree in all but the memory of the operator. Other functions neither see this
memory nor change it. -/
def comparison (R : Memory α → Memory α → Prop) : Comparison α σ where
  related := e.Beside R
  excused _ := False
  listens h source := by rw [Session.listens, Session.listens, h.logging]
  logged h record := { h with logging := congrArg (·.write record) h.logging }

variable {e} {R R' : Memory α → Memory α → Prop} {s s' t t' : Session α σ}

/-- Runs that only touch the memory of the operator. -/
theorem Beside.of_touches (h : e.Beside R s t) (hs : e.Touches s s') (ht : e.Touches t t')
    (hmemory : R' (e.memory s') (e.memory t')) : e.Beside R' s' t' where
  logging := by rw [hs.logging, ht.logging, h.logging]
  view := by rw [hs.view, ht.view, h.view]
  size := by rw [hs.size, ht.size, h.size]
  slot_lt := hs.size ▸ h.slot_lt
  others k hk := by rw [hs.others k hk, ht.others k hk, h.others k hk]
  memory := hmemory

/-- The matrices of another operator change in both sessions. -/
theorem Beside.modify (h : e.Beside R s t) {slot : Nat} (hne : slot ≠ e.slot)
    (f : List (Table α) → List (Table α)) :
    e.Beside R { s with tables := s.tables.modify slot f }
      { t with tables := t.tables.modify slot f } := by
  have hmemory (s : Session α σ) :
      e.memory { s with tables := s.tables.modify slot f } = e.memory s := by
    simp only [EntryOperator.memory, Array.getD_eq_getD_getElem?, Array.getElem?_modify, if_neg hne]
  refine ⟨h.logging, h.view, by simpa using h.size, by simpa using h.slot_lt, fun k hk => ?_, ?_⟩
  · simp only [Array.getElem?_modify, h.others k hk]
  · rw [hmemory, hmemory]
    exact h.memory

/-- What it means that two runs compare. -/
theorem compares_iff {run run' : Run α σ β} : (e.comparison R).Compares Eq run run' ↔
    ∀ s t, e.Beside R s t → ∃ out s' t', run.run s = Run.ending out s' ∧
      run'.run t = Run.ending out t' ∧ e.Beside R s' t' := by
  refine ⟨fun h s t hst => ?_, fun h s t hst => ?_⟩
  · have h₁ := h s t hst
    cases hs : run.run s with
    | ok b s' =>
      cases ht : run'.run t with
      | ok d t' =>
        rw [hs, ht] at h₁
        obtain ⟨hst', rfl⟩ := h₁
        exact ⟨.ok b, s', t', rfl, rfl, hst'⟩
      | error g t' =>
        rw [hs, ht] at h₁
        exact h₁.elim
    | error f s' =>
      cases ht : run'.run t with
      | ok d t' =>
        rw [hs, ht] at h₁
        exact h₁.elim
      | error g t' =>
        rw [hs, ht] at h₁
        obtain ⟨rfl, hst'⟩ := h₁.resolve_left id
        exact ⟨.error f, s', t', rfl, rfl, hst'⟩
  · obtain ⟨out, s', t', hs, ht, hst'⟩ := h s t hst
    rw [hs, ht]
    cases out with
    | ok b => exact ⟨hst', rfl⟩
    | error fault => exact .inr ⟨rfl, hst'⟩

variable (e) [Numeral α]

/-- What is made of an operator only touches the memory of `e` by applying this operator: for two
operators that are alike it is in the relation `T`. -/
def Uniform (T : Comparison α σ → β → β → Prop) (make : Operator α σ → β) : Prop :=
  ∀ R op op', op.Alike (e.comparison R) op' → T (e.comparison R) (make op) (make op')

variable {e} in
/-- A part of a request that may be missing. -/
theorem rel_option {T : Comparison α σ → β → β → Prop}
    {part : Option (Operator α σ → β)} (h : ∀ make ∈ part, e.Uniform T make)
    {op op' : Operator α σ} (halike : op.Alike (e.comparison R) op') :
    Option.Rel (T (e.comparison R)) (part.map (· op)) (part.map (· op')) := by
  cases part with
  | none => exact .none
  | some make => exact .some (h make rfl R op op' halike)

end EntryOperator

/-! ## Requests -/

/-- Sums and multiples of an operator that is shared and of other operators. -/
inductive Expression (α σ : Type) where
  | shared
  | other (op : Operator α σ)
  | sum (left right : Expression α σ)
  | scaled (inner : Expression α σ) (factor : α)

/-- The operator that an expression stands for. -/
def Expression.operator {α σ : Type} (op : Operator α σ) : Expression α σ → Operator α σ
  | shared => op
  | other op => op
  | sum left right => .sum (left.operator op) (right.operator op)
  | scaled inner factor => .scaled (inner.operator op) factor

open CentralPath in
/-- What callers may ask for. Every function may make use of one operator that they share. -/
inductive Request (α σ : Type) [Scalar α] where
  /-- The image of a vector of any length. -/
  | image (A : Expression α σ) (v : Array α)
  | solve (A : Operator α σ → OperatorLike α σ) (b guess : Datum α)
      (options : LinearSystem.Options α) (maxIterations : Datum α)
      (preconditioner : Option (Operator α σ → OperatorLike α σ))
  | conjugate (value : Option (Operator α σ → ScalarField α σ))
      (gradient : Operator α σ → VectorField α σ) (start : Datum α)
      (options : Conjugate.Options α σ) (outside : Operator α σ → Region α σ)
      (preconditioner : Option (Operator α σ → Tensor α σ))
  | newton (gradient : Operator α σ → VectorField α σ) (hessian : Operator α σ → Tensor α σ)
      (start : Datum α) (outside : Operator α σ → Region α σ) (options : Newton.Options α σ)
      (preconditioner : Option (Operator α σ → Tensor α σ))
  | conjugateConstrained (value : Option (Operator α σ → ScalarField α σ))
      (gradient : Operator α σ → VectorField α σ) (start : Datum α)
      (barrier : Operator α σ → Barrier α σ) (path : CentralPath.Options α)
      (options : Conjugate.Options α σ) (preconditioner : Option (Operator α σ → Preconditioner α σ))
  | newtonConstrained (gradient : Operator α σ → VectorField α σ)
      (hessian : Operator α σ → Tensor α σ) (start : Datum α)
      (barrier : Operator α σ → Barrier α σ) (path : CentralPath.Options α)
      (options : Newton.Options α σ) (preconditioner : Option (Operator α σ → Preconditioner α σ))

/-- What a request is answered with. -/
inductive Answer (α : Type) where
  | vector (v : Array α)
  | certificate (c : CentralPath.Certificate α)

namespace Request

variable {α σ τ : Type} [Numeral α]

/-- The answer to a request whose functions share the operator `op`. -/
def answer (op : Operator α σ) : Request α σ → Run α σ (Answer α)
  | image A v => return .vector (← (A.operator op).apply (Vec.ofArray v)).toArray
  | solve A b guess options maxIterations preconditioner =>
    return .vector (← solveLinear (A op) b guess options maxIterations (preconditioner.map (· op)))
  | conjugate value gradient start options outside preconditioner =>
    return .vector (← minimizeConjugate (value.map (· op)) (gradient op) start options (outside op)
      (preconditioner.map (· op)))
  | newton gradient hessian start outside options preconditioner =>
    return .vector (← minimizeNewton (gradient op) (hessian op) start (outside op) options
      (preconditioner.map (· op)))
  | conjugateConstrained value gradient start barrier path options preconditioner =>
    return .certificate (← minimizeConjugateConstrained (value.map (· op)) (gradient op) start
      (barrier op) path options (preconditioner.map (· op)))
  | newtonConstrained gradient hessian start barrier path options preconditioner =>
    return .certificate (← minimizeNewtonConstrained (gradient op) (hessian op) start (barrier op)
      path options (preconditioner.map (· op)))

end Request

/-! ## Uniform requests -/

namespace EntryOperator

variable {α σ τ : Type} [Numeral α] (e : EntryOperator α σ τ)

/-- The other operators in an expression do not touch the memory of `e`. -/
def Spares : Expression α σ → Prop
  | .shared => True
  | .other op => e.Uniform Operator.Alike fun _ => op
  | .sum left right => Spares left ∧ Spares right
  | .scaled inner _ => Spares inner

theorem Spares.alike {e : EntryOperator α σ τ} {R : Memory α → Memory α → Prop}
    {op op' : Operator α σ} (halike : op.Alike (e.comparison R) op') {A : Expression α σ}
    (h : e.Spares A) : (A.operator op).Alike (e.comparison R) (A.operator op') := by
  induction A with
  | shared => exact halike
  | other op => exact h R _ _ halike
  | sum left right ihleft ihright => exact (ihleft h.1).sum (ihright h.2)
  | scaled inner factor ih => exact (ih h).scaled factor

/-- Another entry operator keeps its matrices elsewhere. -/
theorem entries_alike {e : EntryOperator α σ τ} {R : Memory α → Memory α → Prop} {slot : Nat}
    (hne : slot ≠ e.slot) {entry : Nat → Nat → Run α σ α}
    (h : ∀ i j, (e.comparison R).Compares Eq (entry i j) (entry i j)) :
    (Operator.entries slot entry).Alike (e.comparison R) (.entries slot entry) := by
  have hget : (e.comparison R).Compares (fun s t => s.tables.getD slot [] = t.tables.getD slot [])
      get get := by
    refine fun s t hst => ⟨hst, ?_⟩
    show s.tables.getD slot [] = t.tables.getD slot []
    rw [Array.getD_eq_getD_getElem?, Array.getD_eq_getD_getElem?, hst.others slot hne]
  refine ⟨rfl, fun {n} v => ?_⟩
  unfold Operator.apply Run.table
  refine .bind (R := Eq) (.bind hget fun s t hst => ?_) fun rows _ hrows => .pure (by rw [hrows])
  rw [hst]
  split
  · exact .pure rfl
  · refine .bind (.ofFnM fun i => .ofFnM fun j => h i j) ?_
    rintro rows _ rfl
    exact .bind (R := Eq) (fun s t hst => ⟨hst.modify hne _, rfl⟩) fun _ _ _ => .pure rfl

/-- Functions of a point. -/
abbrev UniformField {β : Type} (f : Operator α σ → Array α → Run α σ β) : Prop :=
  e.Uniform (fun c => Run.CompareOn c fun _ => True) f

/-- Operators that depend on a point. -/
abbrev UniformTensor (tensor : Operator α σ → Tensor α σ) : Prop :=
  e.Uniform (fun c => Tensor.CompareBy (Operator.Alike.likeness c) fun _ => True) tensor

/-- Descriptions of operators. -/
abbrev UniformLike (A : Operator α σ → OperatorLike α σ) : Prop :=
  e.Uniform (fun c => OperatorLike.CompareBy (Operator.Alike.likeness c)) A

abbrev UniformBarrier (barrier : Operator α σ → Barrier α σ) : Prop :=
  e.Uniform (fun c => Barrier.Compare (Operator.Alike.likeness c) fun _ => True) barrier

abbrev UniformPreconditioner (p : Operator α σ → CentralPath.Preconditioner α σ) : Prop :=
  e.Uniform (fun c => CentralPath.Preconditioner.CompareBy (Operator.Alike.likeness c) fun _ => True)
    p

/-- A criterion that does not touch the memory of `e`. -/
def SparesCriterion (stop : CriterionLike α σ) : Prop :=
  ∀ R, stop.Compare (e.comparison R)

end EntryOperator

namespace Request

variable {α σ τ : Type} [Numeral α] {e : EntryOperator α σ τ}

/-- The functions of a request only touch the memory of `e` by applying the operator they share. -/
def Uniform (e : EntryOperator α σ τ) : Request α σ → Prop
  | image A _ => e.Spares A
  | solve A _ _ _ _ preconditioner => e.UniformLike A ∧ ∀ P ∈ preconditioner, e.UniformLike P
  | conjugate value gradient _ options outside preconditioner =>
    (∀ f ∈ value, e.UniformField f) ∧ e.UniformField gradient ∧ e.UniformField outside ∧
      (∀ P ∈ preconditioner, e.UniformTensor P) ∧ e.SparesCriterion options.stop
  | newton gradient hessian _ outside options preconditioner =>
    e.UniformField gradient ∧ e.UniformTensor hessian ∧ e.UniformField outside ∧
      (∀ P ∈ preconditioner, e.UniformTensor P) ∧ e.SparesCriterion options.stop
  | conjugateConstrained value gradient _ barrier _ options preconditioner =>
    (∀ f ∈ value, e.UniformField f) ∧ e.UniformField gradient ∧ e.UniformBarrier barrier ∧
      (∀ P ∈ preconditioner, e.UniformPreconditioner P) ∧ e.SparesCriterion options.stop
  | newtonConstrained gradient hessian _ barrier _ options preconditioner =>
    e.UniformField gradient ∧ e.UniformTensor hessian ∧ e.UniformBarrier barrier ∧
      (∀ P ∈ preconditioner, e.UniformPreconditioner P) ∧ e.SparesCriterion options.stop

open EntryOperator in
/-- **A request whose functions share one of two operators that are alike has one answer.** -/
theorem Uniform.compares {r : Request α σ} (h : r.Uniform e)
    {R : EntryOperator.Memory α → EntryOperator.Memory α → Prop} {op op' : Operator α σ}
    (halike : op.Alike (e.comparison R) op') :
    (e.comparison R).Compares Eq (r.answer op) (r.answer op') := by
  have hreturn {β γ : Type} {T : β → β → Prop} {run run' : Run α σ β}
      (hrun : (e.comparison R).Compares T run run') (hT : ∀ b d, T b d → b = d) (f : β → γ) :
      (e.comparison R).Compares Eq (do return f (← run)) (do return f (← run')) :=
    .bind hrun fun b d hbd => .pure (congrArg f (hT b d hbd))
  have hregion {outside outside' : Region α σ}
      (houtside : Run.CompareOn (e.comparison R) (fun _ => True) outside outside') :
      Region.Compare (e.comparison R) (fun _ => True) outside outside' :=
    fun _ y _ _ => (houtside y trivial).mono fun _ _ hout => ⟨hout, fun _ => trivial⟩
  cases r with
  | image A v =>
    exact hreturn ((EntryOperator.Spares.alike halike h).apply (Vec.ofArray v)) (fun _ _ => id) _
  | solve A b guess options maxIterations preconditioner =>
    obtain ⟨hA, hpreconditioner⟩ := h
    exact hreturn (solveLinear_compares (hA R op op' halike) (rel_option hpreconditioner halike))
      (fun _ _ hx => hx.1) _
  | conjugate value gradient start options outside preconditioner =>
    obtain ⟨hvalue, hgradient, houtside, hpreconditioner, hstop⟩ := h
    exact hreturn (minimizeConjugate_compares (fun _ _ => trivial) (rel_option hvalue halike)
      (hgradient R op op' halike).field (hregion (houtside R op op' halike))
      (rel_option hpreconditioner halike) (hstop R)) (fun _ _ hx => hx.1) _
  | newton gradient hessian start outside options preconditioner =>
    obtain ⟨hgradient, hhessian, houtside, hpreconditioner, hstop⟩ := h
    exact hreturn (minimizeNewton_compares (fun _ _ => trivial) (hgradient R op op' halike).field
      (hhessian R op op' halike) (hregion (houtside R op op' halike))
      (rel_option hpreconditioner halike) (hstop R)) (fun _ _ hx => hx.1) _
  | conjugateConstrained value gradient start barrier path options preconditioner =>
    obtain ⟨hvalue, hgradient, hbarrier, hpreconditioner, hstop⟩ := h
    exact hreturn (minimizeConjugateConstrained_compares (fun _ _ => trivial)
      (rel_option hvalue halike) (hgradient R op op' halike).field (hbarrier R op op' halike)
      (rel_option hpreconditioner halike) (hstop R)) (fun _ _ hr => hr.1) _
  | newtonConstrained gradient hessian start barrier path options preconditioner =>
    obtain ⟨hgradient, hhessian, hbarrier, hpreconditioner, hstop⟩ := h
    exact hreturn (minimizeNewtonConstrained_compares (fun _ _ => trivial)
      (hgradient R op op' halike).field (hhessian R op op' halike) (hbarrier R op op' halike)
      (rel_option hpreconditioner halike) (hstop R)) (fun _ _ hr => hr.1) _

end Request

/-! ## One request after the other -/

namespace Run

variable {α σ β : Type} {run run' : Run α σ β}

/-- A run whose fault is handed to whoever asked for it; what it did until then stays done. -/
def attempt (run : Run α σ β) : Run α σ (Except Fault β) := fun s =>
  match run.run s with
  | .ok b s => .ok (.ok b) s
  | .error fault s => .ok (.error fault) s

theorem exists_ending (run : Run α σ β) (s : Session α σ) : ∃ out s', run.run s = ending out s' := by
  cases run.run s with
  | ok b s' => exact ⟨.ok b, s', rfl⟩
  | error fault s' => exact ⟨.error fault, s', rfl⟩

theorem attempt_run {out : Except Fault β} {s s' : Session α σ} (h : run.run s = ending out s') :
    run.attempt.run s = .ok out s' := by
  show (match run.run s with
    | .ok b s => .ok (.ok b) s
    | .error fault s => .ok (.error fault) s : EStateM.Result _ _ (Except Fault β)) = _
  rw [h]
  cases out <;> rfl

end Run

namespace EntryOperator

variable {α σ τ β : Type} {e : EntryOperator α σ τ} {R : Memory α → Memory α → Prop}
  {run run' : Run α σ β}

theorem compares_attempt (h : (e.comparison R).Compares Eq run run') :
    (e.comparison R).Compares Eq run.attempt run'.attempt := by
  rw [compares_iff] at h ⊢
  intro s t hst
  obtain ⟨out, s', t', hs, ht, hst'⟩ := h s t hst
  exact ⟨.ok out, s', t', Run.attempt_run hs, Run.attempt_run ht, hst'⟩

end EntryOperator

section

variable {α σ τ : Type} [Numeral α] {e : EntryOperator α σ τ}

/-- The answers to requests that are made one after the other and share an operator. -/
def performed (op : Operator α σ) :
    List (Request α σ) → Run α σ (List (Except Fault (Answer α)))
  | [] => return []
  | r :: rest => do
    let first ← (r.answer op).attempt
    let others ← performed op rest
    return first :: others

/-- **Requests that share one of two operators that are alike have the same answers.** -/
theorem performed_compares {requests : List (Request α σ)} (h : ∀ r ∈ requests, r.Uniform e)
    {R : EntryOperator.Memory α → EntryOperator.Memory α → Prop} {op op' : Operator α σ}
    (halike : op.Alike (e.comparison R) op') :
    (e.comparison R).Compares Eq (performed op requests) (performed op' requests) := by
  induction requests with
  | nil => exact .pure rfl
  | cons r rest ih =>
    have hr := EntryOperator.compares_attempt ((h r List.mem_cons_self).compares halike)
    refine .bind hr ?_
    rintro first _ rfl
    refine .bind (ih fun r' hr' => h r' (List.mem_cons_of_mem r hr')) ?_
    rintro others _ rfl
    exact .pure rfl

/-- Requests are always answered, if need be with a fault. -/
theorem performed_returns (op : Operator α σ) (requests : List (Request α σ)) (s : Session α σ) :
    ∃ answers s', (performed op requests).run s = .ok answers s' := by
  induction requests generalizing s with
  | nil => exact ⟨[], s, rfl⟩
  | cons r rest ih =>
    obtain ⟨first, s₁, hfirst⟩ := Run.exists_ending (r.answer op) s
    obtain ⟨others, s₂, hothers⟩ := ih s₁
    refine ⟨first :: others, s₂, ?_⟩
    rw [performed, EStateM.run_bind, Run.attempt_run hfirst]
    simp only [EStateM.run_bind, hothers]
    rfl

/-- What is left after requests that share one of two operators that are alike. -/
theorem performed_beside {requests : List (Request α σ)} (h : ∀ r ∈ requests, r.Uniform e)
    {R : EntryOperator.Memory α → EntryOperator.Memory α → Prop} {op op' : Operator α σ}
    (halike : op.Alike (e.comparison R) op') {s t : Session α σ} (hst : e.Beside R s t) :
    ∃ answers s' t', (performed op requests).run s = .ok answers s' ∧
      (performed op' requests).run t = .ok answers t' ∧ e.Beside R s' t' := by
  obtain ⟨answers, s', hs⟩ := performed_returns op requests s
  obtain ⟨out, s₁, t', hs₁, ht, hbeside⟩ :=
    EntryOperator.compares_iff.1 (performed_compares h halike) s t hst
  rw [hs] at hs₁
  cases out with
  | ok answers' =>
    cases hs₁
    exact ⟨answers, s', t', hs, ht, hbeside⟩
  | error fault => cases hs₁

end

end Descent
