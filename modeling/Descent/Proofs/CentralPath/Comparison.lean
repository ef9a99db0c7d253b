import Descent.CentralPath
import Descent.Proofs.Minimize.Likeness

/-!
# Central paths compared

Two barriers whose parts compare at the points of a set `S`, and two ways to minimize their stages:
the paths take the same course.

* `Family.barrier_compare`, `ClosedForm.barrier_compare`: barriers compare if the functions they are
  made of do;
* `CentralPath.followWith_matches`: paths with any stages that compare at the scales of a set;
* `CentralPath.Certificate.Matches`: certificates that may differ in their multipliers, which are in
  some relation. `CentralPath.follow_matches`: paths with stages that compare end with certificates
  that match, about a point of `S`;
* `minimizeConjugateConstrained_matches`, `minimizeNewtonConstrained_matches`: so do the constrained
  minimizers. If the multipliers of the barriers are the same, there is one certificate:
  `minimizeConjugateConstrained_compares`, `minimizeNewtonConstrained_compares`.
-/

namespace Descent

variable {α σ : Type} [Numeral α] {c : Comparison α σ} {L : Operator.Likeness c}
  {S : Array α → Prop}

/-- Two barriers whose parts compare at the points of `S`, which contains every point found inside
that is as long as one of its points. -/
structure Barrier.Compare (L : Operator.Likeness c) (S : Array α → Prop)
    (barrier barrier' : Barrier α σ) : Prop where
  value : ∀ {n : Nat} (x : Vec α n), S x.toArray →
    c.Compares Eq (barrier.value x) (barrier'.value x)
  gradient : ∀ {n : Nat} (x : Vec α n), S x.toArray →
    c.Compares Eq (barrier.gradient x) (barrier'.gradient x)
  hessian : ∀ {n : Nat} (x : Vec α n), S x.toArray →
    c.Compares L.rel (barrier.hessian x) (barrier'.hessian x)
  hasHessian : barrier.hasHessian = barrier'.hasHessian
  multipliers : ∀ {n : Nat} (t : α) (x : Vec α n), S x.toArray →
    c.Compares Eq (barrier.multipliers t x) (barrier'.multipliers t x)
  outside : Region.Compare c S (CentralPath.outside barrier) (CentralPath.outside barrier')

/-- Two barriers that compare as functions; nothing is said of their multipliers. -/
structure Barrier.Near (L : Operator.Likeness c) (S : Array α → Prop)
    (barrier barrier' : Barrier α σ) : Prop where
  value : ∀ {n : Nat} (x : Vec α n), S x.toArray →
    c.Compares Eq (barrier.value x) (barrier'.value x)
  gradient : ∀ {n : Nat} (x : Vec α n), S x.toArray →
    c.Compares Eq (barrier.gradient x) (barrier'.gradient x)
  hessian : ∀ {n : Nat} (x : Vec α n), S x.toArray →
    c.Compares L.rel (barrier.hessian x) (barrier'.hessian x)
  hasHessian : barrier.hasHessian = barrier'.hasHessian
  outside : Region.Compare c S (CentralPath.outside barrier) (CentralPath.outside barrier')

theorem Barrier.Compare.near {barrier barrier' : Barrier α σ} (h : barrier.Compare L S barrier') :
    barrier.Near L S barrier' :=
  ⟨h.value, h.gradient, h.hessian, h.hasHessian, h.outside⟩

/-! ## Tensors that are made of functions -/

/-- Tensors that describe operators which are alike at every point. -/
theorem Tensor.varying_compare {f f' : Array α → Run α σ (OperatorLike α σ)}
    (h : ∀ x, S x → c.Compares (fun o o' => c.Compares L.rel
      (Run.ofExcept o.toOperator) (Run.ofExcept o'.toOperator)) (f x) (f' x)) :
    Tensor.CompareBy L S (.varying f) (.varying f') :=
  fun x hx => .bind (h x.toArray hx) fun _ _ ho => ho

/-! ## Barriers -/

namespace Family

variable {n : Nat}

/-- Two families with functions that compare. -/
structure Compare (L : Operator.Likeness c) (S : Array α → Prop) (f f' : Family α σ) : Prop where
  count : f.count = f'.count
  value : ∀ i x, c.Compares Eq (f.value i x) (f'.value i x)
  gradient : ∀ i, VectorField.Compare c S (f.gradient i) (f'.gradient i)
  hessian : Option.Rel (fun h h' => ∀ i, Tensor.CompareBy L S (h i) (h' i)) f.hessian f'.hessian

theorem curvatures_compares {f f' : Family α σ} (h : f.Compare L S f') (x : Vec α n)
    (hx : S x.toArray) :
    c.Compares (List.Forall₂ L.rel) (f.curvatures x) (f'.curvatures x) := by
  unfold curvatures
  rw [h.count]
  generalize f.hessian = hessian, f'.hessian = hessian', h.hessian = hrel
  cases hrel with
  | none => exact .pure .nil
  | some hhessian => exact .mapM (fun i => hhessian i x hx) _

theorem addCurvature_compares (v : Vec α n) {curvatures curvatures' : List (Operator α σ)}
    (h : List.Forall₂ L.rel curvatures curvatures') :
    ∀ (slack : List α) (sum : Vec α n), c.Compares Eq
      (addCurvature v sum (slack.zip curvatures)) (addCurvature v sum (slack.zip curvatures')) := by
  induction h with
  | nil =>
    intro slack sum
    rw [List.zip_nil_right]
    exact .pure rfl
  | cons hop _ ih =>
    intro slack sum
    cases slack with
    | nil => exact .pure rfl
    | cons s slack =>
      refine .bind (L.apply hop v) ?_
      rintro image _ rfl
      exact ih slack _

theorem violatedFrom_compares {f f' : Family α σ} (h : f.Compare L S f') (x : Vec α n) :
    ∀ left i, c.Compares Eq (f.violatedFrom x left i) (f'.violatedFrom x left i) := by
  intro left
  induction left with
  | zero => exact fun i => .pure rfl
  | succ left ih =>
    intro i
    refine .bind (h.value i x.toArray) ?_
    rintro v _ rfl
    exact .ite Iff.rfl (fun _ => .pure rfl) fun _ => ih (i + 1)

section

variable {count : Nat} {value value' : Nat → ScalarField α σ}
  {gradient gradient' : Nat → VectorField α σ} {hessian hessian' : Option (Nat → Tensor α σ)}
  {diagonal diagonal' : Option (Nat → VectorField α σ)}

/-- The parts of the logarithmic barriers of two families of one size. -/
theorem slack_compares
    (h : Compare L S ⟨count, value, gradient, hessian, diagonal⟩
      ⟨count, value', gradient', hessian', diagonal'⟩) (x : Vec α n) :
    c.Compares Eq (slack ⟨count, value, gradient, hessian, diagonal⟩ x)
      (slack ⟨count, value', gradient', hessian', diagonal'⟩ x) := by
  refine .bind (.ofFnM fun i => h.value i x.toArray) ?_
  rintro v _ rfl
  exact .pure rfl

theorem gradients_compares
    (h : Compare L S ⟨count, value, gradient, hessian, diagonal⟩
      ⟨count, value', gradient', hessian', diagonal'⟩) (x : Vec α n) (hx : S x.toArray) :
    c.Compares Eq (gradients ⟨count, value, gradient, hessian, diagonal⟩ x)
      (gradients ⟨count, value', gradient', hessian', diagonal'⟩ x) :=
  .ofFnM fun i => h.gradient i _ x hx

end

theorem barrierHessian_compares {f f' : Family α σ} (h : f.Compare L S f') (x : Vec α n)
    (hx : S x.toArray) :
    c.Compares L.rel (f.barrierHessian x) (f'.barrierHessian x) := by
  have hcurvatures := curvatures_compares h x hx
  obtain ⟨count, value, gradient, hessian, diagonal⟩ := f
  obtain ⟨count', value', gradient', hessian', diagonal'⟩ := f'
  obtain rfl : count = count' := h.count
  refine .bind (slack_compares h x) ?_
  rintro slack _ rfl
  refine .bind (gradients_compares h x hx) ?_
  rintro jacobian _ rfl
  refine .bind hcurvatures fun curvatures curvatures' hops => .pure ?_
  refine L.function (some n) fun v => ?_
  dsimp only
  split
  · refine .bind (addCurvature_compares _ hops _ _) ?_
    rintro image _ rfl
    exact .pure rfl
  · exact .throw

/-- **The logarithmic barriers of families with functions that compare.** -/
theorem barrier_compare {f f' : Family α σ} (h : f.Compare L S f')
    (houtside : Region.Compare c S (CentralPath.outside (.family f))
      (CentralPath.outside (.family f'))) :
    Barrier.Compare L S (.family f) (.family f') := by
  obtain ⟨count, value, gradient, hessian, diagonal⟩ := f
  obtain ⟨count', value', gradient', hessian', diagonal'⟩ := f'
  obtain rfl : count = count' := h.count
  refine ⟨fun x hx => ?_, fun x hx => ?_, fun x hx => barrierHessian_compares h x hx, rfl,
    fun t x hx => ?_, houtside⟩
  · refine .bind (slack_compares h x) ?_
    rintro slack _ rfl
    exact .pure rfl
  · refine .bind (slack_compares h x) ?_
    rintro slack _ rfl
    refine .bind (gradients_compares h x hx) ?_
    rintro jacobian _ rfl
    exact .pure rfl
  · refine .bind (.ofFnM fun i => h.value i x.toArray) ?_
    rintro v _ rfl
    exact .pure rfl

end Family

namespace ClosedForm

/-- Two barriers in closed form with functions that compare. -/
structure Compare (L : Operator.Likeness c) (S : Array α → Prop) (b b' : ClosedForm α σ) :
    Prop where
  value : Run.CompareOn c S b.value b'.value
  gradient : VectorField.Compare c S b.gradient b'.gradient
  multipliers : ∀ t, Run.CompareOn c S (b.multipliers t) (b'.multipliers t)
  outside : Region.Compare c S b.outside b'.outside
  hessian : Option.Rel (Tensor.CompareBy L S) b.hessian b'.hessian

/-- **Barriers in closed form with functions that compare.** -/
theorem barrier_compare {b b' : ClosedForm α σ} (h : b.Compare L S b') :
    Barrier.Compare L S (.closedForm b) (.closedForm b') where
  value x hx := h.value x.toArray hx
  gradient x hx := h.gradient _ x hx
  hessian x hx := by
    unfold Barrier.hessian
    dsimp only
    generalize b.hessian = hessian, b'.hessian = hessian', h.hessian = hrel
    cases hrel with
    | none => exact .throw
    | some htensor => exact htensor x hx
  hasHessian := by
    unfold Barrier.hasHessian
    dsimp only
    generalize b.hessian = hessian, b'.hessian = hessian', h.hessian = hrel
    cases hrel <;> rfl
  multipliers t x hx := by
    refine .bind (h.multipliers t x.toArray hx) ?_
    rintro d _ rfl
    exact .ofExcept fun _ _ => rfl
  outside := h.outside

end ClosedForm

namespace CentralPath

/-! ## Stages -/

section

variable {value value' : Option (ScalarField α σ)} {gradient gradient' : VectorField α σ}
  {hessian hessian' : Tensor α σ} {barrier barrier' : Barrier α σ}

theorem stageValue_compare (hvalue : Option.Rel (Run.CompareOn c S) value value')
    (hbarrier : barrier.Near L S barrier') (t : α) :
    Run.CompareOn c S (stageValue value barrier t) (stageValue value' barrier' t) := by
  intro x hx
  unfold stageValue
  cases hvalue with
  | none => exact .throw
  | some hf =>
    refine .bind (hf x hx) ?_
    rintro a _ rfl
    refine .bind (hbarrier.value (Vec.ofArray x) hx) ?_
    rintro b _ rfl
    exact .pure rfl

theorem stageGradient_compare (hgradient : VectorField.Compare c S gradient gradient')
    (hbarrier : barrier.Near L S barrier') (t : α) :
    Run.CompareOn c S (stageGradient gradient barrier t) (stageGradient gradient' barrier' t) := by
  intro x hx
  refine .bind (hgradient _ (Vec.ofArray x) hx) ?_
  rintro a _ rfl
  refine .bind (hbarrier.gradient (Vec.ofArray x) hx) ?_
  rintro b _ rfl
  exact .pure rfl

theorem stageHessian_compare (hhessian : Tensor.CompareBy L S hessian hessian')
    (hbarrier : barrier.Near L S barrier') (t : α) :
    Tensor.CompareBy L S (stageHessian hessian barrier t) (stageHessian hessian' barrier' t) := by
  refine Tensor.varying_compare fun x hx => ?_
  refine .bind (hhessian (Vec.ofArray x) hx) fun a a' ha => ?_
  refine .bind (hbarrier.hessian (Vec.ofArray x) hx) fun b b' hb => ?_
  exact .bind (L.add ha (L.scaled hb _)) fun op op' hop => .pure (.pure hop)

end

/-- Two ways to minimize stages that lead to one point from every point of `S`, again one of `S`. -/
def Stage.Compare (L : Operator.Likeness c) (S : Array α → Prop) (stage stage' : Stage α σ) :
    Prop :=
  ∀ x t smoother smoother', S x → Option.Rel (Tensor.CompareBy L S) smoother smoother' →
    c.Compares (fun y y' => y = y' ∧ S y) (stage x t smoother) (stage' x t smoother')

/-- Preconditioners whose tensors compare. -/
def Preconditioner.Compare (c : Comparison α σ) (S : Array α → Prop)
    (p p' : Preconditioner α σ) : Prop :=
  ∀ t, c.Compares (Tensor.Compare c S) (p t) (p' t)

/-- Preconditioners whose tensors compare by a likeness. -/
def Preconditioner.CompareBy (L : Operator.Likeness c) (S : Array α → Prop)
    (p p' : Preconditioner α σ) : Prop :=
  ∀ t, c.Compares (Tensor.CompareBy L S) (p t) (p' t)

theorem conjugateStage_compare {value value' : Option (ScalarField α σ)}
    {gradient gradient' : VectorField α σ} {barrier barrier' : Barrier α σ}
    {options : Conjugate.Options α σ} (hvalue : Option.Rel (Run.CompareOn c S) value value')
    (hgradient : VectorField.Compare c S gradient gradient')
    (hbarrier : barrier.Near L S barrier') (hstop : options.stop.Compare c) :
    Stage.Compare L S (conjugateStage value gradient barrier options)
      (conjugateStage value' gradient' barrier' options) := by
  intro x t smoother smoother' hx hsmoother
  refine minimizeConjugate_compares (fun w hw => ?_) (.some (stageValue_compare hvalue hbarrier t))
    (stageGradient_compare hgradient hbarrier t).field hbarrier.outside hsmoother hstop
  cases hw
  exact hx

theorem newtonStage_compare {gradient gradient' : VectorField α σ} {hessian hessian' : Tensor α σ}
    {barrier barrier' : Barrier α σ} {options : Newton.Options α σ}
    (hgradient : VectorField.Compare c S gradient gradient')
    (hhessian : Tensor.CompareBy L S hessian hessian') (hbarrier : barrier.Near L S barrier')
    (hstop : options.stop.Compare c) :
    Stage.Compare L S (newtonStage gradient hessian barrier options)
      (newtonStage gradient' hessian' barrier' options) := by
  intro x t smoother smoother' hx hsmoother
  refine minimizeNewton_compares (fun w hw => ?_) (stageGradient_compare hgradient hbarrier t).field
    (stageHessian_compare hhessian hbarrier t) hbarrier.outside hsmoother hstop
  cases hw
  exact hx

/-! ## Paths -/

section

variable {stage stage' : Stage α σ} {barrier barrier' : Barrier α σ}
  {preconditioner preconditioner' : Option (Preconditioner α σ)}

theorem stagePreconditioner_compares
    (h : Option.Rel (Preconditioner.CompareBy L S) preconditioner preconditioner') (t : α) :
    c.Compares (Option.Rel (Tensor.CompareBy L S)) (stagePreconditioner preconditioner t)
      (stagePreconditioner preconditioner' t) := by
  cases h with
  | none => exact .pure .none
  | some hp =>
    refine .bind (hp t) fun tensor tensor' htensor => .pure (.some ?_)
    refine Tensor.varying_compare fun x hx => ?_
    exact .bind (htensor (Vec.ofArray x) hx) fun op op' hop => .pure (.pure (L.scaled hop t))

/-- Arrivals that differ in nothing but the multipliers, which are in relation. -/
structure Arrival.Matches (W : Array α → Array α → Prop) (a a' : Arrival α) : Prop where
  point : a.point = a'.point
  scale : a.scale = a'.scale
  gap : a.gap = a'.gap
  multipliers : W a.multipliers a'.multipliers

/-- Certificates that differ in nothing but the multipliers, which are in relation. -/
structure Certificate.Matches (W : Array α → Array α → Prop) (r r' : Certificate α) : Prop where
  optimum : r.optimum = r'.optimum
  scale : r.scale = r'.scale
  dualityGap : r.dualityGap = r'.dualityGap
  stages : r.stages = r'.stages
  status : r.status = r'.status
  gapHistory : r.gapHistory = r'.gapHistory
  multipliers : W r.multipliers r'.multipliers

omit [Numeral α] in
theorem Arrival.Matches.eq {a a' : Arrival α} (h : a.Matches Eq a') : a = a' := by
  obtain ⟨point, multipliers, scale, gap⟩ := a
  obtain ⟨rfl, rfl, rfl, rfl⟩ := h
  rfl

omit [Numeral α] in
theorem Certificate.Matches.eq {r r' : Certificate α} (h : r.Matches Eq r') : r = r' := by
  obtain ⟨optimum, multipliers, scale, gap, stages, status, history⟩ := r
  obtain ⟨rfl, rfl, rfl, rfl, rfl, rfl, rfl⟩ := h
  rfl

omit [Numeral α] in
theorem Arrival.Matches.refl (a : Arrival α) : a.Matches Eq a :=
  ⟨rfl, rfl, rfl, rfl⟩

omit [Numeral α] in
theorem Arrival.Matches.certificate {W : Array α → Array α → Prop} {a a' : Arrival α}
    (h : a.Matches W a') (status : Status) (gaps : List α) :
    (a.certificate status gaps).Matches W (a'.certificate status gaps) :=
  ⟨h.point, h.scale, h.gap, rfl, rfl, rfl, h.multipliers⟩

/-- Barriers that have as many multipliers at a point of `S`, in a relation. -/
def MultipliersMatch (c : Comparison α σ) (S : Array α → Prop) (W : Array α → Array α → Prop)
    (barrier barrier' : Barrier α σ) : Prop :=
  ∀ {n : Nat} (t : α) (x : Vec α n), S x.toArray →
    c.Compares (fun m m' => m.size = m'.size ∧ W m m') (barrier.multipliers t x)
      (barrier'.multipliers t x)

theorem multipliersMatch_of_compare (h : barrier.Compare L S barrier') :
    MultipliersMatch c S Eq barrier barrier' :=
  fun t x hx => (h.multipliers t x hx).mono fun _ _ hm => ⟨congrArg Array.size hm, hm⟩

/-- The stages before may be counted differently, if the lines about that compare. -/
theorem arrive_matches {W : Array α → Array α → Prop} (hstage : Stage.Compare L S stage stage')
    (hmultipliers : MultipliersMatch c S W barrier barrier')
    (hpreconditioner : Option.Rel (Preconditioner.CompareBy L S) preconditioner preconditioner')
    {done done' : Nat} {x : Array α} (hx : S x) (t : α)
    (hline : ∀ gap, c.Compares Eq (Run.debug .centralPath fun _ => stageLine (done + 1) t gap)
      (Run.debug .centralPath fun _ => stageLine (done' + 1) t gap)) :
    c.Compares (fun a a' => a.Matches W a' ∧ a.scale = t ∧ S a.point)
      (arrive stage barrier preconditioner done x t)
      (arrive stage' barrier' preconditioner' done' x t) := by
  refine .bind (stagePreconditioner_compares hpreconditioner t) fun smoother smoother' hsmooth => ?_
  refine .bind (hstage x t smoother smoother' hx hsmooth) ?_
  rintro y _ ⟨rfl, hy⟩
  refine .bind (hmultipliers t (Vec.ofArray y) hy) ?_
  rintro multipliers multipliers' ⟨hsize, hW⟩
  rw [hsize]
  exact .bind (hline _) fun _ _ _ => .pure ⟨⟨rfl, rfl, rfl, hW⟩, rfl, hy⟩

theorem arrive_compares (hstage : Stage.Compare L S stage stage')
    (hbarrier : barrier.Compare L S barrier')
    (hpreconditioner : Option.Rel (Preconditioner.CompareBy L S) preconditioner preconditioner')
    {done done' : Nat} {x : Array α} (hx : S x) (t : α)
    (hline : ∀ gap, c.Compares Eq (Run.debug .centralPath fun _ => stageLine (done + 1) t gap)
      (Run.debug .centralPath fun _ => stageLine (done' + 1) t gap)) :
    c.Compares (fun a a' => a = a' ∧ a.scale = t ∧ S a.point)
      (arrive stage barrier preconditioner done x t)
      (arrive stage' barrier' preconditioner' done' x t) :=
  (arrive_matches hstage (multipliersMatch_of_compare hbarrier) hpreconditioner hx t hline).mono
    fun _ _ ha => ⟨ha.1.eq, ha.2⟩

/-- The path from scale `t` on, given what a stage does. -/
def followWith (arrive : Nat → Array α → α → Run α σ (Arrival α)) (schedule : Schedule α) :
    (left : Nat) → (gaps : List α) → (x : Array α) → (t : α) → Run α σ (Certificate α)
  | 0, gaps, x, t => do
    let a ← arrive gaps.length x t
    if a.gap < schedule.dualityGap.ceiling then return a.certificate .optimal (a.gap :: gaps)
    else
      Run.debug .centralPath fun _ => exhaustedLine a.gap
      return a.certificate .stageBudget (a.gap :: gaps)
  | left + 1, gaps, x, t => do
    let a ← arrive gaps.length x t
    if a.gap < schedule.dualityGap.ceiling then return a.certificate .optimal (a.gap :: gaps)
    else
      let factor ← Run.ofExcept schedule.scaleFactor.toScalar
      followWith arrive schedule left (a.gap :: gaps) a.point (t * factor)

theorem follow_eq_followWith (stage : Stage α σ) (barrier : Barrier α σ) (schedule : Schedule α)
    (preconditioner : Option (Preconditioner α σ)) : ∀ left gaps x t,
    follow stage barrier schedule preconditioner left gaps x t =
      followWith (arrive stage barrier preconditioner) schedule left gaps x t := by
  intro left
  induction left with
  | zero => exact fun gaps x t => rfl
  | succ left ih =>
    intro gaps x t
    simp only [follow, ih]
    rfl

/-- Stages that match from the points of `S` at the scales with `T`. -/
theorem followWith_matches {arrive arrive' : Nat → Array α → α → Run α σ (Arrival α)}
    {schedule : Schedule α} {W : Array α → Array α → Prop} {T : α → Prop}
    (harrive : ∀ done x t, S x → T t →
      c.Compares (fun a a' => a.Matches W a' ∧ S a.point) (arrive done x t) (arrive' done x t))
    (hscale : ∀ t factor, T t → schedule.scaleFactor.toScalar = .ok factor → T (t * factor)) :
    ∀ left gaps x t, S x → T t → c.Compares (fun r r' => r.Matches W r' ∧ S r.optimum)
      (followWith arrive schedule left gaps x t) (followWith arrive' schedule left gaps x t) := by
  intro left
  induction left with
  | zero =>
    intro gaps x t hx ht
    refine .bind (harrive _ x t hx ht) ?_
    rintro a a' ⟨ha, hpoint⟩
    rw [← ha.gap]
    refine .ite Iff.rfl (fun _ => .pure ⟨ha.certificate _ _, hpoint⟩) fun _ => ?_
    exact .bind (.debug _ _) fun _ _ _ => .pure ⟨ha.certificate _ _, hpoint⟩
  | succ left ih =>
    intro gaps x t hx ht
    refine .bind (harrive _ x t hx ht) ?_
    rintro a a' ⟨ha, hpoint⟩
    rw [← ha.gap, ← ha.point]
    refine .ite Iff.rfl (fun _ => .pure ⟨ha.certificate _ _, hpoint⟩) fun _ => ?_
    exact .check fun factor hfactor => ih _ _ _ hpoint (hscale t factor ht hfactor)

/-- Stages that compare from the points of `S` at the scales with `W`. -/
theorem followWith_compares {arrive arrive' : Nat → Array α → α → Run α σ (Arrival α)}
    {schedule : Schedule α} {W : α → Prop}
    (harrive : ∀ done x t, S x → W t →
      c.Compares (fun a a' => a = a' ∧ S a.point) (arrive done x t) (arrive' done x t))
    (hscale : ∀ t factor, W t → schedule.scaleFactor.toScalar = .ok factor → W (t * factor))
    (left : Nat) (gaps : List α) (x : Array α) (t : α) (hx : S x) (ht : W t) :
    c.Compares (fun r r' => r = r' ∧ S r.optimum)
      (followWith arrive schedule left gaps x t) (followWith arrive' schedule left gaps x t) := by
  refine (followWith_matches (fun done x t hx ht => ?_) hscale left gaps x t hx ht).mono
    fun _ _ h => ⟨h.1.eq, h.2⟩
  exact (harrive done x t hx ht).mono fun a a' ha => ⟨ha.1 ▸ .refl a, ha.2⟩

theorem follow_matches {W : Array α → Array α → Prop} (hstage : Stage.Compare L S stage stage')
    (hmultipliers : MultipliersMatch c S W barrier barrier')
    (hpreconditioner : Option.Rel (Preconditioner.CompareBy L S) preconditioner preconditioner')
    (schedule : Schedule α) (left : Nat) (gaps : List α) {x : Array α} (t : α) (hx : S x) :
    c.Compares (fun r r' => r.Matches W r' ∧ S r.optimum)
      (follow stage barrier schedule preconditioner left gaps x t)
      (follow stage' barrier' schedule preconditioner' left gaps x t) := by
  simp only [follow_eq_followWith]
  refine followWith_matches (T := fun _ => True) (fun done x t hx _ => ?_)
    (fun _ _ _ _ => trivial) left gaps x t hx trivial
  exact (arrive_matches hstage hmultipliers hpreconditioner hx t fun _ => .debug _ _).mono
    fun a a' ha => ⟨ha.1, ha.2.2⟩

theorem followFrom_matches {W : Array α → Array α → Prop} (hstage : Stage.Compare L S stage stage')
    (hmultipliers : MultipliersMatch c S W barrier barrier')
    (hpreconditioner : Option.Rel (Preconditioner.CompareBy L S) preconditioner preconditioner')
    (schedule : Schedule α) {start : Datum α}
    (hstart : ∀ w, start.toVector "w0" = .ok w → S w) :
    c.Compares (fun r r' => r.Matches W r' ∧ S r.optimum)
      (followFrom stage barrier schedule preconditioner start)
      (followFrom stage' barrier' schedule preconditioner' start) :=
  .check fun w hw => .check fun _ _ =>
    follow_matches hstage hmultipliers hpreconditioner schedule _ _ _ (hstart w hw)

theorem followFrom_compares (hstage : Stage.Compare L S stage stage')
    (hbarrier : barrier.Compare L S barrier')
    (hpreconditioner : Option.Rel (Preconditioner.CompareBy L S) preconditioner preconditioner')
    (schedule : Schedule α) {start : Datum α}
    (hstart : ∀ w, start.toVector "w0" = .ok w → S w) :
    c.Compares (fun r r' => r = r' ∧ S r.optimum)
      (followFrom stage barrier schedule preconditioner start)
      (followFrom stage' barrier' schedule preconditioner' start) :=
  (followFrom_matches hstage (multipliersMatch_of_compare hbarrier) hpreconditioner schedule
    hstart).mono fun _ _ h => ⟨h.1.eq, h.2⟩

end

end CentralPath

open CentralPath

section

variable {value value' : Option (ScalarField α σ)} {gradient gradient' : VectorField α σ}
  {hessian hessian' : Tensor α σ} {start : Datum α} {barrier barrier' : Barrier α σ}
  {path : CentralPath.Options α} {preconditioner preconditioner' : Option (Preconditioner α σ)}

/-- **Constrained minimizations by conjugate gradients of functions that compare end with
certificates that match**, about a point of `S`. -/
theorem minimizeConjugateConstrained_matches {W : Array α → Array α → Prop}
    {options : Conjugate.Options α σ} (hstart : ∀ w, start.toVector "w0" = .ok w → S w)
    (hvalue : Option.Rel (Run.CompareOn c S) value value')
    (hgradient : VectorField.Compare c S gradient gradient')
    (hbarrier : barrier.Near L S barrier')
    (hmultipliers : MultipliersMatch c S W barrier barrier')
    (hpreconditioner : Option.Rel (Preconditioner.CompareBy L S) preconditioner preconditioner')
    (hstop : options.stop.Compare c) :
    c.Compares (fun r r' => r.Matches W r' ∧ S r.optimum)
      (minimizeConjugateConstrained value gradient start barrier path options preconditioner)
      (minimizeConjugateConstrained value' gradient' start barrier' path options
        preconditioner') :=
  .check fun schedule _ => followFrom_matches
    (conjugateStage_compare hvalue hgradient hbarrier hstop) hmultipliers hpreconditioner schedule
    hstart

/-- **Constrained minimizations by truncated Newton steps of functions that compare end with
certificates that match**, about a point of `S`. -/
theorem minimizeNewtonConstrained_matches {W : Array α → Array α → Prop}
    {options : Newton.Options α σ} (hstart : ∀ w, start.toVector "w0" = .ok w → S w)
    (hgradient : VectorField.Compare c S gradient gradient')
    (hhessian : Tensor.CompareBy L S hessian hessian') (hbarrier : barrier.Near L S barrier')
    (hmultipliers : MultipliersMatch c S W barrier barrier')
    (hpreconditioner : Option.Rel (Preconditioner.CompareBy L S) preconditioner preconditioner')
    (hstop : options.stop.Compare c) :
    c.Compares (fun r r' => r.Matches W r' ∧ S r.optimum)
      (minimizeNewtonConstrained gradient hessian start barrier path options preconditioner)
      (minimizeNewtonConstrained gradient' hessian' start barrier' path options
        preconditioner') := by
  refine .check fun schedule _ => ?_
  have hfollow := followFrom_matches (newtonStage_compare hgradient hhessian hbarrier hstop)
    hmultipliers hpreconditioner schedule hstart
  rw [← hbarrier.hasHessian]
  exact .ite Iff.rfl (fun _ => .bind .throw fun _ _ (_ : True) => hfollow) fun _ => hfollow

/-- **Constrained minimizations by conjugate gradients of functions that compare end with one
certificate**, about a point of `S`. -/
theorem minimizeConjugateConstrained_compares {options : Conjugate.Options α σ}
    (hstart : ∀ w, start.toVector "w0" = .ok w → S w)
    (hvalue : Option.Rel (Run.CompareOn c S) value value')
    (hgradient : VectorField.Compare c S gradient gradient')
    (hbarrier : barrier.Compare L S barrier')
    (hpreconditioner : Option.Rel (Preconditioner.CompareBy L S) preconditioner preconditioner')
    (hstop : options.stop.Compare c) :
    c.Compares (fun r r' => r = r' ∧ S r.optimum)
      (minimizeConjugateConstrained value gradient start barrier path options preconditioner)
      (minimizeConjugateConstrained value' gradient' start barrier' path options
        preconditioner') :=
  (minimizeConjugateConstrained_matches hstart hvalue hgradient hbarrier.near
    (multipliersMatch_of_compare hbarrier) hpreconditioner hstop).mono
      fun _ _ h => ⟨h.1.eq, h.2⟩

/-- **Constrained minimizations by truncated Newton steps of functions that compare end with one
certificate**, about a point of `S`. -/
theorem minimizeNewtonConstrained_compares {options : Newton.Options α σ}
    (hstart : ∀ w, start.toVector "w0" = .ok w → S w)
    (hgradient : VectorField.Compare c S gradient gradient')
    (hhessian : Tensor.CompareBy L S hessian hessian') (hbarrier : barrier.Compare L S barrier')
    (hpreconditioner : Option.Rel (Preconditioner.CompareBy L S) preconditioner preconditioner')
    (hstop : options.stop.Compare c) :
    c.Compares (fun r r' => r = r' ∧ S r.optimum)
      (minimizeNewtonConstrained gradient hessian start barrier path options preconditioner)
      (minimizeNewtonConstrained gradient' hessian' start barrier' path options
        preconditioner') :=
  (minimizeNewtonConstrained_matches hstart hgradient hhessian hbarrier.near
    (multipliersMatch_of_compare hbarrier) hpreconditioner hstop).mono
      fun _ _ h => ⟨h.1.eq, h.2⟩

end

end Descent
