import Descent.Barrier.Jacobi
import Descent.Proofs.CentralPath.Comparison
import Descent.Proofs.Exact.Operator
import Descent.Proofs.Minimize.Resume
import Descent.Proofs.Run.Outcome

/-!
# The order of constraints

A family with its constraints in another order has the same logarithmic barrier, with exact real
numbers as scalars: value, gradient, second derivative, its diagonal and the domain are sums over
the constraints or ask about all of them. What is given for each constraint, the multipliers, is in
the other order as well.

The functions of the constraints are asked in another order, too. They always give the same answers,
and their values exist wherever they are asked for: to find a point outside, the constraints are
asked one after the other until one is violated.

* `Family.reordered`: the family in another order; `Family.Answers`: what is asked of its functions;
* `Family.values_reordered` and its neighbours: the parts of the barrier;
* `Family.barrier_near_reordered`, `Family.multipliers_reordered`: the barrier and its multipliers.
-/

namespace Descent

namespace Family

/-! ## Families in another order -/

section

variable {α σ : Type} {m : Nat}

/-- The index that an order has at a place; places that it does not know stay where they are. -/
def placed (order : Equiv.Perm (Fin m)) (i : Nat) : Nat :=
  if h : i < m then order ⟨i, h⟩ else i

@[simp] theorem placed_fin (order : Equiv.Perm (Fin m)) (i : Fin m) :
    placed order i = order i :=
  dif_pos i.isLt

theorem placed_symm (order : Equiv.Perm (Fin m)) (i : Nat) :
    placed order (placed order.symm i) = i := by
  by_cases h : i < m
  · have hplace : placed order.symm i = order.symm ⟨i, h⟩ := placed_fin order.symm ⟨i, h⟩
    rw [hplace, placed_fin, Equiv.apply_symm_apply]
  · have hplace : placed order.symm i = i := dif_neg h
    rw [hplace]
    exact dif_neg h

/-- The family in another order: constraint `i` is the one that was `order i`. -/
def reordered (f : Family α σ) (order : Equiv.Perm (Fin m)) : Family α σ where
  count := f.count
  value i := f.value (placed order i)
  gradient i := f.gradient (placed order i)
  hessian := f.hessian.map fun hessian i => hessian (placed order i)
  hessianDiagonal := f.hessianDiagonal.map fun diagonal i => diagonal (placed order i)

section

variable {f : Family α σ} (order : Equiv.Perm (Fin f.count)) (i : Fin f.count)

theorem reordered_value : (f.reordered order).value i = f.value (order i) :=
  congrArg f.value (placed_fin order i)

theorem reordered_gradient : (f.reordered order).gradient i = f.gradient (order i) :=
  congrArg f.gradient (placed_fin order i)

end

theorem reordered_symm (f : Family α σ) (order : Equiv.Perm (Fin m)) :
    (f.reordered order).reordered order.symm = f := by
  obtain ⟨count, value, gradient, hessian, diagonal⟩ := f
  simp only [reordered, placed_symm, Option.map_map, Function.comp_def, Option.map_id']

end

/-- The functions of a family always give the same answers, and constraints have a value wherever
they are asked. -/
structure Answers {α σ : Type} [Numeral α] (I : Invariant α σ) (on : Logging.Source → Bool)
    (f : Family α σ) : Prop where
  value : ∀ (i : Fin f.count) x, ∃ v, (f.value i x).Settles I on (.ok v)
  gradient : ∀ i : Fin f.count, Run.Determined I on (f.gradient i)
  hessian : ∀ hessian ∈ f.hessian, ∀ i : Fin f.count, (hessian i).Determined I on
  diagonal : ∀ diagonal ∈ f.hessianDiagonal, ∀ i : Fin f.count, Run.Determined I on (diagonal i)

variable {σ : Type} [RealText] {n : Nat} {I : Invariant ℝ σ} {on : Logging.Source → Bool}
  {f : Family ℝ σ}

theorem Answers.reordered (h : f.Answers I on) (order : Equiv.Perm (Fin f.count)) :
    (f.reordered order).Answers I on where
  value := fun (i : Fin f.count) x => by
    rw [reordered_value]
    exact h.value (order i) x
  gradient := fun (i : Fin f.count) => by
    rw [reordered_gradient]
    exact h.gradient (order i)
  hessian := fun hessian hmem (i : Fin f.count) => by
    obtain ⟨original, horiginal, rfl⟩ := Option.mem_map.1 hmem
    show (original (placed order i)).Determined I on
    rw [placed_fin]
    exact h.hessian original horiginal (order i)
  diagonal := fun diagonal hmem (i : Fin f.count) => by
    obtain ⟨original, horiginal, rfl⟩ := Option.mem_map.1 hmem
    show Run.Determined I on (original (placed order i))
    rw [placed_fin]
    exact h.diagonal original horiginal (order i)

/-! ## Values, gradients and curvatures -/

omit [RealText] in
theorem map_reordered {m : Nat} (order : Equiv.Perm (Fin m)) {s s' : Vec ℝ m}
    (h : ∀ i : Fin m, s.get (order i) = s'.get i) (g : ℝ → ℝ) (i : Fin m) :
    (s.map g).get (order i) = (s'.map g).get i := by
  have hmap (v : Vec ℝ m) (j : Fin m) : (v.map g).get j = g (v.get j) := Vector.getElem_map _ _
  rw [hmap, hmap, h]

section

variable (h : f.Answers I on) (order : Equiv.Perm (Fin f.count)) (x : Vec ℝ n)
include h

theorem values_reordered :
    (Comparison.returning I on).Compares
      (fun v v' : Vec ℝ f.count => ∀ i : Fin f.count, v.get (order i) = v'.get i)
      (f.values x) ((f.reordered order).values x) := by
  refine .ofFnM_reordered order fun i => ?_
  obtain ⟨v, hv⟩ := h.value (order i) x.toArray
  rw [reordered_value]
  exact (hv.compares hv).returning

theorem slack_reordered :
    (Comparison.returning I on).Compares
      (fun s s' : Vec ℝ f.count => ∀ i : Fin f.count, s.get (order i) = s'.get i)
      (f.slack x) ((f.reordered order).slack x) := by
  refine .bind (values_reordered h order x) fun (v v' : Vec ℝ f.count) hv => .pure fun i => ?_
  exact map_reordered order hv Neg.neg i

theorem gradients_reordered :
    (Comparison.returning I on).Compares
      (fun rows rows' : Mat ℝ f.count n => ∀ i : Fin f.count, rows.get (order i) = rows'.get i)
      (f.gradients x) ((f.reordered order).gradients x) := by
  refine .ofFnM_reordered order fun i => ?_
  rw [reordered_gradient]
  exact ((h.gradient (order i)).compareOn.field "constraint gradient" x trivial).returning

/-- Curvatures that are alike at corresponding places, unless there are none. -/
def CurvaturesMatch (c : Comparison ℝ σ) (order : Equiv.Perm (Fin f.count))
    (ops ops' : List (Operator ℝ σ)) : Prop :=
  (ops = [] ∧ ops' = []) ∨ ∃ v v' : Vector (Operator ℝ σ) f.count, ops = v.toList ∧
    ops' = v'.toList ∧ ∀ i : Fin f.count, (v.get (order i)).Alike c (v'.get i)

theorem curvatures_reordered :
    (Comparison.returning I on).Compares
      (CurvaturesMatch (f := f) (Comparison.returning I on) order)
      (f.curvatures x) ((f.reordered order).curvatures x) := by
  have hcount : (f.reordered order).count = f.count := rfl
  unfold curvatures
  rw [hcount, List.range_eq_ofFn]
  unfold reordered
  dsimp only
  cases hhessian : f.hessian with
  | none => exact .pure (.inl ⟨rfl, rfl⟩)
  | some hessian =>
    dsimp only [Option.map_some]
    rw [Run.mapM_ofFn, Run.mapM_ofFn, map_eq_pure_bind, map_eq_pure_bind]
    refine .bind (.ofFnM_reordered order fun i => ?_) fun v v' hv =>
      .pure (.inr ⟨v, v', rfl, rfl, hv⟩)
    rw [placed_fin]
    refine (h.hessian hessian hhessian (order i) x trivial).returning.mono fun op op' hop => ?_
    exact ⟨hop.size, fun w => (hop.apply w).returning⟩

end

/-! ## The barrier -/

omit [RealText] in
theorem sum_reordered {M : Type} [AddCommMonoid M] {m : Nat} (order : Equiv.Perm (Fin m))
    {g g' : Fin m → M} (h : ∀ i, g (order i) = g' i) : ∑ i, g i = ∑ i, g' i := by
  rw [← Equiv.sum_comp order]
  exact Finset.sum_congr rfl fun i _ => h i

/-- The images of the curvatures are found first and then added up. -/
theorem addCurvature_eq_mapM (v : Vec ℝ n) : ∀ (terms : List (ℝ × Operator ℝ σ)) (sum : Vec ℝ n),
    addCurvature v sum terms =
      terms.mapM (fun p => p.2.apply v >>= fun image => pure (Vec.divideBy image p.1)) >>=
        fun images => pure (sum + images.sum) := by
  intro terms
  induction terms with
  | nil => intro sum; simp [addCurvature]
  | cons p terms ih =>
    intro sum
    obtain ⟨s, op⟩ := p
    simp only [addCurvature, ih, List.mapM_cons, bind_assoc, pure_bind, List.sum_cons, add_assoc]

omit [RealText] in
/-- What a weighted sum of the rows of a matrix is in another order. -/
theorem applyTransposed_reordered {m : Nat} (order : Equiv.Perm (Fin m)) {rows rows' : Mat ℝ m n}
    {w w' : Vec ℝ m} (hrows : ∀ i : Fin m, rows.get (order i) = rows'.get i)
    (hw : ∀ i : Fin m, w.get (order i) = w'.get i) :
    Mat.applyTransposed rows w = Mat.applyTransposed rows' w' := by
  rw [Mat.applyTransposed_eq_sum, Mat.applyTransposed_eq_sum]
  refine sum_reordered order fun i => ?_
  show w.get (order i) • rows.get (order i) = w'.get i • rows'.get i
  rw [hrows, hw]

/-- The images of the curvatures, added up in another order. -/
theorem addCurvature_reordered {order : Equiv.Perm (Fin f.count)} {slack slack' : Vec ℝ f.count}
    (hslack : ∀ i : Fin f.count, slack.get (order i) = slack'.get i)
    {ops ops' : List (Operator ℝ σ)}
    (hops : CurvaturesMatch (f := f) (Comparison.returning I on) order ops ops') (v sum : Vec ℝ n) :
    (Comparison.returning I on).Compares Eq (addCurvature v sum (slack.toList.zip ops))
      (addCurvature v sum (slack'.toList.zip ops')) := by
  have hzip (s : Vec ℝ f.count) (ops : Vector (Operator ℝ σ) f.count) :
      s.toList.zip ops.toList = List.ofFn fun i : Fin f.count => (s.get i, ops.get i) := by
    refine List.ext_getElem (by simp) fun i hi hi' => ?_
    rw [List.getElem_ofFn, List.getElem_zip, Vector.getElem_toList, Vector.getElem_toList]
    rfl
  obtain ⟨rfl, rfl⟩ | ⟨ops, ops', rfl, rfl, halike⟩ := hops
  · rw [List.zip_nil_right, List.zip_nil_right]
    exact .pure rfl
  · simp only [addCurvature_eq_mapM, hzip, Run.mapM_ofFn, map_eq_pure_bind, bind_assoc, pure_bind]
    refine .bind (R := fun w w' : Vector (Vec ℝ n) f.count =>
      ∀ i : Fin f.count, w.get (order i) = w'.get i) (.ofFnM_reordered order fun i => ?_)
        fun w w' hw => ?_
    · refine .bind ((halike i).apply v) ?_
      rintro image _ rfl
      rw [hslack]
      exact .pure rfl
    · refine .pure ?_
      rw [Vector.sum_toList_eq, Vector.sum_toList_eq, sum_reordered order hw]

section

variable (h : f.Answers I on) (order : Equiv.Perm (Fin f.count)) (x : Vec ℝ n)
include h

theorem barrierValue_reordered :
    (Comparison.returning I on).Compares Eq (f.barrierValue x)
      ((f.reordered order).barrierValue x) := by
  refine .bind (slack_reordered h order x) fun (s s' : Vec ℝ f.count) hs => .pure ?_
  rw [Vec.foldl_add_eq_sum, Vec.foldl_add_eq_sum]
  exact congrArg Neg.neg (sum_reordered order (map_reordered order hs Scalar.log))

theorem barrierGradient_reordered :
    (Comparison.returning I on).Compares Eq (f.barrierGradient x)
      ((f.reordered order).barrierGradient x) := by
  refine .bind (slack_reordered h order x) fun (s s' : Vec ℝ f.count) hs => ?_
  refine .bind (gradients_reordered h order x) fun (rows rows' : Mat ℝ f.count n) hrows => .pure ?_
  exact applyTransposed_reordered order hrows (map_reordered order hs (1 / ·))

theorem barrierHessian_reordered :
    (Comparison.returning I on).Compares (Operator.Alike (Comparison.returning I on))
      (f.barrierHessian x) ((f.reordered order).barrierHessian x) := by
  refine .bind (slack_reordered h order x) fun (s s' : Vec ℝ f.count) hs => ?_
  refine .bind (gradients_reordered h order x) fun (rows rows' : Mat ℝ f.count n) hrows => ?_
  refine .bind (curvatures_reordered h order x) fun ops ops' hops => .pure ?_
  refine Operator.Alike.function (some n) fun v => ?_
  split
  · rename_i hv
    have hweights (i : Fin f.count) :
        (Vec.divide (Mat.apply rows ⟨v, hv⟩) (Vec.times s s)).get (order i) =
          (Vec.divide (Mat.apply rows' ⟨v, hv⟩) (Vec.times s' s')).get i := by
      have hi : s.get (order i) = s'.get i := hs i
      have hrow : rows.get (order i) = rows'.get i := hrows i
      have hweight (rows : Mat ℝ f.count n) (s : Vec ℝ f.count) (j : Fin f.count) :
          (Vec.divide (Mat.apply rows ⟨v, hv⟩) (Vec.times s s)).get j =
            Vec.dot (rows.get j) ⟨v, hv⟩ / (s.get j * s.get j) :=
        (Vector.getElem_zipWith _).trans
          (congrArg₂ _ (Vector.getElem_map _ _) (Vector.getElem_zipWith _))
      rw [hweight, hweight, hi, hrow]
    have hstart : Mat.applyTransposed rows
        (Vec.divide (Mat.apply rows ⟨v, hv⟩) (Vec.times s s)) =
          Mat.applyTransposed rows'
            (Vec.divide (Mat.apply rows' ⟨v, hv⟩) (Vec.times s' s')) :=
      applyTransposed_reordered order hrows hweights
    unfold applyHessian
    dsimp only
    rw [hstart]
    refine .bind (addCurvature_reordered hs hops _ _) ?_
    rintro image _ rfl
    exact .pure rfl
  · exact .throw

end

/-! ## The diagonal -/

/-- What a constraint contributes to the diagonal. -/
def contribution {α : Type} [Numeral α] (parts : Jacobi.Parts α σ) (x : Vec α n) (i : Nat) :
    Run α σ (Vec α n) := do
  let c ← parts.value i x.toArray
  let g ← (parts.gradient i).valueAt "constraint gradient" x
  let slopes := Vec.divideBy (Vec.times g g) (c * c)
  match parts.hessianDiagonal with
  | none => return slopes
  | some diagonal => do
    let d ← (diagonal i).valueAt "constraint Hessian diagonal" x
    return slopes - Vec.divideBy d c

theorem addConstraints_succ (parts : Jacobi.Parts ℝ σ) (x : Vec ℝ n) (left i : Nat)
    (sum : Vec ℝ n) : Jacobi.addConstraints parts x (left + 1) i sum =
      contribution parts x i >>= fun term =>
        Jacobi.addConstraints parts x left (i + 1) (sum + term) := by
  rw [Jacobi.addConstraints, contribution]
  cases parts.hessianDiagonal <;> simp only [bind_assoc, pure_bind, add_sub_assoc]

/-- The contributions are found first and then added up. -/
theorem addConstraints_eq_mapM (parts : Jacobi.Parts ℝ σ) (x : Vec ℝ n) : ∀ left i sum,
    Jacobi.addConstraints parts x left i sum =
      (List.range' i left).mapM (contribution parts x) >>= fun terms => pure (sum + terms.sum) := by
  intro left
  induction left with
  | zero => intro i sum; simp [Jacobi.addConstraints]
  | succ left ih =>
    intro i sum
    rw [addConstraints_succ, List.range'_succ, List.mapM_cons]
    simp only [ih, bind_assoc, pure_bind, List.sum_cons, add_assoc]

section

variable (h : f.Answers I on) (order : Equiv.Perm (Fin f.count)) (x : Vec ℝ n)
include h

theorem contribution_reordered (i : Fin f.count) :
    (Comparison.returning I on).Compares Eq (contribution (.ofFamily f) x (order i))
      (contribution (.ofFamily (f.reordered order)) x i) := by
  unfold contribution Jacobi.Parts.ofFamily
  dsimp only
  rw [reordered_value, reordered_gradient]
  obtain ⟨v, hv⟩ := h.value (order i) x.toArray
  refine .bind (hv.compares hv).returning ?_
  rintro c _ rfl
  refine .bind ((h.gradient (order i)).compareOn.field _ x trivial).returning ?_
  rintro g _ rfl
  unfold reordered
  dsimp only
  cases hdiagonal : f.hessianDiagonal with
  | none => exact .pure rfl
  | some diagonal =>
    dsimp only [Option.map_some]
    rw [placed_fin]
    have hcompare := (h.diagonal diagonal hdiagonal (order i)).compareOn
    refine .bind (hcompare.field _ x trivial).returning ?_
    rintro d _ rfl
    exact .pure rfl

theorem barrierDiagonal_reordered :
    (Comparison.returning I on).Compares Eq (f.barrierDiagonal x)
      ((f.reordered order).barrierDiagonal x) := by
  have hcount : (f.reordered order).count = f.count := rfl
  simp only [barrierDiagonal, Jacobi.barrierDiagonal, addConstraints_eq_mapM, hcount,
    ← List.range_eq_range', List.range_eq_ofFn, Run.mapM_ofFn, map_eq_pure_bind, bind_assoc,
    pure_bind]
  refine .bind (.ofFnM_reordered order (contribution_reordered h order x)) fun w w' hw => .pure ?_
  rw [Vector.sum_toList_eq, Vector.sum_toList_eq, sum_reordered order hw]

/-! ## The domain and the multipliers -/

omit h in
/-- The constraints are asked one after the other until one is violated. -/
theorem violatedFrom_settles {c : Nat → ℝ} {out : Bool} : ∀ left i,
    (∀ k < left, (f.value (i + k) x.toArray).Settles I on (.ok (c (i + k)))) →
      (out = true ↔ ∃ k < left, 0 ≤ c (i + k)) →
        (f.violatedFrom x left i).Settles I on (.ok out) := by
  intro left
  induction left with
  | zero =>
    intro i _ hout
    obtain rfl : out = false := by simpa using hout
    exact .pure
  | succ left ih =>
    intro i hvalue hout
    refine (hvalue 0 (by omega)).bind_ok ?_
    rw [Nat.add_zero]
    by_cases hc : 0 ≤ c i
    · rw [if_pos hc, hout.2 ⟨0, by omega, hc⟩]
      exact .pure
    · rw [if_neg hc]
      refine ih (i + 1) (fun k hk => ?_) (hout.trans ⟨?_, ?_⟩)
      · rw [Nat.add_right_comm]
        exact hvalue (k + 1) (by omega)
      · rintro ⟨k, hk, hpos⟩
        cases k with
        | zero => exact absurd hpos hc
        | succ k => exact ⟨k, by omega, by rwa [Nat.add_right_comm]⟩
      · rintro ⟨k, hk, hpos⟩
        exact ⟨k + 1, by omega, by rwa [Nat.add_right_comm] at hpos⟩

omit h in
/-- A point is outside if some constraint is not strictly satisfied there. -/
theorem outside_settles {c : Nat → ℝ} {out : Bool}
    (hc : ∀ i : Fin f.count, (f.value i x.toArray).Settles I on (.ok (c i)))
    (hout : out = true ↔ ∃ i : Fin f.count, 0 ≤ c i) : (f.outside x).Settles I on (.ok out) := by
  refine violatedFrom_settles x (c := c) f.count 0 (fun k hk => ?_) (hout.trans ?_)
  · rw [Nat.zero_add]
    exact hc ⟨k, hk⟩
  · simp only [Nat.zero_add, Fin.exists_iff, exists_prop]

theorem outside_reordered :
    (Comparison.apart I on).Compares Eq (f.outside x) ((f.reordered order).outside x) := by
  choose c hc using fun i : Fin f.count => h.value i x.toArray
  -- the values at all indices, whatever they are past the last constraint
  let all (i : Nat) : ℝ := if hi : i < f.count then c ⟨i, hi⟩ else 0
  have hall (i : Fin f.count) : all i = c i := dif_pos i.isLt
  have hfirst : (f.outside x).Settles I on (.ok (decide (∃ i : Fin f.count, 0 ≤ all i))) := by
    refine outside_settles x (c := all) (fun i => ?_) decide_eq_true_iff
    rw [hall]
    exact hc i
  refine hfirst.compares (outside_settles x (c := fun i => all (placed order i))
    (fun (i : Fin f.count) => ?_) (decide_eq_true_iff.trans ?_))
  · show Run.Settles I on _ (.ok (all (placed order i)))
    rw [reordered_value, placed_fin, hall]
    exact hc (order i)
  · show (∃ i : Fin f.count, 0 ≤ all i) ↔ ∃ i : Fin f.count, 0 ≤ all (placed order i)
    simp only [placed_fin]
    exact order.surjective.exists

theorem multipliers_reordered (t : ℝ) :
    (Comparison.returning I on).Compares
      (fun m m' : Array ℝ => m.size = m'.size ∧ m.size = f.count ∧
        ∀ i : Fin f.count, m[(order i : Nat)]? = m'[(i : Nat)]?)
      (f.multipliers t x) ((f.reordered order).multipliers t x) := by
  refine .bind (values_reordered h order x) fun (v v' : Vec ℝ f.count) hv => .pure ?_
  have hentry (w : Vec ℝ f.count) (i : Fin f.count) : w.toArray[(i : Nat)]? = some (w.get i) :=
    Array.getElem?_eq_getElem (by simp)
  let entries (w : Vec ℝ f.count) : Vec ℝ f.count := w.map fun c => -1 / (t * c)
  show (entries v).toArray.size = (entries v').toArray.size ∧ (entries v).toArray.size = f.count ∧
    ∀ i : Fin f.count, (entries v).toArray[(order i : Nat)]? = (entries v').toArray[(i : Nat)]?
  refine ⟨by simp only [Vector.size_toArray], Vector.size_toArray _, fun i => ?_⟩
  rw [hentry, hentry, map_reordered order hv _ i]

end

/-- **The logarithmic barrier does not depend on the order of the constraints.** -/
theorem barrier_near_reordered (h : f.Answers I on) (order : Equiv.Perm (Fin f.count)) :
    Barrier.Near (Operator.Alike.likeness (Comparison.returning I on)) (fun _ => True)
      (.family f) (.family (f.reordered order)) where
  value x _ := barrierValue_reordered h order x
  gradient x _ := barrierGradient_reordered h order x
  hessian x _ := barrierHessian_reordered h order x
  hasHessian := rfl
  outside := fun _ y _ _ => (outside_reordered h order (Vec.ofArray y)).returning.mono
    fun _ _ hout => ⟨hout, fun _ => trivial⟩

end Family

end Descent
