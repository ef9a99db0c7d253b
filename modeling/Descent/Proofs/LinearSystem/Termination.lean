import Mathlib.LinearAlgebra.FiniteDimensional.Lemmas
import Descent.Proofs.Exact.Number
import Descent.Proofs.LinearSystem.Krylov

/-!
# Termination of conjugate gradients

With a positive definite system and preconditioner no solve gets stuck: it ends because the
tolerance is met or because the budget is used up. As the residual is orthogonal to the directions
used, it vanishes once these span the way from the guess to the solution.

* `LinearSystem.Course.Traced.residual_eq_zero_of_curvature`: no direction is refused before the
  system is solved;
* `LinearSystem.Course.Traced.met_of_exit`: whatever ends a solve before its budget, the tolerance
  is met;
* `LinearSystem.Course.Traced.meets_of_mem`: a solve ends within `d` iterations if the directions of
  the first `d` reach the solution;
* `LinearSystem.Course.Traced.krylovSpace_le`, `LinearSystem.Course.Traced.space_eq_top`: they do if
  the solution lies in the Krylov space of dimension `d`, or if there are `d` unknowns;
* `LinearSystem.solveLinear_terminates`: so solves for callers end with the accuracy asked for.
-/

open scoped InnerProductSpace

namespace Descent.LinearSystem

variable {n : Nat} {T M : Vec ℝ n →ₗ[ℝ] Vec ℝ n} {b guess : Vec ℝ n} {tolerance : ℝ} {budget : Nat}

/-- Symmetric with positive curvature along every direction. -/
structure PositiveDefinite (T : Vec ℝ n →ₗ[ℝ] Vec ℝ n) : Prop where
  symmetric : T.IsSymmetric
  pos : ∀ v, v ≠ 0 → 0 < ⟪v, T v⟫_ℝ

namespace PositiveDefinite

variable (h : PositiveDefinite T)

include h

theorem eq_zero_of_nonpos {v : Vec ℝ n} (hv : ⟪v, T v⟫_ℝ ≤ 0) : v = 0 := by
  by_contra hne
  exact hv.not_gt (h.pos v hne)

/-- Every system with the map has a solution. -/
theorem exists_solution (b : Vec ℝ n) : ∃ x, T x = b := by
  have hinjective : Function.Injective T := by
    intro u v huv
    refine sub_eq_zero.1 (h.eq_zero_of_nonpos ?_)
    rw [map_sub, huv, sub_self, inner_zero_right]
  exact LinearMap.injective_iff_surjective.1 hinjective b

end PositiveDefinite

/-- What the preconditioned residual and its images under the preconditioned map span, the first `d`
of them. -/
noncomputable def krylovSpace (T M : Vec ℝ n →ₗ[ℝ] Vec ℝ n) (r : Vec ℝ n) (d : Nat) :
    Submodule ℝ (Vec ℝ n) :=
  Submodule.span ℝ ((fun i => ((M * T) ^ i) (M r)) '' Set.Iio d)

/-- Where the maps cancel up to a factor, one image leads from any guess to the solution. -/
theorem sub_mem_krylovSpace_one {a : ℝ} (ha : a ≠ 0) (hMT : M * T = a • 1) {solution : Vec ℝ n}
    (hsolution : T solution = b) : solution - guess ∈ krylovSpace T M (b - T guess) 1 := by
  have himage : M (b - T guess) = a • (solution - guess) := by
    rw [← hsolution, ← map_sub, ← Module.End.mul_apply, hMT, LinearMap.smul_apply,
      Module.End.one_apply]
  have hmem : M (b - T guess) ∈ krylovSpace T M (b - T guess) 1 :=
    Submodule.subset_span ⟨0, Nat.zero_lt_one, rfl⟩
  rw [himage] at hmem
  exact (Submodule.smul_mem_iff _ ha).1 hmem

/-- A solve that met the tolerance within `d` iterations. -/
structure Report.Meets (T : Vec ℝ n →ₗ[ℝ] Vec ℝ n) (b : Vec ℝ n) (tolerance : ℝ) (d : Nat)
    (report : Report ℝ n) : Prop where
  iterations_le : report.iterations ≤ d
  norm_lt : ‖T report.point - b‖ < tolerance

/-- A point is the solution if that lies in the space in which the point was reached. -/
theorem Reached.residual_eq_zero (hT : PositiveDefinite T) {P : Submodule ℝ (Vec ℝ n)}
    {x r solution : Vec ℝ n} (h : Reached T b guess P x r) (hsolution : T solution = b)
    (hmem : solution - guess ∈ P) : r = 0 := by
  have herror : r = T (solution - x) := by rw [h.residual_eq, map_sub, hsolution]
  have hsplit : solution - x = (solution - guess) - (x - guess) := by abel
  have horthogonal : ⟪r, solution - x⟫_ℝ = 0 := by
    rw [hsplit]
    exact h.orthogonal _ (P.sub_mem hmem h.point_mem)
  rw [herror, hT.symmetric] at horthogonal
  rw [herror, hT.eq_zero_of_nonpos horthogonal.le, map_zero]

/-- The first direction is the preconditioned residual of the guess. -/
theorem Head.direction_eq {s : State ℝ n} (h : Head T M b guess [] s) :
    s.direction = M (b - T guess) := by
  have hpoint : s.point = guess := by
    have hmem := h.point_mem
    rwa [directions_nil, Submodule.mem_bot, sub_eq_zero] at hmem
  have hdirection := h.direction_sub_mem
  rw [directions_nil, Submodule.mem_bot, sub_eq_zero, h.residual_eq, hpoint] at hdirection
  exact hdirection

/-- There are at most as many conjugate directions as dimensions. -/
theorem Heads.length_le_finrank {heads : List (State ℝ n)} (h : Heads T M b guess heads) :
    heads.length ≤ Module.finrank ℝ (directions heads) := by
  induction h with
  | nil => exact Nat.zero_le _
  | @snoc done s _ hs hcurvature ih =>
    have hlt : directions done < directions (done ++ [s]) := by
      refine lt_of_le_of_ne Head.le_snoc fun heq => ?_
      have hmem : s.direction ∈ directions done := heq ▸ Head.direction_mem_snoc
      exact hcurvature.ne' (hs.conjugate _ hmem)
    have hrank := Submodule.finrank_lt_finrank_of_lt hlt
    rw [List.length_append, List.length_singleton]
    omega

namespace Course.Traced

variable {c : Course ℝ n} {k : Nat} (h : Course.Traced T M b guess tolerance budget c)

include h

/-- The Krylov vectors lie in the spaces of the directions. -/
theorem pow_mem_space {i : Nat} (hi : i < c.heads.length) :
    ((M * T) ^ i) (M (b - T guess)) ∈ c.space (i + 1) := by
  induction i with
  | zero =>
    have hhead := (h.headAt hi).1
    rw [List.take_zero] at hhead
    rw [pow_zero, Module.End.one_apply, ← hhead.direction_eq, ← directionAt_of_lt hi]
    exact c.directionAt_mem (Nat.lt_succ_self 0)
  | succ i ih =>
    have hmem := ih (Nat.lt_of_succ_lt hi)
    rw [space_eq_directions hi.le] at hmem
    rw [pow_succ', Module.End.mul_apply, Module.End.mul_apply, space_eq_directions hi,
      List.take_succ_eq_append_getElem hi]
    exact (h.headAt hi).1.image_mem _ hmem

/-- A direction is only refused where there is nothing left to solve: the slope along it is the
preconditioned norm of the residual, so it is not zero before the residual is. -/
theorem residual_eq_zero_of_curvature (hT : PositiveDefinite T) (hM : PositiveDefinite M)
    (hexit : c.exit = .curvature) : c.residual = 0 := by
  obtain ⟨s, hs, hresidual, hflat⟩ := h.flat hexit
  have hslope := hs.inner_residual_direction
  rw [hT.eq_zero_of_nonpos hflat, inner_zero_right, hs.product_eq, hresidual] at hslope
  exact hM.eq_zero_of_nonpos hslope.symm.le

/-- A solve that did not run out of its budget has met the tolerance. -/
theorem met_of_exit (hT : PositiveDefinite T) (hM : PositiveDefinite M) (htolerance : 0 < tolerance)
    (hexit : c.exit ≠ .budget) : ‖c.residual‖ < tolerance := by
  by_contra hopen
  have hne : c.residual ≠ 0 := by
    intro h0
    rw [h0, norm_zero] at hopen
    exact hopen htolerance
  cases hend : c.exit with
  | budget => exact hexit hend
  | tolerance => exact hopen (h.met hend)
  | atStart =>
    rcases h.atStart hend with hnorm | rfl
    · exact hopen hnorm
    · exact hne (Vector.ext fun i hi => absurd hi (Nat.not_lt_zero i))
  | preconditioner => exact hne (hM.eq_zero_of_nonpos (h.stuck hend))
  | curvature => exact hne (h.residual_eq_zero_of_curvature hT hM hend)

/-- **A solve ends as soon as the solution lies in the space of its directions.** -/
theorem meets_of_mem (hT : PositiveDefinite T) (hM : PositiveDefinite M)
    (htolerance : 0 < tolerance) {d : Nat} (hd : d ≤ budget) {solution : Vec ℝ n}
    (hsolution : T solution = b)
    (hmem : ∀ k ≤ c.heads.length, d ≤ k → solution - guess ∈ c.space k) :
    (c.report 0).Meets T b tolerance d := by
  have hzero : ∀ k ≤ c.heads.length, d ≤ k → c.residualAt k = 0 := fun k hk hdk =>
    (h.reachedAt hk).residual_eq_zero hT hsolution (hmem k hk hdk)
  have hlength : c.heads.length ≤ d := by
    by_contra hlt
    have hd' : d < c.heads.length := not_le.1 hlt
    have hunmet := h.unmet c.heads[d] (List.getElem_mem hd')
    rw [← residualAt_of_lt hd', hzero d hd'.le le_rfl, norm_zero] at hunmet
    exact hunmet.not_gt htolerance
  have hnorm : ‖c.residual‖ < tolerance := by
    by_cases hexit : c.exit = .budget
    · have hfull : d ≤ c.heads.length := by
        rw [h.exhausted hexit]
        exact hd
      have hlast := hzero c.heads.length le_rfl hfull
      have hresidual : c.residualAt c.heads.length = c.residual := by simp [residualAt]
      rw [← hresidual, hlast, norm_zero]
      exact htolerance
    · exact h.met_of_exit hT hM htolerance hexit
  constructor
  · rw [report, Nat.zero_add]
    exact hlength
  · rw [norm_sub_rev]
    rwa [h.last.residual_eq] at hnorm

/-- The Krylov space of some dimension lies in the space of as many directions. -/
theorem krylovSpace_le {d : Nat} (hd : d ≤ k) (hk : k ≤ c.heads.length) :
    krylovSpace T M (b - T guess) d ≤ c.space k := by
  refine Submodule.span_le.2 ?_
  rintro _ ⟨i, hi, rfl⟩
  have hik : i < k := lt_of_lt_of_le hi hd
  exact c.space_mono hik (h.pow_mem_space (lt_of_lt_of_le hik hk))

/-- There are at most as many iterations as unknowns, and that many directions span everything. -/
theorem space_eq_top (hk : n ≤ k) (hlength : k ≤ c.heads.length) : c.space k = ⊤ := by
  have hrank := h.heads.length_le_finrank
  have hspace : directions c.heads ≤ c.space k := by
    have htop := Submodule.finrank_le (directions c.heads)
    rw [Vec.finrank_eq] at htop
    have hfull : k = c.heads.length := le_antisymm hlength ((hrank.trans htop).trans hk)
    rw [hfull, space_eq_directions le_rfl, List.take_length]
  refine Submodule.eq_top_of_finrank_eq (le_antisymm (Submodule.finrank_le _) ?_)
  rw [Vec.finrank_eq]
  exact (hk.trans hlength).trans (hrank.trans (Submodule.finrank_mono hspace))

/-- Solutions in a Krylov space are found in as many iterations as it has generators. -/
theorem meets_of_krylov (hT : PositiveDefinite T) (hM : PositiveDefinite M)
    (htolerance : 0 < tolerance) {d : Nat} (hd : d ≤ budget) {solution : Vec ℝ n}
    (hsolution : T solution = b) (hmem : solution - guess ∈ krylovSpace T M (b - T guess) d) :
    (c.report 0).Meets T b tolerance d :=
  h.meets_of_mem hT hM htolerance hd hsolution fun _ hk hdk => h.krylovSpace_le hdk hk hmem

/-- Every solution is found in as many iterations as there are unknowns. -/
theorem meets_of_unknowns (hT : PositiveDefinite T) (hM : PositiveDefinite M)
    (htolerance : 0 < tolerance) {d : Nat} (hn : n ≤ d) (hd : d ≤ budget) :
    (c.report 0).Meets T b tolerance d := by
  obtain ⟨solution, hsolution⟩ := hT.exists_solution b
  refine h.meets_of_mem hT hM htolerance hd hsolution fun k hk hdk => ?_
  rw [h.space_eq_top (hn.trans hdk) hk]
  exact Submodule.mem_top

/-- A single iteration moves along the preconditioned residual of the guess. -/
theorem point_of_length_le_one (hlength : c.heads.length ≤ 1) :
    ∃ a : ℝ, c.point = guess + a • M (b - T guess) := by
  have hmem := h.last.point_mem
  rcases hlist : c.heads with _ | ⟨s, _ | ⟨t, after⟩⟩
  · rw [hlist, directions_nil, Submodule.mem_bot, sub_eq_zero] at hmem
    exact ⟨0, by rw [hmem, zero_smul, add_zero]⟩
  · have hs : Head T M b guess [] s := (h.heads.split hlist).1
    rw [hlist, ← List.nil_append [s]] at hmem
    obtain ⟨v, hv, a, hpoint⟩ := exists_of_mem_snoc hmem
    rw [directions_nil, Submodule.mem_bot] at hv
    rw [hv, zero_add, hs.direction_eq, sub_eq_iff_eq_add'] at hpoint
    exact ⟨a, hpoint⟩
  · simp [hlist] at hlength

end Course.Traced

/-! ## Solves for callers -/

section

variable {σ : Type} [RealText] {I : Invariant ℝ σ} {A : OperatorLike ℝ σ} {b guess : Datum ℝ}
  {options : Options ℝ} {maxIterations : Datum ℝ} {preconditioner : Option (OperatorLike ℝ σ)}
  {task : Task ℝ σ}

/-- The budget that is missing is twice the number of unknowns. -/
theorem Task.budget_of_missing
    (hread : Task.read A b guess options maxIterations preconditioner = .ok task)
    (hcall : maxIterations.given? = none) (hoptions : options.maxIterations.given? = none) :
    task.budget = 2 * task.unknowns := by
  obtain ⟨_, _, hread⟩ := Fault.bind_eq_ok hread
  obtain ⟨_, _, hread⟩ := Fault.bind_eq_ok hread
  obtain ⟨_, _, hread⟩ := Fault.bind_eq_ok hread
  obtain ⟨_, _, hread⟩ := Fault.bind_eq_ok hread
  obtain ⟨_, _, hread⟩ := Fault.bind_eq_ok hread
  obtain ⟨_, hinsist, hread⟩ := Fault.bind_eq_ok hread
  cases hread
  rw [hcall, hoptions] at hinsist
  obtain ⟨_, hnumber, hinsist⟩ := Fault.bind_eq_ok hinsist
  cases hnumber
  obtain ⟨_, _, hinsist⟩ := Fault.bind_eq_ok hinsist
  cases hinsist
  simp only [Number.roundsBelow]
  omega

/-- **Solves end with the accuracy they were asked for.** For a positive definite system and a
preconditioner that is absent or positive definite, a solve whose budget allows `d` iterations meets
the tolerance within `d` of them if the solution can be reached from the guess in the Krylov space
of dimension `d`. A budget that is missing always suffices, and a single iteration does if the
preconditioner is the inverse, if system and preconditioner are multiples of the identity, or if
there is one unknown. -/
theorem solveLinear_terminates
    (hread : Task.read A b guess options maxIterations preconditioner = .ok task)
    {T M : Vec ℝ task.unknowns →ₗ[ℝ] Vec ℝ task.unknowns} (hT : PositiveDefinite T)
    (hM : PositiveDefinite M) (hA : ActsAs I A T) (hP : PreconditionsAs I preconditioner M)
    (htolerance : 0 < task.tolerance) :
    ∃ report : Report ℝ task.unknowns,
      (run task.system task.rhs task.guess task.tolerance task.budget).Yields I report ∧
      (solveLinear A b guess options maxIterations preconditioner).Yields I report.point.toArray ∧
      (∀ d ≤ task.budget, ∀ solution, T solution = task.rhs →
        solution - task.guess ∈ krylovSpace T M (task.rhs - T task.guess) d →
        report.Meets T task.rhs task.tolerance d) ∧
      (maxIterations.given? = none → options.maxIterations.given? = none →
        report.Meets T task.rhs task.tolerance task.unknowns) ∧
      (1 ≤ task.budget →
        M * T = 1 ∨ (∃ a > (0 : ℝ), T = a • 1) ∧ (∃ a > (0 : ℝ), M = a • 1) ∨ task.unknowns = 1 →
        report.Meets T task.rhs task.tolerance 1) := by
  obtain ⟨c, hc, h⟩ := courseFrom_yields hT.symmetric hM.symmetric (Task.acts_of_read hread hA hP)
    task.rhs task.guess task.tolerance task.budget
  refine ⟨c.report 0, run_yields hc, solveLinear_yields hread hc, ?_, ?_, ?_⟩
  · intro d hd solution hsolution hmem
    exact h.meets_of_krylov hT hM htolerance hd hsolution hmem
  · intro hcall hoptions
    refine h.meets_of_unknowns hT hM htolerance le_rfl ?_
    rw [Task.budget_of_missing hread hcall hoptions]
    omega
  · rintro hbudget (hinverse | ⟨⟨a, ha, hTa⟩, ⟨a', ha', hMa⟩⟩ | hone)
    · obtain ⟨solution, hsolution⟩ := hT.exists_solution task.rhs
      refine h.meets_of_krylov hT hM htolerance hbudget hsolution ?_
      exact sub_mem_krylovSpace_one one_ne_zero (hinverse.trans (one_smul ℝ _).symm) hsolution
    · obtain ⟨solution, hsolution⟩ := hT.exists_solution task.rhs
      refine h.meets_of_krylov hT hM htolerance hbudget hsolution ?_
      have hMT : M * T = (a' * a) • 1 := by rw [hTa, hMa, smul_mul_smul_comm, one_mul]
      exact sub_mem_krylovSpace_one (mul_pos ha' ha).ne' hMT hsolution
    · exact h.meets_of_unknowns hT hM htolerance hone.le hbudget

end

/-! ## Diagonal systems -/

theorem positiveDefinite_one : PositiveDefinite (1 : Vec ℝ n →ₗ[ℝ] Vec ℝ n) where
  symmetric _ _ := rfl
  pos _ hv := real_inner_self_pos.2 hv

/-- Positive factors make a positive definite map. -/
theorem positiveDefinite_diagonalMap {factors : Vec ℝ n} (h : ∀ a ∈ factors, 0 < a) :
    PositiveDefinite (diagonalMap factors) where
  symmetric := diagonalMap_isSymmetric factors
  pos v hv := by
    obtain ⟨i, hi⟩ : ∃ i : Fin n, v[i] ≠ 0 := by
      by_contra hzero
      push Not at hzero
      exact hv (Vector.ext fun i hi => by simpa using hzero ⟨i, hi⟩)
    have hpos : ∀ j : Fin n, 0 < factors[j] := fun j => h _ (Vector.getElem_mem j.isLt)
    rw [inner_diagonalMap, Vec.dot_eq_sum]
    simp only [Vec.getElem_times]
    exact Finset.sum_pos' (fun j _ => mul_nonneg (hpos j).le (mul_self_nonneg _))
      ⟨i, Finset.mem_univ _, mul_pos (hpos i) (mul_self_pos.2 hi)⟩

theorem actsAs_identity {σ : Type} [RealText] (I : Invariant ℝ σ) :
    ActsAs I (.operator .identity) (1 : Vec ℝ n →ₗ[ℝ] Vec ℝ n) := by
  intro op hop v
  cases hop
  exact .pure

/-- The tolerance that callers do not set is one that they could set. -/
theorem insist_tolerance [RealText] (name : String) :
    (Options.tolerance ({} : Options ℝ)).insist name .nonNegative = .ok (.real 1e-10) := by
  have hadmits : (Number.real (1e-10 : ℝ)).admits .nonNegative = true := by
    norm_num [Number.admits, Number.isBelow, Scalar.ofNat]
  exact Datum.insist_of_admits hadmits name

/-- Two iterations solve a system of two unknowns with the default options. -/
theorem solveLinear_terminates_two :
    letI := RealText.mute
    ∃ report : Report ℝ 2,
      (solveLinear (σ := Unit) (.operator (.diagonal #[2, 4])) (.vector #[2, 8]) .nothing {}
        .nothing (some (.operator (.diagonal #[1 / 2, 1])))).Yields Invariant.none
          report.point.toArray ∧
      report.Meets (diagonalMap #v[2, 4]) #v[2, 8] 1e-10 2 := by
  let _ := RealText.mute
  have hread : Task.read (σ := Unit) (.operator (.diagonal #[(2 : ℝ), 4])) (.vector #[2, 8])
      .nothing {} .nothing (some (.operator (.diagonal #[1 / 2, 1]))) =
      .ok ⟨2, ⟨(Operator.diagonal #[2, 4]).apply, some (Operator.diagonal #[1 / 2, 1]).apply⟩,
        #v[2, 8], 0, 1e-10, 4⟩ := by
    rw [Task.read, insist_tolerance]
    rfl
  have hT : PositiveDefinite (diagonalMap #v[2, 4]) := positiveDefinite_diagonalMap (by simp)
  have hM : PositiveDefinite (diagonalMap #v[1 / 2, 1]) := positiveDefinite_diagonalMap (by simp)
  obtain ⟨report, -, hsolve, -, hmeets, -⟩ := solveLinear_terminates hread hT hM
    (actsAs_diagonal Invariant.none #[2, 4]) (actsAs_diagonal Invariant.none #[1 / 2, 1])
    (by norm_num)
  exact ⟨report, hsolve, hmeets rfl rfl⟩

/-- One iteration does not solve the system of the identity if the preconditioner is not a multiple
of it. -/
theorem solveLinear_identity_unmet :
    letI := RealText.mute
    ActsAs (σ := Unit) Invariant.none (.operator .identity) (1 : Vec ℝ 2 →ₗ[ℝ] Vec ℝ 2) ∧
    PreconditionsAs (σ := Unit) Invariant.none (some (.operator (.diagonal #[1, 2])))
      (diagonalMap #v[1, 2]) ∧
    PositiveDefinite (diagonalMap #v[1, 2]) ∧
    ∃ x : Vec ℝ 2,
      (solveLinear (σ := Unit) (.operator .identity) (.vector #[10, 10]) .nothing {}
        (.number (.whole 1)) (some (.operator (.diagonal #[1, 2])))).Yields Invariant.none
          x.toArray ∧
      ¬ ‖x - #v[10, 10]‖ < 1e-10 := by
  let _ := RealText.mute
  have hread : Task.read (σ := Unit) (.operator .identity) (.vector #[(10 : ℝ), 10]) .nothing
      {} (.number (.whole 1)) (some (.operator (.diagonal #[1, 2]))) =
      .ok ⟨2, ⟨Operator.identity.apply, some (Operator.diagonal #[1, 2]).apply⟩,
        #v[10, 10], 0, 1e-10, 1⟩ := by
    rw [Task.read, insist_tolerance]
    rfl
  have hA := actsAs_identity (n := 2) (σ := Unit) Invariant.none
  have hP : PreconditionsAs (σ := Unit) Invariant.none (some (.operator (.diagonal #[1, 2])))
      (diagonalMap #v[1, 2]) := actsAs_diagonal Invariant.none #[1, 2]
  have hM : PositiveDefinite (diagonalMap #v[1, 2]) := positiveDefinite_diagonalMap (by simp)
  obtain ⟨c, hc, h⟩ := courseFrom_yields positiveDefinite_one.symmetric hM.symmetric
    (Task.acts_of_read hread hA hP) #v[10, 10] 0 1e-10 1
  refine ⟨hA, hP, hM, c.point, solveLinear_yields hread hc, fun hnorm => ?_⟩
  obtain ⟨a, ha⟩ := h.point_of_length_le_one h.within
  have hsq : ‖c.point - #v[10, 10]‖ ^ 2 = (10 * a - 10) ^ 2 + (20 * a - 10) ^ 2 := by
    rw [← real_inner_self_eq_norm_sq, ← Vec.dot_eq_inner, Vec.dot_eq_sum, ha]
    simp [diagonalMap, Vec.times, Fin.sum_univ_two]
    ring
  nlinarith [norm_nonneg (c.point - #v[10, 10]), sq_nonneg (5 * a - 3)]

end Descent.LinearSystem
