import Descent.Proofs.Exact.Number
import Descent.Proofs.Exact.Operator
import Descent.Proofs.Operator.Sharing

/-!
# The cache of an entry operator is not observable

An entry operator keeps the matrices it has built. Whatever is asked for one after the other, in
whatever lengths, the answers are those of an operator that builds its matrix anew for each vector.

* `EntryOperator.uncached`: the operator that builds its matrix anew;
* `EntryOperator.operator_alike_uncached`: one use of the one is one use of the other, and the
  entries that were asked for are those of the lengths that `EntryOperator.afresh` says;
* `EntryOperator.operator_alike`: what the operator does depends on what it keeps, not on what was
  asked for before;
* `cache_unobservable`: sequences of requests.
-/

namespace Descent

namespace EntryOperator

variable {α σ τ : Type} [Numeral α] (e : EntryOperator α σ τ)

/-- The operator that builds its matrix anew for each vector. -/
def uncached : Operator α σ :=
  .function (fun v => do
    let rows ← Run.buildTable e.entry v.size
    return .vector (Mat.apply rows (Vec.ofArray v)).toArray) none

theorem uncached_apply {n : Nat} (v : Vec α n) :
    e.uncached.apply v = (do return Mat.apply (← Run.buildTable e.entry n) v) := by
  obtain ⟨entries, rfl⟩ := v
  refine Operator.apply_function_of_fits nofun ?_
  rw [bind_assoc]
  simp only [pure_bind]
  rfl

/-- The two memories after some lengths were used one after the other: the operator has asked for
the matrices that it did not keep, its uncached counterpart for all of them. -/
def Spared (start start' : List (Nat × Nat)) (m m' : Memory α) : Prop :=
  ∃ uses, e.Remembers uses m.tables ∧ m.record = start ++ (e.afresh uses).flatMap e.pass ∧
    m'.record = start' ++ uses.flatMap e.pass

/-- Two memories in which the same matrices are kept, and since a start the same entries were asked
for. -/
def Memory.Keeping (start start' : List (Nat × Nat)) (m m' : Memory α) : Prop :=
  m.tables = m'.tables ∧ ∃ made, m.record = start ++ made ∧ m'.record = start' ++ made

variable {e} {start start' : List (Nat × Nat)} {m m' : Memory α}

omit [Numeral α] in
/-- One more use of the operator and of its uncached counterpart. -/
theorem Spared.use (h : e.Spared start start' m m') (n : Nat) :
    e.answer m n = e.grid n ∧
      e.Spared start start' (e.use n m) ⟨m'.tables, m'.record ++ e.pass n⟩ := by
  obtain ⟨uses, htables, hrecord, hrecord'⟩ := h
  refine ⟨htables.answer_eq n, uses ++ [n], htables.use n, ?_, ?_⟩
  · rw [htables.record_use, hrecord, afresh_concat]
    simp only [mem_afresh]
    split_ifs
    · rw [List.append_nil]
    · rw [List.flatMap_append, List.flatMap_singleton, List.append_assoc]
  · rw [hrecord', List.flatMap_append, List.flatMap_singleton, List.append_assoc]

omit [Numeral α] in
/-- One more use of the operator in two sessions. -/
theorem Memory.Keeping.use (h : m.Keeping start start' m') (n : Nat) :
    e.answer m n = e.answer m' n ∧ (e.use n m).Keeping start start' (e.use n m') := by
  obtain ⟨htables, made, hrecord, hrecord'⟩ := h
  unfold answer EntryOperator.use
  rw [htables]
  refine ⟨rfl, ?_⟩
  cases Table.find? n m'.tables with
  | some rows => exact ⟨htables, made, hrecord, hrecord'⟩
  | none =>
    refine ⟨?_, made ++ e.pass n, ?_, ?_⟩
    · simp only [build, htables]
    · rw [build, hrecord, List.append_assoc]
    · rw [build, hrecord', List.append_assoc]

/-- **The operator does what its uncached counterpart does.** -/
theorem operator_alike_uncached :
    e.operator.Alike (e.comparison (e.Spared start start')) e.uncached := by
  refine ⟨rfl, fun {n} v => ?_⟩
  rw [uncached_apply, operator, Operator.apply]
  refine .bind (compares_iff.2 fun s t hst => ?_) fun rows _ hrows => .pure (by rw [hrows])
  obtain ⟨s', hs, htouches, hmemory⟩ := e.table_run hst.slot_lt n
  obtain ⟨caller, ht, hrecord, hview⟩ := (e.buildTable_reads n).run t
  obtain ⟨hanswer, hspared⟩ := hst.memory.use n
  refine ⟨e.grid n, s', { t with caller }, hanswer ▸ hs, ht,
    hst.of_touches htouches ⟨rfl, hview, rfl, fun _ _ => rfl⟩ ?_⟩
  have hbuilt : e.memory { t with caller } =
      ⟨(e.memory t).tables, (e.memory t).record ++ e.pass n⟩ := by
    simp only [memory, hrecord, pass]
  rw [hmemory, hbuilt]
  exact hspared

/-- **The operator does the same wherever it keeps the same.** -/
theorem operator_alike :
    e.operator.Alike (e.comparison (Memory.Keeping start start')) e.operator := by
  refine ⟨rfl, fun {n} v => ?_⟩
  rw [operator, Operator.apply]
  refine .bind (compares_iff.2 fun s t hst => ?_) fun rows _ hrows => .pure (by rw [hrows])
  obtain ⟨s', hs, htouches, hmemory⟩ := e.table_run hst.slot_lt n
  obtain ⟨t', ht, htouches', hmemory'⟩ := e.table_run (hst.size ▸ hst.slot_lt) n
  obtain ⟨hanswer, hkeeping⟩ := Memory.Keeping.use (e := e) hst.memory n
  refine ⟨_, s', t', hs, hanswer ▸ ht, hst.of_touches htouches htouches' ?_⟩
  rw [hmemory, hmemory']
  exact hkeeping

/-- **What an application comes to.** -/
theorem apply_run {s : Session α σ} (hslot : e.slot < s.tables.size) {n : Nat} (v : Vec α n) :
    ∃ s', (e.operator.apply v).run s =
        Run.ending ((Mat.apply · v) <$> e.answer (e.memory s) n) s' ∧
      e.Touches s s' ∧ e.memory s' = e.use n (e.memory s) := by
  obtain ⟨s', hr, htouches, hmemory⟩ := e.table_run hslot n
  refine ⟨s', ?_, htouches, hmemory⟩
  rw [operator, Operator.apply, EStateM.run_bind, hr]
  cases e.answer (e.memory s) n <;> rfl

variable (e)

/-- Requests have the same answers from two sessions, ask for the same entries and leave the same
matrices. -/
def SameFrom (later : List (Request α σ)) (s t : Session α σ) : Prop :=
  ∃ answers made s' t', (performed e.operator later).run s = .ok answers s' ∧
    (performed e.operator later).run t = .ok answers t' ∧ s'.tables = t'.tables ∧
    e.view s'.caller = e.view t'.caller ∧ e.record s'.caller = e.record s.caller ++ made ∧
    e.record t'.caller = e.record t.caller ++ made

variable {e}

/-- Sessions in which the operator keeps the same matrices are as good as each other. -/
theorem sameFrom_of_touches {s t : Session α σ} (hslot : e.slot < s.tables.size)
    (htouches : e.Touches s t) (htables : (e.memory t).tables = (e.memory s).tables)
    {later : List (Request α σ)} (hlater : ∀ r ∈ later, r.Uniform e) : e.SameFrom later t s := by
  have hst : e.Beside (Memory.Keeping (e.record t.caller) (e.record s.caller)) t s :=
    ⟨htouches.logging, htouches.view, htouches.size, htouches.size ▸ hslot, htouches.others,
      htables, [], (List.append_nil _).symm, (List.append_nil _).symm⟩
  obtain ⟨answers, t', s', ht, hs, hbeside⟩ := performed_beside hlater operator_alike hst
  obtain ⟨hkept, made, hrecord, hrecord'⟩ := hbeside.memory
  exact ⟨answers, made, t', s', ht, hs, tables_ext hbeside.size hbeside.others hkept,
    hbeside.view, hrecord, hrecord'⟩

variable (e)

/-- What follows requests that were answered from the session `s` on. They have made use of the
lengths `uses` and left the session `s'`; without the cache they would have left `t'`. -/
structure Conceals (requests : List (Request α σ)) (answers : List (Except Fault (Answer α)))
    (uses : List Nat) (s s' t' : Session α σ) : Prop where
  /-- The answers are those of an operator that builds its matrix anew for each vector. -/
  cached : (performed e.operator requests).run s = .ok answers s'
  uncached : (performed e.uncached requests).run s = .ok answers t'
  view : e.view s'.caller = e.view t'.caller
  logging : s'.logging = t'.logging
  /-- Without the cache the matrix is asked for at every use. -/
  record_uncached : e.record t'.caller = e.record s.caller ++ uses.flatMap e.pass
  /-- With the cache it is not asked for again once it was built. -/
  record : e.record s'.caller = e.record s.caller ++ (e.afresh uses).flatMap e.pass
  once : ∀ n ∈ uses, e.Built n → (e.afresh uses).count n = 1 ∧ e.pass n = rowMajor n ∧
    ∀ i < n, ∀ j < n, (e.pass n).count (i, j) = 1
  kept : e.Remembers uses (e.memory s').tables
  /-- The next vector has its image under the matrix of its length. If there is none, it is as if
  nobody had asked. -/
  next : ∀ {n : Nat} (v : Vec α n), ∃ s₁,
    (e.operator.apply v).run s' = Run.ending ((Mat.apply · v) <$> e.grid n) s₁ ∧
    e.record s₁.caller = e.record s'.caller ++ (if n ∈ uses ∧ e.Built n then [] else e.pass n) ∧
    (¬e.Built n → s₁.tables = s'.tables ∧
      ∀ later, (∀ r ∈ later, r.Uniform e) → e.SameFrom later s₁ s')

/-- **The cache is not observable.** Whatever requests share an operator that is new, for vectors of
whatever lengths, in whatever order, and whether or not they end in faults: the answers are those of
an operator without a cache. The entries of a matrix that can be built are asked for once, row by
row, when its length is used first. An attempt to build a matrix that ends in a fault changes
nothing that is kept, and what is asked for later is not affected. -/
theorem cache_unobservable {requests : List (Request α σ)} (hrequests : ∀ r ∈ requests, r.Uniform e)
    {s : Session α σ} (hnew : s.tables[e.slot]? = some []) :
    ∃ answers uses s' t', e.Conceals requests answers uses s s' t' := by
  have hslot : e.slot < s.tables.size := (Array.getElem?_eq_some_iff.1 hnew).1
  have hkept : (e.memory s).tables = [] := by
    simp only [memory, Array.getD_eq_getD_getElem?, hnew, Option.getD_some]
  have hss : e.Beside (e.Spared (e.record s.caller) (e.record s.caller)) s s :=
    ⟨rfl, rfl, rfl, hslot, fun _ _ => rfl, [], hkept ▸ .nil, (List.append_nil _).symm,
      (List.append_nil _).symm⟩
  obtain ⟨answers, s', t', hs, ht, hbeside⟩ :=
    performed_beside hrequests operator_alike_uncached hss
  obtain ⟨uses, htables, hrecord, hrecord'⟩ := hbeside.memory
  refine ⟨answers, uses, s', t', hs, ht, hbeside.view, hbeside.logging, hrecord', hrecord,
    fun n hn hbuilt => ⟨e.count_afresh hn hbuilt, ?_⟩, htables, fun {n} v => ?_⟩
  · obtain ⟨rows, hrows⟩ := hbuilt
    rw [e.pass_eq_rowMajor hrows]
    refine ⟨rfl, fun i hi j hj => ?_⟩
    exact List.count_eq_one_of_mem (nodup_rowMajor n) (mem_rowMajor.2 ⟨hi, hj⟩)
  · obtain ⟨s₁, hr, htouches, hmemory⟩ := e.apply_run hbeside.slot_lt v
    rw [htables.answer_eq] at hr
    refine ⟨s₁, hr, ?_, fun hfault => ?_⟩
    · have h := congrArg Memory.record hmemory
      rwa [htables.record_use] at h
    · have hfind : (e.memory s₁).tables = (e.memory s').tables :=
        hmemory ▸ e.tables_use_of_not_built hfault _
      exact ⟨tables_ext htouches.size htouches.others hfind,
        fun later hlater => sameFrom_of_touches hbeside.slot_lt htouches hfind hlater⟩

end EntryOperator

/-- A matrix of reciprocals, with a pole among the entries of the third row. -/
noncomputable def reciprocals : EntryOperator ℝ (List (Nat × Nat)) Unit where
  slot := 0
  entry i j := do
    modify fun s => { s with caller := s.caller ++ [(i, j)] }
    Run.ofExcept (if i + j = 4 then .error .divisionByZero else .ok (1 / (4 - i - j)))
  value i j := if i + j = 4 then .error .divisionByZero else .ok (1 / (4 - i - j))
  record := id
  view _ := ()
  entry_run i j s := by
    refine ⟨s.caller ++ [(i, j)], ?_, rfl, rfl⟩
    split_ifs <;> rfl

/-- Images of vectors of three lengths, one of which has no matrix, with a solve in between. Another
entry operator keeps its matrices next to those of `reciprocals`. -/
theorem cache_unobservable_reciprocals :
    letI := RealText.mute
    let requests : List (Request ℝ (List (Nat × Nat))) := [
      .image .shared #[1, 2],
      .image .shared #[1, 2, 3],
      .image (.sum (.scaled .shared 2) (.other (.entries 1 fun i j => return i + j))) #[3, 4],
      .solve (fun op => .operator op) (.vector #[1, 1]) .nothing {} .nothing none,
      .image (.sum .shared .shared) #[5]]
    ∃ answers uses s' t', reciprocals.Conceals requests answers uses
      ⟨#[[], []], Logging.Registry.initial, []⟩ s' t' := by
  let _ := RealText.mute
  intro requests
  refine reciprocals.cache_unobservable (fun r hr => ?_) rfl
  simp only [requests, List.mem_cons, List.not_mem_nil, or_false] at hr
  rcases hr with rfl | rfl | rfl | rfl | rfl
  · trivial
  · trivial
  · exact ⟨trivial, fun R _ _ _ => EntryOperator.entries_alike (by decide) fun i j => .pure rfl⟩
  · exact ⟨fun _ _ _ halike => .pure halike, nofun⟩
  · exact ⟨trivial, trivial⟩

end Descent
