import Descent.Operator
import Descent.Proofs.Run.Comparison
import Mathlib.Data.List.FinRange
import Mathlib.Data.List.Induction
import Mathlib.Data.List.Nodup
import Mathlib.Data.List.OfFn
import Mathlib.Data.List.ProdSigma

/-!
# Matrices from deterministic entry functions

The matrix of an entry function is asked for row by row, and the first entry that is a fault ends
this. An `EntryOperator` is an operator whose entry function is deterministic and keeps a record of
its calls, so that one can say which entries were asked for, and when.

* `EntryOperator.grid`: the matrix of a length, or the fault of the first entry that has none;
  `EntryOperator.pass`: the entries that one attempt to build it asks for;
* `EntryOperator.Reads`: runs that ask for given entries in turn; `EntryOperator.buildTable_reads`:
  building a matrix asks for its entries row by row;
* `EntryOperator.table_run`: what the cached matrix of a length comes to. It is built if there is
  none, and kept if it was built; otherwise nothing is kept.
-/

namespace Descent

/-- The pairs of indices below `n`, row by row. -/
def rowMajor (n : Nat) : List (Nat × Nat) :=
  List.range n ×ˢ List.range n

@[simp] theorem mem_rowMajor {n : Nat} {p : Nat × Nat} : p ∈ rowMajor n ↔ p.1 < n ∧ p.2 < n := by
  rw [rowMajor, List.mem_product, List.mem_range, List.mem_range]

theorem nodup_rowMajor (n : Nat) : (rowMajor n).Nodup :=
  List.nodup_range.product List.nodup_range

/-- Row by row, as a matrix is built. -/
theorem rowMajor_eq (n : Nat) : rowMajor n = (List.ofFn fun i : Fin n =>
    (List.ofFn fun j : Fin n => [((i : Nat), (j : Nat))]).flatten).flatten := by
  have hflatten {β : Type} (f : Nat → List β) :
      (List.ofFn fun i : Fin n => f i).flatten = (List.range n).flatMap f := by
    rw [List.ofFn_eq_map, ← List.map_coe_finRange_eq_range, List.flatMap_def, List.map_map]
    rfl
  rw [hflatten fun i => (List.ofFn fun j : Fin n => [(i, (j : Nat))]).flatten]
  refine congrArg (List.flatMap · (List.range n)) (funext fun i => ?_)
  rw [hflatten fun j => [(i, j)], ← List.map_eq_flatMap]

/-- An operator whose entry function is deterministic: what it returns, or the fault it raises, only
depends on the indices. Each call is put on record, and callers' other functions have a view of
their state that the calls do not change. -/
structure EntryOperator (α σ τ : Type) where
  slot : Nat
  entry : Nat → Nat → Run α σ α
  value : Nat → Nat → Except Fault α
  record : σ → List (Nat × Nat)
  view : σ → τ
  entry_run : ∀ i j (s : Session α σ), ∃ caller,
    (entry i j).run s = Run.ending (value i j) { s with caller } ∧
      record caller = record s.caller ++ [(i, j)] ∧ view caller = view s.caller

/-- What an entry operator keeps, and the calls that are on record for it. -/
structure EntryOperator.Memory (α : Type) where
  tables : List (Table α)
  record : List (Nat × Nat)

namespace EntryOperator

variable {α σ τ β γ : Type} (e : EntryOperator α σ τ)

/-- The operator itself. -/
def operator : Operator α σ :=
  .entries e.slot e.entry

/-- The matrix of size `n`, or the fault of the first entry that has no value. -/
def grid (n : Nat) : Except Fault (Mat α n n) :=
  Vector.ofFnM fun i => Vector.ofFnM fun j => e.value i j

/-- The matrix of size `n` can be built. -/
def Built (n : Nat) : Prop :=
  ∃ rows, e.grid n = .ok rows

instance (n : Nat) : Decidable (e.Built n) :=
  match h : e.grid n with
  | .ok rows => .isTrue ⟨rows, h⟩
  | .error _ => .isFalse fun ⟨_, hrows⟩ => by rw [h] at hrows; cases hrows

/-- The entry at a pair of indices has a value. -/
def Defined (p : Nat × Nat) : Prop :=
  ∃ a, e.value p.1 p.2 = .ok a

instance (p : Nat × Nat) : Decidable (e.Defined p) :=
  match h : e.value p.1 p.2 with
  | .ok a => .isTrue ⟨a, h⟩
  | .error _ => .isFalse fun ⟨_, ha⟩ => by rw [h] at ha; cases ha

/-- What is asked for of `pairs` if one entry is asked for after the other, until one is a fault. -/
def asked : List (Nat × Nat) → List (Nat × Nat)
  | [] => []
  | p :: rest => if e.Defined p then p :: asked rest else [p]

/-- The entries that an attempt to build the matrix of size `n` asks for. -/
def pass (n : Nat) : List (Nat × Nat) :=
  e.asked (rowMajor n)

theorem asked_eq_self {pairs : List (Nat × Nat)} (h : ∀ p ∈ pairs, e.Defined p) :
    e.asked pairs = pairs := by
  induction pairs with
  | nil => rfl
  | cons p rest ih =>
    rw [asked, if_pos (h p List.mem_cons_self), ih fun q hq => h q (List.mem_cons_of_mem p hq)]

theorem asked_append_of_defined {pairs : List (Nat × Nat)} (h : ∀ p ∈ pairs, e.Defined p)
    (rest : List (Nat × Nat)) : e.asked (pairs ++ rest) = pairs ++ e.asked rest := by
  induction pairs with
  | nil => rfl
  | cons p pairs ih =>
    rw [List.cons_append, asked, if_pos (h p List.mem_cons_self),
      ih fun q hq => h q (List.mem_cons_of_mem p hq), List.cons_append]

theorem asked_append_of_not {pairs : List (Nat × Nat)} (h : ¬∀ p ∈ pairs, e.Defined p)
    (rest : List (Nat × Nat)) : e.asked (pairs ++ rest) = e.asked pairs := by
  induction pairs with
  | nil => exact (h fun _ hp => (List.not_mem_nil hp).elim).elim
  | cons p pairs ih =>
    rw [List.cons_append, asked, asked]
    by_cases hp : e.Defined p
    · rw [if_pos hp, if_pos hp, ih fun hrest => h (List.forall_mem_cons.2 ⟨hp, hrest⟩)]
    · rw [if_neg hp, if_neg hp]

/-! ## Runs that ask for entries -/

/-- The run has the outcome `out` from every session and asks for the entries at `pairs` in turn, up
to the first that is a fault. It changes nothing else that other functions see. -/
structure Reads (run : Run α σ β) (out : Except Fault β) (pairs : List (Nat × Nat)) : Prop where
  returns_iff : (∃ b, out = .ok b) ↔ ∀ p ∈ pairs, e.Defined p
  run : ∀ s, ∃ caller, run.run s = Run.ending out { s with caller } ∧
    e.record caller = e.record s.caller ++ e.asked pairs ∧ e.view caller = e.view s.caller

namespace Reads

variable {e} {run : Run α σ β} {out : Except Fault β} {pairs pairs' : List (Nat × Nat)}

theorem pure (b : β) : e.Reads (pure b) (.ok b) [] where
  returns_iff := ⟨fun _ _ hp => (List.not_mem_nil hp).elim, fun _ => ⟨b, rfl⟩⟩
  run s := ⟨s.caller, rfl, (List.append_nil _).symm, rfl⟩

theorem entry (i j : Nat) : e.Reads (e.entry i j) (e.value i j) [(i, j)] where
  returns_iff := by simp [Defined]
  run s := by
    have hasked : e.asked [(i, j)] = [(i, j)] := by
      simp [asked]
    rw [hasked]
    exact e.entry_run i j s

/-- After a run that met a fault nothing else is asked for. -/
theorem bind {next : β → Run α σ γ} {out' : β → Except Fault γ} (h : e.Reads run out pairs)
    (hnext : ∀ b, e.Reads (next b) (out' b) pairs') :
    e.Reads (run >>= next) (out >>= out') (pairs ++ pairs') := by
  cases out with
  | ok b =>
    have hpairs := h.returns_iff.1 ⟨b, rfl⟩
    refine ⟨?_, fun s => ?_⟩
    · rw [List.forall_mem_append]
      exact (hnext b).returns_iff.trans (and_iff_right hpairs).symm
    · obtain ⟨caller, hr, hrecord, hview⟩ := h.run s
      obtain ⟨caller', hr', hrecord', hview'⟩ := (hnext b).run { s with caller }
      refine ⟨caller', ?_, ?_, hview'.trans hview⟩
      · rw [EStateM.run_bind, hr]
        exact hr'
      · rw [hrecord', hrecord, e.asked_append_of_defined hpairs, e.asked_eq_self hpairs,
          List.append_assoc]
  | error fault =>
    have hpairs : ¬∀ p ∈ pairs, e.Defined p := fun hall => by
      obtain ⟨b, hb⟩ := h.returns_iff.2 hall
      cases hb
    refine ⟨⟨?_, fun hall => ?_⟩, fun s => ?_⟩
    · rintro ⟨c, hc⟩
      cases hc
    · exact absurd (List.forall_mem_append.1 hall).1 hpairs
    · obtain ⟨caller, hr, hrecord, hview⟩ := h.run s
      refine ⟨caller, ?_, ?_, hview⟩
      · rw [EStateM.run_bind, hr]
        rfl
      · rw [hrecord, e.asked_append_of_not hpairs]

/-- The entries of a vector are asked for one after the other. -/
theorem ofFnM {n : Nat} {f : Fin n → Run α σ β} {out : Fin n → Except Fault β}
    {pairs : Fin n → List (Nat × Nat)} (h : ∀ i, e.Reads (f i) (out i) (pairs i)) :
    e.Reads (Vector.ofFnM f) (Vector.ofFnM out) (List.ofFn pairs).flatten := by
  induction n with
  | zero =>
    rw [Vector.ofFnM_zero, Vector.ofFnM_zero]
    exact pure _
  | succ n ih =>
    rw [Vector.ofFnM_succ, Vector.ofFnM_succ, List.ofFn_succ', List.concat_eq_append,
      List.flatten_append, List.flatten_singleton]
    refine bind (ih fun i => h i.castSucc) fun v => ?_
    rw [← List.append_nil (pairs (Fin.last n))]
    exact bind (h (Fin.last n)) fun b => pure _

end Reads

/-- **A matrix is asked for row by row.** -/
theorem buildTable_reads (n : Nat) :
    e.Reads (Run.buildTable e.entry n) (e.grid n) (rowMajor n) := by
  rw [rowMajor_eq]
  exact .ofFnM fun i => .ofFnM fun j => .entry i j

/-- A matrix that can be built has all its entries asked for. -/
theorem pass_eq_rowMajor {n : Nat} {rows : Mat α n n} (h : e.grid n = .ok rows) :
    e.pass n = rowMajor n :=
  e.asked_eq_self ((e.buildTable_reads n).returns_iff.1 ⟨rows, h⟩)

/-! ## The matrices that are kept -/

/-- The memory of the operator in a session. -/
def memory (s : Session α σ) : Memory α where
  tables := s.tables.getD e.slot []
  record := e.record s.caller

/-- From one session to the other nothing but the memory of the operator has changed. -/
structure Touches (s s' : Session α σ) : Prop where
  logging : s'.logging = s.logging
  view : e.view s'.caller = e.view s.caller
  size : s'.tables.size = s.tables.size
  others : ∀ k, k ≠ e.slot → s'.tables[k]? = s.tables[k]?

variable {e} in
/-- Sessions that agree in the matrices of other operators, and in those that the operator keeps,
agree in all matrices. -/
theorem tables_ext {s s' : Session α σ} (hsize : s'.tables.size = s.tables.size)
    (hothers : ∀ k, k ≠ e.slot → s'.tables[k]? = s.tables[k]?)
    (hkept : (e.memory s').tables = (e.memory s).tables) : s'.tables = s.tables := by
  refine Array.ext_getElem? fun k => ?_
  by_cases hk : k = e.slot
  · subst hk
    have hgetD : s'.tables.getD e.slot [] = s.tables.getD e.slot [] := hkept
    simp only [Array.getD_eq_getD_getElem?] at hgetD
    by_cases hlt : e.slot < s.tables.size
    · rw [Array.getElem?_eq_getElem hlt, Array.getElem?_eq_getElem (hsize ▸ hlt)] at hgetD ⊢
      exact congrArg some hgetD
    · have hle : s.tables.size ≤ e.slot := Nat.le_of_not_lt hlt
      rw [Array.getElem?_eq_none hle, Array.getElem?_eq_none (hsize.trans_le hle)]
  · exact hothers k hk

/-- What an attempt to build the matrix of size `n` leaves in memory. -/
def build (n : Nat) (m : Memory α) : Memory α where
  tables := match e.grid n with
    | .ok rows => ⟨n, rows⟩ :: m.tables
    | .error _ => m.tables
  record := m.record ++ e.pass n

/-- What the use of the matrix of size `n` leaves in memory. -/
def use (n : Nat) (m : Memory α) : Memory α :=
  match Table.find? n m.tables with
  | some _ => m
  | none => e.build n m

/-- Where no matrix can be built, what is kept stays as it is. -/
theorem tables_use_of_not_built {n : Nat} (h : ¬e.Built n) (m : Memory α) :
    (e.use n m).tables = m.tables := by
  unfold use
  cases Table.find? n m.tables with
  | some rows => rfl
  | none =>
    unfold build
    cases hgrid : e.grid n with
    | ok rows => exact absurd ⟨rows, hgrid⟩ h
    | error fault => rfl

/-- What the use of the matrix of size `n` comes to. -/
def answer (m : Memory α) (n : Nat) : Except Fault (Mat α n n) :=
  match Table.find? n m.tables with
  | some rows => .ok rows
  | none => e.grid n

theorem table_run_eq (s : Session α σ) (n : Nat) :
    (Run.table e.slot e.entry n).run s =
      (match Table.find? n (e.memory s).tables with
        | some rows => pure rows
        | none => do
          let rows ← Run.buildTable e.entry n
          modify fun s => { s with tables := s.tables.modify e.slot (⟨n, rows⟩ :: ·) }
          return rows : Run α σ (Mat α n n)).run s :=
  rfl

/-- **The cached matrix of a length.** If there is one it is used and nothing happens. Otherwise it
is asked for row by row, and kept if it could be built. -/
theorem table_run {s : Session α σ} (hslot : e.slot < s.tables.size) (n : Nat) :
    ∃ s', (Run.table e.slot e.entry n).run s = Run.ending (e.answer (e.memory s) n) s' ∧
      e.Touches s s' ∧ e.memory s' = e.use n (e.memory s) := by
  rw [table_run_eq]
  unfold answer use
  cases Table.find? n (e.memory s).tables with
  | some rows => exact ⟨s, rfl, ⟨rfl, rfl, rfl, fun _ _ => rfl⟩, rfl⟩
  | none =>
    obtain ⟨caller, hr, hrecord, hview⟩ := (e.buildTable_reads n).run s
    simp only [EStateM.run_bind, hr]
    unfold build
    cases e.grid n with
    | ok rows =>
      refine ⟨_, rfl, ⟨rfl, hview, Array.size_modify .., fun k hk => ?_⟩, ?_⟩
      · rw [Array.getElem?_modify, if_neg (Ne.symm hk)]
      · simp only [memory, hrecord, pass, Array.getD_eq_getD_getElem?, Array.getElem?_modify,
          if_pos, Array.getElem?_eq_getElem hslot, Option.map_some, Option.getD_some]
    | error fault =>
      refine ⟨_, rfl, ⟨rfl, hview, rfl, fun _ _ => rfl⟩, ?_⟩
      simp only [memory, hrecord, pass]

/-! ## One use after the other -/

/-- The lengths among `uses` for which a matrix is asked for, if one length is used after the other:
all but those that were used before and could be built. -/
def afresh (uses : List Nat) : List Nat :=
  uses.foldl (fun before n => if n ∈ before ∧ e.Built n then before else before ++ [n]) []

theorem afresh_concat (uses : List Nat) (n : Nat) : e.afresh (uses ++ [n]) =
    if n ∈ e.afresh uses ∧ e.Built n then e.afresh uses else e.afresh uses ++ [n] := by
  rw [afresh, List.foldl_append]
  rfl

@[simp] theorem mem_afresh {uses : List Nat} {n : Nat} : n ∈ e.afresh uses ↔ n ∈ uses := by
  induction uses using List.reverseRecOn with
  | nil => rfl
  | append_singleton uses k ih =>
    rw [afresh_concat, List.mem_append, ← ih]
    split
    · refine ⟨.inl, fun h => h.elim id fun hk => ?_⟩
      rw [List.mem_singleton.1 hk]
      exact ‹k ∈ e.afresh uses ∧ e.Built k›.1
    · exact List.mem_append

/-- **The matrix of a length that can be built is asked for once.** -/
theorem count_afresh {uses : List Nat} {n : Nat} (hmem : n ∈ uses) (hbuilt : e.Built n) :
    (e.afresh uses).count n = 1 := by
  induction uses using List.reverseRecOn with
  | nil => cases hmem
  | append_singleton uses k ih =>
    by_cases hn : n ∈ uses
    · rw [afresh_concat]
      split
      · exact ih hn
      · rename_i hk
        have hne : k ≠ n := by
          rintro rfl
          exact hk ⟨(e.mem_afresh).2 hn, hbuilt⟩
        rw [List.count_append, ih hn, List.count_singleton, if_neg (by simpa using hne)]
    · obtain rfl : n = k := by simpa [hn] using hmem
      have hfresh : n ∉ e.afresh uses := fun h => hn ((e.mem_afresh).1 h)
      rw [afresh_concat, if_neg fun h => hfresh h.1, List.count_append,
        List.count_eq_zero.2 hfresh, List.count_singleton_self]

/-- The operator keeps the matrices of the lengths that were used, as far as they could be built. -/
def Remembers (uses : List Nat) (tables : List (Table α)) : Prop :=
  ∀ n, Table.find? n tables = if n ∈ uses then (e.grid n).toOption else none

variable {e} {uses : List Nat} {m : Memory α}

/-- An operator that was not used keeps nothing. -/
theorem Remembers.nil : e.Remembers [] [] :=
  fun _ => rfl

/-- **The cached matrix of a length is the one of the entry function.** -/
theorem Remembers.answer_eq (h : e.Remembers uses m.tables) (n : Nat) :
    e.answer m n = e.grid n := by
  unfold answer
  rw [h n]
  split_ifs
  · cases e.grid n <;> rfl
  · rfl

/-- What is kept was used before and could be built. -/
theorem Remembers.of_some (h : e.Remembers uses m.tables) {n : Nat} {rows : Mat α n n}
    (hfind : Table.find? n m.tables = some rows) : n ∈ uses ∧ e.grid n = .ok rows := by
  rw [h n] at hfind
  split_ifs at hfind with hmem
  refine ⟨hmem, ?_⟩
  cases hgrid : e.grid n with
  | ok rows' =>
    rw [hgrid] at hfind
    cases hfind
    rfl
  | error fault =>
    rw [hgrid] at hfind
    cases hfind

/-- What is not kept was not used before, or could not be built. -/
theorem Remembers.of_none (h : e.Remembers uses m.tables) {n : Nat}
    (hfind : Table.find? n m.tables = none) : ¬(n ∈ uses ∧ e.Built n) := by
  rintro ⟨hmem, rows, hgrid⟩
  rw [h n, if_pos hmem, hgrid] at hfind
  cases hfind

/-- A use of a length adds it to those that are remembered. -/
theorem Remembers.use (h : e.Remembers uses m.tables) (n : Nat) :
    e.Remembers (uses ++ [n]) (e.use n m).tables := by
  intro k
  have hmem : k ∈ uses ++ [n] ↔ k ∈ uses ∨ k = n := by simp
  simp only [hmem]
  unfold EntryOperator.use
  cases hfind : Table.find? n m.tables with
  | some rows =>
    have hor : (k ∈ uses ∨ k = n) ↔ k ∈ uses :=
      or_iff_left_of_imp fun hk => hk ▸ (h.of_some hfind).1
    simp only [hor]
    exact h k
  | none =>
    unfold build
    cases hgrid : e.grid n with
    | ok rows =>
      simp only [Table.find?]
      split_ifs with hk hor hor
      · subst hk
        rw [hgrid]
        rfl
      · exact absurd (.inr hk.symm) hor
      · exact (h k).trans (if_pos (hor.resolve_right (Ne.symm hk)))
      · exact (h k).trans (if_neg fun hmem => hor (.inl hmem))
    | error fault =>
      dsimp only
      by_cases hk : k = n
      · subst hk
        rw [hfind, hgrid]
        simp [Except.toOption]
      · simp only [hk, or_false]
        exact h k

/-- **A use asks for the matrix row by row**, unless the length was used before and could be
built. -/
theorem Remembers.record_use (h : e.Remembers uses m.tables) (n : Nat) :
    (e.use n m).record = m.record ++ if n ∈ uses ∧ e.Built n then [] else e.pass n := by
  unfold EntryOperator.use
  cases hfind : Table.find? n m.tables with
  | some rows =>
    obtain ⟨hmem, hgrid⟩ := h.of_some hfind
    rw [if_pos ⟨hmem, rows, hgrid⟩, List.append_nil]
  | none => rw [if_neg (h.of_none hfind), build]

end EntryOperator

end Descent
