import Mathlib.Algebra.BigOperators.Fin

/-!
# Options, lists and vectors

General facts that the theory of the solvers uses and that are not about them.

* `Option.rel_self`, `Option.rel_mono`, `Option.rel_map`: values in relation, where there are any;
* `List.getElem?_filterMap_of_length`: a function that leaves nothing out, item by item;
* `List.range_eq_ofFn`: the first natural numbers;
* `Vector.sum_toList_eq`: the sum of the entries.
-/

namespace Descent

/-- An optional value is in relation with itself if it is wherever there is one. -/
theorem Option.rel_self {β : Type} {R : β → β → Prop} {o : Option β} (h : ∀ b ∈ o, R b b) :
    Option.Rel R o o := by
  cases o with
  | none => exact .none
  | some b => exact .some (h b rfl)

theorem Option.rel_mono {β γ : Type} {R R' : β → γ → Prop} {o : Option β} {o' : Option γ}
    (h : Option.Rel R o o') (hR : ∀ b d, R b d → R' b d) : Option.Rel R' o o' := by
  cases h with
  | none => exact .none
  | some hbd => exact .some (hR _ _ hbd)

/-- What every item compares with. -/
theorem Option.rel_map {β γ : Type} {R : β → γ → Prop} {f : β → γ} (h : ∀ b, R b (f b))
    (o : Option β) : Option.Rel R o (o.map f) := by
  cases o with
  | none => exact .none
  | some b => exact .some (h b)

/-- What a function that leaves nothing out makes of a list, item by item. -/
theorem List.getElem?_filterMap_of_length {β γ : Type} {part : β → Option γ} {items : List β}
    (h : (items.filterMap part).length = items.length) (i : Nat) :
    (items.filterMap part)[i]? = items[i]?.bind part := by
  rw [List.filterMap_length_eq_length] at h
  induction items generalizing i with
  | nil => rfl
  | cons b items ih =>
    obtain ⟨c, hc⟩ := Option.isSome_iff_exists.1 (h b List.mem_cons_self)
    rw [List.filterMap_cons_some hc]
    cases i with
    | zero => exact hc.symm
    | succ i => exact ih (fun d hd => h d (List.mem_cons_of_mem b hd)) i

theorem List.range_eq_ofFn (n : Nat) : List.range n = List.ofFn fun i : Fin n => (i : Nat) := by
  rw [List.ofFn_eq_map, List.map_coe_finRange_eq_range]

/-- The sum of the entries of a vector. -/
theorem Vector.sum_toList_eq {M : Type} [AddCommMonoid M] {n : Nat} (v : Vector M n) :
    v.toList.sum = ∑ i : Fin n, v.get i := by
  have hlist : v.toList = List.ofFn v.get := by
    refine List.ext_getElem (by simp) fun i hi hi' => ?_
    rw [List.getElem_ofFn, Vector.getElem_toList]
    rfl
  rw [hlist, List.sum_ofFn]

end Descent
