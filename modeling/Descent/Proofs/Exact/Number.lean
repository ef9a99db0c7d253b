import Descent.Proofs.Exact.Real
import Descent.Datum
import Descent.Proofs.Run.Triple

/-!
# Parameters over the reals

What is known of the numbers that callers set once they have been read, when scalars are exact real
numbers.

* `Datum.admits_of_insist`, `Datum.toNumber_of_insist`, `Datum.mem_unit_of_insistInUnit`: they are
  the numbers that callers gave and satisfy their bounds; `Datum.insist_of_admits`,
  `Datum.insistInUnit_real`: numbers that do are accepted;
* `Number.toScalar_exact`, `Number.lt_of_isAtMost`: the scalar that a number stands for, and what a
  bound means for it;
* `Number.le_roundsBelow`, `Number.le_roundsUntil`: a loop that counts up to a number has at least
  as many rounds as there are counts up to it.
-/

namespace Descent

/-- A demand is met if the condition holds. -/
theorem demand_eq_ok {satisfied : Bool} {name : String} {bound : Bound} {u : Unit} :
    demand satisfied name bound = .ok u ↔ satisfied = true := by
  cases satisfied <;> simp [demand]

variable [RealText]

namespace Number

theorem lt_of_isAtMost {n : Number ℝ} {bound : Nat} {t : ℝ} (h : n.isAtMost bound = false)
    (ht : n.toScalar = .ok t) : bound < t := by
  cases n with
  | whole i =>
    cases ht
    simp only [isAtMost, decide_eq_false_iff_not, not_le] at h
    exact_mod_cast h
  | real a =>
    cases ht
    simp only [isAtMost, decide_eq_false_iff_not, not_le] at h
    exact h

/-- Every number is a real number, the one that scalars are compared with. -/
theorem toScalar_exact (n : Number ℝ) : n.toScalar = .ok n.ceiling := by
  cases n <;> rfl

/-- Every count up to a real number comes before it or is its integer part. -/
theorem le_countsBefore {a : ℝ} {k : Nat} (h : (k : ℝ) ≤ a) :
    ∃ rounds, countsBefore? a = some rounds ∧ k ≤ rounds := by
  have hfloor : (k : Int) ≤ ⌊a⌋ := Int.le_floor.2 (by exact_mod_cast h)
  have hpos : 0 ≤ a := k.cast_nonneg.trans h
  refine ⟨if (⌊a⌋ : ℝ) < a then (⌊a⌋ + 1).toNat else ⌊a⌋.toNat, ?_, ?_⟩
  · simp [countsBefore?, Numeral.truncate?, Numeral.ofInt?, hpos]
  · split <;> omega

theorem le_roundsBelow {n : Number ℝ} {k : Nat} (h : n.isBelow k = false) : k ≤ n.roundsBelow := by
  cases n with
  | whole i =>
    simp only [isBelow, decide_eq_false_iff_not, not_lt] at h
    simp only [roundsBelow]
    omega
  | real a =>
    simp only [isBelow, decide_eq_false_iff_not, not_lt] at h
    obtain ⟨rounds, hrounds, hle⟩ := le_countsBefore h
    rwa [roundsBelow, hrounds, Option.getD_some]

theorem le_roundsUntil {n : Number ℝ} {k : Nat} (h : n.isBelow k = false) : k ≤ n.roundsUntil := by
  cases n with
  | whole i =>
    simp only [isBelow, decide_eq_false_iff_not, not_lt] at h
    simp only [roundsUntil]
    omega
  | real a =>
    simp only [isBelow, decide_eq_false_iff_not, not_lt] at h
    obtain ⟨rounds, hrounds, hle⟩ := le_countsBefore h
    rwa [roundsUntil, hrounds, Option.getD_some]

end Number

namespace Datum

section

variable {α : Type} [Numeral α] {d : Datum α} {name : String} {bound : Bound} {n : Number α}

omit [RealText] in
/-- A number that callers have set satisfies its bound. -/
theorem admits_of_insist (h : d.insist name bound = .ok n) : n.admits bound = true := by
  obtain ⟨m, _, h⟩ := Fault.bind_eq_ok h
  obtain ⟨_, hdemand, h⟩ := Fault.bind_eq_ok h
  cases h
  exact demand_eq_ok.1 hdemand

omit [RealText] in
theorem toNumber_of_insist (h : d.insist name bound = .ok n) : d.toNumber = .ok n := by
  obtain ⟨m, hm, h⟩ := Fault.bind_eq_ok h
  obtain ⟨_, _, h⟩ := Fault.bind_eq_ok h
  cases h
  exact hm

omit [RealText] in
/-- A number within its bound is accepted. -/
theorem insist_of_admits (h : n.admits bound = true) (name : String) :
    (Datum.number n).insist name bound = .ok n := by
  change (demand (n.admits bound) name bound >>= fun _ => _) = _
  rw [demand, if_pos h]
  rfl

end

theorem mem_unit_of_insistInUnit {d : Datum ℝ} {name : String} {a : ℝ}
    (h : d.insistInUnit name = .ok a) : 0 < a ∧ a < 1 := by
  obtain ⟨n, hn, h⟩ := Fault.bind_eq_ok h
  cases h
  simpa [Number.admits] using admits_of_insist hn

/-- A number between zero and one is accepted where such a number is needed. -/
theorem insistInUnit_real {a : ℝ} (hpos : 0 < a) (hlt : a < 1) (name : String) :
    (Datum.number (.real a)).insistInUnit name = .ok a := by
  have hadmits : (Number.real a).admits .openUnit = true := by
    simp [Number.admits, Number.ceiling, hpos, hlt]
  rw [insistInUnit, insist_of_admits hadmits]
  rfl

end Datum

end Descent
