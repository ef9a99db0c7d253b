import Descent.Datum
import Descent.Vec

/-!
# Minimizations of what callers give

What a caller gives is the same for every method: settings, a starting point, and functions that are
turned into a problem between vectors of one length. So is what a method gives back.

* `Minimize.Task`: a minimization as it was read, for a method with problems `P` and parameters `ρ`;
  `Minimize.Task.setUp` reads it;
* `Minimize.Report`: what a run returns, for a method with exits `ε`.
-/

namespace Descent.Minimize

/-- What a run returns. -/
structure Report (ε α : Type) (n : Nat) where
  point : Vec α n
  gradient : Vec α n
  iterations : Nat
  evaluations : Nat
  exit : ε

/-- A minimization as it was read from what a caller gave. -/
structure Task (P : Nat → Type) (ρ α : Type) where
  unknowns : Nat
  problem : P unknowns
  rule : ρ
  budget : Nat
  start : Vec α unknowns

/-- Reads the settings and the starting point; the first one that cannot be used decides the fault.
The problem and the parameters depend on the number of unknowns. -/
def Task.setUp {P : Nat → Type} {ρ α τ : Type} [Numeral α] (settings : Except Fault τ)
    (start : Datum α) (problem : τ → (n : Nat) → P n) (rule : τ → Nat → ρ)
    (budget : τ → Number α) : Except Fault (Task P ρ α) := do
  let settings ← settings
  let start ← start.toVector "w0"
  return {
    unknowns := start.size
    problem := problem settings start.size
    rule := rule settings start.size
    budget := (budget settings).roundsUntil
    start := Vec.ofArray start }

end Descent.Minimize
