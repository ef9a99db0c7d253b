import Descent.Scalar
import Descent.Fault

/-!
# Quotients

Where nothing is known of a divisor it may be zero, and the run that meets such a quotient ends.
`Scalar.quotient` is the quotient that refuses a divisor of zero; every other divisor gives the
quotient of the arithmetic (`Scalar.quotient_of_ne_zero`).
-/

namespace Descent.Scalar

variable {α : Type} [Scalar α]

/-- The quotient of two scalars; a divisor of zero is a fault. -/
def quotient (a b : α) : Except Fault α :=
  if b == 0 then .error .divisionByZero else .ok (a / b)

/-- A divisor other than zero gives a quotient. -/
theorem quotient_of_ne_zero {b : α} (h : (b == 0) = false) (a : α) :
    quotient a b = .ok (a / b) := by
  simp [quotient, h]

end Descent.Scalar
