import Descent.Operator
import Descent.Operator.Operand

/-!
# Values read as operators

Callers describe operators in several ways, and describe operators that depend on a point in several
more. `OperatorLike` and `Tensor` are these descriptions; `OperatorLike.toOperator` and
`Tensor.operatorAt` read them.

* An operator stands for itself, a block of numbers and nested rows for a dense operator, a function
  from vectors to vectors for an operator of any size. Nothing else is an operator.
* A tensor that is an operator or a block is the same at every point. Any other tensor is applied to
  the point and must yield an operator in one of the ways above; nested rows or a lone number cannot
  be applied.
* `OperatorLike.add` and `OperatorLike.mul`: operators combine with operators by addition and with
  numbers by scaling. Blocks combine entry by entry with blocks and with data that can be arranged
  as one. A scalar is added to sequences but does not multiply them. Data combine with data as
  `Datum.add` and `Datum.mul` say.
-/

namespace Descent

/-- What may be given where a linear operator is expected. -/
inductive OperatorLike (α σ : Type) where
  | operator (op : Operator α σ)
  | block (b : Block α) (grain : Grain := .numbers)
  /-- A scalar that was computed from blocks. -/
  | scalar (a : α)
  | map (f : VectorField α σ)
  | datum (d : Datum α)

/-- What may be given where an operator that depends on a point is expected. -/
inductive Tensor (α σ : Type) where
  | constant (op : OperatorLike α σ)
  | varying (f : Array α → Run α σ (OperatorLike α σ))

namespace OperatorLike

variable {α σ : Type} [Numeral α]

/-- The operator that is meant. -/
def toOperator : OperatorLike α σ → Except Fault (Operator α σ)
  | operator op => .ok op
  | block b _ => Operator.dense b
  | scalar _ => .error (.notOperator "float64")
  | map f => .ok (.function f none)
  | datum d =>
    match d with
    | .vector _ | .sequence _ => d.toBlock >>= Operator.dense
    | _ => .error (.notOperator d.kindText)

/-- A value as entries that take part in arithmetic. A function counts as an entry that is none. -/
def operand : OperatorLike α σ → Except Fault (Operand α)
  | operator _ => .error .notCombinable
  | block b grain => .ok (Operand.ofBlock grain b)
  | scalar a => .ok (Operand.ofBlock .numbers (Block.single a))
  | map _ => Operand.ofDatum .nothing
  | datum d => Operand.ofDatum d

/-- Two values combined entry by entry. -/
def entrywise (f : α → α → α) (first second : OperatorLike α σ) :
    Except Fault (OperatorLike α σ) := do
  let (grain, result) ← Operand.combine f (← first.operand) (← second.operand)
  match result.shape, result.entries[0]? with
  | [], some a => return scalar a
  | _, _ => return block result grain

/-- The sum of two operators, of two blocks, or of data. Nothing else can be added. -/
def add : OperatorLike α σ → OperatorLike α σ → Except Fault (OperatorLike α σ)
  | operator left, operator right => (left.add right).map operator
  | operator _, _ | _, operator _ => .error .notCombinable
  | datum c, datum d => (c.add d).map datum
  | map _, map _ | map _, datum _ | datum _, map _ => .error .notCombinable
  | first, second => entrywise (· + ·) first second

/-- A multiple of an operator, or the product of blocks or data. Nothing else can be multiplied. -/
def mul : OperatorLike α σ → OperatorLike α σ → Except Fault (OperatorLike α σ)
  | datum c, operator op | operator op, datum c =>
    (Operand.quantity c).map fun c => operator (op.scaled c)
  | scalar c, operator op | operator op, scalar c => .ok (operator (op.scaled c))
  | operator _, _ | _, operator _ => .error .notCombinable
  | datum c, datum d => (c.mul d).map datum
  | scalar c, datum d | datum d, scalar c => do
    return scalar (c * (← Operand.quantity d))
  | map _, map _ | map _, datum _ | datum _, map _ => .error .notCombinable
  | first, second => entrywise (· * ·) first second

end OperatorLike

namespace Tensor

variable {α σ : Type} [Numeral α]

/-- The operator at a point. -/
def operatorAt {n : Nat} (tensor : Tensor α σ) (x : Vec α n) : Run α σ (Operator α σ) :=
  match tensor with
  | constant (.operator op) => pure op
  | constant (.block b _) => Run.ofExcept (Operator.dense b)
  | constant (.map f) => do Run.ofExcept (OperatorLike.datum (← f x.toArray)).toOperator
  | constant (.scalar _) | constant (.datum _) => throw .notApplicable
  | varying f => do Run.ofExcept (← f x.toArray).toOperator

end Tensor

end Descent
