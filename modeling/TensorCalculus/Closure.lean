import TensorCalculus.Einsum
import TensorCalculus.Fixpoint
import TensorCalculus.Tensor.Elementwise

/-!
# Closures of relations

A square matrix is a relation between the values of its axis. Its closure adds, step by step, the
pairs that are joined by a longer path, until nothing changes: over real numbers with a threshold
for plain reachability, and under any other sum and product. -/

namespace TensorCalculus.Closure

variable {α : Type} [Zero α] [One α] [Add α] [Sub α] [Neg α] [Mul α] [LT α] [DecidableLT α] [LE α]
  [DecidableLE α] [BEq α]

/-- The join of two relations over the middle value. -/
def joining : Subscripts :=
  { inputs := [['x', 'y'], ['y', 'z']], output := ['x', 'z'], text := "xy,yz->xz" }

/-- The operand as a square matrix. -/
def expectSquare (operation : String) (relation : Operand α) : Except Fault (Tensor α) := do
  let t ← relation.expectReal "operand"
  match t.shape with
  | [rows, columns] =>
    if rows = columns then return t else .error (.shape (.notSquare operation t.dims) none none)
  | _ => .error (.shape (.notSquare operation t.dims) none none)

/-- One round of reachability: what is related, or joined over one further step. -/
def reach [BulkRoutine α] (settings : Settings α) (relation current : Tensor α) :
    Except Fault (Tensor α) := do
  let joined ← einsum settings (.understood joining) [.real current, .real relation] none
  return (← Tensor.add [.ok current, .ok (joined.threshold 0)]).threshold 0

def transitive [BulkRoutine α] (settings : Pending (Settings α)) (relation : Operand α) :
    Except Fault (Fixpoint.Outcome (Tensor α)) := do
  let r ← expectSquare "transitive_closure" relation
  let settings ← settings
  Fixpoint.search (reach settings r) Fixpoint.maxChange (Fixpoint.within settings.tolerance)
    settings.iterationLimit r

/-- The elementwise sum of two tensors of one shape. -/
def sumOf (s : SumProduct α) (left right : Tensor α) : Except Fault (Tensor α) := do
  let data ← (left.data.toList.zip right.data.toList).mapM fun (a, b) =>
    s.lower (s.add (s.lift a) (s.lift b))
  Tensor.make left.name left.indices left.dims (.ok data.toArray)

/-- One round under another sum and product. -/
def extend (settings : Settings α) (s : SumProduct α) (relation current : Tensor α) :
    Except Fault (Tensor α) := do
  let operands := [.real current, .real relation]
  let extended ← semiringEinsum settings s (.understood joining) operands none
  sumOf s current extended

/-- The closure under another sum and product. A limit given here takes the place of that of the
settings without being checked like it, and so does a test for changes that count as settled; the
sum and product are looked at in the first round. -/
def semiring (settings : Pending (Settings α)) (s : Pending (SumProduct α)) (relation : Operand α)
    (limit : Option (Pending Int)) (settled : Option (α → Except Fault Bool)) :
    Except Fault (Fixpoint.Outcome (Tensor α)) := do
  let r ← expectSquare "semiring_closure" relation
  let settings ← settings
  let limit ← limit.getD (.ok settings.iterationLimit)
  let round (current : Tensor α) : Except Fault (Tensor α) :=
    match s with
    | .ok s => extend settings s r current
    | .error fault => .error fault
  let settled := settled.getD (Fixpoint.within settings.tolerance)
  Fixpoint.search round Fixpoint.maxChange settled limit r

end TensorCalculus.Closure
