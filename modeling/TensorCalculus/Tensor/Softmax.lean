import TensorCalculus.Comparison
import TensorCalculus.Literal.Order
import TensorCalculus.Tensor.Basic

/-!
# Softmax

Within a lane (the whole vector, or a row or a column of a matrix) every element becomes its share
of the exponentials. The greatest element is taken off first, which leaves the shares as they are
and keeps the exponentials in range. -/

namespace TensorCalculus.Tensor

variable {α : Type} [Zero α] [Add α] [Sub α] [Div α] [LT α] [DecidableLT α]

/-- The greatest element of a lane, the first of equals. -/
def peak (x : α) (xs : List α) : α :=
  xs.foldl greater x

/-- The share of an element in its lane. -/
def share (exp : α → α) (lane : List α) (x : α) : α :=
  match lane with
  | [] => x
  | y :: ys =>
    let top := peak y ys
    exp (x - top) / (lane.map fun z => exp (z - top)).foldl (· + ·) 0

/-- The elements in the row or the column of a place. -/
def lane (t : Tensor α) (axis rows columns i j : Nat) : List α :=
  if axis = 0 then (List.range rows).filterMap fun k => t.elem? [k, j]
  else (List.range columns).filterMap fun k => t.elem? [i, k]

/-- The axis along which the lanes of a matrix run; the last one may also be given as minus one, in
any kind of number. -/
def laneAxis (axis : Literal) : Except Fault Nat :=
  if axis.same (.int (-1)) then .ok 1
  else
    match axis with
    | .int n => .ok n.toNat
    | .bool _ => .error (.type (.wholeAxis ""))
    | other => .error (.type (.sizeKind other.kind))

/-- The shares of all elements in their lanes. The axis is of no account for a vector, and only
compared for a matrix without elements. -/
def softmax (exp : α → α) (t : Tensor α) (axis : Literal := lastAxis) : Except Fault (Tensor α) :=
  match t.shape with
  | [_] => .ok (t.map (share exp t.data.toList))
  | [rows, columns] => do
    if [-1, 0, 1].any fun n => axis.same (.int n) then
      if t.data.isEmpty then return t
      else
        let reduced ← laneAxis axis
        return tabulate t.name t.indices t.shape t.length_indices fun c h =>
          share exp (t.lane reduced rows columns (c.head?.getD 0) (c.getLast?.getD 0)) (t.elem c h)
    else .error (.value (.softmaxAxis axis.shown))
  | _ => .error (.shape (.softmaxRank t.rank) none none)

end TensorCalculus.Tensor
