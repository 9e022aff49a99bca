import TensorCalculus.Comparison
import TensorCalculus.Tensor.Basic

/-!
# Elementwise operations

Each element is treated by itself, or combined with the element at the same place of further
tensors. -/

namespace TensorCalculus.Tensor

variable {α : Type}

/-- One where an element exceeds the cutoff, zero elsewhere. -/
def threshold [Zero α] [One α] [LT α] [DecidableLT α] (cutoff : α) (t : Tensor α) : Tensor α :=
  t.map fun x => if cutoff < x then 1 else 0

/-- The logistic function of `x / temperature`. -/
def logistic [One α] [Add α] [Div α] [Neg α] (exp : α → α) (temperature : α) (t : Tensor α) :
    Tensor α :=
  t.map fun x => 1 / (1 + exp (-x / temperature))

/-- Zero in place of every element that is not above zero. -/
def relu [Zero α] [LE α] [DecidableLE α] (t : Tensor α) : Tensor α :=
  t.map fun x => if x ≤ 0 then 0 else x

def scale [Mul α] (factor : α) (t : Tensor α) : Tensor α :=
  t.map (· * factor)

/-- The tensors from the given position on, unless one of them is at fault or differs in shape from
the first one. -/
def checkShapes (operation : String) (first : Tensor α) :
    Nat → List (Pending (Tensor α)) → Except Fault (List (Tensor α))
  | _, [] => .ok []
  | position, t :: ts => do
    let t ← t
    if t.shape = first.shape then
      let ts ← checkShapes operation first (position + 1) ts
      return t :: ts
    else .error (.shape (.differingShapes operation first.dims t.dims) (some position) none)

/-- Combines the elements of tensors of one shape, from left to right. -/
def combineAll (operation : String) (f : α → α → α) :
    List (Pending (Tensor α)) → Except Fault (Tensor α)
  | [] => .error (.value (.noTensors operation))
  | first :: rest => do
    let first ← first
    let rest ← checkShapes operation first 1 rest
    return rest.foldl
      (fun acc t => if h : acc.shape = t.shape then acc.zipWith f t h else acc) first

def add [Add α] (ts : List (Pending (Tensor α))) : Except Fault (Tensor α) :=
  combineAll "add" (· + ·) ts

def multiply [Mul α] (ts : List (Pending (Tensor α))) : Except Fault (Tensor α) :=
  combineAll "multiply" (· * ·) ts

end TensorCalculus.Tensor
