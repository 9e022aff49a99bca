import TensorCalculus.HyperTensor.Basic
import TensorCalculus.Tensor.Printer
import TensorCalculus.Tower.Printer

/-!
# Printing hypercomplex tensors

Vectors and matrices list their elements in brackets, where an element with too many components
shows only the first; other tensors are named by their sizes. -/

namespace TensorCalculus.HyperTensor

open TensorCalculus.Text

def elementText (places : Pending Nat) (most : Nat) (x : Number Float) : Except Fault String := do
  if x.dimension ≤ most then
    return "(" ++ ",".intercalate (← x.components.mapM (Literal.fixed places)) ++ ")"
  else
    return "(" ++ (← (x.components.take 1).mapM (Literal.fixed places)).head?.getD "" ++ ",...)"

def toText (places : Pending Nat) (t : HyperTensor Float) : Except Fault String := do
  match t.shape with
  | [_] => return Tensor.bracketed (← t.data.toList.mapM (elementText places 4))
  | [rows, columns] =>
    return Tensor.matrixText rows columns (← t.data.toList.mapM (elementText places 2))
  | _ =>
    return s!"HypercomplexTensor({t.algebra.name}, shape=" ++
      Tensor.bracketed (t.shape.map toString) ++ ")"

end TensorCalculus.HyperTensor
