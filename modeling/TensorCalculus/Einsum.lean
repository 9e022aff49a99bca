import TensorCalculus.Operand
import TensorCalculus.Settings
import TensorCalculus.Subscripts.Wording
import TensorCalculus.SumProduct

/-!
# Contractions

The three contractions: of real tensors, of real tensors under another sum and product, and of
hypercomplex tensors, where the product follows the order of the operands. Each one checks its
operands, reads the subscripts, matches them with the shapes, and runs the loop. Real tensors can
also be handed to a bulk routine, whichever there is. -/

namespace TensorCalculus

open TensorCalculus.Layout

variable {α τ : Type}

namespace Backend

/-- Hypercomplex sums of products. The product starts with the first factor and goes on from left to
right. -/
def hyper [Add α] [Sub α] [Neg α] [Mul α] [Zero α] (zero : Number α) :
    Backend (Number α) (Except Fault (Number α)) (Except Fault (Number α)) where
  blank := .ok zero
  combine values :=
    match values with
    | [] => .ok zero
    | first :: rest => rest.foldlM Number.mul first
  accumulate cell product := do
    (← cell).add (← product)

end Backend

/-- The name of a result that was given none. -/
def resultName (name : Option String) : String :=
  match name with
  | some name => if name.isEmpty then "result" else name
  | none => "result"

namespace Plan

/-- The index names of the result. -/
def outputNames (p : Plan) : List String :=
  p.subscripts.output.map String.singleton

/-- The output is held in a list, as the operands are. One that is no longer than an operand can be
held where that is. -/
def checkOutput (p : Plan) : Except Fault Unit :=
  if p.operandShapes.any (p.outputSize ≤ volume ·) then .ok () else checkList p.outputSize 1

/-- Hands a plan to the bulk routine. Each block must be fit for its shape; a value that the routine
does not accept is held against the contraction. -/
def runBulk [BulkRoutine α] (p : Plan) (tensors : List (Tensor α)) : Except Fault (Array α) := do
  tensors.forM fun t => checkRegrouping t.data.size t.shape
  match BulkRoutine.contract p.subscripts.toText (tensors.map fun t => (t.shape, t.data)) with
  | .error (.value cause) => .error (.bulk p.subscripts.toText cause.message)
  | result => result

/-- Runs a plan over real tensors, by the loop or in bulk. -/
def runReal [Zero α] [One α] [Add α] [Mul α] [BulkRoutine α] (p : Plan) (tensors : List (Tensor α))
    (strategy : Strategy) (name : Option String) : Except Fault (Tensor α) := do
  let data ← match strategy with
    | .loop => do
      p.checkOutput
      Contraction.run .real p (tensors.map (·.data))
    | .bulk => p.runBulk tensors
  Tensor.make (resultName name) p.outputNames p.outputShape (.ok data)

/-- Runs a plan under another sum and product. -/
def runSumProduct (s : SumProduct α) (p : Plan) (tensors : List (Tensor α)) (name : Option String) :
    Except Fault (Tensor α) := do
  p.checkOutput
  let cells ← Contraction.run s.backend p (tensors.map (·.data))
  let data ← cells.mapM id
  Tensor.make (resultName name) p.outputNames p.outputShape (.ok data)

/-- Runs a plan over hypercomplex tensors of one algebra. -/
def runHyper [Zero α] [Add α] [Sub α] [Neg α] [Mul α] (p : Plan) (algebra : AlgebraTag)
    (tensors : List (HyperTensor α)) (name : Option String) : Except Fault (HyperTensor α) := do
  let zero ← Number.unit algebra 0
  p.checkOutput
  let cells ← Contraction.run (.hyper zero) p (tensors.map (·.data))
  let numbers ← cells.toList.mapM id
  HyperTensor.make (resultName name) p.outputNames p.outputShape (numbers.map .number) algebra

end Plan

namespace Settings

/-- Reads the wording and plans its contraction of operands with the given shapes. -/
def planWording (settings : Settings τ) (wording : Wording) (shapes : List (List Int)) :
    Except Fault Plan := do
  settings.plan (← wording.resolve) shapes

end Settings

/-- The contraction of real tensors. -/
def einsum [Zero α] [One α] [Add α] [Mul α] [BulkRoutine α] (settings : Settings τ)
    (wording : Wording) (operands : List (Operand α)) (name : Option String) :
    Except Fault (Tensor α) := do
  let tensors ← Operand.expectReals operands
  let plan ← settings.planWording wording (tensors.map Tensor.dims)
  plan.runReal tensors settings.strategy name

/-- The contraction of real tensors under another sum and product. -/
def semiringEinsum (settings : Settings τ) (s : SumProduct α) (wording : Wording)
    (operands : List (Operand α)) (name : Option String) : Except Fault (Tensor α) := do
  let tensors ← Operand.expectReals operands
  let plan ← settings.planWording wording (tensors.map Tensor.dims)
  plan.runSumProduct s tensors name

/-- The contraction of hypercomplex tensors. -/
def hyperEinsum [Zero α] [Add α] [Sub α] [Neg α] [Mul α] (settings : Pending (Settings τ))
    (wording : Wording) (operands : List (Operand α)) (name : Option String) :
    Except Fault (HyperTensor α) := do
  let (algebra, tensors) ← Operand.expectHypers operands
  let settings ← settings
  let plan ← settings.planWording wording (tensors.map fun t => t.toTensor.dims)
  plan.runHyper algebra tensors name

end TensorCalculus
