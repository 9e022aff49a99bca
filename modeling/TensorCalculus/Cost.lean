import TensorCalculus.Plan

/-!
# The cost of a contraction

Estimates that follow from a plan: a multiplication and an addition for every joint assignment when
something is summed over, one move for every output cell otherwise, and the bytes of all buffers.
-/

namespace TensorCalculus

open TensorCalculus.Layout

/-- The estimates of one contraction; operations are reported as a double, bytes as whole
numbers. -/
structure Cost where
  operations : Float
  bytesIn : Int
  bytesOut : Int
  contracted : List Char
  output : List Char
  reductions : Int
  jointSize : Int

def Cost.bytesTotal (c : Cost) : Int :=
  c.bytesIn + c.bytesOut

namespace Plan

def operations (p : Plan) : Int :=
  if p.contracted.isEmpty then p.outputSize else 2 * p.outputSize * p.contractedSize

/-- The additions that sum the products of every output cell. -/
def reductions (p : Plan) : Int :=
  if p.contracted.isEmpty then 0 else max (p.contractedSize - 1) 0 * p.outputSize

/-- The elements of all operands. -/
def inputSize (p : Plan) : Int :=
  (p.operandShapes.map volume).foldr (· + ·) 0

/-- The estimates for elements of a given size in bytes. -/
def cost (p : Plan) (elementSize : Pending Int := .ok 8) : Except Fault Cost := do
  let operations ← Literal.doubleOfInt p.operations
  let size ← elementSize
  return { operations, bytesIn := p.inputSize * size, bytesOut := p.outputSize * size
           contracted := p.contracted, output := p.subscripts.output, reductions := p.reductions
           jointSize := p.jointSize }

end Plan

end TensorCalculus
