import TensorCalculus.Comparison
import TensorCalculus.Cost
import TensorCalculus.Literal.Arithmetic
import TensorCalculus.Operand

/-!
# Resource profiles

A rough account of what a tensor or a contraction takes up in memory and asks of a machine. Profiles
of several steps combine in two ways: one after another memory peaks and work adds up, side by side
memory adds up and work peaks. The figures of a profile are literals, which are calculated with as
they are. -/

namespace TensorCalculus

open TensorCalculus.Layout

structure Profile where
  mainBytes : Literal := .real 0
  cacheBytes : Literal := .real 0
  sharedBytes : Literal := .real 0
  registers : Literal := .int 0
  operations : Literal := .real 0
  bandwidth : Literal := .real 0
  nonzero : Literal := .int 0
  density : Literal := .real 1
  rank : Literal := .int 0

namespace Profile

def elementBytes : Int := 8
def cacheLimit : Int := 6 * 1024 * 1024
def sharedLimit : Int := 48 * 1024
def registerLimit : Int := 255

/-- The profile of a tensor with given sizes and a given number of elements other than zero. -/
def ofTensor (dims : List Int) (nonzero : Nat) : Except Fault Profile := do
  let total := volume dims
  let bytes := total * elementBytes
  let all ← Literal.doubleOfInt bytes
  return { mainBytes := .real all
           cacheBytes := .real (← Literal.doubleOfInt (min bytes cacheLimit))
           sharedBytes := .real (← Literal.doubleOfInt (min bytes sharedLimit))
           registers := .int (min (dims.length * 4) registerLimit)
           bandwidth := .real all
           nonzero := .int nonzero
           density := .real (Decimal.nearest false nonzero (max 1 total.toNat))
           rank := .int dims.length }

/-- The number of elements that are not zero; hypercomplex elements count whatever their
components. -/
def nonzeroCount : Operand Float → Nat
  | .real t => t.data.foldl (fun n x => if x == 0 then n else n + 1) 0
  | .hyper t => t.data.size
  | .foreign _ _ _ => 0

def ofOperand (operand : Operand Float) : Except Fault Profile := do
  ofTensor (← (← operand.sizes).mapM Literal.toInt) (nonzeroCount operand)

/-- The profile of a contraction that is planned but not run. -/
def ofPlan (p : Plan) : Except Fault Profile := do
  let bytesIn := p.inputSize * elementBytes
  let bytes := bytesIn + p.outputSize * elementBytes
  let all ← Literal.doubleOfInt bytes
  return { mainBytes := .real all
           cacheBytes := .real (← Literal.doubleOfInt (min bytes cacheLimit))
           sharedBytes := .real (← Literal.doubleOfInt (min bytesIn sharedLimit))
           registers := .int (p.order.length * 4 + 16)
           operations := .real (← Literal.doubleOfInt (p.jointSize * p.operandShapes.length * 2))
           bandwidth := .real all
           nonzero := .int p.outputSize
           rank := .int p.outputShape.length }

section Combination

variable {α : Type}

def total [Zero α] [Add α] (xs : List α) : α :=
  xs.foldl (· + ·) 0

/-- The greatest value, the first of equals, and zero if there is none. -/
def greatest [Zero α] [Extremes α] : List α → α
  | [] => 0
  | x :: xs => xs.foldl Extremes.greater x

end Combination

/-- One figure of every profile. -/
def figures (f : Profile → Literal) (ps : List Profile) : List Figure :=
  ps.map fun p => .ok (f p)

def meanDensity (ps : List Profile) : Figure :=
  if ps.isEmpty then 1 else total (figures density ps) / .ok (.int ps.length)

/-- Steps that run one after another. -/
def inSequence (ps : List Profile) : Except Fault Profile := do
  return { mainBytes := ← greatest (figures mainBytes ps)
           cacheBytes := ← greatest (figures cacheBytes ps)
           sharedBytes := ← greatest (figures sharedBytes ps)
           registers := ← greatest (figures registers ps)
           operations := ← total (figures operations ps)
           bandwidth := ← total (figures bandwidth ps)
           nonzero := ← total (figures nonzero ps)
           density := ← meanDensity ps
           rank := ← greatest (figures rank ps) }

/-- Steps that run side by side. -/
def inParallel (ps : List Profile) : Except Fault Profile := do
  return { mainBytes := ← total (figures mainBytes ps)
           cacheBytes := ← total (figures cacheBytes ps)
           sharedBytes := ← total (figures sharedBytes ps)
           registers := ← greatest (figures registers ps)
           operations := ← greatest (figures operations ps)
           bandwidth := ← greatest (figures bandwidth ps)
           nonzero := ← total (figures nonzero ps)
           density := ← meanDensity ps
           rank := ← greatest (figures rank ps) }

end Profile

end TensorCalculus
