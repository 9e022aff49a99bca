import TensorCalculus.Bulk.Lane
import TensorCalculus.Bulk.Stretch
import TensorCalculus.Contraction

/-!
# Running in bulk

A loop nest is run by stretches. If the innermost loop leaves the output where it is, so does the
stretch: the products along it are summed first and then added to the output, and an operand that
does not move is kept out of the sum as a factor. A single operand of which no axis is summed over
is not run at all, but taken as it lies.

This is one routine to hand bulk contractions to. Contractions take it as a parameter, and nothing
that is stated of them depends on which routine it is. -/

namespace TensorCalculus.Bulk

open TensorCalculus.Layout

variable {α : Type} [Zero α] [One α] [Add α] [Mul α]

/-- The elements of one operand along a piece of a stretch, whose places are counted from a
start. -/
def column (operand : Nat) (buffer : Array α) (start : Int) (piece : List (List Int)) :
    Except Fault (List α) :=
  piece.mapM fun places => Contraction.readAt buffer (start + places.getD operand 0)

/-- The products along a piece of a stretch, each formed from left to right. -/
def productsAlong (buffers : List (Array α)) (start : List Int) (piece : List (List Int)) :
    Except Fault (List α) :=
  piece.mapM fun places => do
    let values ← Contraction.gather buffers (List.zipWith (· + ·) start places)
    return values.foldl (· * ·) 1

/-- The sum of the products along a piece of a stretch that leaves the output where it is. -/
def sumAlong (steps : List Nat) (buffers : List (Array α)) (start : List Int)
    (piece : List (List Int)) : Except Fault α :=
  match steps, buffers, start with
  | [1], [x], [p] => do return sumOfElements (← column 0 x p piece)
  | [0, 1], [x, y], [p, q] => do
    let factor ← Contraction.readAt x p
    return factor * sumOfElements (← column 1 y q piece)
  | [1, 0], [x, y], [p, q] => do
    let factor ← Contraction.readAt y q
    return sumOfElements (← column 0 x p piece) * factor
  | [1, 1], _, _ => do return sumOfProducts (← productsAlong buffers start piece)
  | _, _, _ => do return (← productsAlong buffers start piece).foldl (· + ·) 0

/-- Adds the sums along the pieces of a stretch to the cell of the output that they belong to. -/
def visitStretch (steps : List Nat) (pieces : List (List (List Int))) (buffers : List (Array α))
    (out : Array α) (o : Offsets) : Except Fault (Array α) :=
  pieces.foldlM (fun out piece => do
    let sum ← sumAlong steps buffers o.operands piece
    return out.modify o.output.toNat fun cell => cell + sum) out

/-- Nests that are run loop by loop are run even if the innermost loop is empty. -/
def isRun (nest : LoopNest) (operands : Nat) : Bool :=
  nest.size ≠ 0 || nest.isDirect operands

/-- Loops as wheels, of which the last one turns fastest. -/
def wheelsOf (loops : List Loop) : List Wheel :=
  loops.reverse.map Loop.toWheel

/-- The places of the operands through a number of loops, counted from where the loops start. -/
def placesThrough (operands : Nat) (loops : List Loop) : Except Fault (List (List Int)) := do
  let places ← Odometer.fold (wheelsOf loops) operands (fun places o =>
    .ok (places.push o.operands)) #[]
  return places.toList

/-- The output of a nest, as it is laid out. -/
def runLoops (nest : LoopNest) (buffers : List (Array α)) : Except Fault (Array α) :=
  let blank := Array.replicate (volume nest.outputShape) 0
  let operands := buffers.length
  if !isRun nest operands then .ok blank
  else if nest.loops.head?.any (·.output ≠ 0) then
    Odometer.fold (wheelsOf nest.loops) operands (Contraction.visit .real buffers) blank
  else do
    let stretch := nest.stretch operands
    let places ← placesThrough operands (nest.loops.take stretch.loops)
    Odometer.fold (wheelsOf (nest.loops.drop stretch.loops)) operands
      (visitStretch stretch.steps (pieces stretch.limit places) buffers) blank

/-- The elements of a single operand of which no axis is summed over, in the order of the output. -/
def rearrange (s : Signature) (shape : List Nat) (axes : List Axis) (buffer : Array α) :
    Except Fault (Array α) := do
  let steps := s.output.map fun label => stepAlong label axes
  let elements ← (coordinates shape).mapM fun c =>
    Contraction.readAt buffer ((List.zipWith (· * ·) c steps).foldl (· + ·) 0 : Nat)
  return elements.toArray

/-- A refusal of the bulk routine. -/
def refuse {β : Type} : Except String β → Except Fault β
  | .ok x => .ok x
  | .error reason => .error (.value (.rejected reason))

/-- Contracts blocks of given shapes by the subscripts of a text. -/
def contract (text : List Char) (blocks : List (List Nat × Array α)) : Except Fault (Array α) := do
  let shapes := blocks.map Prod.fst
  let buffers := blocks.map Prod.snd
  let s ← refuse (Signature.read text (shapes.map List.length))
  let operands := List.zipWith axesOf s.operands shapes
  match operands, buffers, s.summed with
  | [axes], [buffer], [] => do
    let axes ← refuse (strictDiagonal axes)
    rearrange s (← refuse (LoopNest.sizesOf s [axes])) axes buffer
  | _, _, _ => do
    if let [axes] := operands then
      let _ ← refuse (strictDiagonal (axes.takeWhile (·.label ∈ s.output)))
    let operands ← operands.zipIdx.mapM fun (axes, operand) => refuse (diagonal operand axes)
    let nest ← refuse (LoopNest.arrange s operands)
    checkBlock (nest.outputShape.map Int.ofNat)
    let out ← runLoops nest buffers
    return ((coordinates nest.outputShape).filterMap fun c => out[nest.outputPlace c]?).toArray

/-- The routine, as it is called by a contraction. -/
@[reducible]
def routine : BulkRoutine α where
  contract text blocks := contract text.toList blocks

end TensorCalculus.Bulk
