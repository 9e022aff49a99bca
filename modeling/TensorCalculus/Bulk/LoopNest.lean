import TensorCalculus.Bulk.Signature
import TensorCalculus.Grid
import TensorCalculus.Layout.Limits
import TensorCalculus.Odometer

/-!
# Loop nests

The bulk routine arranges its loops by the way the operands lie in memory: the loop with the
shortest steps runs innermost, the output is laid out in the order of the loops, and loops that
together run through memory in equal steps are merged into one. Steps are counted in elements; an
axis of size one has no step. -/

namespace TensorCalculus.Bulk

open TensorCalculus.Layout

/-- A loop over the axes of one label. -/
structure Loop where
  label : Label
  size : Nat
  /-- How far each operand moves. -/
  steps : List Nat
  /-- How far the output moves. -/
  output : Nat
  deriving DecidableEq

/-- An axis of an operand. -/
structure Axis where
  label : Label
  size : Nat
  step : Nat
  deriving DecidableEq

/-- The axes of an operand. In the strides of a block an empty axis counts like one of size one. -/
def axesOf (labels : List Label) (shape : List Nat) : List Axis :=
  (labels.zip (shape.zip (strides (shape.map (max 1))))).map fun (label, size, stride) =>
    { label, size, step := if size = 1 then 0 else stride }

/-- The step of an operand along all axes of one label together. -/
def stepAlong (label : Label) (axes : List Axis) : Nat :=
  ((axes.filter (·.label = label)).map Axis.step).foldl (· + ·) 0

/-- The sizes of axes of one label in one operand differ. -/
def unequalSizes (operand : Nat) (label : Label) (x y : Nat) : String :=
  let index := match label with
    | .letter c => c.toString
    | .unnamed _ => ""
  s!"dimensions in operand {operand} for collapsing index '{index}' don't match ({x} != {y})"

/-- Takes axes of one label together with one more axis of it, as far as its size is not at odds
with theirs. -/
def joinAxis (operand : Nat) (atOdds : Nat → Nat → Bool) (axes : List Axis) (axis : Axis) :
    Except String (List Axis) :=
  match axes.find? (·.label = axis.label) with
  | none => .ok (axes ++ [axis])
  | some known =>
    if atOdds known.size axis.size then
      .error (unequalSizes operand axis.label known.size axis.size)
    else
      let joined := { known with
        size := if axis.size = 1 then known.size else axis.size, step := known.step + axis.step }
      .ok (axes.map fun x => if x.label = axis.label then joined else x)

/-- The axes of an operand, one for each label. Axes of size one are stretched. -/
def diagonal (operand : Nat) (axes : List Axis) : Except String (List Axis) :=
  axes.foldlM (joinAxis operand fun x y => x ≠ 1 && y ≠ 1 && x ≠ y) []

/-- The axes of an operand that is taken as it lies, where none is stretched. -/
def strictDiagonal (axes : List Axis) : Except String (List Axis) :=
  axes.foldlM (joinAxis 0 fun x y => x ≠ 0 && x ≠ y) []

/-- The size that all axes of one label agree on, where axes of size one are stretched. -/
def sizeAlong (label : Label) (axes : List Axis) : Option Nat :=
  (axes.filter (·.label = label)).foldlM (fun size axis => Grid.jointSize size axis.size) 1

namespace Loop

/-- How two loops compare: by all operands that move in both of them, if there are any. -/
def compare (x y : Loop) : Option Ordering :=
  match (x.steps.zip y.steps).filter fun (s, t) => s ≠ 0 ∧ t ≠ 0 with
  | [] => none
  | moving => if moving.all fun (s, t) => s < t then some .lt else some .gt

/-- Moves a loop inward, past loops with longer steps, until one has no longer steps. A loop that
cannot be compared is passed only on the way to such a loop. -/
def moveInward (x : Loop) : List Loop → Option (List Loop)
  | [] => none
  | y :: ys =>
    match x.compare y with
    | none => (x.moveInward ys).map (y :: ·)
    | some .lt => some (y :: (x.moveInward ys).getD (x :: ys))
    | some _ => none

/-- The loops from the outermost to the innermost one, with one more loop put in its place. -/
def insert (x : Loop) (loops : List Loop) : List Loop :=
  (x.moveInward loops).getD (x :: loops)

/-- Whether an outer loop goes on where an inner one ends, for one array. -/
def continues (inner outer : Loop) (step next : Nat) : Bool :=
  (inner.size = 1 && step = 0) || (outer.size = 1 && next = 0) || step * inner.size = next

def canMerge (inner outer : Loop) : Bool :=
  (inner.steps.zip outer.steps).all (fun (s, t) => continues inner outer s t) &&
    continues inner outer inner.output outer.output

def merge (inner outer : Loop) : Loop :=
  let step (s t : Nat) := if s = 0 then t else s
  { label := inner.label, size := inner.size * outer.size
    steps := List.zipWith step inner.steps outer.steps, output := step inner.output outer.output }

/-- Merges neighbouring loops, from the innermost one outward. -/
def mergeAll : Loop → List Loop → List Loop
  | inner, [] => [inner]
  | inner, outer :: loops =>
    if inner.canMerge outer then mergeAll (inner.merge outer) loops
    else inner :: mergeAll outer loops

/-- The loop as a wheel. -/
def toWheel (loop : Loop) : Wheel :=
  { size := loop.size, steps := loop.steps.map Int.ofNat, output := loop.output }

end Loop

/-- Lays the output out in the order of the loops, from the innermost one outward. -/
def layOut (output : List Label) : Nat → List Loop → List Loop
  | _, [] => []
  | step, loop :: loops =>
    if loop.label ∈ output then
      { loop with output := if loop.size = 1 then 0 else step } :: layOut output
        (step * loop.size) loops
    else loop :: layOut output step loops

structure LoopNest where
  /-- The loops, the innermost one first. -/
  loops : List Loop
  outputShape : List Nat
  /-- The steps of the output along its axes. -/
  outputSteps : List Nat
  deriving DecidableEq

namespace LoopNest

/-- The loops of a signature with given sizes, from the first label to the last. -/
def unordered (s : Signature) (operands : List (List Axis)) (sizes : List Nat) : List Loop :=
  (s.labels.zip sizes).map fun (label, size) =>
    { label, size, steps := operands.map (stepAlong label), output := 0 }

/-- A shape as a fault shows it. An axis that is lacking is new; new axes in front are left out. -/
def shapeText (sizes : List (Option Nat)) : String :=
  let shown := (sizes.dropWhile (·.isNone)).map fun
    | some size => toString size
    | none => "newaxis"
  "(" ++ ",".intercalate shown ++ (if sizes.length = 1 ∧ shown ≠ [] then ",)" else ")")

/-- The shape of an operand, and how it lies along all labels. -/
def remappedShape (s : Signature) (axes : List Axis) : String :=
  shapeText (axes.map fun axis => some axis.size) ++ "->" ++
    shapeText (s.labels.map fun label => (axes.find? (·.label = label)).map Axis.size) ++ " "

/-- The sizes of all labels. -/
def sizesOf (s : Signature) (operands : List (List Axis)) : Except String (List Nat) :=
  match s.labels.mapM fun label => sizeAlong label operands.flatten with
  | some sizes => .ok sizes
  | none => .error ("operands could not be broadcast together with remapped shapes " ++
      "[original->remapped]: " ++ String.join (operands.map (remappedShape s)))

/-- The loops of a signature over operands with given axes. -/
def arrange (s : Signature) (operands : List (List Axis)) : Except String LoopNest := do
  let sizes ← sizesOf s operands
  if (countable? 1 sizes).isNone then .error "iterator is too large"
  else
    let outward :=
      ((unordered s operands sizes).reverse.foldl (fun loops x => x.insert loops) []).reverse
    let laidOut := layOut s.output 1 outward
    let stepOf (label : Label) : Nat :=
      ((laidOut.find? fun loop => loop.label = label).map Loop.output).getD 0
    let loops := match laidOut with
      | [] => [{ label := .unnamed 0, size := 1, steps := operands.map fun _ => 0, output := 0 }]
      | inner :: outer => inner.mergeAll outer
    return { loops, outputShape := sizes.take s.output.length, outputSteps := s.output.map stepOf }

/-- How often the innermost products are formed. -/
def size (nest : LoopNest) : Nat :=
  volume (nest.loops.map Loop.size)

/-- The place in the output of coordinates in its shape. -/
def outputPlace (nest : LoopNest) (coords : List Nat) : Nat :=
  (List.zipWith (· * ·) coords nest.outputSteps).foldl (· + ·) 0

end LoopNest

end TensorCalculus.Bulk
