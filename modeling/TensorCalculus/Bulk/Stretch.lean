import TensorCalculus.Bulk.LoopNest

/-!
# Stretches

The innermost loops of a nest are run together in one go, as a stretch. An array that keeps one step
through all of them is read where it lies; any other operand is copied first, so that its elements
lie side by side. How many loops make a stretch is a matter of cost. A copy costs as much as the run
itself, and the least cost for an element is wanted. The output is not copied: a stretch ends where
it comes to move or to rest. -/

namespace TensorCalculus.Bulk

open TensorCalculus.Layout

/-- How many elements are copied at a time, at the most. -/
def copyLimit : Nat := 8192

/-- How many loops, from the innermost one outward, an array runs through in one step. The loops are
given by their sizes and the steps that the array takes in them. -/
def reach : List (Nat × Nat) → Nat
  | [] => 0
  | [_] => 1
  | (size, step) :: (nextSize, next) :: loops =>
    if step * size = next then reach ((nextSize, next) :: loops) + 1 else 1

/-- What is run in one go. -/
structure Stretch where
  /-- How many of the innermost loops are taken together. -/
  loops : Nat
  /-- How many elements are taken at a time, at the most. -/
  limit : Nat
  /-- How far each operand moves from one element to the next. -/
  steps : List Nat
  deriving DecidableEq

namespace LoopNest

/-- How often a number of innermost loops run through their elements together. -/
def span (nest : LoopNest) (loops : Nat) : Nat :=
  volume ((nest.loops.take loops).map Loop.size)

def operandReach (nest : LoopNest) (operand : Nat) : Nat :=
  reach (nest.loops.map fun loop => (loop.size, loop.steps.getD operand 0))

def outputReach (nest : LoopNest) : Nat :=
  reach (nest.loops.map fun loop => (loop.size, loop.output))

/-- The cost of a number of loops: one run, and one more for each array that does not reach so
far. -/
def cost (nest : LoopNest) (operands loops : Nat) : Nat :=
  (nest.outputReach :: (List.range operands).map nest.operandReach).countP (· < loops) + 1

/-- Whether a number of loops is considered. The output may turn in the last of them, and copies may
not have been full before it. -/
def isConsidered (nest : LoopNest) (operands loops : Nat) : Bool :=
  loops ≤ nest.outputReach + 1 &&
    (nest.span (loops - 1) < copyLimit || nest.cost operands (loops - 1) = 1)

/-- The cheaper one of two numbers of loops, the greater one if they cost the same for an element.
Elements that are not copied at a time are not counted. -/
def cheaper (nest : LoopNest) (operands loops more : Nat) : Nat :=
  let span := nest.span more
  let counted := if nest.cost operands more = 1 then span else min span copyLimit
  if nest.cost operands more * nest.span loops ≤ nest.cost operands loops * counted then more
  else loops

/-- The number of loops that costs least for an element. -/
def cheapest (nest : LoopNest) (operands : Nat) : Nat :=
  (((List.range nest.loops.length).map (· + 1)).filter (nest.isConsidered operands)).foldl
    (nest.cheaper operands) 1

/-- Nests of two or three loops over one or two operands are run loop by loop. -/
def isDirect (nest : LoopNest) (operands : Nat) : Bool :=
  operands ≤ 2 && (nest.loops.length = 2 || nest.loops.length = 3)

/-- The steps of the operands through a number of loops. Those that do not reach so far are
copied. -/
def stepsThrough (nest : LoopNest) (operands loops : Nat) : List Nat :=
  (List.range operands).map fun operand =>
    if loops ≤ nest.operandReach operand then
      ((nest.loops.head?.map fun loop => loop.steps.getD operand 0).getD 0)
    else 1

/-- The stretch that a nest is run by. Where the output turns in the last loop, that loop is not
part of it; where copies are full before its end, the last loop is run a part at a time. -/
def stretch (nest : LoopNest) (operands : Nat) : Stretch :=
  if nest.isDirect operands then
    { loops := 1, limit := nest.span 1, steps := nest.stepsThrough operands 1 }
  else
    let cheapest := nest.cheapest operands
    let loops := if nest.outputReach < cheapest then cheapest - 1 else cheapest
    let core := nest.span (cheapest - 1)
    let limit :=
      if nest.cost operands cheapest = 1 ∨ nest.span cheapest ≤ copyLimit then nest.span cheapest
      else core * (copyLimit / core)
    { loops, limit, steps := nest.stepsThrough operands loops }

end LoopNest

section Pieces

variable {β : Type}

/-- Cuts a list into pieces of a given length, of which the last one may be shorter. -/
def pieces (limit : Nat) (xs : List β) : List (List β) :=
  if limit = 0 ∨ xs.length ≤ limit then [xs] else xs.take limit :: pieces limit (xs.drop limit)
termination_by xs.length
decreasing_by
  rw [List.length_drop]
  omega

end Pieces

example : reach [(3, 1), (4, 3), (5, 0)] = 2 ∧ reach [(3, 0), (4, 0), (5, 1)] = 2 := by decide

end TensorCalculus.Bulk
