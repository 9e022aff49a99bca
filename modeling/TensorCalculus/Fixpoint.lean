import TensorCalculus.Comparison
import TensorCalculus.Literal.Order
import TensorCalculus.Tensor.Basic

/-!
# Iteration to a fixpoint

An update is applied until no element moves by more than a tolerance, or until a limit is reached.
The search is written over any monad, since an update may fail or act on more than its argument. -/

namespace TensorCalculus

namespace Fixpoint

/-- How often an update is applied at the most, where nothing else is asked for. -/
def usualLimit : Int := 32

/-- How far a settled element may move, where nothing else is asked for. -/
def usualTolerance : Literal := .real 1e-6

structure Outcome (τ : Type) where
  value : τ
  /-- How often the update was applied, the last application without a change included. -/
  iterations : Int
  converged : Bool

section Search

variable {m : Type → Type} [Monad m] {τ α : Type}

/-- The search with a number of applications left after `done` of them. -/
def searchFrom (update : τ → m τ) (change : τ → τ → m α) (settled : α → m Bool) (limit : Int) :
    Nat → Nat → τ → m (Outcome τ)
  | 0, _, current => pure { value := current, iterations := limit, converged := false }
  | left + 1, done, current => do
    let next ← update current
    let moved ← change current next
    if ← settled moved then
      return { value := next, iterations := (done + 1 : Nat), converged := true }
    else searchFrom update change settled limit left (done + 1) next

/-- Applies the update until a change counts as settled. -/
def search (update : τ → m τ) (change : τ → τ → m α) (settled : α → m Bool) (limit : Int)
    (start : τ) : m (Outcome τ) :=
  searchFrom update change settled limit limit.toNat 0 start

/-- Whether a change is within a tolerance. -/
def within [LE α] [DecidableLE α] (tolerance moved : α) : Except Fault Bool :=
  .ok (decide (moved ≤ tolerance))

/-- Whether a change is within a tolerance that is given as a literal. -/
def withinLiteral (tolerance : Literal) (moved : Float) : Except Fault Bool :=
  Literal.stands .atMost (.real moved) tolerance

end Search

section Change

variable {α : Type}

/-- The greater of two amounts, where an amount that is not even comparable with itself prevails. -/
def prevailing [LE α] [DecidableLE α] (a b : α) : α :=
  if b ≤ a then a else if a ≤ a then b else a

variable [Zero α] [Sub α] [Neg α] [LT α] [DecidableLT α] [LE α] [DecidableLE α] [BEq α]

/-- How far an element has moved. Equal elements, infinities too, have not moved. -/
def moved (previous current : α) : α :=
  if current == previous then 0 else magnitude (current - previous)

/-- The greatest move of any element between two tensors of one shape. -/
def maxChange (previous current : Tensor α) : Except Fault α :=
  if previous.shape = current.shape then
    match List.zipWith moved previous.data.toList current.data.toList with
    | [] => .ok 0
    | d :: ds => .ok (ds.foldl prevailing d)
  else .error (.shape (.changedShape previous.dims current.dims) none none)

end Change

end Fixpoint

end TensorCalculus
