import TensorCalculus.Grid
import TensorCalculus.Literal.Arithmetic
import TensorCalculus.Literal.Buffer
import TensorCalculus.Tower.Number

/-!
# Terms

What stands beside an operator need not be a hypercomplex number: it may be a literal, a block of
literals, or something else altogether that is only known by the name of its type. Operators on
terms say which combinations have a meaning: numbers with numbers, products and quotients of a
number and a scalar, and literals among themselves. A block beside a number stands for each of its
entries. -/

namespace TensorCalculus

inductive Term (α : Type) where
  | number (x : Number α)
  | plain (value : Literal)
  | block (kind : String) (entries : Grid Literal)
  | numbers (entries : Grid (Number α))
  | foreign (kind : String)

namespace Term

variable {α : Type}

def kind : Term α → String
  | number x => x.view.name
  | plain value => value.kind
  | block kind _ => kind
  | numbers _ => "ndarray"
  | foreign kind => kind

def number? : Term α → Option (Number α)
  | number x => some x
  | _ => none

/-- The number, where an operation of numbers takes nothing else beside `left`. -/
def expectBeside (operation : String) (left : Number α) : Term α → Except Fault (Number α)
  | number x => .ok x
  | other => .error (.algebra (.foreign operation left.algebra.name other.kind))

/-- Whether a term can be joined with its like and repeated. -/
def isSequence : Term α → Bool
  | plain value => value.isSequence
  | foreign kind => kind == "tuple" || kind == "list"
  | _ => false

def refused (operator : String) (x y : Term α) : Fault :=
  .type (.operands operator x.kind y.kind)

/-- Results for the entries of a block. A block without axes has one entry, and so has its
result. -/
def gathered (shape : List Nat) (results : Array (Term α)) : Term α :=
  match shape, results[0]? with
  | [], some result => result
  | _, _ => numbers { shape, data := results.filterMap number? }

/-- Lets an operator act on the entries of a block that stands beside a number. -/
def spread (f : Term α → Term α → Except Fault (Term α)) : Term α → Term α → Except Fault (Term α)
  | block _ entries, number y => do
    return gathered entries.shape (← entries.data.mapM fun value => f (plain value) (number y))
  | number x, block _ entries => do
    return gathered entries.shape (← entries.data.mapM fun value => f (number x) (plain value))
  | x, y => f x y

def plusSingle [Add α] : Term α → Term α → Except Fault (Term α)
  | number x, number y => do return .number (← x.add y)
  | plain x, plain y => do return .plain (← x.add y)
  | x, y =>
    if x.isSequence then .error (.type (.concatenation x.kind y.kind)) else .error (refused "+" x y)

def plus [Add α] : Term α → Term α → Except Fault (Term α) :=
  spread plusSingle

def minusSingle [Sub α] : Term α → Term α → Except Fault (Term α)
  | number x, number y => do return .number (← x.sub y)
  | plain x, plain y => do return .plain (← x.sub y)
  | x, y => .error (refused "-" x y)

def minus [Sub α] : Term α → Term α → Except Fault (Term α) :=
  spread minusSingle

/-- The product of a number with something that is no number. -/
def scaled (x : Number Float) (factor : Term Float) (fault : Fault) : Except Fault (Term Float) :=
  match factor with
  | plain value =>
    match value.amount? with
    | some amount => do return .number (x.scale (← amount.toDouble))
    | none => if value.isSequence then .error (.type (.repetition x.view.name)) else .error fault
  | other => if other.isSequence then .error (.type (.repetition x.view.name)) else .error fault

def timesSingle : Term Float → Term Float → Except Fault (Term Float)
  | number x, number y => do return .number (← x.mul y)
  | plain x, plain y => do return .plain (← x.mul y)
  | number x, y => scaled x y (refused "*" (number x) y)
  | x, number y => scaled y x (refused "*" x (number y))
  | x, y => .error (refused "*" x y)

def times : Term Float → Term Float → Except Fault (Term Float) :=
  spread timesSingle

def dividedBySingle : Term Float → Term Float → Except Fault (Term Float)
  | number x, number y => do return .number (← x.div y)
  | plain x, plain y => do return .plain (← x.div y)
  | number x, plain y =>
    match y.amount? with
    | some amount => do return .number (x.divideBy (← amount.toDouble))
    | none => .error (refused "/" (number x) (plain y))
  | x, y => .error (refused "/" x y)

def dividedBy : Term Float → Term Float → Except Fault (Term Float) :=
  spread dividedBySingle

def neg [Neg α] : Term α → Except Fault (Term α)
  | number x => .ok (.number x.neg)
  | plain x => do return .plain (← x.neg)
  | block kind entries => do
    return .block kind { entries with data := ← entries.data.mapM Literal.neg }
  | numbers entries => .ok (.numbers { entries with data := entries.data.map Number.neg })
  | foreign kind => .error (.type (.lone "unary -" kind))

/-- The norm of a number, or the magnitude of a literal, or those of all entries of a block. -/
def abs (norm : Number α → Literal) : Term α → Except Fault Literal
  | number x => .ok (norm x)
  | plain x => x.abs
  | block _ entries => do return .nest entries.shape (← entries.data.mapM Literal.abs).toList
  | numbers entries => .ok (.nest entries.shape (entries.data.map norm).toList)
  | foreign kind => .error (.type (.lone "abs()" kind))

def isEqual : Term Float → Term Float → Bool
  | number x, number y => x.isEqual y
  | plain x, plain y => x.same y
  | _, _ => false

/-- What can be changed after it was made cannot be a member of a set. -/
def checkMember (x : Term α) : Except Fault Unit :=
  let changeable := ["list", "dict", "Tensor", "HypercomplexTensor", "PLNTensor", "ModalTensor",
    "FixpointResult", "ndarray"]
  if x.kind = "ndarray" then .error (.type (.unhashable "numpy.ndarray"))
  else if x.kind = "ContractionPlan" then .error (.type (.unhashable "dict"))
  else if changeable.contains x.kind then .error (.type (.unhashable x.kind))
  else .ok ()

/-- How many different terms a list holds. -/
def distinctCount (xs : List (Term Float)) : Except Fault Nat := do
  xs.forM checkMember
  return (xs.foldl (fun seen x => if seen.any (isEqual x) then seen else x :: seen) []).length

end Term

/-- How far apart the components of equal numbers may be where nothing else is given. -/
def Number.usualDistance : Literal := .real 1e-10

/-- Whether all components are within a distance that is given as a literal, which is looked at only
when there are components to compare. -/
def Number.isWithin (x y : Number Float) (distance : Literal := usualDistance) :
    Except Fault Bool :=
  if x.dimension ≠ y.dimension then .ok false
  else
    match distance.amount? with
    | some amount => do return x.isClose (← amount.toDouble) y
    | none =>
      if x.dimension = 0 then .ok true
      else .error (.type (.order Relation.atMost.symbol (Literal.real 0).kind distance.kind))

end TensorCalculus
