import TensorCalculus.Literal.Buffer
import TensorCalculus.Literal.Shape
import TensorCalculus.Tensor.Basic
import TensorCalculus.Tensor.Random
import TensorCalculus.Text.Case

/-!
# Building tensors

Tensors from literals: filled with one value, from a buffer, from rows, from a list of values, and
the identity. -/

namespace TensorCalculus.Tensor

open TensorCalculus.Layout TensorCalculus.Text

/-- A new buffer that holds one value a number of times. -/
def filledData (size : Int) (x : Float) : Except Fault (Array Float) := do
  checkBlock [size]
  return Array.replicate size.toNat x

/-- A new buffer of random values. -/
def drawnData (seed : UInt64) (size : Int) : Except Fault (Array Float) := do
  checkBlock [size]
  return (Random.draws seed size.toNat).toArray

/-- The elements that an initializer describes for a given number of elements. -/
def initialData (size : Int) : Literal → Except Fault (Array Float)
  | .text kind =>
    let key := lower kind
    if key = "zeros" then filledData size 0
    else if key = "ones" then filledData size 1
    else if key = "random" then drawnData 0 size
    else .error (.value (.initializer kind))
  | buffer => buffer.toBuffer

/-- What fills a tensor if nothing else is asked for. -/
def usualFilling : String := "zeros"

/-- A tensor filled by an initializer. The index names are looked at last. -/
def create (name : String) (indices : Pending (List String)) (shape : List Int)
    (initializer : Literal := .text usualFilling) : Except Fault (Tensor Float) := do
  checkDimensions shape
  let data ← initialData (volume shape) initializer
  make name (← indices) shape (.ok data)

/-- Every row must have as many items as there are columns. -/
def checkRows (columns : Nat) : Nat → List Literal → Except Fault Unit
  | _, [] => .ok ()
  | row, items :: rows => do
    let length ← items.count
    if length = columns then checkRows columns (row + 1) rows
    else .error (.shape (.matrixRow row length columns) none none)

def ofRows (name : String) (indices rows : Literal) : Except Fault (Tensor Float) := do
  let names ← indices.count
  if names ≠ 2 then .error (.shape (.matrixNames names) none none)
  else
    match rows, ← rows.counted with
    | _, [] => make name (← indices.toNames) [0, 0] (.ok #[])
    | .record _, _ => .error (.unbound "0")
    | _, first :: rest => do
      let columns ← first.count
      checkRows columns 0 (first :: rest)
      let data ← rows.toBuffer
      make name (← indices.toNames) [rest.length + 1, columns] (.ok data)

def ofValues (name index : String) (values : Literal) : Except Fault (Tensor Float) := do
  let data ← values.toBuffer
  make name [index] [data.size] (.ok data)

/-- A size that must be given as a whole number. -/
def wholeSize : Literal → Except Fault Int
  | .int n => .ok n
  | .bool _ => .error (.type (.wholeAxis ""))
  | other => .error (.type (.sizeKind other.kind))

/-- One where the two coordinates agree, zero elsewhere. -/
def identity (name : String) (indices : List String) (size : Literal) :
    Except Fault (Tensor Float) := do
  let n ← wholeSize size
  checkBlock [n, n]
  let data := (coordinates [n.toNat, n.toNat]).map fun c => if c.head? = c.getLast? then 1 else 0
  make name indices [n, n] (.ok data.toArray)

end TensorCalculus.Tensor
