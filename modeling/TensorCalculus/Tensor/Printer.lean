import TensorCalculus.Literal.Layout
import TensorCalculus.Tensor.Basic
import TensorCalculus.Text.Listing

/-!
# Printing tensors

Vectors are printed in one line, matrices row by row, tensors with three axes as matrices under the
first index, and all others by their sizes and their first twenty values. -/

namespace TensorCalculus.Tensor

open TensorCalculus.Text

variable {α : Type}

def bracketed (items : List String) : String :=
  "[" ++ commaSeparated items ++ "]"

/-- The part of a list that a row takes up. -/
def rowOf (columns row : Nat) (values : List String) : List String :=
  (values.drop (row * columns)).take columns

def matrixText (rows columns : Nat) (values : List String) : String :=
  let lines := (List.range rows).map fun r => "  " ++ bracketed (rowOf columns r values)
  "[\n" ++ ",\n".intercalate lines ++ "\n]"

def cubeText (index : String) (slices rows columns : Nat) (values : List String) : String :=
  let slice (i : Nat) : String :=
    let lines :=
      (List.range rows).map fun j => "    " ++ bracketed (rowOf columns (i * rows + j) values)
    s!"  {index}={i}:\n" ++ ",\n".intercalate lines
  "[\n" ++ "\n\n".intercalate ((List.range slices).map slice) ++ "\n]"

/-- Sizes and index names. -/
def heading (t : Tensor α) : String :=
  "Tensor(shape=" ++ bracketed (t.shape.map toString) ++ ", indices=" ++ bracketed t.indices ++ ")"

def sampleText (heading : String) (values : List String) : String :=
  let sample := values.take 20
  let left := values.length - sample.length
  let more := if left = 0 then "" else s!" ... ({left} more)"
  heading ++ s!"\nFirst {sample.length} values: " ++ bracketed sample ++ more

/-- The text of a tensor whose elements have been written. -/
def arrangedText (t : Tensor α) (values : List String) : String :=
  match t.shape, t.indices with
  | [], _ => t.heading ++ " value=" ++ values.head?.getD ""
  | [_], _ => bracketed values
  | [rows, columns], _ => matrixText rows columns values
  | [slices, rows, columns], index :: _ => cubeText index slices rows columns values
  | _, _ => sampleText t.heading values

/-- The text of a tensor, with a number of places behind each point. -/
def toText (places : Pending Nat) (t : Tensor Float) : Except Fault String := do
  return t.arrangedText (← t.data.toList.mapM (Literal.fixed places))

end TensorCalculus.Tensor
