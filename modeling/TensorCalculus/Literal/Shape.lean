import TensorCalculus.Layout
import TensorCalculus.Literal.Basic

/-!
# Shapes as they are given

A shape and coordinates in it may be given as literals. The sizes are understood from the last axis
to the first, in the order in which strides are built up; a coordinate is understood just before it
is compared with the size of its axis, which a fault shows as it was given. -/

namespace TensorCalculus.Literal

/-- A list whose length is asked for first. -/
def counted (value : Literal) : Except Fault (List Literal) := do
  let _ ← value.count
  value.elements

/-- Whole numbers that are understood from the last one to the first. -/
def intsFromLast : List Literal → Except Fault (List Int)
  | [] => .ok []
  | value :: values => do
    let rest ← intsFromLast values
    return (← value.toInt) :: rest

/-- The sizes of a shape. A record has a length but no axes. -/
def sizes (shape : Literal) : Except Fault (List Int) := do
  let items ← shape.counted
  match shape, items with
  | record _, _ :: rest => .error (.unbound (toString rest.length))
  | _, _ => intsFromLast items

def strides (shape : Literal) : Except Fault (List Int) := do
  return Layout.strides (← shape.sizes)

/-- The flat offset of coordinates in a shape. -/
def offset (shape coords : Literal) : Except Fault Int := do
  let coords ← coords.counted
  let axes ← shape.counted
  if coords.length ≠ axes.length then
    .error (.bounds (.coordinateCount axes.length coords.length))
  else
    match Layout.locate toInt (← shape.sizes) coords with
    | .error (.bounds (.coordinate c axis size)) =>
      .error (.bounds (.coordinate c axis ((axes[axis]?.map shown).getD size)))
    | result => result

end TensorCalculus.Literal
