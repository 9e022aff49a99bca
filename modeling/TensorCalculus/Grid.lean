import TensorCalculus.Layout

/-!
# Grids

A grid is a block of elements with the sizes of its axes, at least none. Grids are combined place by
place. Where their shapes differ they are aligned at the last axis, and axes of size one, like axes
that are missing, are stretched to the size of their counterpart. -/

namespace TensorCalculus

open TensorCalculus.Layout

structure Grid (α : Type) where
  shape : List Nat
  data : Array α

namespace Grid

variable {α β γ : Type}

/-- The size two axes are stretched to. -/
def jointSize (m n : Nat) : Option Nat :=
  if m = n then some m else if m = 1 then some n else if n = 1 then some m else none

/-- The sizes that two lists of sizes, the last axis first, are stretched to. -/
def jointSizes : List Nat → List Nat → Option (List Nat)
  | [], ns => some ns
  | ms, [] => some ms
  | m :: ms, n :: ns => do
    let size ← jointSize m n
    let sizes ← jointSizes ms ns
    return size :: sizes

def jointShape? (s t : List Nat) : Option (List Nat) :=
  (jointSizes s.reverse t.reverse).map List.reverse

/-- The coordinates in a shape that coordinates in a stretched shape stand for. -/
def unstretched (shape coords : List Nat) : List Nat :=
  List.zipWith (fun size c => if size = 1 then 0 else c) shape
    (coords.drop (coords.length - shape.length))

/-- The element at coordinates of a stretched shape. -/
def elem? (g : Grid α) (coords : List Nat) : Option α :=
  g.data[offset g.shape (unstretched g.shape coords)]?

/-- Combines two grids place by place. -/
def zipWith (f : α → β → γ) (g : Grid α) (h : Grid β) : Except Fault (Grid γ) :=
  if g.shape = h.shape then .ok { shape := g.shape, data := Array.zipWith f g.data h.data }
  else
    match jointShape? g.shape h.shape with
    | none => .error (.value (.unequalShapes g.shape h.shape))
    | some shape =>
      let elements := (coordinates shape).filterMap fun c => do
        return f (← g.elem? c) (← h.elem? c)
      .ok { shape, data := elements.toArray }

/-- The size of the first axis. -/
def length (g : Grid α) : Except Fault Nat :=
  match g.shape with
  | [] => .error (.bounds .noAxes)
  | n :: _ => .ok n

/-- The parts of a grid before and from a place of the first axis. -/
def splitAt (place : Nat) (g : Grid α) : Except Fault (Grid α × Grid α) :=
  match g.shape with
  | [] => .error (.bounds .scalarIndexed)
  | n :: shape =>
    let front := min place n
    let cut := front * volume shape
    .ok ({ shape := front :: shape, data := g.data.extract 0 cut },
      { shape := (n - front) :: shape, data := g.data.extract cut g.data.size })

/-- The sizes that count when a grid is written into a vector: leading axes of size one do not. -/
def writtenShape : List Nat → List Nat
  | 1 :: n :: shape => writtenShape (n :: shape)
  | shape => shape

/-- The elements of a grid as the entries of a vector of a given length; a single element fills
it. -/
def toVector (length : Nat) (g : Grid α) : Except Fault (Array α) :=
  let shape := writtenShape g.shape
  let refused : Except Fault (Array α) := .error (.value (.assignment shape [length]))
  match shape, g.data[0]? with
  | [n], some x =>
    if n = length then .ok g.data else if n = 1 then .ok (Array.replicate length x) else refused
  | [], some x => .ok (Array.replicate length x)
  | [n], none => if n = length then .ok g.data else refused
  | _, _ => refused

/-- Negates everything behind the first place of the first axis. -/
def conjugate [Neg α] (g : Grid α) : Except Fault (Grid α) :=
  match g.shape with
  | [] => .error (.bounds .scalarIndexed)
  | 0 :: _ => .error (.bounds .noComponents)
  | _ :: shape =>
    let kept := volume shape
    .ok { g with data := g.data.mapIdx fun i x => if i < kept then x else -x }

section Product

variable [Add α] [Sub α] [Neg α] [Mul α]

/-- The doubling product along the first axis,

    (a, b) (c, d) = (a c - conj d b, d a + b conj c),

of two grids that need not have the same shape. The fuel bounds the depth; a factor that is empty
along its first axis is halved without end. -/
def productWithin : Nat → Grid α → Grid α → Except Fault (Grid α)
  | 0, _, _ => .error .recursion
  | fuel + 1, x, y => do
    let n ← x.length
    if n = 1 then zipWith (· * ·) x y
    else
      let h := n / 2
      let (a, b) ← x.splitAt h
      let (c, d) ← y.splitAt h
      let left ← zipWith (· - ·) (← productWithin fuel a c) (← productWithin fuel (← d.conjugate) b)
      let front ← left.toVector h
      let right ← zipWith (· + ·) (← productWithin fuel d a)
        (← productWithin fuel b (← c.conjugate))
      let back ← right.toVector (n - h)
      return { shape := [n], data := front ++ back }

/-- The doubling product. Each step halves the length of the first factor or leaves an empty
part. -/
def product (x y : Grid α) : Except Fault (Grid α) :=
  let length (g : Grid α) := g.shape.head?.getD 0
  productWithin (length x + length y + 1) x y

end Product

end Grid

end TensorCalculus
