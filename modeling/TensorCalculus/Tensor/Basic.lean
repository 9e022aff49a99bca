import TensorCalculus.Contraction
import TensorCalculus.Layout
import TensorCalculus.Literal.Basic

/-!
# Tensors

A tensor has a name, an index name and a size for every axis, and its elements in one row-major
buffer. The counts always agree. Elements are reached by coordinates, either in range by proof or
checked on the way. -/

namespace TensorCalculus

open TensorCalculus.Layout

variable {α β γ : Type}

structure Tensor (α : Type) where
  name : String
  indices : List String
  shape : List Nat
  data : Array α
  length_indices : indices.length = shape.length
  size_data : data.size = volume shape

namespace Tensor

/-- The axis that is meant where none is given. -/
def lastAxis : Literal := .int (-1)

def rank (t : Tensor α) : Nat :=
  t.shape.length

/-- The shape as whole numbers, for comparison with sizes that may be out of order. -/
def dims (t : Tensor α) : List Int :=
  t.shape.map Int.ofNat

def checkDimensions (shape : List Int) : Except Fault Unit :=
  if shape.any (· < 0) then .error (.shape (.negativeDimension shape) none none) else .ok ()

/-- A tensor from its parts. Sizes are checked first, then the number of index names, and the data,
which may be at fault themselves, last. -/
def make (name : String) (indices : List String) (shape : List Int) (data : Pending (Array α)) :
    Except Fault (Tensor α) := do
  checkDimensions shape
  let sizes := shape.map Int.toNat
  if named : indices.length = sizes.length then
    let data ← data
    if filled : data.size = volume sizes then
      return { name, indices, shape := sizes, data, length_indices := named, size_data := filled }
    else .error (.shape (.elementCount name shape (volume shape) data.size) none none)
  else .error (.shape (.indexCount name indices.length sizes.length) none none)

/-- The element at coordinates that are in range. -/
def elem (t : Tensor α) (c : List Nat) (h : InRange t.shape c) : α :=
  have bound : offset t.shape c < t.data.size := t.size_data ▸ offset_lt_volume h
  t.data[offset t.shape c]

def elem? (t : Tensor α) (c : List Nat) : Option α :=
  if h : InRange t.shape c then some (t.elem c h) else none

/-- The tensor with a given element at every coordinate. -/
def tabulate (name : String) (indices : List String) (shape : List Nat)
    (named : indices.length = shape.length) (f : (c : List Nat) → InRange shape c → α) :
    Tensor α where
  name := name
  indices := indices
  shape := shape
  data := ((coordinates shape).attach.map fun c => f c.1 (mem_coordinates.1 c.2)).toArray
  length_indices := named
  size_data := by simp

/-- The same tensor with other elements. -/
def withData (t : Tensor α) (data : Array β) (h : data.size = t.data.size) : Tensor β :=
  { t with data, size_data := h.trans t.size_data }

def map (f : α → β) (t : Tensor α) : Tensor β :=
  t.withData (t.data.map f) (by simp)

/-- Combines the elements of a tensor with those of another one of the same shape. -/
def zipWith (f : α → β → γ) (s : Tensor α) (t : Tensor β) (h : s.shape = t.shape) : Tensor γ :=
  s.withData (Array.zipWith f s.data t.data) (by simp [s.size_data, t.size_data, h])

/-- The offset that coordinates name, or the first fault in them. -/
def locate {κ : Type} (understand : κ → Except Fault Int) (t : Tensor α) (coords : List κ) :
    Except Fault Int :=
  Layout.locate understand t.dims coords

def get {κ : Type} (understand : κ → Except Fault Int) (t : Tensor α) (coords : List κ) :
    Except Fault α := do
  Contraction.readAt t.data (← t.locate understand coords)

def set {κ : Type} (understand : κ → Except Fault Int) (t : Tensor α) (coords : List κ) (x : α) :
    Except Fault (Tensor α) := do
  let place ← t.locate understand coords
  return t.withData (t.data.setIfInBounds place.toNat x) (by simp)

@[simp]
theorem shape_map (f : α → β) (t : Tensor α) : (t.map f).shape = t.shape := rfl

@[simp]
theorem indices_map (f : α → β) (t : Tensor α) : (t.map f).indices = t.indices := rfl

@[simp]
theorem data_map (f : α → β) (t : Tensor α) : (t.map f).data = t.data.map f := rfl

@[simp]
theorem elem_map (f : α → β) (t : Tensor α) (c : List Nat) (h : InRange t.shape c) :
    (t.map f).elem c h = f (t.elem c h) := by
  simp [elem, map, withData]

theorem elem?_eq_some {t : Tensor α} {c : List Nat} (h : InRange t.shape c) :
    t.elem? c = some (t.elem c h) := by
  simp [elem?, h]

end Tensor

end TensorCalculus
