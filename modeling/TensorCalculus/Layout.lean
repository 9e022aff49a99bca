import TensorCalculus.Fault

/-!
# Row-major layout

A shape lists the size of every axis. The elements lie in one flat buffer in which the last axis
varies fastest, so the stride of an axis is the volume of the axes behind it. Shapes of natural
numbers belong to tensors; whole numbers are admitted where sizes are still to be checked. -/

namespace TensorCalculus.Layout

section Arithmetic

variable {α : Type} [Mul α] [OfNat α 1]

/-- The number of elements of a shape. -/
def volume : List α → α
  | [] => 1
  | d :: ds => d * volume ds

def strides : List α → List α
  | [] => []
  | _ :: ds => volume ds :: strides ds

/-- The place of coordinates in the flat buffer. -/
def offset [Add α] [OfNat α 0] : List α → List α → α
  | _ :: ds, c :: cs => c * volume ds + offset ds cs
  | _, _ => 0

@[simp]
theorem volume_nil : volume ([] : List α) = 1 := rfl

@[simp]
theorem volume_cons (d : α) (ds : List α) : volume (d :: ds) = d * volume ds := rfl

@[simp]
theorem length_strides (shape : List α) : (strides shape).length = shape.length := by
  induction shape with
  | nil => rfl
  | cons d ds ih => simp [strides, ih]

end Arithmetic

/-- One coordinate for every axis, each below the axis's size. -/
def InRange : List Nat → List Nat → Prop
  | [], [] => True
  | d :: ds, c :: cs => c < d ∧ InRange ds cs
  | _, _ => False

instance decidableInRange : (shape coords : List Nat) → Decidable (InRange shape coords)
  | [], [] => inferInstanceAs (Decidable True)
  | _ :: ds, _ :: cs =>
    have := decidableInRange ds cs
    inferInstanceAs (Decidable (_ ∧ _))
  | [], _ :: _ => inferInstanceAs (Decidable False)
  | _ :: _, [] => inferInstanceAs (Decidable False)

theorem InRange.length_eq {shape coords : List Nat} (h : InRange shape coords) :
    coords.length = shape.length := by
  induction shape generalizing coords with
  | nil => cases coords <;> simp_all [InRange]
  | cons d ds ih =>
    cases coords with
    | nil => exact h.elim
    | cons c cs => simpa using ih h.2

theorem offset_lt_volume {shape coords : List Nat} (h : InRange shape coords) :
    offset shape coords < volume shape := by
  induction shape generalizing coords with
  | nil => cases coords <;> simp [offset]
  | cons d ds ih =>
    cases coords with
    | nil => exact h.elim
    | cons c cs =>
      have rest := ih h.2
      have step : (c + 1) * volume ds ≤ d * volume ds := Nat.mul_le_mul_right _ h.1
      simp only [offset, volume_cons]
      rw [Nat.add_mul, Nat.one_mul] at step
      omega

/-- The coordinates of a shape without an empty axis. -/
def coordinatesFrom : List Nat → List (List Nat)
  | [] => [[]]
  | d :: ds => (List.range d).flatMap fun c => (coordinatesFrom ds).map (c :: ·)

/-- All coordinates of a shape, the last axis varying fastest. An empty axis leaves none, however
large the others are. -/
def coordinates (shape : List Nat) : List (List Nat) :=
  if volume shape = 0 then [] else coordinatesFrom shape

theorem mem_coordinatesFrom {shape coords : List Nat} :
    coords ∈ coordinatesFrom shape ↔ InRange shape coords := by
  induction shape generalizing coords with
  | nil => cases coords <;> simp [coordinatesFrom, InRange]
  | cons d ds ih => cases coords <;> simp [coordinatesFrom, InRange, ih]

theorem length_coordinatesFrom (shape : List Nat) :
    (coordinatesFrom shape).length = volume shape := by
  induction shape with
  | nil => rfl
  | cons d ds ih =>
    simp only [coordinatesFrom, List.length_flatMap, List.length_map, ih, volume_cons]
    induction d with
    | zero => simp
    | succ d step =>
      rw [List.range_succ, List.map_append, List.sum_append, step]
      simp [Nat.add_mul]

@[simp]
theorem mem_coordinates {shape coords : List Nat} : coords ∈ coordinates shape ↔
    InRange shape coords := by
  unfold coordinates
  split
  case isTrue empty =>
    simp only [List.not_mem_nil, false_iff]
    intro inside
    have := offset_lt_volume inside
    omega
  case isFalse => exact mem_coordinatesFrom

@[simp]
theorem length_coordinates (shape : List Nat) : (coordinates shape).length = volume shape := by
  unfold coordinates
  split
  case isTrue empty => simp [empty]
  case isFalse => exact length_coordinatesFrom shape

/-- The flat offset of coordinates that are still to be understood. Axes are checked from the first
on, each coordinate being understood just before it is compared with the axis's size. -/
def locateFrom {κ : Type} (understand : κ → Except Fault Int) : Nat → List Int → List κ →
    Except Fault Int
  | axis, d :: ds, c :: cs => do
    let c ← understand c
    if 0 ≤ c ∧ c < d then
      let rest ← locateFrom understand (axis + 1) ds cs
      return c * volume ds + rest
    else .error (.bounds (.coordinate c axis (toString d)))
  | _, _, _ => .ok 0

def locate {κ : Type} (understand : κ → Except Fault Int) (shape : List Int) (coords : List κ) :
    Except Fault Int :=
  if coords.length = shape.length then locateFrom understand 0 shape coords
  else .error (.bounds (.coordinateCount shape.length coords.length))

/-- The flat offset of coordinates, or the first reason why they name no element. -/
def flatOffset (shape coords : List Int) : Except Fault Int :=
  locate .ok shape coords

example : strides [2, 3, (4 : Nat)] = [12, 4, 1] ∧
    coordinates [2, 2] = [[0, 0], [0, 1], [1, 0], [1, 1]] := by
  decide

end TensorCalculus.Layout
