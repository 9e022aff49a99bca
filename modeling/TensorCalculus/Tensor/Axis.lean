import TensorCalculus.Layout.Limits
import TensorCalculus.Literal.Arithmetic
import TensorCalculus.Tensor.Basic

/-!
# Operations along an axis

Transposition, slicing, and the combination of a tensor with a vector along one of its axes. All of
them move or pair elements by coordinates, and so need a shape in which the elements can be laid
out. An axis is given as a literal: it is compared with the rank like any number, and has to be
whole once it is used. -/

namespace TensorCalculus.Tensor

open TensorCalculus.Layout

variable {α : Type}

theorem inRange_pair {m n i j : Nat} (h : InRange [m, n] [i, j]) : InRange [n, m] [j, i] :=
  ⟨h.2.1, h.1, trivial⟩

/-- Whether the elements can be laid out in the tensor's shape. -/
def checkLayout (t : Tensor α) : Except Fault Unit :=
  checkRegrouping t.data.size t.shape

/-- Exchanges the two axes of a matrix. -/
def transpose (t : Tensor α) : Except Fault (Tensor α) :=
  match hs : t.shape, t.indices with
  | [rows, columns], [row, column] => do
    t.checkLayout
    return tabulate t.name [column, row] [columns, rows] rfl fun c h =>
      match c, h with
      | [j, i], h => t.elem [i, j] (hs ▸ inRange_pair h)
  | _, _ => .error (.shape (.transposeRank t.rank) none none)

theorem inRange_insertIdx {shape c : List Nat} {axis index : Nat} (ha : axis < shape.length)
    (hi : index < shape[axis]) (h : InRange (shape.eraseIdx axis) c) :
    InRange shape (c.insertIdx axis index) := by
  induction axis generalizing shape c with
  | zero =>
    cases shape with
    | nil => simp at ha
    | cons d ds => exact ⟨hi, h⟩
  | succ axis ih =>
    cases shape with
    | nil => simp at ha
    | cons d ds =>
      cases c with
      | nil => exact h.elim
      | cons c cs =>
        exact ⟨h.1, ih (by simpa using ha) (by simpa using hi) h.2⟩

/-- Whether a number lies between zero and a limit, the limit excluded. The lower end is looked at
first. -/
def isWithin (limit : Int) (value : Literal) : Except Fault Bool := do
  if ← Literal.stands .atMost (.int 0) value then Literal.stands .less value (.int limit)
  else return false

/-- The number of an axis that lies in range: it must be whole. -/
def axisNumber (axis : Literal) : Except Fault Nat :=
  match axis with
  | .int n => .ok n.toNat
  | .bool b => .ok (if b then 1 else 0)
  | other => .error (.type (.axisKind other.kind))

/-- An axis of the given rank, or a fault when the axis lies out of range. -/
def axisWithin (axis : Literal) (rank : Nat) : Except Fault Nat := do
  if ← isWithin rank axis then axisNumber axis else .error (.value (.axis axis.shown rank))

/-- Elements are gathered only along an axis that is given as a whole number. -/
def checkWholeAxis : Literal → Except Fault Unit
  | .bool _ => .error (.type (.wholeAxis " for the axis"))
  | _ => .ok ()

/-- The tensor at one place of an axis, without that axis. -/
def sliceAt (t : Tensor α) (axis index : Nat) (inside : axis < t.shape.length)
    (within : index < t.shape[axis]) : Tensor α :=
  have named : (t.indices.eraseIdx axis).length = (t.shape.eraseIdx axis).length := by
    simp [List.length_eraseIdx, t.length_indices]
  tabulate t.name (t.indices.eraseIdx axis) (t.shape.eraseIdx axis) named fun c h =>
    t.elem (c.insertIdx axis index) (inRange_insertIdx inside within h)

/-- Fixes one coordinate and drops its axis. A place between two whole numbers is the lower one. -/
def slice (t : Tensor α) (axis index : Literal) : Except Fault (Tensor α) := do
  if ← isWithin t.rank axis then
    let nonnegative ← Literal.stands .atMost (.int 0) index
    let a ← axisNumber axis
    if inside : a < t.shape.length then
      let size := t.shape[a]
      let below ← if nonnegative then Literal.stands .less index (.int size) else pure false
      if below then
        t.checkLayout
        checkWholeAxis axis
        let i ← index.toInt
        if within : i.toNat < t.shape[a] then return t.sliceAt a i.toNat inside within
        else .error (.bounds (.slice index.shown axis.shown size))
      else .error (.bounds (.slice index.shown axis.shown size))
    else .error (.value (.axis axis.shown t.rank))
  else .error (.value (.axis axis.shown t.rank))

theorem getElem_lt_of_inRange {shape coords : List Nat} {axis : Nat} (h : InRange shape coords)
    (ha : axis < shape.length) (hc : axis < coords.length) : coords[axis] < shape[axis] := by
  induction axis generalizing shape coords with
  | zero =>
    cases shape with
    | nil => simp at ha
    | cons d ds =>
      cases coords with
      | nil => exact h.elim
      | cons c cs => exact h.1
  | succ axis ih =>
    cases shape with
    | nil => simp at ha
    | cons d ds =>
      cases coords with
      | nil => exact h.elim
      | cons c cs => exact ih h.2 (by simpa using ha) (by simpa using hc)

/-- Combines every element with the entry of a vector that its coordinate on one axis selects. -/
def alongAxis (f : α → α → α) (t v : Tensor α) (axis : Nat) (ha : axis < t.shape.length)
    (hv : v.shape = [t.shape[axis]]) : Tensor α :=
  tabulate t.name t.indices t.shape t.length_indices fun coords h =>
    have hc : axis < coords.length := h.length_eq ▸ ha
    have selected : InRange v.shape [coords[axis]] := by
      rw [hv]
      exact ⟨getElem_lt_of_inRange h ha hc, trivial⟩
    f (t.elem coords h) (v.elem [coords[axis]] selected)

/-- A negative axis counts from the last one. -/
def wrappedAxis (axis : Literal) (rank : Nat) : Except Fault Literal := do
  if ← Literal.stands .atLeast axis (.int 0) then return axis else Literal.add (.int rank) axis

/-- Broadcasts a vector along an axis. -/
def broadcast (operation : String) (f : α → α → α) (t v : Tensor α) (axis : Literal) :
    Except Fault (Tensor α) :=
  match hv : v.shape with
  | [length] => do
    if t.rank = 0 then .error (.shape (.broadcastOntoScalar operation) none none)
    else
      let axis ← wrappedAxis axis t.rank
      let a ← axisWithin axis t.rank
      if inside : a < t.shape.length then
        if fits : t.shape[a] = length then
          checkAxes t.rank
          t.checkLayout
          return alongAxis f t v a inside (fits ▸ hv)
        else .error (.shape (.broadcastLength operation length axis.shown t.shape[a]) (some 1) none)
      else .error (.value (.axis axis.shown t.rank))
  | _ => .error (.shape (.broadcastRank operation v.rank) none none)

def broadcastAdd [Add α] (t v : Tensor α) (axis : Literal := lastAxis) : Except Fault (Tensor α) :=
  broadcast "broadcast_add" (· + ·) t v axis

def broadcastMultiply [Mul α] (t v : Tensor α) (axis : Literal := lastAxis) :
    Except Fault (Tensor α) :=
  broadcast "broadcast_multiply" (· * ·) t v axis

end TensorCalculus.Tensor
