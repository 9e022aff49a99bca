import TensorCalculus.Tower.Number

/-!
# Quaternions and rotations

A unit quaternion acts on vectors by a rotation. Its matrix is written down from the four
components, and an axis with an angle gives the quaternion of a rotation. -/

namespace TensorCalculus.Number

variable {α : Type} [Zero α] [One α] [Add α] [Sub α] [Mul α] [Div α]

/-- The rotation matrix of a unit quaternion, row by row. -/
def rotationRows (w x y z : α) : List (List α) :=
  let two : α := 1 + 1
  [[1 - two * (y * y + z * z), two * (x * y - w * z), two * (x * z + w * y)],
   [two * (x * y + w * z), 1 - two * (x * x + z * z), two * (y * z - w * x)],
   [two * (x * z - w * y), two * (y * z + w * x), 1 - two * (x * x + y * y)]]

def rotationMatrix? (q : Number α) : Option (List (List α)) :=
  match q.components with
  | [w, x, y, z] => some (rotationRows w x y z)
  | _ => none

/-- The quaternion that turns by an angle around an axis. -/
def ofAxisAngle [BEq α] (sqrt : α → α) (sin cos : α → Except Fault α) (axis : List α)
    (angle : Pending α) : Except Fault (Number α) := do
  match axis with
  | [x, y, z] =>
    let length := sqrt (x * x + y * y + z * z)
    if length == 0 then .error (.value .zeroAxis)
    else
      let half := (← angle) / (1 + 1)
      let s := (← sin half) / length
      makeExact .quaternion .quaternion [← cos half, s * x, s * y, s * z]
  | _ => .error (.value (.axisCount axis.length))

end TensorCalculus.Number
