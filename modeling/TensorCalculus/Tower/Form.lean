import TensorCalculus.Literal.Buffer
import TensorCalculus.Tower.Rotation

/-!
# Forms

A number is written down in one of several forms: as one list of components, part by part, or by an
axis and an angle. A form that names its parts refuses too few and too many of them; in some forms
the last parts may be left out and count as zero. -/

namespace TensorCalculus

/-- The name of a form that lists its parts, the parts themselves, and what is admitted. -/
structure Form where
  name : String
  parts : List String
  /-- Whether parts may be left out. -/
  optional : Bool := false
  /-- Whether the value to be formed is counted among the parts given. -/
  countsItself : Bool := false

namespace Form

/-- The parts given, filled up with zeros, if their number is admitted. -/
def complete (form : Form) (given : List Literal) : Except Fault (List Literal) :=
  let extra := if form.countsItself then 1 else 0
  let most := form.parts.length + extra
  let least := if form.optional then extra else most
  if form.parts.length < given.length then
    .error (.type (.surplusParts form.name least most (given.length + extra)))
  else
    match form.parts.drop given.length with
    | [] => .ok given
    | missing =>
      if form.optional then .ok (given ++ missing.map fun _ => .int 0)
      else .error (.type (.missingParts form.name missing))

def real : Form := { name := "real", parts := ["value"] }

def complex : Form := { name := "complex", parts := ["real", "imag"] }

def quaternion : Form := { name := "quaternion", parts := ["w", "x", "y", "z"] }

def complexParts : Form :=
  { name := "Complex.__init__", parts := ["real", "imag"], optional := true, countsItself := true }

def quaternionParts : Form :=
  { name := "Quaternion.__init__", parts := ["w", "x", "y", "z"], optional := true,
    countsItself := true }

def axisAngle : Form :=
  { name := "Quaternion.from_axis_angle", parts := ["axis", "angle"], countsItself := true }

end Form

namespace Number

/-- The number with the given parts as components. -/
def ofParts (form : Form) (view : View) (tag : AlgebraTag) (parts : List Literal) :
    Except Fault (Number Float) := do
  let parts ← form.complete parts
  makeIn view (← (Literal.list parts).toBuffer).toList (some tag)

/-- The number with exactly the listed components. -/
def ofListed (view : View) (tag : AlgebraTag) (components : Literal) :
    Except Fault (Number Float) := do
  makeExact view tag (← components.toBuffer).toList

/-- The same, where the components may also be given one by one. -/
def ofSpread (view : View) (tag : AlgebraTag) (components : List Literal) :
    Except Fault (Number Float) :=
  match components with
  | [.list items] => ofListed view tag (.list items)
  | _ => ofListed view tag (.list components)

/-- A function of an angle, which must not be infinite. -/
def ofAngle (f : Float → Float) (angle : Float) : Except Fault Float :=
  if angle.isInf then .error (.value .infiniteAngle) else .ok (f angle)

/-- The quaternion of a rotation, by its axis and its angle. -/
def ofRotation (parts : List Literal) : Except Fault (Number Float) := do
  let form := Form.axisAngle
  match ← form.complete parts with
  | [axis, angle] =>
    ofAxisAngle Float.sqrt (ofAngle Float.sin) (ofAngle Float.cos) (← axis.toBuffer).toList
      angle.toDouble
  | parts => .error (.type (.missingParts form.name (form.parts.drop parts.length)))

end Number

end TensorCalculus
