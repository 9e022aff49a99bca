import TensorCalculus.Literal.Layout
import TensorCalculus.Tower.Number

/-!
# Printing numbers

Complex numbers and quaternions are written with their units; other numbers list their components,
or only the first one when there are more than eight. -/

namespace TensorCalculus.Number

open TensorCalculus.Text

/-- The sign of an imaginary part; what is not below zero is added. -/
def signOf (im : Float) : String :=
  if im < 0 then "-" else "+"

/-- The components that are printed: all of them, or of more than eight only the first. -/
def printedComponents (x : Number Float) : List Float :=
  if x.components.length ≤ 8 then x.components else x.components.take 1

/-- The text around components that have been written. -/
def arrangedText (x : Number Float) (texts : List String) : String :=
  match x.view, x.components, texts with
  | .complex, [_, im], [re, size] => re ++ " " ++ signOf im ++ " " ++ size ++ "i"
  | .quaternion, _, [w, x, y, z] => w ++ " + " ++ x ++ "i + " ++ y ++ "j + " ++ z ++ "k"
  | _, components, texts =>
    if components.length ≤ 8 then commaSeparated texts
    else texts.head?.getD "" ++ s!", ... [{components.length} components]"

/-- The components without signs that the text writes by itself. -/
def unsigned (x : Number Float) : List Float :=
  match x.view, x.components with
  | .complex, [re, im] => [re, im.abs]
  | _, _ => x.printedComponents

def toText (places : Pending Nat) (x : Number Float) : Except Fault String := do
  return x.arrangedText (← x.unsigned.mapM (Literal.fixed places))

/-- The text of a number after the name of its form. -/
def described (x : Number Float) : String :=
  x.view.name ++ "(" ++ x.arrangedText (x.unsigned.map (Decimal.fixed 3)) ++ ")"

end TensorCalculus.Number
