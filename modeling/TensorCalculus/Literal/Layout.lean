import TensorCalculus.Decimal.Layout
import TensorCalculus.Literal.Basic

/-!
# Layouts asked for by a literal

How many places are printed behind the point is itself a literal. It is shown, as it is, between the
point and the letter of a layout, so only what is shown as digits has a meaning there. A number of
places counts as a fault only from the moment something is printed with it. -/

namespace TensorCalculus.Literal

open TensorCalculus.Text

/-- The greatest number that a layout can hold. -/
def layoutLimit : Nat := 0x7fffffffffffffff

/-- The greatest number of places that can be asked for. -/
def placesLimit : Nat := 0x7fffffff

/-- The number of places where none is given. -/
def usualPlaces : Literal := .int 3

/-- The number of places that stands between the point and the letter of a layout. -/
def placesOf (shown : List Char) : Except Fault Nat :=
  let digits := (shown.takeWhile fun c => (decimalValue? c).isSome).filterMap decimalValue?
  let places := Decimal.ofDigitValues digits
  if digits.isEmpty then .error (.value .missingPlaces)
  else if layoutLimit < places then .error (.value .longPlaces)
  else if digits.length < shown.length then
    .error (.value (.placesSpecifier ("." ++ String.ofList shown ++ "f")))
  else if placesLimit < places then .error (.value .manyPlaces)
  else .ok places

def toPlaces (value : Literal) : Pending Nat :=
  placesOf value.shown.toList

/-- A double with a number of places behind the point. -/
def fixed (places : Pending Nat) (x : Float) : Except Fault String := do
  return Decimal.fixed (← places) x

/-- A literal in a layout with a given number of places behind the point. -/
def fixedLiteral (places : Nat) : Literal → Except Fault String
  | bool value => .ok (Decimal.fixed places (if value then 1 else 0))
  | int value => do return Decimal.fixed places (← doubleOfInt value)
  | real value => .ok (Decimal.fixed places value)
  | text value => .error (.value (.layoutCode "f" (text value).kind))
  | other => .error (.type (.noLayout other.kind))

/-- A whole number with a least number of digits. -/
def paddedInt (width : Nat) (n : Int) : String :=
  if n < 0 then "-" ++ String.ofList (Decimal.padded (width - 1) n.natAbs)
  else String.ofList (Decimal.padded width n.natAbs)

/-- A literal in a layout for whole numbers with a least number of digits. -/
def paddedLiteral (width : Nat) : Literal → Except Fault String
  | bool value => .ok (paddedInt width (if value then 1 else 0))
  | int value => .ok (paddedInt width value)
  | real value => .error (.value (.layoutCode "d" (real value).kind))
  | text value => .error (.value (.layoutCode "d" (text value).kind))
  | other => .error (.type (.noLayout other.kind))

example : (placesOf "03".toList).toOption = some 3 ∧ (placesOf "2.0".toList).toOption = none ∧
    paddedInt 2 (-4) = "-4" := by
  decide +kernel

end TensorCalculus.Literal
