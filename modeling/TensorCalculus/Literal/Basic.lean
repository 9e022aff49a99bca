import TensorCalculus.Decimal.Numeral
import TensorCalculus.Decimal.Shortest
import TensorCalculus.Fault

/-!
# Literals

A literal is a value as a request writes it, before anything is known of its role: settings,
coordinates, sizes and element data all arrive as literals. The conversions say what a literal means
as a truth value, as a whole number and as a number, and how it is shown in a message. -/

namespace TensorCalculus

open TensorCalculus.Text

inductive Literal where
  | null
  | bool (value : Bool)
  | int (value : Int)
  | real (value : Float)
  | text (value : String)
  | list (items : List Literal)
  | record (fields : List (String × Literal))
  deriving Inhabited

namespace Literal

/-- The name of a literal's type in messages. -/
def kind : Literal → String
  | null => "NoneType"
  | bool _ => "bool"
  | int _ => "int"
  | real _ => "float"
  | text _ => "str"
  | list _ => "list"
  | record _ => "dict"

/-- Zero, the empty collections and null count as false. -/
def isTrue : Literal → Bool
  | null => false
  | bool value => value
  | int value => value != 0
  | real value => value != 0
  | text value => !value.isEmpty
  | list items => !items.isEmpty
  | record fields => !fields.isEmpty

mutual

/-- How a literal is written inside a collection; text is quoted there. -/
def written : Literal → String
  | null => "None"
  | bool true => "True"
  | bool false => "False"
  | int value => toString value
  | real value => Decimal.shortest value
  | text value => quote value
  | list items => "[" ++ commaSeparated (writtenItems items) ++ "]"
  | record fields => "\x7b" ++ commaSeparated (writtenFields fields) ++ "\x7d"

def writtenItems : List Literal → List String
  | [] => []
  | item :: items => written item :: writtenItems items

def writtenFields : List (String × Literal) → List String
  | [] => []
  | (key, value) :: fields => (quote key ++ ": " ++ written value) :: writtenFields fields

end

/-- How a literal is shown by itself; text stands as it is. -/
def shown : Literal → String
  | text value => value
  | value => value.written

/-- The whole part of a double, or the reason why it has none. -/
def wholePart (x : Float) : Except Fault Int :=
  match Decimal.wholePart? x with
  | some n => .ok n
  | none => if x.isNaN then .error (.value .nanToInteger) else .error (.range .infinityToInteger)

def doubleOfInt (n : Int) : Except Fault Float :=
  match Decimal.ofInt? n with
  | some x => .ok x
  | none => .error (.range .integerTooLarge)

/-- The whole number that a text writes. -/
def wholeOfText (value : String) : Except Fault Int :=
  let digits := Decimal.numeralDigits value.toList
  if digitLimit < digits then .error (.value (.longNumeral digits))
  else
    match Decimal.readInt? value with
    | some n => .ok n
    | none => .error (.value (.notInteger value))

/-- A literal as a whole number; fractions are cut toward zero and numerals are read. -/
def toInt : Literal → Except Fault Int
  | bool value => .ok (if value then 1 else 0)
  | int value => .ok value
  | real value => wholePart value
  | text value => wholeOfText value
  | other => .error (.type (.toInteger other.kind))

/-- A literal as a double. -/
def toDouble : Literal → Except Fault Float
  | bool value => .ok (if value then 1 else 0)
  | int value => doubleOfInt value
  | real value => .ok value
  | text value =>
    match Decimal.readFloat? value with
    | some x => .ok x
    | none => .error (.value (.notFraction value))
  | other => .error (.type (.toFraction other.kind))

/-- The things a literal lists: items, the characters of a text, or the keys of a record. -/
def elements : Literal → Except Fault (List Literal)
  | list items => .ok items
  | text value => .ok (value.toList.map fun c => text (String.singleton c))
  | record fields => .ok (fields.map fun field => text field.1)
  | other => .error (.type (.notIterable other.kind))

/-- How many things a literal lists. -/
def count : Literal → Except Fault Nat
  | list items => .ok items.length
  | text value => .ok value.length
  | record fields => .ok fields.length
  | other => .error (.type (.noLength other.kind))

/-- A list of sizes or of coordinates. -/
def toInts (value : Literal) : Except Fault (List Int) := do
  (← value.elements).mapM toInt

/-- A list of names; each thing listed is named by how it is shown. -/
def toNames (value : Literal) : Except Fault (List String) := do
  return (← value.elements).map shown

def field? (key : String) : Literal → Option Literal
  | record fields => (fields.find? fun field => field.1 == key).map Prod.snd
  | _ => none

end Literal

end TensorCalculus
