/-!
# Listings

Items between commas, in a sentence, and as tuples: a tuple of one item keeps a comma behind it, so
that it is not taken for an item in brackets. -/

namespace TensorCalculus.Text

def commaSeparated (items : List String) : String :=
  ", ".intercalate items

def tuple (items : List String) : String :=
  match items with
  | [item] => "(" ++ item ++ ",)"
  | _ => "(" ++ commaSeparated items ++ ")"

/-- The same without blanks behind the commas. -/
def closeTuple (items : List String) : String :=
  match items with
  | [item] => "(" ++ item ++ ",)"
  | _ => "(" ++ ",".intercalate items ++ ")"

def tupleOfInts (values : List Int) : String :=
  tuple (values.map toString)

/-- Items of a sentence, the last one behind an "and". -/
def conjoined (items : List String) : String :=
  match items.reverse with
  | [] => ""
  | [item] => item
  | [second, first] => first ++ " and " ++ second
  | last :: rest => commaSeparated rest.reverse ++ ", and " ++ last

/-- A noun beside its number. -/
def counted (noun : String) (number : Nat) : String :=
  if number = 1 then noun else noun ++ "s"

example : tupleOfInts [] = "()" ∧ tupleOfInts [2] = "(2,)" ∧ tupleOfInts [2, -3] = "(2, -3)" := by
  decide +kernel

example : conjoined ["x", "y", "z"] = "x, y, and z" ∧ conjoined ["x", "y"] = "x and y" := by
  decide +kernel

end TensorCalculus.Text
