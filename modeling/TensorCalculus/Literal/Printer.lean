import TensorCalculus.Literal.Basic

/-!
# Printing literals

The inverse of reading: quotation marks, backslashes and control characters are escaped, every other
character stands as it is. Doubles are printed with seventeen digits, which always read back; those
that are not finite are named. -/

namespace TensorCalculus.Literal

open TensorCalculus.Text

def printedChar (c : Char) : List Char :=
  if c = '\x22' ∨ c = '\\' then ['\\', c]
  else if c.toNat < 32 then '\\' :: 'u' :: hexDigits 4 c.toNat
  else [c]

def printedText (s : String) : String :=
  "\x22" ++ String.ofList (s.toList.flatMap printedChar) ++ "\x22"

def printedReal (x : Float) : String :=
  if x.isNaN then "NaN"
  else if x.isInf then if x < 0 then "-Infinity" else "Infinity"
  else Decimal.scientific 16 x

mutual

def printed : Literal → String
  | null => "null"
  | bool true => "true"
  | bool false => "false"
  | int value => toString value
  | real value => printedReal value
  | text value => printedText value
  | list items => "[" ++ ",".intercalate (printedItems items) ++ "]"
  | record fields => "\x7b" ++ ",".intercalate (printedFields fields) ++ "\x7d"

def printedItems : List Literal → List String
  | [] => []
  | item :: items => printed item :: printedItems items

def printedFields : List (String × Literal) → List String
  | [] => []
  | (key, value) :: fields => (printedText key ++ ":" ++ printed value) :: printedFields fields

end

end TensorCalculus.Literal
