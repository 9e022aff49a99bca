import TensorCalculus.Text.Blank
import TensorCalculus.Text.Case
import TensorCalculus.Text.Digit
import TensorCalculus.Decimal.Binary

/-!
# Numerals in text

Whole numbers and decimal fractions as people type them: white space around, an optional sign,
decimal digits of any script, and single underscores between digits. -/

namespace TensorCalculus.Decimal

open TensorCalculus.Text

/-- The values of a run of digits in which single underscores may stand between digits. -/
def digitRun : List Char → Option (List Nat)
  | [] => none
  | [c] => (decimalValue? c).map fun d => [d]
  | c :: '_' :: rest => do
    let d ← decimalValue? c
    let ds ← digitRun rest
    return d :: ds
  | c :: rest => do
    let d ← decimalValue? c
    let ds ← digitRun rest
    return d :: ds

def ofDigitValues (ds : List Nat) : Nat :=
  ds.foldl (fun n d => 10 * n + d) 0

/-- Splits a sign off; no sign counts as plus. -/
def splitSign : List Char → Bool × List Char
  | '-' :: rest => (true, rest)
  | '+' :: rest => (false, rest)
  | cs => (false, cs)

def readIntList? (cs : List Char) : Option Int := do
  let (negative, body) := splitSign (trimBy isNumeralBlank cs)
  let n := ofDigitValues (← digitRun body)
  return if negative then -(n : Int) else n

/-- The number of digits at the front of a numeral, whatever comes behind them. -/
def numeralDigits (cs : List Char) : Nat :=
  let body := (splitSign (cs.dropWhile isNumeralBlank)).2
  ((digitRun (body.takeWhile fun c => c == '_' || (decimalValue? c).isSome)).getD []).length

def readInt? (s : String) : Option Int :=
  readIntList? s.toList

/-- A run of digits that may be missing. -/
def optionalRun (cs : List Char) : Option (List Nat) :=
  if cs.isEmpty then some [] else digitRun cs

/-- The digits before and behind the point; one of the two runs may be missing. -/
def readSignificand? (cs : List Char) : Option (List Nat × List Nat) :=
  let whole := cs.takeWhile (· != '.')
  match cs.dropWhile (· != '.') with
  | [] => (digitRun whole).map fun ds => (ds, [])
  | _ :: fraction =>
    if whole.isEmpty && fraction.isEmpty then none
    else do return (← optionalRun whole, ← optionalRun fraction)

def readExponent? (cs : List Char) : Option Int := do
  let (negative, body) := splitSign cs
  let n := ofDigitValues (← digitRun body)
  return if negative then -(n : Int) else n

def readFloat? (s : String) : Option Float := do
  let (negative, body) := splitSign (trimBy isNumeralBlank s.toList)
  let body := body.map Char.toLower
  if body = "nan".toList then return Float.ofBits 0x7ff8000000000000
  else if body = "inf".toList ∨ body = "infinity".toList then
    return infinity negative
  else
    let significand := body.takeWhile (· != 'e')
    let exponent ← match body.dropWhile (· != 'e') with
      | [] => some 0
      | _ :: digits => readExponent? digits
    let (whole, fraction) ← readSignificand? significand
    return ofDigits negative (ofDigitValues (whole ++ fraction)) (exponent - fraction.length)

example : readInt? " 1_6\n" = some 16 ∧ readInt? "1__6" = none ∧ readInt? "-٨" = some (-8) := by
  decide +kernel

example : readFloat? "1e-3" = some 0.001 ∧ readFloat? "1_.5" = none ∧
    readFloat? "-.5" = some (-0.5) := by
  decide +kernel

end TensorCalculus.Decimal
