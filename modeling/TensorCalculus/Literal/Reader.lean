import TensorCalculus.Literal.Basic

/-!
# Reading literals

Literals are written in the usual data notation: null, true, false, numbers, quoted text, lists in
square brackets and records in braces. A number without fraction and exponent is a whole number of
any size; every other number is the nearest double. -/

namespace TensorCalculus.Literal

open TensorCalculus.Decimal

def isGap (c : Char) : Bool :=
  c == ' ' || c == '\t' || c == '\n' || c == '\r'

def skipGap (cs : List Char) : List Char :=
  cs.dropWhile isGap

def hexValue? (c : Char) : Option Nat :=
  if '0' ≤ c ∧ c ≤ '9' then some (c.toNat - 48)
  else if 'a' ≤ c ∧ c ≤ 'f' then some (c.toNat - 87)
  else if 'A' ≤ c ∧ c ≤ 'F' then some (c.toNat - 55)
  else none

/-- Four hexadecimal digits at the front. -/
def readUnit : List Char → Option (Nat × List Char)
  | a :: b :: c :: d :: rest => do
    let n := ((← hexValue? a) * 16 + (← hexValue? b)) * 256 + (← hexValue? c) * 16 + (← hexValue? d)
    return (n, rest)
  | _ => none

/-- The character behind an escape by number; two halves of a pair make one character. -/
def readEscapedUnit (cs : List Char) : Option (Char × List Char) := do
  let (high, rest) ← readUnit cs
  if 0xD800 ≤ high ∧ high < 0xDC00 then
    match rest with
    | '\\' :: 'u' :: more =>
      let (low, rest) ← readUnit more
      return (Char.ofNat (0x10000 + (high - 0xD800) * 1024 + (low - 0xDC00)), rest)
    | _ => return (Char.ofNat 0xFFFD, rest)
  else return (Char.ofNat high, rest)

/-- The text up to the closing quotation mark. -/
def readText : Nat → List Char → List Char → Option (String × List Char)
  | 0, _, _ => none
  | fuel + 1, done, cs =>
    match cs with
    | '\x22' :: rest => some (String.ofList done.reverse, rest)
    | '\\' :: 'u' :: rest => do
      let (c, rest) ← readEscapedUnit rest
      readText fuel (c :: done) rest
    | '\\' :: c :: rest =>
      let meant :=
        if c == 'n' then '\n' else if c == 't' then '\t' else if c == 'r' then '\r'
        else if c == 'b' then '\x08' else if c == 'f' then '\x0c' else c
      readText fuel (meant :: done) rest
    | c :: rest => readText fuel (c :: done) rest
    | [] => none

def isNumberChar (c : Char) : Bool :=
  c.isDigit || c == '-' || c == '+' || c == '.' || c == 'e' || c == 'E'

def readNumber (cs : List Char) : Option Literal :=
  if cs.any fun c => c == '.' || c == 'e' || c == 'E' then (readFloat? (String.ofList cs)).map real
  else (readIntList? cs).map int

/-- Fields in reverse order with one more. A name that is given again keeps its place and takes the
new value. -/
def putField (key : String) (value : Literal) (done : List (String × Literal)) :
    List (String × Literal) :=
  if done.any (·.1 == key) then done.map fun field => if field.1 == key then (key, value) else field
  else (key, value) :: done

mutual

/-- A literal at the front, and what follows it. The fuel bounds the number of steps. -/
def readValue : Nat → List Char → Option (Literal × List Char)
  | 0, _ => none
  | fuel + 1, cs =>
    match skipGap cs with
    | 'n' :: 'u' :: 'l' :: 'l' :: rest => some (null, rest)
    | 't' :: 'r' :: 'u' :: 'e' :: rest => some (bool true, rest)
    | 'f' :: 'a' :: 'l' :: 's' :: 'e' :: rest => some (bool false, rest)
    | '\x22' :: rest => (readText (rest.length + 1) [] rest).map fun (s, rest) => (text s, rest)
    | '[' :: rest =>
      match skipGap rest with
      | ']' :: rest => some (list [], rest)
      | rest => (readItems fuel [] rest).map fun (items, rest) => (list items, rest)
    | '\x7b' :: rest =>
      match skipGap rest with
      | '\x7d' :: rest => some (record [], rest)
      | rest => (readFields fuel [] rest).map fun (fields, rest) => (record fields, rest)
    | cs =>
      (readNumber (cs.takeWhile isNumberChar)).map fun value => (value, cs.dropWhile isNumberChar)

def readItems : Nat → List Literal → List Char → Option (List Literal × List Char)
  | 0, _, _ => none
  | fuel + 1, done, cs => do
    let (item, rest) ← readValue fuel cs
    match skipGap rest with
    | ',' :: rest => readItems fuel (item :: done) rest
    | ']' :: rest => return ((item :: done).reverse, rest)
    | _ => none

def readFields :
    Nat → List (String × Literal) → List Char → Option (List (String × Literal) × List Char)
  | 0, _, _ => none
  | fuel + 1, done, cs =>
    match skipGap cs with
    | '\x22' :: rest => do
      let (key, rest) ← readText (rest.length + 1) [] rest
      match skipGap rest with
      | ':' :: rest =>
        let (value, rest) ← readValue fuel rest
        match skipGap rest with
        | ',' :: rest => readFields fuel (putField key value done) rest
        | '\x7d' :: rest => return ((putField key value done).reverse, rest)
        | _ => none
      | _ => none
    | _ => none

end

/-- The literal that a whole text writes. -/
def ofText? (s : String) : Option Literal := do
  let cs := s.toList
  let (value, rest) ← readValue (cs.length + 1) cs
  if (skipGap rest).isEmpty then return value else none

end TensorCalculus.Literal
