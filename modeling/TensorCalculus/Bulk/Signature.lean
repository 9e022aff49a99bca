import TensorCalculus.Text.Quoted

/-!
# Signatures of the bulk routine

The bulk routine reads subscripts by rules of its own. Index symbols are letters, blanks are
skipped, and three points in a row stand for all axes of an operand that have no symbol. A signature
labels every axis of every operand and of the output. -/

namespace TensorCalculus.Bulk

open TensorCalculus.Text

/-- An axis is known by a letter. One that three points stand for is known by its place among its
like, counted from the last one. -/
inductive Label where
  | letter (c : Char)
  | unnamed (fromLast : Nat)
  deriving DecidableEq

structure Signature where
  operands : List (List Label)
  output : List Label
  deriving DecidableEq

/-- The most operands that are taken, and one more. -/
def operandLimit : Nat := 64

/-- The code of a character that is not plain, as it is shown in a fault. -/
def escapedCode (c : Char) : String :=
  let n := c.toNat
  if n < 0x100 then "\\x" ++ String.ofList (hexDigits 2 n)
  else if n < 0x10000 then "\\u" ++ String.ofList (hexDigits 4 n)
  else "\\U" ++ String.ofList (hexDigits 8 n)

def isPlain (c : Char) : Bool :=
  c.toNat < 128

/-- Only plain characters are read; the first run of others is reported. -/
def checkPlain (text : List Char) : Except String Unit :=
  let start := (text.takeWhile isPlain).length
  match (text.dropWhile isPlain).takeWhile (!isPlain ·) with
  | [] => .ok ()
  | [c] =>
    .error (s!"'ascii' codec can't encode character '{escapedCode c}' in position {start}: " ++
      "ordinal not in range(128)")
  | cs =>
    let last := start + cs.length - 1
    .error (s!"'ascii' codec can't encode characters in position {start}-{last}: " ++
      "ordinal not in range(128)")

def lonePoint (place : String) : String :=
  "einstein sum subscripts string contains a '.' that is not part of an ellipsis ('...') " ++ place

def withoutPoints (what : String) : String :=
  what ++ " has more dimensions than subscripts given in einstein sum, but no '...' ellipsis " ++
    "provided to broadcast the extra dimensions."

/-- Reads the symbols of a segment from left to right: letters, and nothing in place of the three
points, which may stand once. Each letter is checked by the number of letters in front of it and the
text behind it. -/
def symbols (place : String) (check : Nat → Char → List Char → Except String Unit) :
    Nat → Bool → List Char → Except String (List (Option Char))
  | _, _, [] => .ok []
  | letters, false, '.' :: '.' :: '.' :: cs => do
    return none :: (← symbols place check letters true cs)
  | letters, pointed, c :: cs =>
    if c.isAlpha then do
      check letters c cs
      return some c :: (← symbols place check (letters + 1) pointed cs)
    else if c = '.' then .error (lonePoint place)
    else if c = ' ' then symbols place check letters pointed cs
    else .error (s!"invalid subscript '{c}' in einstein sum subscripts string, " ++
      "subscripts must be letters")

/-- Labels for symbols, where the three points stand for a number of axes. -/
def labelsOf (unnamed : Nat) (symbols : List (Option Char)) : List Label :=
  symbols.flatMap fun
    | some c => [.letter c]
    | none => (List.range unnamed).reverse.map .unnamed

/-- The labels of an operand with a given number of axes. -/
def operandLabels (operand rank : Nat) (segment : List Char) : Except String (List Label) := do
  let check (letters : Nat) (_ : Char) (_ : List Char) : Except String Unit :=
    if letters < rank then .ok ()
    else
      .error s!"einstein sum subscripts string contains too many subscripts for operand {operand}"
  let symbols ← symbols s!"in operand {operand}" check 0 false segment
  let letters := symbols.countP Option.isSome
  if letters < rank ∧ none ∉ symbols then .error (withoutPoints "operand")
  else return labelsOf (rank - letters) symbols

/-- The labels of operands of given ranks, read one after the other, and what stands behind the last
segment. Each segment ends where a comma or a dash stands. -/
def operandsLabels : Nat → List Nat → List Char → Except String (List (List Label) × List Char)
  | _, [], text => .ok ([], text)
  | operand, rank :: ranks, text =>
    let isInside (c : Char) : Bool := c != ',' && c != '-'
    let segment := text.takeWhile isInside
    match ranks, text.dropWhile isInside with
    | [], ',' :: _ =>
      .error ("more operands provided to einstein sum function than specified in the " ++
        "subscripts string")
    | [], rest => do
      return ([← operandLabels operand rank segment], rest)
    | ranks, ',' :: rest => do
      let labels ← operandLabels operand rank segment
      let (found, rest) ← operandsLabels (operand + 1) ranks rest
      return (labels :: found, rest)
    | _, _ => .error ("fewer operands provided to einstein sum function than specified in the " ++
        "subscripts string")

def Label.isUnnamed : Label → Bool
  | letter _ => false
  | unnamed _ => true

/-- The most axes without a letter that an operand has. -/
def unnamedAxes (operands : List (List Label)) : Nat :=
  (operands.map fun labels => labels.countP Label.isUnnamed).foldl max 0

/-- Every letter of the output stands there once, and labels an axis of some operand. -/
def checkLetter (known : List Label) (c : Char) (behind : List Char) : Except String Unit :=
  if c ∈ behind then
    .error s!"einstein sum subscripts string includes output subscript '{c}' multiple times"
  else if Label.letter c ∈ known then .ok ()
  else .error (s!"einstein sum subscripts string included output subscript '{c}' " ++
    "which never appeared in an input")

/-- The labels of the output. Three points stand there for as many axes as in any operand. -/
def outputLabels (operands : List (List Label)) (segment : List Char) :
    Except String (List Label) := do
  let symbols ← symbols "in the output" (fun _ => checkLetter operands.flatten) 0 false segment
  let unnamed := unnamedAxes operands
  if 0 < unnamed ∧ none ∉ symbols then .error (withoutPoints "output")
  else return labelsOf unnamed symbols

def Label.letters : List Label :=
  (List.range 128).map fun n => .letter (Char.ofNat n)

/-- The output that is meant where the text ends before it: what has no letter, and the letters that
label one axis. -/
def impliedLabels (operands : List (List Label)) : List Label :=
  labelsOf (unnamedAxes operands) [none] ++ Label.letters.filter fun label =>
    operands.flatten.count label = 1

namespace Signature

/-- Reads subscripts for operands of given ranks. A text ends where a null character stands. -/
def read (text : List Char) (ranks : List Nat) : Except String Signature := do
  if ranks.isEmpty then
    .error "must specify the einstein sum subscripts string and at least one operand"
  else if operandLimit ≤ ranks.length then .error "too many operands"
  else
    checkPlain text
    let (operands, rest) ← operandsLabels 0 ranks (text.takeWhile (· ≠ '\x00'))
    match rest with
    | [] => return { operands, output := impliedLabels operands }
    | '-' :: '>' :: segment => return { operands, output := ← outputLabels operands segment }
    | _ => .error "einstein sum subscript string does not contain proper '->' output specified"

/-- The labels that are summed over, in the order of their letters. -/
def summed (s : Signature) : List Label :=
  Label.letters.filter fun label => label ∈ s.operands.flatten ∧ label ∉ s.output

/-- All labels: those of the output, and then those summed over. -/
def labels (s : Signature) : List Label :=
  s.output ++ s.summed

end Signature

example : (Signature.read "i...,i->...".toList [3, 1]).toOption =
    some ⟨[[.letter 'i', .unnamed 1, .unnamed 0], [.letter 'i']], [.unnamed 1, .unnamed 0]⟩ := by
  decide +kernel

end TensorCalculus.Bulk
