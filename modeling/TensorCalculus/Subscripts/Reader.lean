import TensorCalculus.Fault
import TensorCalculus.Subscripts.Basic

/-!
# Reading subscripts

A text is first cut into marks: letters, commas, arrows, and stray characters that are none of
these. Blanks and tabs between marks are skipped. The first mark that cannot stand where it stands
is reported with its column; only a text without such a mark is searched for repeated output
symbols. -/

namespace TensorCalculus.Subscripts

inductive Mark where
  | letter (symbol : Char)
  | comma
  | arrow
  | stray (symbol : Char)
  deriving DecidableEq

structure PlacedMark where
  mark : Mark
  column : Nat
  deriving DecidableEq

def markOf (c : Char) : Mark :=
  if c = ',' then .comma else if c.isAlpha then .letter c else .stray c

/-- The marks of a text whose first character stands in the given column. -/
def marks (column : Nat) : List Char → List PlacedMark
  | [] => []
  | '-' :: '>' :: cs => ⟨.arrow, column⟩ :: marks (column + 2) cs
  | c :: cs =>
    if c = ' ' ∨ c = '\t' then marks (column + 1) cs
    else ⟨markOf c, column⟩ :: marks (column + 1) cs

/-- The first mark that cannot stand where it stands: a stray character anywhere, and behind the
arrow also a comma or a second arrow. -/
def offending : Bool → List PlacedMark → Option PlacedMark
  | _, [] => none
  | behindArrow, m :: ms =>
    match m.mark with
    | .letter _ => offending behindArrow ms
    | .comma => if behindArrow then some m else offending behindArrow ms
    | .arrow => if behindArrow then some m else offending true ms
    | .stray _ => some m

/-- The letters between commas. There is always at least one segment. -/
def segments : List Mark → List (List Char)
  | [] => [[]]
  | .letter c :: ms =>
    match segments ms with
    | [] => [[c]]
    | segment :: rest => (c :: segment) :: rest
  | .comma :: ms => [] :: segments ms
  | .arrow :: ms => segments ms
  | .stray _ :: ms => segments ms

/-- The first letter that was seen before, with its column. -/
def firstRepeated (seen : List Char) : List PlacedMark → Option (Char × Nat)
  | [] => none
  | m :: ms =>
    match m.mark with
    | .letter c => if c ∈ seen then some (c, m.column) else firstRepeated (c :: seen) ms
    | _ => firstRepeated seen ms

def letters (ms : List PlacedMark) : List Char :=
  ms.filterMap fun m => match m.mark with
    | .letter c => some c
    | _ => none

def faultOf : Mark → SyntaxFault
  | .stray c => .unexpected c
  | _ => .misplaced

def read (text : String) : Except Fault Subscripts :=
  let ms := marks 1 text.toList
  match offending false ms with
  | some m => .error (.subscripts (faultOf m.mark) (some m.column) (some text))
  | none =>
    let inputs := segments ((ms.takeWhile (·.mark ≠ .arrow)).map (·.mark))
    match ms.dropWhile (·.mark ≠ .arrow) with
    | [] => .ok { inputs, output := impliedOutput inputs, explicit := false, text }
    | _ :: out =>
      match firstRepeated [] out with
      | some (c, column) => .error (.subscripts (.repeatedOutput c) (some column) (some text))
      | none => .ok { inputs, output := letters out, explicit := true, text }

theorem segments_ne_nil (ms : List Mark) : segments ms ≠ [] := by
  induction ms with
  | nil => exact List.cons_ne_nil _ _
  | cons m ms ih =>
    cases m with
    | letter c =>
      rw [segments]
      split <;> exact List.cons_ne_nil _ _
    | comma => exact List.cons_ne_nil _ _
    | arrow => exact ih
    | stray c => exact ih

end TensorCalculus.Subscripts
