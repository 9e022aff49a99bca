import Mathlib.Logic.Equiv.Basic
import TensorCalculus.Proofs.Subscripts.Reading

/-!
# New names for symbols

Letters are given other letters as names, different letters different ones. Reading a renamed text
gives the renamed subscripts, or the same fault in the same column: the reader compares letters with
each other and sees nothing else in them. -/

namespace TensorCalculus

open Subscripts

section Lists

variable {f : Char → Char} (injective : Function.Injective f)
include injective

theorem firstOccurrences_map (cs : List Char) :
    firstOccurrences (cs.map f) = (firstOccurrences cs).map f := by
  induction cs with
  | nil => rfl
  | cons c cs ih =>
    rw [List.map_cons, firstOccurrences, firstOccurrences, ih, List.filter_map, List.map_cons]
    refine congrArg (f c :: ·) (congrArg (List.map f) (List.filter_congr fun e _ => ?_))
    simp [injective.eq_iff]

theorem impliedOutput_map (inputs : List (List Char)) :
    impliedOutput (inputs.map (·.map f)) = (impliedOutput inputs).map f := by
  rw [impliedOutput, impliedOutput, ← List.map_flatten, firstOccurrences_map injective,
    List.filter_map]
  refine congrArg (List.map f) (List.filter_congr fun c _ => ?_)
  rw [Function.comp_apply, List.count_map_of_injective _ f injective]

end Lists

/-- New names for the letters. -/
structure Renaming where
  letter : Char → Char
  isLetter : ∀ c, IsLetter c → IsLetter (letter c)
  injective : ∀ c d, IsLetter c → IsLetter d → letter c = letter d → c = d

namespace Renaming

/-- Two letters exchange their names. -/
def exchange (a b : Char) (first : IsLetter a) (second : IsLetter b) : Renaming where
  letter := Equiv.swap a b
  isLetter c letter := by
    rw [Equiv.swap_apply_def]
    split_ifs
    · exact second
    · exact first
    · exact letter
  injective c d _ _ same := (Equiv.swap a b).injective same

variable (r : Renaming)

/-- Letters get their new names, and other characters stay what they are. -/
def char (c : Char) : Char :=
  if c.isAlpha then r.letter c else c

def text (t : String) : String :=
  t.map r.char

def subscripts (s : Subscripts) : Subscripts where
  inputs := s.inputs.map (·.map r.char)
  output := s.output.map r.char
  explicit := s.explicit
  text := r.text s.text

@[simp]
theorem inputs_subscripts (s : Subscripts) :
    (r.subscripts s).inputs = s.inputs.map (·.map r.char) := rfl

@[simp]
theorem output_subscripts (s : Subscripts) : (r.subscripts s).output = s.output.map r.char := rfl

def syntaxFault : SyntaxFault → SyntaxFault
  | .unexpected c => .unexpected (r.char c)
  | .repeatedOutput c => .repeatedOutput (r.char c)
  | .repeatedSymbol operand segment => .repeatedSymbol operand (segment.map r.char)
  | cause => cause

def shapeFault : ShapeFault → ShapeFault
  | .segmentLength segment rank => .segmentLength (segment.map r.char) rank
  | .inconsistentSize c size first => .inconsistentSize (r.char c) size first
  | .missingOutput cs => .missingOutput (cs.map r.char)
  | cause => cause

/-- The same fault, speaking of the symbols under their new names. -/
def fault : Fault → Fault
  | .subscripts cause column source => .subscripts (r.syntaxFault cause) column (source.map r.text)
  | .shape cause operand label => .shape (r.shapeFault cause) operand (label.map r.text)
  | fault => fault

/-- What an outcome becomes under the new names. -/
def outcome {α β : Type} (rename : α → β) : Except Fault α → Except Fault β
  | .ok a => .ok (rename a)
  | .error fault => .error (r.fault fault)

/-- The numbers in a fault stay what they are. -/
theorem isWritable_fault (fault : Fault) : (r.fault fault).isWritable = fault.isWritable := by
  cases fault with
  | shape cause operand label => cases cause <;> rfl
  | _ => rfl

theorem kind_fault (fault : Fault) : (r.fault fault).kind = fault.kind := by
  have own : (r.fault fault).ownKind = fault.ownKind := by
    cases fault <;> rfl
  rw [Fault.kind_eq, Fault.kind_eq, r.isWritable_fault, own]

section Characters

variable {r} {c d : Char}

theorem isAlpha_char : (r.char c).isAlpha = c.isAlpha := by
  rw [char]
  split
  case isTrue letter =>
    rw [letter]
    exact isAlpha_iff_isLetter.2 (r.isLetter c (isAlpha_iff_isLetter.1 letter))
  case isFalse => rfl

theorem char_of_not_isAlpha (other : c.isAlpha = false) : r.char c = c := by
  rw [char, other, if_neg Bool.false_ne_true]

/-- Different characters stay different: a letter and another character because the one remains a
letter. -/
theorem char_injective : Function.Injective r.char := by
  intro c d same
  have alike : c.isAlpha = d.isAlpha := by
    rw [← isAlpha_char (r := r), same, isAlpha_char]
  rw [char, char, ← alike] at same
  split at same
  case isTrue letter =>
    exact r.injective c d (isAlpha_iff_isLetter.1 letter) (isAlpha_iff_isLetter.1 (alike ▸ letter))
      same
  case isFalse => exact same

theorem char_eq_iff (other : d.isAlpha = false) : r.char c = d ↔ c = d := by
  have same := (char_injective (r := r)).eq_iff (a := c) (b := d)
  rwa [char_of_not_isAlpha other] at same

end Characters

section Marks

def mark : Mark → Mark
  | .letter c => .letter (r.char c)
  | .comma => .comma
  | .arrow => .arrow
  | .stray c => .stray (r.char c)

def placedMark (m : PlacedMark) : PlacedMark :=
  ⟨r.mark m.mark, m.column⟩

variable {r}

theorem mark_eq_arrow_iff {m : Mark} : r.mark m = .arrow ↔ m = .arrow := by
  cases m <;> simp [mark]

theorem markOf_char (c : Char) : markOf (r.char c) = r.mark (markOf c) := by
  have comma : r.char c = ',' ↔ c = ',' := char_eq_iff (by decide)
  simp only [markOf, isAlpha_char, comma]
  split_ifs <;> rfl

/-- Blanks, commas and arrows stay where they are, and letters remain letters. -/
theorem marks_map (column : Nat) (cs : List Char) :
    marks column (cs.map r.char) = (marks column cs).map r.placedMark := by
  have blank (c : Char) : r.char c = ' ' ∨ r.char c = '\t' ↔ c = ' ' ∨ c = '\t' := by
    rw [char_eq_iff (by decide), char_eq_iff (by decide)]
  fun_induction marks column cs with
  | case1 => rfl
  | case2 column cs ih =>
    have dash : r.char '-' = '-' := char_of_not_isAlpha (by decide)
    have tip : r.char '>' = '>' := char_of_not_isAlpha (by decide)
    rw [List.map_cons, List.map_cons, dash, tip, marks, ih]
    rfl
  | case3 column c cs noArrow here ih =>
    rw [List.map_cons, marks_blank column ((blank c).2 here), ih]
  | case4 column c cs noArrow here ih =>
    have unarrowed : ∀ rest, r.char c :: cs.map r.char ≠ '-' :: '>' :: rest := by
      intro rest same
      obtain ⟨dash, tip⟩ := List.cons.inj same
      obtain ⟨e, others, rfl, tip, -⟩ := List.map_eq_cons_iff.1 tip
      exact noArrow others ((char_eq_iff (by decide)).1 dash)
        (by rw [(char_eq_iff (by decide)).1 tip])
    rw [List.map_cons, marks_cons column (mt (blank c).1 here) unarrowed, markOf_char, ih]
    rfl

theorem offending_map (behindArrow : Bool) (ms : List PlacedMark) :
    offending behindArrow (ms.map r.placedMark) = (offending behindArrow ms).map r.placedMark := by
  induction ms generalizing behindArrow with
  | nil => rfl
  | cons m ms ih =>
    obtain ⟨mark, column⟩ := m
    rw [List.map_cons, offending, offending]
    cases mark with
    | letter c => exact ih behindArrow
    | comma => cases behindArrow <;> simp [placedMark, Renaming.mark, ih]
    | arrow => cases behindArrow <;> simp [placedMark, Renaming.mark, ih]
    | stray c => rfl

theorem segments_map (ms : List Mark) :
    segments (ms.map r.mark) = (segments ms).map (·.map r.char) := by
  induction ms with
  | nil => rfl
  | cons m ms ih =>
    cases m with
    | letter c =>
      obtain ⟨segment, others, same⟩ := List.exists_cons_of_ne_nil (segments_ne_nil ms)
      rw [segments_letter c segment others same, List.map_cons]
      rw [same] at ih
      exact segments_letter _ _ _ ih
    | comma => exact congrArg ([] :: ·) ih
    | arrow => exact ih
    | stray c => exact ih

theorem firstRepeated_map (seen : List Char) (ms : List PlacedMark) :
    firstRepeated (seen.map r.char) (ms.map r.placedMark) =
      (firstRepeated seen ms).map (Prod.map r.char id) := by
  induction ms generalizing seen with
  | nil => rfl
  | cons m ms ih =>
    obtain ⟨mark, column⟩ := m
    rw [List.map_cons, firstRepeated, firstRepeated]
    cases mark with
    | letter c =>
      simp only [placedMark, Renaming.mark, List.mem_map_of_injective char_injective]
      split
      · rfl
      · exact ih (c :: seen)
    | comma => exact ih seen
    | arrow => exact ih seen
    | stray c => exact ih seen

theorem letters_map (ms : List PlacedMark) :
    letters (ms.map r.placedMark) = (letters ms).map r.char := by
  rw [letters, letters, List.filterMap_map, List.map_filterMap]
  refine List.filterMap_congr fun m _ => ?_
  obtain ⟨mark, column⟩ := m
  cases mark <;> rfl

theorem faultOf_mark (m : Mark) : faultOf (r.mark m) = r.syntaxFault (faultOf m) := by
  cases m <;> rfl

end Marks

/-- Reading a renamed text gives what was read before, under the new names. -/
theorem read_text (t : String) :
    Subscripts.read (r.text t) = r.outcome r.subscripts (Subscripts.read t) := by
  have arrowless (m : PlacedMark) : ((r.placedMark m).mark ≠ .arrow) = (m.mark ≠ .arrow) :=
    propext (not_congr mark_eq_arrow_iff)
  have marked : marks 1 (r.text t).toList = (marks 1 t.toList).map r.placedMark := by
    rw [text, String.toList_map, marks_map]
  have front : ((((marks 1 t.toList).map r.placedMark).takeWhile (·.mark ≠ .arrow)).map (·.mark)) =
      (((marks 1 t.toList).takeWhile (·.mark ≠ .arrow)).map (·.mark)).map r.mark := by
    simp only [List.takeWhile_map, Function.comp_def, arrowless, List.map_map]
    rfl
  have behind : ((marks 1 t.toList).map r.placedMark).dropWhile (·.mark ≠ .arrow) =
      ((marks 1 t.toList).dropWhile (·.mark ≠ .arrow)).map r.placedMark := by
    simp only [List.dropWhile_map, Function.comp_def, arrowless]
  rw [Subscripts.read, Subscripts.read, marked, offending_map]
  simp only [front, behind, segments_map]
  cases offending false (marks 1 t.toList) with
  | some m =>
    simp only [Option.map_some, placedMark, faultOf_mark]
    rfl
  | none =>
    simp only [Option.map_none]
    cases (marks 1 t.toList).dropWhile (·.mark ≠ .arrow) with
    | nil => simp [outcome, subscripts, impliedOutput_map char_injective]
    | cons m out =>
      have repeated := firstRepeated_map (r := r) [] out
      rw [List.map_nil] at repeated
      simp only [List.map_cons, repeated, letters_map]
      cases firstRepeated [] out <;> rfl

example (i : IsLetter 'i') (k : IsLetter 'k') :
    Subscripts.read ((exchange 'i' 'k' i k).text "ij,jk") =
    .ok ⟨[['k', 'j'], ['j', 'i']], ['k', 'i'], false, "kj,ji"⟩ := by
  cbv

end Renaming

end TensorCalculus
