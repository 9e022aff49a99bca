/-!
# Subscripts of a contraction

One segment of index symbols for every operand and one for the output. A symbol that the output
leaves out is summed over. -/

namespace TensorCalculus

variable {α : Type} [DecidableEq α]

/-- Every element once, in order of first appearance. -/
def firstOccurrences : List α → List α
  | [] => []
  | a :: as => a :: (firstOccurrences as).filter (· ≠ a)

@[simp]
theorem mem_firstOccurrences {a : α} {as : List α} : a ∈ firstOccurrences as ↔ a ∈ as := by
  induction as with
  | nil => rfl
  | cons b bs ih =>
    by_cases h : a = b
    · simp [firstOccurrences, h]
    · simp [firstOccurrences, h, ih]

theorem nodup_firstOccurrences (as : List α) : (firstOccurrences as).Nodup := by
  induction as with
  | nil => exact List.nodup_nil
  | cons b bs ih => exact List.nodup_cons.2 ⟨by simp, ih.filter _⟩

structure Subscripts where
  inputs : List (List Char)
  output : List Char
  /-- Whether the output was written rather than inferred. -/
  explicit : Bool := true
  /-- The text that was read, empty when there was none. -/
  text : String := ""
  deriving DecidableEq

namespace Subscripts

def symbols (s : Subscripts) : List Char :=
  firstOccurrences s.inputs.flatten

/-- The symbols summed over. -/
def contracted (s : Subscripts) : List Char :=
  s.symbols.filter (· ∉ s.output)

def toList (s : Subscripts) : List Char :=
  (s.inputs.intersperse [',']).flatten ++ '-' :: '>' :: s.output

def toText (s : Subscripts) : String :=
  String.ofList s.toList

/-- The name under which faults speak of the subscripts. -/
def label (s : Subscripts) : String :=
  if s.text.isEmpty then s.toText else s.text

/-- The output meant when none is written: the symbols that occur once. -/
def impliedOutput (inputs : List (List Char)) : List Char :=
  (firstOccurrences inputs.flatten).filter (inputs.flatten.count · = 1)

@[simp]
theorem mem_symbols {s : Subscripts} {c : Char} : c ∈ s.symbols ↔
    ∃ segment ∈ s.inputs, c ∈ segment := by
  simp [symbols]

theorem nodup_symbols (s : Subscripts) : s.symbols.Nodup :=
  nodup_firstOccurrences _

@[simp]
theorem mem_contracted {s : Subscripts} {c : Char} : c ∈ s.contracted ↔ c ∈ s.symbols ∧
    c ∉ s.output := by
  simp [contracted]

theorem nodup_impliedOutput (inputs : List (List Char)) : (impliedOutput inputs).Nodup :=
  (nodup_firstOccurrences _).filter _

end Subscripts

end TensorCalculus
