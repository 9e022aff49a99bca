import TensorCalculus.Proofs.Subscripts.Reading

/-!
# Printing subscripts

Subscripts that can be written down are read back from what is written, whatever blanks stand
between the tokens. All subscripts that were ever read can be written down, those with an implied
output as well: their output consists of letters that differ. -/

namespace TensorCalculus.Subscripts

/-- Subscripts that can be written down: segments of letters, at least one, and an output that
repeats none. -/
structure Writable (s : Subscripts) : Prop where
  inputs_ne_nil : s.inputs ≠ []
  isLetter_inputs : ∀ segment ∈ s.inputs, ∀ c ∈ segment, IsLetter c
  isLetter_output : ∀ c ∈ s.output, IsLetter c
  nodup_output : s.output.Nodup

/-- Every token has one spelling. -/
def Token.spelling : Token → List Char
  | letter c => [c]
  | comma => [',']
  | arrow => ['-', '>']

/-- A text that spells tokens, with a gap in front of each of them and one at the end. -/
def spaced : (Nat → List Char) → List Token → List Char
  | gaps, [] => gaps 0
  | gaps, t :: ts => gaps 0 ++ (t.spelling ++ spaced (fun i => gaps (i + 1)) ts)

/-- The tokens of subscripts whose output is written. -/
def tokens (s : Subscripts) : List Token :=
  commaSeparated s.inputs ++ .arrow :: s.output.map .letter

section Tokens

variable {c : Char} {ts : List Token} {s : Subscripts}

theorem letter_mem_commaSeparated {inputs : List (List Char)} :
    .letter c ∈ commaSeparated inputs ↔ ∃ segment ∈ inputs, c ∈ segment := by
  induction inputs with
  | nil => simp [commaSeparated]
  | cons segment inputs ih =>
    cases inputs with
    | nil => simp [commaSeparated_single]
    | cons next inputs =>
      rw [commaSeparated_cons (List.cons_ne_nil _ _), List.mem_append, List.mem_cons, ih,
        List.exists_mem_cons_iff]
      simp

theorem letter_mem_tokens : .letter c ∈ s.tokens ↔ (∃ segment ∈ s.inputs, c ∈ segment) ∨
    c ∈ s.output := by
  rw [tokens, List.mem_append, letter_mem_commaSeparated]
  simp

theorem arranged_tokens (s : Subscripts) : Arranged s.tokens := by
  have first := notMem_commaSeparated s.inputs
  have behind : .arrow ∉ s.output.map Token.letter := by simp
  refine ⟨?_, fun before after same => ?_⟩
  · rw [tokens, List.count_append, List.count_cons_self, List.count_eq_zero.2 first,
      List.count_eq_zero.2 behind]
  · -- The arrow that is looked at is the only one there is.
    obtain ⟨-, -, rfl⟩ := (List.append_cons_inj_of_notMem first behind).1 same
    simp

theorem Spells.isLetter {cs : List Char} (spells : Spells cs ts) (inside : .letter c ∈ ts) :
    IsLetter c := by
  obtain ⟨before, after, rfl⟩ := List.append_of_mem inside
  obtain ⟨front, spelling, rest, -, -, spelled, -⟩ := spells.split
  cases spelled with
  | letter letter => exact letter

end Tokens

section Spacing

variable {ts : List Token} {gaps : Nat → List Char}

theorem Spells.gap {gap cs : List Char} (blank : ∀ c ∈ gap, IsBlank c) (spells : Spells cs ts) :
    Spells (gap ++ cs) ts := by
  induction gap with
  | nil => exact spells
  | cons c gap ih =>
    obtain ⟨here, later⟩ := List.forall_mem_cons.1 blank
    exact .blank here (ih later)

theorem Token.spelled_spelling {t : Token} (letters : ∀ c, t = .letter c → IsLetter c) :
    t.Spelled t.spelling := by
  cases t with
  | letter c => exact .letter (letters c rfl)
  | comma => exact .comma
  | arrow => exact .arrow

/-- Gaps that are blank do not matter. -/
theorem spells_spaced (blank : ∀ i, ∀ c ∈ gaps i, IsBlank c)
    (letters : ∀ c, .letter c ∈ ts → IsLetter c) : Spells (spaced gaps ts) ts := by
  induction ts generalizing gaps with
  | nil => simpa [spaced] using Spells.nil.gap (blank 0)
  | cons t ts ih =>
    refine (Spells.token (Token.spelled_spelling ?_) (ih ?_ ?_)).gap (blank 0)
    · rintro c rfl
      exact letters c List.mem_cons_self
    · exact fun i => blank (i + 1)
    · exact fun c inside => letters c (List.mem_cons_of_mem t inside)

theorem spaced_nil (ts : List Token) : spaced (fun _ => []) ts = ts.flatMap Token.spelling := by
  induction ts with
  | nil => rfl
  | cons t ts ih => rw [spaced, ih, List.nil_append, List.flatMap_cons]

theorem flatMap_spelling_letter (cs : List Char) :
    (cs.map Token.letter).flatMap Token.spelling = cs := by
  induction cs with
  | nil => rfl
  | cons c cs ih => rw [List.map_cons, List.flatMap_cons, ih, Token.spelling, List.singleton_append]

theorem flatMap_spelling_commaSeparated (inputs : List (List Char)) :
    (commaSeparated inputs).flatMap Token.spelling = (inputs.intersperse [',']).flatten := by
  induction inputs with
  | nil => rfl
  | cons segment inputs ih =>
    cases inputs with
    | nil => simp [commaSeparated_single, flatMap_spelling_letter]
    | cons next inputs =>
      rw [commaSeparated_cons (List.cons_ne_nil _ _), List.flatMap_append, List.flatMap_cons, ih,
        flatMap_spelling_letter, List.intersperse_cons_cons, List.flatten_cons, List.flatten_cons,
        Token.spelling]

/-- Without any gap the tokens are spelled as the subscripts are printed. -/
theorem spaced_nil_tokens (s : Subscripts) : spaced (fun _ => []) s.tokens = s.toList := by
  rw [spaced_nil, tokens, List.flatMap_append, List.flatMap_cons, flatMap_spelling_commaSeparated,
    flatMap_spelling_letter]
  rfl

end Spacing

section Printing

variable {s : Subscripts} {text : String}

/-- What is written with blanks between the tokens is read as what was written. -/
theorem Writable.read_spaced (writable : s.Writable) (gaps : Nat → List Char)
    (blank : ∀ i, ∀ c ∈ gaps i, IsBlank c) : read (String.ofList (spaced gaps s.tokens)) =
      .ok { s with explicit := true, text := String.ofList (spaced gaps s.tokens) } := by
  refine read_of_denotes ?_ s.arranged_tokens ?_ (.written writable.inputs_ne_nil)
  · rw [String.toList_ofList]
    refine spells_spaced blank fun c inside => ?_
    rcases letter_mem_tokens.1 inside with ⟨segment, among, here⟩ | here
    · exact writable.isLetter_inputs segment among c here
    · exact writable.isLetter_output c here
  · exact distinctOutput_of_nodup s.arranged_tokens writable.nodup_output

theorem Writable.read_toText (writable : s.Writable) :
    read s.toText = .ok { s with explicit := true, text := s.toText } := by
  have printed := writable.read_spaced (fun _ => []) (by simp)
  rwa [spaced_nil_tokens] at printed

theorem writable_of_read (accepted : read text = .ok s) : s.Writable := by
  obtain ⟨inputs, output, explicit, text⟩ := s
  obtain ⟨-, ts, spells, -, distinct, denotes⟩ := denotes_of_read accepted
  dsimp only at denotes
  cases denotes with
  | implied nonempty =>
    have letters : ∀ segment ∈ inputs, ∀ c ∈ segment, IsLetter c := fun segment among c here =>
      spells.isLetter (letter_mem_commaSeparated.2 ⟨segment, among, here⟩)
    refine ⟨nonempty, letters, fun c kept => ?_, ?_⟩
    · obtain ⟨segment, among, here⟩ := List.mem_flatten.1 (List.mem_filter.1 kept).1
      exact letters segment among c here
    · rw [← impliedOutput_eq_filter]
      exact nodup_impliedOutput inputs
  | written nonempty =>
    refine ⟨nonempty, fun segment among c here => ?_, fun c here => ?_, distinct.nodup⟩
    · exact spells.isLetter
        (List.mem_append_left _ (letter_mem_commaSeparated.2 ⟨segment, among, here⟩))
    · exact spells.isLetter
        (List.mem_append_right _ (List.mem_cons_of_mem _ (List.mem_map_of_mem here)))

end Printing

end TensorCalculus.Subscripts
