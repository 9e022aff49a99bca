import Mathlib.Data.List.Count
import Mathlib.Data.List.Induction
import Mathlib.Data.List.Nodup
import Mathlib.Tactic.Push
import TensorCalculus.Subscripts.Reader

/-!
# The grammar of subscripts

Subscripts are written with letters, commas and arrows, blanks standing between them at will. The
grammar is given here without reference to any reader: how tokens are spelled, in which order they
may stand, what they denote, and where a text that denotes nothing goes wrong. Every text either
denotes subscripts or is at fault. -/

namespace TensorCalculus.Subscripts

inductive Token where
  | letter (symbol : Char)
  | comma
  | arrow
  deriving DecidableEq

/-- The letters without accents. -/
def IsLetter (c : Char) : Prop :=
  ('A' ≤ c ∧ c ≤ 'Z') ∨ ('a' ≤ c ∧ c ≤ 'z')

def IsBlank (c : Char) : Prop :=
  c = ' ' ∨ c = '\t'

inductive Token.Spelled : Token → List Char → Prop
  | letter {c} : IsLetter c → Spelled (.letter c) [c]
  | comma : Spelled .comma [',']
  | arrow : Spelled .arrow ['-', '>']

/-- A text that spells tokens in a row. There may be blanks around each of them, but none inside. -/
inductive Spells : List Char → List Token → Prop
  | nil : Spells [] []
  | blank {c cs ts} : IsBlank c → Spells cs ts → Spells (c :: cs) ts
  | token {t spelling cs ts} : t.Spelled spelling → Spells cs ts → Spells (spelling ++ cs) (t :: ts)

/-- Whether no token is spelled at the beginning of a text. -/
def NoToken (cs : List Char) : Prop :=
  ∀ (t : Token) (spelling rest : List Char), t.Spelled spelling → cs ≠ spelling ++ rest

/-- Whether there is at most one arrow and no comma behind it. -/
def Arranged (ts : List Token) : Prop :=
  ts.count .arrow ≤ 1 ∧ ∀ before after, ts = before ++ .arrow :: after → .comma ∉ after

/-- Whether no letter stands twice behind the arrow. -/
def DistinctOutput (ts : List Token) : Prop :=
  ∀ before after, ts = before ++ .arrow :: after → ∀ c, after.count (.letter c) ≤ 1

/-- Segments of letters with commas between them. -/
def commaSeparated (inputs : List (List Char)) : List Token :=
  [Token.comma].intercalate (inputs.map (·.map .letter))

/-- The subscripts that tokens denote, apart from the text. Where no output is written, it consists
of the letters that occur once. -/
inductive Denotes : List Token → List (List Char) → List Char → Bool → Prop
  | implied {inputs} : inputs ≠ [] →
      Denotes (commaSeparated inputs) inputs (inputs.flatten.filter (inputs.flatten.count · = 1))
        false
  | written {inputs output} : inputs ≠ [] →
      Denotes (commaSeparated inputs ++ .arrow :: output.map .letter) inputs output true

/-- Where a text goes wrong first, and why. Up to there it spells tokens that may stand as they do;
a letter is found to be repeated only in a text that has no other fault. -/
inductive FaultAt (text : List Char) : SyntaxFault → Nat → Prop
  | misplaced {front spelling rest ts t} : text = front ++ (spelling ++ rest) → Spells front ts →
      Arranged ts →
      t.Spelled spelling → ¬ Arranged (ts ++ [t]) → FaultAt text .misplaced (front.length + 1)
  | unexpected {front c rest ts} : text = front ++ c :: rest → Spells front ts → Arranged ts →
      ¬ IsBlank c → NoToken (c :: rest) → FaultAt text (.unexpected c) (front.length + 1)
  | repeatedOutput {front c rest before later} {first : List Char} : text = front ++ c :: rest →
      Spells front (before ++ .arrow :: first.map .letter) → IsLetter c → Spells rest later →
      Arranged (before ++ .arrow :: (first.map .letter ++ .letter c :: later)) → first.Nodup →
      c ∈ first →
      FaultAt text (.repeatedOutput c) (front.length + 1)

section Spelling

theorem Token.Spelled.ne_nil {t : Token} {spelling : List Char} (spelled : t.Spelled spelling) :
    spelling ≠ [] := by
  cases spelled <;> exact List.cons_ne_nil _ _

/-- The text of one of the tokens can be cut out. -/
theorem Spells.split {cs : List Char} {before after : List Token} {t : Token}
    (spells : Spells cs (before ++ t :: after)) :
    ∃ front spelling rest, cs = front ++ (spelling ++ rest) ∧
      Spells front before ∧ t.Spelled spelling ∧ Spells rest after := by
  generalize all : before ++ t :: after = ts at spells
  induction spells generalizing before with
  | nil => simp at all
  | blank blank spells ih =>
    obtain ⟨front, spelling, rest, rfl, left, here, right⟩ := ih all
    exact ⟨_ :: front, spelling, rest, rfl, .blank blank left, here, right⟩
  | token spelled spells ih =>
    cases before with
    | nil =>
      obtain ⟨rfl, rfl⟩ := List.cons.inj all
      exact ⟨[], _, _, rfl, .nil, spelled, spells⟩
    | cons e before =>
      obtain ⟨rfl, others⟩ := List.cons.inj all
      obtain ⟨front, spelling, rest, rfl, left, here, right⟩ := ih others
      exact ⟨_ ++ front, spelling, rest, (List.append_assoc ..).symm, .token spelled left, here,
        right⟩

/-- A text spells tokens as far as the first character that no token begins with. -/
theorem spells_or_stuck (cs : List Char) : (∃ ts, Spells cs ts) ∨
    ∃ front c rest ts, cs = front ++ c :: rest ∧ Spells front ts ∧ ¬ IsBlank c ∧
      NoToken (c :: rest) := by
  induction h : cs.length using Nat.strongRecOn generalizing cs with
  | _ n ih =>
    subst h
    cases cs with
    | nil => exact .inl ⟨[], .nil⟩
    | cons c cs =>
      by_cases blank : IsBlank c
      · rcases ih cs.length (Nat.lt_succ_self _) cs rfl with ⟨ts, spells⟩ |
          ⟨front, e, rest, ts, rfl, spells, stuck⟩
        · exact .inl ⟨ts, .blank blank spells⟩
        · exact .inr ⟨c :: front, e, rest, ts, rfl, .blank blank spells, stuck⟩
      · by_cases stuck : NoToken (c :: cs)
        · exact .inr ⟨[], c, cs, [], rfl, .nil, blank, stuck⟩
        · unfold NoToken at stuck
          push Not at stuck
          obtain ⟨t, spelling, rest, spelled, same⟩ := stuck
          have shorter : rest.length < (c :: cs).length := by
            have := List.length_pos_iff.2 spelled.ne_nil
            rw [same, List.length_append]
            omega
          rw [same]
          rcases ih rest.length shorter rest rfl with ⟨ts, spells⟩ |
            ⟨front, e, rest, ts, rfl, spells, stuck⟩
          · exact .inl ⟨t :: ts, .token spelled spells⟩
          · exact .inr ⟨spelling ++ front, e, rest, t :: ts, (List.append_assoc ..).symm,
              .token spelled spells, stuck⟩

end Spelling

section Arrangement

variable {ts : List Token} {t : Token}

theorem Arranged.tail (arranged : Arranged (t :: ts)) : Arranged ts := by
  obtain ⟨single, behind⟩ := arranged
  rw [List.count_cons] at single
  refine ⟨by omega, fun before after same => ?_⟩
  exact behind (t :: before) after (by rw [same, List.cons_append])

theorem Arranged.notMem_of_arrow (arranged : Arranged (.arrow :: ts)) :
    .comma ∉ ts ∧ .arrow ∉ ts := by
  obtain ⟨single, behind⟩ := arranged
  rw [List.count_cons_self] at single
  exact ⟨behind [] ts rfl, List.count_eq_zero.1 (by omega)⟩

theorem Arranged.append_single (arranged : Arranged ts)
    (fits : .arrow ∈ ts → t ≠ .comma ∧ t ≠ .arrow) : Arranged (ts ++ [t]) := by
  obtain ⟨single, behind⟩ := arranged
  constructor
  · rw [List.count_append, List.count_singleton]
    by_cases before : .arrow ∈ ts
    · have := (fits before).2
      simp [this]
      exact single
    · rw [List.count_eq_zero.2 before]
      split <;> omega
  · intro front after same
    rcases List.eq_nil_or_concat after with rfl | ⟨after, last, rfl⟩
    · exact List.not_mem_nil
    · rw [List.concat_eq_append, ← List.cons_append, ← List.append_assoc] at same
      obtain ⟨rfl, ends⟩ := List.append_inj' same rfl
      obtain rfl : t = last := (List.cons.inj ends).1
      have here : Token.arrow ∈ front ++ .arrow :: after :=
        List.mem_append_right _ List.mem_cons_self
      intro comma
      rw [List.concat_eq_append, List.mem_append, List.mem_singleton] at comma
      rcases comma with within | rfl
      · exact behind front after rfl within
      · exact (fits here).1 rfl

/-- Tokens that may not stand as they do have a first one that may not stand behind those before
it. -/
theorem exists_first_misplaced (disarranged : ¬ Arranged ts) :
    ∃ before t after, ts = before ++ t :: after ∧ Arranged before ∧ ¬ Arranged (before ++ [t]) := by
  induction ts using List.reverseRecOn with
  | nil =>
    refine absurd ⟨by decide, fun before after same => ?_⟩ disarranged
    simp at same
  | append_singleton ts t ih =>
    by_cases arranged : Arranged ts
    · exact ⟨ts, t, [], rfl, arranged, disarranged⟩
    · obtain ⟨before, e, after, rfl, sound, misplaced⟩ := ih arranged
      exact ⟨before, e, after ++ [t], by rw [List.append_assoc, List.cons_append], sound, misplaced⟩

theorem exists_map_letter (noComma : .comma ∉ ts) (noArrow : .arrow ∉ ts) :
    ∃ cs : List Char, ts = cs.map .letter := by
  induction ts with
  | nil => exact ⟨[], rfl⟩
  | cons t ts ih =>
    rw [List.mem_cons, not_or] at noComma noArrow
    obtain ⟨cs, rfl⟩ := ih noComma.2 noArrow.2
    cases t with
    | letter c => exact ⟨c :: cs, rfl⟩
    | comma => exact absurd rfl noComma.1
    | arrow => exact absurd rfl noArrow.1

theorem commaSeparated_single (segment : List Char) :
    commaSeparated [segment] = segment.map .letter := by
  simp [commaSeparated, List.intercalate]

theorem commaSeparated_cons {inputs : List (List Char)} (nonempty : inputs ≠ [])
    (segment : List Char) :
    commaSeparated (segment :: inputs) = segment.map .letter ++
      .comma :: commaSeparated inputs := by
  obtain ⟨next, inputs, rfl⟩ := List.exists_cons_of_ne_nil nonempty
  simp [commaSeparated, List.intercalate]

/-- Putting a letter in front of the first segment puts it in front of all tokens. -/
theorem commaSeparated_letter (c : Char) (segment : List Char) (inputs : List (List Char)) :
    commaSeparated ((c :: segment) :: inputs) =
      .letter c :: commaSeparated (segment :: inputs) := by
  cases inputs with
  | nil => rw [commaSeparated_single, commaSeparated_single, List.map_cons]
  | cons next inputs =>
    rw [commaSeparated_cons (List.cons_ne_nil _ _), commaSeparated_cons (List.cons_ne_nil _ _),
      List.map_cons, List.cons_append]

theorem exists_commaSeparated (noArrow : .arrow ∉ ts) :
    ∃ inputs, inputs ≠ [] ∧ ts = commaSeparated inputs := by
  induction ts with
  | nil => exact ⟨[[]], List.cons_ne_nil _ _, rfl⟩
  | cons t ts ih =>
    rw [List.mem_cons, not_or] at noArrow
    obtain ⟨inputs, nonempty, rfl⟩ := ih noArrow.2
    cases t with
    | letter c =>
      obtain ⟨segment, inputs, rfl⟩ := List.exists_cons_of_ne_nil nonempty
      exact ⟨(c :: segment) :: inputs, List.cons_ne_nil _ _,
        (commaSeparated_letter c segment inputs).symm⟩
    | comma => exact ⟨[] :: inputs, List.cons_ne_nil _ _, (commaSeparated_cons nonempty []).symm⟩
    | arrow => exact absurd rfl noArrow.1

/-- Well arranged tokens are segments, with letters behind the arrow if there is one. -/
theorem Arranged.exists_segments (arranged : Arranged ts) : ∃ inputs, inputs ≠ [] ∧
    (.arrow ∉ ts ∧ ts = commaSeparated inputs ∨
      ∃ output : List Char, ts = commaSeparated inputs ++ .arrow :: output.map .letter) := by
  by_cases arrow : .arrow ∈ ts
  · obtain ⟨before, after, rfl, first⟩ := List.eq_append_cons_of_mem arrow
    obtain ⟨inputs, nonempty, rfl⟩ := exists_commaSeparated first
    obtain ⟨single, behind⟩ := arranged
    rw [List.count_append, List.count_cons_self] at single
    obtain ⟨output, rfl⟩ := exists_map_letter (behind _ _ rfl) (List.count_eq_zero.1 (by omega))
    exact ⟨inputs, nonempty, .inr ⟨output, rfl⟩⟩
  · obtain ⟨inputs, nonempty, rfl⟩ := exists_commaSeparated arrow
    exact ⟨inputs, nonempty, .inl ⟨arrow, rfl⟩⟩

end Arrangement

section Output

theorem exists_first_repeated {output : List Char} (repeats : ¬ output.Nodup) :
    ∃ first c later, output = first ++ c :: later ∧ first.Nodup ∧ c ∈ first := by
  induction output using List.reverseRecOn with
  | nil => exact absurd List.nodup_nil repeats
  | append_singleton output c ih =>
    by_cases distinct : output.Nodup
    · refine ⟨output, c, [], rfl, distinct, ?_⟩
      by_contra fresh
      exact repeats (List.nodup_middle.2 (by simpa using ⟨fresh, distinct⟩))
    · obtain ⟨first, e, later, rfl, sound, again⟩ := ih distinct
      exact ⟨first, e, later ++ [c], by rw [List.append_assoc, List.cons_append], sound, again⟩

theorem letter_injective : Function.Injective Token.letter :=
  fun _ _ same => Token.letter.inj same

theorem DistinctOutput.nodup {before : List Token} {output : List Char}
    (distinct : DistinctOutput (before ++ .arrow :: output.map .letter)) : output.Nodup := by
  rw [List.nodup_iff_count_le_one]
  intro c
  rw [← List.count_map_of_injective output _ letter_injective]
  exact distinct before _ rfl c

theorem distinctOutput_of_notMem {ts : List Token} (noArrow : .arrow ∉ ts) : DistinctOutput ts := by
  intro before after same
  exact absurd (same ▸ List.mem_append_right before List.mem_cons_self) noArrow

/-- Where there is one arrow only, what stands behind it decides. -/
theorem distinctOutput_of_nodup {before : List Token} {output : List Char}
    (arranged : Arranged (before ++ .arrow :: output.map .letter)) (distinct : output.Nodup) :
    DistinctOutput (before ++ .arrow :: output.map .letter) := by
  intro front after same c
  have single := arranged.1
  rw [same, List.count_append, List.count_cons_self] at single
  have noArrow : .arrow ∉ front ∧ .arrow ∉ after := by
    constructor <;> refine List.count_eq_zero.1 (by omega)
  obtain ⟨-, -, rfl⟩ := (List.append_cons_inj_of_notMem noArrow.1 noArrow.2).1 same.symm
  rw [List.count_map_of_injective output _ letter_injective]
  exact List.nodup_iff_count_le_one.1 distinct c

/-- Well arranged tokens without a repeated output letter denote subscripts. -/
theorem Arranged.exists_denotes {ts : List Token} (arranged : Arranged ts) :
    ∃ inputs output explicit, Denotes ts inputs output explicit := by
  obtain ⟨inputs, nonempty, ⟨-, rfl⟩ | ⟨output, rfl⟩⟩ := arranged.exists_segments
  · exact ⟨inputs, _, false, .implied nonempty⟩
  · exact ⟨inputs, output, true, .written nonempty⟩

theorem exists_fault_of_disarranged {front : List Char} {ts : List Token} (spells : Spells front ts)
    (disarranged : ¬ Arranged ts) (rest : List Char) :
    ∃ cause column, FaultAt (front ++ rest) cause column := by
  obtain ⟨before, t, after, rfl, arranged, misplaced⟩ := exists_first_misplaced disarranged
  obtain ⟨left, spelling, right, rfl, spelled, here, -⟩ := spells.split
  have same : left ++ (spelling ++ right) ++ rest = left ++ (spelling ++ (right ++ rest)) := by
    simp only [List.append_assoc]
  exact ⟨_, _, .misplaced same spelled arranged here misplaced⟩

theorem exists_fault_of_repeated {text : List Char} {before : List Token} {output : List Char}
    (spells : Spells text (before ++ .arrow :: output.map .letter))
    (arranged : Arranged (before ++ .arrow :: output.map .letter)) (repeats : ¬ output.Nodup) :
    ∃ cause column, FaultAt text cause column := by
  obtain ⟨first, c, later, rfl, distinct, again⟩ := exists_first_repeated repeats
  rw [List.map_append, List.map_cons] at spells arranged
  rw [← List.cons_append, ← List.append_assoc] at spells
  obtain ⟨front, spelling, rest, rfl, left, here, right⟩ := spells.split
  cases here with
  | letter isLetter => exact ⟨_, _, .repeatedOutput rfl left isLetter right arranged distinct again⟩

/-- Every text denotes subscripts or is at fault somewhere. -/
theorem denotes_or_fault (text : List Char) :
    (∃ ts inputs output explicit, Spells text ts ∧ Arranged ts ∧ DistinctOutput ts ∧
      Denotes ts inputs output explicit) ∨ ∃ cause column, FaultAt text cause column := by
  rcases spells_or_stuck text with ⟨ts, spells⟩ | ⟨front, c, rest, ts, rfl, spells, mark, stuck⟩
  · by_cases arranged : Arranged ts
    · obtain ⟨inputs, nonempty, ⟨noArrow, rfl⟩ | ⟨output, rfl⟩⟩ := arranged.exists_segments
      · exact .inl ⟨_, _, _, _, spells, arranged, distinctOutput_of_notMem noArrow,
          .implied nonempty⟩
      · by_cases distinct : output.Nodup
        · exact .inl ⟨_, _, _, _, spells, arranged, distinctOutput_of_nodup arranged distinct,
            .written nonempty⟩
        · exact .inr (exists_fault_of_repeated spells arranged distinct)
    · refine .inr ?_
      simpa using exists_fault_of_disarranged spells arranged []
  · by_cases arranged : Arranged ts
    · exact .inr ⟨_, _, .unexpected rfl spells arranged mark stuck⟩
    · exact .inr (exists_fault_of_disarranged spells arranged (c :: rest))

end Output

end TensorCalculus.Subscripts
