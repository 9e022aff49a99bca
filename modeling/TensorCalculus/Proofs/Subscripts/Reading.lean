import Mathlib.Data.List.TakeWhile
import TensorCalculus.Proofs.Subscripts.Grammar

/-!
# Reading and the grammar

The reader accepts the texts that denote subscripts, with what they denote, and finds the first
fault of all others. As every text is of one kind or the other, it is enough to run the reader on
both. -/

namespace TensorCalculus.Subscripts

section Marks

def Token.mark : Token → Mark
  | letter c => .letter c
  | comma => .comma
  | arrow => .arrow

theorem isAlpha_iff_isLetter {c : Char} : c.isAlpha ↔ IsLetter c := by
  have upper : c.isUpper ↔ 'A' ≤ c ∧ c ≤ 'Z' := decide_eq_true_iff
  have lower : c.isLower ↔ 'a' ≤ c ∧ c ≤ 'z' := by
    change (decide ('a' ≤ c) && decide (c ≤ 'z')) = true ↔ _
    rw [Bool.and_eq_true, decide_eq_true_iff, decide_eq_true_iff]
  change (c.isUpper || c.isLower) = true ↔ _
  rw [Bool.or_eq_true, upper, lower]
  rfl

theorem not_isBlank_of_isLetter {c : Char} (letter : IsLetter c) : ¬ IsBlank c := by
  rintro (rfl | rfl) <;> revert letter <;> unfold IsLetter <;> decide

theorem marks_blank (column : Nat) {c : Char} (blank : IsBlank c) (cs : List Char) :
    marks column (c :: cs) = marks (column + 1) cs := by
  rcases blank with rfl | rfl <;> simp [marks]

/-- A character that is no blank and begins no arrow is marked by itself. -/
theorem marks_cons (column : Nat) {c : Char} {cs : List Char} (mark : ¬ IsBlank c)
    (noArrow : ∀ rest, c :: cs ≠ '-' :: '>' :: rest) :
    marks column (c :: cs) = ⟨markOf c, column⟩ :: marks (column + 1) cs := by
  rw [marks]
  · exact if_neg mark
  · rintro rest rfl rfl
    exact noArrow rest rfl

theorem marks_spelling (column : Nat) {t : Token} {spelling : List Char}
    (spelled : t.Spelled spelling) (cs : List Char) :
    marks column (spelling ++ cs) = ⟨t.mark, column⟩ :: marks (column + spelling.length) cs := by
  cases spelled with
  | letter letter =>
    rw [List.singleton_append, marks_cons column (not_isBlank_of_isLetter letter)]
    · rw [markOf, if_neg, if_pos (isAlpha_iff_isLetter.2 letter)]
      · rfl
      · rintro rfl
        revert letter
        unfold IsLetter
        decide
    · intro rest same
      obtain ⟨rfl, -⟩ := List.cons.inj same
      revert letter
      unfold IsLetter
      decide
  | comma => rfl
  | arrow => rfl

/-- The marks of a text that begins with tokens begin with theirs. -/
theorem exists_marks_eq_append {front : List Char} {ts : List Token} (spells : Spells front ts)
    (column : Nat) (rest : List Char) :
    ∃ placed, marks column (front ++ rest) = placed ++ marks (column + front.length) rest ∧
      placed.map (·.mark) = ts.map Token.mark := by
  induction spells generalizing column with
  | nil => exact ⟨[], rfl, rfl⟩
  | blank blank spells ih =>
    obtain ⟨placed, same, marked⟩ := ih (column + 1)
    refine ⟨placed, ?_, marked⟩
    rw [List.cons_append, marks_blank column blank, same, List.length_cons, Nat.add_right_comm,
      Nat.add_assoc]
  | @token t spelling cs ts spelled spells ih =>
    obtain ⟨placed, same, marked⟩ := ih (column + spelling.length)
    refine ⟨⟨t.mark, column⟩ :: placed, ?_, ?_⟩
    · rw [List.append_assoc, marks_spelling column spelled, same, List.length_append, Nat.add_assoc,
        List.cons_append]
    · rw [List.map_cons, List.map_cons, marked]

/-- A character that begins no token is marked as a stray one. -/
theorem marks_stray (column : Nat) {c : Char} {rest : List Char} (mark : ¬ IsBlank c)
    (stuck : NoToken (c :: rest)) :
    marks column (c :: rest) = ⟨.stray c, column⟩ :: marks (column + 1) rest := by
  have noComma : c ≠ ',' := by
    rintro rfl
    exact stuck .comma [','] rest .comma rfl
  have noLetter : ¬ c.isAlpha := fun alpha =>
    stuck (.letter c) [c] rest (.letter (isAlpha_iff_isLetter.1 alpha)) rfl
  rw [marks_cons column mark fun cs => stuck .arrow ['-', '>'] cs .arrow, markOf, if_neg noComma,
    if_neg noLetter]

end Marks

section Arrangement

variable {placed ms : List PlacedMark} {ts : List Token}

/-- Well arranged tokens are passed over; behind an arrow there are none but letters. -/
theorem offending_append {behindArrow : Bool} (marked : placed.map (·.mark) = ts.map Token.mark)
    (arranged : Arranged ts) (behind : behindArrow → .comma ∉ ts ∧ .arrow ∉ ts) :
    offending behindArrow (placed ++ ms) = offending (behindArrow || decide (.arrow ∈ ts)) ms := by
  induction ts generalizing placed behindArrow with
  | nil =>
    obtain rfl := List.map_eq_nil_iff.1 marked
    simp
  | cons t ts ih =>
    obtain ⟨m, others, rfl, same, rest⟩ := List.map_eq_cons_iff.1 marked
    rw [List.cons_append, offending, same]
    cases t with
    | letter c =>
      simp only [Token.mark]
      rw [ih rest arranged.tail fun b => by simpa using behind b]
      simp
    | comma =>
      have first : behindArrow = false := by
        by_contra later
        exact (behind (by simpa using later)).1 List.mem_cons_self
      subst first
      simp only [Token.mark]
      rw [if_neg Bool.false_ne_true, ih rest arranged.tail (by simp)]
      simp
    | arrow =>
      have first : behindArrow = false := by
        by_contra later
        exact (behind (by simpa using later)).2 List.mem_cons_self
      subst first
      simp only [Token.mark]
      rw [if_neg Bool.false_ne_true, ih rest arranged.tail fun _ => arranged.notMem_of_arrow]
      simp

theorem offending_of_arranged (marked : placed.map (·.mark) = ts.map Token.mark)
    (arranged : Arranged ts) : offending false placed = none := by
  rw [← List.append_nil placed, offending_append marked arranged (by simp), offending]

theorem offending_of_stray {c : Char} {column : Nat}
    (marked : placed.map (·.mark) = ts.map Token.mark) (arranged : Arranged ts) :
    offending false (placed ++ ⟨.stray c, column⟩ :: ms) = some ⟨.stray c, column⟩ := by
  rw [offending_append marked arranged (by simp), offending]

/-- A token that does not fit behind well arranged ones is the offending one. -/
theorem offending_of_misplaced {t : Token} {column : Nat}
    (marked : placed.map (·.mark) = ts.map Token.mark) (arranged : Arranged ts)
    (misplaced : ¬ Arranged (ts ++ [t])) :
    offending false (placed ++ ⟨t.mark, column⟩ :: ms) = some ⟨t.mark, column⟩ ∧
      faultOf t.mark = .misplaced := by
  have clash : .arrow ∈ ts ∧ (t = .comma ∨ t = .arrow) := by
    by_contra fits
    refine misplaced (arranged.append_single fun arrow => ?_)
    by_contra bad
    exact fits ⟨arrow, by tauto⟩
  obtain ⟨arrow, rfl | rfl⟩ := clash
  all_goals
    rw [offending_append marked arranged (by simp), decide_eq_true arrow]
    exact ⟨rfl, rfl⟩

end Arrangement

section Output

theorem segments_letter (c : Char) (segment : List Char) (inputs : List (List Char))
    {ms : List Mark} (same : segments ms = segment :: inputs) :
    segments (.letter c :: ms) = (c :: segment) :: inputs := by
  rw [segments, same]

theorem segments_commaSeparated {inputs : List (List Char)} (nonempty : inputs ≠ []) :
    segments ((commaSeparated inputs).map Token.mark) = inputs := by
  induction inputs with
  | nil => exact absurd rfl nonempty
  | cons segment inputs ih =>
    induction segment with
    | nil =>
      cases inputs with
      | nil => rfl
      | cons next inputs =>
        rw [commaSeparated_cons (List.cons_ne_nil _ _), List.map_nil, List.nil_append,
          List.map_cons, Token.mark, segments, ih (List.cons_ne_nil _ _)]
    | cons c segment step =>
      rw [commaSeparated_letter, List.map_cons, Token.mark]
      exact segments_letter c segment inputs (step (List.cons_ne_nil _ _))

/-- Letters that stand once each and were not seen before are passed over. -/
theorem firstRepeated_append {placed ms : List PlacedMark} {seen cs : List Char}
    (marked : placed.map (·.mark) = cs.map Mark.letter) (distinct : cs.Nodup)
    (fresh : ∀ c ∈ cs, c ∉ seen) :
    firstRepeated seen (placed ++ ms) = firstRepeated (cs.reverse ++ seen) ms := by
  induction cs generalizing placed seen with
  | nil =>
    obtain rfl := List.map_eq_nil_iff.1 marked
    rfl
  | cons c cs ih =>
    obtain ⟨m, others, rfl, same, rest⟩ := List.map_eq_cons_iff.1 marked
    obtain ⟨new, distinct⟩ := List.nodup_cons.1 distinct
    have unseen : ∀ e ∈ cs, e ∉ c :: seen := by
      intro e he seen
      rcases List.mem_cons.1 seen with rfl | before
      · exact new he
      · exact fresh e (List.mem_cons_of_mem c he) before
    rw [List.cons_append, firstRepeated, same]
    simp only [if_neg (fresh c List.mem_cons_self)]
    rw [ih rest distinct unseen, List.reverse_cons, List.append_assoc, List.singleton_append]

theorem letters_eq {placed : List PlacedMark} {cs : List Char}
    (marked : placed.map (·.mark) = cs.map Mark.letter) : letters placed = cs := by
  induction cs generalizing placed with
  | nil =>
    obtain rfl := List.map_eq_nil_iff.1 marked
    rfl
  | cons c cs ih =>
    obtain ⟨m, others, rfl, same, rest⟩ := List.map_eq_cons_iff.1 marked
    rw [letters, List.filterMap_cons, same]
    exact congrArg (c :: ·) (ih rest)

/-- Elements that occur once stand in the order of their first appearance. -/
theorem filter_firstOccurrences {as : List Char} {p : Char → Bool}
    (once : ∀ c ∈ as, p c → as.count c = 1) : (firstOccurrences as).filter p = as.filter p := by
  induction as with
  | nil => rfl
  | cons b bs ih =>
    have apart : ∀ c ∈ bs, p c → c ≠ b ∧ bs.count c = 1 := by
      intro c hc here
      have total := once c (List.mem_cons_of_mem b hc) here
      have present := List.count_pos_iff.2 hc
      rw [List.count_cons] at total
      by_cases same : b = c
      · simp [same] at total
        omega
      · exact ⟨Ne.symm same, by simpa [same] using total⟩
    have kept : ((firstOccurrences bs).filter (· ≠ b)).filter p =
        (firstOccurrences bs).filter p := by
      rw [List.filter_filter]
      apply List.filter_congr
      intro c hc
      by_cases here : p c
      · simp [here, (apart c (mem_firstOccurrences.1 hc) here).1]
      · simp [here]
    rw [firstOccurrences, List.filter_cons, List.filter_cons, kept,
      ih fun c hc here => (apart c hc here).2]

theorem impliedOutput_eq_filter (inputs : List (List Char)) :
    impliedOutput inputs = inputs.flatten.filter (inputs.flatten.count · = 1) :=
  filter_firstOccurrences fun _ _ once => of_decide_eq_true once

end Output

section Read

variable {text : String}

theorem read_of_offending {m : PlacedMark}
    (found : offending false (marks 1 text.toList) = some m) :
    read text = .error (.subscripts (faultOf m.mark) (some m.column) (some text)) := by
  unfold read
  simp only [found]

theorem read_of_notMem (sound : offending false (marks 1 text.toList) = none)
    (noArrow : ∀ m ∈ marks 1 text.toList, m.mark ≠ .arrow) {inputs : List (List Char)}
    (divided : segments ((marks 1 text.toList).map (·.mark)) = inputs) :
    read text = .ok { inputs, output := impliedOutput inputs, explicit := false, text } := by
  have kept : (marks 1 text.toList).takeWhile (·.mark ≠ .arrow) = marks 1 text.toList :=
    List.takeWhile_eq_self_iff.2 fun m hm => decide_eq_true (noArrow m hm)
  have dropped : (marks 1 text.toList).dropWhile (·.mark ≠ .arrow) = [] :=
    List.dropWhile_eq_nil_iff.2 fun m hm => decide_eq_true (noArrow m hm)
  unfold read
  simp only [sound, kept, dropped, divided]

theorem read_of_arrow (sound : offending false (marks 1 text.toList) = none)
    {front out : List PlacedMark} {m : PlacedMark} (split : marks 1 text.toList = front ++ m :: out)
    (arrow : m.mark = .arrow)
    (first : ∀ m ∈ front, m.mark ≠ .arrow) {inputs : List (List Char)}
    (divided : segments (front.map (·.mark)) = inputs) :
    (∀ c column, firstRepeated [] out = some (c, column) →
        read text = .error (.subscripts (.repeatedOutput c) (some column) (some text))) ∧
      (firstRepeated [] out = none →
        read text = .ok { inputs, output := letters out, explicit := true, text }) := by
  have kept : (marks 1 text.toList).takeWhile (·.mark ≠ .arrow) = front := by
    rw [split, List.takeWhile_append_of_pos fun m hm => decide_eq_true (first m hm),
      List.takeWhile_cons_of_neg, List.append_nil]
    simp [arrow]
  have dropped : (marks 1 text.toList).dropWhile (·.mark ≠ .arrow) = m :: out := by
    rw [split, List.dropWhile_append_of_pos fun m hm => decide_eq_true (first m hm),
      List.dropWhile_cons_of_neg]
    simp [arrow]
  unfold read
  simp only [sound, kept, dropped, divided]
  constructor
  · intro c column found
    rw [found]
  · intro distinct
    rw [distinct]

theorem mark_ne_arrow {placed : List PlacedMark} {ts : List Token}
    (marked : placed.map (·.mark) = ts.map Token.mark) (noArrow : .arrow ∉ ts) :
    ∀ m ∈ placed, m.mark ≠ .arrow := by
  intro m hm arrow
  have here : m.mark ∈ ts.map Token.mark := marked ▸ List.mem_map_of_mem hm
  obtain ⟨t, ht, same⟩ := List.mem_map.1 here
  rw [arrow] at same
  cases t with
  | arrow => exact noArrow ht
  | _ => cases same

theorem notMem_commaSeparated (inputs : List (List Char)) : .arrow ∉ commaSeparated inputs := by
  induction inputs with
  | nil => exact List.not_mem_nil
  | cons segment inputs ih =>
    cases inputs with
    | nil => simp [commaSeparated_single]
    | cons next inputs =>
      rw [commaSeparated_cons (List.cons_ne_nil _ _)]
      simp [ih]

theorem read_of_denotes {ts : List Token} {inputs : List (List Char)} {output : List Char}
    {explicit : Bool} (spells : Spells text.toList ts) (arranged : Arranged ts)
    (distinct : DistinctOutput ts)
    (denotes : Denotes ts inputs output explicit) :
    read text = .ok { inputs, output, explicit, text } := by
  obtain ⟨placed, same, marked⟩ := exists_marks_eq_append spells 1 []
  rw [List.append_nil, marks, List.append_nil] at same
  have sound := offending_of_arranged marked arranged
  rw [← same] at sound
  cases denotes with
  | implied nonempty =>
    rw [← impliedOutput_eq_filter]
    refine read_of_notMem sound (same ▸ mark_ne_arrow marked (notMem_commaSeparated inputs)) ?_
    rw [same, marked, segments_commaSeparated nonempty]
  | written nonempty =>
    rw [List.map_append, List.map_cons] at marked
    obtain ⟨front, rest, rfl, before, behind⟩ := List.map_eq_append_iff.1 marked
    obtain ⟨m, out, rfl, arrow, after⟩ := List.map_eq_cons_iff.1 behind
    rw [List.map_map] at after
    obtain ⟨-, accepted⟩ :=
      read_of_arrow sound same arrow (mark_ne_arrow before (notMem_commaSeparated inputs))
        (by rw [before, segments_commaSeparated nonempty])
    rw [accepted, letters_eq after]
    rw [← List.append_nil out, firstRepeated_append after distinct.nodup fun _ _ =>
      List.not_mem_nil, firstRepeated]

theorem read_of_faultAt {cause : SyntaxFault} {column : Nat}
    (fault : FaultAt text.toList cause column) :
    read text = .error (.subscripts cause (some column) (some text)) := by
  cases fault with
  | misplaced split spells arranged spelled misplaced =>
    obtain ⟨placed, same, marked⟩ := exists_marks_eq_append spells 1 _
    rw [← split, marks_spelling _ spelled] at same
    obtain ⟨found, cause⟩ := offending_of_misplaced marked arranged misplaced
    rw [read_of_offending (same ▸ found), cause, Nat.add_comm]
  | unexpected split spells arranged mark stuck =>
    obtain ⟨placed, same, marked⟩ := exists_marks_eq_append spells 1 _
    rw [← split, marks_stray _ mark stuck] at same
    rw [read_of_offending (same ▸ offending_of_stray marked arranged), Nat.add_comm]
    rfl
  | @repeatedOutput front c rest before later first split spells letter right arranged distinct
    again =>
    obtain ⟨placed, same, marked⟩ := exists_marks_eq_append spells 1 ([c] ++ rest)
    obtain ⟨others, tail, ends⟩ := exists_marks_eq_append right (1 + front.length + [c].length) []
    rw [List.append_nil, marks, List.append_nil] at tail
    rw [marks_spelling _ (.letter letter), tail] at same
    rw [show front ++ ([c] ++ rest) = text.toList from split.symm] at same
    have sound : offending false (marks 1 text.toList) = none := by
      rw [same]
      refine offending_of_arranged ?_ arranged
      rw [List.map_append, marked, List.map_cons, ends]
      simp
    have noArrow : .arrow ∉ before := by
      have single := arranged.1
      rw [List.count_append, List.count_cons_self] at single
      exact List.count_eq_zero.1 (by omega)
    rw [List.map_append, List.map_cons] at marked
    obtain ⟨left, middle, rfl, outside, behind⟩ := List.map_eq_append_iff.1 marked
    obtain ⟨m, letters, rfl, arrow, seen⟩ := List.map_eq_cons_iff.1 behind
    rw [List.map_map] at seen
    rw [List.append_assoc, List.cons_append] at same
    obtain ⟨refused, -⟩ := read_of_arrow sound same arrow (mark_ne_arrow outside noArrow) rfl
    refine refused c (front.length + 1) ?_
    rw [firstRepeated_append seen distinct fun _ _ => List.not_mem_nil, firstRepeated, Nat.add_comm]
    simp [Token.mark, again]

/-- What is accepted denotes what it is read as: a text at fault would have been refused. -/
theorem denotes_of_read {s : Subscripts} (accepted : read text = .ok s) : s.text = text ∧
    ∃ ts, Spells text.toList ts ∧ Arranged ts ∧ DistinctOutput ts ∧
      Denotes ts s.inputs s.output s.explicit := by
  rcases denotes_or_fault text.toList with ⟨ts, _, _, _, spells, arranged, distinct, denotes⟩ |
    ⟨cause, column, fault⟩
  · rw [read_of_denotes spells arranged distinct denotes] at accepted
    cases accepted
    exact ⟨rfl, ts, spells, arranged, distinct, denotes⟩
  · rw [read_of_faultAt fault] at accepted
    cases accepted

theorem faultAt_of_read {fault : Fault} (refused : read text = .error fault) :
    ∃ cause column, FaultAt text.toList cause column ∧
      fault = .subscripts cause (some column) (some text) := by
  rcases denotes_or_fault text.toList with ⟨ts, _, _, _, spells, arranged, distinct, denotes⟩ |
    ⟨cause, column, here⟩
  · rw [read_of_denotes spells arranged distinct denotes] at refused
    cases refused
  · rw [read_of_faultAt here] at refused
    exact ⟨cause, column, here, (Except.error.inj refused).symm⟩

end Read

/-- The reader and the grammar agree. A text is accepted exactly when it spells tokens with at most
one arrow, no comma behind the arrow and no letter twice behind it; it is then read as what it
denotes. Every other text is refused for its first fault, in the column behind those of all
characters before the fault. -/
theorem read_follows_grammar (text : String) :
    ((∃ s, read text = .ok s) ↔ ∃ ts, Spells text.toList ts ∧ Arranged ts ∧ DistinctOutput ts) ∧
      (∀ s, read text = .ok s ↔ s.text = text ∧
        ∃ ts, Spells text.toList ts ∧ Arranged ts ∧ DistinctOutput ts ∧
        Denotes ts s.inputs s.output s.explicit) ∧
      (∀ fault, read text = .error fault ↔ ∃ cause column, FaultAt text.toList cause column ∧
        fault = .subscripts cause (some column) (some text)) ∧
      SyntaxFault.misplaced.message = "Malformed einsum notation" ∧
      (∀ c,
        (SyntaxFault.unexpected c).message =
          s!"Unexpected character {Text.quoteChar c} in einsum notation") ∧
      (∀ c : Char,
        (SyntaxFault.repeatedOutput c).message =
          s!"Output index '{c}' appears more than once") := by
  refine ⟨?_, ?_, ?_, rfl, fun _ => rfl, fun _ => rfl⟩
  · constructor
    · rintro ⟨s, accepted⟩
      obtain ⟨-, ts, spells, arranged, distinct, -⟩ := denotes_of_read accepted
      exact ⟨ts, spells, arranged, distinct⟩
    · rintro ⟨ts, spells, arranged, distinct⟩
      obtain ⟨inputs, output, explicit, denotes⟩ := arranged.exists_denotes
      exact ⟨_, read_of_denotes spells arranged distinct denotes⟩
  · intro s
    constructor
    · exact denotes_of_read
    · rintro ⟨rfl, ts, spells, arranged, distinct, denotes⟩
      exact read_of_denotes spells arranged distinct denotes
  · intro fault
    constructor
    · exact faultAt_of_read
    · rintro ⟨cause, column, here, rfl⟩
      exact read_of_faultAt here

example : (read "ij -> ii").toOption = none ∧ (read "ij -> ji").toOption.map (·.output) =
    some ['j', 'i'] ∧
    read "ij->ii," = .error (.subscripts .misplaced (some 7) (some "ij->ii,")) := by
  decide +kernel

end TensorCalculus.Subscripts
