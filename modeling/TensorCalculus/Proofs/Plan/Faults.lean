import TensorCalculus.Proofs.Plan.Resolution

/-!
# Why contractions are refused

Subscripts are consistent with shapes when there is a shape for every segment and an axis for every
symbol of it, every symbol has the same size wherever it occurs, and the output takes its symbols
from the operands. All else is refused for its first fault: the number of operands counts before
their ranks, these before what an operand repeats or contradicts, and the output comes last. -/

namespace TensorCalculus

open TensorCalculus.Outcome

/-- Each element keeps its place relative to the others. -/
theorem pairwise_idxOf_firstOccurrences {α : Type} [DecidableEq α] (as : List α) :
    (firstOccurrences as).Pairwise fun a b => as.idxOf a < as.idxOf b := by
  induction as with
  | nil => exact .nil
  | cons c as ih =>
    apply List.pairwise_cons.2
    constructor
    · intro b hb
      have other : b ≠ c := by simpa using (List.mem_filter.1 hb).2
      rw [List.idxOf_cons_self, List.idxOf_cons_ne as other.symm]
      exact Nat.succ_pos _
    · apply (ih.filter _).imp_of_mem
      intro a b ha hb before
      have first : a ≠ c := by simpa using (List.mem_filter.1 ha).2
      have second : b ≠ c := by simpa using (List.mem_filter.1 hb).2
      rw [List.idxOf_cons_ne as first.symm, List.idxOf_cons_ne as second.symm]
      exact Nat.succ_lt_succ before

/-- A list whose elements do not all have a property has a first one without it. -/
theorem exists_first_without {α : Type} {as : List α} {P : α → Prop} (fails : ¬ ∀ a ∈ as, P a) :
    ∃ before a after, as = before ++ a :: after ∧ (∀ b ∈ before, P b) ∧ ¬ P a := by
  classical
  obtain ⟨a, found⟩ : ∃ a, as.find? (fun a => ¬ P a) = some a := by
    rw [← Option.isSome_iff_exists, List.find?_isSome]
    simpa using fails
  obtain ⟨lacks, before, after, rfl, earlier⟩ := List.find?_eq_some_iff_append.1 found
  exact ⟨before, a, after, rfl, by simpa using earlier, by simpa using lacks⟩

/-- Pairs whose second part follows from the first one. -/
theorem eq_zip_of_snd_eq {α β : Type} {pairs : List (α × β)} {f : α → β}
    (same : ∀ pair ∈ pairs, pair.2 = f pair.1) :
    pairs = (pairs.map (·.1)).zip ((pairs.map (·.1)).map f) := by
  calc
    pairs = pairs.map fun pair => (pair.1, f pair.1) :=
      (List.map_id pairs).symm.trans
        (List.map_congr_left fun pair hp => Prod.ext rfl (same pair hp))
    _ = _ := by
      rw [List.map_map, List.zip_map']
      rfl

namespace SymbolSizes

variable {known : SymbolSizes} {operand : Nat} {label : String} {policy : RepetitionPolicy}

/-- Entries are taken in one after the other. -/
theorem extend_append (front rest : List (Char × Int)) :
    extend operand label known (front ++ rest) =
      extend operand label known front >>= fun known => extend operand label known rest := by
  induction front generalizing known with
  | nil => rfl
  | cons entry front ih =>
    obtain ⟨c, d⟩ := entry
    rw [List.cons_append, extend, extend]
    cases known.lookup c with
    | none => exact ih
    | some first =>
      by_cases same : first = d
      · simpa only [if_pos same] using ih
      · simp only [if_neg same, error_bind]

/-- Operands are taken in one after the other. -/
theorem extendAll_append (before after : List (List Char × List Int)) :
    extendAll policy label operand known (before ++ after) =
      extendAll policy label operand known before >>= fun known =>
        extendAll policy label (operand + before.length) known after := by
  induction before generalizing operand known with
  | nil => rfl
  | cons pair before ih =>
    obtain ⟨segment, shape⟩ := pair
    rw [List.cons_append, extendAll, extendAll]
    by_cases refused : policy = .reject ∧ ¬ segment.Nodup
    · simp only [if_pos refused, error_bind]
    · simp only [if_neg refused, bind_assoc, ih, List.length_cons, Nat.add_assoc, Nat.add_comm 1]

/-- An axis whose size is not that of its symbol is refused, if the symbol has a size already. -/
theorem extend_of_contradiction (operand : Nat) (label : String) {size : Char → Int}
    {front : List (Char × Int)} {c : Char} {d : Int} (rest : List (Char × Int))
    (agrees : Agrees known size)
    (sized : ∀ entry ∈ front, entry.2 = size entry.1)
    (earlier : (known.lookup c).isSome ∨ c ∈ front.map (·.1))
    (differ : d ≠ size c) :
    extend operand label known (front ++ (c, d) :: rest) =
      .error (.shape (.inconsistentSize c d (size c)) (some operand) (some label)) := by
  obtain ⟨next, taken, agree, names⟩ := extend_of_agrees operand label (front.map (·.1)) agrees
  rw [← eq_zip_of_snd_eq sized] at taken
  obtain ⟨first, found⟩ := Option.isSome_iff_exists.1 ((names c).2 earlier)
  rw [extend_append, taken, ok_bind, extend, found]
  simp only [agree c first found, if_neg differ.symm]

end SymbolSizes

namespace Subscripts

variable (s : Subscripts) (shapes : List (List Int)) (policy : RepetitionPolicy)

/-- All occurrences of symbols in the operands, each with the size of its axis, in the order in
which they stand. -/
def occurrences : SymbolSizes :=
  (s.inputs.zip shapes).flatMap fun pair => pair.1.zip pair.2

/-- Whether there is a shape for every segment and an axis for every symbol. -/
structure Ranked : Prop where
  count_eq : s.inputs.length = shapes.length
  rank_eq : ∀ pair ∈ s.inputs.zip shapes, pair.1.length = pair.2.length

/-- Whether subscripts and shapes have no fault. -/
structure Consistent : Prop extends s.Ranked shapes where
  nodup_of_reject : policy = .reject → ∀ segment ∈ s.inputs, segment.Nodup
  size_unique : ∀ c d e, (c, d) ∈ s.occurrences shapes → (c, e) ∈ s.occurrences shapes → d = e
  occurs_of_mem_output : ∀ c ∈ s.output, ∃ segment ∈ s.inputs, c ∈ segment

/-- Whether one operand has no fault: it repeats no symbol where repetitions are rejected, and each
of its axes has the size that the symbol has where it occurs first. -/
structure Faultless (operand : List Char × List Int) : Prop where
  nodup_of_reject : policy = .reject → operand.1.Nodup
  lookup_eq :
    ∀ entry ∈ operand.1.zip operand.2, (s.occurrences shapes).lookup entry.1 = some entry.2

/-- The fault that counts before all others. An operand is known by the number of those in front of
it, and an axis at fault is the first one of the first operand at fault. -/
inductive FirstFault : Fault → Prop
  | count : s.inputs.length ≠ shapes.length →
      FirstFault (.shape (.operandCount s.inputs.length shapes.length) none (some s.label))
  | rank {before segment shape after} : s.inputs.length = shapes.length →
      s.inputs.zip shapes = before ++ (segment, shape) :: after →
      (∀ pair ∈ before, pair.1.length = pair.2.length) →
      segment.length ≠ shape.length →
      FirstFault
        (.shape (.segmentLength segment (toString shape.length)) (some before.length)
          (some s.label))
  | repetition {before segment shape after} : s.Ranked shapes →
      s.inputs.zip shapes = before ++ (segment, shape) :: after →
      (∀ pair ∈ before, s.Faultless shapes policy pair) →
      policy = .reject → ¬ segment.Nodup →
      FirstFault (.subscripts (.repeatedSymbol before.length segment) none none)
  | size {before segment shape after front c d rest first} : s.Ranked shapes →
      s.inputs.zip shapes = before ++ (segment, shape) :: after →
      (∀ pair ∈ before, s.Faultless shapes policy pair) →
      (policy = .reject → segment.Nodup) → segment.zip shape = front ++ (c, d) :: rest →
      (∀ entry ∈ front, (s.occurrences shapes).lookup entry.1 = some entry.2) →
      (s.occurrences shapes).lookup c = some first → d ≠ first →
      FirstFault (.shape (.inconsistentSize c d first) (some before.length) (some s.label))
  | output : s.Ranked shapes → (∀ pair ∈ s.inputs.zip shapes, s.Faultless shapes policy pair) →
      s.output.filter (· ∉ s.symbols) ≠ [] →
      FirstFault (.shape (.missingOutput (s.output.filter (· ∉ s.symbols))) none (some s.label))

variable {s shapes policy}

theorem checkSegments_of_first {label : String} {operand : Nat} {segments : List (List Char)}
    {ranks : List Int} {before after : List (List Char × Int)} {segment : List Char} {rank : Int}
    (split : segments.zip ranks = before ++ (segment, rank) :: after)
    (earlier : ∀ pair ∈ before, (pair.1.length : Int) = pair.2)
    (differ : (segment.length : Int) ≠ rank) :
    checkSegments label operand segments ranks =
      .error (.shape (.segmentLength segment (toString rank)) (some ↑(operand + before.length))
        (some label)) := by
  induction before generalizing segments ranks operand with
  | nil =>
    cases segments with
    | nil => simp at split
    | cons segment' segments =>
      cases ranks with
      | nil => simp at split
      | cons rank' ranks =>
        obtain ⟨same, -⟩ := List.cons.inj split
        cases same
        rw [checkSegments, if_neg differ]
        rfl
  | cons pair before ih =>
    cases segments with
    | nil => simp at split
    | cons segment' segments =>
      cases ranks with
      | nil => simp at split
      | cons rank' ranks =>
        obtain ⟨same, others⟩ := List.cons.inj split
        cases same
        rw [List.forall_mem_cons] at earlier
        rw [checkSegments, if_pos earlier.1, ih others earlier.2, List.length_cons, Nat.add_assoc,
          Nat.add_comm 1]

/-- Ranks are refused for the first one that is not that of its segment. -/
theorem checkRanks_of_first {before after : List (List Char × List Int)} {segment : List Char}
    {shape : List Int} (count : s.inputs.length = shapes.length)
    (split : s.inputs.zip shapes = before ++ (segment, shape) :: after)
    (earlier : ∀ pair ∈ before, pair.1.length = pair.2.length)
    (differ : segment.length ≠ shape.length) :
    s.checkRanks (shapes.map fun shape => (shape.length : Int)) =
      .error
        (.shape (.segmentLength segment (toString shape.length)) (some before.length)
          (some s.label)) := by
  have zipped : s.inputs.zip (shapes.map fun shape => (shape.length : Int)) =
      before.map (fun pair => (pair.1, (pair.2.length : Int))) ++
        (segment, (shape.length : Int)) :: after.map
          (fun pair => (pair.1, (pair.2.length : Int))) := by
    rw [List.zip_map_right, split, List.map_append, List.map_cons]
    rfl
  have sameBefore : ∀ pair ∈ before.map (fun pair => (pair.1, (pair.2.length : Int))),
      (pair.1.length : Int) = pair.2 := by
    rw [List.forall_mem_map]
    exact fun pair hp => congrArg Int.ofNat (earlier pair hp)
  have counted : s.inputs.length = (shapes.map fun shape => (shape.length : Int)).length := by
    simpa using count
  rw [checkRanks, if_pos counted,
    checkSegments_of_first zipped sameBefore (Int.ofNat_inj.not.2 differ), List.length_map,
    Nat.zero_add]
  rfl

theorem Ranked.checkRanks_eq (ranked : s.Ranked shapes) :
    s.checkRanks (shapes.map fun shape => (shape.length : Int)) = .ok () := by
  rw [checkRanks_eq_ok_iff]
  apply List.ext_getElem (by simp [ranked.count_eq])
  intro i hi hi'
  rw [List.length_map] at hi hi'
  have paired : (s.inputs[i], shapes[i]) ∈ s.inputs.zip shapes :=
    List.mem_iff_getElem.2 ⟨i, by simp only [List.length_zip]; omega, by simp⟩
  simpa using ranked.rank_eq _ paired

theorem Ranked.length_eq {before after : List (List Char × List Int)} {pair : List Char × List Int}
    (ranked : s.Ranked shapes) (split : s.inputs.zip shapes = before ++ pair :: after) :
    (∀ pair ∈ before, pair.1.length = pair.2.length) ∧ pair.1.length = pair.2.length := by
  have all := ranked.rank_eq
  rw [split, List.forall_mem_append, List.forall_mem_cons] at all
  exact ⟨all.1, all.2.1⟩

/-- Operands without a fault are taken in, with the sizes of the first occurrences. -/
theorem extendAll_of_faultless {operands : List (List Char × List Int)} (label : String)
    (ranks : ∀ pair ∈ operands, pair.1.length = pair.2.length)
    (faultless : ∀ pair ∈ operands, s.Faultless shapes policy pair) :
    ∃ known, SymbolSizes.extendAll policy label 0 [] operands = .ok known ∧
      known.Agrees (s.occurrences shapes).sizeOf ∧
      ∀ c, (known.lookup c).isSome ↔ ∃ pair ∈ operands, c ∈ pair.1 := by
  have explained : operands = (operands.map (·.1)).zip ((operands.map (·.1)).map
      (·.map (s.occurrences shapes).sizeOf)) :=
    eq_zip_of_snd_eq fun pair hp =>
      Plan.shape_eq_of_lookup (ranks pair hp) (faultless pair hp).lookup_eq
  have distinct : policy = .reject → ∀ segment ∈ operands.map (·.1), segment.Nodup := by
    intro rejects segment hs
    obtain ⟨pair, hp, rfl⟩ := List.mem_map.1 hs
    exact (faultless pair hp).nodup_of_reject rejects
  obtain ⟨known, taken, agrees, names⟩ :=
    SymbolSizes.extendAll_of_agrees label 0 (operands.map (·.1)) distinct
      (SymbolSizes.agrees_nil (s.occurrences shapes).sizeOf)
  rw [← explained] at taken
  exact ⟨known, taken, agrees, by simpa using names⟩

/-- An axis that contradicts the first occurrence of its symbol stands behind it. -/
theorem occurs_earlier {before after : List (List Char × List Int)} {segment : List Char}
    {shape : List Int} {front rest : List (Char × Int)} {c : Char} {d first : Int}
    (split : s.inputs.zip shapes = before ++ (segment, shape) :: after)
    (axes : segment.zip shape = front ++ (c, d) :: rest)
    (found : (s.occurrences shapes).lookup c = some first)
    (differ : d ≠ first) : (∃ pair ∈ before, c ∈ pair.1) ∨ c ∈ front.map (·.1) := by
  by_contra fresh
  rw [not_or] at fresh
  have absent : (before.flatMap (fun pair => pair.1.zip pair.2) ++ front).lookup c = none := by
    rw [List.lookup_eq_none_iff]
    intro entry he
    rw [bne_iff_ne]
    rintro rfl
    rcases List.mem_append.1 he with he | he
    · obtain ⟨pair, hp, he⟩ := List.mem_flatMap.1 he
      exact fresh.1 ⟨pair, hp, (List.of_mem_zip he).1⟩
    · exact fresh.2 (List.mem_map_of_mem he)
  rw [occurrences, split, List.flatMap_append, List.flatMap_cons, axes,
    List.append_assoc, ← List.append_assoc, List.lookup_append, absent, Option.none_or,
    List.cons_append, List.lookup_cons_self] at found
  exact differ (Option.some.inj found)

theorem mem_of_lookup {known : SymbolSizes} {c : Char} {d : Int} (found : known.lookup c = some d) :
    (c, d) ∈ known := by
  obtain ⟨before, after, rfl, -⟩ := List.lookup_eq_some_iff.1 found
  exact List.mem_append_right before List.mem_cons_self

theorem exists_lookup_of_mem {known : SymbolSizes} {entry : Char × Int} (mem : entry ∈ known) :
    ∃ first, known.lookup entry.1 = some first ∧ (entry.1, first) ∈ known := by
  have found : (known.lookup entry.1).isSome := by
    rw [Option.isSome_iff_ne_none, ne_eq, List.lookup_eq_none_iff]
    push Not
    exact ⟨entry, mem, by simp⟩
  obtain ⟨first, here⟩ := Option.isSome_iff_exists.1 found
  exact ⟨first, here, mem_of_lookup here⟩

theorem exists_shape_of_occurs {c : Char} {d : Int} (occurs : (c, d) ∈ s.occurrences shapes) :
    ∃ shape ∈ shapes, d ∈ shape := by
  obtain ⟨pair, hp, he⟩ := List.mem_flatMap.1 occurs
  exact ⟨pair.2, (List.of_mem_zip hp).2, (List.of_mem_zip he).2⟩

/-- A fault speaks of no other sizes than those of the shapes. -/
theorem FirstFault.isWritable {fault : Fault} (here : s.FirstFault shapes policy fault)
    (writable : ∀ shape ∈ shapes, ∀ d ∈ shape, Text.isWritable d = true) :
    fault.isWritable = true := by
  cases here with
  | count | rank | repetition | output => rfl
  | @size before segment shape after front c d rest first ranked split earlier distinct axes sized
    found differ =>
    obtain ⟨other, hs, hd⟩ := exists_shape_of_occurs (mem_of_lookup found)
    have listed : (segment, shape) ∈ s.inputs.zip shapes := by simp [split]
    have axis : (c, d) ∈ segment.zip shape := by simp [axes]
    have size := writable shape (List.of_mem_zip listed).2 d (List.of_mem_zip axis).2
    simp only [Fault.isWritable, ShapeFault.isWritable, size, writable other hs first hd,
      Bool.and_self]

theorem Ranked.mem_symbols_iff (ranked : s.Ranked shapes) {c : Char} :
    (∃ pair ∈ s.inputs.zip shapes, c ∈ pair.1) ↔ c ∈ s.symbols := by
  have segments : (s.inputs.zip shapes).map (·.1) = s.inputs := List.map_fst_zip ranked.count_eq.le
  rw [mem_symbols]
  constructor
  · rintro ⟨pair, hp, hc⟩
    exact ⟨pair.1, (List.of_mem_zip hp).1, hc⟩
  · rintro ⟨segment, hs, hc⟩
    rw [← segments] at hs
    obtain ⟨pair, hp, rfl⟩ := List.mem_map.1 hs
    exact ⟨pair, hp, hc⟩

/-- The first operand that is not without fault repeats a symbol, or one of its axes contradicts
what came before. -/
theorem exists_firstFault_of_operand {before after : List (List Char × List Int)}
    {segment : List Char} {shape : List Int} (ranked : s.Ranked shapes)
    (split : s.inputs.zip shapes = before ++ (segment, shape) :: after)
    (earlier : ∀ pair ∈ before, s.Faultless shapes policy pair)
    (faulty : ¬ s.Faultless shapes policy (segment, shape)) :
    ∃ fault, s.FirstFault shapes policy fault := by
  by_cases distinct : policy = .reject → segment.Nodup
  case neg =>
    obtain ⟨rejects, repeated⟩ := Classical.not_imp.1 distinct
    exact ⟨_, .repetition ranked split earlier rejects repeated⟩
  obtain ⟨front, ⟨c, d⟩, rest, axes, sized, other⟩ := exists_first_without fun sized =>
    faulty ⟨distinct, sized⟩
  have occurs : (c, d) ∈ s.occurrences shapes := by
    apply List.mem_flatMap.2
    refine ⟨(segment, shape), ?_, ?_⟩
    · rw [split]
      exact List.mem_append_right before List.mem_cons_self
    · rw [axes]
      exact List.mem_append_right front List.mem_cons_self
  obtain ⟨first, found, -⟩ := exists_lookup_of_mem occurs
  refine ⟨_, .size ranked split earlier distinct axes sized found ?_⟩
  rintro rfl
  exact other found

theorem consistent_of_faultless (ranked : s.Ranked shapes)
    (faultless : ∀ pair ∈ s.inputs.zip shapes, s.Faultless shapes policy pair)
    (known : s.output.filter (· ∉ s.symbols) = []) : s.Consistent shapes policy := by
  have first :
      ∀ entry ∈ s.occurrences shapes, (s.occurrences shapes).lookup entry.1 = some entry.2 := by
    intro entry he
    obtain ⟨pair, hp, he⟩ := List.mem_flatMap.1 he
    exact (faultless pair hp).lookup_eq entry he
  refine ⟨ranked, ?_, ?_, ?_⟩
  · intro rejects segment hs
    rw [← List.map_fst_zip ranked.count_eq.le] at hs
    obtain ⟨pair, hp, rfl⟩ := List.mem_map.1 hs
    exact (faultless pair hp).nodup_of_reject rejects
  · intro c d e hd he
    exact Option.some.inj ((first _ hd).symm.trans (first _ he))
  · intro c hc
    have present := List.filter_eq_nil_iff.1 known c hc
    exact mem_symbols.1 (by simpa using present)

/-- Whatever is not consistent has a first fault. -/
theorem consistent_or_firstFault (s : Subscripts) (shapes : List (List Int))
    (policy : RepetitionPolicy) :
    s.Consistent shapes policy ∨ ∃ fault, s.FirstFault shapes policy fault := by
  -- One check after the other, in the order in which they count.
  by_cases count : s.inputs.length = shapes.length
  case neg => exact .inr ⟨_, .count count⟩
  by_cases ranks : ∀ pair ∈ s.inputs.zip shapes, pair.1.length = pair.2.length
  case neg =>
    obtain ⟨before, ⟨segment, shape⟩, after, split, earlier, differ⟩ := exists_first_without ranks
    exact .inr ⟨_, .rank count split earlier differ⟩
  have ranked : s.Ranked shapes := ⟨count, ranks⟩
  by_cases faultless : ∀ pair ∈ s.inputs.zip shapes, s.Faultless shapes policy pair
  case neg =>
    obtain ⟨before, ⟨segment, shape⟩, after, split, earlier, faulty⟩ :=
      exists_first_without faultless
    exact .inr (exists_firstFault_of_operand ranked split earlier faulty)
  by_cases known : s.output.filter (· ∉ s.symbols) = []
  case neg => exact .inr ⟨_, .output ranked faultless known⟩
  exact .inl (consistent_of_faultless ranked faultless known)

end Subscripts

namespace Plan

variable {s : Subscripts} {shapes : List (List Int)} {policy : RepetitionPolicy} {p : Plan}

theorem resolve_of_ranked (ranked : s.Ranked shapes) :
    resolve s shapes policy = (do
      let sizes ← SymbolSizes.extendAll policy s.label 0 [] (s.inputs.zip shapes)
      match s.output.filter (fun c => (sizes.lookup c).isNone) with
      | [] => return { subscripts := s, operandShapes := shapes, symbolSizes := sizes }
      | missing => .error (.shape (.missingOutput missing) none (some s.label))) := by
  rw [resolve, ranked.checkRanks_eq]
  rfl

/-- What has a fault is refused for the first one. -/
theorem resolve_of_firstFault {fault : Fault} (here : s.FirstFault shapes policy fault) :
    resolve s shapes policy = .error fault := by
  cases here with
  | count differ =>
    have count : s.inputs.length ≠ (shapes.map fun shape => (shape.length : Int)).length := by
      simpa using differ
    rw [resolve, Subscripts.checkRanks, if_neg count, error_bind, List.length_map]
  | rank count split earlier differ =>
    rw [resolve, Subscripts.checkRanks_of_first count split earlier differ, error_bind]
  | @repetition before segment shape after ranked split earlier rejects repeated =>
    obtain ⟨known, taken, -⟩ :=
      Subscripts.extendAll_of_faultless s.label (ranked.length_eq split).1 earlier
    rw [resolve_of_ranked ranked, split, SymbolSizes.extendAll_append, taken, ok_bind,
      SymbolSizes.extendAll, if_pos ⟨rejects, repeated⟩, error_bind, Nat.zero_add]
  | @size before segment shape after front c d rest first ranked split earlier distinct axes sized
    found differ =>
    obtain ⟨known, taken, agrees, names⟩ :=
      Subscripts.extendAll_of_faultless s.label (ranked.length_eq split).1 earlier
    have admitted : ¬ (policy = .reject ∧ ¬ segment.Nodup) := by
      rintro ⟨rejects, repeated⟩
      exact repeated (distinct rejects)
    have axisSized : ∀ entry ∈ front, entry.2 = (s.occurrences shapes).sizeOf entry.1 := by
      intro entry he
      rw [SymbolSizes.sizeOf, sized entry he, Option.getD_some]
    have size : (s.occurrences shapes).sizeOf c = first := by
      rw [SymbolSizes.sizeOf, found, Option.getD_some]
    have refused := SymbolSizes.extend_of_contradiction before.length s.label rest agrees axisSized
      ((Subscripts.occurs_earlier split axes found differ).imp (names c).2 id) (size ▸ differ)
    rw [resolve_of_ranked ranked, split, SymbolSizes.extendAll_append, taken, ok_bind,
      SymbolSizes.extendAll, if_neg admitted, axes, Nat.zero_add, refused, size, error_bind,
      error_bind]
  | output ranked faultless missing =>
    obtain ⟨known, taken, -, names⟩ :=
      Subscripts.extendAll_of_faultless s.label ranked.rank_eq faultless
    have same : s.output.filter (fun c => (known.lookup c).isNone) =
        s.output.filter (· ∉ s.symbols) := by
      apply List.filter_congr
      intro c _
      rw [Bool.eq_iff_iff, decide_eq_true_iff, ← ranked.mem_symbols_iff, ← names,
        Option.isNone_iff_eq_none, Option.not_isSome_iff_eq_none]
    obtain ⟨c, others, listed⟩ := List.exists_cons_of_ne_nil missing
    rw [resolve_of_ranked ranked, taken, ok_bind, same, listed]

/-- What is consistent is accepted. -/
theorem exists_plan_of_consistent (consistent : s.Consistent shapes policy) :
    ∃ p, resolve s shapes policy = .ok p := by
  have explained : ∀ pair ∈ s.inputs.zip shapes, ∀ entry ∈ pair.1.zip pair.2,
      (s.occurrences shapes).lookup entry.1 = some entry.2 := by
    intro pair hp entry he
    have occurs : entry ∈ s.occurrences shapes := List.mem_flatMap.2 ⟨pair, hp, he⟩
    obtain ⟨first, found, first_occurs⟩ := Subscripts.exists_lookup_of_mem occurs
    rw [found, consistent.size_unique entry.1 first entry.2 first_occurs occurs]
  have fits : s.Fits policy shapes (s.occurrences shapes).sizeOf :=
    { shapes_eq :=
        shapes_eq_of_lookup (Subscripts.checkRanks_eq_ok_iff.1 consistent.checkRanks_eq) explained
      mem_symbols_of_mem_output := fun c hc =>
        Subscripts.mem_symbols.2 (consistent.occurs_of_mem_output c hc)
      nodup_of_reject := consistent.nodup_of_reject }
  obtain ⟨p, accepted, -⟩ := resolve_of_fits fits
  exact ⟨p, accepted⟩

/-- Sizes that are still to be understood are matched like those that they stand for. -/
theorem resolveLiterals_of_toInt {given : List (List Literal)}
    (understood : given.mapM (·.mapM Literal.toInt) = .ok shapes) :
    resolveLiterals s given policy = resolve s shapes policy := by
  have ranks : given.map (fun shape => (shape.length : Int)) = shapes.map fun shape =>
      (shape.length : Int) := by
    rw [mapM_eq_ok_iff] at understood
    rw [← List.forall₂_eq_eq_eq, List.forall₂_map_left_iff, List.forall₂_map_right_iff]
    exact understood.imp fun _ _ here => congrArg Int.ofNat (mapM_eq_ok_iff.1 here).length_eq
  rw [resolveLiterals, ranks, understood, ok_bind, resolve]
  cases s.checkRanks (shapes.map fun shape => (shape.length : Int)) <;> rfl

/-- Subscripts and shapes are accepted exactly when they are consistent, and refused for their first
fault otherwise: the number of operands, the first wrong rank, the repetition or else the first
contradicted size of the first operand that has one, or all missing output symbols. It is reported
as a fault of shapes at that operand, or of the notation, as long as the sizes can be written. An
accepted plan lists every symbol of the operands once, in the order in which the symbols appear
first. -/
theorem refused_for_first_fault (s : Subscripts) (shapes : List (List Int))
    (policy : RepetitionPolicy) :
    ((∃ p, resolve s shapes policy = .ok p) ↔ s.Consistent shapes policy) ∧
      (∀ fault, resolve s shapes policy = .error fault ↔ s.FirstFault shapes policy fault) ∧
      (∀ p, resolve s shapes policy = .ok p → p.order.Nodup ∧
        (∀ c, c ∈ p.order ↔ ∃ segment ∈ s.inputs, c ∈ segment) ∧
        p.order.Pairwise fun c e => s.inputs.flatten.idxOf c < s.inputs.flatten.idxOf e) ∧
      (∀ given : List (List Literal), given.mapM (·.mapM Literal.toInt) = .ok shapes →
        resolveLiterals s given policy = resolve s shapes policy) ∧
      ((∀ shape ∈ shapes, ∀ d ∈ shape, Text.isWritable d = true) →
        ∀ fault, s.FirstFault shapes policy fault → fault.isWritable = true) ∧
      (∀ cause operand label, (Fault.shape cause operand label).isWritable = true →
        (Fault.shape cause operand label).kind = "ShapeError" ∧
        (Fault.shape cause operand label).operand? = operand) ∧
      ∀ cause column source, (Fault.subscripts cause column source).kind = "ParseError" := by
  have verdict := Subscripts.consistent_or_firstFault s shapes policy
  refine ⟨⟨?_, exists_plan_of_consistent⟩, fun fault => ⟨?_, resolve_of_firstFault⟩, ?_,
    fun _ => resolveLiterals_of_toInt, fun writable fault here => here.isWritable writable,
    fun cause operand label writable => ⟨?_, ?_⟩, fun _ _ _ => rfl⟩
  · rintro ⟨p, accepted⟩
    rcases verdict with consistent | ⟨fault, here⟩
    · exact consistent
    · rw [resolve_of_firstFault here] at accepted
      cases accepted
  · intro refused
    rcases verdict with consistent | ⟨fault', here⟩
    · obtain ⟨p, accepted⟩ := exists_plan_of_consistent consistent
      rw [accepted] at refused
      cases refused
    · rw [resolve_of_firstFault here] at refused
      cases refused
      exact here
  · intro p accepted
    obtain ⟨rfl, -, -⟩ := fits_of_resolve accepted
    exact ⟨p.subscripts.nodup_symbols, fun c => Subscripts.mem_symbols,
      pairwise_idxOf_firstOccurrences _⟩
  · rw [Fault.kind_eq, if_pos writable]
    rfl
  · rw [Fault.operand?, Fault.reported, if_pos writable]

/-- Subscripts with a symbol twice in the second operand and an output symbol that no operand
has. -/
def rowsByDiagonal : Subscripts where
  inputs := [['a', 'b'], ['b', 'b']]
  output := ['a', 'z']

/-- A contradicted size, a repetition that comes before it, and an output symbol missing once both
are settled. -/
theorem refused_for_first_fault_rowsByDiagonal :
    rowsByDiagonal.FirstFault [[2, 3], [4, 3]] .diagonal
        (.shape (.inconsistentSize 'b' 4 3) (some 1) (some "ab,bb->az")) ∧
      rowsByDiagonal.FirstFault [[2, 3], [4, 3]] .reject
        (.subscripts (.repeatedSymbol 1 ['b', 'b']) none none) ∧
      rowsByDiagonal.FirstFault [[2, 3], [3, 3]] .diagonal
        (.shape (.missingOutput ['z']) none (some "ab,bb->az")) := by
  have contradicted := (refused_for_first_fault rowsByDiagonal [[2, 3], [4, 3]] .diagonal).2.1
  have repeated := (refused_for_first_fault rowsByDiagonal [[2, 3], [4, 3]] .reject).2.1
  have missing := (refused_for_first_fault rowsByDiagonal [[2, 3], [3, 3]] .diagonal).2.1
  refine ⟨(contradicted _).1 ?_, (repeated _).1 ?_, (missing _).1 ?_⟩ <;> decide +kernel

end Plan

end TensorCalculus
