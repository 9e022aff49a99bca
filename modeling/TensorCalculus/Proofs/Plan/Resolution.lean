import TensorCalculus.Plan
import TensorCalculus.Proofs.Outcome

/-!
# Which contractions are accepted

Subscripts are accepted for given shapes exactly when there is one size for every symbol that
explains all shapes, the output takes its symbols from the operands, and no operand repeats a symbol
where repetitions are rejected. The plan then knows these sizes. -/

namespace TensorCalculus

open TensorCalculus.Layout TensorCalculus.Outcome

namespace SymbolSizes

variable {known next : SymbolSizes} {size : Char → Int}

/-- Whether the sizes known so far are those of a size function. -/
def Agrees (known : SymbolSizes) (size : Char → Int) : Prop :=
  ∀ c d, known.lookup c = some d → d = size c

theorem agrees_nil (size : Char → Int) : Agrees [] size := by
  intro c d found
  cases found

theorem lookup_append_single (known : SymbolSizes) (c e : Char) (d : Int) :
    (known ++ [(c, d)]).lookup e = (known.lookup e).or (if e = c then some d else none) := by
  rw [List.lookup_append, List.lookup_cons, List.lookup_nil]
  by_cases same : e = c
  · simp [same]
  · simp [same, beq_eq_false_iff_ne.2 same]

theorem Agrees.append {c : Char} (agrees : Agrees known size) :
    Agrees (known ++ [(c, size c)]) size := by
  intro e d found
  rw [lookup_append_single, Option.or_eq_some_iff] at found
  rcases found with here | ⟨-, there⟩
  · exact agrees e d here
  · split at there
    case isTrue same =>
      cases there
      rw [same]
    case isFalse => cases there

/-- A segment whose sizes agree with those known so far is taken in, and nothing else becomes
known. -/
theorem extend_of_agrees (operand : Nat) (label : String) (segment : List Char)
    (agrees : Agrees known size) :
    ∃ next, extend operand label known (segment.zip (segment.map size)) = .ok next ∧
      Agrees next size ∧ ∀ c, (next.lookup c).isSome ↔ (known.lookup c).isSome ∨ c ∈ segment := by
  induction segment generalizing known with
  | nil => exact ⟨known, rfl, agrees, by simp⟩
  | cons c segment ih =>
    simp only [List.map_cons, List.zip_cons_cons, extend]
    cases found : known.lookup c with
    | none =>
      obtain ⟨next, taken, agree, names⟩ := ih agrees.append
      refine ⟨next, taken, agree, fun e => ?_⟩
      rw [names, lookup_append_single, Option.isSome_or, Bool.or_eq_true, or_assoc, List.mem_cons]
      by_cases same : e = c <;> simp [same]
    | some first =>
      obtain ⟨next, taken, agree, names⟩ := ih agrees
      refine ⟨next, by simpa [agrees c first found] using taken, agree, fun e => ?_⟩
      rw [names, List.mem_cons]
      by_cases same : e = c
      · simp [same, found]
      · simp [same]

/-- What is known stays known, and the pairs taken in are known afterwards. -/
theorem lookup_of_extend {operand : Nat} {label : String} {pairs : List (Char × Int)}
    (taken : extend operand label known pairs = .ok next) :
    (∀ c d, known.lookup c = some d → next.lookup c = some d) ∧
      ∀ pair ∈ pairs, next.lookup pair.1 = some pair.2 := by
  induction pairs generalizing known with
  | nil =>
    cases taken
    exact ⟨fun _ _ found => found, by simp⟩
  | cons pair pairs ih =>
    obtain ⟨c, d⟩ := pair
    rw [extend] at taken
    split at taken
    case h_1 missing =>
      obtain ⟨kept, rest⟩ := ih taken
      refine ⟨fun e f found => kept e f ?_, List.forall_mem_cons.2 ⟨kept c d ?_, rest⟩⟩
      · rw [lookup_append_single, found, Option.some_or]
      · rw [lookup_append_single, missing, Option.none_or, if_pos rfl]
    case h_2 first found =>
      split at taken
      case isTrue same =>
        obtain ⟨kept, rest⟩ := ih taken
        exact ⟨kept, List.forall_mem_cons.2 ⟨kept c d (same ▸ found), rest⟩⟩
      case isFalse => cases taken

variable {policy : RepetitionPolicy}

theorem extendAll_of_agrees (label : String) (operand : Nat) (segments : List (List Char))
    (distinct : policy = .reject → ∀ segment ∈ segments, segment.Nodup)
    (agrees : Agrees known size) :
    ∃ next, extendAll policy label operand known (segments.zip (segments.map (·.map size))) =
      .ok next ∧
      Agrees next size ∧ ∀ c, (next.lookup c).isSome ↔ (known.lookup c).isSome ∨
        ∃ segment ∈ segments, c ∈ segment := by
  induction segments generalizing known operand with
  | nil => exact ⟨known, rfl, agrees, by simp⟩
  | cons segment segments ih =>
    have admitted : ¬ (policy = .reject ∧ ¬ segment.Nodup) := fun ⟨rejects, repeated⟩ =>
      repeated (distinct rejects segment List.mem_cons_self)
    obtain ⟨middle, taken, agree, names⟩ := extend_of_agrees operand label segment agrees
    obtain ⟨next, rest, agree, restNames⟩ :=
      ih (operand + 1) (fun rejects s hs => distinct rejects s (List.mem_cons_of_mem _ hs)) agree
    refine ⟨next, ?_, agree, fun c => ?_⟩
    · simp only [List.map_cons, List.zip_cons_cons, extendAll, if_neg admitted, taken, ok_bind,
        rest]
    · rw [restNames, names, or_assoc, List.exists_mem_cons_iff]

theorem lookup_of_extendAll {label : String} {operand : Nat} {pairs : List (List Char × List Int)}
    (taken : extendAll policy label operand known pairs = .ok next) :
    (∀ c d, known.lookup c = some d → next.lookup c = some d) ∧
      ∀ pair ∈ pairs, (policy = .reject → pair.1.Nodup) ∧
        ∀ entry ∈ pair.1.zip pair.2, next.lookup entry.1 = some entry.2 := by
  induction pairs generalizing known operand with
  | nil =>
    cases taken
    exact ⟨fun _ _ found => found, by simp⟩
  | cons pair pairs ih =>
    obtain ⟨segment, shape⟩ := pair
    rw [extendAll] at taken
    split at taken
    case isTrue => cases taken
    case isFalse admitted =>
      obtain ⟨middle, here, there⟩ := bind_eq_ok_iff.1 taken
      obtain ⟨kept, found⟩ := lookup_of_extend here
      obtain ⟨keptOn, rest⟩ := ih there
      refine ⟨fun c d known => keptOn c d (kept c d known), List.forall_mem_cons.2 ⟨⟨?_, ?_⟩, rest⟩⟩
      · intro rejects
        by_contra repeated
        exact admitted ⟨rejects, repeated⟩
      · intro entry inside
        exact keptOn _ _ (found entry inside)

/-- What is accepted where repetitions are rejected is accepted where they are not. -/
theorem extendAll_diagonal {policy : RepetitionPolicy} {label : String} {operand : Nat}
    {known next : SymbolSizes} {pairs : List (List Char × List Int)}
    (taken : extendAll policy label operand known pairs = .ok next) :
    extendAll .diagonal label operand known pairs = .ok next := by
  induction pairs generalizing operand known with
  | nil => exact taken
  | cons pair pairs ih =>
    have diagonal : ¬ (RepetitionPolicy.diagonal = .reject ∧ ¬ pair.1.Nodup) :=
      fun ⟨same, _⟩ => by cases same
    rw [extendAll] at taken ⊢
    split at taken
    case isTrue => cases taken
    case isFalse =>
      obtain ⟨middle, here, rest⟩ := bind_eq_ok_iff.1 taken
      rw [if_neg diagonal, here, ok_bind]
      exact ih rest

end SymbolSizes

namespace Subscripts

theorem checkSegments_eq_ok_iff {label : String} {operand : Nat} {segments : List (List Char)}
    {ranks : List Int} (count : segments.length = ranks.length) :
    checkSegments label operand segments ranks = .ok () ↔
      segments.map (fun s => (s.length : Int)) = ranks := by
  induction segments generalizing operand ranks with
  | nil =>
    cases ranks with
    | nil => simp [checkSegments]
    | cons => simp at count
  | cons segment segments ih =>
    cases ranks with
    | nil => simp at count
    | cons rank ranks =>
      rw [checkSegments, List.map_cons, List.cons.injEq]
      split
      case isTrue same => simp only [same, true_and, ih (Nat.succ.inj count)]
      case isFalse differ => simp [differ]

theorem checkRanks_eq_ok_iff {s : Subscripts} {ranks : List Int} :
    s.checkRanks ranks = .ok () ↔ s.inputs.map (fun segment => (segment.length : Int)) = ranks := by
  rw [checkRanks]
  split
  case isTrue count => exact checkSegments_eq_ok_iff count
  case isFalse differ =>
    simp only [reduceCtorEq, false_iff]
    rintro rfl
    simp at differ

/-- One size for every symbol explains the shapes of all operands. -/
structure Fits (s : Subscripts) (policy : RepetitionPolicy) (shapes : List (List Int))
    (size : Char → Int) : Prop where
  shapes_eq : shapes = s.inputs.map (·.map size)
  mem_symbols_of_mem_output : ∀ c ∈ s.output, c ∈ s.symbols
  nodup_of_reject : policy = .reject → ∀ segment ∈ s.inputs, segment.Nodup

end Subscripts

namespace Plan

variable {s : Subscripts} {shapes : List (List Int)} {policy : RepetitionPolicy} {size : Char → Int}
  {p : Plan}

/-- Subscripts that fit their shapes are accepted, and the plan has the sizes that explain the
shapes. -/
theorem resolve_of_fits (fits : s.Fits policy shapes size) :
    ∃ p, resolve s shapes policy = .ok p ∧ p.subscripts = s ∧ p.operandShapes = shapes ∧
      ∀ c ∈ s.symbols, p.sizeOf c = size c := by
  have ranks : s.checkRanks (shapes.map fun shape => (shape.length : Int)) = .ok () := by
    rw [Subscripts.checkRanks_eq_ok_iff, fits.shapes_eq, List.map_map]
    simp [Function.comp_def]
  obtain ⟨sizes, taken, agrees, names⟩ := SymbolSizes.extendAll_of_agrees s.label 0 s.inputs
    fits.nodup_of_reject (SymbolSizes.agrees_nil size)
  rw [← fits.shapes_eq] at taken
  have present : s.output.filter (fun c => (sizes.lookup c).isNone) = [] := by
    rw [List.filter_eq_nil_iff]
    intro c hc
    have := (names c).2 (.inr (Subscripts.mem_symbols.1 (fits.mem_symbols_of_mem_output c hc)))
    simpa [Option.isSome_iff_ne_none] using this
  refine ⟨{ subscripts := s, operandShapes := shapes, symbolSizes := sizes }, ?_, rfl,
    rfl, fun c hc => ?_⟩
  · simp only [resolve, ranks, taken, ok_bind, present, pure_eq_ok]
  · have known := (names c).2 (.inr (Subscripts.mem_symbols.1 hc))
    obtain ⟨d, found⟩ := Option.isSome_iff_exists.1 known
    rw [sizeOf, SymbolSizes.sizeOf, found]
    exact agrees c d found

/-- Sizes that are looked up for every axis of an operand explain its shape. -/
theorem shape_eq_of_lookup {segment : List Char} {shape : List Int} {sizes : SymbolSizes}
    (count : segment.length = shape.length)
    (explained : ∀ entry ∈ segment.zip shape, sizes.lookup entry.1 = some entry.2) :
    shape = segment.map sizes.sizeOf := by
  apply List.ext_getElem (by simp [count])
  intro j hj _
  have hc : j < segment.length := count ▸ hj
  have paired : (segment[j], shape[j]) ∈ segment.zip shape :=
    List.mem_iff_getElem.2 ⟨j, by simp only [List.length_zip]; omega, by simp⟩
  have entry := explained _ paired
  simp [SymbolSizes.sizeOf, entry]

/-- Sizes that are looked up for every axis explain the shapes. -/
theorem shapes_eq_of_lookup {segments : List (List Char)} {sizes : SymbolSizes}
    (ranks : segments.map (fun segment => (segment.length : Int)) = shapes.map fun shape =>
      (shape.length : Int))
    (explained : ∀ pair ∈ segments.zip shapes,
      ∀ entry ∈ pair.1.zip pair.2, sizes.lookup entry.1 = some entry.2) :
    shapes = segments.map (·.map sizes.sizeOf) := by
  induction segments generalizing shapes with
  | nil => simpa using ranks.symm
  | cons segment segments ih =>
    cases shapes with
    | nil => simp at ranks
    | cons shape shapes =>
      rw [List.map_cons, List.map_cons, List.cons.injEq] at ranks
      rw [List.zip_cons_cons] at explained
      have rest := ih ranks.2 fun pair hp => explained pair (List.mem_cons_of_mem _ hp)
      have here :=
        shape_eq_of_lookup (Int.ofNat_inj.1 ranks.1) (explained (segment, shape) List.mem_cons_self)
      rw [List.map_cons, ← rest, ← here]

/-- An accepted plan holds what was given, and its sizes explain the shapes. -/
theorem fits_of_resolve (accepted : resolve s shapes policy = .ok p) :
    p.subscripts = s ∧ p.operandShapes = shapes ∧ s.Fits policy shapes p.sizeOf := by
  rw [resolve] at accepted
  obtain ⟨_, ranks, accepted⟩ := bind_eq_ok_iff.1 accepted
  obtain ⟨sizes, taken, accepted⟩ := bind_eq_ok_iff.1 accepted
  split at accepted
  case h_2 => cases accepted
  case h_1 present =>
    cases accepted
    have lengths := Subscripts.checkRanks_eq_ok_iff.1 ranks
    obtain ⟨-, explained⟩ := SymbolSizes.lookup_of_extendAll taken
    have shapes_eq := shapes_eq_of_lookup lengths fun pair hp => (explained pair hp).2
    have distinct : policy = .reject → ∀ segment ∈ s.inputs, segment.Nodup := by
      intro rejects segment hs
      have paired : (segment, segment.map sizes.sizeOf) ∈ s.inputs.zip shapes := by
        obtain ⟨i, hi, rfl⟩ := List.mem_iff_getElem.1 hs
        rw [shapes_eq]
        exact List.mem_iff_getElem.2 ⟨i, by simpa using hi, by simp⟩
      exact (explained _ paired).1 rejects
    -- The sizes explain the shapes, so the symbols that became known are those of the segments.
    obtain ⟨again, retaken, -, names⟩ := SymbolSizes.extendAll_of_agrees s.label 0 s.inputs distinct
      (SymbolSizes.agrees_nil sizes.sizeOf)
    rw [← shapes_eq, taken, Except.ok.injEq] at retaken
    subst retaken
    refine ⟨rfl, rfl, shapes_eq, fun c hc => ?_, distinct⟩
    have known : (sizes.lookup c).isSome := by
      by_contra missing
      have absent : c ∈ s.output.filter (fun c => (sizes.lookup c).isNone) :=
        List.mem_filter.2 ⟨hc,
          by simpa only [Option.isNone_iff_eq_none, Option.not_isSome_iff_eq_none] using missing⟩
      rw [present] at absent
      cases absent
    simpa using (names c).1 known

/-- Rejecting repetitions changes no plan. -/
theorem resolve_diagonal (accepted : resolve s shapes policy = .ok p) :
    resolve s shapes .diagonal = .ok p := by
  rw [resolve] at accepted ⊢
  obtain ⟨_, ranks, accepted⟩ := bind_eq_ok_iff.1 accepted
  obtain ⟨sizes, taken, accepted⟩ := bind_eq_ok_iff.1 accepted
  rw [ranks, ok_bind, SymbolSizes.extendAll_diagonal taken, ok_bind]
  exact accepted

end Plan

end TensorCalculus
