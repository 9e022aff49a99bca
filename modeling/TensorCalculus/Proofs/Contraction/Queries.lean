import TensorCalculus.Bulk.Run
import TensorCalculus.Proofs.Contraction.Positivity
import TensorCalculus.Proofs.Contraction.Requests

/-!
# Contractions as queries

Every operand is a relation that holds where its entries are above zero, and the subscripts join the
operands. A contraction under or and and asks for each element of the output whether some values of
the symbols make all operands hold at once. Sums of products of numbers that are not negative are
above zero in the same places. -/

namespace TensorCalculus

open TensorCalculus.Layout TensorCalculus.Outcome
open Factor

namespace Plan

/-- Values of the symbols that answer a query: they lead to a given element of the output, and every
operand has an entry above zero where they lead. -/
structure Answers {ε : Type} [Zero ε] [LT ε] (p : Plan) (tensors : List (Tensor ε)) (o : List Nat)
    (value : Char → Nat) : Prop where
  lt_sizeOf : ∀ c ∈ p.order, (value c : Int) < p.sizeOf c
  output_eq : p.subscripts.output.map value = o
  holds :
    ∀ pair ∈ p.subscripts.inputs.zip tensors, ∃ x, pair.2.elem? (pair.1.map value) = some x ∧ 0 < x

variable {p : Plan}

/-- Values that vary with the symbols summed over, and are those of the output elsewhere. -/
theorem exists_varies_iff (distinct : p.subscripts.output.Nodup) {o : List Nat}
    (inside : InRange (p.subscripts.output.map p.extent) o) {P : (Char → Nat) → Prop}
    (depends : DependsOn P {c | c ∈ p.order}) :
    (∃ τ, Varies p.extent p.contracted (Assignment.value p.subscripts.output o) τ ∧ P τ) ↔
      ∃ value, (∀ c ∈ p.order, value c < p.extent c) ∧ p.subscripts.output.map value = o ∧
        P value := by
  have count : o.length = p.subscripts.output.length := by simpa using inside.length_eq
  constructor
  · rintro ⟨τ, ⟨below, kept⟩, here⟩
    have output : p.subscripts.output.map τ = o := by
      rw [← Assignment.map_value distinct count]
      exact List.map_congr_left fun c hc => kept c fun summed => (mem_contracted.1 summed).2 hc
    refine ⟨τ, ?_, output, here⟩
    intro c hc
    by_cases named : c ∈ p.subscripts.output
    · exact (inRange_map_iff rfl).1 (output ▸ inside) c named
    · exact below c (mem_contracted.2 ⟨hc, named⟩)
  · rintro ⟨value, below, rfl, here⟩
    -- Symbols that occur nowhere may have other values, which the question does not depend on.
    obtain ⟨τ, summed, kept⟩ : ∃ τ : Char → Nat, (∀ c, c ∈ p.contracted → τ c = value c) ∧
        ∀ c, c ∉ p.contracted →
        τ c = Assignment.value p.subscripts.output (p.subscripts.output.map value) c :=
      ⟨fun c => if c ∈ p.contracted then value c else Assignment.value p.subscripts.output _ c,
        fun c hc => if_pos hc, fun c hc => if_neg hc⟩
    have same : ∀ c ∈ p.order, τ c = value c := by
      intro c hc
      by_cases named : c ∈ p.subscripts.output
      · rw [kept c fun summed => (mem_contracted.1 summed).2 named,
          Assignment.value_map value named]
      · exact summed c (mem_contracted.2 ⟨hc, named⟩)
    refine ⟨τ, ⟨?_, kept⟩, depends same ▸ here⟩
    intro c hc
    rw [summed c hc]
    exact below c (mem_contracted.1 hc).1

end Plan

theorem sized_zip {ε : Type} {segments : List (List Char)} {tensors : List (Tensor ε)}
    {extent : Char → Nat} (explained : tensors.map (·.shape) = segments.map (·.map extent)) :
    Sized (segments.zip tensors) extent := by
  induction segments generalizing tensors with
  | nil =>
    intro factor here
    cases here
  | cons segment segments ih =>
    cases tensors with
    | nil =>
      intro factor here
      cases here
    | cons t tensors =>
      rw [List.map_cons, List.map_cons, List.cons.injEq] at explained
      exact List.forall_mem_cons.2 ⟨explained.1, ih explained.2⟩

section Answer

variable {ε K : Type} [Zero ε] [LT ε] {p : Plan} {tensors : List (Tensor ε)}

/-- Values answer a query in terms of the entries of its operands, which are then read in range. -/
theorem Plan.answers_iff (sound : p.Sound)
    (explained : tensors.map (·.shape) = p.subscripts.inputs.map (·.map p.extent)) {o : List Nat}
    {value : Char → Nat} :
    p.Answers tensors o value ↔ (∀ c ∈ p.order, value c < p.extent c) ∧
      p.subscripts.output.map value = o ∧
      ∀ factor ∈ p.subscripts.inputs.zip tensors, 0 < factor.2.entry (factor.1.map value) := by
  constructor
  · rintro ⟨below, output, holds⟩
    refine ⟨?_, output, ?_⟩
    · intro c hc
      have small := below c hc
      rw [sound.sizeOf_eq_extent c hc] at small
      exact Int.ofNat_lt.1 small
    · intro factor here
      obtain ⟨x, found, positive⟩ := holds factor here
      rw [Tensor.entry, found]
      exact positive
  · rintro ⟨below, output, holds⟩
    refine ⟨?_, output, ?_⟩
    · intro c hc
      rw [sound.sizeOf_eq_extent c hc]
      exact Int.ofNat_lt.2 (below c hc)
    · intro factor here
      have segment := (List.of_mem_zip here).1
      have inside : InRange factor.2.shape (factor.1.map value) := by
        rw [sized_zip explained factor here, inRange_map_iff rfl]
        intro c hc
        exact below c (Plan.mem_order_of_mem_segment segment hc)
      have positive := holds factor here
      rw [Tensor.entry, Tensor.elem?_eq_some inside] at positive
      exact ⟨_, Tensor.elem?_eq_some inside, positive⟩

variable [CommSemiring K] {run : Runner ε} {lift : ε → K} {encode : K → ε}
  {Admits Positive : K → Prop}

/-- The entries of a contraction stand for something positive where the query is answered. -/
theorem Runner.Evaluates.exists_answers (evaluates : run.Evaluates lift encode)
    (positivity : Positivity Admits Positive) (lifted : ∀ x, Positive (lift x) ↔ 0 < x)
    (admitted : ∀ t ∈ tensors, ∀ coords, Admits (lift (t.entry coords))) (sound : p.Sound)
    (explained : tensors.map (·.shape) = p.subscripts.inputs.map (·.map p.extent))
    (distinct : p.subscripts.output.Nodup) (checked : p.checkOutput = .ok ())
    (name : Option String) :
    ∃ t, run p tensors name = .ok t ∧ t.shape = p.subscripts.output.map p.extent ∧
      ∀ o, InRange (p.subscripts.output.map p.extent) o →
        ∃ k, t.entry o = encode k ∧ (Positive k ↔ ∃ value, p.Answers tensors o value) := by
  have count : p.subscripts.inputs.length = tensors.length := by
    simpa using congrArg List.length explained.symm
  have segments : p.subscripts.inputs = (p.subscripts.inputs.zip tensors).map (·.1) :=
    (List.map_fst_zip count.le).symm
  have operands : (p.subscripts.inputs.zip tensors).map (·.2) = tensors := List.map_snd_zip count.ge
  obtain ⟨t, ran, shape, entries⟩ :=
    evaluates.run_eq name sound distinct segments (sized_zip explained) checked
  rw [operands] at ran
  refine ⟨t, ran, shape, ?_⟩
  intro o ho
  refine ⟨_, entries o ho, ?_⟩
  have depends :
      DependsOn (fun τ => Positive (product lift (p.subscripts.inputs.zip tensors) τ))
        {c | c ∈ p.order} := by
    intro τ τ' agree
    have same := (dependsOn_product lift _).mono (fun c => Plan.mem_order_of_occurs segments) agree
    exact congrArg Positive same
  have products (τ : Char → Nat) : Admits (product lift (p.subscripts.inputs.zip tensors) τ) ∧
      (Positive (product lift (p.subscripts.inputs.zip tensors) τ) ↔
        ∀ factor ∈ p.subscripts.inputs.zip tensors,
        Positive (lift (factor.2.entry (factor.1.map τ)))) :=
    positivity.product fun factor here => admitted _ (List.of_mem_zip here).2 _
  rw [(positivity.sumOver fun τ => (products τ).1).2, Plan.exists_varies_iff distinct ho depends]
  simp only [Plan.answers_iff sound explained, (products _).2, lifted]

end Answer

section Boolean

variable {ε : Type} [Zero ε] [One ε] [LT ε]

theorem ofTruth_injective (positive : (0 : ε) < 1) (irreflexive : ¬ (0 : ε) < 0) :
    Function.Injective (SumProduct.ofTruth : Bool → ε) := by
  have differ : (0 : ε) ≠ 1 := by
    intro same
    rw [← same] at positive
    exact irreflexive positive
  rintro (_ | _) (_ | _) same
  · rfl
  · exact absurd same differ
  · exact absurd same.symm differ
  · rfl

variable [DecidableLT ε]

/-- Among truth values only true is positive. -/
theorem Positivity.truth (positive : (0 : ε) < 1) (irreflexive : ¬ (0 : ε) < 0) :
    letI := (SumProduct.boolean_exact positive irreflexive).semiring
    Positivity (K := (SumProduct.boolean : SumProduct ε).Carrier) (fun _ => True)
      (fun b : Bool => b = true) :=
  letI := (SumProduct.boolean_exact positive irreflexive).semiring
  { admits_zero := trivial
    admits_one := trivial
    admits_add := fun _ _ => trivial
    admits_mul := fun _ _ => trivial
    not_positive_zero := Bool.false_ne_true
    positive_one := rfl
    positive_add_iff := fun _ _ => Bool.or_eq_true_iff
    positive_mul_iff := fun _ _ => Bool.and_eq_true_iff }

/-- A contraction under or and and holds one where the query is answered, and zero elsewhere. -/
theorem exists_answers_boolean (positive : (0 : ε) < 1) (irreflexive : ¬ (0 : ε) < 0) {p : Plan}
    {tensors : List (Tensor ε)} (sound : p.Sound)
    (explained : tensors.map (·.shape) = p.subscripts.inputs.map (·.map p.extent))
    (distinct : p.subscripts.output.Nodup) (checked : p.checkOutput = .ok ())
    (name : Option String) :
    ∃ t, p.runSumProduct .boolean tensors name = .ok t ∧
      t.shape = p.subscripts.output.map p.extent ∧
      ∀ o, InRange (p.subscripts.output.map p.extent) o →
        ∃ b, t.entry o = SumProduct.ofTruth b ∧
          (b = true ↔ ∃ value, p.Answers tensors o value) := by
  have exact := SumProduct.boolean_exact positive irreflexive
  let _ := exact.semiring
  exact (runSumProduct_evaluates exact).exists_answers (Positivity.truth positive irreflexive)
    (fun x => decide_eq_true_iff) (fun _ _ _ => trivial) sound explained distinct checked name

end Boolean

section Threshold

variable {K : Type} [CommSemiring K] [LinearOrder K]

theorem entry_nonneg_of_data {t : Tensor K} (nonnegative : ∀ x ∈ t.data, 0 ≤ x)
    (coords : List Nat) : 0 ≤ t.entry coords := by
  rw [Tensor.entry]
  cases found : t.elem? coords with
  | none => exact le_rfl
  | some x => exact nonnegative x (Tensor.mem_data_of_elem? found)

variable [IsStrictOrderedRing K] [BulkRoutine K] {p : Plan} {tensors : List (Tensor K)}

/-- Without negative numbers, the query is answered where the sum of products is above zero. -/
theorem runSumProduct_eq_threshold (sound : p.Sound)
    (explained : tensors.map (·.shape) = p.subscripts.inputs.map (·.map p.extent))
    (distinct : p.subscripts.output.Nodup) (nonnegative : ∀ t ∈ tensors, ∀ x ∈ t.data, 0 ≤ x)
    (name : Option String) :
    p.runSumProduct .boolean tensors name =
      (p.runReal tensors .loop name).map (Tensor.threshold 0) := by
  cases checked : p.checkOutput with
  | error fault =>
    rw [Plan.runSumProduct, Plan.runReal, checked]
    rfl
  | ok =>
    obtain ⟨t, ran, shape, entries⟩ :=
      exists_answers_boolean zero_lt_one (lt_irrefl (0 : K)) sound explained distinct checked name
    obtain ⟨t', ran', shape', entries'⟩ :=
      runReal_evaluates.exists_answers Positivity.nonnegative (fun _ => Iff.rfl)
        (fun t ht => entry_nonneg_of_data (nonnegative t ht)) sound explained distinct checked name
    have named := Plan.names_of_runSumProduct ran
    have named' := Plan.names_of_runReal ran'
    have alike : t.Alike (t'.threshold 0) :=
      ⟨named.1.trans named'.1.symm, named.2.trans named'.2.symm, shape.trans shape'.symm⟩
    rw [ran, show p.runReal tensors .loop name = .ok t' from ran', Except.map]
    apply congrArg Except.ok
    apply alike.eq_of_entries
    intro o inside
    rw [shape] at inside
    obtain ⟨b, held, true_iff⟩ := entries o inside
    obtain ⟨k, sum, positive_iff⟩ := entries' o inside
    have same : b = decide (0 < k) := by
      rw [Bool.eq_iff_iff, true_iff, decide_eq_true_iff, positive_iff]
    rw [held, Tensor.threshold, Tensor.entry_map _ (shape' ▸ inside), sum, same, SumProduct.ofTruth]
    simp only [decide_eq_true_iff, id_eq]

end Threshold

/-- The contraction of doubles under or and and holds one where the query is answered and zero
elsewhere, whatever the operands hold; only an output that no list can hold keeps it from that. Over
an ordered semiring, operands without negative numbers have the same answers as the threshold of
their sum of products. -/
theorem boolean_answers_queries {τ : Type} (settings : Settings τ) (wording : Wording)
    (name : Option String) {K : Type} [CommSemiring K] [LinearOrder K] [IsStrictOrderedRing K]
    [BulkRoutine K] :
    (∀ (tensors : List (Tensor Float)) (p : Plan),
      settings.planWording wording (tensors.map Tensor.dims) = .ok p → p.subscripts.output.Nodup →
      (∀ fault, p.checkOutput = .error fault →
        semiringEinsum settings .boolean wording (tensors.map .real) name = .error fault) ∧
      (p.checkOutput = .ok () →
        ∃ t, semiringEinsum settings .boolean wording (tensors.map .real) name = .ok t ∧
          t.dims = p.outputShape ∧ ∀ o, InRange t.shape o →
            (t.elem? o = some 1 ↔ ∃ value, p.Answers tensors o value) ∧
            (t.elem? o = some 0 ↔ ¬ ∃ value, p.Answers tensors o value))) ∧
    (settings.strategy = .loop → ∀ (tensors : List (Tensor K)) (p : Plan),
      settings.planWording wording (tensors.map Tensor.dims) = .ok p → p.subscripts.output.Nodup →
      (∀ t ∈ tensors, ∀ x ∈ t.data, 0 ≤ x) →
      semiringEinsum settings .boolean wording (tensors.map .real) name =
        (einsum settings wording (tensors.map .real) name).map (Tensor.threshold 0)) := by
  constructor
  · intro tensors p planned distinct
    obtain ⟨sound, explained⟩ := sound_of_planWording planned
    rw [semiringEinsum, expectReals_real, ok_bind, planned, ok_bind]
    constructor
    · intro fault refused
      rw [Plan.runSumProduct, refused, error_bind]
    · intro checked
      have positive : (0 : Float) < 1 := by decide +kernel
      have irreflexive : ¬ (0 : Float) < 0 := by decide +kernel
      obtain ⟨t, ran, shape, entries⟩ :=
        exists_answers_boolean positive irreflexive sound explained distinct checked name
      refine ⟨t, ran, by rw [sound.outputShape_eq, Tensor.dims, shape], ?_⟩
      intro o inside
      obtain ⟨b, held, true_iff⟩ := entries o (shape ▸ inside)
      have same := ofTruth_injective positive irreflexive
      rw [← true_iff, Bool.not_eq_true, ← Tensor.getElem?_data_eq_elem? inside,
        Tensor.getElem?_data_eq_entry inside, held, Option.some_inj, Option.some_inj]
      exact ⟨same.eq_iff' rfl, same.eq_iff' rfl⟩
  · intro loop tensors p planned distinct nonnegative
    obtain ⟨sound, explained⟩ := sound_of_planWording planned
    rw [semiringEinsum, einsum, expectReals_real, ok_bind, ok_bind, planned, ok_bind, ok_bind, loop]
    exact runSumProduct_eq_threshold sound explained distinct nonnegative name

/-- An infinite number, and one that is none. -/
def firstHop : Tensor Float :=
  ⟨"first", ["origin", "stop"], [1, 2], #[.ofBits 0x7ff0000000000000, .ofBits 0x7ff8000000000000],
    rfl, rfl⟩

def secondHop : Tensor Float := ⟨"second", ["stop", "goal"], [2, 2], #[2, -1, 1, 1], rfl, rfl⟩

def firstRates : Tensor ℚ := ⟨"first", ["maker", "ware"], [1, 2], #[1 / 2, 0], rfl, rfl⟩

def secondRates : Tensor ℚ := ⟨"second", ["ware", "market"], [2, 2], #[0, 3, 5, 0], rfl, rfl⟩

/-- The join of two matrices at the inner symbol. -/
def twoHops : Plan where
  subscripts := { inputs := [['i', 'j'], ['j', 'k']], output := ['i', 'k'] }
  operandShapes := [[1, 2], [2, 2]]
  symbolSizes := [('i', 1), ('j', 2), ('k', 2)]

attribute [local instance] Bulk.routine

/-- Two hops lead to the first column only, since what is no number is not above zero. Over rational
numbers the query agrees with the threshold of the product. -/
theorem boolean_answers_queries_twoHops :
    (∃ t, semiringEinsum ({ tolerance := 0 } : Settings ℚ) .boolean (.understood twoHops.subscripts)
        [.real firstHop, .real secondHop] none = .ok t ∧ t.elem? [0, 0] = some 1 ∧ t.elem?
          [0, 1] = some 0) ∧
      semiringEinsum ({ tolerance := 0 } : Settings ℚ) .boolean (.understood twoHops.subscripts)
          [.real firstRates, .real secondRates] none =
        (einsum ({ tolerance := 0 } : Settings ℚ) (.understood twoHops.subscripts)
          [.real firstRates, .real secondRates] none).map (Tensor.threshold 0) := by
  have queries :=
    boolean_answers_queries (K := ℚ) ({ tolerance := 0 } : Settings ℚ)
      (.understood twoHops.subscripts) none
  have distinct : twoHops.subscripts.output.Nodup := by decide
  constructor
  · obtain ⟨t, contracted, dims, cells⟩ :=
      (queries.1 [firstHop, secondHop] twoHops rfl distinct).2 rfl
    have shape : t.shape = [1, 2] := by
      have sizes := congrArg (List.map Int.toNat) dims
      rwa [Tensor.dims, Tensor.map_toNat_map_ofNat] at sizes
    refine ⟨t, contracted, (cells [0, 0] ?_).1.2 ⟨fun _ => 0, ?_, rfl, ?_⟩,
      (cells [0, 1] ?_).2.2 ?_⟩
    · rw [shape]
      decide
    · rw [show twoHops.order = ['i', 'j', 'k'] from rfl, List.forall_mem_cons, List.forall_mem_cons,
        List.forall_mem_singleton]
      decide
    · exact List.forall_mem_cons.2 ⟨⟨_, rfl, by decide +kernel⟩,
        List.forall_mem_cons.2 ⟨⟨_, rfl, by decide +kernel⟩, by simp⟩⟩
    · rw [shape]
      decide
    · rintro ⟨value, below, output, holds⟩
      have small : (value 'j' : Int) < 2 := below 'j' (by decide)
      obtain ⟨row, column⟩ : value 'i' = 0 ∧ value 'k' = 1 := by simpa [twoHops] using output
      obtain ⟨x, found, positive⟩ := holds (['i', 'j'], firstHop) (by simp [twoHops])
      obtain ⟨y, found', positive'⟩ := holds (['j', 'k'], secondHop) (by simp [twoHops])
      simp only [List.map_cons, List.map_nil, row, column] at found found'
      obtain middle | middle : value 'j' = 0 ∨ value 'j' = 1 := by omega
      · rw [middle] at found'
        cases found'
        exact absurd positive' (by decide +kernel)
      · rw [middle] at found
        cases found
        exact absurd positive (by decide +kernel)
  · exact queries.2 rfl [firstRates, secondRates] twoHops rfl distinct (by decide +kernel)

end TensorCalculus
