import TensorCalculus.Einsum
import TensorCalculus.Proofs.Outcome
import TensorCalculus.Proofs.Subscripts.Renaming

/-!
# Plans under new names

What symbols are called has no part in a contraction. Subscripts with renamed symbols match the same
shapes, the plan has the same tables, and so the loop visits the same places in the same order: only
where symbols coincide matters. -/

namespace TensorCalculus

open TensorCalculus.Layout TensorCalculus.Outcome

namespace Renaming

variable (r : Renaming)

/-- The same sizes under the new names. -/
def symbolSizes (known : SymbolSizes) : SymbolSizes :=
  known.map (Prod.map r.char id)

def plan (p : Plan) : Plan where
  subscripts := r.subscripts p.subscripts
  operandShapes := p.operandShapes
  symbolSizes := r.symbolSizes p.symbolSizes

@[simp]
theorem subscripts_plan (p : Plan) : (r.plan p).subscripts = r.subscripts p.subscripts := rfl

@[simp]
theorem operandShapes_plan (p : Plan) : (r.plan p).operandShapes = p.operandShapes := rfl

variable {r}

/-- A sequence of steps is renamed step by step. -/
theorem outcome_bind {α α' β β' : Type} {rename : α → α'} {rename' : β → β'} {x : Except Fault α}
    {f : α → Except Fault β} {g : α' → Except Fault β'}
    (step : ∀ a, g (rename a) = r.outcome rename' (f a)) :
    (r.outcome rename x >>= g) = r.outcome rename' (x >>= f) := by
  cases x with
  | error fault => rfl
  | ok a => exact step a

section Texts

theorem toList_subscripts (s : Subscripts) : (r.subscripts s).toList = s.toList.map r.char := by
  have fixed (c : Char) (other : c.isAlpha = false) : r.char c = c := char_of_not_isAlpha other
  have commas (segments : List (List Char)) :
      ((segments.map (·.map r.char)).intersperse [',']) = (segments.intersperse [',']).map
        (·.map r.char) := by
    induction segments with
    | nil => rfl
    | cons segment segments ih =>
      cases segments with
      | nil => rfl
      | cons next segments =>
        rw [List.map_cons, List.map_cons, List.intersperse_cons_cons, ← List.map_cons, ih,
          List.intersperse_cons_cons]
        simp [fixed ',' (by decide)]
  simp only [Subscripts.toList, subscripts, commas, List.map_append, List.map_flatten,
    List.map_cons, fixed '-' (by decide), fixed '>' (by decide)]

theorem toText_subscripts (s : Subscripts) : (r.subscripts s).toText = r.text s.toText := by
  rw [← String.toList_inj, Subscripts.toText, Subscripts.toText, text, String.toList_map,
    String.toList_ofList, String.toList_ofList, toList_subscripts]

theorem label_subscripts (s : Subscripts) : (r.subscripts s).label = r.text s.label := by
  have empty : (r.text s.text).isEmpty = s.text.isEmpty := by
    rw [Bool.eq_iff_iff, String.isEmpty_iff, String.isEmpty_iff, text, String.map_eq_empty]
  rw [Subscripts.label, Subscripts.label, toText_subscripts, subscripts]
  simp only [empty]
  split <;> rfl

end Texts

section Sizes

theorem lookup_symbolSizes (known : SymbolSizes) (c : Char) :
    (r.symbolSizes known).lookup (r.char c) = known.lookup c := by
  induction known with
  | nil => rfl
  | cons entry known ih =>
    obtain ⟨e, size⟩ := entry
    have same : (r.char c == r.char e) = (c == e) := by
      rw [Bool.eq_iff_iff, beq_iff_eq, beq_iff_eq, char_injective.eq_iff]
    rw [symbolSizes, List.map_cons, Prod.map_apply, List.lookup_cons, List.lookup_cons, same]
    split
    · rfl
    · exact ih

theorem sizeOf_symbolSizes (known : SymbolSizes) (c : Char) :
    (r.symbolSizes known).sizeOf (r.char c) = known.sizeOf c := by
  rw [SymbolSizes.sizeOf, lookup_symbolSizes, SymbolSizes.sizeOf]

theorem extend_renamed (operand : Nat) (label : String) (known : SymbolSizes)
    (pairs : List (Char × Int)) :
    SymbolSizes.extend operand (r.text label) (r.symbolSizes known)
      (pairs.map (Prod.map r.char id)) =
      r.outcome r.symbolSizes (SymbolSizes.extend operand label known pairs) := by
  induction pairs generalizing known with
  | nil => rfl
  | cons pair pairs ih =>
    obtain ⟨c, size⟩ := pair
    rw [List.map_cons, Prod.map_apply, SymbolSizes.extend, SymbolSizes.extend, lookup_symbolSizes]
    cases known.lookup c with
    | none =>
      rw [← ih, symbolSizes, symbolSizes, List.map_append]
      rfl
    | some first =>
      by_cases same : first = size
      · simpa only [id_eq, if_pos same] using ih known
      · simp only [id_eq, if_neg same]
        rfl

theorem extendAll_renamed (policy : RepetitionPolicy) (label : String) (operand : Nat)
    (known : SymbolSizes) (pairs : List (List Char × List Int)) :
    SymbolSizes.extendAll policy (r.text label) operand (r.symbolSizes known)
        (pairs.map (Prod.map (List.map r.char) id)) =
      r.outcome r.symbolSizes (SymbolSizes.extendAll policy label operand known pairs) := by
  induction pairs generalizing operand known with
  | nil => rfl
  | cons pair pairs ih =>
    obtain ⟨segment, shape⟩ := pair
    rw [List.map_cons, Prod.map_apply, SymbolSizes.extendAll, SymbolSizes.extendAll]
    simp only [List.nodup_map_iff char_injective]
    by_cases refused : policy = .reject ∧ ¬ segment.Nodup
    · rw [if_pos refused, if_pos refused]
      rfl
    · rw [if_neg refused, if_neg refused, id_eq, List.zip_map_left, extend_renamed]
      exact outcome_bind fun known => ih (operand + 1) known

end Sizes

section Matching

theorem checkSegments_renamed (label : String) (operand : Nat) (segments : List (List Char))
    (ranks : List Int) :
    Subscripts.checkSegments (r.text label) operand (segments.map (·.map r.char)) ranks =
      r.outcome id (Subscripts.checkSegments label operand segments ranks) := by
  induction segments generalizing operand ranks with
  | nil => rfl
  | cons segment segments ih =>
    cases ranks with
    | nil => rfl
    | cons rank ranks =>
      rw [List.map_cons, Subscripts.checkSegments, Subscripts.checkSegments, List.length_map]
      by_cases fits : (segment.length : Int) = rank
      · rw [if_pos fits, if_pos fits, ih]
      · rw [if_neg fits, if_neg fits]
        rfl

theorem checkRanks_renamed (s : Subscripts) (ranks : List Int) :
    (r.subscripts s).checkRanks ranks = r.outcome id (s.checkRanks ranks) := by
  rw [Subscripts.checkRanks, Subscripts.checkRanks, label_subscripts]
  simp only [inputs_subscripts, List.length_map]
  by_cases count : s.inputs.length = ranks.length
  · rw [if_pos count, if_pos count, checkSegments_renamed]
  · rw [if_neg count, if_neg count]
    rfl

theorem resolve_renamed (s : Subscripts) (shapes : List (List Int)) (policy : RepetitionPolicy) :
    Plan.resolve (r.subscripts s) shapes policy =
      r.outcome r.plan (Plan.resolve s shapes policy) := by
  rw [Plan.resolve, Plan.resolve, checkRanks_renamed]
  refine outcome_bind fun _ => ?_
  rw [label_subscripts, inputs_subscripts, List.zip_map_left, ← show r.symbolSizes [] = [] from rfl,
    extendAll_renamed]
  refine outcome_bind fun sizes => ?_
  have missing : (r.subscripts s).output.filter (fun c => ((r.symbolSizes sizes).lookup c).isNone) =
      (s.output.filter fun c => (sizes.lookup c).isNone).map r.char := by
    simp only [output_subscripts, List.filter_map, Function.comp_def, lookup_symbolSizes]
  rw [missing]
  cases s.output.filter fun c => (sizes.lookup c).isNone <;> rfl

/-- Faults of whole numbers speak of no symbol. -/
theorem outcome_toInt (literal : Literal) : r.outcome id literal.toInt = literal.toInt := by
  cases literal with
  | real x =>
    simp only [Literal.toInt, Literal.wholePart]
    split
    · rfl
    · split <;> rfl
  | text t =>
    simp only [Literal.toInt, Literal.wholeOfText]
    split
    · rfl
    · split <;> rfl
  | _ => rfl

theorem outcome_mapM {α β : Type} {f : α → Except Fault β} (kept : ∀ a, r.outcome id (f a) = f a)
    (as : List α) : r.outcome id (as.mapM f) = as.mapM f := by
  induction as with
  | nil => rfl
  | cons a as ih =>
    have head := kept a
    rw [List.mapM_cons]
    cases found : f a with
    | error fault =>
      rw [found] at head
      exact congrArg Except.error (Except.error.inj head)
    | ok b =>
      rw [ok_bind]
      cases rest : as.mapM f with
      | error fault =>
        rw [rest] at ih
        exact congrArg Except.error (Except.error.inj ih)
      | ok bs => rfl

theorem resolveLiterals_renamed (s : Subscripts) (shapes : List (List Literal))
    (policy : RepetitionPolicy) :
    Plan.resolveLiterals (r.subscripts s) shapes policy =
      r.outcome r.plan (Plan.resolveLiterals s shapes policy) := by
  rw [Plan.resolveLiterals, Plan.resolveLiterals, checkRanks_renamed]
  refine outcome_bind fun _ => ?_
  have kept : r.outcome id (shapes.mapM fun shape => shape.mapM Literal.toInt) =
      shapes.mapM fun shape => shape.mapM Literal.toInt :=
    outcome_mapM (fun shape => outcome_mapM outcome_toInt shape) shapes
  calc (shapes.mapM fun shape => shape.mapM Literal.toInt) >>=
    (Plan.resolve (r.subscripts s) · policy)
    _ = r.outcome id (shapes.mapM fun shape => shape.mapM Literal.toInt) >>=
          (Plan.resolve (r.subscripts s) · policy) := by rw [kept]
    _ = _ := outcome_bind fun sizes => resolve_renamed s sizes policy

end Matching

section Tables

variable (p : Plan)

theorem order_plan : (r.plan p).order = p.order.map r.char := by
  rw [Plan.order, Plan.order, Subscripts.symbols,
    Subscripts.symbols, ← firstOccurrences_map char_injective, List.map_flatten]
  rfl

theorem sizeOf_plan (c : Char) : (r.plan p).sizeOf (r.char c) = p.sizeOf c :=
  sizeOf_symbolSizes p.symbolSizes c

theorem sizes_plan : (r.plan p).sizes = p.sizes := by
  rw [Plan.sizes, Plan.sizes, order_plan, List.map_map]
  exact List.map_congr_left fun c _ => sizeOf_plan p c

theorem outputShape_plan : (r.plan p).outputShape = p.outputShape := by
  rw [Plan.outputShape, Plan.outputShape, subscripts_plan, output_subscripts, List.map_map]
  exact List.map_congr_left fun c _ => sizeOf_plan p c

theorem summedStride_map (c : Char) (segment : List Char) (steps : List Int) :
    Plan.summedStride (r.char c) (segment.map r.char) steps =
      Plan.summedStride c segment steps := by
  induction segment generalizing steps with
  | nil => rfl
  | cons s segment ih =>
    cases steps with
    | nil => rfl
    | cons d steps => simp only [List.map_cons, Plan.summedStride, char_injective.eq_iff, ih]

theorem lastStride_map (c : Char) (otherwise : Int) (segment : List Char) (steps : List Int) :
    Plan.lastStride (r.char c) otherwise (segment.map r.char) steps =
      Plan.lastStride c otherwise segment steps := by
  induction segment generalizing otherwise steps with
  | nil => rfl
  | cons s segment ih =>
    cases steps with
    | nil => rfl
    | cons d steps => simp only [List.map_cons, Plan.lastStride, char_injective.eq_iff, ih]

theorem operandStrides_plan : (r.plan p).operandStrides = p.operandStrides := by
  simp only [Plan.operandStrides, subscripts_plan, inputs_subscripts, operandShapes_plan,
    order_plan, List.zipWith_map_left, List.map_map, Function.comp_def, summedStride_map]

theorem outputStrideOf_plan (c : Char) :
    (r.plan p).outputStrideOf (r.char c) = p.outputStrideOf c := by
  rw [Plan.outputStrideOf, outputShape_plan]
  exact lastStride_map c 0 p.subscripts.output _

theorem outputStrides_plan : (r.plan p).outputStrides = p.outputStrides := by
  rw [Plan.outputStrides, Plan.outputStrides, order_plan, List.map_map]
  exact List.map_congr_left fun c _ => outputStrideOf_plan p c

theorem wheels_plan : (r.plan p).wheels = p.wheels := by
  have steps (c : Char) : (r.plan p).stepsOf (r.char c) = p.stepsOf c := by
    simp only [Plan.stepsOf, subscripts_plan, inputs_subscripts, operandShapes_plan,
      List.zipWith_map_left, summedStride_map]
  rw [Plan.wheels, Plan.wheels, order_plan, List.map_map]
  refine List.map_congr_left fun c _ => ?_
  rw [Function.comp_apply, Plan.wheelOf, Plan.wheelOf, sizeOf_plan, steps, outputStrideOf_plan]

theorem contractedSizes_plan :
    (r.plan p).contracted.map (r.plan p).sizeOf = p.contracted.map p.sizeOf := by
  have symbols : (r.subscripts p.subscripts).symbols = p.subscripts.symbols.map r.char :=
    order_plan p
  simp only [Plan.contracted, Subscripts.contracted, subscripts_plan, symbols, output_subscripts,
    List.filter_map, List.map_map, Function.comp_def, List.mem_map_of_injective char_injective,
    sizeOf_plan]

theorem outputNames_plan : (r.plan p).outputNames = p.outputNames.map r.text := by
  rw [Plan.outputNames, Plan.outputNames, subscripts_plan, output_subscripts, List.map_map,
    List.map_map]
  refine List.map_congr_left fun c _ => ?_
  rw [Function.comp_apply, Function.comp_apply, text, ← String.toList_inj, String.toList_map,
    String.toList_singleton, String.toList_singleton]
  rfl

/-- The loop is the same loop. -/
theorem run_plan {ε γ π : Type} (backend : Backend ε γ π) (buffers : List (Array ε)) :
    Contraction.run backend (r.plan p) buffers = Contraction.run backend p buffers := by
  rw [Contraction.run, Contraction.run, wheels_plan, operandShapes_plan, Plan.outputSize,
    outputShape_plan, Plan.outputSize]

theorem checkOutput_plan : (r.plan p).checkOutput = p.checkOutput := by
  rw [Plan.checkOutput, Plan.checkOutput, Plan.outputSize, outputShape_plan, Plan.outputSize]
  rfl

end Tables

section Results

variable {α : Type}

variable (r) in
/-- The same tensor with its axes renamed. -/
def tensor (t : Tensor α) : Tensor α :=
  { t with
    indices := t.indices.map r.text
    length_indices := by rw [List.length_map, t.length_indices] }

/-- Building a tensor looks at the number of names only. -/
theorem make_renamed (name : String) (indices : List String) (shape : List Int) (data : Array α) :
    Tensor.make name (indices.map r.text) shape (.ok data) =
      (Tensor.make name indices shape (.ok data)).map r.tensor := by
  rw [Tensor.make, Tensor.make]
  cases Tensor.checkDimensions shape with
  | error fault => rfl
  | ok checked =>
    simp only [ok_bind, List.length_map]
    split
    · split <;> rfl
    · rfl

theorem runSumProduct_plan (s : SumProduct α) (p : Plan) (tensors : List (Tensor α))
    (name : Option String) :
    (r.plan p).runSumProduct s tensors name = (p.runSumProduct s tensors name).map r.tensor := by
  rw [Plan.runSumProduct, Plan.runSumProduct, checkOutput_plan, run_plan]
  cases p.checkOutput with
  | error fault => rfl
  | ok checked =>
    cases Contraction.run s.backend p (tensors.map (·.data)) with
    | error fault => rfl
    | ok cells =>
      cases filled : cells.mapM id with
      | error fault => simp only [ok_bind, filled]; rfl
      | ok data =>
        simp only [ok_bind, filled]
        rw [outputNames_plan, outputShape_plan, make_renamed]

end Results

/-- Two plans with the same numbers in the same places. -/
structure SameTables (p q : Plan) : Prop where
  operandShapes : q.operandShapes = p.operandShapes
  outputShape : q.outputShape = p.outputShape
  sizes : q.sizes = p.sizes
  operandStrides : q.operandStrides = p.operandStrides
  outputStrides : q.outputStrides = p.outputStrides
  contractedSize : q.contractedSize = p.contractedSize

theorem sameTables (p : Plan) : SameTables p (r.plan p) where
  operandShapes := rfl
  outputShape := outputShape_plan p
  sizes := sizes_plan p
  operandStrides := operandStrides_plan p
  outputStrides := outputStrides_plan p
  contractedSize := by rw [Plan.contractedSize, contractedSizes_plan, Plan.contractedSize]

/-- Symbols are names and nothing else. Under new names a text is read, and subscripts are matched
with shapes, with the same success or a fault of the same kind; the plan has the same tables, every
loop fills the same buffer, and the result has the renamed indices. -/
theorem symbols_are_names (r : Renaming) :
    (∀ t, Subscripts.read (r.text t) = r.outcome r.subscripts (Subscripts.read t)) ∧
    (∀ s shapes policy,
      Plan.resolve (r.subscripts s) shapes policy =
        r.outcome r.plan (Plan.resolve s shapes policy)) ∧
    (∀ s shapes policy,
      Plan.resolveLiterals (r.subscripts s) shapes policy =
        r.outcome r.plan (Plan.resolveLiterals s shapes policy)) ∧
    (∀ fault, (r.fault fault).kind = fault.kind) ∧
    ∀ p, SameTables p (r.plan p) ∧ (r.plan p).outputNames = p.outputNames.map r.text ∧
      (∀ {ε γ π : Type} (backend : Backend ε γ π) (buffers : List (Array ε)),
        Contraction.run backend (r.plan p) buffers = Contraction.run backend p buffers) ∧
      ∀ {α : Type} (s : SumProduct α) (tensors : List (Tensor α)) (name : Option String),
        (r.plan p).runSumProduct s tensors name =
          (p.runSumProduct s tensors name).map r.tensor := by
  refine ⟨r.read_text, resolve_renamed, resolveLiterals_renamed, r.kind_fault, fun p => ?_⟩
  exact ⟨sameTables p, outputNames_plan p, run_plan p, fun s => runSumProduct_plan s p⟩

/-- The symbols of the rows and of the columns of a matrix product exchange their names. -/
def exchanged : Renaming :=
  exchange 'i' 'k' (Subscripts.isAlpha_iff_isLetter.1 rfl) (Subscripts.isAlpha_iff_isLetter.1 rfl)

def productSubscripts : Subscripts :=
  ⟨[['i', 'j'], ['j', 'k']], ['i', 'k'], true, "ij,jk->ik"⟩

theorem symbols_are_names_exchanged :
    Subscripts.read "ij,jk->ik" = .ok productSubscripts ∧
      Subscripts.read "kj,ji->ki" = .ok (exchanged.subscripts productSubscripts) ∧
      ∃ p, Plan.resolve productSubscripts [[2, 3], [3, 4]] .diagonal = .ok p ∧
        Plan.resolve (exchanged.subscripts productSubscripts) [[2, 3], [3, 4]] .diagonal =
          .ok (exchanged.plan p) ∧
        p.outputNames = ["i", "k"] ∧ (exchanged.plan p).outputNames = ["k", "i"] ∧
        (exchanged.plan p).outputStrides = p.outputStrides ∧
        ∀ (s : SumProduct ℚ) (tensors : List (Tensor ℚ)) (name : Option String),
          (exchanged.plan p).runSumProduct s tensors name =
            (p.runSumProduct s tensors name).map exchanged.tensor := by
  obtain ⟨reads, resolves, -, -, same⟩ := symbols_are_names exchanged
  have read : Subscripts.read "ij,jk->ik" = .ok productSubscripts := by cbv
  have renamed : exchanged.text "ij,jk->ik" = "kj,ji->ki" := by cbv
  have read' := reads "ij,jk->ik"
  rw [renamed, read] at read'
  obtain ⟨p, resolved⟩ : ∃ p, Plan.resolve productSubscripts [[2, 3], [3, 4]] .diagonal = .ok p :=
    ⟨_, rfl⟩
  have resolved' := resolves productSubscripts [[2, 3], [3, 4]] .diagonal
  rw [resolved] at resolved'
  obtain ⟨tables, names, -, results⟩ := same p
  have named : p.outputNames = ["i", "k"] := by
    cases resolved
    rfl
  refine ⟨read, read', p, resolved, resolved', named, ?_, tables.outputStrides, fun s => results s⟩
  rw [names, named]
  cbv

end Renaming

end TensorCalculus
