import TensorCalculus.Proofs.Contraction.Requests
import TensorCalculus.Proofs.Plan.Rewording

/-!
# The order of the output

Subscripts whose output is written in another order are matched with the same shapes, and the loop
visits the same assignments in the same order. Which of them lead to an output cell is a question
about the values of the symbols, so every cell collects what it collected before, in the order of
before. Only the axes change places. -/

namespace TensorCalculus

open TensorCalculus.Layout TensorCalculus.Outcome
open Contraction

variable {ε γ π τ : Type}

section Positions

variable {α β : Type} {positions : List Nat}

/-- The entries of a list at given positions. -/
def entriesAt (positions : List Nat) (xs : List α) : List α :=
  positions.filterMap (xs[·]?)

example : entriesAt [2, 0] ['k', 'i', 'j'] = ['j', 'k'] := by decide

theorem entriesAt_map (f : α → β) (xs : List α) :
    entriesAt positions (xs.map f) = (entriesAt positions xs).map f := by
  simp only [entriesAt, List.getElem?_map, List.map_filterMap]

theorem map_idxOf_eq_range [BEq α] [LawfulBEq α] {xs : List α} (distinct : xs.Nodup) :
    xs.map (xs.idxOf ·) = List.range xs.length := by
  refine List.ext_getElem (by simp) fun i below _ => ?_
  rw [List.length_map] at below
  rw [List.getElem_map, List.getElem_range, distinct.idxOf_getElem i below]

/-- Distinct entries in another order stand at certain positions, and every position is taken
once. -/
theorem exists_positions [BEq α] [LawfulBEq α] {xs ys : List α} (distinct : ys.Nodup)
    (perm : ys.Perm xs) :
    ∃ positions : List Nat, positions.Perm (List.range ys.length) ∧
      xs = entriesAt positions ys := by
  refine ⟨xs.map (ys.idxOf ·), ?_, ?_⟩
  · rw [← map_idxOf_eq_range distinct]
    exact perm.symm.map _
  · rw [entriesAt, List.filterMap_map]
    have found : xs.filterMap some = xs.filterMap ((ys[·]?) ∘ (ys.idxOf ·)) :=
      List.filterMap_congr fun x hx => (List.getElem?_idxOf (perm.mem_iff.2 hx)).symm
    rw [← found, List.filterMap_some]

end Positions

/-- The same elements with the axes in another order: those of one tensor stand at the positions in
the other. -/
structure Tensor.Transposed {α : Type} (positions : List Nat) (t t' : Tensor α) : Prop where
  indices_eq : t.indices = entriesAt positions t'.indices
  shape_eq : t.shape = entriesAt positions t'.shape
  elem?_eq :
    ∀ coords, InRange t'.shape coords → t.elem? (entriesAt positions coords) = t'.elem? coords

/-- Subscripts for the same operands whose outputs have the same symbols, each in an order of its
own. -/
structure Subscripts.Transposed (s s' : Subscripts) : Prop where
  inputs_eq : s'.inputs = s.inputs
  perm : s'.output.Perm s.output

namespace Subscripts.Transposed

variable {s s' : Subscripts} (transposed : s.Transposed s')
include transposed

theorem symm : s'.Transposed s :=
  ⟨transposed.inputs_eq.symm, transposed.perm.symm⟩

theorem symbols_eq : s'.symbols = s.symbols := by
  rw [symbols, symbols, transposed.inputs_eq]

/-- What fits one of them fits the other, with the same sizes. -/
theorem resolve_eq {shapes : List (List Int)} {policy : RepetitionPolicy} {p : Plan}
    (accepted : Plan.resolve s shapes policy = .ok p) :
    Plan.resolve s' shapes policy = .ok { p with subscripts := s' } := by
  rw [Plan.resolve] at accepted
  obtain ⟨_, ranks, accepted⟩ := bind_eq_ok_iff.1 accepted
  obtain ⟨sizes, taken, accepted⟩ := bind_eq_ok_iff.1 accepted
  have ranks' : s'.checkRanks (shapes.map fun shape => (shape.length : Int)) = .ok () := by
    rw [checkRanks_eq_ok_iff, transposed.inputs_eq]
    exact checkRanks_eq_ok_iff.1 ranks
  have taken' : SymbolSizes.extendAll policy s'.label 0 [] (s'.inputs.zip shapes) = .ok sizes := by
    rw [transposed.inputs_eq, ← mapError_eq_ok_iff Fault.unlabelled,
      SymbolSizes.mapError_extendAll policy s.label, mapError_eq_ok_iff, taken]
  split at accepted
  case h_2 => cases accepted
  case h_1 present =>
    cases accepted
    have present' : s'.output.filter (fun c => (sizes.lookup c).isNone) = [] :=
      List.perm_nil.1 (present ▸ transposed.perm.filter _)
    simp only [Plan.resolve, ranks', taken', ok_bind, present', pure_eq_ok]

end Subscripts.Transposed

namespace Plan

theorem map_toNat_outputShape (p : Plan) :
    p.outputShape.map Int.toNat = p.subscripts.output.map p.extent := by
  rw [outputShape, List.map_map]
  rfl

theorem outputNames_eq {p p' : Plan} {positions : List Nat}
    (output_eq : p.subscripts.output = entriesAt positions p'.subscripts.output) :
    p.outputNames = entriesAt positions p'.outputNames := by
  rw [outputNames, outputNames, entriesAt_map, ← output_eq]

/-- Two plans that differ in the order of the output. -/
structure Transposed (p p' : Plan) : Prop where
  subscripts : p.subscripts.Transposed p'.subscripts
  operandShapes_eq : p'.operandShapes = p.operandShapes
  symbolSizes_eq : p'.symbolSizes = p.symbolSizes

/-- Buffers that hold the same under the same values of the symbols. -/
structure SameCells (p p' : Plan) (out out' : Array γ) : Prop where
  size_eq : out.size = volume (p.subscripts.output.map p.extent)
  size_eq' : out'.size = volume (p'.subscripts.output.map p'.extent)
  cell_eq : ∀ σ : Char → Nat, (∀ c ∈ p.subscripts.output, σ c < p.extent c) →
    out'[offset (p'.subscripts.output.map p'.extent) (p'.subscripts.output.map σ)]? =
      out[offset (p.subscripts.output.map p.extent) (p.subscripts.output.map σ)]?

namespace Transposed

variable {p p' : Plan} (transposed : p.Transposed p')
include transposed

theorem symm : p'.Transposed p :=
  ⟨transposed.subscripts.symm, transposed.operandShapes_eq.symm, transposed.symbolSizes_eq.symm⟩

theorem order_eq : p'.order = p.order :=
  transposed.subscripts.symbols_eq

theorem sizeOf_eq : p'.sizeOf = p.sizeOf := by
  funext c
  rw [sizeOf, sizeOf, transposed.symbolSizes_eq]

theorem extent_eq : p'.extent = p.extent := by
  funext c
  rw [extent, extent, transposed.sizeOf_eq]

theorem assignments_eq : p'.assignments = p.assignments := by
  rw [assignments, assignments, transposed.order_eq, transposed.extent_eq]

theorem placeOf_eq (a : List Nat) (segment : List Char) :
    p'.placeOf a segment = p.placeOf a segment := by
  rw [placeOf, placeOf, transposed.extent_eq, coordsOf, valueOf, transposed.order_eq]
  rfl

theorem sound (given : p.Sound) : p'.Sound where
  operandShapes_eq := by
    rw [transposed.operandShapes_eq, transposed.subscripts.inputs_eq, transposed.sizeOf_eq,
      given.operandShapes_eq]
  mem_order_of_mem_output c hc := by
    rw [transposed.order_eq]
    exact given.mem_order_of_mem_output c (transposed.subscripts.perm.mem_iff.1 hc)
  sizeOf_eq_extent c hc := by
    rw [transposed.order_eq] at hc
    rw [transposed.sizeOf_eq, transposed.extent_eq, given.sizeOf_eq_extent c hc]

theorem jointSize_eq : p'.jointSize = p.jointSize := by
  rw [jointSize, jointSize, sizes, sizes, transposed.order_eq, transposed.sizeOf_eq]

theorem checkOutput_eq : p'.checkOutput = p.checkOutput := by
  have outputSize : p'.outputSize = p.outputSize := by
    rw [Plan.outputSize, Plan.outputSize, outputShape, outputShape, transposed.sizeOf_eq]
    exact volume_perm (transposed.subscripts.perm.map _)
  rw [checkOutput, checkOutput, outputSize, transposed.operandShapes_eq]

/-- The same assignments lead to a cell: they are those that give the output symbols their
values. -/
theorem agreeing_eq (σ : Char → Nat) :
    p'.agreeing (p'.subscripts.output.map σ) = p.agreeing (p.subscripts.output.map σ) := by
  rw [agreeing, agreeing, transposed.assignments_eq]
  refine List.filter_congr fun a _ => ?_
  simp only [coordsOf, valueOf, transposed.order_eq, List.map_inj_left,
    transposed.subscripts.perm.mem_iff]

/-- Both loops fill their cells with the same. -/
theorem exists_sameCells (given : p.Sound) (distinct : p.subscripts.output.Nodup)
    (backend : Backend ε γ π) {shapes : List (List Nat)}
    (explained : shapes = p.subscripts.inputs.map (·.map p.extent))
    {buffers : List (Array ε)} (filled : buffers.map Array.size = shapes.map volume) :
    ∃ out out', run backend p buffers = .ok out ∧ run backend p' buffers = .ok out' ∧
      p.SameCells p' out out' := by
  have reads : ∀ a ∈ p.assignments,
      gather buffers (p.subscripts.inputs.map fun segment => (p.placeOf a segment : Int)) =
        .ok ((p.elements? shapes buffers a).getD []) := fun a ha =>
          (gather_of_assignment ha explained filled).1
  have reads' : ∀ a ∈ p'.assignments,
      gather buffers (p'.subscripts.inputs.map fun segment => (p'.placeOf a segment : Int)) =
        .ok ((p.elements? shapes buffers a).getD []) := by
    simp only [transposed.assignments_eq, transposed.subscripts.inputs_eq, transposed.placeOf_eq]
    exact reads
  have distinct' := transposed.subscripts.perm.nodup_iff.2 distinct
  obtain ⟨out, ran, size, cells⟩ := given.run_eq_cells distinct backend reads
  obtain ⟨out', ran', size', cells'⟩ :=
    (transposed.sound given).run_eq_cells distinct' backend reads'
  refine ⟨out, out', ran, ran', size, size', fun σ inside => ?_⟩
  have inside' : ∀ c ∈ p'.subscripts.output, σ c < p'.extent c := by
    intro c hc
    rw [transposed.extent_eq]
    exact inside c (transposed.subscripts.perm.mem_iff.1 hc)
  rw [cells _ ((inRange_map_iff rfl).2 inside), cells' _ ((inRange_map_iff rfl).2 inside'),
    transposed.agreeing_eq]

section Axes

variable {positions : List Nat}
  (output_eq : p.subscripts.output = entriesAt positions p'.subscripts.output)
include output_eq

theorem outputShape_eq : p.outputShape = entriesAt positions p'.outputShape := by
  rw [outputShape, outputShape, entriesAt_map, ← output_eq, transposed.sizeOf_eq]

variable (distinct : p.subscripts.output.Nodup)
include distinct

/-- Coordinates are rearranged like the output, and lead to the same. -/
theorem getElem?_eq {out out' : Array γ} (same : p.SameCells p' out out') {coords : List Nat}
    (inside : InRange (p'.subscripts.output.map p'.extent) coords) :
    InRange (p.subscripts.output.map p.extent) (entriesAt positions coords) ∧
      out'[offset (p'.subscripts.output.map p'.extent) coords]? =
        out[offset (p.subscripts.output.map p.extent) (entriesAt positions coords)]? := by
  -- No output symbol repeats, so any coordinates are what some values of the symbols give.
  have count : coords.length = p'.subscripts.output.length := by simpa using inside.length_eq
  have distinct' := transposed.subscripts.perm.nodup_iff.2 distinct
  obtain ⟨σ, rfl⟩ : ∃ σ, coords = p'.subscripts.output.map σ :=
    ⟨_, (Assignment.map_value distinct' count).symm⟩
  rw [inRange_map_iff rfl, transposed.extent_eq] at inside
  have below : ∀ c ∈ p.subscripts.output, σ c < p.extent c := fun c hc =>
    inside c (transposed.subscripts.perm.mem_iff.2 hc)
  rw [entriesAt_map, ← output_eq]
  exact ⟨(inRange_map_iff rfl).2 below, same.cell_eq σ below⟩

theorem exists_elements (given : p.Sound) (backend : Backend ε γ π) {shapes : List (List Nat)}
    (explained : shapes = p.subscripts.inputs.map (·.map p.extent)) {buffers : List (Array ε)}
    (filled : buffers.map Array.size = shapes.map volume) :
    ∃ out out', run backend p buffers = .ok out ∧ run backend p' buffers = .ok out' ∧
      ∀ coords, InRange (p'.outputShape.map Int.toNat) coords → ∃ x,
        elementAt? (p'.outputShape.map Int.toNat) out' coords = some x ∧
        elementAt? (p.outputShape.map Int.toNat) out (entriesAt positions coords) = some x := by
  obtain ⟨out, out', ran, ran', same⟩ :=
    transposed.exists_sameCells given distinct backend explained filled
  refine ⟨out, out', ran, ran', fun coords inside => ?_⟩
  rw [map_toNat_outputShape] at inside ⊢
  obtain ⟨inside', cell⟩ := transposed.getElem?_eq output_eq distinct same inside
  obtain ⟨x, element, found⟩ := elementAt?_isSome inside same.size_eq'
  refine ⟨x, element, ?_⟩
  rw [map_toNat_outputShape, elementAt?, if_pos inside', ← cell, found]

/-- Where all cells of one buffer hold results, so do those of the other. -/
theorem exists_results {data : Array ε} {out' : Array (Except Fault ε)}
    (same : p.SameCells p' (data.map .ok) out') :
    ∃ data', out' = data'.map .ok ∧ p.SameCells p' data data' := by
  have successful : ∀ place (_ : place < out'.size), ∃ x, out'[place] = .ok x := by
    intro place below
    obtain ⟨coords, inside, rfl⟩ := exists_offset_eq (same.size_eq' ▸ below)
    obtain ⟨inside', cell⟩ := transposed.getElem?_eq output_eq distinct same inside
    have below' := same.size_eq.symm ▸ offset_lt_volume inside'
    rw [Array.getElem?_eq_getElem below, Array.getElem?_eq_getElem below',
      Array.getElem_map] at cell
    exact ⟨_, Option.some.inj cell⟩
  obtain ⟨data', rfl⟩ := exists_eq_map_ok successful
  refine ⟨data', rfl, by simpa using same.size_eq, by simpa using same.size_eq', fun σ below => ?_⟩
  have cell := same.cell_eq σ below
  rw [Array.getElem?_map, Array.getElem?_map] at cell
  exact Option.map_injective (fun _ _ => Except.ok.inj) cell

/-- Tensors that are made of such buffers have the same elements. -/
theorem exists_tensors (given : p.Sound) (name : String) {data data' : Array ε}
    (same : p.SameCells p' data data') :
    ∃ t t', Tensor.make name p.outputNames p.outputShape (.ok data) = .ok t ∧
      Tensor.make name p'.outputNames p'.outputShape (.ok data') = .ok t' ∧
      t.Transposed positions t' := by
  have made := Tensor.make_eq name p.length_outputNames same.size_eq
  have made' := Tensor.make_eq name p'.length_outputNames same.size_eq'
  rw [← given.outputShape_eq] at made
  rw [← (transposed.sound given).outputShape_eq] at made'
  refine ⟨_, _, made, made', outputNames_eq output_eq, ?_, fun coords inside => ?_⟩
  · rw [entriesAt_map, ← output_eq, transposed.extent_eq]
  · obtain ⟨inside', cell⟩ := transposed.getElem?_eq output_eq distinct same inside
    rw [← Tensor.getElem?_data_eq_elem? inside, ← Tensor.getElem?_data_eq_elem? inside']
    exact cell.symm

theorem runSumProduct_of_ok (given : p.Sound) (s : SumProduct ε) {tensors : List (Tensor ε)}
    (explained : tensors.map (·.shape) = p.subscripts.inputs.map (·.map p.extent))
    (name : Option String)
    {t : Tensor ε} (ran : p.runSumProduct s tensors name = .ok t) :
    ∃ t', p'.runSumProduct s tensors name = .ok t' ∧ t.Transposed positions t' := by
  have filled : (tensors.map (·.data)).map Array.size = (tensors.map (·.shape)).map volume := by
    rw [List.map_map, List.map_map]
    exact List.map_congr_left fun tensor _ => tensor.size_data
  obtain ⟨out, out', looped, looped', same⟩ :=
    transposed.exists_sameCells given distinct s.backend explained filled
  rw [Plan.runSumProduct, looped, ok_bind] at ran
  obtain ⟨_, checked, ran⟩ := bind_eq_ok_iff.1 ran
  obtain ⟨data, collected, made⟩ := bind_eq_ok_iff.1 ran
  obtain rfl := eq_map_ok_of_mapM_id collected
  obtain ⟨data', rfl, results⟩ := transposed.exists_results output_eq distinct same
  obtain ⟨t, t', again, made', alike⟩ :=
    transposed.exists_tensors output_eq distinct given (resultName name) results
  obtain rfl := Except.ok.inj (made.symm.trans again)
  refine ⟨t', ?_, alike⟩
  rw [Plan.runSumProduct, transposed.checkOutput_eq, checked, ok_bind, looped', ok_bind,
    array_mapM_id_ok, ok_bind, made']

theorem runSumProduct_alike (given : p.Sound) (s : SumProduct ε) {tensors : List (Tensor ε)}
    (explained : tensors.map (·.shape) = p.subscripts.inputs.map (·.map p.extent))
    (name : Option String) :
    ((∃ t, p.runSumProduct s tensors name = .ok t) ↔
      ∃ t', p'.runSumProduct s tensors name = .ok t') ∧
      ∀ t t', p.runSumProduct s tensors name = .ok t → p'.runSumProduct s tensors name = .ok t' →
        t.Transposed positions t' := by
  refine ⟨⟨?_, ?_⟩, fun t t' ran ran' => ?_⟩
  · rintro ⟨t, ran⟩
    obtain ⟨t', ran', -⟩ :=
      transposed.runSumProduct_of_ok output_eq distinct given s explained name ran
    exact ⟨t', ran'⟩
  · rintro ⟨t', ran'⟩
    have distinct' := transposed.subscripts.perm.nodup_iff.2 distinct
    have explained' : tensors.map (·.shape) = p'.subscripts.inputs.map (·.map p'.extent) := by
      rw [transposed.subscripts.inputs_eq, transposed.extent_eq, explained]
    obtain ⟨back, -, output_eq'⟩ := exists_positions distinct transposed.subscripts.perm.symm
    obtain ⟨t, ran, -⟩ :=
      transposed.symm.runSumProduct_of_ok output_eq' distinct' (transposed.sound given) s explained'
        name ran'
    exact ⟨t, ran⟩
  · obtain ⟨other, found, alike⟩ :=
      transposed.runSumProduct_of_ok output_eq distinct given s explained name ran
    obtain rfl := Except.ok.inj (ran'.symm.trans found)
    exact alike

end Axes

end Transposed

end Plan

namespace Subscripts

/-- Subscripts whose output is written in another order are granted the same operands. -/
theorem Transposed.exists_plan {s s' : Subscripts} (transposed : s.Transposed s')
    (settings : Settings τ) {shapes : List (List Int)} {p : Plan}
    (planned : settings.plan s shapes = .ok p) :
    ∃ p', settings.plan s' shapes = .ok p' ∧ p.Transposed p' := by
  obtain ⟨accepted, limit⟩ := plan_eq_ok_iff.1 planned
  obtain ⟨rfl, -, -⟩ := Plan.fits_of_resolve accepted
  have plans : p.Transposed { p with subscripts := s' } := ⟨transposed, rfl, rfl⟩
  exact ⟨_,
    plan_eq_ok_iff.2 ⟨transposed.resolve_eq accepted,
      checkLimit_of_jointSize_eq plans.jointSize_eq limit⟩, plans⟩

/-- An output in another order is the same result with its axes in that order, and nothing else. The
operands that are granted are the same. For every backend, the element at some coordinates is,
exactly, the element that stood at the coordinates rearranged like the output, and the shape and the
index names are rearranged in the same way. -/
theorem axes_follow_output {s s' : Subscripts} (inputs : s'.inputs = s.inputs)
    (distinct : s.output.Nodup) (perm : s'.output.Perm s.output) (settings : Settings τ) :
    (∀ shapes, (∃ p, settings.plan s shapes = .ok p) ↔ ∃ p', settings.plan s' shapes = .ok p') ∧
    ∃ positions : List Nat, positions.Perm (List.range s'.output.length) ∧
      s.output = entriesAt positions s'.output ∧
      ∀ (shapes : List (List Nat)) (p p' : Plan), settings.plan s (shapes.map (·.map Int.ofNat)) =
        .ok p → settings.plan s' (shapes.map (·.map Int.ofNat)) = .ok p' →
        p.outputNames = entriesAt positions p'.outputNames ∧
        p.outputShape = entriesAt positions p'.outputShape ∧
        (∀ {ε γ π : Type} (backend : Backend ε γ π) (buffers : List (Array ε)),
          buffers.map Array.size = shapes.map volume →
          ∃ out out', run backend p buffers = .ok out ∧ run backend p' buffers = .ok out' ∧
            ∀ coords, InRange (p'.outputShape.map Int.toNat) coords → ∃ x,
              elementAt? (p'.outputShape.map Int.toNat) out' coords = some x ∧
              elementAt? (p.outputShape.map Int.toNat) out (entriesAt positions coords) = some x) ∧
        ∀ {α : Type} (r : SumProduct α) (tensors : List (Tensor α)) (name : Option String),
          tensors.map (·.shape) = shapes →
          ((∃ t, p.runSumProduct r tensors name = .ok t) ↔
            ∃ t', p'.runSumProduct r tensors name = .ok t') ∧
            ∀ t t', p.runSumProduct r tensors name = .ok t →
              p'.runSumProduct r tensors name = .ok t' → t.Transposed positions t' := by
  have transposed : s.Transposed s' := ⟨inputs, perm⟩
  refine ⟨fun shapes => ⟨?_, ?_⟩, ?_⟩
  · rintro ⟨p, planned⟩
    obtain ⟨p', planned', -⟩ := transposed.exists_plan settings planned
    exact ⟨p', planned'⟩
  · rintro ⟨p', planned'⟩
    obtain ⟨p, planned, -⟩ := transposed.symm.exists_plan settings planned'
    exact ⟨p, planned⟩
  · obtain ⟨positions, each, output_eq⟩ := exists_positions (perm.nodup_iff.2 distinct) perm
    refine ⟨positions, each, output_eq, fun shapes p p' planned planned' => ?_⟩
    obtain ⟨q, again, plans⟩ := transposed.exists_plan settings planned
    obtain rfl := Except.ok.inj (planned'.symm.trans again)
    obtain ⟨accepted, -⟩ := plan_eq_ok_iff.1 planned
    obtain ⟨accepted', -⟩ := plan_eq_ok_iff.1 planned'
    have given := Plan.sound_of_resolve accepted
    have explained := Plan.shapes_eq_of_resolve accepted
    obtain ⟨rfl, -, -⟩ := Plan.fits_of_resolve accepted
    obtain ⟨rfl, -, -⟩ := Plan.fits_of_resolve accepted'
    refine ⟨Plan.outputNames_eq output_eq, plans.outputShape_eq output_eq, ?_, ?_⟩
    · intro ε γ π backend buffers filled
      exact plans.exists_elements output_eq distinct given backend explained filled
    · intro α r tensors name shaped
      exact plans.runSumProduct_alike output_eq distinct given r (shaped.trans explained) name

/-- The product of matrices, turned over. -/
def flippedProduct : Subscripts where
  inputs := matrixProduct.inputs
  output := ['k', 'i']

/-- A row times a matrix: the last of three products stands at the end of a row, or of a column. -/
theorem axes_follow_output_flippedProduct :
    matrixProduct.output.Nodup ∧ flippedProduct.output.Perm matrixProduct.output ∧
      ∃ (positions : List Nat) (p p' : Plan) (out out' : Array Int) (x : Int),
        Plan.resolve matrixProduct [[1, 2], [2, 3]] .diagonal = .ok p ∧
        Plan.resolve flippedProduct [[1, 2], [2, 3]] .diagonal = .ok p' ∧
        [1, 3] = entriesAt positions p'.outputShape ∧
        run .real p [#[1, 2], #[3, 4, 5, 6, 7, 8]] = .ok out ∧
        run .real p' [#[1, 2], #[3, 4, 5, 6, 7, 8]] = .ok out' ∧
        elementAt? [3, 1] out' [2, 0] = some x ∧
        elementAt? [1, 3] out (entriesAt positions [2, 0]) = some x := by
  have inputs : flippedProduct.inputs = matrixProduct.inputs := rfl
  have distinct : matrixProduct.output.Nodup := by decide
  have perm : flippedProduct.output.Perm matrixProduct.output := .swap _ _ _
  let settings : Settings Unit := { tolerance := () }
  obtain ⟨-, positions, -, -, alike⟩ := axes_follow_output inputs distinct perm settings
  obtain ⟨-, shape, cells, -⟩ := alike [[1, 2], [2, 3]]
    ⟨matrixProduct, [[1, 2], [2, 3]], [('i', 1), ('j', 2), ('k', 3)]⟩
    ⟨flippedProduct, [[1, 2], [2, 3]], [('i', 1), ('j', 2), ('k', 3)]⟩ rfl rfl
  obtain ⟨out, out', ran, ran', elements⟩ :=
    cells (.real : Backend Int Int Int) [#[1, 2], #[3, 4, 5, 6, 7, 8]] rfl
  obtain ⟨x, found', found⟩ := elements [2, 0] (by decide)
  exact ⟨distinct, perm, positions, _, _, out, out', x, rfl, rfl, shape, ran, ran', found', found⟩

end Subscripts

end TensorCalculus
