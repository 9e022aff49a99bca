import TensorCalculus.Proofs.Contraction.Requests

/-!
# The order of the operands

Operands that are named in another order have their symbols appear in another order, so that the
plan has other strides and the loop visits the assignments in another order. To every assignment
there corresponds one that reads the same entries, and it leads to the same output cell. Where
neither the order of factors nor that of summands matters, nothing is different in the result. -/

namespace TensorCalculus

open TensorCalculus.Layout TensorCalculus.Outcome
open Factor

variable {ε γ π τ : Type}

/-- A backend for which neither the order of the elements in a product nor the order in which
products are collected matters. -/
structure Backend.Orderless (backend : Backend ε γ π) : Prop where
  combine_perm : ∀ {xs ys : List ε}, xs.Perm ys → backend.combine xs = backend.combine ys
  collect_perm : ∀ {xss yss : List (List ε)}, xss.Perm yss →
    xss.foldl (fun cell xs => backend.accumulate cell (backend.combine xs)) backend.blank =
      yss.foldl (fun cell xs => backend.accumulate cell (backend.combine xs)) backend.blank

namespace Factor

variable {factors factors' : List (Factor ε)}

/-- The entries that factors have under given values of the symbols. -/
def reading [Zero ε] (factors : List (Factor ε)) (σ : Char → Nat) : List ε :=
  factors.map fun factor => factor.2.entry (factor.1.map σ)

theorem dependsOn_reading [Zero ε] (factors : List (Factor ε)) :
    DependsOn (reading factors) {c | Occurs factors c} := by
  intro σ τ agree
  refine List.map_congr_left fun factor here => ?_
  rw [List.map_congr_left fun c hc => agree c ⟨factor, here, hc⟩]

theorem occurs_perm (rearranged : factors.Perm factors') (c : Char) : Occurs factors c ↔
    Occurs factors' c := by
  simp only [Occurs, rearranged.mem_iff]

theorem Sized.perm {extent : Char → Nat} (sized : Sized factors extent)
    (rearranged : factors.Perm factors') : Sized factors' extent :=
  fun factor here => sized factor (rearranged.mem_iff.2 here)

theorem Matched.perm {policy : RepetitionPolicy} {output : List Char} {extent : Char → Nat}
    (matched : Matched policy factors output extent) (rearranged : factors.Perm factors') :
    Matched policy factors' output extent where
  sized := matched.sized.perm rearranged
  occurs_of_mem_output c hc := (occurs_perm rearranged c).1 (matched.occurs_of_mem_output c hc)
  nodup_of_reject rejects factor here :=
    matched.nodup_of_reject rejects factor (rearranged.mem_iff.2 here)

end Factor

namespace Plan

/-- A plan that was made for factors: the segments are theirs, and the sizes explain their
shapes. -/
structure MadeFor (p : Plan) (factors : List (Factor ε)) : Prop where
  sound : p.Sound
  inputs_eq : p.subscripts.inputs = factors.map (·.1)
  sized : Sized factors p.extent

theorem madeFor_of_resolve {s : Subscripts} {p : Plan} {policy : RepetitionPolicy}
    {factors : List (Factor ε)} (segments : s.inputs = factors.map (·.1))
    (accepted : resolve s (factors.map (·.2.dims)) policy = .ok p) : p.MadeFor factors := by
  have sound := sound_of_resolve_dims accepted
  have matched := matched_of_resolve segments accepted
  obtain ⟨rfl, -, -⟩ := fits_of_resolve accepted
  exact ⟨sound, segments, matched.sized⟩

/-- Two plans that differ in nothing but the order of the operands they were made for. -/
structure Rearranged (p p' : Plan) (factors factors' : List (Factor ε)) : Prop where
  made : p.MadeFor factors
  made' : p'.MadeFor factors'
  perm : factors.Perm factors'
  output_eq : p'.subscripts.output = p.subscripts.output

namespace Rearranged

variable {p p' : Plan} {factors factors' : List (Factor ε)}
  (rearranged : p.Rearranged p' factors factors')
include rearranged

theorem mem_order_iff (c : Char) : c ∈ p.order ↔ c ∈ p'.order := by
  rw [order, order, mem_symbols_iff_occurs rearranged.made.inputs_eq,
    mem_symbols_iff_occurs rearranged.made'.inputs_eq]
  exact occurs_perm rearranged.perm c

theorem order_perm : p.order.Perm p'.order :=
  (List.perm_ext_iff_of_nodup nodup_order nodup_order).2 rearranged.mem_order_iff

theorem contracted_perm : p.contracted.Perm p'.contracted := by
  rw [contracted, contracted, Subscripts.contracted, Subscripts.contracted, rearranged.output_eq]
  exact rearranged.order_perm.filter _

theorem extent_eq {c : Char} (hc : c ∈ p.order) : p'.extent c = p.extent c :=
  extent_eq_of_sized rearranged.made'.sized (rearranged.made.sized.perm rearranged.perm)
    ((mem_symbols_iff_occurs rearranged.made'.inputs_eq c).1 ((rearranged.mem_order_iff c).1 hc))

theorem sizeOf_eq {c : Char} (hc : c ∈ p.order) : p'.sizeOf c = p.sizeOf c := by
  rw [rearranged.made.sound.sizeOf_eq_extent c hc,
    rearranged.made'.sound.sizeOf_eq_extent c ((rearranged.mem_order_iff c).1 hc),
    rearranged.extent_eq hc]

theorem outputShape_eq : p'.outputShape = p.outputShape := by
  rw [outputShape, outputShape, rearranged.output_eq]
  exact List.map_congr_left fun c hc =>
    rearranged.sizeOf_eq (rearranged.made.sound.mem_order_of_mem_output c hc)

theorem outputNames_eq : p'.outputNames = p.outputNames := by
  rw [outputNames, outputNames, rearranged.output_eq]

theorem sizes_perm : p'.sizes.Perm p.sizes := by
  rw [sizes, sizes]
  refine (rearranged.order_perm.symm.map p'.sizeOf).trans (.of_eq ?_)
  exact List.map_congr_left fun c hc => rearranged.sizeOf_eq hc

theorem jointSize_eq : p'.jointSize = p.jointSize :=
  volume_perm rearranged.sizes_perm

theorem operandShapes_perm : p'.operandShapes.Perm p.operandShapes := by
  have made := rearranged.made
  have made' := rearranged.made'
  rw [made.sound.operandShapes_eq, made'.sound.operandShapes_eq, made.inputs_eq, made'.inputs_eq,
    List.map_map, List.map_map]
  refine (rearranged.perm.symm.map _).trans (.of_eq (List.map_congr_left fun factor here => ?_))
  exact List.map_congr_left fun c hc =>
    rearranged.sizeOf_eq ((mem_symbols_iff_occurs made.inputs_eq c).2 ⟨factor, here, hc⟩)

theorem checkOutput_eq : p'.checkOutput = p.checkOutput := by
  have fits (size : Int) :
      p'.operandShapes.any (size ≤ volume ·) = p.operandShapes.any (size ≤ volume ·) :=
    rearranged.operandShapes_perm.any_eq
  rw [checkOutput, checkOutput, outputSize, outputSize, rearranged.outputShape_eq, fits]

theorem map_extent_output :
    p'.subscripts.output.map p'.extent = p.subscripts.output.map p.extent := by
  rw [rearranged.output_eq]
  exact List.map_congr_left fun c hc =>
    rearranged.extent_eq (rearranged.made.sound.mem_order_of_mem_output c hc)

variable (distinct : p.subscripts.output.Nodup)
include distinct

/-- Under both plans the assignments that lead to an output cell read the same entries equally
often. Counting readings is a sum, so this is the order of the symbols being immaterial to sums. -/
theorem readings_perm [Zero ε] {o : List Nat} (ho : InRange (p.subscripts.output.map p.extent) o) :
    ((p.agreeing o).map fun a => reading factors (p.valueOf a)).Perm
      ((p'.agreeing o).map fun a => reading factors (p'.valueOf a)) := by
  have made := rearranged.made
  have made' := rearranged.made'
  let once (σ : Char → Nat) : Multiset (List ε) := {reading factors σ}
  have counted (q : Plan) : ((q.agreeing o).map fun a => once (q.valueOf a)).sum =
      ((q.agreeing o).map fun a => reading factors (q.valueOf a) : List (List ε)) := by
    rw [← Multiset.sum_map_singleton (Multiset.ofList _), Multiset.map_coe, Multiset.sum_coe,
      List.map_map]
    rfl
  have depends : DependsOn once {c | c ∈ p.order} := by
    intro σ τ agree
    have same := dependsOn_reading factors fun c occurs =>
      agree c (mem_order_of_occurs made.inputs_eq occurs)
    simp only [once, same]
  have depends' : DependsOn once {c | c ∈ p'.order} := fun _ _ agree =>
    depends fun c hc => agree c ((rearranged.mem_order_iff c).1 hc)
  have sums := sum_agreeing_eq_sumOver distinct made.sound.mem_order_of_mem_output ho depends
  have sums' :=
    sum_agreeing_eq_sumOver (rearranged.output_eq ▸ distinct) made'.sound.mem_order_of_mem_output
      (rearranged.map_extent_output ▸ ho) depends'
  rw [← Multiset.coe_eq_coe, ← counted, ← counted, sums, sums',
    sumOver_perm rearranged.contracted_perm, rearranged.output_eq]
  apply sumOver_congr_extent
  intro c hc
  exact (rearranged.extent_eq ((rearranged.mem_order_iff c).2 (List.mem_of_mem_filter hc))).symm

/-- The loop fills its cells with the same. -/
theorem run_eq [Zero ε] {backend : Backend ε γ π} (orderless : backend.Orderless) :
    Contraction.run backend p' (factors'.map (·.2.data)) =
      Contraction.run backend p (factors.map (·.2.data)) := by
  have made := rearranged.made
  have made' := rearranged.made'
  obtain ⟨out, ran, size, cells⟩ := made.sound.run_eq_cells distinct backend
    fun a ha => gather_entries made.inputs_eq made.sized ha
  obtain ⟨out', ran', size', cells'⟩ :=
    made'.sound.run_eq_cells (rearranged.output_eq ▸ distinct) backend
      fun a ha => gather_entries made'.inputs_eq made'.sized ha
  rw [rearranged.map_extent_output] at size' cells'
  rw [ran, ran']
  refine congrArg Except.ok (buffer_ext size' size fun o ho => ?_)
  -- First the elements within each product are put in order, then the products.
  have products (a : List Nat) :
      backend.combine (factors'.map fun factor => factor.2.entry (p'.coordsOf a factor.1)) =
      backend.combine (reading factors (p'.valueOf a)) :=
    orderless.combine_perm (rearranged.perm.symm.map _)
  have collected := orderless.collect_perm (rearranged.readings_perm distinct ho)
  rw [List.foldl_map, List.foldl_map] at collected
  rw [cells o ho, cells' o ho]
  simp only [products]
  exact congrArg some collected.symm

end Rearranged

end Plan

/-- A runner whose results do not depend on the order of the operands. -/
def Runner.Orderless (run : Runner ε) : Prop :=
  ∀ (p p' : Plan) (factors factors' : List (Factor ε)), p.Rearranged p' factors factors' →
    p.subscripts.output.Nodup →
    ∀ name, run p' (factors'.map (·.2)) name = run p (factors.map (·.2)) name

theorem runReal_orderless [Zero ε] [One ε] [Add ε] [Mul ε] [BulkRoutine ε]
    (orderless : (Backend.real : Backend ε ε ε).Orderless) :
    Runner.Orderless fun p tensors name => p.runReal (α := ε) tensors .loop name := by
  intro p p' factors factors' rearranged distinct name
  have ran := rearranged.run_eq distinct orderless
  simp only [Plan.runReal, List.map_map, Function.comp_def, rearranged.checkOutput_eq, ran,
    rearranged.outputNames_eq, rearranged.outputShape_eq]

theorem runSumProduct_orderless [Zero ε] {s : SumProduct ε} (orderless : s.backend.Orderless) :
    Runner.Orderless fun p tensors name => p.runSumProduct s tensors name := by
  intro p p' factors factors' rearranged distinct name
  have ran := rearranged.run_eq distinct orderless
  simp only [Plan.runSumProduct, List.map_map, Function.comp_def, rearranged.checkOutput_eq, ran,
    rearranged.outputNames_eq, rearranged.outputShape_eq]

/-- Whether operands may be named in any order together with their segments. What is granted for one
order, with an output that repeats no symbol, is granted for every other, and the results are the
same. -/
def OperandsCommute
    (contract : Wording → List (Operand ε) → Option String → Except Fault (Tensor ε)) : Prop :=
  ∀ (factors factors' : List (Factor ε)) (output : List Char) (wording wording' : Wording)
    (name : Option String) (t : Tensor ε), factors.Perm factors' → output.Nodup →
    Asked factors output wording → Asked factors' output wording' →
    contract wording (operands factors) name = .ok t →
    contract wording' (operands factors') name = .ok t

theorem Runner.Orderless.operandsCommute {run : Runner ε} (orderless : run.Orderless)
    (settings : Settings τ) : OperandsCommute (contractWith run settings) := by
  rintro factors factors' output wording wording' name t perm distinct ⟨s, resolved, segments, rfl⟩
    ⟨s', resolved', segments', output⟩ contracted
  rw [contractWith_eq resolved] at contracted
  obtain ⟨p, planned, ran⟩ := bind_eq_ok_iff.1 contracted
  obtain ⟨accepted, limit⟩ := plan_eq_ok_iff.1 planned
  -- The sizes that explain the operands explain them in the other order too.
  have matched := (matched_of_resolve segments accepted).perm perm
  obtain ⟨p', accepted'⟩ := resolve_of_matched segments' (output.symm ▸ matched)
  have rearranged : p.Rearranged p' factors factors' := by
    refine ⟨Plan.madeFor_of_resolve segments accepted, Plan.madeFor_of_resolve segments' accepted',
      perm, ?_⟩
    rw [(Plan.fits_of_resolve accepted).1, (Plan.fits_of_resolve accepted').1, output]
  rw [contractWith_eq resolved',
    plan_eq_ok_iff.2 ⟨accepted', checkLimit_of_jointSize_eq rearranged.jointSize_eq limit⟩, ok_bind,
    orderless _ _ _ _ rearranged ((Plan.fits_of_resolve accepted).1 ▸ distinct), ran]

end TensorCalculus
