import TensorCalculus.Proofs.SumProduct.Semirings

/-!
# Contractions as tensors

Running a sound plan fails only when no list can hold its output, and otherwise gives a tensor of
the output's shape whose entries are stored sums of products. The real loop and the loop under
another sum and product are alike in this, so they are treated as one: a way of running plans, with
the semiring it computes in. -/

namespace TensorCalculus

open TensorCalculus.Layout TensorCalculus.Outcome
open Factor

variable {ε K : Type}

/-- A way of running plans over real tensors. -/
abbrev Runner (ε : Type) := Plan → List (Tensor ε) → Option String → Except Fault (Tensor ε)

namespace Plan

theorem length_outputNames (p : Plan) :
    p.outputNames.length = (p.subscripts.output.map p.extent).length := by
  rw [outputNames, List.length_map, List.length_map]

variable {p : Plan}

/-- The tensor that is made of cells which fill the output. -/
theorem make_output (sound : p.Sound) (name : String) {data : Array ε}
    (filled : data.size = volume (p.subscripts.output.map p.extent)) :
    ∃ t, Tensor.make name p.outputNames p.outputShape (.ok data) = .ok t ∧
      t.shape = p.subscripts.output.map p.extent ∧ t.data = data := by
  rw [sound.outputShape_eq, Tensor.make_eq name p.length_outputNames filled]
  exact ⟨_, rfl, rfl, rfl⟩

section Names

variable {tensors : List (Tensor ε)} {name : Option String} {t : Tensor ε}

theorem names_of_runSumProduct {s : SumProduct ε} (ran : p.runSumProduct s tensors name = .ok t) :
    t.name = resultName name ∧ t.indices = p.outputNames := by
  obtain ⟨-, -, ran⟩ := bind_eq_ok_iff.1 ran
  obtain ⟨cells, -, ran⟩ := bind_eq_ok_iff.1 ran
  obtain ⟨data, -, made⟩ := bind_eq_ok_iff.1 ran
  exact Tensor.names_of_make made

theorem names_of_runReal [Zero ε] [One ε] [Add ε] [Mul ε] [BulkRoutine ε]
    (ran : p.runReal tensors .loop name = .ok t) : t.name = resultName name ∧
      t.indices = p.outputNames := by
  obtain ⟨-, -, ran⟩ := bind_eq_ok_iff.1 ran
  obtain ⟨data, -, made⟩ := bind_eq_ok_iff.1 ran
  exact Tensor.names_of_make made

end Names

end Plan

/-- A runner whose results are stored sums of products in a semiring. -/
structure Runner.Evaluates [Zero ε] [CommSemiring K] (run : Runner ε) (lift : ε → K)
    (encode : K → ε) : Prop where
  lift_encode : ∀ k, lift (encode k) = k
  checkOutput_of_run : ∀ {p tensors name t}, run p tensors name = .ok t → p.checkOutput = .ok ()
  run_eq : ∀ {p : Plan} {factors : List (Factor ε)} (name : Option String), p.Sound →
    p.subscripts.output.Nodup →
    p.subscripts.inputs = factors.map (·.1) → Sized factors p.extent → p.checkOutput = .ok () →
    ∃ t, run p (factors.map (·.2)) name = .ok t ∧ t.shape = p.subscripts.output.map p.extent ∧
      ∀ o, InRange (p.subscripts.output.map p.extent) o → t.entry o = encode
        (sumOver p.extent p.contracted (product lift factors)
          (Assignment.value p.subscripts.output o))

theorem runReal_evaluates [CommSemiring ε] [BulkRoutine ε] :
    Runner.Evaluates (fun p tensors name => p.runReal (α := ε) tensors .loop name) id id where
  lift_encode _ := rfl
  checkOutput_of_run ran := by
    obtain ⟨_, checked, -⟩ := bind_eq_ok_iff.1 ran
    exact checked
  run_eq {p factors} name sound distinct segments sized checked := by
    have exact : (Backend.real : Backend ε ε ε).Exact id id :=
      { blank_eq := rfl
        combine_eq := fun values => by rw [List.map_id, List.prod_eq_foldl]; rfl
        accumulate_eq := fun _ _ => rfl }
    obtain ⟨out, ran, size, cells⟩ := sound.run_eq_sumOver_product distinct segments sized exact
    obtain ⟨t, made, shape, data⟩ := Plan.make_output sound (resultName name) size
    refine ⟨t, ?_, shape, fun o ho => Tensor.entry_of_getElem?_data (shape ▸ ho) ?_⟩
    · simp only [Plan.runReal, checked, ok_bind, List.map_map, Function.comp_def, ran, made]
    · rw [shape, data, cells o ho]

theorem runSumProduct_evaluates [Zero ε] {s : SumProduct ε} {encode : s.Carrier → ε}
    (exact : s.Exact encode) :
    letI := exact.semiring
    Runner.Evaluates (fun p tensors name => p.runSumProduct s tensors name) s.lift encode :=
  letI := exact.semiring
  { lift_encode := exact.lift_encode
    checkOutput_of_run := fun ran => by
      obtain ⟨_, checked, -⟩ := bind_eq_ok_iff.1 ran
      exact checked
    run_eq := fun {p factors} name sound distinct segments sized checked => by
      obtain ⟨out, ran, size, cells⟩ :=
        sound.run_eq_sumOver_product distinct segments sized (SumProduct.backend_exact exact)
      obtain ⟨data, rfl, filled, contents⟩ := Tensor.exists_data_of_cells size cells
      obtain ⟨t, made, shape, same⟩ := Plan.make_output sound (resultName name) filled
      refine ⟨t, ?_, shape, fun o ho => Tensor.entry_of_getElem?_data (shape ▸ ho) ?_⟩
      · simp only [Plan.runSumProduct, checked, ok_bind, List.map_map, Function.comp_def, ran,
          array_mapM_id_ok, made]
      · rw [shape, same, contents o ho] }

end TensorCalculus
