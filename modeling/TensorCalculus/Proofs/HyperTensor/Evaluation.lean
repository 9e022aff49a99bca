import TensorCalculus.Proofs.Contraction.Requests
import TensorCalculus.Proofs.HyperTensor.Building
import TensorCalculus.Proofs.Tower.Numbers

/-!
# Hypercomplex contractions as sums

A hypercomplex contraction multiplies the elements of its operands from left to right. On the level
of the tower that belongs to the algebra, each element of the result is the sum, over the values of
the symbols summed over, of these products; nothing is regrouped and no factors change places. -/

namespace TensorCalculus

-- Powers of natural numbers are those of `Nat.pow`, as in the definitions.
attribute [local instance (2000)] instPowNat

open TensorCalculus.Layout TensorCalculus.Outcome
open Factor

variable {R : Type} {k : Nat} {tag : AlgebraTag}

/-- A hypercomplex operand with the segment that names its axes. -/
abbrev HyperFactor (α : Type) := List Char × HyperTensor α

namespace HyperFactor

/-- The factor with the numbers themselves as elements. -/
def plain {α : Type} (factor : HyperFactor α) : Factor (Number α) :=
  (factor.1, factor.2.toTensor)

theorem parts_append (first rest : List (HyperFactor R)) :
    ((first ++ rest).map plain).Perm (first.map plain ++ rest.map plain) := by
  rw [List.map_append]

/-- Whether factors, of which there is at least one, are tensors of a given algebra. -/
structure OfAlgebra {α : Type} (tag : AlgebraTag) (factors : List (HyperFactor α)) : Prop where
  ne_nil : factors ≠ []
  algebra_eq : ∀ factor ∈ factors, factor.2.algebra = tag

def operands (factors : List (HyperFactor R)) : List (Operand R) :=
  factors.map fun factor => .hyper factor.2

theorem checkAlgebras_of_tagged {tensors : List (HyperTensor R)}
    (tagged : ∀ t ∈ tensors, t.algebra = tag) (position : Nat) :
    Operand.checkAlgebras tag position tensors = .ok () := by
  induction tensors generalizing position with
  | nil => rfl
  | cons t tensors ih =>
    rw [Operand.checkAlgebras, if_pos (tagged t List.mem_cons_self)]
    exact ih (fun s hs => tagged s (List.mem_cons_of_mem t hs)) (position + 1)

theorem expectHypers_hyper {tensors : List (HyperTensor R)} (nonempty : tensors ≠ [])
    (tagged : ∀ t ∈ tensors, t.algebra = tag) :
    Operand.expectHypers (tensors.map .hyper) = .ok (tag, tensors) := by
  obtain ⟨first, rest, rfl⟩ := List.exists_cons_of_ne_nil nonempty
  have understood : ((first :: rest).map .hyper).mapM Operand.expectHyper =
      .ok (first :: rest) := by
    rw [mapM_eq_ok_iff, List.forall₂_map_left_iff]
    exact List.forall₂_same.2 fun _ _ => rfl
  have checked := checkAlgebras_of_tagged (fun t ht => tagged t (List.mem_cons_of_mem first ht)) 1
  rw [← tagged first List.mem_cons_self] at checked ⊢
  rw [Operand.expectHypers, if_neg (by simp), understood, ok_bind]
  simp only [checked, ok_bind, pure_eq_ok]

theorem expectHypers_operands {factors : List (HyperFactor R)} (tagged : OfAlgebra tag factors) :
    Operand.expectHypers (operands factors) = .ok (tag, factors.map (·.2)) := by
  have same : ∀ t ∈ factors.map (·.2), t.algebra = tag := by
    intro t ht
    obtain ⟨factor, here, rfl⟩ := List.mem_map.1 ht
    exact tagged.algebra_eq factor here
  rw [← expectHypers_hyper (mt List.map_eq_nil_iff.1 tagged.ne_nil) same, List.map_map]
  rfl

end HyperFactor

open HyperFactor

namespace Plan

variable {p : Plan} {factors : List (HyperFactor R)}

/-- The number that a factor has under an assignment, `zero` where there is none. -/
def numberUnder (p : Plan) (zero : Number R) (a : List Nat) (factor : Factor (Number R)) :
    Number R :=
  (factor.2.elem? (p.coordsOf a factor.1)).getD zero

theorem algebra_numberUnder {zero : Number R} (held : zero.algebra = tag) (a : List Nat)
    {factor : HyperFactor R} (tagged : factor.2.algebra = tag) :
    (p.numberUnder zero a (plain factor)).algebra = tag := by
  rw [numberUnder]
  cases found : (plain factor).2.elem? (p.coordsOf a (plain factor).1) with
  | none => exact held
  | some x => exact (factor.2.tagged x (Tensor.mem_data_of_elem? found)).trans tagged

theorem gather_numbers (segments : p.subscripts.inputs = (factors.map plain).map (·.1))
    (sized : Sized (factors.map plain) p.extent) (zero : Number R) {a : List Nat}
    (ha : a ∈ p.assignments) :
    Contraction.gather (factors.map (·.2.data))
        (p.subscripts.inputs.map fun segment => (p.placeOf a segment : Int)) =
      .ok (factors.map fun factor => p.numberUnder zero a (plain factor)) := by
  have found : ∀ factor ∈ factors.map plain,
      factor.2.data[p.placeOf a factor.1]? = some (p.numberUnder zero a factor) := by
    intro factor here
    have inside := inRange_of_sized segments sized ha here
    rw [placeOf, ← sized factor here, Tensor.getElem?_data_eq_elem? inside, numberUnder,
      Tensor.elem?_eq_some inside, Option.getD_some]
  have read := gather_factors (p.numberUnder zero a) found
  rwa [← segments, List.map_map, List.map_map] at read

end Plan

variable [CommRing R]

namespace Tower

/-- The product of values, grouped from the left. -/
def leftProduct : List (Tower R k) → Tower R k
  | [] => 0
  | a :: as => as.foldl (· * ·) a

end Tower

/-- The loop multiplies the values of its elements, from the left. -/
theorem Backend.exists_combine_hyper (zero : Number R) {xs : List (Number R)} (nonempty : xs ≠ [])
    (dimension : tag.dimension = (2 ^ k : Nat)) (tagged : ∀ x ∈ xs, x.algebra = tag) :
    ∃ y, (Backend.hyper zero).combine xs = .ok y ∧ y.algebra = tag ∧
      y.value k = Tower.leftProduct (xs.map (Number.value k)) := by
  obtain ⟨x, xs, rfl⟩ := List.exists_cons_of_ne_nil nonempty
  change ∃ y, xs.foldlM Number.mul x = .ok y ∧ _
  clear nonempty
  induction xs generalizing x with
  | nil => exact ⟨x, rfl, tagged x List.mem_cons_self, rfl⟩
  | cons z zs ih =>
    obtain ⟨here, next, rest⟩ : x.algebra = tag ∧ z.algebra = tag ∧ ∀ y ∈ zs, y.algebra = tag := by
      simpa using tagged
    have size := Number.length_of_algebra_eq here dimension
    have step := Number.mul_eq_holding_value size (here.trans next.symm)
    obtain ⟨y, multiplied, held, product⟩ :=
      ih (x.holding size (x.value k * z.value k)) (by simpa [here] using rest)
    refine ⟨y, ?_, held, ?_⟩
    · rw [List.foldlM_cons, step, ok_bind, multiplied]
    · rw [product, List.map_cons, Number.value_holding]
      rfl

namespace HyperFactor

/-- The factor with the values of the numbers on a level of the tower as elements. -/
def valued (k : Nat) (factor : HyperFactor R) : Factor (Tower R k) :=
  (factor.1, factor.2.toTensor.map (Number.value k))

/-- The values that the factors have under given values of the symbols. -/
def values (k : Nat) (factors : List (HyperFactor R)) (σ : Char → Nat) : List (Tower R k) :=
  factors.map fun factor => (valued k factor).2.entry (factor.1.map σ)

/-- The product of these values, grouped from the left. -/
def leftProduct (k : Nat) (factors : List (HyperFactor R)) (σ : Char → Nat) : Tower R k :=
  Tower.leftProduct (values k factors σ)

theorem dependsOn_values (factors : List (HyperFactor R)) :
    DependsOn (values k factors) {c | Occurs (factors.map plain) c} := by
  intro σ τ agree
  apply List.map_congr_left
  intro factor here
  have same :
    ∀ c ∈ factor.1, σ c = τ c := fun c hc => agree c ⟨plain factor, List.mem_map_of_mem here, hc⟩
  rw [List.map_congr_left same]

theorem dependsOn_leftProduct (factors : List (HyperFactor R)) :
    DependsOn (leftProduct k factors) {c | Occurs (factors.map plain) c} :=
  fun _ _ agree => congrArg Tower.leftProduct (dependsOn_values factors agree)

end HyperFactor

namespace Plan

variable {p : Plan} {factors : List (HyperFactor R)}

theorem value_numberUnder {zero : Number R} (vanishes : zero.value k = 0) (a : List Nat)
    (factor : HyperFactor R) :
    (p.numberUnder zero a (plain factor)).value k = (valued k factor).2.entry
      (factor.1.map (p.valueOf a)) := by
  rw [numberUnder, Tensor.entry, valued, Tensor.elem?_map, plain, coordsOf]
  cases factor.2.toTensor.elem? (factor.1.map (p.valueOf a)) with
  | none => exact vanishes
  | some x => rfl

/-- The loop adds up the products of the values, whatever form the numbers have. -/
theorem collects_hyper (dimension : tag.dimension = (2 ^ k : Nat))
    (tagged : OfAlgebra tag factors) :
    (Backend.hyper (.ofTower tag dimension 0)).Collects
      (fun c => .ok (Number.ofTower tag dimension c)) p.assignments
        (fun a => factors.map fun factor =>
          p.numberUnder (.ofTower tag dimension 0) a (plain factor))
      fun a => leftProduct k factors (p.valueOf a) where
  blank_eq := rfl
  accumulate_eq a _ c := by
    have numbers :
        ∀ y ∈ factors.map fun factor => p.numberUnder (.ofTower tag dimension 0) a (plain factor),
          y.algebra = tag := by
      intro y hy
      obtain ⟨factor, here, rfl⟩ := List.mem_map.1 hy
      exact algebra_numberUnder rfl a (tagged.algebra_eq factor here)
    obtain ⟨y, combined, held, product⟩ := Backend.exists_combine_hyper (.ofTower tag dimension 0)
      (mt List.map_eq_nil_iff.1 tagged.ne_nil) dimension numbers
    have value : y.value k = leftProduct k factors (p.valueOf a) := by
      rw [product, List.map_map, leftProduct]
      apply congrArg
      apply List.map_congr_left
      intro factor _
      exact value_numberUnder (Number.value_ofTower dimension 0) a factor
    rw [combined, ← value]
    exact Number.ofTower_add dimension c held

/-- What must hold for a plan to run over hypercomplex tensors. -/
theorem checks_of_runHyper (dimension : tag.dimension = (2 ^ k : Nat))
    {tensors : List (HyperTensor R)} {name : Option String} {t : HyperTensor R}
    (ran : p.runHyper tag tensors name = .ok t) :
    elementBytes * 2 ^ k ≤ wordLimit ∧ p.checkOutput = .ok () := by
  rw [runHyper] at ran
  obtain ⟨_, zero, ran⟩ := bind_eq_ok_iff.1 ran
  obtain ⟨_, checked, -⟩ := bind_eq_ok_iff.1 ran
  exact ⟨Number.bytes_le_of_unit dimension zero, checked⟩

/-- What a sound plan gives over hypercomplex tensors whose zeros can be laid out. -/
theorem Sound.runHyper_eq (sound : p.Sound) (distinct : p.subscripts.output.Nodup)
    (segments : p.subscripts.inputs = (factors.map plain).map (·.1))
    (sized : Sized (factors.map plain) p.extent)
    (dimension : tag.dimension = (2 ^ k : Nat)) (bytes : elementBytes * 2 ^ k ≤ wordLimit)
    (tagged : OfAlgebra tag factors) (checked : p.checkOutput = .ok ()) (name : Option String) :
    ∃ t, p.runHyper tag (factors.map (·.2)) name = .ok t ∧
      t.Holds dimension (p.subscripts.output.map p.extent) fun o =>
        sumOver p.extent p.contracted (leftProduct k factors)
          (Assignment.value p.subscripts.output o) := by
  have depends : DependsOn (leftProduct k factors) {c | c ∈ p.order} :=
    (dependsOn_leftProduct factors).mono fun c => mem_order_of_occurs segments
  obtain ⟨out, ran, size, cells⟩ :=
    sound.run_eq_sumOver distinct (fun a ha => gather_numbers segments sized _ ha) depends
      (collects_hyper dimension tagged)
  obtain ⟨data, rfl, filled, contents⟩ := Tensor.exists_data_of_cells size cells
  have held : ∀ x ∈ data, x.algebra = tag := by
    intro x hx
    obtain ⟨o, -, rfl⟩ := Tensor.exists_content_eq_of_mem filled contents hx
    exact Number.algebra_ofTower dimension _
  have zero : Number.unit tag (0 : R) = .ok (.ofTower tag dimension 0) := by
    rw [Number.unit_eq_ofTower dimension bytes, Tower.ofScalar_zero]
  have buffers : (factors.map (·.2)).map (·.data) = factors.map (·.2.data) := by
    rw [List.map_map]
    rfl
  refine ⟨⟨⟨resultName name, _, _, data, p.length_outputNames, filled⟩, tag, held⟩, ?_, rfl, rfl,
    contents⟩
  rw [runHyper, zero, ok_bind, checked, ok_bind, buffers, ran, ok_bind, Array.toList_map,
    mapM_id_ok, ok_bind, sound.outputShape_eq]
  exact HyperTensor.make_eq (resultName name) p.length_outputNames filled held

end Plan

section Requests

variable {τ : Type} {s : Subscripts} {p : Plan} {policy : RepetitionPolicy}
  {factors : List (HyperFactor R)} {extent : Char → Nat}

theorem hyperEinsum_eq {settings : Settings τ} {wording : Wording} (asked : wording.resolve = .ok s)
    (tagged : OfAlgebra tag factors) (name : Option String) :
    hyperEinsum (.ok settings) wording (operands factors) name = (do
      let plan ← settings.plan s ((factors.map plain).map (·.2.dims))
      plan.runHyper tag (factors.map (·.2)) name) := by
  rw [hyperEinsum, expectHypers_operands tagged]
  simp only [ok_bind, Settings.planWording, asked, List.map_map]
  rfl

/-- An accepted hypercomplex contraction whose output a list can hold holds the sums of products
over its factors. -/
theorem runHyper_of_resolve (segments : s.inputs = (factors.map plain).map (·.1))
    (accepted : Plan.resolve s ((factors.map plain).map (·.2.dims)) policy = .ok p)
      (distinct : s.output.Nodup)
    (sized : Sized (factors.map plain) extent) (dimension : tag.dimension = (2 ^ k : Nat))
    (bytes : elementBytes * 2 ^ k ≤ wordLimit) (tagged : OfAlgebra tag factors)
    (checked : p.checkOutput = .ok ()) (name : Option String) :
    ∃ t, p.runHyper tag (factors.map (·.2)) name = .ok t ∧
      t.Holds dimension (s.output.map extent) fun o =>
        sumOver extent s.contracted (leftProduct k factors) (Assignment.value s.output o) := by
  have planned := matched_of_resolve segments accepted
  have sound := sound_of_resolve_dims accepted
  have output := map_extent_output segments accepted sized
  have sums := sumOver_extent (f := leftProduct k factors) segments accepted sized
  obtain ⟨rfl, -, -⟩ := Plan.fits_of_resolve accepted
  obtain ⟨t, ran, holds⟩ :=
    sound.runHyper_eq distinct segments planned.sized dimension bytes tagged checked name
  refine ⟨t, ran, ?_⟩
  simpa only [output, sums] using holds

/-- A request with factors of one algebra that fit together is granted, unless it is too large. -/
theorem exists_hyper_answer {settings : Settings τ} {output : List Char} {wording : Wording}
    (asked : Asked (factors.map plain) output wording) (distinct : output.Nodup)
    (matched : Matched settings.repetition (factors.map plain) output extent)
    (affordable : Affordable settings (factors.map plain) output extent)
    (dimension : tag.dimension = (2 ^ k : Nat)) (bytes : elementBytes * 2 ^ k ≤ wordLimit)
    (tagged : OfAlgebra tag factors) (name : Option String) :
    ∃ (s : Subscripts) (t : HyperTensor R), s.inputs = (factors.map plain).map (·.1) ∧
      s.output = output ∧
      hyperEinsum (.ok settings) wording (operands factors) name = .ok t ∧
      t.Holds dimension (output.map extent) fun o =>
        sumOver extent s.contracted (leftProduct k factors) (Assignment.value output o) := by
  obtain ⟨s, p, resolved, segments, rfl, accepted, planned, checked⟩ :=
    asked.exists_plan matched affordable
  obtain ⟨t, ran, holds⟩ :=
    runHyper_of_resolve segments accepted distinct matched.sized dimension bytes tagged checked name
  refine ⟨s, t, segments, rfl, ?_, holds⟩
  rw [hyperEinsum_eq resolved tagged, planned, ok_bind, ran]

end Requests

end TensorCalculus
