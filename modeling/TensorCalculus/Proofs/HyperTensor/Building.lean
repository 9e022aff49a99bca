import TensorCalculus.HyperTensor.Build
import TensorCalculus.Proofs.Tensor.Entries
import TensorCalculus.Proofs.Tower.Numbers

/-!
# Building hypercomplex tensors from numbers

Numbers that carry the tag of one algebra pass every check of a hypercomplex tensor. When they fill
its shape and every axis has a name, the tensor is made of them as they are. A tensor that holds
values of the tower in the form of its algebra is known by them. -/

namespace TensorCalculus.HyperTensor

-- Powers of natural numbers are those of `Nat.pow`, as in the definitions.
attribute [local instance (2000)] instPowNat

open TensorCalculus.Layout TensorCalculus.Outcome

variable {α : Type} {tag : AlgebraTag}

theorem checkElements_number {xs : List (Number α)} (tagged : ∀ x ∈ xs, x.algebra = tag)
    (position : Nat) :
    ∃ ys, checkElements tag position (xs.map .number) = .ok ys ∧ ys.map Subtype.val = xs := by
  induction xs generalizing position with
  | nil => exact ⟨[], rfl, rfl⟩
  | cons x xs ih =>
    obtain ⟨ys, rest, same⟩ := ih (fun y hy => tagged y (List.mem_cons_of_mem x hy)) (position + 1)
    have here : x.algebra = tag := tagged x List.mem_cons_self
    refine ⟨⟨x, here⟩ :: ys, ?_, by rw [List.map_cons, same]⟩
    rw [List.map_cons, checkElements, checkElement, dif_pos here, ok_bind, rest]
    rfl

theorem make_eq (name : String) {indices : List String} {sizes : List Nat} {data : Array (Number α)}
    (named : indices.length = sizes.length) (filled : data.size = volume sizes)
    (tagged : ∀ x ∈ data, x.algebra = tag) :
    make name indices (sizes.map Int.ofNat) (data.toList.map .number) tag =
      .ok { name, indices, shape := sizes, data, algebra := tag
            length_indices := named, size_data := filled, tagged } := by
  obtain ⟨xs⟩ := data
  obtain ⟨ys, accepted, rfl⟩ :=
    checkElements_number (fun x hx => tagged x (List.mem_toArray.2 hx)) 0
  have count : (List.map Term.number (ys.map Subtype.val)).length = volume sizes := by
    simpa using filled
  unfold make
  simp only [Tensor.checkDimensions_map_ofNat, Tensor.map_toNat_map_ofNat, named, count, dif_pos]
  split
  next fault failed => rw [accepted] at failed; cases failed
  next zs found =>
    rw [accepted] at found
    cases found
    rfl

/-- Whether a tensor of an algebra holds given values, all in the form of the algebra. -/
structure Holds {k : Nat} (t : HyperTensor α) (dimension : tag.dimension = (2 ^ k : Nat))
    (shape : List Nat) (content : List Nat → Tower α k) : Prop where
  algebra_eq : t.algebra = tag
  shape_eq : t.shape = shape
  getElem?_data :
    ∀ o, InRange shape o → t.data[offset shape o]? = some (.ofTower tag dimension (content o))

namespace Holds

variable {k : Nat} {s t : HyperTensor α} {dimension : tag.dimension = (2 ^ k : Nat)}
  {shape : List Nat} {content content' : List Nat → Tower α k}

/-- Tensors that hold the same values have the same elements. -/
theorem data_eq (left : s.Holds dimension shape content) (right : t.Holds dimension shape content')
    (same : ∀ o, InRange shape o → content o = content' o) : s.data = t.data := by
  apply Tensor.data_ext_of_getElem? (left.shape_eq.trans right.shape_eq.symm)
  intro o inside
  rw [left.shape_eq] at inside ⊢
  rw [left.getElem?_data o inside, right.getElem?_data o inside, same o inside]

theorem entry_value [AddCommGroup α] (holds : t.Holds dimension shape content) {o : List Nat}
    (inside : InRange shape o) : (t.toTensor.map (Number.value k)).entry o = content o := by
  have found := holds.getElem?_data o inside
  obtain rfl := holds.shape_eq
  apply Tensor.entry_of_getElem?_data (t := t.toTensor.map (Number.value k)) inside
  rw [Tensor.data_map, Array.getElem?_map, Tensor.shape_map, found, Option.map_some,
    Number.value_ofTower]

end Holds

end TensorCalculus.HyperTensor
