import TensorCalculus.Proofs.Layout.Coordinates
import TensorCalculus.Proofs.Odometer.Digits
import TensorCalculus.Proofs.Outcome
import TensorCalculus.Tensor.Elementwise

/-!
# Entries of tensors

A tensor is known by its shape and its entries: tensors of one shape with equal entries have equal
buffers. -/

namespace TensorCalculus.Tensor

open TensorCalculus.Layout TensorCalculus.Outcome

variable {α : Type}

/-- The element at coordinates, zero where the coordinates name none. -/
def entry [Zero α] (t : Tensor α) (coords : List Nat) : α :=
  (t.elem? coords).getD 0

theorem getElem?_data_eq_elem? {t : Tensor α} {coords : List Nat}
    (inside : InRange t.shape coords) : t.data[offset t.shape coords]? = t.elem? coords := by
  have bound : offset t.shape coords < t.data.size := t.size_data ▸ offset_lt_volume inside
  rw [elem?_eq_some inside, elem, Array.getElem?_eq_getElem bound]

theorem getElem?_data_eq_entry [Zero α] {t : Tensor α} {coords : List Nat}
    (inside : InRange t.shape coords) : t.data[offset t.shape coords]? = some (t.entry coords) := by
  rw [getElem?_data_eq_elem? inside, entry, elem?_eq_some inside, Option.getD_some]

theorem entry_of_getElem?_data [Zero α] {t : Tensor α} {coords : List Nat} {x : α}
    (inside : InRange t.shape coords) (found : t.data[offset t.shape coords]? = some x) :
    t.entry coords = x := by
  rw [getElem?_data_eq_entry inside] at found
  exact Option.some.inj found

theorem inRange_of_entry_ne_zero [Zero α] {t : Tensor α} {coords : List Nat}
    (nonzero : t.entry coords ≠ 0) : InRange t.shape coords := by
  by_contra outside
  rw [entry, elem?, dif_neg outside] at nonzero
  exact nonzero rfl

theorem data_ext_of_getElem? {s t : Tensor α} (shapes : s.shape = t.shape)
    (same : ∀ coords, InRange s.shape coords →
      s.data[offset s.shape coords]? = t.data[offset s.shape coords]?) :
    s.data = t.data :=
  buffer_ext s.size_data (shapes ▸ t.size_data) same

theorem data_ext [Zero α] {s t : Tensor α} (shapes : s.shape = t.shape)
    (entries : ∀ coords, InRange s.shape coords → s.entry coords = t.entry coords) :
    s.data = t.data := by
  apply data_ext_of_getElem? shapes
  intro coords inside
  have right := getElem?_data_eq_entry (shapes ▸ inside : InRange t.shape coords)
  rw [getElem?_data_eq_entry inside, entries coords inside, shapes, right]

/-- Whether two tensors have the same name and the same axes. -/
structure Alike (s t : Tensor α) : Prop where
  name_eq : s.name = t.name
  indices_eq : s.indices = t.indices
  shape_eq : s.shape = t.shape

/-- Tensors that are alike differ in their data at most. -/
theorem Alike.eq_of_data {s t : Tensor α} (alike : s.Alike t) (same : s.data = t.data) : s = t := by
  obtain ⟨name_eq, indices_eq, shape_eq⟩ := alike
  cases s
  cases t
  simp_all

theorem Alike.eq_of_entries [Zero α] {s t : Tensor α} (alike : s.Alike t)
    (entries : ∀ coords, InRange s.shape coords → s.entry coords = t.entry coords) : s = t :=
  alike.eq_of_data (data_ext alike.shape_eq entries)

theorem Alike.eq_of_elem? {s t : Tensor α} (alike : s.Alike t)
    (same : ∀ coords, InRange s.shape coords → s.elem? coords = t.elem? coords) : s = t := by
  apply alike.eq_of_data
  apply data_ext_of_getElem? alike.shape_eq
  intro coords inside
  have right := getElem?_data_eq_elem? (alike.shape_eq ▸ inside : InRange t.shape coords)
  rw [getElem?_data_eq_elem? inside, same coords inside, alike.shape_eq, right]

theorem inRange_of_elem?_eq_some {t : Tensor α} {coords : List Nat} {x : α}
    (found : t.elem? coords = some x) : InRange t.shape coords := by
  by_contra outside
  rw [elem?, dif_neg outside] at found
  cases found

theorem shape_eq_of_dims_eq {s t : Tensor α} (same : s.dims = t.dims) : s.shape = t.shape :=
  List.map_injective_iff.2 Int.ofNat_injective same

/-- Cells that all hold a result are the elements of a tensor. -/
theorem exists_data_of_cells {ε : Type} {shape : List Nat} {cells : Array (Except ε α)}
    {content : List Nat → α} (size : cells.size = volume shape)
    (filled : ∀ coords, InRange shape coords →
      cells[offset shape coords]? = some (.ok (content coords))) :
    ∃ data : Array α, cells = data.map .ok ∧ data.size = volume shape ∧
      ∀ coords, InRange shape coords → data[offset shape coords]? = some (content coords) := by
  have successful : ∀ place (_ : place < cells.size), ∃ x, cells[place] = .ok x := by
    intro place below
    obtain ⟨coords, inside, rfl⟩ := exists_offset_eq (size ▸ below)
    have cell := filled coords inside
    rw [Array.getElem?_eq_getElem below] at cell
    exact ⟨_, Option.some.inj cell⟩
  obtain ⟨data, rfl⟩ := exists_eq_map_ok successful
  refine ⟨data, rfl, by rw [← size, Array.size_map], fun coords inside => ?_⟩
  simpa using filled coords inside

/-- Every element of a filled buffer stands at some coordinates. -/
theorem exists_content_eq_of_mem {shape : List Nat} {data : Array α} {content : List Nat → α}
    (filled : data.size = volume shape)
    (contents : ∀ coords, InRange shape coords → data[offset shape coords]? = some (content coords))
    {x : α}
    (mem : x ∈ data) : ∃ coords, InRange shape coords ∧ content coords = x := by
  obtain ⟨place, below, rfl⟩ := Array.mem_iff_getElem.1 mem
  obtain ⟨coords, inside, rfl⟩ := exists_offset_eq (filled ▸ below)
  have found := contents coords inside
  rw [Array.getElem?_eq_getElem below] at found
  exact ⟨coords, inside, (Option.some.inj found).symm⟩

/-- A tensor that is made coordinate by coordinate holds what was given for them. -/
theorem elem?_tabulate {name : String} {indices : List String} {shape : List Nat}
    {named : indices.length = shape.length} {content : (c : List Nat) → InRange shape c → α}
    {coords : List Nat}
    (inside : InRange shape coords) :
    (tabulate name indices shape named content).elem? coords = some (content coords inside) := by
  have listed : (coordinates shape).attach[offset shape coords]? =
      some ⟨coords, mem_coordinates.2 inside⟩ := by
    simp [getElem?_coordinates inside]
  have image : InRange (tabulate name indices shape named content).shape coords := inside
  rw [← getElem?_data_eq_elem? image]
  change ((coordinates shape).attach.map _).toArray[offset shape coords]? = _
  rw [List.getElem?_toArray, List.getElem?_map, listed, Option.map_some]

theorem elem?_map {β : Type} (f : α → β) (t : Tensor α) (coords : List Nat) :
    (t.map f).elem? coords = (t.elem? coords).map f := by
  by_cases inside : InRange t.shape coords
  · have image : InRange (t.map f).shape coords := inside
    rw [elem?_eq_some inside, elem?_eq_some image, Option.map_some]
    exact congrArg some (elem_map f t coords inside)
  · have outside : ¬ InRange (t.map f).shape coords := inside
    rw [elem?, elem?, dif_neg inside, dif_neg outside, Option.map_none]

theorem entry_map {β : Type} [Zero α] [Zero β] (f : α → β) {t : Tensor α} {coords : List Nat}
    (inside : InRange t.shape coords) : (t.map f).entry coords = f (t.entry coords) := by
  rw [entry, entry, elem?_map, elem?_eq_some inside, Option.map_some, Option.getD_some,
    Option.getD_some]

theorem mem_data_of_elem? {t : Tensor α} {coords : List Nat} {x : α}
    (found : t.elem? coords = some x) : x ∈ t.data := by
  rw [elem?] at found
  split at found
  case isTrue inside =>
    rw [← Option.some.inj found, elem]
    exact Array.getElem_mem _
  case isFalse => cases found

theorem entry_zipWith [Zero α] (f : α → α → α) {s t : Tensor α} (shapes : s.shape = t.shape)
    {coords : List Nat} (inside : InRange s.shape coords) :
    (s.zipWith f t shapes).entry coords = f (s.entry coords) (t.entry coords) := by
  have right := getElem?_data_eq_entry (shapes ▸ inside : InRange t.shape coords)
  rw [← shapes] at right
  refine entry_of_getElem?_data inside ?_
  change (Array.zipWith f s.data t.data)[offset s.shape coords]? = _
  rw [Array.getElem?_zipWith, getElem?_data_eq_entry inside, right]

theorem add_pair [Add α] {s t : Tensor α} (shapes : s.shape = t.shape) :
    add [.ok s, .ok t] = .ok (s.zipWith (· + ·) t shapes) := by
  have checked : checkShapes "add" s 1 [.ok t] = .ok [t] := by
    rw [checkShapes, ok_bind, if_pos shapes.symm]
    rfl
  rw [add, combineAll, ok_bind, checked, ok_bind, List.foldl_cons, List.foldl_nil, dif_pos shapes]
  rfl

theorem map_toNat_map_ofNat (sizes : List Nat) : (sizes.map Int.ofNat).map Int.toNat = sizes := by
  rw [List.map_map]
  exact List.map_id sizes

theorem checkDimensions_map_ofNat (sizes : List Nat) :
    checkDimensions (sizes.map Int.ofNat) = .ok () := by
  rw [checkDimensions, if_neg]
  simp

/-- Parts that fit together make a tensor of natural sizes. -/
theorem make_eq (name : String) {indices : List String} {sizes : List Nat} {data : Array α}
    (named : indices.length = sizes.length) (filled : data.size = volume sizes) :
    make name indices (sizes.map Int.ofNat) (.ok data) =
      .ok ⟨name, indices, sizes, data, named, filled⟩ := by
  rw [make, checkDimensions_map_ofNat, ok_bind]
  simp only [map_toNat_map_ofNat, named, filled, dif_pos, ok_bind, pure_eq_ok]

theorem names_of_make {name : String} {indices : List String} {shape : List Int}
    {data : Pending (Array α)} {t : Tensor α} (made : make name indices shape data = .ok t) :
    t.name = name ∧ t.indices = indices := by
  obtain ⟨-, -, made⟩ := bind_eq_ok_iff.1 made
  dsimp only at made
  split at made
  · obtain ⟨data, -, made⟩ := bind_eq_ok_iff.1 made
    split at made
    · cases made
      exact ⟨rfl, rfl⟩
    · cases made
  · cases made

end TensorCalculus.Tensor
