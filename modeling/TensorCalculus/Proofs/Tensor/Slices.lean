import TensorCalculus.Proofs.Tensor.Axes
import TensorCalculus.Proofs.Tensor.Entries

/-!
# Slices

To fix the place on one axis is to insert it into the coordinates: a slice has the elements of the
tensor at the coordinates with that place between them, whatever axes stand before and behind. This
says all there is to say of a slice, so two axes can be fixed in either order, the later one being
counted anew once the earlier one is gone. -/

namespace TensorCalculus

open TensorCalculus.Layout TensorCalculus.Outcome

namespace Tensor

variable {α : Type} {t r s u v : Tensor α} {a b i j : Nat}

/-- Whether a tensor has an axis of the given number, and the given place on it. -/
def HasPlace (t : Tensor α) (a i : Nat) : Prop :=
  ∃ size, t.shape[a]? = some size ∧ i < size

/-- A tensor without one axis, on which the place is fixed. -/
structure SliceOf (t : Tensor α) (a i : Nat) (result : Tensor α) : Prop where
  name_eq : result.name = t.name
  indices_eq : result.indices = t.indices.eraseIdx a
  shape_eq : result.shape = t.shape.eraseIdx a
  elem?_eq : ∀ coords, InRange result.shape coords →
    ∃ x, result.elem? coords = some x ∧ t.elem? (coords.insertIdx a i) = some x

theorem sliceOf_sliceAt (inside : a < t.shape.length) (within : i < t.shape[a]) :
    t.SliceOf a i (t.sliceAt a i inside within) where
  name_eq := rfl
  indices_eq := rfl
  shape_eq := rfl
  elem?_eq _ here := ⟨_, elem?_tabulate here, elem?_eq_some (inRange_insertIdx inside within here)⟩

theorem slice_eq (inside : a < t.shape.length) (within : i < t.shape[a])
    (addressable : Addressable t.shape) :
    t.slice (.int a) (.int i) = .ok (t.sliceAt a i inside within) := by
  have named : (0 : Int) ≤ a ∧ (a : Int) < t.rank := ⟨Int.natCast_nonneg a, Int.ofNat_lt.2 inside⟩
  have counted : (0 : Int) ≤ i := Int.natCast_nonneg i
  have below : (i : Int) < (t.shape[a] : Nat) := Int.ofNat_lt.2 within
  have laid : t.checkLayout = .ok () := checkLayout_eq_ok_iff.2 addressable
  rw [slice, isWithin_int, ok_bind, if_pos (decide_eq_true named)]
  simp only [Literal.stands_int_eq, Relation.holds, axisNumber, checkWholeAxis, Literal.toInt,
    ok_bind, Int.toNat_natCast, inside, within, counted, below, decide_true, if_true, dif_pos, laid,
    pure_eq_ok]

/-- A place that a tensor has can be fixed. -/
theorem HasPlace.exists_slice (place : t.HasPlace a i) (addressable : Addressable t.shape) :
    ∃ result, t.slice (.int a) (.int i) = .ok result ∧ t.SliceOf a i result := by
  obtain ⟨size, here, below⟩ := place
  obtain ⟨inside, rfl⟩ := List.getElem?_eq_some_iff.1 here
  exact ⟨_, slice_eq inside below addressable, sliceOf_sliceAt inside below⟩

section Order

theorem eraseIdx_eraseIdx {β : Type} {xs : List β} (before : a ≤ b) :
    (xs.eraseIdx (b + 1)).eraseIdx a = (xs.eraseIdx a).eraseIdx b := by
  induction xs generalizing a b with
  | nil => rfl
  | cons x xs ih =>
    cases a with
    | zero => rfl
    | succ a =>
      cases b with
      | zero => cases before
      | succ b =>
        simp only [List.eraseIdx_cons_succ]
        rw [ih (Nat.le_of_succ_le_succ before)]

theorem HasPlace.of_slice_later (place : t.HasPlace a i) (later : t.SliceOf b j s)
    (before : a < b) : s.HasPlace a i := by
  obtain ⟨size, here, below⟩ := place
  refine ⟨size, ?_, below⟩
  rw [later.shape_eq, List.getElem?_eraseIdx_of_lt before, here]

theorem HasPlace.of_slice_earlier (place : t.HasPlace (b + 1) j) (earlier : t.SliceOf a i r)
    (before : a ≤ b) : r.HasPlace b j := by
  obtain ⟨size, here, below⟩ := place
  refine ⟨size, ?_, below⟩
  rw [earlier.shape_eq, List.getElem?_eraseIdx_of_ge before, here]

theorem SliceOf.addressable (slice : t.SliceOf a i r) (addressable : Addressable t.shape) :
    Addressable r.shape := by
  rw [slice.shape_eq]
  exact addressable.sublist (List.eraseIdx_sublist _ _)

/-- The elements of a slice of a slice are found by inserting both places, the one that was fixed
last first. -/
theorem SliceOf.elem?_slice (first : t.SliceOf a i r) (second : r.SliceOf b j u) {coords : List Nat}
    (inside : InRange u.shape coords) :
    ∃ x, u.elem? coords = some x ∧ t.elem? ((coords.insertIdx b j).insertIdx a i) = some x := by
  obtain ⟨x, here, found⟩ := second.elem?_eq coords inside
  obtain ⟨y, there, element⟩ := first.elem?_eq _ (inRange_of_elem?_eq_some found)
  rw [found] at there
  cases there
  exact ⟨x, here, element⟩

/-- Two places that are fixed in either order leave the same. -/
theorem SliceOf.comm (before : a ≤ b) (first : t.SliceOf a i r) (firstThen : r.SliceOf b j u)
    (second : t.SliceOf (b + 1) j s) (secondThen : s.SliceOf a i v) (place : t.HasPlace (b + 1) j) :
    u = v := by
  have alike : u.Alike v :=
    { name_eq := by rw [firstThen.name_eq, first.name_eq, secondThen.name_eq, second.name_eq]
      indices_eq := by
        rw [firstThen.indices_eq, first.indices_eq, secondThen.indices_eq, second.indices_eq,
          eraseIdx_eraseIdx before]
      shape_eq := by
        rw [firstThen.shape_eq, first.shape_eq, secondThen.shape_eq, second.shape_eq,
          eraseIdx_eraseIdx before] }
  apply alike.eq_of_elem?
  intro coords inside
  obtain ⟨x, here, found⟩ := first.elem?_slice firstThen inside
  obtain ⟨y, there, found'⟩ := second.elem?_slice secondThen (alike.shape_eq ▸ inside)
  have long : b ≤ coords.length := by
    obtain ⟨size, last, -⟩ := place
    obtain ⟨bound, -⟩ := List.getElem?_eq_some_iff.1 last
    rw [inside.length_eq, firstThen.shape_eq, first.shape_eq]
    simp only [List.length_eraseIdx]
    split_ifs <;> omega
  rw [List.insertIdx_comm i j before long, found] at found'
  rw [here, there, found']

end Order

/-- Two places on different axes can be fixed one after the other, in either order, with the same
result. -/
theorem exists_slice_slice (before : a < b) (place : t.HasPlace a i) (place' : t.HasPlace b j)
    (addressable : Addressable t.shape) :
    ∃ first second both, t.slice (.int a) (.int i) = .ok first ∧
      t.slice (.int b) (.int j) = .ok second ∧
      first.slice (.int (b - 1)) (.int j) = .ok both ∧
      second.slice (.int a) (.int i) = .ok both := by
  obtain ⟨b, rfl⟩ := Nat.exists_eq_add_one_of_ne_zero (Nat.ne_zero_of_lt before)
  have below : a ≤ b := Nat.le_of_lt_succ before
  obtain ⟨first, sliced, left⟩ := place.exists_slice addressable
  obtain ⟨second, sliced', right⟩ := place'.exists_slice addressable
  obtain ⟨both, again, leftThen⟩ :=
    (place'.of_slice_earlier left below).exists_slice (left.addressable addressable)
  obtain ⟨both', again', rightThen⟩ :=
    (place.of_slice_later right before).exists_slice (right.addressable addressable)
  obtain rfl := left.comm below leftThen right rightThen place'
  refine ⟨first, second, both, sliced, sliced', ?_, again'⟩
  rwa [Nat.cast_succ, add_sub_cancel_right]

end Tensor

end TensorCalculus
