import TensorCalculus.Proofs.Tensor.Broadcasting
import TensorCalculus.Proofs.Tensor.Slices

/-!
# Transposition

The transposed matrix has the elements of the matrix at exchanged coordinates, under exchanged sizes
and index names, so transposing it again gives the matrix back. The contraction that writes the two
symbols of a matrix the other way round sums over nothing and moves the elements to the same
places. -/

namespace TensorCalculus

open TensorCalculus.Layout TensorCalculus.Outcome
open Factor

variable {α K τ : Type}

namespace Tensor

variable {t s u : Tensor α}

/-- A matrix whose axes are those of another one, exchanged together with the coordinates of all
elements. -/
structure FlipOf (t result : Tensor α) : Prop where
  name_eq : result.name = t.name
  indices_eq : result.indices = t.indices.reverse
  shape_eq : result.shape = t.shape.reverse
  elem?_eq :
    ∀ i j, InRange t.shape [i, j] → ∃ x, t.elem? [i, j] = some x ∧ result.elem? [j, i] = some x

theorem flipOf_of_transpose (transposed : t.transpose = .ok s) : t.FlipOf s := by
  unfold transpose at transposed
  split at transposed
  case h_1 rows columns row column shape indices =>
    obtain ⟨_, -, made⟩ := bind_eq_ok_iff.1 transposed
    cases made
    refine ⟨rfl, (congrArg List.reverse indices).symm,
      (congrArg List.reverse shape).symm, fun i j inside => ?_⟩
    exact ⟨_, elem?_eq_some inside, elem?_tabulate (inRange_pair (shape ▸ inside))⟩
  case h_2 => cases transposed

theorem exists_transpose (matrix : t.rank = 2) (addressable : Addressable t.shape) :
    ∃ s, t.transpose = .ok s := by
  obtain ⟨rows, columns, shape⟩ := List.length_eq_two.1 matrix
  obtain ⟨row, column, indices⟩ := List.length_eq_two.1 (t.length_indices.trans matrix)
  unfold transpose
  split
  case h_1 =>
    rw [checkLayout_eq_ok_iff.2 addressable]
    exact ⟨_, rfl⟩
  case h_2 others => exact absurd indices (others _ _ _ _ shape)

/-- A matrix that is flipped twice is the matrix again. -/
theorem FlipOf.eq_of_flipOf (matrix : t.rank = 2) (once : t.FlipOf s) (twice : s.FlipOf u) :
    u = t := by
  have alike : u.Alike t :=
    { name_eq := twice.name_eq.trans once.name_eq
      indices_eq := by rw [twice.indices_eq, once.indices_eq, List.reverse_reverse]
      shape_eq := by rw [twice.shape_eq, once.shape_eq, List.reverse_reverse] }
  apply alike.eq_of_elem?
  intro coords inside
  rw [alike.shape_eq] at inside
  obtain ⟨i, j, rfl⟩ := List.length_eq_two.1 (inside.length_eq.trans matrix)
  obtain ⟨x, here, moved⟩ := once.elem?_eq i j inside
  obtain ⟨y, there, back⟩ := twice.elem?_eq j i (inRange_of_elem?_eq_some moved)
  rw [back, here, ← moved, there]

theorem exists_transpose_transpose (matrix : t.rank = 2) (addressable : Addressable t.shape) :
    ∃ s, t.transpose = .ok s ∧ t.FlipOf s ∧ s.transpose = .ok t := by
  obtain ⟨s, transposed⟩ := exists_transpose matrix addressable
  have once := flipOf_of_transpose transposed
  have matrix' : s.rank = 2 := by rw [rank, once.shape_eq, List.length_reverse, ← rank, matrix]
  have addressable' : Addressable s.shape :=
    once.shape_eq ▸ addressable.perm (List.reverse_perm _).symm
  obtain ⟨u, again⟩ := exists_transpose matrix' addressable'
  obtain rfl := once.eq_of_flipOf matrix (flipOf_of_transpose again)
  exact ⟨s, transposed, once, again⟩

end Tensor

section Contraction

variable [CommSemiring K] [BulkRoutine K] {t : Tensor K} {settings : Settings τ}

/-- The contraction that writes the two symbols of a matrix the other way round. -/
theorem exists_einsum_flipped (loop : settings.strategy = .loop)
    (unlimited : settings.sizeLimit = none) {rows columns : Nat} (shape : t.shape = [rows, columns])
    (name : Option String) :
    ∃ contraction, einsum settings (.written (.text "ij->ji")) [.real t] name = .ok contraction ∧
      contraction.shape = [columns, rows] ∧
      ∀ i j, InRange [rows, columns] [i, j] → contraction.entry [j, i] = t.entry [i, j] := by
  let extent := Assignment.value ['i', 'j'] [rows, columns]
  let factors : List (Factor K) := [(['i', 'j'], t)]
  have sized : Sized factors extent := List.forall_mem_singleton.2 shape
  have asked : Asked factors ['j', 'i'] (.written (.text "ij->ji")) := ⟨_, rfl, rfl, rfl⟩
  have distinct : ['j', 'i'].Nodup := by decide
  have matched : Matched settings.repetition factors ['j', 'i'] extent :=
    { sized
      occurs_of_mem_output := fun c hc =>
        ⟨_, List.mem_cons_self, (List.Perm.swap 'i' 'j' []).mem_iff.1 hc⟩
      nodup_of_reject := fun _ => List.forall_mem_singleton.2 (List.nodup_reverse.1 distinct) }
  have affordable : Affordable settings factors ['j', 'i'] extent := by
    apply affordable_of_volume_le unlimited List.mem_cons_self
    change columns * (rows * 1) ≤ volume t.shape
    rw [shape, volume_cons, volume_cons, volume_nil, Nat.mul_one, Nat.mul_one, Nat.mul_comm]
  have kept : ∀ c, Occurs factors c → c ∈ ['j', 'i'] := by
    rintro c ⟨factor, among, here⟩
    rw [List.mem_singleton.1 among] at here
    exact (List.Perm.swap 'j' 'i' []).mem_iff.1 here
  obtain ⟨contraction, contracted, shape', entries⟩ :=
    asked.exists_einsum loop distinct matched affordable kept name
  refine ⟨contraction, contracted, shape', fun i j inside => ?_⟩
  rw [entries [j, i] (Tensor.inRange_pair inside), product_cons]
  exact mul_one (t.entry [i, j])

/-- The matrix that is written the other way round is the transposed one. -/
theorem exists_einsum_transpose (loop : settings.strategy = .loop)
    (unlimited : settings.sizeLimit = none) (matrix : t.rank = 2)
    (addressable : Addressable t.shape) (name : Option String) :
    ∃ s contraction, t.transpose = .ok s ∧
      einsum settings (.written (.text "ij->ji")) [.real t] name = .ok contraction ∧
      contraction.shape = s.shape ∧ contraction.data = s.data := by
  obtain ⟨rows, columns, shape⟩ := List.length_eq_two.1 matrix
  obtain ⟨contraction, contracted, shape', entries⟩ :=
    exists_einsum_flipped loop unlimited shape name
  obtain ⟨s, transposed, flip, -⟩ := Tensor.exists_transpose_transpose matrix addressable
  have shapes : contraction.shape = s.shape := by
    rw [shape', flip.shape_eq, shape]
    rfl
  refine ⟨s, contraction, transposed, contracted, shapes, ?_⟩
  apply Tensor.data_ext shapes
  intro coords inside
  rw [shape'] at inside
  obtain ⟨j, i, rfl⟩ := List.length_eq_two.1 inside.length_eq
  have inside' := Tensor.inRange_pair inside
  obtain ⟨x, here, moved⟩ := flip.elem?_eq i j (shape ▸ inside')
  rw [entries i j inside', Tensor.entry, Tensor.entry, here, moved]

end Contraction

/-- Slicing and transposing move elements and change none. A slice has the elements at the
coordinates with the fixed place between them, and two axes can be fixed in either order. The
transposed matrix has the elements at exchanged coordinates, goes back to the matrix, and is, in
exact arithmetic, the contraction that exchanges the symbols. -/
theorem elements_move_exactly :
    (∀ {α : Type} (t : Tensor α) (a i : Nat), t.HasPlace a i → Addressable t.shape →
      ∃ s, t.slice (.int a) (.int i) = .ok s ∧ t.SliceOf a i s) ∧
    (∀ {α : Type} (t : Tensor α) (a b i j : Nat), a < b → t.HasPlace a i → t.HasPlace b j →
      Addressable t.shape →
      ∃ first second both, t.slice (.int a) (.int i) = .ok first ∧
        t.slice (.int b) (.int j) = .ok second ∧
        first.slice (.int (b - 1)) (.int j) = .ok both ∧
        second.slice (.int a) (.int i) = .ok both) ∧
    (∀ {α : Type} (t : Tensor α), t.rank = 2 → Addressable t.shape →
      ∃ s, t.transpose = .ok s ∧ t.FlipOf s ∧ s.transpose = .ok t) ∧
    ∀ {K τ : Type} [CommSemiring K] [BulkRoutine K] (settings : Settings τ) (t : Tensor K)
      (name : Option String), settings.strategy = .loop → settings.sizeLimit = none → t.rank = 2 →
        Addressable t.shape →
      ∃ s contraction, t.transpose = .ok s ∧
        einsum settings (.written (.text "ij->ji")) [.real t] name = .ok contraction ∧
        contraction.shape = s.shape ∧ contraction.data = s.data := by
  refine ⟨fun t a i place addressable => place.exists_slice addressable, ?_,
    fun t matrix addressable => Tensor.exists_transpose_transpose matrix addressable, ?_⟩
  · intro α t a b i j before place place' addressable
    exact Tensor.exists_slice_slice before place place' addressable
  · intro K τ _ _ settings t name loop unlimited matrix addressable
    exact exists_einsum_transpose loop unlimited matrix addressable name

/-- Elements that cannot be laid out in their shape cannot be moved either. -/
theorem moves_unaddressable :
    manyAxes.HasPlace 0 0 ∧ manyAxes.slice (.int 0) (.int 0) = .error (.value (.axisLimit 65)) ∧
      endlessColumns.rank = 2 ∧ endlessColumns.transpose = .error (.value .dimensionLimit) :=
  ⟨⟨1, rfl, Nat.one_pos⟩, rfl, rfl, rfl⟩

attribute [local instance] Bulk.routine

def routes : Tensor ℚ := ⟨"routes", ["town", "harbour"], [2, 3], #[0, 1, 2, 3, 4, 5], rfl, rfl⟩

/-- The last rows of two sheets, the left column of the second sheet by two ways, and a matrix that
is not square. -/
theorem elements_move_exactly_sheets :
    sheets.HasPlace 1 2 ∧ Addressable sheets.shape ∧
      (∃ s, sheets.slice (.int 1) (.int 2) = .ok s ∧ s.indices = ["x", "z"] ∧
        s.elem? [1, 0] = some 10) ∧
      sheets.HasPlace 0 1 ∧ sheets.HasPlace 2 0 ∧
      (∃ first second both, sheets.slice (.int 0) (.int 1) = .ok first ∧
        sheets.slice (.int 2) (.int 0) = .ok second ∧
        first.slice (.int 1) (.int 0) = .ok both ∧ second.slice (.int 0) (.int 1) = .ok both) ∧
      routes.rank = 2 ∧ Addressable routes.shape ∧
      (∃ s, routes.transpose = .ok s ∧ s.elem? [2, 1] = some 5 ∧ s.transpose = .ok routes) ∧
      ∃ s contraction, routes.transpose = .ok s ∧
        einsum ({ tolerance := () } : Settings Unit) (.written (.text "ij->ji")) [.real routes]
          none = .ok contraction ∧
        contraction.data = s.data := by
  obtain ⟨slices, either, transposes, contractions⟩ := elements_move_exactly
  have last : sheets.HasPlace 1 2 := ⟨3, rfl, by decide⟩
  have second : sheets.HasPlace 0 1 := ⟨2, rfl, by decide⟩
  have left : sheets.HasPlace 2 0 := ⟨2, rfl, by decide⟩
  have addressable : Addressable sheets.shape := by decide
  have addressable' : Addressable routes.shape := by decide
  refine ⟨last, addressable, ?_, second, left,
    either sheets 0 2 1 0 (by decide) second left addressable, rfl, addressable', ?_, ?_⟩
  · obtain ⟨s, sliced, slice⟩ := slices sheets 1 2 last addressable
    obtain ⟨x, here, found⟩ := slice.elem?_eq [1, 0] (slice.shape_eq ▸ by decide)
    cases found
    exact ⟨s, sliced, slice.indices_eq, here.trans (by decide +kernel)⟩
  · obtain ⟨s, transposed, flip, back⟩ := transposes routes rfl addressable'
    obtain ⟨x, here, moved⟩ := flip.elem?_eq 1 2 (by decide)
    cases here
    exact ⟨s, transposed, moved.trans (by decide +kernel), back⟩
  · obtain ⟨s, contraction, transposed, contracted, -, same⟩ :=
      contractions { tolerance := () } routes none rfl rfl rfl addressable'
    exact ⟨s, contraction, transposed, contracted, same⟩

end TensorCalculus
