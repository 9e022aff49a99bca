import TensorCalculus.Bulk.Run
import TensorCalculus.Proofs.Contraction.Requests

/-!
# Contractions are linear

In a commutative semiring a product is linear in each of its factors, and a loop that adds products
up is linear in each of the buffers it reads. Three runs are followed side by side: with one buffer,
with another one of its size, and with a weighted sum of both. They visit the same places, so they
succeed together, and at every step the cells of the third are the weighted sums of the cells of the
others. What the strides are does not matter, nor whether the output repeats symbols. -/

namespace TensorCalculus

open TensorCalculus.Layout TensorCalculus.Outcome

variable {K τ : Type}

/-- Two buffers, each multiplied by a number of its own, added up. -/
def blendCells [Add K] [Mul K] (a b : K) (u v : Array K) : Array K :=
  Array.zipWith (fun x y => x * a + y * b) u v

theorem getElem?_blendCells [Add K] [Mul K] (a b : K) {u v : Array K} {place : Nat} {x y : K}
    (left : u[place]? = some x) (right : v[place]? = some y) :
    (blendCells a b u v)[place]? = some (x * a + y * b) := by
  rw [blendCells, Array.getElem?_zipWith, left, right]

theorem size_blendCells [Add K] [Mul K] (a b : K) {u v : Array K} (sizes : u.size = v.size) :
    (blendCells a b u v).size = u.size := by
  simp [blendCells, sizes]

theorem blendCells_modify [Add K] [Mul K] (a b : K) (u v : Array K) (place : Nat) {f g h : K → K}
    (step : ∀ x y, h (x * a + y * b) = f x * a + g y * b) :
    blendCells a b (u.modify place f) (v.modify place g) = (blendCells a b u v).modify place h := by
  apply Array.ext_getElem?
  intro i
  simp only [blendCells, Array.getElem?_zipWith, Array.getElem?_modify]
  by_cases here : place = i
  · simp only [if_pos here]
    cases u[i]? <;> cases v[i]? <;> simp [step]
  · simp only [if_neg here]

namespace Contraction

/-- Buffers of one size are read at the same places. -/
theorem readAt_blend [Add K] [Mul K] (a b : K) {u v : Array K} (sizes : u.size = v.size)
    {place : Int} {x : K} (read : readAt u place = .ok x) :
    ∃ y, readAt v place = .ok y ∧ readAt (blendCells a b u v) place = .ok (x * a + y * b) := by
  cases place with
  | negSucc i => cases read
  | ofNat i =>
    simp only [readAt] at read ⊢
    split at read
    case h_2 => cases read
    case h_1 x' left =>
      cases read
      obtain ⟨below, -⟩ := Array.getElem?_eq_some_iff.1 left
      have right : v[i]? = some v[i] := Array.getElem?_eq_getElem (sizes ▸ below)
      refine ⟨v[i], ?_, ?_⟩
      · rw [right]
      · rw [getElem?_blendCells a b left right]

/-- Where one buffer of several is exchanged, one of the elements that are read at given places
is. -/
theorem gather_blend [Add K] [Mul K] (a b : K) {u v : Array K} (sizes : u.size = v.size)
    {buffers : List (Array K)} {places : List Int} {position : Nat}
    (buffered : position < buffers.length) (placed : position < places.length)
    {values : List K} (read : gather (buffers.set position u) places = .ok values) :
    ∃ front x y back, values = front ++ x :: back ∧
      gather (buffers.set position v) places = .ok (front ++ y :: back) ∧
      gather (buffers.set position (blendCells a b u v)) places =
        .ok (front ++ (x * a + y * b) :: back) := by
  induction position generalizing buffers places values with
  | zero =>
    obtain ⟨buffer, buffers, rfl⟩ := List.exists_cons_of_length_pos buffered
    obtain ⟨place, places, rfl⟩ := List.exists_cons_of_length_pos placed
    simp only [List.set_cons_zero, gather] at read ⊢
    obtain ⟨x, left, read⟩ := bind_eq_ok_iff.1 read
    obtain ⟨back, rest, read⟩ := bind_eq_ok_iff.1 read
    obtain ⟨y, right, both⟩ := readAt_blend a b sizes left
    cases read
    refine ⟨[], x, y, back, rfl, ?_, ?_⟩
    · rw [right, rest]
      rfl
    · rw [both, rest]
      rfl
  | succ position ih =>
    obtain ⟨buffer, buffers, rfl⟩ := List.exists_cons_of_length_pos (Nat.zero_lt_of_lt buffered)
    obtain ⟨place, places, rfl⟩ := List.exists_cons_of_length_pos (Nat.zero_lt_of_lt placed)
    simp only [List.set_cons_succ, gather] at read ⊢
    obtain ⟨first, here, read⟩ := bind_eq_ok_iff.1 read
    obtain ⟨others, rest, read⟩ := bind_eq_ok_iff.1 read
    cases read
    obtain ⟨front, x, y, back, rfl, right, both⟩ :=
      ih (Nat.lt_of_succ_lt_succ buffered) (Nat.lt_of_succ_lt_succ placed) rest
    refine ⟨first :: front, x, y, back, rfl, ?_, ?_⟩
    · rw [here, right]
      rfl
    · rw [here, both]
      rfl

variable [CommSemiring K]

/-- A product is linear in each of its factors. -/
theorem combine_blend (a b x y : K) (front back : List K) :
    Backend.real.combine (front ++ (x * a + y * b) :: back) =
      Backend.real.combine (front ++ x :: back) * a + Backend.real.combine (front ++ y :: back) *
        b := by
  have product (values : List K) : Backend.real.combine values = values.prod :=
    List.prod_eq_foldl.symm
  simp only [product, List.prod_append, List.prod_cons]
  ring

section Loop

variable (a b : K) {u v : Array K} (sizes : u.size = v.size) {buffers : List (Array K)}
  {position : Nat} (buffered : position < buffers.length)
include sizes buffered

/-- A step of the loop is linear in each buffer: with one buffer of a size as with another of that
size it succeeds, and blended cells become the blended cells. -/
theorem visit_blend {o : Offsets} (placed : position < o.operands.length) {out out' next : Array K}
    (outputs : out.size = out'.size)
    (visited : visit .real (buffers.set position u) out o = .ok next) :
    ∃ next', visit .real (buffers.set position v) out' o = .ok next' ∧ next.size = next'.size ∧
      visit .real (buffers.set position (blendCells a b u v)) (blendCells a b out out') o =
        .ok (blendCells a b next next') := by
  obtain ⟨values, place, read, target, bound, rfl⟩ := exists_of_visit visited
  obtain ⟨front, x, y, back, rfl, right, both⟩ := gather_blend a b sizes buffered placed read
  have blended : place < (blendCells a b out out').size := by rwa [size_blendCells a b outputs]
  refine ⟨_, visit_eq right target (outputs ▸ bound), by simpa using outputs, ?_⟩
  rw [visit_eq both target blended]
  apply congrArg Except.ok
  symm
  apply blendCells_modify
  intro c d
  rw [combine_blend]
  simp only [Backend.real]
  ring

/-- Many steps are linear in each buffer. -/
theorem foldlM_visit_blend {visits : List Offsets}
    (placed : ∀ o ∈ visits, position < o.operands.length) {out out' result : Array K}
    (outputs : out.size = out'.size)
    (ran : visits.foldlM (visit .real (buffers.set position u)) out = .ok result) :
    ∃ result', visits.foldlM (visit .real (buffers.set position v)) out' = .ok result' ∧
      result.size = result'.size ∧
      visits.foldlM (visit .real (buffers.set position (blendCells a b u v)))
        (blendCells a b out out') = .ok (blendCells a b result result') := by
  induction visits generalizing out out' with
  | nil =>
    cases ran
    exact ⟨out', rfl, outputs, rfl⟩
  | cons o visits ih =>
    rw [List.foldlM_cons] at ran
    obtain ⟨next, visited, ran⟩ := bind_eq_ok_iff.1 ran
    obtain ⟨next', right, same, both⟩ :=
      visit_blend a b sizes buffered (placed o List.mem_cons_self) outputs visited
    obtain ⟨result', rightRest, sameRest, bothRest⟩ :=
      ih (fun o ho => placed o (List.mem_cons_of_mem _ ho)) same ran
    refine ⟨result', ?_, sameRest, ?_⟩
    · rw [List.foldlM_cons, right, ok_bind, rightRest]
    · rw [List.foldlM_cons, both, ok_bind, bothRest]

/-- The whole loop is linear in each buffer. -/
theorem run_blend {p : Plan} (placed : ∀ o ∈ p.visits, position < o.operands.length) {out : Array K}
    (ran : run .real p (buffers.set position u) = .ok out) :
    ∃ out', run .real p (buffers.set position v) = .ok out' ∧ out.size = out'.size ∧
      run .real p (buffers.set position (blendCells a b u v)) = .ok (blendCells a b out out') := by
  have blank (n : Nat) : blendCells a b (Array.replicate n (0 : K)) (Array.replicate n 0) =
      Array.replicate n 0 := by
    simp [blendCells]
  rw [run_eq] at ran
  obtain ⟨out', right, same, both⟩ := foldlM_visit_blend a b sizes buffered placed rfl ran
  refine ⟨out', (run_eq ..).trans right, same, ?_⟩
  rw [run_eq]
  simp only [Backend.real, blank] at both ⊢
  exact both

end Loop

end Contraction

namespace Tensor

/-- Two tensors of one shape, each multiplied by a number of its own, added up. -/
def blend [Add K] [Mul K] (a b : K) (s t : Tensor K) (shapes : s.shape = t.shape) : Tensor K :=
  s.withData (blendCells a b s.data t.data)
    (size_blendCells a b (by rw [s.size_data, t.size_data, shapes]))

theorem add_scale [Add K] [Mul K] (a b : K) {s t : Tensor K} (shapes : s.shape = t.shape) :
    add [.ok (s.scale a), .ok (t.scale b)] = .ok (blend a b s t shapes) := by
  have scaled : (s.scale a).shape = (t.scale b).shape := shapes
  rw [add_pair scaled]
  apply congrArg Except.ok
  apply Alike.eq_of_data
  · exact ⟨rfl, rfl, rfl⟩
  · simp only [zipWith, withData, scale, data_map, blend, blendCells, Array.zipWith_map]

end Tensor

namespace Plan

variable [CommSemiring K] [BulkRoutine K] {p : Plan} {tensors : List (Tensor K)}
  {name : Option String}

theorem runReal_loop_eq_ok_iff (sound : p.Sound) {t : Tensor K} :
    p.runReal tensors .loop name = .ok t ↔
      p.checkOutput = .ok () ∧ Contraction.run .real p (tensors.map (·.data)) = .ok t.data ∧
        t.name = resultName name ∧ t.indices = p.outputNames ∧
        t.shape = p.subscripts.output.map p.extent := by
  constructor
  · intro ran
    obtain ⟨_, checked, ran⟩ := bind_eq_ok_iff.1 ran
    obtain ⟨data, looped, made⟩ := bind_eq_ok_iff.1 ran
    have filled := Contraction.size_run looped
    rw [sound.outputSize_eq, Int.toNat_natCast] at filled
    dsimp only at made
    rw [sound.outputShape_eq, Tensor.make_eq _ p.length_outputNames filled] at made
    cases made
    exact ⟨checked, looped, rfl, rfl, rfl⟩
  · rintro ⟨checked, looped, named, indexed, shaped⟩
    have filled : t.data.size = volume (p.subscripts.output.map p.extent) := by
      rw [t.size_data, shaped]
    simp only [runReal, checked, looped, ok_bind]
    rw [sound.outputShape_eq, Tensor.make_eq _ p.length_outputNames filled]
    apply congrArg Except.ok
    apply Tensor.Alike.eq_of_data
    · exact ⟨named.symm, indexed.symm, shaped.symm⟩
    · rfl

/-- Running a plan is linear in each tensor. -/
theorem runReal_blend (a b : K) (sound : p.Sound)
    (count : p.subscripts.inputs.length = tensors.length) {position : Nat}
    (here : position < tensors.length) {s t u : Tensor K} (shapes : s.shape = t.shape)
    (ran : p.runReal (tensors.set position s) .loop name = .ok u) :
    ∃ v, p.runReal (tensors.set position t) .loop name = .ok v ∧ ∃ same : u.shape = v.shape,
      p.runReal (tensors.set position (Tensor.blend a b s t shapes)) .loop name =
        .ok (Tensor.blend a b u v same) := by
  have placed : ∀ o ∈ p.visits, position < o.operands.length := by
    intro o ho
    rw [sound.visits_eq_travel] at ho
    obtain ⟨c, -, rfl⟩ := List.mem_map.1 ho
    simpa [count] using here
  have sizes : s.data.size = t.data.size := by rw [s.size_data, t.size_data, shapes]
  have buffered : position < (tensors.map (·.data)).length := by simpa using here
  obtain ⟨checked, looped, named, indexed, shaped⟩ := (runReal_loop_eq_ok_iff sound).1 ran
  rw [List.map_set] at looped
  obtain ⟨out, right, size, both⟩ := Contraction.run_blend a b sizes buffered placed looped
  -- The second run fills a tensor that is like the first one in all but its elements.
  refine ⟨u.withData out size.symm, ?_, rfl, ?_⟩
  · rw [runReal_loop_eq_ok_iff sound, List.map_set]
    exact ⟨checked, right, named, indexed, shaped⟩
  · rw [runReal_loop_eq_ok_iff sound, List.map_set]
    exact ⟨checked, both, named, indexed, shaped⟩

end Plan

/-- A tensor that lists the sizes of another one has its shape. -/
theorem Tensor.dims_eq_of_sizes {x t : Tensor K}
    (same : (Operand.real t).sizes = .ok (x.dims.map .int)) : x.dims = t.dims :=
  List.map_injective_iff.2 (fun _ _ => Literal.int.inj) (Except.ok.inj same).symm

/-- A contraction is linear in each of its operands. When it is accepted, so is any other tensor of
its shape in the place of an operand, and what it makes of a weighted sum of two such tensors is the
weighted sum of what it makes of each of them. The output may repeat symbols, and so may the
operand. -/
theorem einsum_linear [CommSemiring K] [BulkRoutine K] {settings : Settings τ}
    (loop : settings.strategy = .loop) {wording : Wording} {operands : List (Operand K)}
    {name : Option String} {r : Tensor K}
    (accepted : einsum settings wording operands name = .ok r) {position : Nat}
    (here : position < operands.length)
    {x y : Tensor K} (left : operands[position].sizes = .ok (x.dims.map .int))
    (right : operands[position].sizes = .ok (y.dims.map .int)) (a b : K) :
    ∃ mixed u v w, Tensor.add [.ok (x.scale a), .ok (y.scale b)] = .ok mixed ∧
      einsum settings wording (operands.set position (.real x)) name = .ok u ∧
      einsum settings wording (operands.set position (.real y)) name = .ok v ∧
      einsum settings wording (operands.set position (.real mixed)) name = .ok w ∧
      Tensor.add [.ok (u.scale a), .ok (v.scale b)] = .ok w := by
  obtain ⟨tensors, reals, contracted⟩ := bind_eq_ok_iff.1 accepted
  obtain ⟨plan, planned, ran⟩ := bind_eq_ok_iff.1 contracted
  cases Factor.expectReals_eq_ok_iff.1 reals
  obtain ⟨sound, explained⟩ := sound_of_planWording planned
  have count : plan.subscripts.inputs.length = tensors.length := by
    simpa using (congrArg List.length explained).symm
  have within : position < tensors.length := by simpa using here
  rw [List.getElem_map] at left right
  replace left := Tensor.dims_eq_of_sizes left
  replace right := Tensor.dims_eq_of_sizes right
  -- Tensors of one shape are planned alike.
  have contract {t : Tensor K} (shape : t.dims = tensors[position].dims) :
      einsum settings wording ((tensors.map .real).set position (.real t)) name =
        plan.runReal (tensors.set position t) .loop name := by
    have dims : (tensors.set position t).map Tensor.dims = tensors.map Tensor.dims := by
      rw [List.map_set, shape, ← List.map_set, List.set_getElem_self]
    rw [← List.map_set, einsum, Factor.expectReals_real, ok_bind, dims, planned, ok_bind, loop]
  rw [loop, ← List.set_getElem_self within] at ran
  obtain ⟨u, ranLeft, -⟩ :=
    Plan.runReal_blend a b sound count within (Tensor.shape_eq_of_dims_eq left.symm) ran
  have shapes : x.shape = y.shape := Tensor.shape_eq_of_dims_eq (left.trans right.symm)
  obtain ⟨v, ranRight, same, both⟩ := Plan.runReal_blend a b sound count within shapes ranLeft
  refine ⟨Tensor.blend a b x y shapes, u, v, Tensor.blend a b u v same, Tensor.add_scale a b shapes,
    ?_, ?_, ?_, Tensor.add_scale a b same⟩
  · rw [contract left, ranLeft]
  · rw [contract right, ranRight]
  · have blended : (Tensor.blend a b x y shapes).dims = tensors[position].dims := left
    rw [contract blended, both]

def weights : Tensor ℤ := ⟨"weights", ["unit", "part"], [2, 2], #[1, 2, 3, 4], rfl, rfl⟩

def ones : Tensor ℤ := ⟨"ones", ["j"], [2], #[1, 1], rfl, rfl⟩

def firstUnit : Tensor ℤ := ⟨"first", ["j"], [2], #[1, 0], rfl, rfl⟩

def secondUnit : Tensor ℤ := ⟨"second", ["j"], [2], #[0, 1], rfl, rfl⟩

/-- Row sums, with an output that repeats its symbol. -/
def rowSums : Subscripts := { inputs := [['i', 'j'], ['j']], output := ['i', 'i'] }

attribute [local instance] Bulk.routine

/-- Twice the first column less the second one. -/
theorem einsum_linear_rowSums :
    ∃ r, einsum ({ tolerance := 0 } : Settings ℕ) (.understood rowSums) [.real weights,
      .real ones] none = .ok r ∧ ∃ mixed u v w,
        Tensor.add [.ok (firstUnit.scale 2), .ok (secondUnit.scale (-1))] = .ok mixed ∧
        einsum ({ tolerance := 0 } : Settings ℕ) (.understood rowSums)
          [.real weights, .real firstUnit] none = .ok u ∧
        einsum ({ tolerance := 0 } : Settings ℕ) (.understood rowSums)
          [.real weights, .real secondUnit] none = .ok v ∧
        einsum ({ tolerance := 0 } : Settings ℕ) (.understood rowSums)
          [.real weights, .real mixed] none = .ok w ∧
        Tensor.add [.ok (u.scale 2), .ok (v.scale (-1))] = .ok w := by
  have accepted :
      einsum ({ tolerance := 0 } : Settings ℕ) (.understood rowSums)
        [.real weights, .real ones] none =
      .ok ⟨"result", ["i", "i"], [2, 2], #[3, 7, 0, 0], rfl, rfl⟩ := rfl
  have here : 1 < [Operand.real weights, .real ones].length := by decide
  have left : [Operand.real weights, .real ones][1].sizes = .ok (firstUnit.dims.map .int) := rfl
  have right : [Operand.real weights, .real ones][1].sizes = .ok (secondUnit.dims.map .int) := rfl
  exact ⟨_, accepted, einsum_linear rfl accepted here left right 2 (-1)⟩

end TensorCalculus
