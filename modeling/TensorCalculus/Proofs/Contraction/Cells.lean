import TensorCalculus.Contraction
import TensorCalculus.Proofs.Plan.Places

/-!
# The cells of a contraction

Every output cell collects the products of exactly those assignments that agree with its
coordinates, in lexicographic order, whatever the backend does with them. All reads and writes stay
in their buffers. -/

namespace TensorCalculus

open TensorCalculus.Layout

variable {ε γ π ι : Type}

namespace Contraction

theorem readAt_natCast (buffer : Array ε) (place : Nat) {x : ε} (found : buffer[place]? = some x) :
    readAt buffer place = .ok x := by
  rw [← Int.ofNat_eq_natCast, readAt, found]

section Fold

variable {backend : Backend ε γ π} {buffers : List (Array ε)}
  {offsets : ι → Offsets} {values : ι → List ε} {cell : ι → Nat}

theorem visit_eq {out : Array γ} {o : Offsets} {xs : List ε} {k : Nat}
    (reads : gather buffers o.operands = .ok xs) (target : o.output = k) (bound : k < out.size) :
    visit backend buffers out o =
      .ok (out.modify k fun c => backend.accumulate c (backend.combine xs)) := by
  have here : 0 ≤ (k : Int) ∧ k < out.size := ⟨Int.natCast_nonneg k, bound⟩
  simp only [visit, reads, target, Int.toNat_natCast, if_pos here]

/-- A visit that succeeds reads its elements and modifies one cell. -/
theorem exists_of_visit {out next : Array γ}
    {o : Offsets} (visited : visit backend buffers out o = .ok next) :
    ∃ (xs : List ε) (k : Nat), gather buffers o.operands = .ok xs ∧ o.output = k ∧ k < out.size ∧
      next = out.modify k fun c => backend.accumulate c (backend.combine xs) := by
  unfold visit at visited
  split at visited
  case h_1 => cases visited
  case h_2 xs read =>
    split at visited
    case isFalse => cases visited
    case isTrue inside =>
      cases visited
      exact ⟨xs, o.output.toNat, read, (Int.toNat_of_nonneg inside.1).symm, inside.2, rfl⟩

/-- A run over visits that stay in their buffers modifies one cell for each of them. -/
theorem foldlM_visit_eq (visits : List ι) (out : Array γ)
    (reads : ∀ i ∈ visits, gather buffers (offsets i).operands = .ok (values i))
    (targets : ∀ i ∈ visits, (offsets i).output = cell i)
    (bounds : ∀ i ∈ visits, cell i < out.size) :
    (visits.map offsets).foldlM (visit backend buffers) out =
      .ok (visits.foldl (fun out i =>
        out.modify (cell i) fun c => backend.accumulate c (backend.combine (values i))) out) := by
  induction visits generalizing out with
  | nil => rfl
  | cons i visits ih =>
    have step : visit backend buffers out (offsets i) = _ :=
      visit_eq (reads i List.mem_cons_self) (targets i List.mem_cons_self)
        (bounds i List.mem_cons_self)
    rw [List.map_cons, List.foldlM_cons, step, Outcome.ok_bind, List.foldl_cons]
    exact ih _ (fun j hj => reads j (List.mem_cons_of_mem i hj))
      (fun j hj => targets j (List.mem_cons_of_mem i hj))
      (fun j hj => by simpa using bounds j (List.mem_cons_of_mem i hj))

/-- Reading one cell of a fold of modifications leaves the modifications of that cell. -/
theorem getElem?_foldl_modify (visits : List ι) (out : Array γ) (update : ι → γ → γ) (k : Nat) :
    (visits.foldl (fun out i => out.modify (cell i) (update i)) out)[k]? =
      out[k]?.map fun c => (visits.filter (cell · = k)).foldl (fun c i => update i c) c := by
  induction visits generalizing out with
  | nil => simp
  | cons i visits ih =>
    rw [List.foldl_cons, ih, Array.getElem?_modify, List.filter_cons]
    by_cases here : cell i = k
    · simp [here, Function.comp_def]
    · simp [here]

end Fold

/-- The element of a buffer at coordinates of its shape. -/
def elementAt? (shape : List Nat) (buffer : Array ε) (coords : List Nat) : Option ε :=
  if InRange shape coords then buffer[offset shape coords]? else none

theorem elementAt?_isSome {shape : List Nat} {buffer : Array ε} {coords : List Nat}
    (inside : InRange shape coords) (filled : buffer.size = volume shape) :
    ∃ x, elementAt? shape buffer coords = some x ∧
      buffer[offset shape coords]? = some x := by
  have bound : offset shape coords < buffer.size := filled ▸ offset_lt_volume inside
  exact ⟨buffer[offset shape coords],
    by rw [elementAt?, if_pos inside, Array.getElem?_eq_getElem bound],
    Array.getElem?_eq_getElem bound⟩

end Contraction

namespace Plan

open Contraction

variable {p : Plan}

/-- The elements that an assignment reads, one of each operand. -/
def elements? (p : Plan) (shapes : List (List Nat)) (buffers : List (Array ε)) (a : List Nat) :
    Option (List ε) :=
  (p.subscripts.inputs.zip (shapes.zip buffers)).mapM fun (segment, shape, buffer) =>
    elementAt? shape buffer (p.coordsOf a segment)

/-- The assignments that agree with given output coordinates. -/
def agreeing (p : Plan) (o : List Nat) : List (List Nat) :=
  p.assignments.filter fun a => p.coordsOf a p.subscripts.output = o

theorem mem_agreeing {o a : List Nat} :
    a ∈ p.agreeing o ↔ InRange (p.order.map p.extent) a ∧ p.coordsOf a p.subscripts.output = o := by
  simp [agreeing, mem_assignments]

theorem pairwise_lt_agreeing (o : List Nat) : (p.agreeing o).Pairwise (· < ·) :=
  (pairwise_lt_coordinates _).filter _

/-- Buffers that fill their shapes are read in range, and what is read are the elements of the
assignment. -/
theorem gather_eq_elements {a : List Nat} (segments : List (List Char)) {buffers : List (Array ε)}
    (inside : ∀ segment ∈ segments, InRange (segment.map p.extent) (p.coordsOf a segment))
    (filled : buffers.map Array.size = segments.map fun segment => volume (segment.map p.extent)) :
    ∃ xs, gather buffers (segments.map fun segment => (p.placeOf a segment : Int)) = .ok xs ∧
      (segments.zip ((segments.map (·.map p.extent)).zip buffers)).mapM
        (fun (segment, shape, buffer) =>
        elementAt? shape buffer (p.coordsOf a segment)) = some xs := by
  induction segments generalizing buffers with
  | nil => cases buffers <;> exact ⟨[], rfl, rfl⟩
  | cons segment segments ih =>
    cases buffers with
    | nil => simp at filled
    | cons buffer buffers =>
      rw [List.map_cons, List.map_cons, List.cons.injEq] at filled
      obtain ⟨x, element, found⟩ := elementAt?_isSome (inside segment List.mem_cons_self) filled.1
      obtain ⟨xs, reads, elements⟩ :=
        ih (fun s hs => inside s (List.mem_cons_of_mem segment hs)) filled.2
      refine ⟨x :: xs, ?_, ?_⟩
      · rw [List.map_cons, gather, readAt_natCast buffer (p.placeOf a segment) found, reads]
        rfl
      · simp only [List.map_cons, List.zip_cons_cons, List.mapM_cons, elements, element]
        rfl

/-- What an assignment reads, and that it is read. -/
theorem gather_of_assignment {a : List Nat} (ha : a ∈ p.assignments) {shapes : List (List Nat)}
    (explained : shapes = p.subscripts.inputs.map (·.map p.extent)) {buffers : List (Array ε)}
    (filled : buffers.map Array.size = shapes.map volume) :
    gather buffers (p.subscripts.inputs.map fun segment => (p.placeOf a segment : Int)) =
        .ok ((p.elements? shapes buffers a).getD []) ∧
      p.elements? shapes buffers a = some ((p.elements? shapes buffers a).getD []) := by
  subst explained
  rw [List.map_map] at filled
  obtain ⟨xs, gathered, found⟩ := gather_eq_elements p.subscripts.inputs
    (fun segment hs => inRange_coordsOf ha fun c hc => mem_order_of_mem_segment hs hc) filled
  have elements : p.elements? (p.subscripts.inputs.map (·.map p.extent)) buffers a = some xs :=
    found
  rw [elements]
  exact ⟨gathered, rfl⟩

namespace Sound

variable (sound : p.Sound) (distinct : p.subscripts.output.Nodup)
include sound distinct

/-- The law of the loop, for any way of saying what each assignment reads. -/
theorem run_eq_cells (backend : Backend ε γ π) {buffers : List (Array ε)}
    {values : List Nat → List ε} (reads : ∀ a ∈ p.assignments,
      gather buffers (p.subscripts.inputs.map fun segment => (p.placeOf a segment : Int)) =
        .ok (values a)) :
    ∃ out, run backend p buffers = .ok out ∧ out.size = volume (p.subscripts.output.map p.extent) ∧
      ∀ o, InRange (p.subscripts.output.map p.extent) o →
        out[offset (p.subscripts.output.map p.extent) o]? = some ((p.agreeing o).foldl
          (fun cell a => backend.accumulate cell (backend.combine (values a))) backend.blank) := by
  have size : p.outputSize.toNat = volume (p.subscripts.output.map p.extent) := by
    rw [sound.outputSize_eq, Int.toNat_natCast]
  have writes : ∀ a ∈ p.assignments,
      InRange (p.subscripts.output.map p.extent) (p.coordsOf a p.subscripts.output) := fun a ha =>
    inRange_coordsOf ha sound.mem_order_of_mem_output
  refine ⟨p.assignments.foldl (fun out a => out.modify (p.placeOf a p.subscripts.output) fun c =>
    backend.accumulate c (backend.combine (values a))) (Array.replicate p.outputSize.toNat
      backend.blank), ?_, ?_, ?_⟩
  · rw [run_eq, sound.visits_eq distinct]
    refine foldlM_visit_eq _ _ reads (fun _ _ => rfl) fun a ha => ?_
    rw [Array.size_replicate, size]
    exact offset_lt_volume (writes a ha)
  · rw [← size]
    generalize p.assignments = assignments
    induction assignments using List.reverseRecOn with
    | nil => simp
    | append_singleton assignments a ih =>
      simp only [List.foldl_append, List.foldl_cons, List.foldl_nil,
        Array.size_modify, ih]
  · intro o ho
    have same : p.assignments.filter (fun a => p.placeOf a p.subscripts.output =
        offset (p.subscripts.output.map p.extent) o) = p.agreeing o := by
      apply List.filter_congr
      intro a ha
      rw [decide_eq_decide]
      exact ⟨offset_injective (writes a ha) ho, fun agrees => congrArg _ agrees⟩
    have bound : offset (p.subscripts.output.map p.extent) o < p.outputSize.toNat :=
      size ▸ offset_lt_volume ho
    rw [getElem?_foldl_modify, same, Array.getElem?_replicate, if_pos bound, Option.map_some]

end Sound

end Plan

namespace Contraction

/-- Whether the places of a visit lie in the buffers they belong to. -/
def InBounds (buffers : List (Array ε)) (outputSize : Nat) (o : Offsets) : Prop :=
  List.Forall₂ (fun (place : Int) (buffer : Array ε) => 0 ≤ place ∧ place < buffer.size) o.operands
    buffers ∧ 0 ≤ o.output ∧ o.output < outputSize

theorem visits_inBounds {p : Plan} (sound : p.Sound) (distinct : p.subscripts.output.Nodup)
    {buffers : List (Array ε)}
    (filled : buffers.map Array.size = p.subscripts.inputs.map fun segment =>
      volume (segment.map p.extent)) :
    ∀ o ∈ p.visits, InBounds buffers (volume (p.subscripts.output.map p.extent)) o := by
  intro o ho
  rw [sound.visits_eq distinct] at ho
  obtain ⟨a, ha, rfl⟩ := List.mem_map.1 ho
  refine ⟨?_, Int.natCast_nonneg _, ?_⟩
  · have inside :
        ∀ segment ∈ p.subscripts.inputs, p.placeOf a segment < volume (segment.map p.extent) :=
      fun segment hs =>
        offset_lt_volume (Plan.inRange_coordsOf ha fun c hc => Plan.mem_order_of_mem_segment hs hc)
    generalize p.subscripts.inputs = segments at filled inside
    induction segments generalizing buffers with
    | nil =>
      rw [List.map_nil, List.map_eq_nil_iff] at filled
      exact filled ▸ .nil
    | cons segment segments ih =>
      cases buffers with
      | nil => simp at filled
      | cons buffer buffers =>
        rw [List.map_cons, List.map_cons, List.cons.injEq] at filled
        have here := inside segment List.mem_cons_self
        exact .cons ⟨Int.natCast_nonneg _, filled.1 ▸ Int.ofNat_lt.2 here⟩
          (ih filled.2 fun s hs => inside s (List.mem_cons_of_mem segment hs))
  · exact Int.ofNat_lt.2 (offset_lt_volume (Plan.inRange_coordsOf ha sound.mem_order_of_mem_output))

/-- What a contraction computes, for every backend: the cell at given output coordinates is the
fold, from the blank cell on, of the products of the elements at exactly those assignments that
agree with the coordinates, taken in lexicographic order. Every place that is visited lies in its
buffer. -/
theorem run_cell_eq_foldl_agreeing (backend : Backend ε γ π) {s : Subscripts}
    (distinct : s.output.Nodup) {shapes : List (List Nat)} {policy : RepetitionPolicy} {p : Plan}
    (accepted : Plan.resolve s (shapes.map (·.map Int.ofNat)) policy = .ok p)
      {buffers : List (Array ε)}
    (filled : buffers.map Array.size = shapes.map volume) :
    ∃ out, run backend p buffers = .ok out ∧ (out.size : Int) = volume p.outputShape ∧
      (∀ o ∈ p.visits, InBounds buffers out.size o) ∧
      ∀ o, InRange (p.outputShape.map Int.toNat) o →
        ∃ place : Nat, flatOffset p.outputShape (o.map Int.ofNat) = .ok (place : Int) ∧
          ∃ (agreeing : List (List Nat)) (elements : List Nat → List ε),
            agreeing.Pairwise (· < ·) ∧
            (∀ a, a ∈ agreeing ↔ InRange (p.sizes.map Int.toNat) a ∧
              s.output.map (p.valueOf a) = o) ∧
            (∀ a ∈ agreeing, p.elements? shapes buffers a = some (elements a)) ∧
            out[place]? = some (agreeing.foldl
              (fun cell a => backend.accumulate cell (backend.combine (elements a)))
                backend.blank) := by
  have sound := Plan.sound_of_resolve accepted
  have explained := Plan.shapes_eq_of_resolve accepted
  obtain ⟨rfl, -, -⟩ := Plan.fits_of_resolve accepted
  have sizes : buffers.map Array.size = p.subscripts.inputs.map fun segment =>
      volume (segment.map p.extent) := by
    rw [filled, explained, List.map_map]
    rfl
  have outputs : p.outputShape.map Int.toNat = p.subscripts.output.map p.extent := by
    rw [Plan.outputShape, List.map_map]
    rfl
  have orders : p.sizes.map Int.toNat = p.order.map p.extent := by
    rw [Plan.sizes, List.map_map]
    rfl
  obtain ⟨out, ran, size, cells⟩ := sound.run_eq_cells distinct backend
    fun a ha => (Plan.gather_of_assignment ha explained filled).1
  refine ⟨out, ran, ?_, ?_, ?_⟩
  · rw [size, sound.outputShape_eq, volume_cast]
  · rw [size]
    exact visits_inBounds sound distinct sizes
  · intro o ho
    rw [outputs] at ho
    refine ⟨offset (p.subscripts.output.map p.extent) o, ?_, p.agreeing o,
      fun a => (p.elements? shapes buffers a).getD [], Plan.pairwise_lt_agreeing o, ?_, ?_,
      cells o ho⟩
    · rw [sound.outputShape_eq]
      exact flatOffset_cast ho
    · intro a
      rw [orders]
      exact Plan.mem_agreeing
    · intro a ha
      have here := Plan.mem_assignments.2 (Plan.mem_agreeing.1 ha).1
      exact (Plan.gather_of_assignment here explained filled).2

/-- The diagonal of a square times the sums of the rows of a matrix, with the output turned
around. -/
def diagonalByRows : Plan where
  subscripts := { inputs := [['i', 'i'], ['j', 'k']], output := ['k', 'i'] }
  operandShapes := [[2, 2], [3, 2]]
  symbolSizes := [('i', 2), ('j', 3), ('k', 2)]

theorem run_cell_diagonalByRows :
    diagonalByRows.subscripts.output.Nodup ∧
      Plan.resolve diagonalByRows.subscripts ([[2, 2], [3, 2]].map (·.map Int.ofNat)) .diagonal =
        .ok diagonalByRows ∧
      [#[(1 : Int), 2, 3, 4], #[5, 6, 7, 8, 9, 10]].map Array.size = [[2, 2], [3, 2]].map volume ∧
      ∃ out, run .real diagonalByRows [#[(1 : Int), 2, 3, 4], #[5, 6, 7, 8, 9, 10]] = .ok out ∧
        (out.size : Int) = volume [2, 2] := by
  have distinct : diagonalByRows.subscripts.output.Nodup := by decide
  have accepted :
    Plan.resolve diagonalByRows.subscripts ([[2, 2], [3, 2]].map (·.map Int.ofNat)) .diagonal =
    .ok diagonalByRows := rfl
  have filled : [#[(1 : Int), 2, 3, 4], #[5, 6, 7, 8, 9, 10]].map Array.size =
    [[2, 2], [3, 2]].map volume := rfl
  obtain ⟨out, ran, size, -⟩ := run_cell_eq_foldl_agreeing .real distinct accepted filled
  exact ⟨distinct, accepted, filled, out, ran, size⟩

example : run .real diagonalByRows [#[(1 : Int), 2, 3, 4], #[5, 6, 7, 8, 9, 10]] =
    .ok #[21, 84, 24, 96] := by
  rfl

end Contraction

end TensorCalculus
