import TensorCalculus.Proofs.Plan.Places

/-!
# Outputs that repeat a symbol

Operands move along their diagonals where they repeat a symbol, for the strides of all occurrences
add up. In the output the last occurrence alone has a stride: an assignment is carried to the place
whose coordinates are zero in front of another occurrence of the same symbol. This is the place of
its values only where the symbols that are repeated have no value but zero. -/

namespace TensorCalculus

open TensorCalculus.Layout

namespace Assignment

variable {order segment : List Char} {a : List Nat} {f : Char → Nat}

/-- The values of the symbols of a segment, zero wherever the same symbol occurs again behind. -/
def lastValues (f : Char → Nat) : List Char → List Nat
  | [] => []
  | c :: segment => (if c ∈ segment then 0 else f c) :: lastValues f segment

/-- Nothing is lost when every symbol that is repeated has the value zero. -/
theorem lastValues_eq_map_iff : lastValues f segment = segment.map f ↔
    ∀ c, 1 < segment.count c → f c = 0 := by
  induction segment with
  | nil => simp [lastValues]
  | cons s segment ih =>
    rw [lastValues, List.map_cons, List.cons.injEq, ih]
    constructor
    · rintro ⟨here, behind⟩ c repeated
      by_cases same : s = c
      · subst same
        rw [List.count_cons_self] at repeated
        rw [if_pos (List.count_pos_iff.1 (by omega))] at here
        exact here.symm
      · rw [List.count_cons_of_ne same] at repeated
        exact behind c repeated
    · intro zero
      constructor
      · split
        case isTrue again =>
          refine (zero s ?_).symm
          rw [List.count_cons_self]
          exact Nat.lt_add_of_pos_left (List.count_pos_iff.2 again)
        case isFalse => rfl
      · intro c repeated
        exact zero c (repeated.trans_le (List.count_le_count_cons ..))

theorem inRange_lastValues {extent : Char → Nat} (below : ∀ c ∈ segment, f c < extent c) :
    InRange (segment.map extent) (lastValues f segment) := by
  induction segment with
  | nil => trivial
  | cons s segment ih =>
    obtain ⟨here, behind⟩ := List.forall_mem_cons.1 below
    refine ⟨?_, ih behind⟩
    split
    case isTrue => exact Nat.zero_lt_of_lt here
    case isFalse => exact here

end Assignment

namespace Plan

open Assignment

/-- What a symbol had before does not matter where it occurs again. -/
theorem lastStride_of_mem {c : Char} {segment : List Char} (again : c ∈ segment) {steps : List Int}
    (count : steps.length = segment.length) (x y : Int) :
    lastStride c x segment steps = lastStride c y segment steps := by
  induction segment generalizing x y steps with
  | nil => cases again
  | cons s segment ih =>
    cases steps with
    | nil => cases count
    | cons d steps =>
      rw [lastStride, lastStride]
      by_cases behind : c ∈ segment
      · exact ih behind (Nat.succ.inj count) _ _
      · have here : s = c := ((List.mem_cons.1 again).resolve_right behind).symm
        rw [if_pos here, if_pos here]

theorem lastStride_cons {c s : Char} {segment : List Char} {steps : List Int}
    (count : steps.length = segment.length) (d : Int) :
    lastStride c 0 (s :: segment) (d :: steps) =
      (if s = c then if s ∈ segment then 0 else d else 0) + lastStride c 0 segment steps := by
  rw [lastStride]
  by_cases same : s = c
  · subst same
    rw [if_pos rfl, if_pos rfl]
    split
    case isTrue again => rw [lastStride_of_mem again count d 0, Int.zero_add]
    case isFalse alone => rw [lastStride_of_notMem alone, lastStride_of_notMem alone, Int.add_zero]
  · rw [if_neg same, if_neg same, Int.zero_add]

/-- The last strides of a segment lead to the row-major place of the values at the last
occurrences. -/
theorem travel_lastStride {order : List Char} {a : List Nat} (distinct : order.Nodup)
    (count : a.length = order.length) {segment : List Char} (known : ∀ c ∈ segment, c ∈ order)
    (size : Char → Int) :
    travel order a (fun c => lastStride c 0 segment (strides (segment.map size))) =
      offset (segment.map size) ((lastValues (value order a) segment).map Int.ofNat) := by
  induction segment with
  | nil => exact travel_eq_zero fun _ _ => rfl
  | cons s segment ih =>
    have lengths : (strides (segment.map size)).length = segment.length := by
      rw [length_strides, List.length_map]
    simp only [List.map_cons, strides, lastStride_cons lengths, lastValues, offset]
    rw [travel_add, travel_single distinct count (known s List.mem_cons_self),
      ih fun c hc => known c (List.mem_cons_of_mem s hc)]
    congr 1
    split
    case isTrue => exact (Int.mul_zero _).trans (Int.zero_mul _).symm
    case isFalse => rfl

variable {p : Plan}

/-- Every symbol can take its greatest value at once, unless there is no assignment. -/
theorem exists_greatest (nonempty : p.assignments ≠ []) :
    ∃ a ∈ p.assignments, ∀ c ∈ p.order, p.valueOf a c + 1 = p.extent c := by
  obtain ⟨b, hb⟩ := List.exists_mem_of_ne_nil _ nonempty
  have positive (c : Char) (hc : c ∈ p.order) : 0 < p.extent c :=
    Nat.zero_lt_of_lt (value_lt (mem_assignments.1 hb) hc)
  refine ⟨p.order.map fun c => p.extent c - 1, mem_assignments.2 ?_, fun c hc => ?_⟩
  · exact (inRange_map_iff rfl).2 fun c hc => Nat.sub_one_lt (positive c hc).ne'
  · rw [valueOf, value_map _ hc, Nat.sub_add_cancel (positive c hc)]

namespace Sound

variable (sound : p.Sound)
include sound

/-- Each assignment is carried to the place of its values at the last occurrences of the output
symbols. -/
theorem output_visits :
    p.visits.map (·.output) = p.assignments.map fun a =>
      ((offset (p.subscripts.output.map p.extent) (lastValues (p.valueOf a) p.subscripts.output) :
        Nat) : Int) := by
  rw [sound.visits_eq_travel, List.map_map]
  apply List.map_congr_left
  intro a ha
  have count : a.length = p.order.length := by simpa using (mem_assignments.1 ha).length_eq
  refine (travel_lastStride nodup_order count sound.mem_order_of_mem_output p.sizeOf).trans ?_
  rw [sound.map_sizeOf sound.mem_order_of_mem_output, offset_cast]
  rfl

theorem flatOffset_outputShape {coords : List Nat}
    (inside : InRange (p.subscripts.output.map p.extent) coords) :
    flatOffset p.outputShape (coords.map Int.ofNat) =
      .ok ((offset (p.subscripts.output.map p.extent) coords : Nat) : Int) := by
  rw [sound.outputShape_eq]
  exact flatOffset_cast inside

theorem inRange_lastValues_output {a : List Nat} (ha : a ∈ p.assignments) :
    InRange (p.subscripts.output.map p.extent) (lastValues (p.valueOf a) p.subscripts.output) :=
  inRange_lastValues fun c hc =>
    value_lt (mem_assignments.1 ha) (sound.mem_order_of_mem_output c hc)

/-- The places are those of the values when every symbol that the output repeats has one value only,
and otherwise when there is no assignment at all. -/
theorem output_visits_eq_iff :
    (p.visits.map fun o => Except.ok (ε := Fault) o.output) =
        (p.assignments.map fun a =>
          flatOffset p.outputShape ((p.coordsOf a p.subscripts.output).map Int.ofNat)) ↔
      p.visits = [] ∨ ∀ c, 1 < p.subscripts.output.count c → p.sizeOf c = 1 := by
  have known := sound.mem_order_of_mem_output
  have empty : p.visits = [] ↔ p.assignments = [] := by
    rw [sound.visits_eq_travel, List.map_eq_nil_iff]
  have places := congrArg (List.map (Except.ok (ε := Fault))) sound.output_visits
  rw [List.map_map, List.map_map] at places
  have arrives (a : List Nat) (ha : a ∈ p.assignments) :
      Except.ok (ε := Fault)
          ((offset (p.subscripts.output.map p.extent)
            (lastValues (p.valueOf a) p.subscripts.output) : Nat) : Int) =
        flatOffset p.outputShape ((p.coordsOf a p.subscripts.output).map Int.ofNat) ↔
      ∀ c, 1 < p.subscripts.output.count c → p.valueOf a c = 0 := by
    have named := inRange_coordsOf ha known
    rw [sound.flatOffset_outputShape named, Except.ok.injEq, Int.ofNat_inj, ← lastValues_eq_map_iff]
    constructor
    · exact offset_injective (sound.inRange_lastValues_output ha) named
    · exact congrArg _
  rw [empty]
  refine Iff.trans (Eq.congr places rfl) (Iff.trans List.map_inj_left ?_)
  constructor
  · intro same
    by_cases empty : p.assignments = []
    · exact .inl empty
    · refine .inr fun c repeated => ?_
      have hc : c ∈ p.order := known c (List.count_pos_iff.1 (Nat.zero_lt_of_lt repeated))
      obtain ⟨a, ha, greatest⟩ := exists_greatest empty
      have zero := (arrives a ha).1 (same a ha) c repeated
      have one := greatest c hc
      rw [sound.sizeOf_eq_extent c hc, ← one, zero]
      rfl
  · rintro (empty | single) a ha
    · rw [empty] at ha
      cases ha
    · refine (arrives a ha).2 fun c repeated => ?_
      have hc : c ∈ p.order := known c (List.count_pos_iff.1 (Nat.zero_lt_of_lt repeated))
      have below := value_lt (mem_assignments.1 ha) hc
      rw [extent, single c repeated] at below
      exact Nat.lt_one_iff.1 below

end Sound

/-- Assignments are carried to the output place of their values at the last occurrences of the
output symbols. These are the places of all their values, which an output without repetition always
names, exactly when every symbol that is repeated has one value only, or nothing is visited. -/
theorem outputs_follow_last_occurrences {s : Subscripts} {shapes : List (List Nat)}
    {policy : RepetitionPolicy}
    (accepted : resolve s (shapes.map (·.map Int.ofNat)) policy = .ok p) :
    (p.visits.map fun o => Except.ok (ε := Fault) o.output) =
        (p.assignments.map fun a =>
          flatOffset p.outputShape ((lastValues (p.valueOf a) s.output).map Int.ofNat)) ∧
      ((p.visits.map fun o => Except.ok (ε := Fault) o.output) =
          (p.assignments.map fun a =>
            flatOffset p.outputShape ((p.coordsOf a s.output).map Int.ofNat)) ↔
        p.visits = [] ∨ ∀ c, 1 < s.output.count c → p.sizeOf c = 1) := by
  have sound := sound_of_resolve accepted
  obtain ⟨rfl, -, -⟩ := fits_of_resolve accepted
  refine ⟨?_, sound.output_visits_eq_iff⟩
  have places := congrArg (List.map (Except.ok (ε := Fault))) sound.output_visits
  rw [List.map_map, List.map_map] at places
  refine places.trans (List.map_congr_left fun a ha => ?_)
  exact (sound.flatOffset_outputShape (sound.inRange_lastValues_output ha)).symm

/-- A matrix written with its rows twice, first and last. -/
def rowsTwice : Plan where
  subscripts := { inputs := [['i', 'j']], output := ['i', 'j', 'i'] }
  operandShapes := [[2, 2]]
  symbolSizes := [('i', 2), ('j', 2)]

/-- The first of the two axes for the rows stays at zero. -/
theorem outputs_follow_last_occurrences_rowsTwice :
    resolve rowsTwice.subscripts [[2, 2]] .diagonal = .ok rowsTwice ∧
      (rowsTwice.visits.map fun o => Except.ok (ε := Fault) o.output) =
        [.ok 0, .ok 2, .ok 1, .ok 3] ∧
      (rowsTwice.visits.map fun o => Except.ok (ε := Fault) o.output) ≠
        rowsTwice.assignments.map fun a =>
          flatOffset rowsTwice.outputShape
            ((rowsTwice.coordsOf a ['i', 'j', 'i']).map Int.ofNat) := by
  have accepted : resolve rowsTwice.subscripts ([[2, 2]].map (·.map Int.ofNat)) .diagonal =
    .ok rowsTwice := rfl
  obtain ⟨places, values⟩ := outputs_follow_last_occurrences accepted
  refine ⟨accepted, places.trans rfl, fun same => ?_⟩
  rcases values.1 same with nothing | single
  · cases nothing
  · exact absurd (single 'i' (by decide)) (by decide)

/-- A vector that is written on both axes of a square does not get to the diagonal of it. -/
theorem diagonal_missed :
    ∃ p, resolve { inputs := [['i']], output := ['i', 'i'] } [[2]] .diagonal = .ok p ∧
      p.visits.map (·.output) = [0, 1] ∧
      (p.assignments.map fun a =>
        flatOffset p.outputShape ((p.coordsOf a ['i', 'i']).map Int.ofNat)) = [.ok 0, .ok 3] :=
  ⟨⟨{ inputs := [['i']], output := ['i', 'i'] }, [[2]], [('i', 2)]⟩, rfl, rfl, rfl⟩

end Plan

end TensorCalculus
