import TensorCalculus.Proofs.Odometer.Readings
import TensorCalculus.Proofs.Plan.Resolution

/-!
# Where an assignment leads

An assignment gives every symbol a value. It leads to one place in each buffer: the row-major place
of the values of the symbols that the segment of that buffer names. The strides of a plan are chosen
so that the odometer arrives there, repeated symbols included, as long as the output repeats
none. -/

namespace TensorCalculus

open TensorCalculus.Layout

namespace Assignment

/-- The value of a symbol when values are listed in the order of the symbols. -/
def value : List Char → List Nat → Char → Nat
  | c :: cs, d :: ds, x => if x = c then d else value cs ds x
  | _, _, _ => 0

/-- The way covered when every symbol's step is taken as often as its value says. -/
def travel : List Char → List Nat → (Char → Int) → Int
  | c :: cs, d :: ds, step => d * step c + travel cs ds step
  | _, _, _ => 0

variable {order : List Char} {a : List Nat} {extent : Char → Nat}

theorem travel_eq_sum (step : Char → Int) :
    travel order a step = (List.zipWith (fun c d => ↑d * step c) order a).sum := by
  induction order generalizing a with
  | nil => rfl
  | cons c order ih =>
    cases a with
    | nil => rfl
    | cons d ds => rw [travel, ih, List.zipWith_cons_cons, List.sum_cons]

theorem value_lt (inside : InRange (order.map extent) a) {c : Char} (hc : c ∈ order) :
    value order a c < extent c := by
  induction order generalizing a with
  | nil => cases hc
  | cons e order ih =>
    cases a with
    | nil => exact inside.elim
    | cons d ds =>
      rw [value]
      split
      case isTrue same => exact same ▸ inside.1
      case isFalse differ => exact ih inside.2 ((List.mem_cons.1 hc).resolve_left differ)

theorem inRange_map_value (inside : InRange (order.map extent) a) {segment : List Char}
    (known : ∀ c ∈ segment, c ∈ order) :
    InRange (segment.map extent) (segment.map (value order a)) :=
  (inRange_map_iff rfl).2 fun c hc => value_lt inside (known c hc)

theorem value_map {segment : List Char} (f : Char → Nat) {c : Char} (hc : c ∈ segment) :
    value segment (segment.map f) c = f c := by
  induction segment with
  | nil => cases hc
  | cons e segment ih =>
    rw [List.map_cons, value]
    split
    case isTrue same => rw [same]
    case isFalse differ => exact ih ((List.mem_cons.1 hc).resolve_left differ)

theorem map_value (distinct : order.Nodup) (count : a.length = order.length) :
    order.map (value order a) = a := by
  induction order generalizing a with
  | nil => exact (List.length_eq_zero_iff.1 count).symm
  | cons e order ih =>
    cases a with
    | nil => simp at count
    | cons d ds =>
      obtain ⟨fresh, distinct⟩ := List.nodup_cons.1 distinct
      have rest : order.map (value (e :: order) (d :: ds)) = order.map (value order ds) := by
        apply List.map_congr_left
        intro c hc
        rw [value, if_neg]
        rintro rfl
        exact fresh hc
      rw [List.map_cons, rest, ih distinct (by simpa using count), value, if_pos rfl]

/-- The value of a symbol is the one that stands in its place. -/
theorem value_of_getElem? (distinct : order.Nodup) (count : a.length = order.length) {c : Char}
    {j n : Nat} (symbol : order[j]? = some c) (found : a[j]? = some n) : value order a c = n := by
  have listed : (order.map (value order a))[j]? = some n := by rw [map_value distinct count, found]
  rw [List.getElem?_map, symbol, Option.map_some] at listed
  exact Option.some.inj listed

theorem travel_eq_zero {step : Char → Int} (still : ∀ c ∈ order, step c = 0) :
    travel order a step = 0 := by
  induction order generalizing a with
  | nil => rfl
  | cons c order ih =>
    cases a with
    | nil => rfl
    | cons d ds =>
      rw [travel, still c List.mem_cons_self, ih fun e he => still e (List.mem_cons_of_mem c he)]
      rfl

theorem travel_add (f g : Char → Int) :
    travel order a (fun c => f c + g c) = travel order a f + travel order a g := by
  induction order generalizing a with
  | nil => rfl
  | cons c order ih =>
    cases a with
    | nil => rfl
    | cons d ds =>
      simp only [travel, ih]
      ring

/-- Where only one symbol has a step, its value alone counts. -/
theorem travel_single (distinct : order.Nodup) (count : a.length = order.length) {s : Char}
    (hs : s ∈ order) (stride : Int) :
    travel order a (fun c => if s = c then stride else 0) = value order a s * stride := by
  induction order generalizing a with
  | nil => cases hs
  | cons e order ih =>
    cases a with
    | nil => simp at count
    | cons d ds =>
      obtain ⟨fresh, distinct⟩ := List.nodup_cons.1 distinct
      rw [travel, value]
      by_cases same : s = e
      · have still : travel order ds (fun c => if s = c then stride else 0) = 0 := by
          refine travel_eq_zero fun c hc => if_neg ?_
          rintro rfl
          exact fresh (same ▸ hc)
        rw [if_pos same, if_pos same, still, Int.add_zero]
      · rw [if_neg same, if_neg same, Int.mul_zero, Int.zero_add]
        exact ih distinct (by simpa using count) ((List.mem_cons.1 hs).resolve_left same)

end Assignment

namespace Plan

open Assignment

theorem summedStride_of_notMem {c : Char} {segment : List Char} (absent : c ∉ segment)
    (steps : List Int) : summedStride c segment steps = 0 := by
  induction segment generalizing steps with
  | nil => rfl
  | cons s segment ih =>
    cases steps with
    | nil => rfl
    | cons d steps =>
      rw [List.mem_cons, not_or] at absent
      rw [summedStride, if_neg (Ne.symm absent.1), ih absent.2, Int.add_zero]

theorem lastStride_of_notMem {c : Char} {segment : List Char} (absent : c ∉ segment)
    (otherwise : Int) (steps : List Int) : lastStride c otherwise segment steps = otherwise := by
  induction segment generalizing steps with
  | nil => rfl
  | cons s segment ih =>
    cases steps with
    | nil => rfl
    | cons d steps =>
      rw [List.mem_cons, not_or] at absent
      rw [lastStride, if_neg (Ne.symm absent.1), ih absent.2]

/-- Without repetition the last occurrence is the only one. -/
theorem lastStride_eq_summedStride {segment : List Char} (distinct : segment.Nodup) (c : Char)
    (steps : List Int) : lastStride c 0 segment steps = summedStride c segment steps := by
  induction segment generalizing steps with
  | nil => rfl
  | cons s segment ih =>
    cases steps with
    | nil => rfl
    | cons d steps =>
      obtain ⟨fresh, distinct⟩ := List.nodup_cons.1 distinct
      rw [lastStride, summedStride]
      by_cases same : s = c
      · have absent : c ∉ segment := same ▸ fresh
        rw [if_pos same, lastStride_of_notMem absent, summedStride_of_notMem absent, Int.add_zero]
      · rw [if_neg same, Int.zero_add, ih distinct]

/-- The summed strides of a segment lead to the row-major place of the values of its symbols. -/
theorem travel_summedStride {order : List Char} {a : List Nat} (distinct : order.Nodup)
    (count : a.length = order.length) {segment : List Char} (known : ∀ c ∈ segment, c ∈ order)
    (size : Char → Int) :
    travel order a (fun c => summedStride c segment (strides (segment.map size))) =
      offset (segment.map size) (segment.map fun c => (value order a c : Int)) := by
  induction segment with
  | nil => exact travel_eq_zero fun _ _ => rfl
  | cons s segment ih =>
    simp only [List.map_cons, strides, summedStride, offset]
    rw [travel_add, travel_single distinct count (known s List.mem_cons_self),
      ih fun c hc => known c (List.mem_cons_of_mem s hc)]

variable (p : Plan)

/-- The size of a symbol as a natural number. -/
def extent (c : Char) : Nat :=
  (p.sizeOf c).toNat

/-- The value that an assignment, listed in the order of the symbols, gives to a symbol. -/
def valueOf (a : List Nat) : Char → Nat :=
  value p.order a

/-- The values of the symbols of a segment. -/
def coordsOf (a : List Nat) (segment : List Char) : List Nat :=
  segment.map (p.valueOf a)

/-- The place in the buffer that a segment belongs to. -/
def placeOf (a : List Nat) (segment : List Char) : Nat :=
  offset (segment.map p.extent) (p.coordsOf a segment)

/-- All assignments, in lexicographic order. -/
def assignments : List (List Nat) :=
  coordinates (p.order.map p.extent)

/-- A plan whose sizes explain the shapes of its operands, none of them being negative. -/
structure Sound : Prop where
  operandShapes_eq : p.operandShapes = p.subscripts.inputs.map (·.map p.sizeOf)
  mem_order_of_mem_output : ∀ c ∈ p.subscripts.output, c ∈ p.order
  sizeOf_eq_extent : ∀ c ∈ p.order, p.sizeOf c = p.extent c

variable {p}

theorem nodup_order : p.order.Nodup :=
  p.subscripts.nodup_symbols

theorem mem_order_of_mem_segment {segment : List Char} (hs : segment ∈ p.subscripts.inputs)
    {c : Char} (hc : c ∈ segment) : c ∈ p.order :=
  Subscripts.mem_symbols.2 ⟨segment, hs, hc⟩

theorem mem_contracted {c : Char} : c ∈ p.contracted ↔ c ∈ p.order ∧ c ∉ p.subscripts.output :=
  Subscripts.mem_contracted

theorem mem_assignments {a : List Nat} : a ∈ p.assignments ↔ InRange (p.order.map p.extent) a :=
  mem_coordinates

/-- The values of a segment are coordinates of the buffer that the segment belongs to. -/
theorem inRange_coordsOf {a : List Nat} (ha : a ∈ p.assignments) {segment : List Char}
    (known : ∀ c ∈ segment, c ∈ p.order) : InRange (segment.map p.extent) (p.coordsOf a segment) :=
  inRange_map_value (mem_assignments.1 ha) known

/-- Plans for shapes of natural numbers are sound. -/
theorem sound_of_resolve {s : Subscripts} {shapes : List (List Nat)} {policy : RepetitionPolicy}
    (accepted : resolve s (shapes.map (·.map Int.ofNat)) policy = .ok p) : p.Sound := by
  obtain ⟨rfl, given, fits⟩ := fits_of_resolve accepted
  refine ⟨given.trans fits.shapes_eq, fits.mem_symbols_of_mem_output, fun c hc => ?_⟩
  obtain ⟨segment, hs, hc⟩ := Subscripts.mem_symbols.1 hc
  have here : segment.map p.sizeOf ∈ shapes.map (·.map Int.ofNat) :=
    fits.shapes_eq ▸ List.mem_map_of_mem hs
  obtain ⟨shape, -, same⟩ := List.mem_map.1 here
  have size : p.sizeOf c ∈ shape.map Int.ofNat := same ▸ List.mem_map_of_mem hc
  obtain ⟨n, -, size⟩ := List.mem_map.1 size
  rw [extent, ← size]
  rfl

/-- The sizes of an accepted plan explain shapes of natural numbers. -/
theorem shapes_eq_of_resolve {s : Subscripts} {shapes : List (List Nat)} {policy : RepetitionPolicy}
    (accepted : resolve s (shapes.map (·.map Int.ofNat)) policy = .ok p) :
    shapes = s.inputs.map (·.map p.extent) := by
  obtain ⟨-, -, fits⟩ := fits_of_resolve accepted
  have back := congrArg (List.map (List.map Int.toNat)) fits.shapes_eq
  simp only [List.map_map, Function.comp_def, Int.ofNat_eq_natCast, Int.toNat_natCast,
    List.map_id_fun', id_eq] at back
  exact back

namespace Sound

variable (sound : p.Sound)
include sound

theorem map_sizeOf {segment : List Char} (known : ∀ c ∈ segment, c ∈ p.order) :
    segment.map p.sizeOf = (segment.map p.extent).map Int.ofNat := by
  rw [List.map_map]
  exact List.map_congr_left fun c hc => sound.sizeOf_eq_extent c (known c hc)

theorem outputShape_eq : p.outputShape = (p.subscripts.output.map p.extent).map Int.ofNat :=
  sound.map_sizeOf sound.mem_order_of_mem_output

theorem outputSize_eq : p.outputSize = (volume (p.subscripts.output.map p.extent) : Nat) := by
  rw [outputSize, sound.outputShape_eq, volume_cast]

theorem stepsOf_eq (c : Char) :
    p.stepsOf c = p.subscripts.inputs.map fun segment =>
      summedStride c segment (strides (segment.map p.sizeOf)) := by
  rw [stepsOf, sound.operandShapes_eq, List.zipWith_map_right, List.zipWith_self]

/-- The odometer arrives at the offsets of the values of each segment. -/
theorem reading_wheels (symbols : List Char) (a : List Nat) (starts : List Char → Int) (out : Int) :
    Offsets.reading ⟨p.subscripts.inputs.map starts, out⟩ (symbols.map p.wheelOf) a =
      ⟨p.subscripts.inputs.map fun segment =>
          starts segment + travel symbols a fun c =>
            summedStride c segment (strides (segment.map p.sizeOf)),
        out + travel symbols a p.outputStrideOf⟩ := by
  simp only [travel_eq_sum]
  exact Offsets.reading_map p.subscripts.inputs sound.stepsOf_eq symbols a starts out

theorem travel_segment {a : List Nat} (count : a.length = p.order.length) {segment : List Char}
    (known : ∀ c ∈ segment, c ∈ p.order) :
    travel p.order a (fun c => summedStride c segment (strides (segment.map p.sizeOf))) =
      p.placeOf a segment := by
  rw [travel_summedStride nodup_order count known, sound.map_sizeOf known, placeOf, ← offset_cast,
    coordsOf, List.map_map (l := segment) (f := p.valueOf a)]
  rfl

/-- Each assignment is visited once, in lexicographic order, at the places of its values in the
operands. In the output it is visited wherever the strides lead. -/
theorem visits_eq_travel :
    p.visits = p.assignments.map fun a =>
      ⟨p.subscripts.inputs.map fun segment => (p.placeOf a segment : Int),
        travel p.order a p.outputStrideOf⟩ := by
  have operands : p.operandShapes.length = p.subscripts.inputs.length := by
    rw [sound.operandShapes_eq, List.length_map]
  have origin :
      Offsets.origin p.operandShapes.length = ⟨p.subscripts.inputs.map fun _ => 0, 0⟩ := by
    rw [Offsets.origin, operands, List.map_const']
  have covers : ∀ w ∈ p.wheels, Offsets.Covers w (.origin p.operandShapes.length) := by
    intro w hw
    obtain ⟨c, -, rfl⟩ := List.mem_map.1 hw
    simp [Offsets.Covers, Offsets.origin, wheelOf, sound.stepsOf_eq, operands]
  have sized : ∀ w ∈ p.wheels, 0 ≤ w.size := by
    intro w hw
    obtain ⟨c, hc, rfl⟩ := List.mem_map.1 hw
    rw [wheelOf, sound.sizeOf_eq_extent c hc]
    exact Int.natCast_nonneg _
  have sizes : Odometer.sizes p.wheels = p.order.map p.extent := by
    rw [Odometer.sizes, wheels, List.map_map]
    rfl
  rw [visits, Odometer.visits_eq sized covers, sizes, origin, assignments]
  apply List.map_congr_left
  intro a ha
  have count : a.length = p.order.length := by simpa using (mem_coordinates.1 ha).length_eq
  rw [wheels, sound.reading_wheels, Int.zero_add]
  congr 1
  apply List.map_congr_left
  intro segment hs
  rw [Int.zero_add, sound.travel_segment count fun c hc => mem_order_of_mem_segment hs hc]

/-- Without repetition in the output, the strides lead to the place of the values there too. -/
theorem visits_eq (distinct : p.subscripts.output.Nodup) :
    p.visits = p.assignments.map fun a =>
      ⟨p.subscripts.inputs.map fun segment => (p.placeOf a segment : Int),
        p.placeOf a p.subscripts.output⟩ := by
  rw [sound.visits_eq_travel]
  apply List.map_congr_left
  intro a ha
  have count : a.length = p.order.length := by simpa using (mem_assignments.1 ha).length_eq
  rw [← sound.travel_segment count sound.mem_order_of_mem_output]
  congr 2
  exact funext fun c => lastStride_eq_summedStride distinct c _

end Sound

end Plan

end TensorCalculus
