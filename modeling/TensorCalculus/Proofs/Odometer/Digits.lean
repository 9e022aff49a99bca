import TensorCalculus.Proofs.Odometer.Readings
import TensorCalculus.Proofs.Plan.Resolution

/-!
# The closed form of an odometer

Readings are numbered from the first one on. The digits of a reading are those of its number when
each position counts as much as all positions behind it together, and its offsets are sums of digits
times strides. What an odometer carries along from reading to reading is this closed form. -/

namespace TensorCalculus

namespace Layout

/-- The coordinate on an axis of the element with a given number. -/
def digit (shape : List Nat) (axis number : Nat) : Nat :=
  number / volume (shape.drop (axis + 1)) % shape.getD axis 0

/-- The coordinates of the element with a given number. -/
def digits (shape : List Nat) (number : Nat) : List Nat :=
  (List.range shape.length).map fun axis => digit shape axis number

theorem digits_cons (d : Nat) (ds : List Nat) (number : Nat) :
    digits (d :: ds) number = (number / volume ds % d) :: digits ds number := by
  rw [digits, List.length_cons, List.range_succ_eq_map, List.map_cons, List.map_map]
  rfl

/-- Going round a number of times changes no coordinate. -/
theorem digits_turns_add (shape : List Nat) (turns number : Nat) :
    digits shape (turns * volume shape + number) = digits shape number := by
  induction shape generalizing turns with
  | nil => rfl
  | cons d ds ih =>
    -- Behind an empty axis there is nothing to divide by, but then nothing is added either.
    have leading : (turns * (d * volume ds) + number) / volume ds % d = number / volume ds % d := by
      rcases Nat.eq_zero_or_pos (volume ds) with empty | filled
      · simp only [empty, Nat.mul_zero, Nat.zero_add]
      · rw [← Nat.mul_assoc, Nat.add_comm, Nat.add_mul_div_right _ _ filled,
          Nat.add_mul_mod_self_right]
    rw [digits_cons, digits_cons, volume_cons, leading, ← Nat.mul_assoc, ih]

theorem digits_cons_add {d c number : Nat} {ds : List Nat} (below : c < d)
    (inside : number < volume ds) :
    digits (d :: ds) (c * volume ds + number) = c :: digits ds number := by
  have filled : 0 < volume ds := Nat.zero_lt_of_lt inside
  rw [digits_cons, digits_turns_add, Nat.add_comm, Nat.add_mul_div_right _ _ filled,
    Nat.div_eq_of_lt inside, Nat.zero_add, Nat.mod_eq_of_lt below]

/-- Coordinates are the digits of their place. -/
theorem digits_offset {shape coords : List Nat} (inside : InRange shape coords) :
    digits shape (offset shape coords) = coords := by
  induction shape generalizing coords with
  | nil => exact (List.length_eq_zero_iff.1 inside.length_eq).symm
  | cons d ds ih =>
    cases coords with
    | nil => exact inside.elim
    | cons c cs => rw [offset, digits_cons_add inside.1 (offset_lt_volume inside.2), ih inside.2]

theorem range_mul (rows columns : Nat) :
    List.range (rows * columns) =
      (List.range rows).flatMap fun row => (List.range columns).map (row * columns + ·) := by
  induction rows with
  | zero => simp
  | succ rows ih =>
    rw [Nat.succ_mul, List.range_add, ih, List.range_succ, List.flatMap_append,
      List.flatMap_singleton]

/-- The coordinates are listed in the order of their numbers. -/
theorem coordinates_eq_digits (shape : List Nat) :
    coordinates shape = (List.range (volume shape)).map (digits shape) := by
  rw [coordinates_eq_coordinatesFrom]
  induction shape with
  | nil => rfl
  | cons d ds ih =>
    rw [coordinatesFrom, volume_cons, range_mul, List.map_flatMap, ih]
    apply List.flatMap_congr
    intro c hc
    rw [List.map_map, List.map_map]
    apply List.map_congr_left
    intro number hn
    exact (digits_cons_add (List.mem_range.1 hc) (List.mem_range.1 hn)).symm

theorem getElem?_coordinates {shape coords : List Nat} (inside : InRange shape coords) :
    (coordinates shape)[offset shape coords]? = some coords := by
  rw [coordinates_eq_digits, List.getElem?_map, List.getElem?_range (offset_lt_volume inside),
    Option.map_some, digits_offset inside]

end Layout

open TensorCalculus.Layout

namespace Odometer

variable (lengths : List Int) (operandStrides : List (List Int)) (outputStrides : List Int)

/-- One wheel for every position of the stride tables. -/
def ofTables : List Wheel :=
  (List.range lengths.length).map fun p =>
    { size := lengths.getD p 0, steps := operandStrides.map (·.getD p 0),
      output := outputStrides.getD p 0 }

/-- How far the digits of a number lead along strides. -/
def along (strides : List Int) (number : Nat) : Int :=
  ∑ p ∈ Finset.range lengths.length, digit (lengths.map Int.toNat) p number * strides.getD p 0

/-- The offsets of the reading with a given number. -/
def offsetsAt (number : Nat) : Offsets :=
  { operands := operandStrides.map fun strides => along lengths strides number
    output := along lengths outputStrides number }

variable {lengths operandStrides outputStrides}

theorem sum_zipWith_digits (strides : List Int) (number : Nat) :
    (List.zipWith (fun p d => ((d : Nat) : Int) * strides.getD p 0) (List.range lengths.length)
      (digits (lengths.map Int.toNat) number)).sum = along lengths strides number := by
  rw [digits, List.length_map, List.zipWith_map_right, List.zipWith_self, along]
  rfl

theorem reading_ofTables (number : Nat) :
    (Offsets.origin operandStrides.length).reading (ofTables lengths operandStrides outputStrides)
        (digits (lengths.map Int.toNat) number) =
      offsetsAt lengths operandStrides outputStrides number := by
  have origin : Offsets.origin operandStrides.length = ⟨operandStrides.map fun _ => 0, 0⟩ := by
    rw [Offsets.origin, List.map_const']
  rw [origin, ofTables, Offsets.reading_map operandStrides fun p => rfl]
  simp only [sum_zipWith_digits, Int.zero_add]
  rfl

theorem sizes_ofTables :
    sizes (ofTables lengths operandStrides outputStrides) = lengths.map Int.toNat := by
  apply List.ext_getElem (by simp [sizes, ofTables])
  intro p hp hp'
  rw [List.length_map] at hp'
  simp [sizes, ofTables, hp']

theorem mem_ofTables {w : Wheel} (hw : w ∈ ofTables lengths operandStrides outputStrides) :
    w.size ∈ lengths ∧ Offsets.Covers w (.origin operandStrides.length) := by
  obtain ⟨p, hp, rfl⟩ := List.mem_map.1 hw
  rw [List.mem_range] at hp
  constructor
  · simp [hp]
  · simp [Offsets.Covers, Offsets.origin]

theorem volume_toNat (sized : ∀ d ∈ lengths, 0 ≤ d) :
    ((volume (lengths.map Int.toNat) : Nat) : Int) = volume lengths := by
  rw [← volume_cast, map_ofNat_map_toNat sized]

/-- The readings come in the order of their numbers. -/
theorem visits_ofTables (sized : ∀ d ∈ lengths, 0 ≤ d) :
    visits (ofTables lengths operandStrides outputStrides) operandStrides.length =
      (List.range (volume lengths).toNat).map (offsetsAt lengths operandStrides outputStrides) := by
  rw [visits_eq (fun w hw => sized _ (mem_ofTables hw).1) fun w hw => (mem_ofTables hw).2,
    sizes_ofTables, coordinates_eq_digits, List.map_map, ← volume_toNat sized, Int.toNat_natCast]
  apply List.map_congr_left
  intro number _
  exact reading_ofTables number

/-- An odometer stops by itself after the last reading, however long it may run. -/
theorem visitsFrom_ofTables (positive : ∀ d ∈ lengths, 0 < d) (fuel : Nat) :
    visitsFrom (ofTables lengths operandStrides outputStrides) fuel
        (List.replicate lengths.length 0) (.origin operandStrides.length) =
      (visits (ofTables lengths operandStrides outputStrides) operandStrides.length).take fuel := by
  have covers :
      ∀ w ∈ ofTables lengths operandStrides outputStrides,
        Offsets.Covers w (.origin operandStrides.length) :=
    fun w hw => (mem_ofTables hw).2
  have count : (ofTables lengths operandStrides outputStrides).length = lengths.length := by
    simp [ofTables]
  rw [visits_eq (fun w hw => (positive _ (mem_ofTables hw).1).le) covers,
    ← visitsFrom_zeros (fun w hw => positive _ (mem_ofTables hw).1) covers, count]

end Odometer

namespace Plan

variable {p : Plan}

theorem wheels_eq_ofTables :
    p.wheels = Odometer.ofTables p.sizes p.operandStrides p.outputStrides := by
  apply List.ext_getElem (by simp [wheels, Odometer.ofTables, sizes])
  intro i hi hi'
  rw [wheels, List.length_map] at hi
  simp [wheels, wheelOf, stepsOf, Odometer.ofTables, sizes, operandStrides, outputStrides, hi,
    List.map_zipWith]

/-- The places of an accepted plan are those of its stride tables. -/
theorem visits_eq_offsetsAt {s : Subscripts} {shapes : List (List Int)} {policy : RepetitionPolicy}
    (accepted : resolve s shapes policy = .ok p) (sized : ∀ d ∈ p.sizes, 0 ≤ d) :
    p.visits =
      (List.range p.jointSize.toNat).map
        (Odometer.offsetsAt p.sizes p.operandStrides p.outputStrides) := by
  obtain ⟨rfl, rfl, fits⟩ := fits_of_resolve accepted
  have count : p.operandShapes.length = p.operandStrides.length := by
    simp [operandStrides, congrArg List.length fits.shapes_eq]
  rw [visits, wheels_eq_ofTables, count, Odometer.visits_ofTables sized, jointSize]

end Plan

namespace Odometer

/-- The offsets carried along from reading to reading are the sums of digits times strides. There
are as many readings as the product of all sizes, each with its own digits and in the order of their
numbers, and after the last one the odometer stops by itself. -/
theorem visits_in_closed_form {lengths : List Int} (sized : ∀ d ∈ lengths, 0 ≤ d)
    (operandStrides : List (List Int)) (outputStrides : List Int) :
    let wheels := ofTables lengths operandStrides outputStrides
    let shape := lengths.map Int.toNat
    visits wheels operandStrides.length =
        (List.range (volume shape)).map (offsetsAt lengths operandStrides outputStrides) ∧
      ((visits wheels operandStrides.length).length : Int) = volume lengths ∧
      (0 ∈ lengths → visits wheels operandStrides.length = []) ∧
      (0 ∉ lengths → ∀ fuel,
        visitsFrom wheels fuel (List.replicate lengths.length 0) (.origin operandStrides.length) =
          (visits wheels operandStrides.length).take fuel) ∧
      ((List.range (volume shape)).map (digits shape)).Pairwise (· < ·) ∧
      (∀ values, values ∈ (List.range (volume shape)).map (digits shape) ↔ InRange shape values) ∧
      ∀ s shapes policy p, Plan.resolve s shapes policy = .ok p → p.sizes = lengths →
        p.visits =
          (List.range (volume shape)).map (offsetsAt p.sizes p.operandStrides p.outputStrides) := by
  intro wheels shape
  have all : visits wheels operandStrides.length = _ := visits_ofTables sized
  have number : (volume lengths).toNat = volume shape := by
    rw [← volume_toNat sized, Int.toNat_natCast]
  rw [number] at all
  have listed := coordinates_eq_digits shape
  refine ⟨all, ?_, ?_, ?_, ?_, ?_, ?_⟩
  · rw [all, List.length_map, List.length_range, volume_toNat sized]
  · intro empty
    have nothing : volume shape = 0 := volume_eq_zero_of_mem (List.mem_map.2 ⟨0, empty, rfl⟩)
    rw [all, nothing]
    rfl
  · intro filled
    have positive : ∀ d ∈ lengths, 0 < d := by
      intro d hd
      apply lt_of_le_of_ne (sized d hd)
      rintro rfl
      exact filled hd
    exact visitsFrom_ofTables positive
  · rw [← listed]
    exact pairwise_lt_coordinates shape
  · intro values
    rw [← listed, mem_coordinates]
  · intro s shapes policy p accepted same
    rw [Plan.visits_eq_offsetsAt accepted (same ▸ sized), Plan.jointSize, same, number]

/-- Two rows of three, with an operand that runs backwards and an output that counts the rows. -/
theorem visits_in_closed_form_twoRows :
    visits (ofTables [2, 3] [[3, 1], [0, -2]] [1, 0]) 2 =
        [⟨[0, 0], 0⟩, ⟨[1, -2], 0⟩, ⟨[2, -4], 0⟩, ⟨[3, 0], 1⟩, ⟨[4, -2], 1⟩, ⟨[5, -4], 1⟩] ∧
      visits (ofTables [2, 0] [[3, 1], [0, -2]] [1, 0]) 2 = [] := by
  have sized : ∀ d ∈ [2, 3], (0 : Int) ≤ d := by decide
  have empty : ∀ d ∈ [2, 0], (0 : Int) ≤ d := by decide
  constructor
  · rw [show (2 : Nat) = [[3, 1], [0, (-2 : Int)]].length from rfl,
      (visits_in_closed_form sized _ [1, 0]).1]
    decide +kernel
  · exact (visits_in_closed_form empty [[3, 1], [0, -2]] [1, 0]).2.2.1 (by decide)

end Odometer

end TensorCalculus
