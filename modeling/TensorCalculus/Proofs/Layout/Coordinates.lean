import Mathlib
import TensorCalculus.Layout

/-!
# Coordinates and their places

Coordinates in range lie one to one on the places of the buffer, and they are listed in
lexicographic order. The same shape and coordinates may be given as natural or as whole numbers;
both lead to the same place. -/

namespace TensorCalculus.Layout

theorem coordinates_eq_coordinatesFrom (shape : List Nat) :
    coordinates shape = coordinatesFrom shape := by
  unfold coordinates
  split
  case isTrue empty =>
    have short := length_coordinatesFrom shape
    rw [empty] at short
    exact (List.length_eq_zero_iff.1 short).symm
  case isFalse => rfl

theorem pairwise_lt_coordinates (shape : List Nat) : (coordinates shape).Pairwise (· < ·) := by
  rw [coordinates_eq_coordinatesFrom]
  induction shape with
  | nil => exact List.pairwise_singleton _ _
  | cons d ds ih =>
    refine List.pairwise_flatMap.2 ⟨fun c _ => ?_, List.pairwise_lt_range.imp fun {c e} lt => ?_⟩
    · rw [List.pairwise_map]
      exact ih.imp List.Lex.cons
    · simp only [List.mem_map]
      rintro _ ⟨cs, -, rfl⟩ _ ⟨es, -, rfl⟩
      exact List.Lex.rel lt

theorem volume_eq_zero_of_mem {shape : List Nat} (empty : 0 ∈ shape) : volume shape = 0 := by
  induction shape with
  | nil => cases empty
  | cons d ds ih =>
    rw [volume_cons]
    rcases List.mem_cons.1 empty with rfl | behind
    · exact Nat.zero_mul _
    · rw [ih behind, Nat.mul_zero]

/-- Two coordinates at one place are the same: the leading coordinate is the quotient by the volume
of the axes behind it. -/
theorem offset_injective {shape a b : List Nat} (ha : InRange shape a) (hb : InRange shape b)
    (same : offset shape a = offset shape b) : a = b := by
  induction shape generalizing a b with
  | nil => cases a <;> cases b <;> simp_all [InRange]
  | cons d ds ih =>
    cases a with
    | nil => exact ha.elim
    | cons c cs =>
      cases b with
      | nil => exact hb.elim
      | cons e es =>
        have front := offset_lt_volume ha.2
        have back := offset_lt_volume hb.2
        simp only [offset] at same
        have leading : c = e := by
          have quotient := congrArg (· / volume ds) same
          simpa [Nat.add_div_of_dvd_right, Nat.div_eq_of_lt front, Nat.div_eq_of_lt back,
            Nat.zero_lt_of_lt front] using quotient
        subst leading
        rw [ih ha.2 hb.2 (Nat.add_left_cancel same)]

/-- Every place of the buffer belongs to coordinates. -/
theorem exists_offset_eq {shape : List Nat} {place : Nat} (bound : place < volume shape) :
    ∃ coords, InRange shape coords ∧ offset shape coords = place := by
  induction shape generalizing place with
  | nil => exact ⟨[], trivial, (Nat.lt_one_iff.1 bound).symm⟩
  | cons d ds ih =>
    have behind : 0 < volume ds := Nat.pos_of_mul_pos_left (Nat.zero_lt_of_lt bound)
    obtain ⟨cs, inside, here⟩ := ih (Nat.mod_lt place behind)
    refine ⟨place / volume ds :: cs, ⟨(Nat.div_lt_iff_lt_mul behind).2 bound, inside⟩, ?_⟩
    rw [offset, here, Nat.mul_comm, Nat.div_add_mod]

/-- Buffers that fill a shape are equal when they hold the same at all coordinates. -/
theorem buffer_ext {α : Type} {shape : List Nat} {xs ys : Array α} (filled : xs.size = volume shape)
    (filled' : ys.size = volume shape)
    (same : ∀ coords, InRange shape coords → xs[offset shape coords]? = ys[offset shape coords]?) :
    xs = ys := by
  apply Array.ext (by rw [filled, filled'])
  intro place below below'
  obtain ⟨coords, inside, rfl⟩ := exists_offset_eq (filled ▸ below)
  have equal := same coords inside
  rw [Array.getElem?_eq_getElem below, Array.getElem?_eq_getElem below'] at equal
  exact Option.some.inj equal

theorem inRange_map_iff {shape : List Nat} {symbols : List Char} {value : Char → Nat}
    {size : Char → Nat} (sized : shape = symbols.map size) :
    InRange shape (symbols.map value) ↔ ∀ c ∈ symbols, value c < size c := by
  subst sized
  induction symbols with
  | nil => simp [InRange]
  | cons c cs ih => simp [InRange, ih]

/-- The order of the axes does not matter to the number of elements. -/
theorem volume_perm {shape other : List Int} (rearranged : shape.Perm other) :
    volume shape = volume other := by
  induction rearranged with
  | nil => rfl
  | cons d _ ih => rw [volume_cons, volume_cons, ih]
  | swap d e ds => rw [volume_cons, volume_cons, volume_cons, volume_cons, Int.mul_left_comm]
  | trans _ _ ih ih' => rw [ih, ih']

theorem volume_append (shape other : List Int) :
    volume (shape ++ other) = volume shape * volume other := by
  induction shape with
  | nil => rw [List.nil_append, volume_nil, Int.one_mul]
  | cons d ds ih => rw [List.cons_append, volume_cons, volume_cons, ih, Int.mul_assoc]

section Cast

/-- Sizes that are not negative are natural numbers. -/
theorem map_ofNat_map_toNat {shape : List Int} (nonnegative : ∀ d ∈ shape, 0 ≤ d) :
    (shape.map Int.toNat).map Int.ofNat = shape := by
  rw [List.map_map]
  exact (List.map_congr_left fun d hd => Int.toNat_of_nonneg (nonnegative d hd)).trans
    (List.map_id _)

@[simp]
theorem volume_cast (shape : List Nat) :
    volume (shape.map Int.ofNat) = ((volume shape : Nat) : Int) := by
  induction shape with
  | nil => rfl
  | cons d ds ih =>
    rw [List.map_cons, volume_cons, volume_cons, ih, Nat.cast_mul, Int.ofNat_eq_natCast]

theorem volume_nonneg {shape : List Int} (nonnegative : ∀ d ∈ shape, 0 ≤ d) : 0 ≤ volume shape := by
  rw [← map_ofNat_map_toNat nonnegative, volume_cast]
  exact Int.natCast_nonneg _

theorem offset_cast (shape coords : List Nat) :
    offset (shape.map Int.ofNat) (coords.map Int.ofNat) = ((offset shape coords : Nat) : Int) := by
  induction shape generalizing coords with
  | nil => rfl
  | cons d ds ih =>
    cases coords with
    | nil => rfl
    | cons c cs =>
      rw [List.map_cons, List.map_cons, offset, offset, ih, volume_cast]
      rfl

theorem locateFrom_cast {shape coords : List Nat} (axis : Nat) (inside : InRange shape coords) :
    locateFrom .ok axis (shape.map Int.ofNat) (coords.map Int.ofNat) =
      .ok ((offset shape coords : Nat) : Int) := by
  induction shape generalizing coords axis with
  | nil => cases coords <;> rfl
  | cons d ds ih =>
    cases coords with
    | nil => exact inside.elim
    | cons c cs =>
      have bound : (0 : Int) ≤ Int.ofNat c ∧ Int.ofNat c < Int.ofNat d :=
        ⟨Int.natCast_nonneg c, Int.ofNat_lt.2 inside.1⟩
      have rest := ih (axis + 1) inside.2
      rw [List.map_cons, List.map_cons, locateFrom]
      simp only [bind, Except.bind, bound, and_self, if_true, rest, volume_cast]
      rfl

/-- Coordinates in range are accepted, and lead to their place. -/
theorem flatOffset_cast {shape coords : List Nat} (inside : InRange shape coords) :
    flatOffset (shape.map Int.ofNat) (coords.map Int.ofNat) =
      .ok ((offset shape coords : Nat) : Int) := by
  simp only [flatOffset, locate, List.length_map, inside.length_eq, if_true]
  exact locateFrom_cast 0 inside

end Cast

end TensorCalculus.Layout
