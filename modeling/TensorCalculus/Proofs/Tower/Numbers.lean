import TensorCalculus.Proofs.Layout.Limits
import TensorCalculus.Proofs.Tower.RealPart

/-!
# Numbers and their values

A number of an algebra whose dimension is a power of two holds one value of a level of the tower,
and sums and products of numbers hold the sums and products of the values. Every level has an
algebra: the standard one of its dimension. -/

namespace TensorCalculus

-- Powers of natural numbers are those of `Nat.pow`, as in the definitions.
attribute [local instance (2000)] instPowNat

open TensorCalculus.Layout TensorCalculus.Outcome TensorCalculus.Text

/-- Every power of two is the dimension of a standard tag. -/
theorem AlgebraTag.exists_standard (k : Nat) :
    ∃ tag, standard (2 ^ k : Nat) = .ok tag ∧ tag.dimension = (2 ^ k : Nat) := by
  unfold standard
  split
  case h_1 tag found =>
    have dimension := List.find?_some found
    exact ⟨tag, rfl, by simpa using dimension⟩
  case h_2 =>
    have power : 0 < ((2 ^ k : Nat) : Int) ∧ isPowerOfTwo ((2 ^ k : Nat) : Int).toNat := by
      refine ⟨Int.natCast_pos.2 (Nat.two_pow_pos k), ?_⟩
      rw [Int.toNat_natCast, isPowerOfTwo, Nat.log2_two_pow]
      exact beq_self_eq_true _
    rw [if_pos power]
    exact ⟨_, rfl, rfl⟩

theorem AlgebraTag.ofDimension_of_short {n : Int} (short : n.natAbs < 10 ^ digitLimit) :
    ofDimension n = standard n :=
  if_pos (decide_eq_true short)

theorem AlgebraTag.ofDimension_of_long {n : Int} (long : 10 ^ digitLimit ≤ n.natAbs) :
    ofDimension n = .error (.value .longInteger) :=
  if_neg fun writable => long.not_gt (of_decide_eq_true writable)

/-- Every power of two for which zeros can be laid out has a standard tag, since it can be
written. -/
theorem AlgebraTag.exists_ofDimension {k : Nat} (bytes : elementBytes * 2 ^ k ≤ wordLimit) :
    ∃ tag, ofDimension (2 ^ k : Nat) = .ok tag ∧ tag.dimension = (2 ^ k : Nat) := by
  have room : 10 ^ 19 ≤ 10 ^ digitLimit := Nat.pow_le_pow_right (by decide) (by decide)
  unfold elementBytes wordLimit at bytes
  rw [ofDimension_of_short]
  · exact exists_standard k
  · rw [Int.natAbs_natCast]
    omega

namespace Number

variable {R : Type} {k : Nat} {tag : AlgebraTag}

/-- The number of an algebra with a given value, in the form of the algebra. -/
def ofTower (tag : AlgebraTag) (dimension : tag.dimension = (2 ^ k : Nat)) (a : Tower R k) :
    Number R where
  view := .ofTag tag
  algebra := tag
  components := a.toList
  length_components := by rw [Tower.length_toList, dimension]

@[simp]
theorem algebra_ofTower (dimension : tag.dimension = (2 ^ k : Nat)) (a : Tower R k) :
    (ofTower tag dimension a).algebra = tag := rfl

@[simp]
theorem components_ofTower (dimension : tag.dimension = (2 ^ k : Nat)) (a : Tower R k) :
    (ofTower tag dimension a).components = a.toList := rfl

/-- A value under a tag of its dimension makes a number in the form of the tag. -/
theorem make_toList (dimension : tag.dimension = (2 ^ k : Nat)) (a : Tower R k) :
    make a.toList (some tag) = .ok (ofTower tag dimension a) := by
  have size : (a.toList.length : Int) = tag.dimension := by
    rw [Tower.length_toList, dimension]
  simp only [make, ofTag, ok_bind, dif_pos size, ofTower]

theorem length_of_algebra_eq {x : Number R} (tagged : x.algebra = tag)
    (dimension : tag.dimension = (2 ^ k : Nat)) : x.components.length = 2 ^ k := by
  have size := x.length_components
  rw [tagged, dimension] at size
  exact Int.ofNat_inj.1 size

/-- The value of a number on a level of the tower. -/
def value [Zero R] (k : Nat) (x : Number R) : Tower R k :=
  Tower.ofList k x.components

theorem components_eq_value [Zero R] {x : Number R} (size : x.components.length = 2 ^ k) :
    x.components = (x.value k).toList :=
  (Tower.toList_ofList size).symm

@[simp]
theorem value_ofTower [Zero R] (dimension : tag.dimension = (2 ^ k : Nat)) (a : Tower R k) :
    (ofTower tag dimension a).value k = a :=
  Tower.ofList_toList a

@[simp]
theorem value_holding [Zero R] (x : Number R) (size : x.components.length = 2 ^ k) (a : Tower R k) :
    (x.holding size a).value k = a :=
  Tower.ofList_toList a

variable [CommRing R]

/-- Whether the zeros of a number can be laid out. -/
theorem checkBlock_dimension_eq_ok_iff (dimension : tag.dimension = (2 ^ k : Nat)) :
    checkBlock [tag.dimension] = .ok () ↔ elementBytes * 2 ^ k ≤ wordLimit := by
  rw [dimension, checkBlock_singleton_eq_ok_iff]

theorem unit_eq_ofTower (dimension : tag.dimension = (2 ^ k : Nat))
    (bytes : elementBytes * 2 ^ k ≤ wordLimit) (r : R) :
    unit tag r = .ok (ofTower tag dimension (.ofScalar k r)) := by
  have positive : 0 < 2 ^ k := Nat.two_pow_pos k
  have count : tag.dimension.toNat = 2 ^ k - 1 + 1 := by
    omega
  rw [unit, (checkBlock_dimension_eq_ok_iff dimension).2 bytes, ok_bind, count]
  dsimp only
  rw [← Tower.toList_ofScalar, make_toList dimension]

/-- A number with zeros behind its first component is made only where its zeros can be laid out. -/
theorem bytes_le_of_unit (dimension : tag.dimension = (2 ^ k : Nat)) {r : R} {x : Number R}
    (made : unit tag r = .ok x) : elementBytes * 2 ^ k ≤ wordLimit := by
  obtain ⟨_, checked, -⟩ := bind_eq_ok_iff.1 made
  exact (checkBlock_dimension_eq_ok_iff dimension).1 checked

/-- A sum keeps the form of its left summand. -/
theorem ofTower_add (dimension : tag.dimension = (2 ^ k : Nat)) (a : Tower R k) {y : Number R}
    (tagged : y.algebra = tag) :
    (ofTower tag dimension a).add y = .ok (ofTower tag dimension (a + y.value k)) :=
  add_eq_holding (length_of_algebra_eq rfl dimension) rfl
    (components_eq_value (length_of_algebra_eq tagged dimension)) tagged.symm

theorem mul_eq_holding_value {x y : Number R} (size : x.components.length = 2 ^ k)
    (same : x.algebra = y.algebra) : x.mul y = .ok (x.holding size (x.value k * y.value k)) :=
  mul_eq_holding size (components_eq_value size)
    (components_eq_value (length_of_same_algebra size same)) same

end Number

end TensorCalculus
