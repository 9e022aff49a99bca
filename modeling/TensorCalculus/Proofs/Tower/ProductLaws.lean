import TensorCalculus.Proofs.Tower.Composition
import TensorCalculus.Proofs.Tower.Conjugation
import TensorCalculus.Proofs.Tower.Numbers

/-!
# Which laws hold where

Factors commute on the first two levels of the tower, products may be regrouped on the first three,
and a factor that stands twice in a row may be multiplied twice on the first four. Each of these
laws fails on the next level, and what fails on one level fails on all levels above, as every level
holds the one below. -/

namespace TensorCalculus

-- Powers of natural numbers are those of `Nat.pow`, as in the definitions.
attribute [local instance (2000)] instPowNat

namespace Tower

section Doubling

variable {R : Type} [CommRing R] {k : Nat}

/-- Pairs are alternative when the level below is associative. In both halves a value and its
conjugate add up to, or multiply to, a real value, which may change places with everything. -/
theorem associator_self_left_of_mul_assoc (assoc : ∀ x y z : Tower R k, x * y * z = x * (y * z))
    (x y : Tower R (k + 1)) : associator x x y = 0 := by
  rw [associator, sub_eq_zero]
  cases x with
  | pair a b =>
    cases y with
    | pair c d =>
      have norm (u : Tower R k) : b.conj * (b * u) = u * (b.conj * b) := by
        rw [← assoc, b.mul_conj_and_conj_mul.2, ofScalar_mul, mul_ofScalar]
      have norm' (u : Tower R k) : u * (b.conj * b) = b * (b.conj * u) := by
        rw [← assoc b, b.mul_conj_and_conj_mul.1, b.mul_conj_and_conj_mul.2, ofScalar_mul,
          mul_ofScalar]
      have trace (u v : Tower R k) :
          u * (v * a) + u * (v * a.conj) = a * (u * v) + a.conj * (u * v) := by
        rw [← mul_add, ← mul_add, ← add_mul, add_conj, mul_ofScalar, ofScalar_mul, mul_smul_comm]
      have front : (a * a - b.conj * b) * c - d.conj * (b * a + b * a.conj) =
          a * (a * c - d.conj * b) - (d * a + b * c.conj).conj * b := by
        calc
          _ = a * (a * c) - b.conj * (b * c) - (d.conj * (b * a) + d.conj * (b * a.conj)) := by
            rw [sub_mul, mul_add, assoc, assoc]
          _ = a * (a * c) - c * (b.conj * b) - (a * (d.conj * b) + a.conj * (d.conj * b)) := by
            rw [norm, trace]
          _ = _ := by
            rw [mul_sub, conj_add, conj_mul, conj_mul, conj_conj, add_mul, assoc, assoc]
            abel
      have back : d * (a * a - b.conj * b) + (b * a + b * a.conj) * c.conj =
          (d * a + b * c.conj) * a + b * (a * c - d.conj * b).conj := by
        have turned :
            b * (a * c.conj) + b * (a.conj * c.conj) = b * (c.conj * a) +
              b * (c.conj * a.conj) := by
          rw [← mul_add, ← mul_add, ← add_mul, ← mul_add, add_conj, ofScalar_mul, mul_ofScalar]
        calc
          _ = d * (a * a) - d * (b.conj * b) + (b * (a * c.conj) + b * (a.conj * c.conj)) := by
            rw [mul_sub, add_mul, assoc, assoc]
          _ = d * (a * a) - b * (b.conj * d) + (b * (c.conj * a) + b * (c.conj * a.conj)) := by
            rw [norm', turned]
          _ = _ := by
            rw [add_mul, conj_sub, conj_mul, conj_mul, conj_conj, mul_sub, assoc, assoc]
            abel
      rw [pair_mul, pair_mul, pair_mul, pair_mul, front, back]

/-- Conjugation turns the factors of an associator around. -/
theorem conj_associator (x y z : Tower R k) :
    (associator x y z).conj = -associator z.conj y.conj x.conj := by
  rw [associator, associator, conj_sub, conj_mul, conj_mul, conj_mul, conj_mul, neg_sub]

/-- The second of the two laws is the first one seen through conjugation. -/
theorem associator_self_right_of_self_left (alternative : ∀ x y : Tower R k, associator x x y = 0)
    (x y : Tower R k) : associator x y y = 0 := by
  have turned := conj_associator x y y
  rw [alternative, neg_zero] at turned
  rw [← conj_conj (associator x y y), turned, conj_zero]

end Doubling

section Levels

variable {R : Type} [CommRing R] {k : Nat}

theorem associator_eq_zero_of_le_two (low : k ≤ 2) (x y z : Tower R k) : associator x y z = 0 := by
  rw [associator, mul_assoc_of_le_two low, sub_self]

theorem associator_self_left_of_le_three (low : k ≤ 3) (x y : Tower R k) :
    associator x x y = 0 := by
  cases k with
  | zero => exact associator_eq_zero_of_le_two (by omega) x x y
  | succ k => exact associator_self_left_of_mul_assoc (mul_assoc_of_le_two (by omega)) x y

theorem associator_self_right_of_le_three (low : k ≤ 3) (x y : Tower R k) : associator x y y = 0 :=
  associator_self_right_of_self_left (associator_self_left_of_le_three low) x y

/-- Pairs without a second half multiply as the values of the level below. -/
theorem pair_zero_mul (a b : Tower R k) : pair a 0 * pair b 0 = pair (a * b) 0 := by
  simp

end Levels

section Limits

theorem exists_not_comm {k : Nat} (high : 2 ≤ k) : ∃ x y : Tower ℚ k, x * y ≠ y * x := by
  induction k, high using Nat.le_induction with
  | base =>
    refine ⟨ofList 2 [0, 1, 0, 0], ofList 2 [0, 0, 1, 0], fun same => ?_⟩
    exact absurd (congrArg toList same) (by decide +kernel)
  | succ k _ ih =>
    obtain ⟨x, y, differ⟩ := ih
    refine ⟨pair x 0, pair y 0, fun same => ?_⟩
    rw [pair_zero_mul, pair_zero_mul, pair.injEq] at same
    exact differ same.1

theorem exists_not_assoc {k : Nat} (high : 3 ≤ k) :
    ∃ x y z : Tower ℚ k, x * y * z ≠ x * (y * z) := by
  induction k, high using Nat.le_induction with
  | base =>
    refine ⟨ofList 3 [0, 1, 0, 0, 0, 0, 0, 0], ofList 3 [0, 0, 1, 0, 0, 0, 0, 0],
      ofList 3 [0, 0, 0, 0, 1, 0, 0, 0], fun same => ?_⟩
    exact absurd (congrArg toList same) (by decide +kernel)
  | succ k _ ih =>
    obtain ⟨x, y, z, differ⟩ := ih
    refine ⟨pair x 0, pair y 0, pair z 0, fun same => ?_⟩
    rw [pair_zero_mul, pair_zero_mul, pair_zero_mul, pair_zero_mul, pair.injEq] at same
    exact differ same.1

theorem mul_comm_iff_le_one (k : Nat) : (∀ x y : Tower ℚ k, x * y = y * x) ↔ k ≤ 1 := by
  constructor
  · intro comm
    by_contra high
    obtain ⟨x, y, differ⟩ := exists_not_comm (k := k) (by omega)
    exact differ (comm x y)
  · exact mul_comm_of_le_one

theorem mul_assoc_iff_le_two (k : Nat) : (∀ x y z : Tower ℚ k, x * y * z = x * (y * z)) ↔
    k ≤ 2 := by
  constructor
  · intro assoc
    by_contra high
    obtain ⟨x, y, z, differ⟩ := exists_not_assoc (k := k) (by omega)
    exact differ (assoc x y z)
  · exact mul_assoc_of_le_two

/-- Where a factor may be multiplied twice, its conjugate cancels it up to the norm, so that no
product of values that are not zero vanishes. -/
theorem associator_self_left_iff_le_three (k : Nat) : (∀ x y : Tower ℚ k, associator x x y = 0) ↔
    k ≤ 3 := by
  constructor
  · intro alternative
    by_contra high
    obtain ⟨x, y, left, right, vanish⟩ := exists_annihilate (k := k) (by omega)
    have cancelled : x.normSq • y = 0 := by
      calc
        x.normSq • y = x.conj * x * y := by rw [x.mul_conj_and_conj_mul.2, ofScalar_mul]
        _ = x.conj * (x * y) := by
          rw [mul_mul_eq_add_associator, associator_conj_left, alternative, neg_zero, add_zero]
        _ = 0 := by rw [vanish, mul_zero]
    have zero : y = 0 := by
      rw [← inv_smul_smul₀ left y, cancelled, smul_zero]
    rw [zero, normSq_zero] at right
    exact right rfl
  · exact associator_self_left_of_le_three

end Limits

end Tower

namespace Number

open TensorCalculus.Outcome

section Outcomes

variable {α : Type} {x : Number α}

/-- Whether an outcome is the zero of the algebra of a number. -/
def Vanishes [Zero α] (x : Number α) (outcome : Except Fault (Number α)) : Prop :=
  ∃ z, outcome = .ok z ∧ z.algebra = x.algebra ∧ z.components = List.replicate x.dimension 0

/-- A dimension among the first powers of two gives the level. -/
theorem exists_level (levels : Nat) (dimension : x.dimension ∈ (List.range levels).map (2 ^ ·)) :
    ∃ k, k < levels ∧ x.components.length = 2 ^ k := by
  obtain ⟨k, low, size⟩ := List.mem_map.1 dimension
  exact ⟨k, List.mem_range.1 low, size.symm⟩

end Outcomes

variable {R : Type} [CommRing R] {k : Nat} {x y z : Number R}

theorem vanishes_holding (size : x.components.length = 2 ^ k) {a : Tower R k} (zero : a = 0) :
    Vanishes x (.ok (x.holding size a)) := by
  refine ⟨_, rfl, rfl, ?_⟩
  rw [components_holding, zero, Tower.toList_zero, dimension, size]

theorem commutator_eq_holding (size : x.components.length = 2 ^ k) (same : x.algebra = y.algebra) :
    x.commutator y = .ok (x.holding size (x.value k * y.value k - y.value k * x.value k)) := by
  have size' : y.components.length = 2 ^ k := length_of_same_algebra size same
  rw [commutator, mul_eq_holding_value size same, mul_eq_holding_value size' same.symm, ok_bind,
    ok_bind]
  exact sub_eq_holding (length_holding x size _) (components_holding ..) (components_holding ..)
    same

theorem associator_eq_holding (size : x.components.length = 2 ^ k) (same : x.algebra = y.algebra)
    (same' : y.algebra = z.algebra) :
    x.associator y z = .ok (x.holding size
      (x.value k * y.value k * z.value k - x.value k * (y.value k * z.value k))) := by
  have size' : y.components.length = 2 ^ k := length_of_same_algebra size same
  have left :=
    mul_eq_holding_value (length_holding x size (x.value k * y.value k)) (same.trans same')
  have right := mul_eq_holding_value (y := y.holding size' (y.value k * z.value k)) size same
  rw [value_holding] at left right
  simp only [associator, mul_eq_holding_value size same, mul_eq_holding_value size' same', ok_bind,
    left, right]
  exact sub_eq_holding (length_holding x size _) (components_holding ..) (components_holding ..) rfl

/-- Numbers of one algebra commute in the dimensions one and two, associate in the dimensions one,
two and four, and in these and in dimension eight two equal factors that are neighbours may be taken
together. -/
theorem product_laws_by_dimension (same : x.algebra = y.algebra) (same' : y.algebra = z.algebra) :
    (x.dimension ∈ [1, 2] → Vanishes x (x.commutator y)) ∧
      (x.dimension ∈ [1, 2, 4] → Vanishes x (x.associator y z)) ∧
      (x.dimension ∈ [1, 2, 4, 8] → Vanishes x (x.associator x y) ∧
        Vanishes x (x.associator y y)) := by
  refine ⟨fun dimension => ?_, fun dimension => ?_, fun dimension => ?_⟩
  · obtain ⟨k, low, size⟩ := exists_level 2 dimension
    rw [commutator_eq_holding size same]
    exact vanishes_holding size (sub_eq_zero.2 (Tower.mul_comm_of_le_one (by omega) _ _))
  · obtain ⟨k, low, size⟩ := exists_level 3 dimension
    rw [associator_eq_holding size same same']
    exact vanishes_holding size (Tower.associator_eq_zero_of_le_two (by omega) _ _ _)
  · obtain ⟨k, low, size⟩ := exists_level 4 dimension
    rw [associator_eq_holding size rfl same, associator_eq_holding size same rfl]
    constructor
    · exact vanishes_holding size (Tower.associator_self_left_of_le_three (by omega) _ _)
    · exact vanishes_holding size (Tower.associator_self_right_of_le_three (by omega) _ _)

theorem product_laws_by_dimension_octonions :
    firstOctonion.algebra = secondOctonion.algebra ∧ firstOctonion.dimension ∈ [1, 2, 4, 8] ∧
      Vanishes firstOctonion (firstOctonion.associator firstOctonion secondOctonion) ∧
      Vanishes firstOctonion (firstOctonion.associator secondOctonion secondOctonion) := by
  have dimension : firstOctonion.dimension ∈ [1, 2, 4, 8] := by decide
  obtain ⟨-, -, alternative⟩ := product_laws_by_dimension (x := firstOctonion) (y := secondOctonion)
    (z := secondOctonion) rfl rfl
  exact ⟨rfl, dimension, alternative dimension⟩

end Number

end TensorCalculus
