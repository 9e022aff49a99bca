import TensorCalculus.Proofs.Tower.RealPart

/-!
# Flexibility

Two factors may be regrouped around a third one when the outer factors are the same, on every level
of the tower. A doubling keeps this law, although it loses commutativity, then associativity and
then alternativity. What carries it upwards is that conjugating a factor only reverses the sign of
an associator, and that a product and its conjugate add up to a real value. -/

namespace TensorCalculus

-- Powers of natural numbers are those of `Nat.pow`, as in the definitions.
attribute [local instance (2000)] instPowNat

namespace Tower

variable {R : Type} [CommRing R] {k : Nat}

theorem mul_mul_eq_add_associator (x y z : Tower R k) :
    x * y * z = x * (y * z) + associator x y z := by
  rw [associator, add_sub_cancel]

section Conjugates

variable (x y z : Tower R k)

theorem associator_conj_left : associator x.conj y z = -associator x y z := by
  simp only [associator, conj_eq_sub x, sub_mul, ofScalar_mul, smul_mul_assoc]
  abel

theorem associator_conj_middle : associator x y.conj z = -associator x y z := by
  simp only [associator, conj_eq_sub y, mul_sub, sub_mul, ofScalar_mul, mul_ofScalar,
    smul_mul_assoc, mul_smul_comm]
  abel

theorem associator_conj_right : associator x y z.conj = -associator x y z := by
  simp only [associator, conj_eq_sub z, mul_sub, mul_ofScalar, mul_smul_comm]
  abel

/-- A value and its conjugate may change places behind a third value. -/
theorem mul_mul_conj_comm : x * y * y.conj = x * y.conj * y := by
  obtain ⟨right, left⟩ := y.mul_conj_and_conj_mul
  rw [mul_mul_eq_add_associator, mul_mul_eq_add_associator, right, left, associator_conj_right,
    associator_conj_middle]

/-- The real values in the middle are equal, as the real part does not see the order of factors. -/
theorem mul_mul_add_conj_conj :
    z * (x * y) + z * y.conj * x.conj = z * y * x + z * (x.conj * y.conj) := by
  have traces : x * y + y.conj * x.conj = y * x + x.conj * y.conj := by
    rw [← conj_mul, ← conj_mul, add_conj, add_conj, re_mul_comm]
  have signs : associator z y.conj x.conj = associator z y x := by
    rw [associator_conj_right, associator_conj_middle, neg_neg]
  calc
    z * (x * y) + z * y.conj * x.conj = z * (x * y + y.conj * x.conj) + associator z y x := by
      rw [mul_mul_eq_add_associator, signs, mul_add, add_assoc]
    _ = z * y * x + z * (x.conj * y.conj) := by
      rw [traces, mul_add, mul_mul_eq_add_associator z y x, add_right_comm]

end Conjugates

section Doubling

variable (flexible : ∀ x y : Tower R k, associator x y x = 0)
include flexible

/-- The law for a sum in place of the outer factors. -/
theorem associator_swap (x y z : Tower R k) : associator x y z + associator z y x = 0 := by
  have sum : associator (x + z) y (x + z) = associator x y x + associator z y z +
      (associator x y z + associator z y x) := by
    simp only [associator, add_mul, mul_add]
    abel
  rw [flexible, flexible, flexible, zero_add, zero_add] at sum
  exact sum.symm

theorem conj_mul_mul_comm (x y : Tower R k) : y * x.conj * x = x.conj * (x * y) := by
  have signs : associator y x.conj x + associator x.conj x y = 0 := by
    rw [associator_conj_middle, associator_conj_left, ← neg_add, associator_swap flexible, neg_zero]
  have norm : y * (x.conj * x) = x.conj * x * y := by
    rw [x.mul_conj_and_conj_mul.2, mul_ofScalar, ofScalar_mul]
  rw [mul_mul_eq_add_associator, norm, mul_mul_eq_add_associator, add_assoc,
    add_comm (associator _ _ _), signs, add_zero]

theorem mul_conj_mul_add (x y z : Tower R k) :
    x * (y.conj * z) + x * z.conj * y = z.conj * y * x + y.conj * (z * x) := by
  have signs : associator y.conj z x + associator x z.conj y = 0 := by
    rw [associator_conj_left, associator_conj_middle, ← neg_add, associator_swap flexible, neg_zero]
  have real : y.conj * z + z.conj * y = ofScalar k (2 * (y.conj * z).re) := by
    rw [← add_conj, conj_mul, conj_conj]
  calc
    x * (y.conj * z) + x * z.conj * y = x * (y.conj * z + z.conj * y) + associator x z.conj y := by
      rw [mul_mul_eq_add_associator, mul_add, add_assoc]
    _ = (y.conj * z + z.conj * y) * x + associator x z.conj y := by
      rw [real, mul_ofScalar, ofScalar_mul]
    _ = z.conj * y * x + y.conj * (z * x) + (associator y.conj z x + associator x z.conj y) := by
      rw [add_mul, mul_mul_eq_add_associator y.conj]
      abel
    _ = z.conj * y * x + y.conj * (z * x) := by rw [signs, add_zero]

/-- Doubling keeps the law. -/
theorem pair_flexible (x y : Tower R (k + 1)) : associator x y x = 0 := by
  rw [associator, sub_eq_zero]
  cases x with
  | pair a b =>
    cases y with
    | pair c d =>
      have outer : a * c * a = a * (c * a) := sub_eq_zero.1 (flexible a c)
      have front : (a * c - d.conj * b) * a - b.conj * (d * a + b * c.conj) =
          a * (c * a - b.conj * d) - (b * c + d * a.conj).conj * b := by
        calc
          _ = a * c * a - b.conj * (b * c.conj) - (d.conj * b * a + b.conj * (d * a)) := by
            rw [sub_mul, mul_add]
            abel
          _ = a * (c * a) - c.conj * b.conj * b - (a * (b.conj * d) + a * d.conj * b) := by
            rw [outer, conj_mul_mul_comm flexible b c.conj, mul_conj_mul_add flexible a b d]
          _ = _ := by
            rw [conj_add, conj_mul, conj_mul, conj_conj, mul_sub, add_mul]
            abel
      have back : b * (a * c - d.conj * b) + (d * a + b * c.conj) * a.conj =
          (b * c + d * a.conj) * a + b * (c * a - b.conj * d).conj := by
        calc
          _ = b * (a * c) + b * c.conj * a.conj + d * a * a.conj - b * (d.conj * b) := by
            rw [mul_sub, add_mul]
            abel
          _ = b * c * a + b * (a.conj * c.conj) + d * a.conj * a - b * (d.conj * b) := by
            rw [mul_mul_add_conj_conj a c b, mul_mul_conj_comm d a]
          _ = _ := by
            rw [conj_sub, conj_mul, conj_mul, conj_conj, mul_sub, add_mul]
            abel
      rw [pair_mul, pair_mul, pair_mul, pair_mul, front, back]

end Doubling

theorem associator_self_eq_zero (x y : Tower R k) : associator x y x = 0 := by
  induction k with
  | zero =>
    cases x
    cases y
    simp [associator, zero_eq_scalar, mul_assoc]
  | succ k ih => exact pair_flexible ih x y

end Tower

namespace Number

open TensorCalculus.Outcome

/-- In every algebra of the tower a number may be multiplied from both sides of another one in
either order. The associator of the three factors exists, and all its components are zero. -/
theorem mul_flexible {R : Type} [CommRing R] {k : Nat} {x y : Number R}
    (size : x.components.length = 2 ^ k) (same : x.algebra = y.algebra) :
    (∃ z, x.associator y x = .ok z ∧ z.algebra = x.algebra ∧
      z.components = List.replicate (2 ^ k) 0) ∧
      ∃ xy yx xyx, x.mul y = .ok xy ∧ y.mul x = .ok yx ∧ xy.mul x = .ok xyx ∧
        x.mul yx = .ok xyx := by
  obtain ⟨a, left⟩ := Tower.exists_eq_toList size
  have size' : y.components.length = 2 ^ k := (length_eq_of_algebra_eq same).symm.trans size
  obtain ⟨b, right⟩ := Tower.exists_eq_toList size'
  have xy := mul_eq_holding size left right same
  have yx := mul_eq_holding size' right left same.symm
  have heldLeft : (x.holding size (a * b)).components.length = 2 ^ k := by simp
  have grouped : (x.holding size (a * b)).mul x = .ok (x.holding size (a * b * a)) :=
    mul_eq_holding heldLeft (components_holding ..) left rfl
  have regrouped : x.mul (y.holding size' (b * a)) = .ok (x.holding size (a * (b * a))) :=
    mul_eq_holding size left (components_holding ..) same
  have vanish : a * b * a - a * (b * a) = 0 := Tower.associator_self_eq_zero a b
  constructor
  · have heldTwice : (x.holding size (a * b * a)).components.length = 2 ^ k := by simp
    refine ⟨x.holding size (a * b * a - a * (b * a)), ?_, rfl, ?_⟩
    · simp only [associator, xy, yx, ok_bind, grouped, regrouped]
      exact sub_eq_holding heldTwice (components_holding ..) (components_holding ..) rfl
    · rw [components_holding, vanish, Tower.toList_zero]
  · refine ⟨_, _, _, xy, yx, grouped, ?_⟩
    rw [regrouped, sub_eq_zero.1 vanish]

/-- A number of dimension sixteen with no zero component. -/
def fullSedenion : Number ℚ :=
  ⟨.sedenion, .sedenion,
    [1, -2, 3, -4, 5, -6, 7, -8, 1 / 2, 1 / 3, 1 / 4, 1 / 5, 1 / 6, 1 / 7, 1 / 8, 1 / 9], rfl⟩

theorem mul_flexible_sedenions :
    zeroDivisor.components.length = 2 ^ 4 ∧ zeroDivisor.algebra = fullSedenion.algebra ∧
      ∃ z, zeroDivisor.associator fullSedenion zeroDivisor = .ok z ∧
        z.components = List.replicate 16 0 := by
  obtain ⟨⟨z, found, -, zeros⟩, -⟩ :=
    mul_flexible (k := 4) (x := zeroDivisor) (y := fullSedenion) rfl rfl
  exact ⟨rfl, rfl, z, found, zeros⟩

end Number

end TensorCalculus
