import TensorCalculus.Proofs.Tower.ProductLaws

/-!
# Division

A quotient is the product with the conjugate of the divisor, divided by the norm of the divisor. On
every level this is the product with the inverse. It undoes a multiplication, and is undone by one,
as long as two equal factors that are neighbours may be taken together, so on the first four levels.
On all higher levels there are divisors whose norm is not zero and which do not cancel. -/

namespace TensorCalculus

-- Powers of natural numbers are those of `Nat.pow`, as in the definitions.
attribute [local instance (2000)] instPowNat

namespace Tower

section Cancelling

variable {R : Type} [CommRing R] {k : Nat} (low : k ≤ 3)
include low

/-- Conjugating the last factor changes only the sign of an associator, so with `y * y`
also `y * y.conj` may be taken together. -/
theorem mul_mul_conj_of_le_three (x y : Tower R k) : x * y * y.conj = y.normSq • x := by
  calc
    x * y * y.conj = x * (y * y.conj) + associator x y y.conj :=
      mul_mul_eq_add_associator x y y.conj
    _ = x * (y * y.conj) := by
      rw [associator_conj_right, associator_self_right_of_le_three low, neg_zero, add_zero]
    _ = y.normSq • x := by rw [y.mul_conj_and_conj_mul.1, mul_ofScalar]

theorem mul_conj_mul_of_le_three (x y : Tower R k) : x * y.conj * y = y.normSq • x := by
  rw [← mul_mul_conj_comm, mul_mul_conj_of_le_three low]

end Cancelling

section Quotients

variable {K : Type} [Field K] {k : Nat}

def inverse (x : Tower K k) : Tower K k :=
  x.normSq⁻¹ • x.conj

def quotient (x y : Tower K k) : Tower K k :=
  y.normSq⁻¹ • (x * y.conj)

theorem quotient_eq_mul_inverse (x y : Tower K k) : x.quotient y = x * y.inverse := by
  rw [quotient, inverse, mul_smul_comm]

variable {y : Tower K k} (low : k ≤ 3) (nonzero : y.normSq ≠ 0)
include low nonzero

theorem quotient_mul_cancel (x : Tower K k) : x.quotient y * y = x := by
  rw [quotient, smul_mul_assoc, mul_conj_mul_of_le_three low, inv_smul_smul₀ nonzero]

theorem mul_quotient_cancel (x : Tower K k) : (x * y).quotient y = x := by
  rw [quotient, mul_mul_conj_of_le_three low, inv_smul_smul₀ nonzero]

end Quotients

section Limits

/-- A value that annihilates `y` from the left has the quotient zero by the conjugate of `y`. -/
theorem quotient_mul_cancel_iff_le_three (k : Nat) :
    (∀ x y : Tower ℚ k, y.normSq ≠ 0 → x.quotient y * y = x) ↔ k ≤ 3 := by
  constructor
  · intro cancels
    by_contra high
    obtain ⟨x, y, left, right, vanish⟩ := exists_annihilate (k := k) (by omega)
    rw [← normSq_conj] at right
    have back := cancels x y.conj right
    rw [quotient, conj_conj, vanish, smul_zero, zero_mul] at back
    rw [← back, normSq_zero] at left
    exact left rfl
  · intro low x y nonzero
    exact quotient_mul_cancel low nonzero x

theorem mul_quotient_cancel_iff_le_three (k : Nat) :
    (∀ x y : Tower ℚ k, y.normSq ≠ 0 → (x * y).quotient y = x) ↔ k ≤ 3 := by
  constructor
  · intro cancels
    by_contra high
    obtain ⟨x, y, left, right, vanish⟩ := exists_annihilate (k := k) (by omega)
    have back := cancels x y right
    rw [vanish, quotient, zero_mul, smul_zero] at back
    rw [← back, normSq_zero] at left
    exact left rfl
  · intro low x y nonzero
    exact mul_quotient_cancel low nonzero x

end Limits

end Tower

namespace Number

open TensorCalculus.Outcome

variable {K : Type} [Field K] {k : Nat} {x y : Number K}

theorem holding_value (size : x.components.length = 2 ^ k) : x.holding size (x.value k) = x :=
  holding_self size (components_eq_value size)

theorem div_eq_holding_value (size : x.components.length = 2 ^ k) (same : x.algebra = y.algebra) :
    x.div y = .ok (x.holding size ((x.value k).quotient (y.value k))) := by
  have size' : y.components.length = 2 ^ k := length_of_same_algebra size same
  have right := components_eq_value size'
  rw [div, checkSameAlgebra, dif_pos same, ok_bind, conjugate_eq_holding size' right, ok_bind,
    product_eq_holding size (components_eq_value size) (components_holding ..), ok_bind,
    normSquared_eq_normSq right,
    divideBy_holding, pure_eq_ok, Tower.quotient]

theorem div_of_algebra_ne (differ : x.algebra ≠ y.algebra) :
    x.div y = .error (.algebra (.differing "divide" x.algebra.name y.algebra.name)) := by
  rw [div, checkSameAlgebra, dif_neg differ, error_bind]

/-- In the dimensions one, two, four and eight a quotient times its divisor is the dividend, and a
product divided by its second factor is the first one, if the norm of the divisor is not zero. In
every algebra of the tower a quotient is the product with the inverse of the divisor. Numbers of
different algebras have neither a quotient nor a product. -/
theorem div_undoes_mul :
    (x.algebra = y.algebra → x.dimension ∈ [1, 2, 4, 8] → y.normSquared ≠ 0 →
      (∃ quotient, x.div y = .ok quotient ∧ quotient.mul y = .ok x) ∧
        ∃ product, x.mul y = .ok product ∧ product.div y = .ok x) ∧
      (x.algebra = y.algebra → x.dimension = 2 ^ k →
        ∃ y' quotient, y.inverse = .ok y' ∧ x.div y = .ok quotient ∧ x.mul y' = .ok quotient) ∧
      (x.algebra ≠ y.algebra → y.dimension = 2 ^ k →
        ∃ y', y.inverse = .ok y' ∧ (∃ fault, x.div y = .error (.algebra fault)) ∧
          ∃ fault, x.mul y' = .error (.algebra fault)) := by
  refine ⟨fun same dimension nonzero => ?_, fun same dimension => ?_, fun differ size' => ?_⟩
  · obtain ⟨k, low, size⟩ := exists_level 4 dimension
    have size' : y.components.length = 2 ^ k := length_of_same_algebra size same
    rw [normSquared_eq_normSq (components_eq_value size')] at nonzero
    have held := length_holding x size
    constructor
    · refine ⟨_, div_eq_holding_value size same, ?_⟩
      rw [mul_eq_holding_value (held _) same, value_holding,
        Tower.quotient_mul_cancel (by omega) nonzero]
      exact congrArg _ (holding_value size)
    · refine ⟨_, mul_eq_holding_value size same, ?_⟩
      rw [div_eq_holding_value (held _) same, value_holding,
        Tower.mul_quotient_cancel (by omega) nonzero]
      exact congrArg _ (holding_value size)
  · have size : x.components.length = 2 ^ k := dimension
    have size' : y.components.length = 2 ^ k := length_of_same_algebra size same
    have multiplied := mul_eq_holding_value (y := y.holding size' (y.value k).inverse) size same
    rw [value_holding, ← Tower.quotient_eq_mul_inverse] at multiplied
    exact ⟨_, _, inverse_eq_holding size' (components_eq_value size'),
      div_eq_holding_value size same, multiplied⟩
  · have inverted := inverse_eq_holding size' (components_eq_value size')
    exact ⟨_, inverted, ⟨_, div_of_algebra_ne differ⟩, ⟨_, mul_of_algebra_ne differ⟩⟩

theorem div_undoes_mul_octonions :
    firstOctonion.algebra = secondOctonion.algebra ∧ firstOctonion.dimension ∈ [1, 2, 4, 8] ∧
      secondOctonion.normSquared ≠ 0 ∧
      (∃ quotient, firstOctonion.div secondOctonion = .ok quotient ∧
        quotient.mul secondOctonion = .ok firstOctonion) ∧
      (∃ product, firstOctonion.mul secondOctonion = .ok product ∧
        product.div secondOctonion = .ok firstOctonion) ∧
      (zeroDivisor.dimension = 2 ^ 4 ∧ ∃ y' quotient, fullSedenion.inverse = .ok y' ∧
        zeroDivisor.div fullSedenion = .ok quotient ∧ zeroDivisor.mul y' = .ok quotient) ∧
      firstOctonion.algebra ≠ zeroDivisor.algebra ∧
      ∃ fault, firstOctonion.div zeroDivisor = .error (.algebra fault) := by
  have dimension : firstOctonion.dimension ∈ [1, 2, 4, 8] := by decide
  have nonzero : secondOctonion.normSquared ≠ 0 := by decide +kernel
  have differ : firstOctonion.algebra ≠ zeroDivisor.algebra := by decide
  obtain ⟨undone, -, -⟩ := div_undoes_mul (k := 3) (x := firstOctonion) (y := secondOctonion)
  obtain ⟨-, inverted, -⟩ := div_undoes_mul (k := 4) (x := zeroDivisor) (y := fullSedenion)
  obtain ⟨-, -, refused⟩ := div_undoes_mul (k := 4) (x := firstOctonion) (y := zeroDivisor)
  obtain ⟨quotient, product⟩ := undone rfl dimension nonzero
  obtain ⟨-, -, noQuotient, -⟩ := refused differ rfl
  exact ⟨rfl, dimension, nonzero, quotient, product, ⟨rfl, inverted rfl rfl⟩, differ, noQuotient⟩

end Number

end TensorCalculus
