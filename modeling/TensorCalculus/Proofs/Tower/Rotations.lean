import TensorCalculus.Proofs.Tower.Composition
import TensorCalculus.Proofs.Tower.Conjugation
import TensorCalculus.Tower.Rotation

/-!
# Rotations

A unit quaternion turns a vector, taken as an imaginary quaternion, by standing on its left and its
conjugate on its right. The rotation matrix does the same to the components. As a matrix is known
from what it does to all vectors, the laws of the matrices follow from those of the product:
products of quaternions go to products of matrices, and the conjugate goes to the transpose, which
therefore is the inverse. -/

namespace TensorCalculus

-- Powers of natural numbers are those of `Nat.pow`, as in the definitions.
attribute [local instance (2000)] instPowNat

open Matrix

/-- A matrix as it is written down, row by row. -/
def rowsOf {R : Type} (m : Matrix (Fin 3) (Fin 3) R) : List (List R) :=
  List.ofFn fun i => List.ofFn (m i)

namespace Tower

variable {R : Type}

def quaternion (w x y z : R) : Tower R 2 :=
  pair (pair (scalar w) (scalar x)) (pair (scalar y) (scalar z))

theorem exists_eq_quaternion (q : Tower R 2) : ∃ w x y z, q = quaternion w x y z := by
  cases q with
  | pair a b =>
    cases a with
    | pair w x =>
      cases b with
      | pair y z =>
        cases w
        cases x
        cases y
        cases z
        exact ⟨_, _, _, _, rfl⟩

variable [CommRing R]

/-- The vector `v` as an imaginary quaternion. -/
def ofVector (v : Fin 3 → R) : Tower R 2 :=
  quaternion 0 (v 0) (v 1) (v 2)

theorem ofVector_injective : Function.Injective (ofVector : (Fin 3 → R) → Tower R 2) := by
  intro u v same
  simp only [ofVector, quaternion, pair.injEq, scalar.injEq] at same
  obtain ⟨⟨-, first⟩, second, third⟩ := same
  funext i
  fin_cases i
  · exact first
  · exact second
  · exact third

theorem toList_ofVector (v : Fin 3 → R) : (ofVector v).toList = 0 :: List.ofFn v := by
  simp [ofVector, quaternion, toList, List.ofFn_succ]

theorem conj_quaternion (w x y z : R) : (quaternion w x y z).conj = quaternion w (-x) (-y) (-z) :=
  rfl

theorem normSq_quaternion (w x y z : R) :
    (quaternion w x y z).normSq = w * w + x * x + (y * y + z * z) := rfl

theorem quaternion_mul (w x y z w' x' y' z' : R) :
    quaternion w x y z * quaternion w' x' y' z' =
      quaternion (w * w' - x * x' - y * y' - z * z') (w * x' + x * w' + y * z' - z * y')
        (w * y' - x * z' + y * w' + z * x') (w * z' + x * y' - y * x' + z * w') := by
  simp only [quaternion, pair_mul, scalar_mul, conj_pair, conj_scalar, neg_scalar, pair_sub,
    pair_add, scalar_sub, scalar_add]
  congr 2 <;> congr 1 <;> ring

/-- The matrix that is written down from the components of a quaternion. -/
def rotation (q : Tower R 2) : Matrix (Fin 3) (Fin 3) R :=
  match q.toList with
  | [w, x, y, z] => Matrix.of fun i j => ((Number.rotationRows w x y z).getD i []).getD j 0
  | _ => 0

theorem rotation_quaternion (w x y z : R) :
    (quaternion w x y z).rotation =
      !![1 - (1 + 1) * (y * y + z * z), (1 + 1) * (x * y - w * z), (1 + 1) * (x * z + w * y);
         (1 + 1) * (x * y + w * z), 1 - (1 + 1) * (x * x + z * z), (1 + 1) * (y * z - w * x);
         (1 + 1) * (x * z - w * y), (1 + 1) * (y * z + w * x), 1 - (1 + 1) * (x * x + y * y)] := by
  ext i j
  fin_cases i <;> fin_cases j <;> rfl

/-- The entries of both sides differ by multiples of the norm less one. -/
theorem mul_ofVector_mul_conj {q : Tower R 2} (unit : q.normSq = 1) (v : Fin 3 → R) :
    q * ofVector v * q.conj = ofVector (q.rotation *ᵥ v) := by
  obtain ⟨w, x, y, z, rfl⟩ := exists_eq_quaternion q
  rw [normSq_quaternion] at unit
  rw [conj_quaternion, ofVector, quaternion_mul, quaternion_mul, ofVector, rotation_quaternion]
  simp only [mulVec, dotProduct, Fin.sum_univ_three, of_apply, cons_val', cons_val_zero,
    cons_val_one, cons_val, cons_val_fin_one, quaternion, pair.injEq, scalar.injEq]
  -- The real part vanishes for every quaternion; only the three others need the norm.
  refine ⟨⟨?_, ?_⟩, ?_, ?_⟩
  · ring
  · linear_combination v 0 * unit
  · linear_combination v 1 * unit
  · linear_combination v 2 * unit

/-- A matrix is known from the vectors to which it turns the vectors of the axes. -/
theorem eq_of_ofVector_mulVec {m n : Matrix (Fin 3) (Fin 3) R}
    (same : ∀ v, ofVector (m *ᵥ v) = ofVector (n *ᵥ v)) : m = n := by
  apply ext_of_mulVec_single
  intro i
  exact ofVector_injective (same _)

theorem rotation_mul {p q : Tower R 2} (unit : p.normSq = 1) (unit' : q.normSq = 1) :
    (p * q).rotation = p.rotation * q.rotation := by
  have assoc := mul_assoc_of_le_two (R := R) (k := 2) le_rfl
  have unit'' : (p * q).normSq = 1 := by
    rw [normSq_mul_of_le_three (by decide), unit, unit', one_mul]
  apply eq_of_ofVector_mulVec
  intro v
  calc
    ofVector ((p * q).rotation *ᵥ v) = p * q * ofVector v * (p * q).conj :=
      (mul_ofVector_mul_conj unit'' v).symm
    _ = p * (q * ofVector v * q.conj) * p.conj := by
      rw [conj_mul, assoc p q, assoc p, assoc p, assoc _ q.conj]
    _ = ofVector (p.rotation *ᵥ q.rotation *ᵥ v) := by
      rw [mul_ofVector_mul_conj unit', mul_ofVector_mul_conj unit]
    _ = ofVector ((p.rotation * q.rotation) *ᵥ v) := by rw [mulVec_mulVec]

theorem rotation_conj (q : Tower R 2) : q.conj.rotation = q.rotationᵀ := by
  obtain ⟨w, x, y, z, rfl⟩ := exists_eq_quaternion q
  rw [conj_quaternion, rotation_quaternion, rotation_quaternion]
  ext i j
  fin_cases i <;> fin_cases j <;> simp <;> ring

theorem rotation_one : (ofScalar 2 (1 : R)).rotation = 1 := by
  have parts : ofScalar 2 (1 : R) = quaternion 1 0 0 0 := rfl
  rw [parts, rotation_quaternion]
  ext i j
  fin_cases i <;> fin_cases j <;> simp

section Unit

variable {q : Tower R 2} (unit : q.normSq = 1)
include unit

theorem rotation_mul_transpose : q.rotation * q.rotationᵀ = 1 := by
  have unit' : q.conj.normSq = 1 := by
    rw [normSq_conj, unit]
  rw [← rotation_conj, ← rotation_mul unit unit', q.mul_conj_and_conj_mul.1, unit, rotation_one]

/-- A rotation is no reflection. -/
theorem det_rotation : q.rotation.det = 1 := by
  obtain ⟨w, x, y, z, rfl⟩ := exists_eq_quaternion q
  rw [normSq_quaternion] at unit
  rw [rotation_quaternion, det_fin_three]
  simp only [of_apply, cons_val', cons_val_zero, cons_val_one, cons_val, cons_val_fin_one]
  linear_combination 4 * (x * x + y * y + z * z) * unit

end Unit

end Tower

namespace Number

variable {R : Type} [CommRing R]

theorem rotationMatrix_eq_rowsOf {q : Number R} {a : Tower R 2} (parts : q.components = a.toList) :
    q.rotationMatrix? = some (rowsOf a.rotation) := by
  obtain ⟨w, x, y, z, rfl⟩ := Tower.exists_eq_quaternion a
  rw [rotationMatrix?, parts]
  rfl

/-- The matrix of a unit quaternion turns vectors as the quaternion does: the product of the
quaternion, the vector as an imaginary quaternion and the conjugate, in either grouping, has zero in
front and the matrix times the vector behind it. The matrix of a product is the product of the
matrices, the transpose of a matrix is its inverse, and its determinant is one. -/
theorem rotations_follow_products {p q : Number R} (dimension : p.dimension = 4)
    (same : p.algebra = q.algebra) (unit : p.normSquared = 1) (unit' : q.normSquared = 1) :
    ∃ P Q : Matrix (Fin 3) (Fin 3) R, p.rotationMatrix? = some (rowsOf P) ∧
      q.rotationMatrix? = some (rowsOf Q) ∧
      (∀ v : Fin 3 → R, ∃ c left right, conjugateOfList q.components = .ok c ∧
        productOfLists q.components (0 :: List.ofFn v) = .ok left ∧
        productOfLists (0 :: List.ofFn v) c = .ok right ∧
        productOfLists left c = .ok (0 :: List.ofFn (Q *ᵥ v)) ∧
        productOfLists q.components right = .ok (0 :: List.ofFn (Q *ᵥ v))) ∧
      (∃ pq, p.mul q = .ok pq ∧ pq.rotationMatrix? = some (rowsOf (P * Q))) ∧ Q * Qᵀ = 1 ∧
        Q.det = 1 := by
  have size : p.components.length = 2 ^ 2 := dimension
  obtain ⟨a, left⟩ := Tower.exists_eq_toList size
  obtain ⟨b, right⟩ := Tower.exists_eq_toList (length_of_same_algebra size same)
  rw [normSquared_eq_normSq left] at unit
  rw [normSquared_eq_normSq right] at unit'
  refine ⟨a.rotation, b.rotation, rotationMatrix_eq_rowsOf left,
    rotationMatrix_eq_rowsOf right, fun v => ?_, ?_, Tower.rotation_mul_transpose unit',
    Tower.det_rotation unit'⟩
  · rw [right, ← Tower.toList_ofVector, ← Tower.toList_ofVector,
      ← Tower.mul_ofVector_mul_conj unit']
    refine ⟨_, _, _, conjugateOfList_toList b, productOfLists_toList _ _, productOfLists_toList _ _,
      productOfLists_toList _ _, ?_⟩
    rw [productOfLists_toList, Tower.mul_assoc_of_le_two le_rfl]
  · refine ⟨_, mul_eq_holding size left right same, ?_⟩
    rw [rotationMatrix_eq_rowsOf (components_holding ..), Tower.rotation_mul unit unit']

/-- The quaternion of a rotation around the first axis. -/
def tilt : Number ℚ :=
  ⟨.quaternion, .quaternion, [3 / 5, 4 / 5, 0, 0], rfl⟩

/-- The quaternion of the rotation that takes each axis to the next one. -/
def cycle : Number ℚ :=
  ⟨.quaternion, .quaternion, [1 / 2, 1 / 2, 1 / 2, 1 / 2], rfl⟩

theorem rotations_follow_products_tilt :
    tilt.dimension = 4 ∧ tilt.algebra = cycle.algebra ∧ tilt.normSquared = 1 ∧
      cycle.normSquared = 1 ∧
      ∃ P Q : Matrix (Fin 3) (Fin 3) ℚ, tilt.rotationMatrix? = some (rowsOf P) ∧
        cycle.rotationMatrix? = some (rowsOf Q) ∧
        (∃ product, tilt.mul cycle = .ok product ∧
          product.rotationMatrix? = some (rowsOf (P * Q))) ∧ Q * Qᵀ = 1 := by
  have unit : tilt.normSquared = 1 := by decide +kernel
  have unit' : cycle.normSquared = 1 := by decide +kernel
  obtain ⟨P, Q, first, second, -, product, inverse, -⟩ :=
    rotations_follow_products (p := tilt) (q := cycle) rfl
      rfl unit unit'
  exact ⟨rfl, rfl, unit, unit', P, Q, first, second, product, inverse⟩

end Number

end TensorCalculus
