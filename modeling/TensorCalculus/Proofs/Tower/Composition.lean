import TensorCalculus.Proofs.Tower.RealPart

/-!
# Norms of products

Each doubling loses a law: pairs commute when the level below is commutative and conjugation does
nothing there, they associate when the level below is commutative and associative, and the norm is
multiplicative on pairs when it is so below and the level below is associative. Hence the norm of a
product is the product of the norms in the dimensions one, two, four and eight, and in no other
one. -/

namespace TensorCalculus

-- Powers of natural numbers are those of `Nat.pow`, as in the definitions.
attribute [local instance (2000)] instPowNat

namespace Tower

section Doubling

variable {R : Type} [CommRing R] {k : Nat}

theorem mul_comm_of_conj_eq (still : ∀ x : Tower R k, x.conj = x)
    (comm : ∀ x y : Tower R k, x * y = y * x) (x y : Tower R (k + 1)) : x * y = y * x := by
  cases x with
  | pair a b =>
    cases y with
    | pair c d =>
      simp only [pair_mul, still]
      rw [comm a c, comm d b, comm d a, comm b c, add_comm (a * d)]

theorem mul_assoc_of_mul_comm (comm : ∀ x y : Tower R k, x * y = y * x)
    (assoc : ∀ x y z : Tower R k, x * y * z = x * (y * z)) (x y z : Tower R (k + 1)) :
    x * y * z = x * (y * z) := by
  have swap (a b c : Tower R k) : a * (b * c) = b * (a * c) := by
    rw [← assoc, comm a b, assoc]
  cases x with
  | pair a b =>
    cases y with
    | pair c d =>
      cases z with
      | pair e f =>
        simp only [pair_mul, conj_sub, conj_add, conj_mul, conj_conj, sub_mul, mul_sub, add_mul,
          mul_add]
        -- In both halves the same products stand on both sides, their factors in some order.
        simp only [assoc, comm, swap]
        congr 1 <;> abel

/-- The cross terms of the two halves cancel: up to a turn they are the real parts of one product of
four factors, grouped in two ways. -/
theorem normSq_mul_of_mul_assoc (assoc : ∀ x y z : Tower R k, x * y * z = x * (y * z))
    (norm : ∀ x y : Tower R k, (x * y).normSq = x.normSq * y.normSq) (x y : Tower R (k + 1)) :
    (x * y).normSq = x.normSq * y.normSq := by
  cases x with
  | pair a b =>
    cases y with
    | pair c d =>
      have cross : (a * c * (d.conj * b).conj).re = (d * a * (b * c.conj).conj).re := by
        calc
          (a * c * (d.conj * b).conj).re = (a * c * (b.conj * d)).re := by rw [conj_mul, conj_conj]
          _ = (b.conj * (d * (a * c))).re := by rw [re_mul_comm, re_mul_assoc]
          _ = (b.conj * (d * a * c)).re := by rw [assoc]
          _ = (d * a * (c * b.conj)).re := by rw [re_mul_comm, re_mul_assoc]
          _ = (d * a * (b * c.conj).conj).re := by rw [conj_mul, conj_conj]
      calc
        (pair a b * pair c d).normSq = (a * c - d.conj * b).normSq + (d * a + b * c.conj).normSq :=
          rfl
        _ = (a * c).normSq + (d.conj * b).normSq + (d * a).normSq + (b * c.conj).normSq := by
          rw [sub_eq_add_neg, normSq_add, normSq_add, normSq_neg, conj_neg, mul_neg, re_neg, cross]
          ring
        _ = (a.normSq + b.normSq) * (c.normSq + d.normSq) := by
          simp only [norm, normSq_conj]
          ring

end Doubling

section Levels

variable {R : Type} [CommRing R]

theorem conj_eq_of_level_zero (x : Tower R 0) : x.conj = x := by
  cases x
  rfl

theorem mul_comm_of_le_one {k : Nat} (low : k ≤ 1) (x y : Tower R k) : x * y = y * x := by
  induction k with
  | zero =>
    cases x
    cases y
    simp [mul_comm]
  | succ k ih =>
    obtain rfl : k = 0 := by omega
    exact mul_comm_of_conj_eq conj_eq_of_level_zero (ih (by omega)) x y

theorem mul_assoc_of_le_two {k : Nat} (low : k ≤ 2) (x y z : Tower R k) :
    x * y * z = x * (y * z) := by
  induction k with
  | zero =>
    cases x
    cases y
    cases z
    simp [mul_assoc]
  | succ k ih => exact mul_assoc_of_mul_comm (mul_comm_of_le_one (by omega)) (ih (by omega)) x y z

theorem normSq_mul_of_le_three {k : Nat} (low : k ≤ 3) (x y : Tower R k) :
    (x * y).normSq = x.normSq * y.normSq := by
  induction k with
  | zero =>
    cases x
    cases y
    exact mul_mul_mul_comm ..
  | succ k ih => exact normSq_mul_of_mul_assoc (mul_assoc_of_le_two (by omega)) (ih (by omega)) x y

/-- Two values that are not zero, though their product is. -/
def Annihilate {k : Nat} (x y : Tower ℚ k) : Prop :=
  x.normSq ≠ 0 ∧ y.normSq ≠ 0 ∧ x * y = 0

/-- Sums of two basis values of the fourth level annihilate each other, and each level above holds
the level below. -/
theorem exists_annihilate {k : Nat} (high : 4 ≤ k) : ∃ x y : Tower ℚ k, Annihilate x y := by
  induction k, high using Nat.le_induction with
  | base =>
    refine ⟨ofList 4 Number.zeroDivisor.components,
      ofList 4 [0, 0, 0, 0, 1, 0, 0, 0, 0, 0, 0, 0, 0, 0, 0, -1], ?_, ?_, ?_⟩
    · decide +kernel
    · decide +kernel
    · apply toList_injective
      rw [toList_zero]
      decide +kernel
  | succ k _ ih =>
    obtain ⟨x, y, left, right, vanish⟩ := ih
    refine ⟨pair x 0, pair y 0, ?_, ?_, ?_⟩
    · rwa [normSq, normSq_zero, add_zero]
    · rwa [normSq, normSq_zero, add_zero]
    · simp [vanish, zero_eq_pair]

/-- The norm is multiplicative on the first four levels and on no other one. -/
theorem normSq_mul_iff_le_three (k : Nat) :
    (∀ x y : Tower ℚ k, (x * y).normSq = x.normSq * y.normSq) ↔ k ≤ 3 := by
  constructor
  · intro multiplicative
    by_contra high
    obtain ⟨x, y, left, right, vanish⟩ := exists_annihilate (k := k) (by omega)
    have zero : (x * y).normSq = 0 := by
      rw [vanish, normSq_zero]
    rw [multiplicative] at zero
    exact mul_ne_zero left right zero
  · intro low
    exact normSq_mul_of_le_three low

end Levels

end Tower

namespace Number

/-- In the dimensions one, two, four and eight two numbers of one algebra have a product, and its
norm is the product of their norms. -/
theorem normSquared_mul {R : Type} [CommRing R] {x y : Number R}
    (dimension : x.dimension ∈ [1, 2, 4, 8]) (same : x.algebra = y.algebra) :
    ∃ z, x.mul y = .ok z ∧ z.algebra = x.algebra ∧
      z.normSquared = x.normSquared * y.normSquared := by
  obtain ⟨k, low, size⟩ : ∃ k, k ≤ 3 ∧ x.components.length = 2 ^ k := by
    change x.components.length ∈ [1, 2, 4, 8] at dimension
    simp only [List.mem_cons, List.not_mem_nil, or_false] at dimension
    rcases dimension with one | two | four | eight
    · exact ⟨0, by decide, one⟩
    · exact ⟨1, by decide, two⟩
    · exact ⟨2, by decide, four⟩
    · exact ⟨3, by decide, eight⟩
  obtain ⟨a, left⟩ := Tower.exists_eq_toList size
  obtain ⟨b, right⟩ := Tower.exists_eq_toList ((length_eq_of_algebra_eq same).symm.trans size)
  refine ⟨x.holding size (a * b), mul_eq_holding size left right same, rfl, ?_⟩
  rw [normSquared_eq_normSq (components_holding ..), normSquared_eq_normSq left,
    normSquared_eq_normSq right, Tower.normSq_mul_of_le_three low]

def firstOctonion : Number ℚ :=
  ⟨.octonion, .octonion, [1, -2, 3, 0, 5, 1 / 2, 0, -1], rfl⟩

def secondOctonion : Number ℚ :=
  ⟨.octonion, .octonion, [0, 4, 0, -7, 1, 0, 2 / 3, 3], rfl⟩

theorem normSquared_mul_octonions :
    firstOctonion.dimension ∈ [1, 2, 4, 8] ∧ firstOctonion.algebra = secondOctonion.algebra ∧
      ∃ z, firstOctonion.mul secondOctonion = .ok z ∧
        z.normSquared = firstOctonion.normSquared * secondOctonion.normSquared := by
  have dimension : firstOctonion.dimension ∈ [1, 2, 4, 8] := by decide
  obtain ⟨z, found, -, norm⟩ := normSquared_mul (y := secondOctonion) dimension rfl
  exact ⟨dimension, rfl, z, found, norm⟩

end Number

end TensorCalculus
