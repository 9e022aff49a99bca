import TensorCalculus.Proofs.Tower.RealPart

/-!
# Basis values

A basis value has one component that is one, and zeros elsewhere. Its index, bit by bit, says in
which half of each level the one stands. Up to the sign a product of basis values is the basis value
whose index is the exclusive or of both indices: the product of two halves of the same kind stands
in the first half, that of different kinds in the second. All basis values but the one at index zero
are imaginary, so their squares are minus one and different ones anticommute. -/

namespace TensorCalculus

-- Powers of natural numbers are those of `Nat.pow`, as in the definitions.
attribute [local instance (2000)] instPowNat

section Indices

variable {i j k : Nat}

/-- A bit above all bits of a number is set by adding it. -/
theorem two_pow_add_eq_xor (below : i < 2 ^ k) : 2 ^ k + i = 2 ^ k ^^^ i := by
  have joined := Nat.two_pow_add_eq_or_of_lt below 1
  rw [mul_one] at joined
  rw [joined]
  apply Nat.eq_of_testBit_eq
  intro bit
  rw [Nat.testBit_or, Nat.testBit_xor, Nat.testBit_two_pow]
  by_cases top : k = bit
  · subst top
    simp [Nat.testBit_lt_two_pow below]
  · simp [top]

theorem two_pow_add_xor (hi : i < 2 ^ k) (hj : j < 2 ^ k) :
    (2 ^ k + i) ^^^ j = 2 ^ k + (i ^^^ j) := by
  rw [two_pow_add_eq_xor hi, two_pow_add_eq_xor (Nat.xor_lt_two_pow hi hj), Nat.xor_assoc]

theorem two_pow_add_xor_two_pow_add (hi : i < 2 ^ k) (hj : j < 2 ^ k) :
    (2 ^ k + i) ^^^ (2 ^ k + j) = i ^^^ j := by
  rw [two_pow_add_eq_xor hi, two_pow_add_eq_xor hj, Nat.xor_comm (2 ^ k) i,
    Nat.xor_assoc, ← Nat.xor_assoc (2 ^ k), Nat.xor_self, Nat.zero_xor]

/-- An index points into the first half or into the second one. -/
theorem lt_or_exists_two_pow_add (below : i < 2 ^ (k + 1)) :
    i < 2 ^ k ∨ ∃ l, l < 2 ^ k ∧ i = 2 ^ k + l := by
  rw [Nat.pow_succ] at below
  by_cases low : i < 2 ^ k
  · exact .inl low
  · exact .inr ⟨i - 2 ^ k, by omega, by omega⟩

end Indices

namespace Tower

section Signs

variable {R : Type} [CommRing R] {k : Nat}

/-- Whether two values are the same up to the sign. -/
def UpToSign (x y : Tower R k) : Prop :=
  x = y ∨ x = -y

namespace UpToSign

variable {x y z : Tower R k}

theorem refl (x : Tower R k) : UpToSign x x :=
  .inl rfl

theorem neg (same : UpToSign x y) : UpToSign (-x) y := by
  rcases same with rfl | rfl
  · exact .inr rfl
  · exact .inl (neg_neg y)

theorem trans (same : UpToSign x y) (same' : UpToSign y z) : UpToSign x z := by
  rcases same with rfl | rfl
  · exact same'
  · exact same'.neg

/-- What passes a sign through keeps values that are the same up to the sign. -/
theorem map {l : Nat} (f : Tower R k → Tower R l) (odd : ∀ x, f (-x) = -f x) (same : UpToSign x y) :
    UpToSign (f x) (f y) := by
  rcases same with rfl | rfl
  · exact refl _
  · exact .inr (odd y)

theorem mul_left (same : UpToSign x y) (z : Tower R k) : UpToSign (z * x) (z * y) :=
  same.map (z * ·) (mul_neg z)

theorem mul_right (same : UpToSign x y) (z : Tower R k) : UpToSign (x * z) (y * z) :=
  same.map (· * z) fun x => neg_mul x z

theorem front (same : UpToSign x y) : UpToSign (pair x 0) (pair y 0) :=
  same.map (pair · 0) fun x => by simp

theorem back (same : UpToSign x y) : UpToSign (pair 0 x) (pair 0 y) :=
  same.map (pair 0 ·) fun x => by simp

end UpToSign

end Signs

section Imaginary

variable {R : Type} [CommRing R] {k : Nat} {x y : Tower R k}

theorem conj_of_re_eq_zero (imaginary : x.re = 0) : x.conj = -x := by
  rw [conj_eq_sub, imaginary, mul_zero, ofScalar_zero, zero_sub]

theorem mul_self_of_re_eq_zero (imaginary : x.re = 0) : x * x = -ofScalar k x.normSq := by
  rw [← x.mul_conj_and_conj_mul.1, conj_of_re_eq_zero imaginary, mul_neg, neg_neg]

/-- Imaginary values whose product is imaginary anticommute, as conjugation turns the product
around. -/
theorem mul_anticomm_of_re_eq_zero (left : x.re = 0) (right : y.re = 0) (product : (x * y).re = 0) :
    y * x = -(x * y) := by
  calc
    y * x = y.conj * x.conj := by
      rw [conj_of_re_eq_zero left, conj_of_re_eq_zero right, neg_mul_neg]
    _ = (x * y).conj := (conj_mul x y).symm
    _ = -(x * y) := conj_of_re_eq_zero product

end Imaginary

section Basis

variable {R : Type} [CommRing R] {i j k : Nat}

/-- The value that has a one at a given index and zeros elsewhere. -/
def basis : (k : Nat) → Nat → Tower R k
  | 0, _ => scalar 1
  | k + 1, i => if i < 2 ^ k then pair (basis k i) 0 else pair 0 (basis k (i - 2 ^ k))

theorem basis_of_lt (low : i < 2 ^ k) :
    (basis (k + 1) i : Tower R (k + 1)) = pair (basis k i) 0 := by
  rw [basis, if_pos low]

theorem basis_two_pow_add (i : Nat) :
    (basis (k + 1) (2 ^ k + i) : Tower R (k + 1)) = pair 0 (basis k i) := by
  rw [basis, if_neg (by omega), Nat.add_sub_cancel_left]

theorem toList_basis (below : i < 2 ^ k) :
    (basis k i : Tower R k).toList = (List.replicate (2 ^ k) 0).set i 1 := by
  induction k generalizing i with
  | zero =>
    obtain rfl : i = 0 := by simpa using below
    rfl
  | succ k ih =>
    have halves : List.replicate (2 ^ (k + 1)) (0 : R) = List.replicate (2 ^ k) 0 ++
        List.replicate (2 ^ k) 0 := by
      rw [Nat.pow_succ, Nat.mul_two, List.replicate_add]
    rw [halves]
    rcases lt_or_exists_two_pow_add below with low | ⟨l, low, rfl⟩
    · rw [basis_of_lt low, toList, ih low, toList_zero,
        List.set_append_left _ _ (by simpa using low)]
    · rw [basis_two_pow_add, toList, ih low, toList_zero, List.set_append_right _ _ (by simp),
        List.length_replicate, Nat.add_sub_cancel_left]

theorem basis_zero (k : Nat) : (basis k 0 : Tower R k) = ofScalar k 1 := by
  induction k with
  | zero => rfl
  | succ k ih => rw [basis_of_lt (Nat.two_pow_pos k), ih, ofScalar]

theorem re_basis (below : i < 2 ^ k) (behind : i ≠ 0) : (basis k i : Tower R k).re = 0 := by
  induction k with
  | zero =>
    rw [Nat.pow_zero] at below
    omega
  | succ k ih =>
    rcases lt_or_exists_two_pow_add below with low | ⟨l, -, rfl⟩
    · rw [basis_of_lt low, re_pair, ih low]
    · rw [basis_two_pow_add, re_pair, re_zero]

theorem normSq_basis (below : i < 2 ^ k) : (basis k i : Tower R k).normSq = 1 := by
  induction k generalizing i with
  | zero => exact mul_one 1
  | succ k ih =>
    rcases lt_or_exists_two_pow_add below with low | ⟨l, low, rfl⟩
    · rw [basis_of_lt low, normSq, ih low, normSq_zero, add_zero]
    · rw [basis_two_pow_add, normSq, ih low, normSq_zero, zero_add]

theorem conj_basis (below : i < 2 ^ k) : UpToSign (basis k i : Tower R k).conj (basis k i) := by
  by_cases first : i = 0
  · subst first
    rw [basis_zero, conj_ofScalar]
    exact .refl _
  · exact .inr (conj_of_re_eq_zero (re_basis below first))

theorem basis_mul_basis (hi : i < 2 ^ k) (hj : j < 2 ^ k) :
    UpToSign (basis k i * basis k j : Tower R k) (basis k (i ^^^ j)) := by
  induction k generalizing i j with
  | zero => exact .inl (by simp [basis])
  | succ k ih =>
    -- One case for each half in which the ones of the two factors stand. A second half turns the
    -- smaller product around or conjugates one of its factors, which costs at most the sign.
    rcases lt_or_exists_two_pow_add hi with low | ⟨l, low, rfl⟩
    · rcases lt_or_exists_two_pow_add hj with low' | ⟨m, low', rfl⟩
      · have product : (basis (k + 1) i * basis (k + 1) j : Tower R (k + 1)) =
            pair (basis k i * basis k j) 0 := by
          simp [basis_of_lt low, basis_of_lt low']
        rw [product, basis_of_lt (Nat.xor_lt_two_pow low low')]
        exact (ih low low').front
      · have product : (basis (k + 1) i * basis (k + 1) (2 ^ k + m) : Tower R (k + 1)) =
            pair 0 (basis k m * basis k i) := by
          simp [basis_of_lt low, basis_two_pow_add]
        rw [product, Nat.xor_comm, two_pow_add_xor low' low, basis_two_pow_add]
        exact (ih low' low).back
    · rcases lt_or_exists_two_pow_add hj with low' | ⟨m, low', rfl⟩
      · have product : (basis (k + 1) (2 ^ k + l) * basis (k + 1) j : Tower R (k + 1)) =
            pair 0 (basis k l * (basis k j).conj) := by
          simp [basis_of_lt low', basis_two_pow_add]
        rw [product, two_pow_add_xor low low', basis_two_pow_add]
        exact (((conj_basis low').mul_left _).trans (ih low low')).back
      · have product : (basis (k + 1) (2 ^ k + l) * basis (k + 1) (2 ^ k + m) : Tower R (k + 1)) =
            pair (-((basis k m).conj * basis k l)) 0 := by
          simp [basis_two_pow_add]
        rw [product, two_pow_add_xor_two_pow_add low low',
          basis_of_lt (Nat.xor_lt_two_pow low low'), Nat.xor_comm]
        exact (((conj_basis low').mul_right _).trans (ih low' low)).neg.front

theorem basis_mul_self (below : i < 2 ^ k) (behind : i ≠ 0) :
    (basis k i * basis k i : Tower R k) = -basis k 0 := by
  rw [mul_self_of_re_eq_zero (re_basis below behind), normSq_basis below, basis_zero]

theorem basis_anticomm (hi : i < 2 ^ k) (hj : j < 2 ^ k) (behind : i ≠ 0) (behind' : j ≠ 0)
    (differ : i ≠ j) : (basis k j * basis k i : Tower R k) = -(basis k i * basis k j) := by
  have apart : i ^^^ j ≠ 0 := fun zero => differ (Nat.xor_eq_zero_iff.1 zero)
  have imaginary : (basis k (i ^^^ j) : Tower R k).re = 0 :=
    re_basis (Nat.xor_lt_two_pow hi hj) apart
  have product : (basis k i * basis k j : Tower R k).re = 0 := by
    rcases basis_mul_basis (R := R) hi hj with same | same
    · rw [same, imaginary]
    · rw [same, re_neg, imaginary, neg_zero]
  exact mul_anticomm_of_re_eq_zero (re_basis hi behind) (re_basis hj behind') product

end Basis

end Tower

namespace Number

variable {R : Type} [CommRing R] {i j k : Nat}

/-- Zeros but for a one at a given index. -/
def basisComponents (k i : Nat) : List R :=
  (List.replicate (2 ^ k) 0).set i 1

/-- The product of two basis numbers is plus or minus the basis number whose index is the exclusive
or of their indices. All but the first one have the square minus one, and in the other order two
different ones of these have the negative product. -/
theorem basis_products (hi : i < 2 ^ k) (hj : j < 2 ^ k) :
    ∃ product : List R, productOfLists (basisComponents k i) (basisComponents k j) = .ok product ∧
      (product = basisComponents k (i ^^^ j) ∨ product = (basisComponents k (i ^^^ j)).map (-·)) ∧
      (1 ≤ i → i = j → product = (basisComponents k 0).map (-·)) ∧
      (1 ≤ i → 1 ≤ j → i ≠ j →
        productOfLists (basisComponents k j) (basisComponents k i) = .ok (product.map (-·))) := by
  have toList_neg (x : Tower R k) : (-x).toList = x.toList.map (-·) := Tower.toList_map _ x
  have parts {l : Nat} (below : l < 2 ^ k) :
      basisComponents k l = (Tower.basis k l : Tower R k).toList :=
    (Tower.toList_basis below).symm
  rw [parts hi, parts hj, parts (Nat.xor_lt_two_pow hi hj), parts (Nat.two_pow_pos k)]
  refine ⟨_, productOfLists_toList _ _, ?_, ?_, ?_⟩
  · rcases Tower.basis_mul_basis (R := R) hi hj with same | same
    · exact .inl (by rw [same])
    · exact .inr (by rw [same, toList_neg])
  · rintro behind rfl
    rw [Tower.basis_mul_self hi (by omega), toList_neg]
  · intro behind behind' differ
    rw [productOfLists_toList, Tower.basis_anticomm hi hj (by omega) (by omega) differ, toList_neg]

theorem basis_products_octonions :
    3 < 2 ^ 3 ∧ 5 < 2 ^ 3 ∧
      ∃ product : List ℚ, productOfLists (basisComponents 3 3) (basisComponents 3 5) = .ok product ∧
        (product = basisComponents 3 6 ∨ product = (basisComponents 3 6).map (-·)) ∧
        productOfLists (basisComponents 3 5) (basisComponents 3 3) = .ok (product.map (-·)) := by
  obtain ⟨product, found, signed, -, turned⟩ :=
    basis_products (R := ℚ) (i := 3) (j := 5) (k := 3) (by decide) (by decide)
  exact ⟨by decide, by decide, product, found, signed, turned (by decide) (by decide) (by decide)⟩

example : (productOfLists (basisComponents 2 1) (basisComponents 2 2)).toOption =
    some (basisComponents 2 3 : List ℤ) := by
  decide +kernel

end Number

end TensorCalculus
