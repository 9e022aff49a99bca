import TensorCalculus.Proofs.Outcome
import TensorCalculus.Proofs.Tower.Ring
import TensorCalculus.Tower.Number

/-!
# The norm

A value times its conjugate, in either order, is the sum of its squared components. This needs
neither commutativity nor associativity, so it holds on every level, and dividing the conjugate by
the norm gives an inverse on both sides even where there are zero divisors. -/

namespace TensorCalculus

-- Powers of natural numbers are those of `Nat.pow`, as in the definitions.
attribute [local instance (2000)] instPowNat

namespace Tower

section Lists

variable {R : Type} {k : Nat}

theorem toList_zero [AddCommGroup R] (k : Nat) :
    (0 : Tower R k).toList = List.replicate (2 ^ k) 0 := by
  induction k with
  | zero => rfl
  | succ k ih => simp [zero_eq_pair, toList, ih, Nat.pow_succ, Nat.mul_two]

theorem toList_injective [Zero R] : Function.Injective (toList : Tower R k → List R) := by
  intro x y same
  rw [← ofList_toList x, same, ofList_toList]

theorem exists_eq_toList {xs : List R} (size : xs.length = 2 ^ k) :
    ∃ x : Tower R k, xs = x.toList := by
  induction k generalizing xs with
  | zero =>
    obtain ⟨x, rfl⟩ := List.length_eq_one_iff.1 size
    exact ⟨scalar x, rfl⟩
  | succ k ih =>
    rw [Nat.pow_succ] at size
    have first : (xs.take (2 ^ k)).length = 2 ^ k := by simp; omega
    have second : (xs.drop (2 ^ k)).length = 2 ^ k := by simp; omega
    obtain ⟨a, front⟩ := ih first
    obtain ⟨b, back⟩ := ih second
    exact ⟨pair a b, by rw [toList, ← front, ← back, List.take_append_drop]⟩

theorem toList_add [AddCommGroup R] (x y : Tower R k) :
    (x + y).toList = List.zipWith (· + ·) x.toList y.toList := by
  induction x with
  | scalar x =>
    cases y
    rfl
  | pair a b iha ihb =>
    cases y with
    | pair c d => simp [toList, iha, ihb, List.zipWith_append]

theorem toList_sub [AddCommGroup R] (x y : Tower R k) :
    (x - y).toList = List.zipWith (· - ·) x.toList y.toList := by
  induction x with
  | scalar x =>
    cases y
    rfl
  | pair a b iha ihb =>
    cases y with
    | pair c d => simp [toList, iha, ihb, List.zipWith_append]

end Lists

variable {R : Type} [CommRing R] {k : Nat}

/-- The value with a given first component and zeros behind it. -/
def ofScalar : (k : Nat) → R → Tower R k
  | 0, r => scalar r
  | k + 1, r => pair (ofScalar k r) 0

def normSq : {k : Nat} → Tower R k → R
  | _, scalar x => x * x
  | _, pair a b => normSq a + normSq b

@[simp]
theorem ofScalar_zero : ofScalar k (0 : R) = 0 := by
  induction k with
  | zero => rfl
  | succ k ih => simp [ofScalar, ih, zero_eq_pair]

theorem ofScalar_add (r s : R) : ofScalar k (r + s) = ofScalar k r + ofScalar k s := by
  induction k with
  | zero => rfl
  | succ k ih => simp [ofScalar, ih]

theorem smul_ofScalar (r s : R) : r • ofScalar k s = ofScalar k (r * s) := by
  induction k with
  | zero => rfl
  | succ k ih => simp [ofScalar, ih]

theorem toList_ofScalar (r : R) : (ofScalar k r).toList = r :: List.replicate (2 ^ k - 1) 0 := by
  induction k with
  | zero => rfl
  | succ k ih =>
    have size : 2 ^ (k + 1) - 1 = 2 ^ k - 1 + 2 ^ k := by
      have := Nat.two_pow_pos k
      omega
    simp [ofScalar, toList, ih, toList_zero, size]

theorem toList_smul (r : R) (x : Tower R k) : (r • x).toList = x.toList.map (r * ·) := by
  rw [smul_def, toList_map]

/-- In each half of the product with the conjugate one half of the norm is left, and the cross terms
cancel. The first half needs the identity with the factors in both orders. -/
theorem mul_conj_and_conj_mul (x : Tower R k) :
    x * x.conj = ofScalar k x.normSq ∧ x.conj * x = ofScalar k x.normSq := by
  induction x with
  | scalar x => exact ⟨rfl, rfl⟩
  | @pair k a b iha ihb =>
    obtain ⟨right, left⟩ := iha
    obtain ⟨-, behind⟩ := ihb
    have summed : pair (ofScalar k a.normSq + ofScalar k b.normSq) 0 =
        ofScalar (k + 1) (pair a b).normSq := by
      rw [normSq, ofScalar, ofScalar_add]
    constructor
    · calc
        pair a b * (pair a b).conj = pair (a * a.conj - (-b).conj * b) (-b * a + b * a.conj.conj) :=
          rfl
        _ = pair (a * a.conj + b.conj * b) 0 := by
          rw [conj_neg, neg_mul, sub_neg_eq_add, conj_conj, neg_mul, neg_add_cancel]
        _ = _ := by rw [right, behind, summed]
    · calc
        (pair a b).conj * pair a b = pair (a.conj * a - b.conj * -b) (b * a.conj + -b * a.conj) :=
          rfl
        _ = pair (a.conj * a + b.conj * b) 0 := by
          rw [mul_neg, sub_neg_eq_add, neg_mul, add_neg_cancel]
        _ = _ := by rw [left, behind, summed]

theorem foldl_toList_eq_normSq (x : Tower R k) (start : R) :
    x.toList.foldl (fun total c => total + c * c) start = start + x.normSq := by
  induction x generalizing start with
  | scalar x => rfl
  | pair a b iha ihb => simp [toList, normSq, iha, ihb, add_assoc]

theorem normSq_eq_sum (x : Tower R k) : x.normSq = (x.toList.map fun c => c * c).sum := by
  induction x with
  | scalar x => simp [toList, normSq]
  | pair a b iha ihb => simp [toList, normSq, iha, ihb]

end Tower

namespace Number

open TensorCalculus.Outcome

section Components

variable {α : Type} {k : Nat}

/-- The number with the components of a value of its level. -/
def holding (x : Number α) (size : x.components.length = 2 ^ k) (a : Tower α k) : Number α :=
  x.withComponents a.toList (by simp [size])

@[simp]
theorem components_holding (x : Number α) (size : x.components.length = 2 ^ k) (a : Tower α k) :
    (x.holding size a).components = a.toList := rfl

@[simp]
theorem algebra_holding (x : Number α) (size : x.components.length = 2 ^ k) (a : Tower α k) :
    (x.holding size a).algebra = x.algebra := rfl

theorem length_of_same_algebra {x y : Number α} (size : x.components.length = 2 ^ k)
    (same : x.algebra = y.algebra) : y.components.length = 2 ^ k :=
  (length_eq_of_algebra_eq same).symm.trans size

end Components

section Products

variable {R : Type} [CommRing R] {k : Nat}

theorem conjugateOfList_toList (a : Tower R k) : conjugateOfList a.toList = .ok a.conj.toList := by
  obtain ⟨c, cs, parts⟩ := List.exists_cons_of_ne_nil a.toList_ne_nil
  rw [Tower.toList_conj, parts]
  rfl

theorem productOfLists_toList (a b : Tower R k) :
    productOfLists a.toList b.toList = .ok (a * b).toList := by
  rw [productOfLists, Tower.length_toList, level?_two_pow]
  simp only [Tower.ofList_toList]
  rfl

variable {x y : Number R} {a b : Tower R k} (size : x.components.length = 2 ^ k)

theorem conjugate_eq_holding (parts : x.components = a.toList) :
    x.conjugate = .ok (x.holding size a.conj) := by
  have found := conjugateOfList_toList a
  rw [← parts] at found
  unfold conjugate
  split
  next fault failed => rw [found] at failed; cases failed
  next components same =>
    rw [found] at same
    cases same
    rfl

theorem product_eq_holding (left : x.components = a.toList) (right : y.components = b.toList) :
    x.product y = .ok (x.holding size (a * b)) := by
  have found := productOfLists_toList a b
  rw [← left, ← right] at found
  rw [product]
  split
  next fault failed => rw [found] at failed; cases failed
  next components equal =>
    rw [found] at equal
    cases equal
    rfl

theorem mul_eq_holding (left : x.components = a.toList) (right : y.components = b.toList)
    (same : x.algebra = y.algebra) : x.mul y = .ok (x.holding size (a * b)) := by
  rw [mul, checkSameAlgebra, dif_pos same, ok_bind, product_eq_holding size left right]

theorem add_eq_holding (left : x.components = a.toList) (right : y.components = b.toList)
    (same : x.algebra = y.algebra) : x.add y = .ok (x.holding size (a + b)) := by
  rw [add, checkSameAlgebra, dif_pos same, ok_bind]
  simp only [holding, zipComponents, left, right, Tower.toList_add]
  rfl

theorem sub_eq_holding (left : x.components = a.toList) (right : y.components = b.toList)
    (same : x.algebra = y.algebra) : x.sub y = .ok (x.holding size (a - b)) := by
  rw [sub, checkSameAlgebra, dif_pos same, ok_bind]
  simp only [holding, zipComponents, left, right, Tower.toList_sub]
  rfl

theorem normSquared_eq_normSq (parts : x.components = a.toList) : x.normSquared = a.normSq := by
  rw [normSquared, parts, Tower.foldl_toList_eq_normSq, zero_add]

end Products

section Inverse

variable {K : Type} [Field K] {k : Nat}

theorem divideBy_holding (x : Number K) (size : x.components.length = 2 ^ k) (a : Tower K k)
    (divisor : K) : (x.holding size a).divideBy divisor = x.holding size (divisor⁻¹ • a) := by
  have divided : (divisor⁻¹ • a).toList = a.toList.map (· / divisor) := by
    rw [Tower.toList_smul]
    exact List.map_congr_left fun c _ => inv_mul_eq_div divisor c
  simp only [holding, divided]
  rfl

theorem inverse_eq_holding {x : Number K} {a : Tower K k} (size : x.components.length = 2 ^ k)
    (parts : x.components = a.toList) : x.inverse = .ok (x.holding size (a.normSq⁻¹ • a.conj)) := by
  rw [inverse, conjugate_eq_holding size parts, ok_bind, normSquared_eq_normSq parts,
    divideBy_holding, pure_eq_ok]

/-- A number times its conjugate, in either order, has its norm in front and zeros behind, in every
dimension. Hence a number whose norm is not zero has an inverse on both sides. -/
theorem mul_conjugate_eq_normSquared {x : Number K} (size : x.components.length = 2 ^ k) :
    x.normSquared = (x.components.map fun c => c * c).sum ∧
      (∃ c, x.conjugate = .ok c ∧
        productOfLists x.components c.components =
          .ok (x.normSquared :: List.replicate (2 ^ k - 1) 0) ∧
        productOfLists c.components x.components =
          .ok (x.normSquared :: List.replicate (2 ^ k - 1) 0)) ∧
      (x.normSquared ≠ 0 → ∃ y one, x.inverse = .ok y ∧ x.mul y = .ok one ∧ y.mul x = .ok one ∧
        one.algebra = x.algebra ∧ one.components = 1 :: List.replicate (2 ^ k - 1) 0) := by
  obtain ⟨a, parts⟩ := Tower.exists_eq_toList size
  obtain ⟨right, left⟩ := a.mul_conj_and_conj_mul
  have norm := normSquared_eq_normSq parts
  refine ⟨?_, ⟨_, conjugate_eq_holding size parts, ?_, ?_⟩, fun nonzero => ?_⟩
  · rw [norm, Tower.normSq_eq_sum, parts]
  · rw [components_holding, parts, productOfLists_toList, right, Tower.toList_ofScalar, norm]
  · rw [components_holding, parts, productOfLists_toList, left, Tower.toList_ofScalar, norm]
  · rw [norm] at nonzero
    have size' : (x.holding size (a.normSq⁻¹ • a.conj)).components.length = 2 ^ k := by simp
    refine ⟨_, x.holding size (Tower.ofScalar k 1), inverse_eq_holding size parts, ?_, ?_, rfl, ?_⟩
    · rw [mul_eq_holding size parts (components_holding ..) rfl, mul_smul_comm, right,
        Tower.smul_ofScalar, inv_mul_cancel₀ nonzero]
    · rw [mul_eq_holding size' (components_holding ..) parts rfl, smul_mul_assoc, left,
        Tower.smul_ofScalar, inv_mul_cancel₀ nonzero]
      rfl
    · exact Tower.toList_ofScalar 1

end Inverse

/-- A sum of two basis numbers of dimension sixteen, which is a zero divisor: its product with the
difference of the fourth and the fifteenth one vanishes. -/
def zeroDivisor : Number ℚ :=
  ⟨.sedenion, .sedenion, [0, 1, 0, 0, 0, 0, 0, 0, 0, 0, 1, 0, 0, 0, 0, 0], rfl⟩

theorem mul_conjugate_eq_normSquared_zeroDivisor :
    zeroDivisor.components.length = 2 ^ 4 ∧ zeroDivisor.normSquared ≠ 0 ∧
      ∃ y one, zeroDivisor.inverse = .ok y ∧ zeroDivisor.mul y = .ok one ∧
        y.mul zeroDivisor = .ok one ∧ one.components = 1 :: List.replicate 15 0 := by
  have nonzero : zeroDivisor.normSquared ≠ 0 := by decide +kernel
  obtain ⟨-, -, inverts⟩ := @mul_conjugate_eq_normSquared ℚ _ 4 zeroDivisor rfl
  obtain ⟨y, one, found, right, left, -, parts⟩ := inverts nonzero
  exact ⟨rfl, nonzero, y, one, found, right, left, parts⟩

end Number

end TensorCalculus
