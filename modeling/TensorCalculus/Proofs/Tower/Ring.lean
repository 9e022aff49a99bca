import Mathlib
import TensorCalculus.Tower.Basic

/-!
# Levels of the tower as algebras

Over a commutative ring every level of the tower is an algebra, though in general neither a
commutative nor an associative one. Sums and multiples are taken component by component, and
conjugation respects both. -/

namespace TensorCalculus.Tower

section Group

variable {R : Type} [AddCommGroup R] {k : Nat}

def zero : (k : Nat) → Tower R k
  | 0 => scalar 0
  | k + 1 => pair (zero k) (zero k)

instance : Zero (Tower R k) := ⟨zero k⟩

instance : Add (Tower R k) := ⟨add⟩

instance : Neg (Tower R k) := ⟨neg⟩

instance : Sub (Tower R k) := ⟨sub⟩

theorem zero_eq_scalar : (0 : Tower R 0) = scalar 0 := rfl

theorem zero_eq_pair : (0 : Tower R (k + 1)) = pair 0 0 := rfl

@[simp]
theorem scalar_add (x y : R) : scalar x + scalar y = scalar (x + y) := rfl

@[simp]
theorem pair_add (a b c d : Tower R k) : pair a b + pair c d = pair (a + c) (b + d) := rfl

@[simp]
theorem neg_scalar (x : R) : -scalar x = scalar (-x) := rfl

@[simp]
theorem neg_pair (a b : Tower R k) : -pair a b = pair (-a) (-b) := rfl

@[simp]
theorem scalar_sub (x y : R) : scalar x - scalar y = scalar (x - y) := rfl

@[simp]
theorem pair_sub (a b c d : Tower R k) : pair a b - pair c d = pair (a - c) (b - d) := rfl

instance : AddCommGroup (Tower R k) where
  add_assoc x y z := by
    induction x with
    | scalar x =>
      cases y
      cases z
      simp [add_assoc]
    | pair a b iha ihb =>
      cases y
      cases z
      simp [iha, ihb]
  zero_add x := by
    induction x with
    | scalar x => simp [zero_eq_scalar]
    | pair a b iha ihb => simp [zero_eq_pair, iha, ihb]
  add_zero x := by
    induction x with
    | scalar x => simp [zero_eq_scalar]
    | pair a b iha ihb => simp [zero_eq_pair, iha, ihb]
  add_comm x y := by
    induction x with
    | scalar x =>
      cases y
      simp [add_comm]
    | pair a b iha ihb =>
      cases y with
      | pair c d => simp [iha c, ihb d]
  neg_add_cancel x := by
    induction x with
    | scalar x => simp [zero_eq_scalar]
    | pair a b iha ihb => simp [zero_eq_pair, iha, ihb]
  sub_eq_add_neg x y := by
    induction x with
    | scalar x =>
      cases y
      simp [sub_eq_add_neg]
    | pair a b iha ihb =>
      cases y
      simp [iha, ihb]
  nsmul := nsmulRec
  zsmul := zsmulRec

@[simp]
theorem conj_scalar (x : R) : (scalar x).conj = scalar x := rfl

@[simp]
theorem conj_pair (a b : Tower R k) : (pair a b).conj = pair a.conj (-b) := rfl

@[simp]
theorem conj_conj (x : Tower R k) : x.conj.conj = x := by
  induction x with
  | scalar x => rfl
  | pair a b iha => simp [iha]

theorem conj_add (x y : Tower R k) : (x + y).conj = x.conj + y.conj := by
  induction x with
  | scalar x =>
    cases y
    rfl
  | pair a b iha =>
    cases y
    simp [iha, neg_add_rev, add_comm]

theorem conj_neg (x : Tower R k) : (-x).conj = -x.conj := by
  induction x with
  | scalar x => rfl
  | pair a b iha => simp [iha]

end Group

section Ring

variable {R : Type} [CommRing R] {k : Nat}

instance : Mul (Tower R k) := ⟨mul⟩

@[simp]
theorem scalar_mul (x y : R) : scalar x * scalar y = scalar (x * y) := rfl

@[simp]
theorem pair_mul (a b c d : Tower R k) :
    pair a b * pair c d = pair (a * c - d.conj * b) (d * a + b * c.conj) := rfl

/-- The product of a pair mixes left and right factors, so both laws are proved at once. -/
theorem mul_add_and_add_mul (k : Nat) : (∀ x y z : Tower R k, x * (y + z) = x * y + x * z) ∧
    ∀ x y z : Tower R k, (x + y) * z = x * z + y * z := by
  induction k with
  | zero =>
    refine ⟨fun x y z => ?_, fun x y z => ?_⟩
    · cases x
      cases y
      cases z
      simp [mul_add]
    · cases x
      cases y
      cases z
      simp [add_mul]
  | succ k ih =>
    obtain ⟨left, right⟩ := ih
    refine ⟨fun x y z => ?_, fun x y z => ?_⟩
    · cases x
      cases y
      cases z
      simp only [pair_add, pair_mul, conj_add, left, right]
      congr 1 <;> abel
    · cases x
      cases y
      cases z
      simp only [pair_add, pair_mul, left, right]
      congr 1 <;> abel

theorem mul_zero_and_zero_mul (k : Nat) : (∀ x : Tower R k, x * 0 = 0) ∧
    ∀ x : Tower R k, 0 * x = 0 := by
  obtain ⟨left, right⟩ := mul_add_and_add_mul (R := R) k
  refine ⟨fun x => ?_, fun x => ?_⟩
  · have twice := left x 0 0
    rwa [add_zero, left_eq_add] at twice
  · have twice := right 0 0 x
    rwa [add_zero, left_eq_add] at twice

instance : NonUnitalNonAssocRing (Tower R k) where
  left_distrib := (mul_add_and_add_mul k).1
  right_distrib := (mul_add_and_add_mul k).2
  mul_zero := (mul_zero_and_zero_mul k).1
  zero_mul := (mul_zero_and_zero_mul k).2

instance : SMul R (Tower R k) := ⟨fun r x => x.map (r * ·)⟩

theorem smul_def (r : R) (x : Tower R k) : r • x = x.map (r * ·) := rfl

@[simp]
theorem smul_scalar (r x : R) : r • scalar x = scalar (r * x) := rfl

@[simp]
theorem smul_pair (r : R) (a b : Tower R k) : r • pair a b = pair (r • a) (r • b) := rfl

instance : Module R (Tower R k) where
  one_smul x := by
    induction x with
    | scalar x => simp
    | pair a b iha ihb => simp [iha, ihb]
  mul_smul r s x := by
    induction x with
    | scalar x => simp [mul_assoc]
    | pair a b iha ihb => simp [iha, ihb]
  smul_zero r := by
    induction k with
    | zero => simp [zero_eq_scalar]
    | succ k ih => simp [zero_eq_pair, ih]
  smul_add r x y := by
    induction x with
    | scalar x =>
      cases y
      simp [mul_add]
    | pair a b iha ihb =>
      cases y
      simp [iha, ihb]
  add_smul r s x := by
    induction x with
    | scalar x => simp [add_mul]
    | pair a b iha ihb => simp [iha, ihb]
  zero_smul x := by
    induction x with
    | scalar x => simp [zero_eq_scalar]
    | pair a b iha ihb => simp [zero_eq_pair, iha, ihb]

theorem conj_smul (r : R) (x : Tower R k) : (r • x).conj = r • x.conj := by
  induction x with
  | scalar x => rfl
  | pair a b iha => simp [iha]

/-- As with sums, multiples pass through both factors at once. -/
theorem mul_smul_and_smul_mul (k : Nat) (r : R) : (∀ x y : Tower R k, x * r • y = r • (x * y)) ∧
    ∀ x y : Tower R k, r • x * y = r • (x * y) := by
  induction k with
  | zero =>
    refine ⟨fun x y => ?_, fun x y => ?_⟩
    · cases x
      cases y
      simp [mul_left_comm]
    · cases x
      cases y
      simp [mul_assoc]
  | succ k ih =>
    obtain ⟨right, left⟩ := ih
    refine ⟨fun x y => ?_, fun x y => ?_⟩
    · cases x
      cases y
      simp [conj_smul, right, left, smul_sub]
    · cases x
      cases y
      simp [right, left, smul_sub]

instance : SMulCommClass R (Tower R k) (Tower R k) where
  smul_comm r x y := ((mul_smul_and_smul_mul k r).1 x y).symm

instance : IsScalarTower R (Tower R k) (Tower R k) where
  smul_assoc r x y := (mul_smul_and_smul_mul k r).2 x y

end Ring

end TensorCalculus.Tower
