import TensorCalculus.Proofs.Tower.Norm

/-!
# The real part

The first component of a value is its real part. A value and its conjugate add up to twice the real
part, conjugation reverses products, and the real part of a product depends neither on the order of
the factors nor on how they are grouped, although the product itself depends on both. The norm is
the real part of a value times its conjugate. -/

namespace TensorCalculus.Tower

section Group

variable {R : Type} {k : Nat}

def re : {k : Nat} → Tower R k → R
  | _, scalar x => x
  | _, pair a _ => re a

@[simp]
theorem re_scalar (x : R) : (scalar x).re = x := rfl

@[simp]
theorem re_pair (a b : Tower R k) : (pair a b).re = a.re := rfl

variable [AddCommGroup R]

@[simp]
theorem re_zero : (0 : Tower R k).re = 0 := by
  induction k with
  | zero => rfl
  | succ k ih => exact ih

@[simp]
theorem re_add (x y : Tower R k) : (x + y).re = x.re + y.re := by
  induction x with
  | scalar x =>
    cases y
    rfl
  | pair a b iha =>
    cases y
    exact iha _

@[simp]
theorem re_neg (x : Tower R k) : (-x).re = -x.re := by
  induction x with
  | scalar x => rfl
  | pair a b iha => exact iha

@[simp]
theorem re_sub (x y : Tower R k) : (x - y).re = x.re - y.re := by
  rw [sub_eq_add_neg, re_add, re_neg, sub_eq_add_neg]

@[simp]
theorem re_conj (x : Tower R k) : x.conj.re = x.re := by
  induction x with
  | scalar x => rfl
  | pair a b iha => exact iha

@[simp]
theorem conj_zero : (0 : Tower R k).conj = 0 := by
  simpa using conj_add (0 : Tower R k) 0

theorem conj_sub (x y : Tower R k) : (x - y).conj = x.conj - y.conj := by
  rw [sub_eq_add_neg, conj_add, conj_neg, sub_eq_add_neg]

end Group

variable {R : Type} [CommRing R] {k : Nat}

@[simp]
theorem re_ofScalar (r : R) : (ofScalar k r).re = r := by
  induction k with
  | zero => rfl
  | succ k ih => exact ih

@[simp]
theorem conj_ofScalar (r : R) : (ofScalar k r).conj = ofScalar k r := by
  induction k with
  | zero => rfl
  | succ k ih => simp [ofScalar, ih]

theorem add_conj (x : Tower R k) : x + x.conj = ofScalar k (2 * x.re) := by
  induction x with
  | scalar x => simp [ofScalar, two_mul]
  | pair a b iha => simp [ofScalar, iha]

theorem conj_eq_sub (x : Tower R k) : x.conj = ofScalar k (2 * x.re) - x :=
  eq_sub_of_add_eq' (add_conj x)

theorem mul_ofScalar (x : Tower R k) (r : R) : x * ofScalar k r = r • x := by
  induction x with
  | scalar x => simp [ofScalar, mul_comm]
  | pair a b iha ihb => simp [ofScalar, iha, ihb]

theorem conj_mul (x y : Tower R k) : (x * y).conj = y.conj * x.conj := by
  induction k with
  | zero =>
    cases x
    cases y
    simp [mul_comm]
  | succ k ih =>
    cases x with
    | pair a b =>
      cases y with
      | pair c d =>
        simp only [pair_mul, conj_pair, conj_sub, conj_neg, conj_conj, ih, neg_mul, mul_neg,
          neg_neg, neg_add]
        congr 1
        abel

theorem ofScalar_mul (r : R) (x : Tower R k) : ofScalar k r * x = r • x := by
  rw [← conj_conj (ofScalar k r * x), conj_mul, conj_ofScalar, mul_ofScalar, conj_smul, conj_conj]

theorem re_mul_comm (x y : Tower R k) : (x * y).re = (y * x).re := by
  induction k with
  | zero =>
    cases x
    cases y
    exact mul_comm ..
  | succ k ih =>
    cases x with
    | pair a b =>
      cases y with
      | pair c d =>
        have turned : (d.conj * b).re = (b.conj * d).re := by
          rw [← re_conj, conj_mul, conj_conj]
        simp [ih a c, turned]

/-- Three of the four terms have to be turned around, factor by factor, before they can be
compared. -/
theorem re_mul_assoc (x y z : Tower R k) : (x * y * z).re = (x * (y * z)).re := by
  induction k with
  | zero =>
    cases x
    cases y
    cases z
    exact mul_assoc ..
  | succ k ih =>
    have turn (u v w : Tower R k) : (u * (v * w)).re = (w * (u * v)).re := by
      rw [← ih, re_mul_comm]
    cases x with
    | pair a b =>
      cases y with
      | pair c d =>
        cases z with
        | pair e f =>
          have first : (a * c * e).re = (a * (c * e)).re := ih a c e
          have second : (d.conj * b * e).re = (e * d.conj * b).re := by
            rw [ih, turn, ih]
          have third : (f.conj * (d * a)).re = (a * (f.conj * d)).re := turn ..
          have fourth : (f.conj * (b * c.conj)).re = (c.conj * f.conj * b).re := by
            rw [turn, ih]
          simp only [pair_mul, re_pair, re_sub, re_add, sub_mul, mul_sub, add_mul, mul_add,
            conj_add, conj_mul, conj_conj, first, second, third, fourth]
          abel

section Norm

theorem normSq_eq_re (x : Tower R k) : x.normSq = (x * x.conj).re := by
  rw [x.mul_conj_and_conj_mul.1, re_ofScalar]

@[simp]
theorem normSq_zero : (0 : Tower R k).normSq = 0 := by
  simp [normSq_eq_re]

theorem normSq_conj (x : Tower R k) : x.conj.normSq = x.normSq := by
  rw [normSq_eq_re, normSq_eq_re, conj_conj, re_mul_comm]

theorem normSq_add (x y : Tower R k) :
    (x + y).normSq = x.normSq + 2 * (x * y.conj).re + y.normSq := by
  have turned : (y * x.conj).re = (x * y.conj).re := by
    rw [← re_conj, conj_mul, conj_conj]
  simp only [normSq_eq_re, conj_add, add_mul, mul_add, re_add, turned]
  ring

theorem normSq_neg (x : Tower R k) : (-x).normSq = x.normSq := by
  rw [normSq_eq_re, normSq_eq_re, conj_neg, neg_mul_neg]

end Norm

end TensorCalculus.Tower
