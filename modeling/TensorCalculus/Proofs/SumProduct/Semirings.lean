import TensorCalculus.Proofs.Contraction.Denotation

/-!
# Sums and products that form a semiring

Reachability, counting and shortest paths obey the laws of a commutative semiring, and storing one
of their values and reading it back loses nothing. The contraction loop then adds up products in
that semiring, although every cell goes through storage after each addition. -/

namespace TensorCalculus.SumProduct

open TensorCalculus.Outcome

variable {σ : Type}

/-- The laws of a commutative semiring, with a way of storing values that can be undone. -/
structure Exact (s : SumProduct σ) (encode : s.Carrier → σ) : Prop where
  add_assoc : ∀ a b c, s.add (s.add a b) c = s.add a (s.add b c)
  add_comm : ∀ a b, s.add a b = s.add b a
  zero_add : ∀ a, s.add s.zero a = a
  mul_assoc : ∀ a b c, s.mul (s.mul a b) c = s.mul a (s.mul b c)
  mul_comm : ∀ a b, s.mul a b = s.mul b a
  one_mul : ∀ a, s.mul s.one a = a
  zero_mul : ∀ a, s.mul s.zero a = s.zero
  mul_add : ∀ a b c, s.mul a (s.add b c) = s.add (s.mul a b) (s.mul a c)
  lower_eq : ∀ a, s.lower a = .ok (encode a)
  lift_encode : ∀ a, s.lift (encode a) = a

namespace Exact

variable {s : SumProduct σ} {encode : s.Carrier → σ}

@[reducible]
def semiring (exact : s.Exact encode) : CommSemiring s.Carrier where
  add := s.add
  zero := s.zero
  mul := s.mul
  one := s.one
  nsmul := @nsmulRec _ ⟨s.zero⟩ ⟨s.add⟩
  npow := @npowRec _ ⟨s.one⟩ ⟨s.mul⟩
  add_assoc := exact.add_assoc
  zero_add := exact.zero_add
  add_zero := fun a => (exact.add_comm a s.zero).trans (exact.zero_add a)
  add_comm := exact.add_comm
  left_distrib := exact.mul_add
  right_distrib := fun a b c => by
    change s.mul (s.add a b) c = s.add (s.mul a c) (s.mul b c)
    rw [exact.mul_comm, exact.mul_add, exact.mul_comm c a, exact.mul_comm c b]
  zero_mul := exact.zero_mul
  mul_zero := fun a => (exact.mul_comm a s.zero).trans (exact.zero_mul a)
  mul_assoc := exact.mul_assoc
  one_mul := exact.one_mul
  mul_one := fun a => (exact.mul_comm a s.one).trans (exact.one_mul a)
  mul_comm := exact.mul_comm

end Exact

theorem backend_exact {s : SumProduct σ} {encode : s.Carrier → σ} (exact : s.Exact encode) :
    letI := exact.semiring
    s.backend.Exact s.lift fun k => .ok (encode k) :=
  letI := exact.semiring
  { blank_eq := exact.lower_eq s.zero
    combine_eq := fun values => by
      have from_ :
          ∀ k, values.foldl (fun product x => s.mul product (s.lift x)) k =
            k * (values.map s.lift).prod := by
        induction values with
        | nil => exact fun k => (mul_one k).symm
        | cons x values ih =>
          intro k
          rw [List.foldl_cons, ih, List.map_cons, List.prod_cons, ← mul_assoc]
          rfl
      exact (from_ s.one).trans (one_mul _)
    accumulate_eq := fun k x => by
      change s.lower (s.add (s.lift (encode k)) x) = .ok (encode (s.add k x))
      rw [exact.lift_encode, exact.lower_eq] }

section Boolean

variable [Zero σ] [One σ] [LT σ] [DecidableLT σ]

/-- How a truth value is stored. -/
def ofTruth (b : Bool) : σ :=
  if b then 1 else 0

theorem boolean_exact (positive : (0 : σ) < 1) (irreflexive : ¬ (0 : σ) < 0) :
    (boolean : SumProduct σ).Exact ofTruth where
  add_assoc := Bool.or_assoc
  add_comm := Bool.or_comm
  zero_add := Bool.false_or
  mul_assoc := Bool.and_assoc
  mul_comm := Bool.and_comm
  one_mul := Bool.true_and
  zero_mul := Bool.false_and
  mul_add := Bool.and_or_distrib_left
  lower_eq _ := rfl
  lift_encode b := by
    cases b
    · exact decide_eq_false irreflexive
    · exact decide_eq_true positive

end Boolean

theorem counting_exact [CommSemiring σ] : (counting : SumProduct σ).Exact id where
  add_assoc (a b c : σ) := add_assoc a b c
  add_comm (a b : σ) := add_comm a b
  zero_add (a : σ) := zero_add a
  mul_assoc (a b c : σ) := mul_assoc a b c
  mul_comm (a b : σ) := mul_comm a b
  one_mul (a : σ) := one_mul a
  zero_mul (a : σ) := zero_mul a
  mul_add (a b c : σ) := mul_add a b c
  lower_eq _ := rfl
  lift_encode _ := rfl

section MinPlus

theorem lesser_eq_min {α : Type} [LinearOrder α] (a b : α) : lesser a b = min a b := by
  rw [lesser, min_def]
  by_cases less : b < a
  · rw [if_pos less, if_neg (not_le.2 less)]
  · rw [if_neg less, if_pos (not_lt.1 less)]

/-- Lengths that may be infinite. -/
theorem minPlus_exact {K : Type} [AddCommMonoid K] [LinearOrder K] [IsOrderedAddMonoid K] :
    (minPlus (⊤ : WithTop K)).Exact id where
  add_assoc (a b c : WithTop K) := by
    change lesser (lesser a b) c = lesser a (lesser b c)
    simp only [lesser_eq_min, min_assoc]
  add_comm (a b : WithTop K) := by
    change lesser a b = lesser b a
    simp only [lesser_eq_min, min_comm]
  zero_add (a : WithTop K) := by
    change lesser ⊤ a = a
    rw [lesser_eq_min, min_eq_right le_top]
  mul_assoc (a b c : WithTop K) := add_assoc a b c
  mul_comm (a b : WithTop K) := add_comm a b
  one_mul (a : WithTop K) := zero_add a
  zero_mul (a : WithTop K) := WithTop.top_add a
  mul_add (a b c : WithTop K) := by
    change a + lesser b c = lesser (a + b) (a + c)
    simp only [lesser_eq_min, min_add_add_left]
  lower_eq _ := rfl
  lift_encode _ := rfl

end MinPlus

end TensorCalculus.SumProduct
