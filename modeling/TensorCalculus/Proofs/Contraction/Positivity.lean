import TensorCalculus.Proofs.Contraction.Denotation

/-!
# What is above zero

A sum of numbers that are not negative is above zero when one of them is, and a product when all of
them are. The same is said of truth values by or and and, so that both are treated as one: a part of
a semiring in which some values count as positive. From there the question goes through sums over
symbols and products over factors. -/

namespace TensorCalculus

open Factor

/-- What counts as positive in a semiring, provided that nothing is added or multiplied but what is
admitted. -/
structure Positivity {K : Type} [CommSemiring K] (Admits Positive : K → Prop) : Prop where
  admits_zero : Admits 0
  admits_one : Admits 1
  admits_add : ∀ {a b}, Admits a → Admits b → Admits (a + b)
  admits_mul : ∀ {a b}, Admits a → Admits b → Admits (a * b)
  not_positive_zero : ¬ Positive 0
  positive_one : Positive 1
  positive_add_iff : ∀ {a b}, Admits a → Admits b → (Positive (a + b) ↔ Positive a ∨ Positive b)
  positive_mul_iff : ∀ {a b}, Admits a → Admits b → (Positive (a * b) ↔ Positive a ∧ Positive b)

namespace Positivity

/-- Numbers that are not negative. -/
theorem nonnegative {K : Type} [CommSemiring K] [LinearOrder K] [IsStrictOrderedRing K] :
    Positivity (K := K) (0 ≤ ·) (0 < ·) where
  admits_zero := le_rfl
  admits_one := zero_le_one
  admits_add := add_nonneg
  admits_mul := mul_nonneg
  not_positive_zero := lt_irrefl 0
  positive_one := zero_lt_one
  positive_add_iff ha hb := by
    constructor
    · intro positive
      by_contra neither
      rw [not_or, not_lt, not_lt] at neither
      exact absurd positive (not_lt.2 (add_nonpos neither.1 neither.2))
    · rintro (first | second)
      · exact add_pos_of_pos_of_nonneg first hb
      · exact add_pos_of_nonneg_of_pos ha second
  positive_mul_iff ha hb := by
    constructor
    · intro positive
      exact ⟨lt_of_le_of_ne ha (left_ne_zero_of_mul positive.ne').symm,
        lt_of_le_of_ne hb (right_ne_zero_of_mul positive.ne').symm⟩
    · rintro ⟨first, second⟩
      exact mul_pos first second

variable {K : Type} [CommSemiring K] {Admits Positive : K → Prop}
  (positivity : Positivity Admits Positive)
include positivity

theorem sum_range {n : Nat} {f : Nat → K} (admitted : ∀ i < n, Admits (f i)) :
    Admits (∑ i ∈ Finset.range n, f i) ∧
      (Positive (∑ i ∈ Finset.range n, f i) ↔ ∃ i < n, Positive (f i)) := by
  induction n with
  | zero => exact ⟨positivity.admits_zero, by simpa using positivity.not_positive_zero⟩
  | succ n ih =>
    have last := admitted n (Nat.lt_succ_self n)
    obtain ⟨earlier, positive_iff⟩ := ih fun i below => admitted i (Nat.lt_succ_of_lt below)
    rw [Finset.sum_range_succ, positivity.positive_add_iff earlier last, positive_iff]
    constructor
    · exact positivity.admits_add earlier last
    constructor
    · rintro (⟨i, below, here⟩ | last)
      · exact ⟨i, Nat.lt_succ_of_lt below, here⟩
      · exact ⟨n, Nat.lt_succ_self n, last⟩
    · rintro ⟨i, below, here⟩
      rcases Nat.lt_succ_iff_lt_or_eq.1 below with below | rfl
      · exact .inl ⟨i, below, here⟩
      · exact .inr here

/-- A sum is positive when some of its terms are. -/
theorem sumOver {extent : Char → Nat} {cs : List Char} {f : (Char → Nat) → K} {σ : Char → Nat}
    (admitted : ∀ τ, Admits (f τ)) :
    Admits (sumOver extent cs f σ) ∧
      (Positive (sumOver extent cs f σ) ↔ ∃ τ, Varies extent cs σ τ ∧ Positive (f τ)) := by
  induction cs generalizing σ with
  | nil =>
    simp only [varies_nil_iff, exists_eq_left]
    exact ⟨admitted σ, Iff.rfl⟩
  | cons c cs ih =>
    obtain ⟨admits, positive_iff⟩ :=
      positivity.sum_range (n := extent c) fun i _ => (ih (σ := Function.update σ c i)).1
    refine ⟨admits, positive_iff.trans ?_⟩
    constructor
    · rintro ⟨i, below, here⟩
      obtain ⟨τ, varies, here⟩ := ih.2.1 here
      exact ⟨τ, varies_cons_iff.2 ⟨i, below, varies⟩, here⟩
    · rintro ⟨τ, varies, here⟩
      obtain ⟨i, below, varies⟩ := varies_cons_iff.1 varies
      exact ⟨i, below, ih.2.2 ⟨τ, varies, here⟩⟩

/-- A product is positive when all of its factors are. -/
theorem product {ε : Type} [Zero ε] {lift : ε → K} {factors : List (Factor ε)} {τ : Char → Nat}
    (admitted : ∀ factor ∈ factors, Admits (lift (factor.2.entry (factor.1.map τ)))) :
    Admits (product lift factors τ) ∧
      (Positive (product lift factors τ) ↔
        ∀ factor ∈ factors, Positive (lift (factor.2.entry (factor.1.map τ)))) := by
  induction factors with
  | nil => exact ⟨positivity.admits_one, by simpa [Factor.product] using positivity.positive_one⟩
  | cons factor factors ih =>
    rw [List.forall_mem_cons] at admitted
    have rest := ih admitted.2
    rw [product_cons, List.forall_mem_cons, positivity.positive_mul_iff admitted.1 rest.1, rest.2]
    exact ⟨positivity.admits_mul admitted.1 rest.1, Iff.rfl⟩

end Positivity

end TensorCalculus
