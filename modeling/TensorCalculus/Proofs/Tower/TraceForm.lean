import TensorCalculus.Proofs.Tower.ProductLaws

/-!
# The trace form

The real part of a product sees neither the order of two factors nor the grouping of three, on any
level of the tower. So what keeps numbers from commuting and from associating has no real part. The
real part of a product with a conjugate is the inner product of the components. -/

namespace TensorCalculus

-- Powers of natural numbers are those of `Nat.pow`, as in the definitions.
attribute [local instance (2000)] instPowNat

namespace Tower

variable {R : Type}

theorem toList_eq_re_cons {k : Nat} (x : Tower R k) : ∃ xs, x.toList = x.re :: xs := by
  induction x with
  | scalar x => exact ⟨[], rfl⟩
  | pair a b iha =>
    obtain ⟨xs, front⟩ := iha
    exact ⟨xs ++ b.toList, by rw [toList, front, List.cons_append, re_pair]⟩

variable [CommRing R] {k : Nat}

theorem re_commutator (x y : Tower R k) : (x * y - y * x).re = 0 := by
  rw [re_sub, re_mul_comm, sub_self]

theorem re_associator (x y z : Tower R k) : (x * y * z - x * (y * z)).re = 0 := by
  rw [re_sub, re_mul_assoc, sub_self]

/-- Each half contributes its own inner product. The second halves stand in the other order in the
product, which the real part does not see. -/
theorem re_mul_conj (x y : Tower R k) :
    (x * y.conj).re = (List.zipWith (· * ·) x.toList y.toList).sum := by
  induction x with
  | scalar x =>
    cases y
    simp [toList]
  | pair a b iha ihb =>
    cases y with
    | pair c d =>
      calc
        (pair a b * (pair c d).conj).re = (a * c.conj).re - ((-d).conj * b).re := by
          rw [conj_pair, pair_mul, re_pair, re_sub]
        _ = (a * c.conj).re + (b * d.conj).re := by
          rw [conj_neg, neg_mul, re_neg, sub_neg_eq_add, re_mul_comm d.conj b]
        _ = _ := by
          simp [toList, iha, ihb, List.zipWith_append]

end Tower

namespace Number

open TensorCalculus.Outcome

theorem real_holding {R : Type} {k : Nat} (x : Number R) (size : x.components.length = 2 ^ k)
    (a : Tower R k) : (x.holding size a).real = .ok a.re := by
  obtain ⟨cs, parts⟩ := a.toList_eq_re_cons
  rw [real, components_holding, parts]

variable {R : Type} [CommRing R] {k : Nat} {x y z : Number R}

/-- In every algebra of the tower commutators and associators have the real part zero, and a product
with a conjugate has as its real part the sum of the products of the components that stand at the
same places. -/
theorem real_part_is_trace (size : x.components.length = 2 ^ k) (same : x.algebra = y.algebra)
    (same' : y.algebra = z.algebra) :
    (∃ c, x.commutator y = .ok c ∧ c.real = .ok 0) ∧
      (∃ a, x.associator y z = .ok a ∧ a.real = .ok 0) ∧
      ∃ y' p, y.conjugate = .ok y' ∧ x.mul y' = .ok p ∧
        p.real = .ok (List.zipWith (· * ·) x.components y.components).sum := by
  have size' : y.components.length = 2 ^ k := length_of_same_algebra size same
  refine ⟨⟨_, commutator_eq_holding size same, ?_⟩, ⟨_, associator_eq_holding size same same', ?_⟩,
    ?_⟩
  · rw [real_holding, Tower.re_commutator]
  · rw [real_holding, Tower.re_associator]
  · obtain ⟨a, left⟩ := Tower.exists_eq_toList size
    obtain ⟨b, right⟩ := Tower.exists_eq_toList size'
    refine ⟨_, _, conjugate_eq_holding size' right,
      mul_eq_holding size left (components_holding ..) same, ?_⟩
    rw [real_holding, Tower.re_mul_conj, left, right]

theorem real_part_is_trace_sedenions :
    fullSedenion.components.length = 2 ^ 4 ∧ fullSedenion.algebra = zeroDivisor.algebra ∧
      zeroDivisor.algebra = fullSedenion.algebra ∧
      (∃ c, fullSedenion.commutator zeroDivisor = .ok c ∧ c.real = .ok 0) ∧
      (∃ a, fullSedenion.associator zeroDivisor fullSedenion = .ok a ∧ a.real = .ok 0) ∧
      ∃ y' p, zeroDivisor.conjugate = .ok y' ∧ fullSedenion.mul y' = .ok p ∧
        p.real = .ok (-7 / 4) := by
  obtain ⟨commutator, associator, y', p, conjugated, multiplied, inner⟩ :=
    real_part_is_trace (k := 4) (x := fullSedenion) (y := zeroDivisor) (z := fullSedenion) rfl rfl
      rfl
  have sum : (List.zipWith (· * ·) fullSedenion.components zeroDivisor.components).sum =
    -7 / 4 := by decide +kernel
  rw [sum] at inner
  exact ⟨rfl, rfl, rfl, commutator, associator, y', p, conjugated, multiplied, inner⟩

end Number

end TensorCalculus
