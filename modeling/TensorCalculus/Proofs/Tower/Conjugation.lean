import TensorCalculus.Proofs.Tower.Flexibility

/-!
# Conjugates of products

Conjugation turns the factors of a product around, on every level of the tower. It is additive,
undoes itself, and keeps the norm. Numbers inherit this from the values they hold; the product of
two conjugates is shown in the form of the other factor, as a product always has the form of its
left factor. -/

namespace TensorCalculus

-- Powers of natural numbers are those of `Nat.pow`, as in the definitions.
attribute [local instance (2000)] instPowNat

namespace Number

open TensorCalculus.Outcome

section Holding

variable {α : Type} {k : Nat}

/-- A number holds its own value. -/
theorem holding_self {x : Number α} {a : Tower α k} (size : x.components.length = 2 ^ k)
    (parts : x.components = a.toList) : x.holding size a = x := by
  obtain ⟨view, algebra, components, length_components⟩ := x
  dsimp only at parts
  subst parts
  rfl

theorem length_holding (x : Number α) (size : x.components.length = 2 ^ k) (a : Tower α k) :
    (x.holding size a).components.length = 2 ^ k := by
  rw [components_holding, Tower.length_toList]

end Holding

variable {R : Type} [CommRing R] {k : Nat} {x y : Number R}

theorem conjugate_holding (size : x.components.length = 2 ^ k) (a : Tower R k) :
    (x.holding size a).conjugate = .ok (x.holding size a.conj) :=
  conjugate_eq_holding (length_holding x size a) (components_holding ..)

theorem mul_of_algebra_ne (differ : x.algebra ≠ y.algebra) :
    x.mul y = .error (.algebra (.differing "multiply" x.algebra.name y.algebra.name)) := by
  rw [mul, checkSameAlgebra, dif_neg differ, error_bind]

/-- The conjugate of a product has the components of the product of the conjugates in the other
order. Conjugation is additive, undoes itself and keeps the norm. Numbers of different algebras have
no product, and neither have their conjugates. -/
theorem conjugate_reverses_products (size : x.components.length = 2 ^ k)
    (size' : y.components.length = 2 ^ k) : ∃ x' y', x.conjugate = .ok x' ∧ y.conjugate = .ok y' ∧
      x'.conjugate = .ok x ∧ x'.algebra = x.algebra ∧ x'.normSquared = x.normSquared ∧
      (∃ product turned, productOfLists x.components y.components = .ok product ∧
        conjugateOfList product = .ok turned ∧ productOfLists y'.components x'.components =
          .ok turned) ∧
      (x.algebra = y.algebra →
        (∃ product turned product', x.mul y = .ok product ∧ product.conjugate = .ok turned ∧
          y'.mul x' = .ok product' ∧ product'.algebra = turned.algebra ∧
          product'.components = turned.components) ∧
        ∃ sum turned, x.add y = .ok sum ∧ sum.conjugate = .ok turned ∧ x'.add y' = .ok turned) ∧
      (x.algebra ≠ y.algebra → (∃ fault, x.mul y = .error fault) ∧
        ∃ fault, y'.mul x' = .error fault) := by
  obtain ⟨a, left⟩ := Tower.exists_eq_toList size
  obtain ⟨b, right⟩ := Tower.exists_eq_toList size'
  have heldLeft := length_holding x size a.conj
  have heldRight := length_holding y size' b.conj
  refine ⟨x.holding size a.conj, y.holding size' b.conj, conjugate_eq_holding size left,
    conjugate_eq_holding size' right, ?_, rfl, ?_, ?_, ?_, ?_⟩
  · rw [conjugate_holding, Tower.conj_conj, holding_self size left]
  · rw [normSquared_eq_normSq (components_holding ..), normSquared_eq_normSq left,
      Tower.normSq_conj]
  · refine ⟨(a * b).toList, (a * b).conj.toList, ?_, conjugateOfList_toList _, ?_⟩
    · rw [left, right, productOfLists_toList]
    · rw [components_holding, components_holding, productOfLists_toList, Tower.conj_mul]
  · intro same
    refine ⟨⟨_, _, _, mul_eq_holding size left right same, conjugate_holding size _,
      mul_eq_holding heldRight (components_holding ..) (components_holding ..) same.symm, same.symm,
      ?_⟩, ?_⟩
    · rw [components_holding, components_holding, Tower.conj_mul]
    · refine ⟨_, _, add_eq_holding size left right same, conjugate_holding size _, ?_⟩
      rw [add_eq_holding heldLeft (components_holding ..) (components_holding ..) same,
        Tower.conj_add]
      rfl
  · intro differ
    exact ⟨⟨_, mul_of_algebra_ne differ⟩, ⟨_, mul_of_algebra_ne (Ne.symm differ)⟩⟩

theorem conjugate_reverses_products_sedenions :
    zeroDivisor.components.length = 2 ^ 4 ∧ fullSedenion.components.length = 2 ^ 4 ∧
      ∃ x' y' product turned product', zeroDivisor.conjugate = .ok x' ∧
        fullSedenion.conjugate = .ok y' ∧
        zeroDivisor.mul fullSedenion = .ok product ∧ product.conjugate = .ok turned ∧
        y'.mul x' = .ok product' ∧
        product'.components = turned.components := by
  obtain ⟨x', y', left, right, -, -, -, -, sameAlgebra, -⟩ :=
    conjugate_reverses_products (k := 4) (x := zeroDivisor) (y := fullSedenion) rfl rfl
  obtain ⟨⟨product, turned, product', multiplied, conjugated, reversed, -, parts⟩, -⟩ :=
    sameAlgebra rfl
  exact ⟨rfl, rfl, x', y', product, turned, product', left, right, multiplied, conjugated, reversed,
    parts⟩

end Number

end TensorCalculus
