import TensorCalculus.Proofs.Tower.Composition
import TensorCalculus.Proofs.Tower.Dimensions
import TensorCalculus.Proofs.Tower.Numbers

/-!
# Halves

A number of two or more components falls into two halves, and two numbers of one dimension double to
one number, each time under the standard tag of the new dimension. Halving and doubling undo each
other, up to the form in which numbers are shown, and the product of two numbers can be put together
from products of their halves. -/

namespace TensorCalculus

-- Powers of natural numbers are those of `Nat.pow`, as in the definitions.
attribute [local instance (2000)] instPowNat

namespace Number

open TensorCalculus.Outcome

section Forms

variable {α : Type} {k : Nat} {tag : AlgebraTag} {x y : Number α}

/-- Whether a number has the standard tag of its dimension. -/
def Standard (x : Number α) : Prop :=
  AlgebraTag.standard x.dimension = .ok x.algebra

/-- The same number, shown in the form of its algebra. -/
def inOwnForm (x : Number α) : Number α :=
  { x with view := .ofTag x.algebra }

theorem Standard.balanced (standard : x.Standard) : x.Balanced := by
  rcases AlgebraTag.standard_yields x.dimension with ⟨tag, found, -, regular⟩ | ⟨cause, refused⟩
  · obtain rfl := Except.ok.inj (standard.symm.trans found)
    exact balanced_iff_regular.2 regular
  · cases standard.symm.trans refused

theorem Standard.algebra_eq (standard : x.Standard) (standard' : y.Standard)
    (same : x.dimension = y.dimension) : x.algebra = y.algebra := by
  unfold Standard at standard
  rw [same] at standard
  exact Except.ok.inj (standard.symm.trans standard')

theorem standard_ofTower (found : AlgebraTag.standard (2 ^ k : Nat) = .ok tag)
    (dimension : tag.dimension = (2 ^ k : Nat)) (a : Tower α k) :
    (ofTower tag dimension a).Standard := by
  simpa [Standard, Number.dimension] using found

/-- Only the form may tell a number from the one with its value and its tag. -/
theorem ofTower_eq_inOwnForm {a : Tower α k} (parts : x.components = a.toList)
    (tagged : x.algebra = tag) (dimension : tag.dimension = (2 ^ k : Nat)) :
    ofTower tag dimension a = x.inOwnForm := by
  obtain ⟨view, algebra, components, length_components⟩ := x
  dsimp only at parts tagged
  subst parts tagged
  rfl

end Forms

section Halving

variable {α : Type} {k : Nat} {tag : AlgebraTag} {x y : Number α} {a b : Tower α k}

theorem halves_of_pair (parts : x.components = (Tower.pair a b).toList)
    (found : AlgebraTag.standard (2 ^ k : Nat) = .ok tag)
    (dimension : tag.dimension = (2 ^ k : Nat)) :
    x.halves = .ok (ofTower tag dimension a, ofTower tag dimension b) := by
  have size : x.dimension = 2 ^ k * 2 := by
    rw [Number.dimension, parts, Tower.length_toList, Nat.pow_succ]
  have half : x.dimension / 2 = 2 ^ k := by omega
  have several : ¬ x.dimension = 1 := by omega
  have front : x.components.take (2 ^ k) = a.toList := by
    rw [parts, Tower.toList, List.take_left' a.length_toList]
  have back : x.components.drop (2 ^ k) = b.toList := by
    rw [parts, Tower.toList, List.drop_left' a.length_toList]
  simp only [halves, if_neg several, half, found, ok_bind, front, back, make_toList dimension,
    pure_eq_ok]

theorem ofHalves_of_toList (left : x.components = a.toList) (right : y.components = b.toList)
    (found : AlgebraTag.standard (2 ^ (k + 1) : Nat) = .ok tag)
      (dimension : tag.dimension = (2 ^ (k + 1) : Nat)) :
    ofHalves x y = .ok (ofTower tag dimension (.pair a b)) := by
  have same : x.dimension = y.dimension := by
    rw [Number.dimension, Number.dimension, left, right, Tower.length_toList, Tower.length_toList]
  have whole : x.components ++ y.components = (Tower.pair a b).toList := by
    rw [left, right, Tower.toList]
  simp only [ofHalves, same, ne_eq, not_true_eq_false, if_false, whole, Tower.length_toList, found,
    ok_bind, make_toList dimension]

theorem exists_pair (size : x.dimension = 2 ^ (k + 1)) :
    ∃ a b : Tower α k, x.components = (Tower.pair a b).toList := by
  obtain ⟨p, parts⟩ := Tower.exists_eq_toList size
  cases p with
  | pair a b => exact ⟨a, b, parts⟩

theorem halves_of_dimension_one (single : x.dimension = 1) :
    x.halves = .error (.algebra .realHalves) := by
  rw [halves, if_pos single]

theorem exists_halves (balanced : x.Balanced) (several : x.dimension ≠ 1) :
    ∃ parts, x.halves = .ok parts := by
  obtain ⟨k, size, -⟩ := balanced
  cases k with
  | zero => exact absurd size several
  | succ k =>
    obtain ⟨a, b, parts⟩ := exists_pair size
    obtain ⟨tag, found, dimension⟩ := AlgebraTag.exists_standard k
    exact ⟨_, halves_of_pair parts found dimension⟩

theorem ofHalves_of_dimension_ne (differ : x.dimension ≠ y.dimension) :
    ofHalves x y = .error (.algebra (.unequalHalves x.dimension y.dimension)) := by
  rw [ofHalves, if_pos differ]

theorem exists_ofHalves (balanced : x.Balanced) (same : x.dimension = y.dimension) :
    ∃ z, ofHalves x y = .ok z := by
  obtain ⟨k, size, -⟩ := balanced
  obtain ⟨a, left⟩ := Tower.exists_eq_toList size
  obtain ⟨b, right⟩ := Tower.exists_eq_toList (same.symm.trans size)
  obtain ⟨tag, found, dimension⟩ := AlgebraTag.exists_standard (k + 1)
  exact ⟨_, ofHalves_of_toList left right found dimension⟩

/-- Halves of a standard number are standard and double to the number again. -/
theorem ofHalves_halves (size : x.dimension = 2 ^ (k + 1)) (standard : x.Standard) :
    ∃ a b, x.halves = .ok (a, b) ∧ a.Standard ∧ b.Standard ∧ ofHalves a b = .ok x.inOwnForm := by
  obtain ⟨a, b, parts⟩ := exists_pair size
  obtain ⟨tag, found, dimension⟩ := AlgebraTag.exists_standard k
  have whole : x.algebra.dimension = (2 ^ (k + 1) : Nat) := by
    rw [← x.length_components]
    exact congrArg Nat.cast size
  unfold Standard at standard
  rw [size] at standard
  refine ⟨_, _, halves_of_pair parts found dimension, standard_ofTower found dimension a,
    standard_ofTower found dimension b, ?_⟩
  rw [ofHalves_of_toList rfl rfl standard whole, ofTower_eq_inOwnForm parts rfl whole]

/-- Two standard numbers double to a standard one, of which they are the halves. -/
theorem halves_ofHalves (same : x.dimension = y.dimension) (standard : x.Standard)
    (standard' : y.Standard) :
    ∃ z, ofHalves x y = .ok z ∧ z.Standard ∧ z.halves = .ok (x.inOwnForm, y.inOwnForm) := by
  obtain ⟨k, size, half⟩ := standard.balanced
  obtain ⟨a, left⟩ := Tower.exists_eq_toList size
  obtain ⟨b, right⟩ := Tower.exists_eq_toList (same.symm.trans size)
  obtain ⟨tag, found, dimension⟩ := AlgebraTag.exists_standard (k + 1)
  have tagged : y.algebra = x.algebra := standard'.algebra_eq standard same.symm
  refine ⟨_, ofHalves_of_toList left right found dimension, standard_ofTower found dimension _, ?_⟩
  unfold Standard at standard
  rw [Number.dimension, size] at standard
  rw [halves_of_pair rfl standard half, ofTower_eq_inOwnForm left rfl half,
    ofTower_eq_inOwnForm right tagged half]

end Halving

section Products

variable {R : Type} [CommRing R] {k : Nat} {tag : AlgebraTag} {x y : Number R}

theorem ofTower_mul (dimension : tag.dimension = (2 ^ k : Nat)) (a b : Tower R k) :
    (ofTower tag dimension a).mul (ofTower tag dimension b) = .ok (ofTower tag dimension (a * b)) :=
  mul_eq_holding (length_of_algebra_eq rfl dimension) rfl rfl rfl

theorem ofTower_sub (dimension : tag.dimension = (2 ^ k : Nat)) (a b : Tower R k) :
    (ofTower tag dimension a).sub (ofTower tag dimension b) = .ok (ofTower tag dimension (a - b)) :=
  sub_eq_holding (length_of_algebra_eq rfl dimension) rfl rfl rfl

theorem conjugate_ofTower (dimension : tag.dimension = (2 ^ k : Nat)) (a : Tower R k) :
    (ofTower tag dimension a).conjugate = .ok (ofTower tag dimension a.conj) :=
  conjugate_eq_holding (length_of_algebra_eq rfl dimension) rfl

/-- The product put together from the halves `a`, `b` and `c`, `d` of its factors. -/
def productByHalves (x y : Number R) : Except Fault (Number R) := do
  let (a, b) ← x.halves
  let (c, d) ← y.halves
  let front ← (← a.mul c).sub (← (← d.conjugate).mul b)
  let back ← (← d.mul a).add (← b.mul (← c.conjugate))
  ofHalves front back

theorem productByHalves_eq (size : x.dimension = 2 ^ (k + 1)) (same : x.algebra = y.algebra) :
    ∃ z z', x.mul y = .ok z ∧ z.algebra = x.algebra ∧ productByHalves x y = .ok z' ∧ z'.Standard ∧
      z'.components = z.components ∧ (x.Standard → z' = z.inOwnForm) := by
  obtain ⟨a, b, left⟩ := exists_pair size
  obtain ⟨c, d, right⟩ := exists_pair ((length_eq_of_algebra_eq same).symm.trans size)
  obtain ⟨tag, found, dimension⟩ := AlgebraTag.exists_standard k
  obtain ⟨tag', found', dimension'⟩ := AlgebraTag.exists_standard (k + 1)
  let product := Tower.pair (a * c - d.conj * b) (d * a + b * c.conj)
  have whole : x.mul y = .ok (x.holding size product) := mul_eq_holding size left right same
  have byHalves : productByHalves x y = .ok (ofTower tag' dimension' product) := by
    simp only [productByHalves, halves_of_pair left found dimension,
      halves_of_pair right found dimension, ok_bind, conjugate_ofTower, ofTower_mul, ofTower_sub,
      ofTower_add dimension _ (algebra_ofTower ..), value_ofTower,
      ofHalves_of_toList (components_ofTower ..) (components_ofTower ..) found' dimension']
    rfl
  refine ⟨_, _, whole, rfl, byHalves, standard_ofTower found' dimension' _, rfl, fun standard => ?_⟩
  unfold Standard at standard
  rw [size, found'] at standard
  exact ofTower_eq_inOwnForm (components_holding x size product) (Except.ok.inj standard).symm
    dimension'

theorem normSquared_eq_add_halves (size : x.dimension = 2 ^ (k + 1)) :
    ∃ a b, x.halves = .ok (a, b) ∧ x.normSquared = a.normSquared + b.normSquared := by
  obtain ⟨a, b, parts⟩ := exists_pair size
  obtain ⟨tag, found, dimension⟩ := AlgebraTag.exists_standard k
  refine ⟨_, _, halves_of_pair parts found dimension, ?_⟩
  rw [normSquared_eq_normSq parts, normSquared_eq_normSq (components_ofTower dimension a),
    normSquared_eq_normSq (components_ofTower dimension b), Tower.normSq]

end Products

/-- Halving and doubling undo each other on numbers with the standard tag of their dimension, and
what they lead to has the standard tag too. A number of the tower, whatever its tag, doubles with
another one unless their dimensions differ, and falls into halves unless it has one component. The
norm is the sum over the halves, and a product has the components that are put together from the
halves of its factors, under the same tag if that is the standard one. -/
theorem halving_undoes_doubling {α R : Type} [CommRing R] :
    (∀ (k : Nat) (x : Number α), x.dimension = 2 ^ (k + 1) → x.Standard →
        ∃ a b, x.halves = .ok (a, b) ∧ a.Standard ∧ b.Standard ∧ ofHalves a b = .ok x.inOwnForm) ∧
      (∀ a b : Number α, a.dimension = b.dimension → a.Standard → b.Standard →
        ∃ x, ofHalves a b = .ok x ∧ x.Standard ∧ x.halves = .ok (a.inOwnForm, b.inOwnForm)) ∧
      (∀ a b : Number α, a.Balanced →
        ((∃ cause, ofHalves a b = .error (.algebra cause)) ↔ a.dimension ≠ b.dimension)) ∧
      (∀ x : Number α, x.Balanced → ((∃ cause, x.halves = .error (.algebra cause)) ↔
        x.dimension = 1)) ∧
      (∀ (k : Nat) (x : Number R), x.dimension = 2 ^ (k + 1) →
        ∃ a b, x.halves = .ok (a, b) ∧ x.normSquared = a.normSquared + b.normSquared) ∧
      ∀ (k : Nat) (x y : Number R), x.dimension = 2 ^ (k + 1) → x.algebra = y.algebra →
        ∃ z z', x.mul y = .ok z ∧ z.algebra = x.algebra ∧ productByHalves x y = .ok z' ∧
          z'.Standard ∧ z'.components = z.components ∧ (x.Standard → z' = z.inOwnForm) := by
  refine ⟨fun k x => ofHalves_halves, fun a b => halves_ofHalves, fun a b balanced =>
    ⟨?_, fun differ => ?_⟩, fun x balanced => ⟨?_, fun single => ?_⟩, fun k x =>
      normSquared_eq_add_halves, fun k x y => productByHalves_eq⟩
  · rintro ⟨cause, refused⟩ same
    obtain ⟨z, doubled⟩ := exists_ofHalves balanced same
    cases refused.symm.trans doubled
  · exact ⟨_, ofHalves_of_dimension_ne differ⟩
  · rintro ⟨cause, refused⟩
    by_contra several
    obtain ⟨parts, halved⟩ := exists_halves balanced several
    cases refused.symm.trans halved
  · exact ⟨_, halves_of_dimension_one single⟩

/-- A number of three components, which no level of the tower has. -/
def tripled : Number ℚ :=
  ⟨.general, ⟨"Tripled", 3⟩, [1, 2, 3], rfl⟩

/-- Such a number neither falls into halves, though it has several components, nor doubles, though
the dimensions agree: what either leads to has no standard tag or does not fit the tag it gets. -/
theorem tripled_neither_halved_nor_doubled :
    tripled.dimension ≠ 1 ∧ tripled.halves = .error (.algebra (.componentCount "Real" 1 2)) ∧
      ofHalves tripled tripled = .error (.algebra (.dimension 6)) :=
  ⟨by decide, rfl, rfl⟩

theorem halving_undoes_doubling_octonions :
    firstOctonion.dimension = 2 ^ (2 + 1) ∧ firstOctonion.Standard ∧ secondOctonion.Standard ∧
      firstOctonion.Balanced ∧ firstOctonion.algebra = secondOctonion.algebra ∧
      (∃ a b, firstOctonion.halves = .ok (a, b) ∧ ofHalves a b = .ok firstOctonion ∧
        firstOctonion.normSquared = a.normSquared + b.normSquared) ∧
      (∃ x, ofHalves firstOctonion secondOctonion = .ok x ∧
        x.halves = .ok (firstOctonion, secondOctonion)) ∧
      (∃ cause, ofHalves firstOctonion zeroDivisor = .error (.algebra cause)) ∧
      (¬ ∃ cause, firstOctonion.halves = .error (.algebra cause)) ∧
      ∃ z, firstOctonion.mul secondOctonion = .ok z ∧
        productByHalves firstOctonion secondOctonion = .ok z.inOwnForm := by
  have standard : firstOctonion.Standard := rfl
  have standard' : secondOctonion.Standard := rfl
  have size : firstOctonion.dimension = 2 ^ (2 + 1) := rfl
  have balanced : firstOctonion.Balanced := standard.balanced
  obtain ⟨halved, doubled, unequal, single, norm, product⟩ :=
    halving_undoes_doubling (α := ℚ) (R := ℚ)
  obtain ⟨a, b, found, -, -, again⟩ := halved 2 firstOctonion size standard
  obtain ⟨a', b', found', sum⟩ := norm 2 firstOctonion size
  obtain ⟨rfl, rfl⟩ := Prod.mk.inj (Except.ok.inj (found.symm.trans found'))
  obtain ⟨x, whole, -, parts⟩ := doubled firstOctonion secondOctonion rfl standard standard'
  obtain ⟨z, z', multiplied, -, byHalves, -, -, same⟩ :=
    product 2 firstOctonion secondOctonion size rfl
  rw [same standard] at byHalves
  have refused := (unequal firstOctonion zeroDivisor balanced).2 (by decide)
  have splits := (single firstOctonion balanced).not.2 (by decide)
  exact ⟨size, standard, standard', balanced, rfl, ⟨a, b, found, again, sum⟩, ⟨x, whole, parts⟩,
    refused, splits, z, multiplied, byHalves⟩

end Number

end TensorCalculus
