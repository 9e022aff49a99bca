import TensorCalculus.Proofs.Tower.Halves
import TensorCalculus.Proofs.Tower.ProductLaws

/-!
# Each algebra in the next

On the components of every level the product is bilinear and has an identity. Doubling a number with
zero carries it to the next level without changing what products, conjugates and norms are, so that
every algebra of the tower lies in the one above. -/

namespace TensorCalculus

-- Powers of natural numbers are those of `Nat.pow`, as in the definitions.
attribute [local instance (2000)] instPowNat

namespace Number

open TensorCalculus.Outcome

section Lists

variable {R : Type} [CommRing R] {k : Nat} {xs ys zs : List R}

theorem productOfLists_add (first : xs.length = 2 ^ k) (second : ys.length = 2 ^ k)
    (third : zs.length = 2 ^ k) :
    (∃ p q, productOfLists xs zs = .ok p ∧ productOfLists ys zs = .ok q ∧
        productOfLists (List.zipWith (· + ·) xs ys) zs = .ok (List.zipWith (· + ·) p q)) ∧
      ∃ p q, productOfLists zs xs = .ok p ∧ productOfLists zs ys = .ok q ∧
        productOfLists zs (List.zipWith (· + ·) xs ys) = .ok (List.zipWith (· + ·) p q) := by
  obtain ⟨a, rfl⟩ := Tower.exists_eq_toList first
  obtain ⟨b, rfl⟩ := Tower.exists_eq_toList second
  obtain ⟨c, rfl⟩ := Tower.exists_eq_toList third
  simp only [← Tower.toList_add, productOfLists_toList]
  constructor
  · exact ⟨_, _, rfl, rfl, by rw [add_mul, Tower.toList_add]⟩
  · exact ⟨_, _, rfl, rfl, by rw [mul_add, Tower.toList_add]⟩

theorem productOfLists_smul (r : R) (left : xs.length = 2 ^ k) (right : ys.length = 2 ^ k) :
    ∃ p, productOfLists xs ys = .ok p ∧ productOfLists (xs.map (r * ·)) ys = .ok (p.map (r * ·)) ∧
      productOfLists xs (ys.map (r * ·)) = .ok (p.map (r * ·)) := by
  obtain ⟨a, rfl⟩ := Tower.exists_eq_toList left
  obtain ⟨b, rfl⟩ := Tower.exists_eq_toList right
  simp only [← Tower.toList_smul, productOfLists_toList]
  exact ⟨_, rfl, by rw [smul_mul_assoc, Tower.toList_smul],
    by rw [mul_smul_comm, Tower.toList_smul]⟩

theorem productOfLists_one (size : xs.length = 2 ^ k) :
    productOfLists (1 :: List.replicate (2 ^ k - 1) 0) xs = .ok xs ∧
      productOfLists xs (1 :: List.replicate (2 ^ k - 1) 0) = .ok xs := by
  obtain ⟨a, rfl⟩ := Tower.exists_eq_toList size
  rw [← Tower.toList_ofScalar, productOfLists_toList, productOfLists_toList, Tower.ofScalar_mul,
    Tower.mul_ofScalar, one_smul]
  exact ⟨rfl, rfl⟩

end Lists

section Doubled

variable {R : Type} [CommRing R] {k : Nat} {a b o : Number R}

/-- Whether a number is zero and has a given dimension. -/
def IsZero (n : Nat) (o : Number R) : Prop :=
  o.components = List.replicate n 0

theorem ofHalves_zero {x : Tower R k} (parts : a.components = x.toList) (zero : o.IsZero (2 ^ k))
    {tag : AlgebraTag} (found : AlgebraTag.standard (2 ^ (k + 1) : Nat) = .ok tag)
      (dimension : tag.dimension = (2 ^ (k + 1) : Nat)) :
    ofHalves a o = .ok (ofTower tag dimension (.pair x 0)) :=
  ofHalves_of_toList parts (zero.trans (Tower.toList_zero k).symm) found dimension

/-- Products of doubled numbers are doubled products. -/
theorem mul_ofHalves_zero (size : a.dimension = 2 ^ k) (size' : b.dimension = 2 ^ k)
    (zero : o.IsZero (2 ^ k)) :
    ∃ A B p P, ofHalves a o = .ok A ∧ ofHalves b o = .ok B ∧
      productOfLists a.components b.components = .ok p.components ∧
      (a.algebra = b.algebra → a.mul b = .ok p) ∧ ofHalves p o = .ok P ∧ A.mul B = .ok P := by
  obtain ⟨x, left⟩ := Tower.exists_eq_toList size
  obtain ⟨y, right⟩ := Tower.exists_eq_toList size'
  obtain ⟨tag, found, dimension⟩ := AlgebraTag.exists_standard (k + 1)
  refine ⟨_, _, a.holding size (x * y), _, ofHalves_zero left zero found dimension,
    ofHalves_zero right zero found dimension, ?_, mul_eq_holding size left right,
    ofHalves_zero (components_holding ..) zero found dimension, ?_⟩
  · rw [left, right, productOfLists_toList]
    rfl
  · rw [ofTower_mul, Tower.pair_zero_mul]

/-- Conjugates of doubled numbers are doubled conjugates, and doubling keeps the norm. -/
theorem conjugate_ofHalves_zero (size : a.dimension = 2 ^ k) (zero : o.IsZero (2 ^ k)) :
    ∃ A c C, ofHalves a o = .ok A ∧ A.components = a.components ++ List.replicate (2 ^ k) 0 ∧
      a.conjugate = .ok c ∧
      ofHalves c o = .ok C ∧ A.conjugate = .ok C ∧ A.normSquared = a.normSquared := by
  obtain ⟨x, parts⟩ := Tower.exists_eq_toList size
  obtain ⟨tag, found, dimension⟩ := AlgebraTag.exists_standard (k + 1)
  refine ⟨_, _, _, ofHalves_zero parts zero found dimension, ?_, conjugate_eq_holding size parts,
    ofHalves_zero (components_holding ..) zero found dimension, ?_, ?_⟩
  · rw [components_ofTower, Tower.toList, parts, Tower.toList_zero]
  · rw [conjugate_ofTower, Tower.conj_pair, neg_zero]
  · rw [normSquared_eq_normSq (components_ofTower ..), normSquared_eq_normSq parts, Tower.normSq,
      Tower.normSq_zero, add_zero]

end Doubled

/-- Every level of the tower is an algebra with an identity, and the next level contains it. The
product of components is additive and homogeneous in each argument, and a one with zeros behind it
is its identity on both sides. Doubling with zero keeps the components, and takes products to
products, conjugates to conjugates and norms to norms. -/
theorem product_unital_and_included {R : Type} [CommRing R] (k : Nat) :
    (∀ xs ys zs : List R, xs.length = 2 ^ k → ys.length = 2 ^ k → zs.length = 2 ^ k →
        (∃ p q, productOfLists xs zs = .ok p ∧ productOfLists ys zs = .ok q ∧
          productOfLists (List.zipWith (· + ·) xs ys) zs = .ok (List.zipWith (· + ·) p q)) ∧
        ∃ p q, productOfLists zs xs = .ok p ∧ productOfLists zs ys = .ok q ∧
          productOfLists zs (List.zipWith (· + ·) xs ys) = .ok (List.zipWith (· + ·) p q)) ∧
      (∀ (r : R) (xs ys : List R), xs.length = 2 ^ k → ys.length = 2 ^ k →
        ∃ p, productOfLists xs ys = .ok p ∧
          productOfLists (xs.map (r * ·)) ys = .ok (p.map (r * ·)) ∧
          productOfLists xs (ys.map (r * ·)) = .ok (p.map (r * ·))) ∧
      (∀ xs : List R, xs.length = 2 ^ k →
        productOfLists (1 :: List.replicate (2 ^ k - 1) 0) xs = .ok xs ∧
          productOfLists xs (1 :: List.replicate (2 ^ k - 1) 0) = .ok xs) ∧
      (∀ a b o : Number R, a.dimension = 2 ^ k → b.dimension = 2 ^ k → o.IsZero (2 ^ k) →
        ∃ A B p P, ofHalves a o = .ok A ∧ ofHalves b o = .ok B ∧
          productOfLists a.components b.components = .ok p.components ∧
          (a.algebra = b.algebra → a.mul b = .ok p) ∧
          ofHalves p o = .ok P ∧ A.mul B = .ok P) ∧
      ∀ a o : Number R, a.dimension = 2 ^ k → o.IsZero (2 ^ k) →
        ∃ A c C, ofHalves a o = .ok A ∧ A.components = a.components ++ List.replicate (2 ^ k) 0 ∧
          a.conjugate = .ok c ∧ ofHalves c o = .ok C ∧ A.conjugate = .ok C ∧
          A.normSquared = a.normSquared := by
  refine ⟨?_, ?_, ?_, ?_, ?_⟩
  · exact fun xs ys zs => productOfLists_add
  · exact fun r xs ys => productOfLists_smul r
  · exact fun xs => productOfLists_one
  · exact fun a b o => mul_ofHalves_zero
  · exact fun a o => conjugate_ofHalves_zero

/-- The zero of the octonions. -/
def noOctonion : Number ℚ :=
  ⟨.octonion, .octonion, [0, 0, 0, 0, 0, 0, 0, 0], rfl⟩

theorem product_unital_and_included_octonions :
    firstOctonion.dimension = 2 ^ 3 ∧ secondOctonion.dimension = 2 ^ 3 ∧ noOctonion.IsZero (2 ^ 3) ∧
      productOfLists (1 :: List.replicate 7 0) firstOctonion.components =
        .ok firstOctonion.components ∧
      (∃ p, productOfLists firstOctonion.components secondOctonion.components = .ok p ∧
        productOfLists (firstOctonion.components.map ((1 / 3 : ℚ) * ·)) secondOctonion.components =
          .ok (p.map ((1 / 3 : ℚ) * ·))) ∧
      (∃ p q, productOfLists firstOctonion.components firstOctonion.components = .ok p ∧
        productOfLists secondOctonion.components firstOctonion.components = .ok q ∧
        productOfLists (List.zipWith (· + ·) firstOctonion.components secondOctonion.components)
          firstOctonion.components = .ok (List.zipWith (· + ·) p q)) ∧
      (∃ A B p P, ofHalves firstOctonion noOctonion = .ok A ∧
        ofHalves secondOctonion noOctonion = .ok B ∧
        firstOctonion.mul secondOctonion = .ok p ∧ ofHalves p noOctonion = .ok P ∧
        A.mul B = .ok P) ∧
      ∃ A, ofHalves firstOctonion noOctonion = .ok A ∧
        A.normSquared = firstOctonion.normSquared := by
  obtain ⟨additive, homogeneous, one, products, conjugates⟩ :=
    product_unital_and_included (R := ℚ) 3
  obtain ⟨p, found, scaled, -⟩ :=
    homogeneous (1 / 3) firstOctonion.components secondOctonion.components rfl rfl
  obtain ⟨sum, -⟩ :=
    additive firstOctonion.components secondOctonion.components firstOctonion.components rfl rfl rfl
  obtain ⟨A, B, q, P, left, right, -, multiplied, doubled, same⟩ :=
    products firstOctonion secondOctonion noOctonion rfl rfl rfl
  obtain ⟨A', -, -, left', -, -, -, -, norm⟩ := conjugates firstOctonion noOctonion rfl rfl
  exact ⟨rfl, rfl, rfl, (one firstOctonion.components rfl).1, ⟨p, found, scaled⟩, sum,
    ⟨A, B, q, P, left, right, multiplied rfl, doubled, same⟩, A', left', norm⟩

end Number

end TensorCalculus
