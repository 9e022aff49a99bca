import Mathlib
import TensorCalculus.Comparison
import TensorCalculus.Literal.Order

/-!
# The order of doubles

All comparisons of two doubles read one order off their unpacked forms. It is there unless one of
them is not a number, and turns around when they change places. Numbers stand on rungs, one above
another, so that their order is transitive and total, and a number stays one when its sign is
changed. -/

namespace TensorCalculus.Decimal

open Float.Model Float.Model.UnpackedFloat

/-- How two doubles compare, unless one of them is not a number. -/
def order (x y : Float) : Option Ordering :=
  x.toModel.unpack.compare y.toModel.unpack

variable {x y : Float}

theorem lt_iff_order : x < y ↔ order x y = some .lt := by
  change decide ((x.toModel.unpack.compare y.toModel.unpack == some .lt) = true) = true ↔ _
  simp [order]

theorem le_iff_order : x ≤ y ↔ order x y = some .lt ∨ order x y = some .eq := by
  change decide ((x.toModel.unpack.compare y.toModel.unpack).any Ordering.isLE = true) = true ↔ _
  rw [← order]
  rcases order x y with _ | (_ | _ | _) <;> decide

theorem beq_iff_order : (x == y) = true ↔ order x y = some .eq := by
  change (x.toModel.unpack.compare y.toModel.unpack == some .eq) = true ↔ _
  simp [order]

theorem swap_compare (u v : UnpackedFloat) : v.compare u = (u.compare v).map Ordering.swap := by
  have signs (s t : Sign) : compare t s = (compare s t).swap := by cases s <;> cases t <;> rfl
  rcases u with (_ | _) | _ | _ | ⟨_ | _, m, e, _⟩ <;> rcases v with (_ | _) | _ | _ |
    ⟨_ | _, m', e', _⟩ <;>
    simp [UnpackedFloat.compare, Ordering.swap_then, Int.compare_swap, Nat.compare_swap, ← signs]

theorem order_swap (x y : Float) : order y x = (order x y).map Ordering.swap :=
  swap_compare _ _

theorem order_eq_none_iff : order x y = none ↔ x.isNaN = true ∨ y.isNaN = true := by
  change x.toModel.unpack.compare y.toModel.unpack = none ↔
    x.toModel.unpack.isNaN = true ∨ y.toModel.unpack.isNaN = true
  generalize x.toModel.unpack = u
  generalize y.toModel.unpack = v
  rcases u with (_ | _) | _ | _ | ⟨_ | _, m, e, _⟩ <;> rcases v with (_ | _) | _ | _ |
    ⟨_ | _, m', e', _⟩ <;> simp [UnpackedFloat.compare, UnpackedFloat.isNaN]

theorem compareDoubles_eq_order (x y : Float) : Amount.compareDoubles x y = order x y := by
  rw [Amount.compareDoubles]
  simp only [lt_iff_order, beq_iff_order, order_swap x y]
  rcases order x y with _ | (_ | _ | _) <;> rfl

/-- A double that is not below another one need not be above it. -/
theorem not_lt_iff : ¬ y < x ↔ x ≤ y ∨ x.isNaN = true ∨ y.isNaN = true := by
  rw [le_iff_order, lt_iff_order, ← order_eq_none_iff, order_swap x y]
  rcases order x y with _ | (_ | _ | _) <;> decide

theorem not_le_of_isNaN (nan : x.isNaN = true ∨ y.isNaN = true) : ¬ x ≤ y := by
  rw [le_iff_order, order_eq_none_iff.2 nan]
  decide

theorem admitsAny_atMost_iff : Relation.atMost.admitsAny (Amount.compareDoubles x y) = true ↔
    x ≤ y := by
  rw [compareDoubles_eq_order, le_iff_order]
  rcases order x y with _ | (_ | _ | _) <;> decide

section Rungs

/-- Where a number stands among all numbers: the infinities at both ends, the zeros in the middle,
and all others sorted by sign, exponent and significand. -/
def rung : UnpackedFloat → ℤ ×ₗ ℤ ×ₗ ℤ
  | .infinity .negative => toLex (-2, toLex (0, 0))
  | .finite .negative m e _ => toLex (-1, toLex (-e, -m))
  | .finite .positive m e _ => toLex (1, toLex (e, m))
  | .infinity .positive => toLex (2, toLex (0, 0))
  | .zero _ => toLex (0, toLex (0, 0))
  | .notANumber => toLex (0, toLex (0, 0))

theorem compare_eq_rung {u v : UnpackedFloat} (number : u.isNaN = false)
    (number' : v.isNaN = false) : u.compare v = some (compare (rung u) (rung v)) := by
  have natural (m n : ℕ) : compare (m : ℤ) n = compare m n := by
    rw [← cmp_eq_compare, ← cmp_eq_compare, Nat.strictMono_cast.cmp_map_eq]
  have negative (a b : ℤ) : compare (-a) (-b) = (compare a b).swap := by
    have falling : StrictAnti (Neg.neg : ℤ → ℤ) := fun _ _ => neg_lt_neg
    rw [← cmp_eq_compare, ← cmp_eq_compare, falling.cmp_map_eq, cmp_swap]
  -- Two numbers are compared by what kind they are, but for those that are finite and have the same
  -- sign.
  rcases u with (_ | _) | _ | _ | ⟨_ | _, m, e, _⟩ <;>
    rcases v with (_ | _) | _ | _ | ⟨_ | _, m', e', _⟩ <;> first
    | contradiction
    | rfl
    | simp [rung, UnpackedFloat.compare, Prod.Lex.compare_def, compareLex, compareOn, natural,
        negative, Ordering.swap_then]

theorem le_iff_rung : x ≤ y ↔ x.isNaN = false ∧ y.isNaN = false ∧
    rung x.toModel.unpack ≤ rung y.toModel.unpack := by
  by_cases nan : x.isNaN = true ∨ y.isNaN = true
  · simp only [not_le_of_isNaN nan, false_iff]
    rintro ⟨number, number', -⟩
    rw [number, number'] at nan
    simp at nan
  · simp only [not_or, Bool.not_eq_true] at nan
    obtain ⟨number, number'⟩ := nan
    have compared : order x y = some (compare (rung x.toModel.unpack) (rung y.toModel.unpack)) :=
      compare_eq_rung number number'
    simp only [le_iff_order, compared, number, number', true_and, Option.some.injEq,
      compare_lt_iff_lt, compare_eq_iff_eq, le_iff_lt_or_eq]

theorem double_le_trans {z : Float} (less : x ≤ y) (less' : y ≤ z) : x ≤ z := by
  obtain ⟨number, -, below⟩ := le_iff_rung.1 less
  obtain ⟨-, number', below'⟩ := le_iff_rung.1 less'
  exact le_iff_rung.2 ⟨number, number', below.trans below'⟩

theorem double_le_total (number : x.isNaN = false) (number' : y.isNaN = false) : x ≤ y ∨ y ≤ x := by
  rcases le_total (rung x.toModel.unpack) (rung y.toModel.unpack) with below | above
  · exact .inl (le_iff_rung.2 ⟨number, number', below⟩)
  · exact .inr (le_iff_rung.2 ⟨number', number, above⟩)

theorem double_le_self_iff : x ≤ x ↔ x.isNaN = false := by
  simp only [le_iff_rung, le_refl, and_true, and_self]

end Rungs

section Signs

theorem isNaN_unpack_iff {spec : Format} (bits : BitVec spec.numBits) :
    (UnpackedFloat.unpack spec bits).isNaN = true ↔
      unpackExponent bits = -1#(spec.exponentBits) ∧
      unpackMantissa bits ≠ 0#(spec.mantissaBitsWithoutImplicit) := by
  unfold UnpackedFloat.unpack
  simp only
  split
  · split <;> simp_all [UnpackedFloat.isNaN]
  · split
    · split <;> simp_all [UnpackedFloat.isNaN]
    · simp_all [UnpackedFloat.isNaN]

/-- Packing a number gives a number. Among numbers only the infinities are packed with the last
exponent, and they have no significand. -/
theorem isNaN_unpack_pack {u : UnpackedFloat} (number : u.isNaN = false) :
    (Float.Model.pack u).unpack.isNaN = false := by
  rw [← Bool.not_eq_true]
  change ¬ (UnpackedFloat.unpack .binary64 (UnpackedFloat.pack .binary64 u)).isNaN = true
  rw [isNaN_unpack_iff]
  rintro ⟨last, fraction⟩
  rcases u with s | _ | s | ⟨s, m, e, positive⟩
  · simp [UnpackedFloat.pack, packedInfinity] at fraction
  · contradiction
  · simp [UnpackedFloat.pack, packedZero] at fraction
  · simp only [UnpackedFloat.pack] at last fraction
    split at last
    case isTrue overflow =>
      rw [if_pos overflow] at fraction
      simp [packedInfinity] at fraction
    case isFalse small =>
      split at last
      case isTrue =>
        rw [unpackExponent_packComponents] at last
        have exponent := congrArg BitVec.toNat last
        have top : (-1#(Format.binary64.exponentBits)).toNat = 2047 := by decide
        have size : 2 ^ Format.binary64.exponentBits = 2048 := by decide
        rw [BitVec.toNat_ofNat, top, size] at exponent
        omega
      case isFalse => simp at last

theorem isNaN_neg (number : x.isNaN = false) : (-x).isNaN = false := by
  have unpacked : x.toModel.unpack.neg.isNaN = false := by
    change x.toModel.unpack.isNaN = false at number
    cases found : x.toModel.unpack <;> simp_all [UnpackedFloat.neg, UnpackedFloat.isNaN]
  exact isNaN_unpack_pack unpacked

theorem not_isNaN_of_lt (less : x < y) : x.isNaN = false ∧ y.isNaN = false := by
  rw [← Bool.not_eq_true, ← Bool.not_eq_true, ← not_or]
  intro nan
  rw [lt_iff_order, order_eq_none_iff.2 nan] at less
  cases less

/-- The magnitude of a double is a number just when the double is one. -/
theorem isNaN_magnitude (x : Float) : (magnitude x).isNaN = x.isNaN := by
  unfold magnitude
  split
  case isTrue negative =>
    have number := (not_isNaN_of_lt negative).1
    rw [number, isNaN_neg number]
  case isFalse => rfl

end Signs

end TensorCalculus.Decimal
