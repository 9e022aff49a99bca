import Mathlib
import TensorCalculus.Literal.Order

/-!
# Whole numbers as doubles

A whole number is in the range of doubles as long as rounding does not carry it to the next power of
two. Up to 53 bits it is a double itself, whose significand and exponent can be read off its leading
digit. -/

namespace TensorCalculus.Decimal

-- Powers of natural numbers are those of `Nat.pow`, whatever other instances are in sight.
attribute [local instance (2000)] instPowNat

/-- Whole numbers below this one are in the range of doubles: it is half a unit in the last place
away from the power of two that ends the range. -/
def wholeLimit : Nat := 2 ^ (1024 : Nat) - 2 ^ (970 : Nat)

/-- How a number lies to the power of two that it begins with, both scaled to `k` further bits. -/
theorem pow_mul_pow_le {n : Nat} (nonzero : n ≠ 0) (k : Nat) :
    2 ^ (n.log2 - k) * 2 ^ k ≤ n * 2 ^ (k - n.log2) := by
  calc 2 ^ (n.log2 - k) * 2 ^ k = 2 ^ n.log2 * 2 ^ (k - n.log2) := by
        rw [← Nat.pow_add, ← Nat.pow_add]
        congr 1
        omega
    _ ≤ n * 2 ^ (k - n.log2) := Nat.mul_le_mul_right _ (Nat.log2_self_le nonzero)

theorem mul_pow_lt (n k : Nat) : n * 2 ^ (k - n.log2) < 2 ^ (k + 1) * 2 ^ (n.log2 - k) := by
  calc n * 2 ^ (k - n.log2) < 2 ^ (n.log2 + 1) * 2 ^ (k - n.log2) :=
        Nat.mul_lt_mul_of_pos_right Nat.lt_log2_self (Nat.two_pow_pos _)
    _ = 2 ^ (k + 1) * 2 ^ (n.log2 - k) := by
        rw [← Nat.pow_add, ← Nat.pow_add]
        congr 1
        omega

/-- The bits of a whole number, from its significand and its exponent. -/
theorem nearestBits_whole {n : Nat} (nonzero : n ≠ 0) :
    nearestBits n 1 =
      roundDiv (n * 2 ^ (52 - n.log2)) (2 ^ (n.log2 - 52)) + (n.log2 + 1022) *
        2 ^ fractionBits := by
  have one : Nat.log2 1 = 0 := by decide
  have fall : (-((n.log2 : Int) - (0 : Nat) - 53)).toNat = 53 - n.log2 := by omega
  have rise : ((n.log2 : Int) - (0 : Nat) - 53).toNat = n.log2 - 53 := by omega
  have exponent : max ((n.log2 : Int) - (0 : Nat) - 53 + 1) (-1074) = n.log2 - 52 := by omega
  have fall' : (-((n.log2 : Int) - 52)).toNat = 52 - n.log2 := by omega
  have rise' : ((n.log2 : Int) - 52).toNat = n.log2 - 52 := by omega
  have biased : ((n.log2 : Int) - 52 + 1074).toNat = n.log2 + 1022 := by omega
  have leading : 1 * 2 ^ (n.log2 - 53) * 2 ^ (fractionBits + 1) ≤ n * 2 ^ (53 - n.log2) := by
    rw [Nat.one_mul]
    exact pow_mul_pow_le nonzero 53
  simp only [nearestBits, if_neg nonzero, one]
  rw [fall, rise, if_pos leading, exponent, fall', rise', biased, Nat.one_mul]

theorem roundDiv_le {num den q : Nat} (positive : 0 < den) (small : num < q * den) :
    roundDiv num den ≤ q := by
  obtain ⟨-, bound⟩ := two_mul_roundDiv_bounds num positive
  refine Nat.le_of_not_lt fun more => ?_
  have beyond : 2 * (q + 1) * den ≤ 2 * roundDiv num den * den :=
    Nat.mul_le_mul_right _ (Nat.mul_le_mul_left 2 more)
  have expand : 2 * (q + 1) * den = 2 * (q * den) + 2 * den := by grind
  omega

theorem roundDiv_lt {num den q : Nat} (positive : 0 < den) (small : 2 * num + den < 2 * (q * den)) :
    roundDiv num den < q := by
  obtain ⟨-, bound⟩ := two_mul_roundDiv_bounds num positive
  refine Nat.lt_of_not_le fun more => ?_
  have beyond : 2 * q * den ≤ 2 * roundDiv num den * den :=
    Nat.mul_le_mul_right _ (Nat.mul_le_mul_left 2 more)
  rw [Nat.mul_assoc 2 q] at beyond
  omega

/-- Only a carry from the last significand to the next power of two leads out of the range. -/
theorem nearestBits_lt_infinityBits {n : Nat} (small : n < wholeLimit) :
    nearestBits n 1 < infinityBits := by
  unfold wholeLimit at small
  by_cases zero : n = 0
  · rw [zero]
    decide
  have top : n.log2 < 1024 := (Nat.log2_lt zero).2 (by omega)
  rw [nearestBits_whole zero, infinityBits, fractionBits]
  rcases Nat.lt_or_eq_of_le (Nat.le_of_lt_succ top) with lower | highest
  · have significand := roundDiv_le (Nat.two_pow_pos (n.log2 - 52)) (mul_pow_lt n 52)
    omega
  · have last := Nat.pow_add 2 53 971
    have half := Nat.pow_add 2 970 1
    simp only [Nat.reduceAdd, Nat.pow_one] at last half
    have significand : roundDiv n (2 ^ (971 : Nat)) < 2 ^ (53 : Nat) :=
      roundDiv_lt (Nat.two_pow_pos 971) (by omega)
    have scaled : n * 2 ^ (52 - 1023 : Nat) = n := Nat.mul_one n
    have unit : 1023 - 52 = 971 := rfl
    rw [highest, scaled, unit]
    omega

theorem exists_ofInt? {n : Int} (small : n.natAbs < wholeLimit) : ∃ x, ofInt? n = some x := by
  rw [ofInt?, if_pos (nearestBits_lt_infinityBits small)]
  exact ⟨_, rfl⟩

theorem le_roundDiv {num den q : Nat} (positive : 0 < den) (large : q * den ≤ num) :
    q ≤ roundDiv num den := by
  obtain ⟨bound, -⟩ := two_mul_roundDiv_bounds num positive
  refine Nat.le_of_not_lt fun fewer => ?_
  have within : (2 * roundDiv num den + 1) * den < 2 * q * den :=
    Nat.mul_lt_mul_of_pos_right (by omega) positive
  rw [Nat.mul_assoc 2 q] at within
  omega

/-- Half a unit more than an odd number is rounded up. -/
theorem lt_roundDiv_of_odd {num den q : Nat} (positive : 0 < den) (odd : q % 2 = 1)
    (large : (2 * q + 1) * den ≤ 2 * num) : q < roundDiv num den := by
  by_cases beyond : (q + 1) * den ≤ num
  · exact le_roundDiv positive beyond
  · have expand : (2 * q + 1) * den = 2 * (q * den) + den := by grind
    have next : (q + 1) * den = q * den + den := by grind
    have quotient : num / den = q := by
      rw [Nat.div_eq_iff positive]
      omega
    have split := Nat.div_add_mod num den
    rw [quotient, Nat.mul_comm] at split
    unfold roundDiv
    simp only [quotient, odd]
    split
    · omega
    · split <;> omega

/-- From there on, rounding leads out of the range. The smallest such number lies half a unit below
the power of two, and the half goes up because the significand below it is odd. -/
theorem infinityBits_le_nearestBits {n : Nat} (large : wholeLimit ≤ n) :
    infinityBits ≤ nearestBits n 1 := by
  unfold wholeLimit at large
  have nonzero : n ≠ 0 := by omega
  have top : 1023 ≤ n.log2 := (Nat.le_log2 nonzero).2 (by omega)
  rw [nearestBits_whole nonzero, infinityBits, fractionBits]
  rcases Nat.eq_or_lt_of_le top with highest | beyond
  · have last := Nat.pow_add 2 53 971
    have half := Nat.pow_add 2 970 1
    simp only [Nat.reduceAdd, Nat.pow_one] at last half
    have scaled : n * 2 ^ (52 - 1023 : Nat) = n := Nat.mul_one n
    have unit : 1023 - 52 = 971 := rfl
    have significand : 2 ^ (53 : Nat) - 1 < roundDiv n (2 ^ (971 : Nat)) :=
      lt_roundDiv_of_odd (Nat.two_pow_pos 971) (by decide) (by omega)
    rw [← highest, scaled, unit]
    omega
  · have normal : 2 ^ (52 : Nat) ≤ roundDiv (n * 2 ^ (52 - n.log2)) (2 ^ (n.log2 - 52)) := by
      apply le_roundDiv (Nat.two_pow_pos _)
      rw [Nat.mul_comm]
      exact pow_mul_pow_le nonzero 52
    omega

theorem ofInt?_eq_none_iff {n : Int} : ofInt? n = none ↔ wholeLimit ≤ n.natAbs := by
  rw [ofInt?]
  constructor
  · intro absent
    by_contra small
    rw [if_pos (nearestBits_lt_infinityBits (Nat.lt_of_not_le small))] at absent
    cases absent
  · intro large
    rw [if_neg (Nat.not_lt.2 (infinityBits_le_nearestBits large))]

/-- The bits of a double that is a number are the bits it was made of. -/
theorem toBits_ofBits {b : UInt64} (number : b.toNat % 2 ^ 63 / 2 ^ 52 ≠ 2047) :
    (Float.ofBits b).toBits = b := by
  have valid : Float.Model.Format.binary64.Valid b.toBitVec := by
    constructor
    intro exponent
    have bits := congrArg BitVec.toNat exponent
    simp [Float.Model.UnpackedFloat.unpackExponent] at bits
    rw [Nat.shiftRight_eq_div_pow] at bits
    omega
  have made : Float.ofBits (Float.ofModel ⟨b, valid⟩).toBits = Float.ofModel ⟨b, valid⟩ :=
    Float.ofBits_toBits _
  have same : Float.ofBits b = Float.ofModel ⟨b, valid⟩ := made
  rw [same]
  rfl

theorem toNat_toBits_ofMagnitude {magnitude : Nat} (finite : magnitude < infinityBits) :
    (ofMagnitude false magnitude).toBits.toNat = magnitude := by
  rw [infinityBits, fractionBits] at finite
  have word : (UInt64.ofNat magnitude).toNat = magnitude := by
    apply UInt64.toNat_ofNat_of_lt'
    rw [UInt64.size]
    omega
  rw [ofMagnitude, if_neg Bool.false_ne_true, toBits_ofBits, word]
  rw [word]
  omega

/-- A whole number of at most 53 bits is its own significand, up to a power of two. -/
theorem ofFloat_nearest {n : Nat} (nonzero : n ≠ 0) (small : n < 2 ^ (53 : Nat)) :
    Binary.ofFloat (nearest false n 1) = .finite false (n * 2 ^ (52 - n.log2)) (n.log2 - 52) := by
  have top : n.log2 ≤ 52 := Nat.le_of_lt_succ ((Nat.log2_lt nonzero).2 small)
  have low := pow_mul_pow_le nonzero 52
  have high := mul_pow_lt n 52
  have unit : n.log2 - 52 = 0 := by omega
  rw [unit] at low high
  generalize significand : n * 2 ^ (52 - n.log2) = f at low high ⊢
  have bits : nearestBits n 1 = f + (n.log2 + 1022) * 2 ^ fractionBits := by
    have exact := roundDiv_mul Nat.one_pos f
    rw [Nat.mul_one] at exact
    rw [nearestBits_whole nonzero, significand, unit, Nat.pow_zero, exact]
  have finite : nearestBits n 1 < infinityBits :=
    nearestBits_lt_infinityBits (small.trans (by decide +kernel))
  have read : (nearest false n 1).toBits.toNat = nearestBits n 1 := by
    rw [nearest, Nat.min_eq_left finite.le, toNat_toBits_ofMagnitude finite]
  simp only [fractionBits, Nat.reducePow] at bits low high
  have positive : ¬ 2 ^ magnitudeBits ≤ nearestBits n 1 := by
    rw [bits, magnitudeBits]
    omega
  have biased : nearestBits n 1 % 2 ^ magnitudeBits / 2 ^ fractionBits = n.log2 + 1023 := by
    rw [bits, magnitudeBits, fractionBits]
    omega
  have fraction : nearestBits n 1 % 2 ^ fractionBits + 2 ^ fractionBits = f := by
    rw [bits, fractionBits]
    omega
  have number : ¬ n.log2 + 1023 = 2047 := by omega
  have normal : ¬ n.log2 + 1023 = 0 := by omega
  have exponent : ((n.log2 + 1023 : Nat) : Int) - 1075 = n.log2 - 52 := by omega
  unfold Binary.ofFloat
  rw [read]
  dsimp only
  rw [biased, if_neg number, if_neg normal, fraction, decide_eq_false positive, exponent]

/-- Whole numbers of at most 53 bits, and the next one, are doubles. -/
theorem compareWhole_nearest {n : Nat} (small : n ≤ 2 ^ (53 : Nat)) :
    Amount.compareWhole n (nearest false n 1) = some .eq := by
  rcases Nat.eq_or_lt_of_le small with rfl | smaller
  · decide +kernel
  by_cases zero : n = 0
  · rw [zero]
    decide +kernel
  have top : n.log2 ≤ 52 := Nat.le_of_lt_succ ((Nat.log2_lt zero).2 smaller)
  have rise : ((n.log2 : Int) - 52).toNat = 0 := by omega
  have fall : (-((n.log2 : Int) - 52)).toNat = 52 - n.log2 := by omega
  rw [Amount.compareWhole, ofFloat_nearest zero smaller]
  simp only [ratio, rise, fall]
  rw [if_neg Bool.false_ne_true]
  simp [compareOfLessAndEq]

end TensorCalculus.Decimal

namespace TensorCalculus.Literal

theorem doubleOfInt_natCast {n : Nat} (small : n < Decimal.wholeLimit) :
    doubleOfInt n = .ok (Decimal.nearest false n 1) := by
  have natural : decide ((n : Int) < 0) = false :=
    decide_eq_false (Int.not_lt.2 (Int.natCast_nonneg n))
  rw [doubleOfInt, Decimal.ofInt?, Int.natAbs_natCast,
    if_pos (Decimal.nearestBits_lt_infinityBits small), natural]

theorem doubleOfInt_of_large {n : Int} (large : Decimal.wholeLimit ≤ n.natAbs) :
    doubleOfInt n = .error (.range .integerTooLarge) := by
  rw [doubleOfInt, Decimal.ofInt?_eq_none_iff.2 large]

theorem exists_doubleOfInt_iff {n : Int} : (∃ x, doubleOfInt n = .ok x) ↔
    n.natAbs < Decimal.wholeLimit := by
  constructor
  · rintro ⟨x, double⟩
    by_contra large
    rw [doubleOfInt_of_large (Nat.not_lt.1 large)] at double
    cases double
  · intro small
    obtain ⟨x, found⟩ := Decimal.exists_ofInt? small
    rw [doubleOfInt, found]
    exact ⟨x, rfl⟩

theorem same_of_doubleOfInt {n : Nat} (small : n ≤ 2 ^ 53) {x : Float}
    (double : doubleOfInt n = .ok x) : same (.real x) (.int n) = true := by
  rw [doubleOfInt_natCast (small.trans_lt (by decide +kernel))] at double
  cases double
  have equal : (Amount.compareWhole n (Decimal.nearest false n 1)).map Ordering.swap =
      some .eq := by
    rw [Decimal.compareWhole_nearest small]
    rfl
  simp only [same, amount?, Amount.compare, equal]
  rfl

/-- Whether a double stands for a whole number: it is the nearest one, and the number itself where
that has at most 53 bits. -/
structure Rounds (n : Int) (x : Float) : Prop where
  nearest : doubleOfInt n = .ok x
  exact : 0 ≤ n → n ≤ 2 ^ 53 → same (.real x) (.int n) = true

theorem rounds_of_doubleOfInt {n : Int} {x : Float} (double : doubleOfInt n = .ok x) :
    Rounds n x where
  nearest := double
  exact nonnegative small := by
    obtain ⟨n, rfl⟩ := Int.eq_ofNat_of_zero_le nonnegative
    apply same_of_doubleOfInt _ double
    exact_mod_cast small

end TensorCalculus.Literal
