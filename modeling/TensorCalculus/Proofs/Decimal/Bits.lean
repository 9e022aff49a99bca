import TensorCalculus.Proofs.Decimal.Doubles
import TensorCalculus.Proofs.Decimal.Whole

/-!
# The bits of doubles

The bits of a double, but for its sign, count the doubles from zero on: what they say, in units of
the smallest double, grows with them, and so does the order of doubles that are not negative.
Rounding to the nearest double stops between two neighbours, so a whole number that is not rounded
up bounds the same doubles as the double nearest to it. -/

namespace TensorCalculus.Decimal

open Float.Model Float.Model.UnpackedFloat

-- Powers of natural numbers are those of `Nat.pow`, whatever other instances are in sight.
attribute [local instance (2000)] instPowNat

/-- How often the unit of a double with these bits is the smallest unit doubled. -/
def doublings (bits : Nat) : Nat :=
  bits / 2 ^ fractionBits - 1

/-- How often the smallest unit is doubled to make one. -/
def oneDoublings : Nat := 1074

def significand (bits : Nat) : Nat :=
  bits - doublings bits * 2 ^ fractionBits

/-- What the bits of a double say, counted in the smallest unit. -/
def units (bits : Nat) : Nat :=
  significand bits * 2 ^ doublings bits

theorem units_lt_succ (bits : Nat) : units bits < units (bits + 1) := by
  have positive := Nat.two_pow_pos (doublings bits)
  have rising : doublings bits ≤ doublings (bits + 1) := by
    unfold doublings fractionBits
    omega
  unfold units significand
  rcases Nat.eq_or_lt_of_le rising with same | carried
  · rw [← same]
    apply Nat.mul_lt_mul_of_pos_right _ positive
    unfold doublings fractionBits
    omega
  · have next : doublings (bits + 1) = doublings bits + 1 := by
      unfold doublings fractionBits at *
      omega
    have full : bits + 1 = (doublings bits + 2) * 2 ^ fractionBits := by
      unfold doublings fractionBits at *
      omega
    rw [next, full, Nat.pow_succ, Nat.mul_comm _ 2, ← Nat.mul_assoc]
    apply Nat.mul_lt_mul_of_pos_right _ positive
    unfold fractionBits at *
    omega

theorem units_strictMono : StrictMono units :=
  strictMono_nat_of_lt_succ units_lt_succ

section Fields

variable {bits : Nat}

theorem doublings_of_lt (first : bits < 2 ^ fractionBits) : doublings bits = 0 := by
  rw [doublings, Nat.div_eq_of_lt first]

theorem significand_of_lt (first : bits < 2 ^ fractionBits) : significand bits = bits := by
  rw [significand, doublings_of_lt first, Nat.zero_mul, Nat.sub_zero]

theorem doublings_of_le (later : 2 ^ fractionBits ≤ bits) :
    ((bits / 2 ^ fractionBits : Nat) : Int) - 1075 = doublings bits - oneDoublings := by
  unfold doublings oneDoublings fractionBits at *
  omega

theorem significand_of_le (later : 2 ^ fractionBits ≤ bits) :
    significand bits = bits % 2 ^ fractionBits + 2 ^ fractionBits := by
  unfold significand doublings fractionBits at *
  omega

theorem significand_pos (positive : 0 < bits) : 0 < significand bits := by
  unfold significand doublings fractionBits
  omega

theorem div_eq_last_iff (bound : bits < 2 ^ magnitudeBits) : bits / 2 ^ fractionBits = 2047 ↔
    infinityBits ≤ bits := by
  unfold infinityBits magnitudeBits fractionBits at *
  omega

theorem mod_ne_zero_of_nan (bound : bits < 2 ^ magnitudeBits) (beyond : infinityBits < bits) :
    bits % 2 ^ fractionBits ≠ 0 := by
  unfold infinityBits magnitudeBits fractionBits at *
  omega

end Fields

section Reading

variable {x y : Float}

/-- The bits of a double but for its sign. -/
def lowBits (x : Float) : Nat :=
  x.toBits.toNat % 2 ^ magnitudeBits

theorem lowBits_lt (x : Float) : lowBits x < 2 ^ magnitudeBits :=
  Nat.mod_lt _ (Nat.two_pow_pos _)

theorem ofFloat_eq (x : Float) :
    Binary.ofFloat x =
      if lowBits x / 2 ^ fractionBits = 2047 then
        if lowBits x % 2 ^ fractionBits = 0 then .infinite (2 ^ magnitudeBits ≤ x.toBits.toNat)
        else .nan
      else if lowBits x / 2 ^ fractionBits = 0 then
        .finite (2 ^ magnitudeBits ≤ x.toBits.toNat) (lowBits x % 2 ^ fractionBits) (-1074)
      else
        .finite (2 ^ magnitudeBits ≤ x.toBits.toNat)
          (lowBits x % 2 ^ fractionBits + 2 ^ fractionBits)
          (((lowBits x / 2 ^ fractionBits : Nat) : Int) - 1075) := by
  have fraction : x.toBits.toNat % 2 ^ fractionBits = lowBits x % 2 ^ fractionBits := by
    unfold lowBits magnitudeBits fractionBits
    omega
  rw [← fraction]
  rfl

theorem ofFloat_of_nan (beyond : infinityBits < lowBits x) : Binary.ofFloat x = .nan := by
  rw [ofFloat_eq, if_pos ((div_eq_last_iff (lowBits_lt x)).2 beyond.le),
    if_neg (mod_ne_zero_of_nan (lowBits_lt x) beyond)]

theorem ofFloat_of_infinite (last : lowBits x = infinityBits) :
    Binary.ofFloat x = .infinite (2 ^ magnitudeBits ≤ x.toBits.toNat) := by
  have rest : lowBits x % 2 ^ fractionBits = 0 := by
    rw [last]
    decide
  rw [ofFloat_eq, if_pos ((div_eq_last_iff (lowBits_lt x)).2 last.ge), if_pos rest]

theorem ofFloat_of_finite (finite : lowBits x < infinityBits) :
    Binary.ofFloat x = .finite (2 ^ magnitudeBits ≤ x.toBits.toNat) (significand (lowBits x))
      (doublings (lowBits x) - oneDoublings) := by
  rw [ofFloat_eq, if_neg (mt (div_eq_last_iff (lowBits_lt x)).1 finite.not_ge)]
  by_cases first : lowBits x < 2 ^ fractionBits
  · rw [if_pos (Nat.div_eq_of_lt first), Nat.mod_eq_of_lt first, significand_of_lt first,
      doublings_of_lt first]
    rfl
  · have later := Nat.le_of_not_lt first
    have normal : lowBits x / 2 ^ fractionBits ≠ 0 := (Nat.div_pos later (Nat.two_pow_pos _)).ne'
    rw [if_neg normal, significand_of_le later, doublings_of_le later]

def bitVec (x : Float) : BitVec Format.binary64.numBits :=
  x.toModel.toBits.toBitVec

def signOf (x : Float) : Sign :=
  if 2 ^ magnitudeBits ≤ x.toBits.toNat then .negative else .positive

theorem toNat_unpackMantissa (x : Float) :
    (unpackMantissa (bitVec x)).toNat = lowBits x % 2 ^ fractionBits := by
  rw [unpackMantissa_def, BitVec.extractLsb'_toNat, Nat.shiftRight_zero]
  change x.toBits.toNat % 2 ^ (52 : Nat) = _
  simp only [lowBits, magnitudeBits, fractionBits]
  omega

theorem toNat_unpackExponent (x : Float) :
    (unpackExponent (bitVec x)).toNat = lowBits x / 2 ^ fractionBits := by
  rw [unpackExponent_def, BitVec.extractLsb'_toNat, Nat.shiftRight_eq_div_pow]
  change x.toBits.toNat / 2 ^ (52 : Nat) % 2 ^ (11 : Nat) = _
  simp only [lowBits, magnitudeBits, fractionBits]
  omega

theorem ofBitVec_unpackSign (x : Float) : Sign.ofBitVec (unpackSign (bitVec x)) = signOf x := by
  have bound : x.toBits.toNat < 2 ^ (64 : Nat) := x.toBits.toBitVec.isLt
  have bit :
      (unpackSign (bitVec x)).toNat = x.toBits.toNat / 2 ^ magnitudeBits % 2 ^ (1 : Nat) := by
    rw [unpackSign_def, BitVec.extractLsb'_toNat, Nat.shiftRight_eq_div_pow]
    rfl
  have sign (b : BitVec 1) : Sign.ofBitVec b = if b.toNat = 1 then .negative else .positive := by
    rcases BitVec.eq_zero_or_eq_one b with rfl | rfl <;> rfl
  have high : x.toBits.toNat / 2 ^ magnitudeBits % 2 ^ (1 : Nat) = 1 ↔
      2 ^ magnitudeBits ≤ x.toBits.toNat := by
    unfold magnitudeBits
    omega
  rw [sign, bit, signOf]
  simp only [high]

theorem unpackExponent_eq_last_iff :
    unpackExponent (bitVec x) = -BitVec.ofNat Format.binary64.exponentBits 1 ↔
      infinityBits ≤ lowBits x := by
  have last : (-BitVec.ofNat Format.binary64.exponentBits 1).toNat = 2047 := by decide
  rw [← BitVec.toNat_inj, toNat_unpackExponent, last, div_eq_last_iff (lowBits_lt x)]

theorem unpackExponent_eq_zero_iff :
    unpackExponent (bitVec x) = BitVec.ofNat Format.binary64.exponentBits 0 ↔
      lowBits x < 2 ^ fractionBits := by
  have zero : (BitVec.ofNat Format.binary64.exponentBits 0).toNat = 0 := by decide
  rw [← BitVec.toNat_inj, toNat_unpackExponent, zero, Nat.div_eq_zero_iff_lt (Nat.two_pow_pos _)]

theorem unpackMantissa_eq_zero_iff :
    unpackMantissa (bitVec x) = BitVec.ofNat Format.binary64.mantissaBitsWithoutImplicit 0 ↔
      lowBits x % 2 ^ fractionBits = 0 := by
  have zero : (BitVec.ofNat Format.binary64.mantissaBitsWithoutImplicit 0).toNat = 0 := by decide
  rw [← BitVec.toNat_inj, toNat_unpackMantissa, zero]

theorem unpack_of_nan (beyond : infinityBits < lowBits x) : x.toModel.unpack = .notANumber := by
  change UnpackedFloat.unpack .binary64 (bitVec x) = _
  simp only [UnpackedFloat.unpack]
  rw [if_pos (unpackExponent_eq_last_iff.2 beyond.le),
    if_neg (mt unpackMantissa_eq_zero_iff.1 (mod_ne_zero_of_nan (lowBits_lt x) beyond))]

theorem unpack_of_infinite (last : lowBits x = infinityBits) :
    x.toModel.unpack = .infinity (signOf x) := by
  have rest : lowBits x % 2 ^ fractionBits = 0 := by
    rw [last]
    decide
  change UnpackedFloat.unpack .binary64 (bitVec x) = _
  simp only [UnpackedFloat.unpack]
  rw [if_pos (unpackExponent_eq_last_iff.2 last.ge), if_pos (unpackMantissa_eq_zero_iff.2 rest),
    ofBitVec_unpackSign]

theorem unpack_of_zero (zero : lowBits x = 0) : x.toModel.unpack = .zero (signOf x) := by
  have finite : lowBits x < infinityBits := zero.trans_lt (by decide)
  have first : lowBits x < 2 ^ fractionBits := zero.trans_lt (by decide)
  have rest : lowBits x % 2 ^ fractionBits = 0 := by rw [zero, Nat.zero_mod]
  change UnpackedFloat.unpack .binary64 (bitVec x) = _
  simp only [UnpackedFloat.unpack]
  rw [if_neg (mt unpackExponent_eq_last_iff.1 finite.not_ge),
    if_pos (unpackExponent_eq_zero_iff.2 first), dif_pos (unpackMantissa_eq_zero_iff.2 rest),
    ofBitVec_unpackSign]

theorem unpack_of_finite (positive : 0 < lowBits x) (finite : lowBits x < infinityBits) :
    ∃ positive, x.toModel.unpack =
      .finite (signOf x) (significand (lowBits x)) (doublings (lowBits x) - oneDoublings)
        positive := by
  have bias : (Format.binary64.exponentBias : Int) +
      (Format.binary64.mantissaBitsWithoutImplicit : Int) = 1075 := rfl
  refine ⟨significand_pos positive, ?_⟩
  change UnpackedFloat.unpack .binary64 (bitVec x) = _
  simp only [UnpackedFloat.unpack, bias]
  rw [if_neg (mt unpackExponent_eq_last_iff.1 finite.not_ge)]
  by_cases first : lowBits x < 2 ^ fractionBits
  · have rest : lowBits x % 2 ^ fractionBits = lowBits x := Nat.mod_eq_of_lt first
    have low : (unpackMantissa (bitVec x)).toNat = significand (lowBits x) := by
      rw [toNat_unpackMantissa, rest, significand_of_lt first]
    have exponent : ((unpackExponent (bitVec x)).toNat : Int) - 1075 + 1 =
        doublings (lowBits x) - oneDoublings := by
      rw [toNat_unpackExponent, Nat.div_eq_of_lt first, doublings_of_lt first]
      rfl
    rw [if_pos (unpackExponent_eq_zero_iff.2 first),
      dif_neg (mt unpackMantissa_eq_zero_iff.1 (rest.symm ▸ positive.ne'))]
    simp only [low, exponent, ofBitVec_unpackSign]
  · have later := Nat.le_of_not_lt first
    have low : (1#1 ++ unpackMantissa (bitVec x)).toNat = significand (lowBits x) := by
      rw [BitVec.toNat_append, ← Nat.shiftLeft_add_eq_or_of_lt (unpackMantissa (bitVec x)).isLt,
        toNat_unpackMantissa, Nat.shiftLeft_eq, significand_of_le later]
      exact Nat.add_comm ..
    have exponent : ((unpackExponent (bitVec x)).toNat : Int) - 1075 =
        doublings (lowBits x) - oneDoublings := by
      rw [toNat_unpackExponent, doublings_of_le later]
    rw [if_neg (mt unpackExponent_eq_zero_iff.1 first)]
    simp only [low, exponent, ofBitVec_unpackSign]

/-- The exponents and then the significands are compared as the bits are. -/
theorem compare_doublings_then (bits bits' : Nat) :
    (compare ((doublings bits : Int) - oneDoublings) (doublings bits' - oneDoublings)).then
      (compare (significand bits) (significand bits')) = compare bits bits' := by
  have lesser {bits bits' : Nat} (less : bits < bits') :
      (compare ((doublings bits : Int) - oneDoublings) (doublings bits' - oneDoublings)).then
        (compare (significand bits) (significand bits')) = .lt := by
    rcases Nat.lt_trichotomy (doublings bits) (doublings bits') with fewer | same | more
    · rw [compare_lt_iff_lt.2 (by omega), Ordering.lt_then]
    · rw [same, compare_eq_iff_eq.2 rfl, Ordering.eq_then, compare_lt_iff_lt]
      unfold significand doublings fractionBits at *
      omega
    · unfold doublings fractionBits at *
      omega
  rcases Nat.lt_trichotomy bits bits' with less | rfl | more
  · rw [lesser less, compare_lt_iff_lt.2 less]
  · rw [compare_eq_iff_eq.2 rfl, compare_eq_iff_eq.2 rfl, compare_eq_iff_eq.2 rfl]
    rfl
  · have swapped := congrArg Ordering.swap (lesser more)
    rw [Ordering.swap_then, Int.compare_swap, Nat.compare_swap] at swapped
    rw [swapped, compare_gt_iff_gt.2 more]
    rfl

theorem lowBits_of_lt (small : x.toBits.toNat < infinityBits) : lowBits x = x.toBits.toNat := by
  unfold lowBits infinityBits magnitudeBits fractionBits at *
  omega

theorem signOf_of_lt (small : x.toBits.toNat < infinityBits) : signOf x = .positive := by
  rw [signOf, if_neg]
  unfold infinityBits magnitudeBits fractionBits at *
  omega

/-- Doubles that are not negative are ordered like their bits. -/
theorem order_eq_compare_bits (finite : y.toBits.toNat < infinityBits)
    (finite' : x.toBits.toNat < infinityBits) :
    order y x = some (compare y.toBits.toNat x.toBits.toNat) := by
  have low := lowBits_of_lt finite
  have low' := lowBits_of_lt finite'
  rw [order, ← low, ← low']
  rcases Nat.eq_zero_or_pos (lowBits y) with zero | positive
  · rw [unpack_of_zero zero, signOf_of_lt finite, zero]
    rcases Nat.eq_zero_or_pos (lowBits x) with zero' | positive'
    · rw [unpack_of_zero zero', zero']
      rfl
    · obtain ⟨_, unpacked'⟩ := unpack_of_finite positive' (low'.trans_lt finite')
      rw [unpacked', signOf_of_lt finite', compare_lt_iff_lt.2 positive']
      rfl
  · obtain ⟨_, unpacked⟩ := unpack_of_finite positive (low.trans_lt finite)
    rw [unpacked, signOf_of_lt finite]
    rcases Nat.eq_zero_or_pos (lowBits x) with zero' | positive'
    · rw [unpack_of_zero zero', zero', compare_gt_iff_gt.2 positive]
      rfl
    · obtain ⟨_, unpacked'⟩ := unpack_of_finite positive' (low'.trans_lt finite')
      rw [unpacked', signOf_of_lt finite', ← compare_doublings_then]
      rfl

theorem unpack_of_lt (small : x.toBits.toNat < infinityBits) :
    x.toModel.unpack = .zero .positive ∨
      ∃ m e positive, x.toModel.unpack = .finite .positive m e positive := by
  rcases Nat.eq_zero_or_pos (lowBits x) with zero | positive
  · rw [unpack_of_zero zero, signOf_of_lt small]
    exact .inl rfl
  · obtain ⟨_, unpacked⟩ := unpack_of_finite positive ((lowBits_of_lt small).trans_lt small)
    rw [unpacked, signOf_of_lt small]
    exact .inr ⟨_, _, _, rfl⟩

/-- Negative numbers are at most those that are not negative. -/
theorem le_of_negative (number : lowBits y ≤ infinityBits)
    (negative : 2 ^ magnitudeBits ≤ y.toBits.toNat) (finite : x.toBits.toNat < infinityBits) :
    y ≤ x := by
  have below : signOf y = .negative := if_pos negative
  rw [le_iff_order, order]
  rcases Nat.eq_or_lt_of_le number with last | small
  · rw [unpack_of_infinite last, below]
    rcases unpack_of_lt finite with unpacked | ⟨_, _, _, unpacked⟩ <;> rw [unpacked] <;>
      exact .inl rfl
  · rcases Nat.eq_zero_or_pos (lowBits y) with zero | positive
    · rw [unpack_of_zero zero, below]
      rcases unpack_of_lt finite with unpacked | ⟨_, _, _, unpacked⟩
      · rw [unpacked]
        exact .inr rfl
      · rw [unpacked]
        exact .inl rfl
    · obtain ⟨_, unpacked⟩ := unpack_of_finite positive small
      rw [unpacked, below]
      rcases unpack_of_lt finite with unpacked' | ⟨_, _, _, unpacked'⟩ <;> rw [unpacked'] <;>
        exact .inl rfl

/-- Infinity is not at most a finite double. -/
theorem not_le_of_infinite (last : y.toBits.toNat = infinityBits)
    (finite : x.toBits.toNat < infinityBits) : ¬ y ≤ x := by
  have low : lowBits y = infinityBits := by
    rw [lowBits, last]
    decide
  have above : signOf y = .positive := by
    rw [signOf, last, if_neg (by decide)]
  rw [le_iff_order, order, unpack_of_infinite low, above]
  rcases unpack_of_lt finite with unpacked | ⟨_, _, _, unpacked⟩ <;> rw [unpacked] <;>
    simp [UnpackedFloat.compare]

theorem isNaN_of_beyond (beyond : infinityBits < lowBits y) : y.isNaN = true := by
  change y.toModel.unpack.isNaN = true
  rw [unpack_of_nan beyond]
  rfl

end Reading

section Rounding

variable {n : Nat} {x y : Float}

/-- A carry out of the significand raises the exponent and says the same. -/
theorem units_add {q k : Nat} (normal : 2 ^ fractionBits ≤ q)
    (carried : q ≤ 2 ^ (fractionBits + 1)) : units (q + k * 2 ^ fractionBits) = q * 2 ^ k := by
  rcases Nat.eq_or_lt_of_le carried with full | inside
  · have doubled : doublings (q + k * 2 ^ fractionBits) = k + 1 := by
      unfold doublings fractionBits at *
      omega
    have half : significand (q + k * 2 ^ fractionBits) * 2 = q := by
      rw [significand, doubled]
      unfold fractionBits at *
      omega
    rw [units, doubled, Nat.pow_succ', ← Nat.mul_assoc, half]
  · have same : doublings (q + k * 2 ^ fractionBits) = k := by
      unfold doublings fractionBits at *
      omega
    rw [units, significand, same, Nat.add_sub_cancel]

/-- The double next to the nearest one is above a whole number that is not rounded up. -/
theorem lt_units_succ (down : units (nearestBits n 1) ≤ n * 2 ^ oneDoublings) :
    n * 2 ^ oneDoublings < units (nearestBits n 1 + 1) := by
  by_cases zero : n = 0
  · subst zero
    rw [Nat.zero_mul]
    decide
  obtain ⟨near, -⟩ :=
    two_mul_roundDiv_bounds (n * 2 ^ (52 - n.log2)) (Nat.two_pow_pos (n.log2 - 52))
  have normal : 2 ^ fractionBits ≤ roundDiv (n * 2 ^ (52 - n.log2)) (2 ^ (n.log2 - 52)) := by
    apply le_roundDiv (Nat.two_pow_pos _)
    rw [Nat.mul_comm]
    exact pow_mul_pow_le zero 52
  have carried := roundDiv_le (Nat.two_pow_pos (n.log2 - 52)) (mul_pow_lt n 52)
  rw [nearestBits_whole zero] at down ⊢
  generalize roundDiv (n * 2 ^ (52 - n.log2)) (2 ^ (n.log2 - 52)) = q at near normal carried down ⊢
  have below : n * 2 ^ oneDoublings < 2 ^ (53 : Nat) * 2 ^ (n.log2 + 1022) := by
    have exponents : 53 + (n.log2 + 1022) = n.log2 + 1 + oneDoublings := by
      unfold oneDoublings
      omega
    rw [← Nat.pow_add, exponents, Nat.pow_add]
    exact Nat.mul_lt_mul_of_pos_right Nat.lt_log2_self (Nat.two_pow_pos _)
  rw [units_add normal carried] at down
  have room : q + 1 ≤ 2 ^ (fractionBits + 1) := Nat.lt_of_mul_lt_mul_right (down.trans_lt below)
  rw [Nat.add_right_comm, units_add (normal.trans (Nat.le_succ q)) room]
  have next : n * 2 ^ (52 - n.log2) < (q + 1) * 2 ^ (n.log2 - 52) := by
    have positive := Nat.two_pow_pos (n.log2 - 52)
    have half :
        (2 * q + 1) * 2 ^ (n.log2 - 52) = 2 * (q * 2 ^ (n.log2 - 52)) + 2 ^ (n.log2 - 52) := by
      rw [Nat.add_mul, Nat.one_mul, Nat.mul_assoc]
    rw [Nat.succ_mul]
    omega
  have exponents : oneDoublings + (n.log2 - 52) = 52 - n.log2 + (n.log2 + 1022) := by
    unfold oneDoublings
    omega
  apply Nat.lt_of_mul_lt_mul_right (a := 2 ^ (n.log2 - 52))
  calc n * 2 ^ oneDoublings * 2 ^ (n.log2 - 52) = n * 2 ^ (52 - n.log2) * 2 ^ (n.log2 + 1022) := by
        rw [Nat.mul_assoc, Nat.mul_assoc, ← Nat.pow_add, ← Nat.pow_add, exponents]
    _ < (q + 1) * 2 ^ (n.log2 - 52) * 2 ^ (n.log2 + 1022) :=
      (Nat.mul_lt_mul_right (Nat.two_pow_pos _)).2 next
    _ = (q + 1) * 2 ^ (n.log2 + 1022) * 2 ^ (n.log2 - 52) := Nat.mul_right_comm ..

/-- What a double says, put beside a whole number in the smallest unit. -/
theorem ratio_le_iff (bits : Nat) :
    (ratio (significand bits) (doublings bits - oneDoublings)).1 ≤
      n * (ratio (significand bits) (doublings bits - oneDoublings)).2 ↔
      units bits ≤ n * 2 ^ oneDoublings := by
  unfold ratio units
  rcases Nat.le_total (doublings bits) oneDoublings with small | large
  · have rise : ((doublings bits : Int) - oneDoublings).toNat = 0 := by omega
    have fall : (-((doublings bits : Int) - oneDoublings)).toNat =
      oneDoublings - doublings bits := by omega
    have split : 2 ^ oneDoublings = 2 ^ (oneDoublings - doublings bits) * 2 ^ doublings bits := by
      rw [← Nat.pow_add, Nat.sub_add_cancel small]
    rw [rise, fall, split, ← Nat.mul_assoc, Nat.pow_zero, Nat.mul_one]
    exact (Nat.mul_le_mul_right_iff (Nat.two_pow_pos _)).symm
  · have rise : ((doublings bits : Int) - oneDoublings).toNat = doublings bits - oneDoublings := by
      omega
    have fall : (-((doublings bits : Int) - oneDoublings)).toNat = 0 := by omega
    have split : 2 ^ doublings bits = 2 ^ (doublings bits - oneDoublings) * 2 ^ oneDoublings := by
      rw [← Nat.pow_add, Nat.sub_add_cancel large]
    rw [rise, fall, split, ← Nat.mul_assoc, Nat.pow_zero, Nat.mul_one]
    exact (Nat.mul_le_mul_right_iff (Nat.two_pow_pos _)).symm

theorem admits_swap_compareOfLessAndEq (a b : Int) :
    Relation.atMost.admits (compareOfLessAndEq a b).swap = decide (b ≤ a) := by
  rcases Int.lt_trichotomy a b with less | rfl | more
  · simp [compareOfLessAndEq, less, Int.not_le.2 less, Relation.admits]
  · simp [compareOfLessAndEq, Relation.admits]
  · simp [compareOfLessAndEq, more.le, more.not_gt, more.ne', Relation.admits]

/-- Whether a double is at most a whole number, as far as it is not negative. -/
theorem admitsAny_compareWhole_iff (finite : y.toBits.toNat < infinityBits) :
    Relation.atMost.admitsAny ((Amount.compareWhole n y).map Ordering.swap) = true ↔
      units y.toBits.toNat ≤ n * 2 ^ oneDoublings := by
  have low := lowBits_of_lt finite
  have positive : ¬ 2 ^ magnitudeBits ≤ y.toBits.toNat := by
    unfold infinityBits magnitudeBits fractionBits at *
    omega
  rw [← ratio_le_iff, Amount.compareWhole, ofFloat_of_finite (low.trans_lt finite), low]
  simp only [decide_eq_false positive, Option.map_some, Relation.admitsAny]
  rw [admits_swap_compareOfLessAndEq, decide_eq_true_iff,
    if_neg Bool.false_ne_true, ← Int.natCast_mul, Int.ofNat_le]

/-- Negative numbers are at most a natural one. -/
theorem admitsAny_compareWhole_of_negative (number : lowBits y ≤ infinityBits)
    (negative : 2 ^ magnitudeBits ≤ y.toBits.toNat) :
    Relation.atMost.admitsAny ((Amount.compareWhole n y).map Ordering.swap) = true := by
  rw [Amount.compareWhole]
  rcases Nat.eq_or_lt_of_le number with last | small
  · rw [ofFloat_of_infinite last]
    simp [negative, Relation.admitsAny, Relation.admits]
  · rw [ofFloat_of_finite small]
    simp only [decide_eq_true negative, Option.map_some, Relation.admitsAny]
    rw [admits_swap_compareOfLessAndEq, decide_eq_true_iff, if_pos trivial]
    exact (Int.neg_nonpos_of_nonneg (Int.natCast_nonneg _)).trans
      (Int.mul_nonneg (Int.natCast_nonneg n) (Int.natCast_nonneg _))

/-- A whole number that is not rounded up bounds the same doubles as the double nearest to it. -/
theorem admitsAny_compareWhole_eq (finite : x.toBits.toNat < infinityBits)
    (nearest : x.toBits.toNat = nearestBits n 1)
    (down : Relation.atMost.admitsAny ((Amount.compareWhole n x).map Ordering.swap) = true)
      (y : Float) :
    Relation.atMost.admitsAny ((Amount.compareWhole n y).map Ordering.swap) = decide (y ≤ x) := by
  have exact := (admitsAny_compareWhole_iff finite).1 down
  rcases Nat.lt_or_ge infinityBits (lowBits y) with beyond | number
  · rw [Amount.compareWhole, ofFloat_of_nan beyond,
      decide_eq_false (not_le_of_isNaN (.inl (isNaN_of_beyond beyond)))]
    rfl
  by_cases negative : 2 ^ magnitudeBits ≤ y.toBits.toNat
  · rw [admitsAny_compareWhole_of_negative number negative,
      decide_eq_true (le_of_negative number negative finite)]
  have low : lowBits y = y.toBits.toNat := Nat.mod_eq_of_lt (Nat.lt_of_not_le negative)
  rcases Nat.eq_or_lt_of_le number with last | small
  · rw [Amount.compareWhole, ofFloat_of_infinite last, decide_eq_false negative,
      decide_eq_false (not_le_of_infinite (low.symm.trans last) finite)]
    rfl
  · rw [low] at small
    rw [Bool.eq_iff_iff, admitsAny_compareWhole_iff small, decide_eq_true_iff, le_iff_order,
      order_eq_compare_bits small finite, Option.some_inj, Option.some_inj, compare_lt_iff_lt,
      compare_eq_iff_eq,
      ← le_iff_lt_or_eq]
    constructor
    · intro within
      rw [nearest] at exact ⊢
      exact Nat.le_of_lt_succ (units_strictMono.lt_iff_lt.1 (within.trans_lt (lt_units_succ exact)))
    · intro within
      exact (units_strictMono.monotone within).trans exact

theorem toNat_toBits_nearest (finite : nearestBits n 1 < infinityBits) :
    (nearest false n 1).toBits.toNat = nearestBits n 1 := by
  rw [nearest, Nat.min_eq_left finite.le, toNat_toBits_ofMagnitude finite]

theorem not_nearest_lt_zero (finite : nearestBits n 1 < infinityBits) :
    ¬ nearest false n 1 < 0 := by
  have bits := toNat_toBits_nearest finite
  have zero : (0 : Float).toBits.toNat = 0 := rfl
  rw [lt_iff_order, order_eq_compare_bits (bits.trans_lt finite) (zero.trans_lt (by decide)), zero,
    Option.some_inj, compare_lt_iff_lt]
  exact Nat.not_lt_zero _

theorem toNat_toBits_nearest_negative (finite : nearestBits n 1 < infinityBits) :
    (nearest true n 1).toBits.toNat = nearestBits n 1 + 2 ^ magnitudeBits := by
  rw [nearest, Nat.min_eq_left finite.le]
  generalize nearestBits n 1 = bits at finite
  rw [infinityBits, fractionBits] at finite
  have word : (UInt64.ofNat (bits + 2 ^ magnitudeBits)).toNat = bits + 2 ^ magnitudeBits := by
    apply UInt64.toNat_ofNat_of_lt'
    rw [UInt64.size, magnitudeBits]
    omega
  rw [ofMagnitude, if_pos rfl, toBits_ofBits, word]
  rw [word, magnitudeBits]
  omega

theorem nearest_negative_lt_zero (nonzero : n ≠ 0) (finite : nearestBits n 1 < infinityBits) :
    nearest true n 1 < 0 := by
  have bits := toNat_toBits_nearest_negative finite
  have above : 0 < nearestBits n 1 := by
    rw [nearestBits_whole nonzero]
    unfold fractionBits
    omega
  have low : lowBits (nearest true n 1) = nearestBits n 1 := by
    rw [lowBits, bits]
    unfold infinityBits magnitudeBits fractionBits at *
    omega
  have negative : signOf (nearest true n 1) = .negative := by
    rw [signOf, bits, if_pos (Nat.le_add_left _ _)]
  have zero : (0 : Float).toModel.unpack = .zero .positive := rfl
  obtain ⟨_, unpacked⟩ := unpack_of_finite (low.symm ▸ above) (low.symm ▸ finite)
  rw [lt_iff_order, order, unpacked, negative, zero]
  rfl

end Rounding

end TensorCalculus.Decimal

namespace TensorCalculus.Literal

variable {n : Int} {x : Float}

theorem lt_zero_of_doubleOfInt (negative : n < 0) (double : doubleOfInt n = .ok x) : x < 0 := by
  have small := exists_doubleOfInt_iff.1 ⟨x, double⟩
  have finite := Decimal.nearestBits_lt_infinityBits small
  rw [doubleOfInt, Decimal.ofInt?, if_pos finite, decide_eq_true negative] at double
  cases double
  exact Decimal.nearest_negative_lt_zero (by omega) finite

end TensorCalculus.Literal
