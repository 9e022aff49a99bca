/-!
# Binary numbers as exact fractions

A finite double is a whole number times a power of two. Reading its bits that way, and rounding a
fraction back to the nearest double with ties to even, keeps every conversion between text and
numbers exact. -/

namespace TensorCalculus.Decimal

-- Powers of natural numbers are those of `Nat.pow`, whatever other instances are in sight.
attribute [local instance (2000)] instPowNat

/-- Division rounded to the nearest whole number, a half going to the even neighbour. -/
def roundDiv (num den : Nat) : Nat :=
  let q := num / den
  let r := num % den
  if 2 * r < den then q else if den < 2 * r then q + 1 else q + q % 2

theorem roundDiv_mul {den : Nat} (h : 0 < den) (q : Nat) : roundDiv (q * den) den = q := by
  simp [roundDiv, Nat.mul_div_cancel _ h, h]

/-- The rounded quotient is at most half a unit away. -/
theorem two_mul_roundDiv_bounds (num : Nat) {den : Nat} (h : 0 < den) :
    2 * num ≤ (2 * roundDiv num den + 1) * den ∧ 2 * roundDiv num den * den ≤ 2 * num + den := by
  have split := Nat.div_add_mod num den
  have small := Nat.mod_lt num h
  generalize hq : num / den = q at split
  generalize hr : num % den = r at split small
  have expand : ∀ k : Nat, (2 * k + 1) * den = 2 * (den * k) + den := fun k => by grind
  have double : ∀ k : Nat, 2 * k * den = 2 * (den * k) := fun k => by grind
  have next : den * (q + 1) = den * q + den := by grind
  simp only [roundDiv, hq, hr]
  rw [expand, double]
  split
  · omega
  · split
    · omega
    · rcases Nat.mod_two_eq_zero_or_one q with even | odd
      · rw [even, Nat.add_zero]; omega
      · rw [odd]; omega

/-- How many bits of a double hold the fraction. -/
def fractionBits : Nat := 52

/-- How many bits of a double hold everything but the sign. -/
def magnitudeBits : Nat := 63

inductive Binary where
  | nan
  | infinite (negative : Bool)
  /-- The number `significand * 2 ^ exponent` under its sign. -/
  | finite (negative : Bool) (significand : Nat) (exponent : Int)

namespace Binary

def ofFloat (x : Float) : Binary :=
  let bits := x.toBits.toNat
  let negative : Bool := 2 ^ magnitudeBits ≤ bits
  let biased : Nat := bits % 2 ^ magnitudeBits / 2 ^ fractionBits
  let fraction : Nat := bits % 2 ^ fractionBits
  if biased = 2047 then
    if fraction = 0 then .infinite negative else .nan
  else if biased = 0 then .finite negative fraction (-1074)
  else .finite negative (fraction + 2 ^ fractionBits) ((biased : Int) - 1075)

end Binary

/-- The fraction that `significand * 2 ^ exponent` is, with a positive denominator. -/
def ratio (significand : Nat) (exponent : Int) : Nat × Nat :=
  (significand * 2 ^ exponent.toNat, 2 ^ (-exponent).toNat)

/-- The bits, sign aside, of the double nearest to a fraction; the bits of infinity or more when the
fraction is too large. Significands are counted from the smallest exponent on, so that a carry out
of the significand raises the exponent by itself. -/
def nearestBits (num den : Nat) : Nat :=
  if num = 0 then 0 else
    let guess : Int := num.log2 - den.log2 - 53
    let scaled (e : Int) : Nat × Nat := (num * 2 ^ (-e).toNat, den * 2 ^ e.toNat)
    let (n, d) := scaled guess
    let exact := if d * 2 ^ (fractionBits + 1) ≤ n then guess + 1 else guess
    let e := max exact (-1074)
    let (n, d) := scaled e
    roundDiv n d + (e + 1074).toNat * 2 ^ fractionBits

def infinityBits : Nat := 2047 * 2 ^ fractionBits

/-- The double with given bits under a sign. -/
def ofMagnitude (negative : Bool) (magnitude : Nat) : Float :=
  Float.ofBits (UInt64.ofNat (if negative then magnitude + 2 ^ magnitudeBits else magnitude))

def infinity (negative : Bool) : Float :=
  ofMagnitude negative infinityBits

/-- The double nearest to a fraction under a sign; a fraction beyond the range becomes infinite. -/
def nearest (negative : Bool) (num den : Nat) : Float :=
  ofMagnitude negative (min (nearestBits num den) infinityBits)

/-- The double nearest to a whole number, if it is in range. -/
def ofInt? (n : Int) : Option Float :=
  if nearestBits n.natAbs 1 < infinityBits then some (nearest (n < 0) n.natAbs 1) else none

/-- The double nearest to `digits * 10 ^ exponent`. Exponents far beyond the range are answered at
once. -/
def ofDigits (negative : Bool) (digits : Nat) (exponent : Int) : Float :=
  let leading : Int := (Nat.toDigits 10 digits).length + exponent
  if digits = 0 ∨ leading < -400 then nearest negative 0 1
  else if 400 < leading then infinity negative
  else nearest negative (digits * 10 ^ exponent.toNat) (10 ^ (-exponent).toNat)

/-- The whole part of a double, toward zero; nothing for infinities and what is not a number. -/
def wholePart? (x : Float) : Option Int :=
  match Binary.ofFloat x with
  | .finite negative significand exponent =>
    let (num, den) := ratio significand exponent
    some (if negative then -((num / den : Nat) : Int) else (num / den : Nat))
  | _ => none

example : ofInt? (2 ^ 53 + 1) = some 9007199254740992 ∧ ofInt? (2 ^ 1024) = none := by
  decide +kernel

example : ofDigits false 1 (-1) = 0.1 ∧ wholePart? (-2.75) = some (-2) := by decide +kernel

end TensorCalculus.Decimal
