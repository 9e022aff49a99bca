import TensorCalculus.Decimal.Layout

/-!
# The fewest digits that read back

The reals that round to a double form an interval around it. The digits written are the fewest that
name a number of that interval, and of those the nearest to the double. On the grid of numbers with
a given count of digits it is enough to try the two neighbours of the double. -/

namespace TensorCalculus.Decimal

-- Powers of natural numbers are those of `Nat.pow`, whatever other instances are in sight.
attribute [local instance (2000)] instPowNat

/-- The interval of fractions that round to `significand * 2 ^ exponent`, over the common
denominator `den`; the ends belong to it when the significand is even. Below a power of two the
spacing halves. -/
structure RoundingInterval where
  low : Nat
  value : Nat
  high : Nat
  den : Nat
  closed : Bool

def RoundingInterval.of (significand : Nat) (exponent : Int) : RoundingInterval :=
  let below := if significand = 2 ^ fractionBits ∧ -1074 < exponent then 1 else 2
  let unit := 2 ^ exponent.toNat
  { low := (4 * significand - below) * unit
    value := 4 * significand * unit
    high := (4 * significand + 2) * unit
    den := 4 * 2 ^ (-exponent).toNat
    closed := significand % 2 == 0 }

/-- Whether the fraction `num / den` lies in the interval. -/
def RoundingInterval.holds (i : RoundingInterval) (num den : Nat) : Bool :=
  if i.closed then i.low * den ≤ num * i.den && num * i.den ≤ i.high * den
  else i.low * den < num * i.den && num * i.den < i.high * den

/-- The number with `places + 1` digits nearest to the double among those that read back as it, if
there is one, with the exponent of its last digit. Rounding up to a power of ten leaves one
digit. -/
def onGrid (i : RoundingInterval) (places : Nat) : Option (Nat × Int) :=
  let last : Int := leadingExponent i.value i.den - places
  let up := 10 ^ last.toNat
  let down := 10 ^ (-last).toNat
  let floor := i.value * down / (i.den * up)
  let lower := i.holds (floor * up) down
  let upper := i.holds ((floor + 1) * up) down
  let twice := 2 * (i.value * down)
  let middle := (2 * floor + 1) * (i.den * up)
  if lower && (!upper || twice < middle || (twice == middle && floor % 2 == 0)) then
    some (floor, last)
  else if upper then
    if floor + 1 = 10 ^ (places + 1) then some (1, last + places + 1) else some (floor + 1, last)
  else none

/-- Seventeen digits always suffice. -/
def shortestDigits (i : RoundingInterval) : Nat × Int :=
  ((List.range 17).findSome? (onGrid i)).getD (0, 0)

/-- Digits `d` whose last one stands at exponent `last`: positional from 0.0001 up to below 10 ^ 16,
with at least one place behind the point, and with an exponent otherwise. -/
def arranged (d : Nat) (last : Int) : List Char :=
  let digits := Nat.toDigits 10 d
  let e : Int := last + digits.length - 1
  if -4 ≤ e ∧ e < 16 then
    if 0 ≤ last then digits ++ List.replicate last.toNat '0' ++ ['.', '0']
    else pointed (-last).toNat (padded ((-last).toNat + 1) d)
  else pointed (digits.length - 1) digits ++ exponentMark e

def shortest (x : Float) : String :=
  match Binary.ofFloat x with
  | .nan => "nan"
  | .infinite negative => infinite negative
  | .finite negative significand exponent =>
    if significand = 0 then signed negative ['0', '.', '0']
    else
      let (d, last) := shortestDigits (.of significand exponent)
      signed negative (arranged d last)

example : shortest 0.1 = "0.1" ∧ shortest 2 = "2.0" ∧ shortest 1e16 = "1e+16" ∧
    shortest 5e-324 = "5e-324" ∧ shortest (-0.0001) = "-0.0001" ∧ shortest 1e-7 = "1e-07" := by
  decide +kernel

end TensorCalculus.Decimal
