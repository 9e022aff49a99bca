import TensorCalculus.Decimal.Binary

/-!
# Decimal layouts with a given number of places

Both layouts round the exact binary value once, a half going to the even neighbour: `fixed` keeps a
number of places behind the point, `scientific` one digit before the point and a number of places
behind it. -/

namespace TensorCalculus.Decimal

-- Powers of natural numbers are those of `Nat.pow`, whatever other instances are in sight.
attribute [local instance (2000)] instPowNat

def digitCount (n : Nat) : Nat :=
  (Nat.toDigits 10 n).length

/-- Decimal digits with leading zeros up to a width. -/
def padded (width n : Nat) : List Char :=
  let digits := Nat.toDigits 10 n
  List.replicate (width - digits.length) '0' ++ digits

/-- Puts a point before the last `places` digits. -/
def pointed (places : Nat) (digits : List Char) : List Char :=
  if places = 0 then digits
  else digits.take (digits.length - places) ++ '.' :: digits.drop (digits.length - places)

def signed (negative : Bool) (body : List Char) : String :=
  String.ofList (if negative then '-' :: body else body)

def infinite (negative : Bool) : String :=
  if negative then "-inf" else "inf"

/-- The most places behind the point that a double takes up; all further ones are zero. -/
def placesTaken : Nat := 1074

def fixed (places : Nat) (x : Float) : String :=
  match Binary.ofFloat x with
  | .nan => "nan"
  | .infinite negative => infinite negative
  | .finite negative significand exponent =>
    let (num, den) := ratio significand exponent
    let taken := min places placesTaken
    let digits := padded (taken + 1) (roundDiv (num * 10 ^ taken) den)
    signed negative (pointed places (digits ++ List.replicate (places - taken) '0'))

/-- The exponent of the leading decimal digit of a positive fraction. -/
def leadingExponent (num den : Nat) : Int :=
  if den ≤ num then (digitCount (num / den) : Int) - 1 else -(digitCount ((den - 1) / num) : Int)

/-- An exponent with its sign and at least two digits. -/
def exponentMark (e : Int) : List Char :=
  'e' :: (if e < 0 then '-' else '+') :: padded 2 e.natAbs

/-- The leading `places + 1` digits of a positive fraction, rounded, and the exponent of the
first. -/
def leadingDigits (places num den : Nat) : Nat × Int :=
  let e := leadingExponent num den
  let shift : Int := places - e
  let q := roundDiv (num * 10 ^ shift.toNat) (den * 10 ^ (-shift).toNat)
  if q < 10 ^ (places + 1) then (q, e) else (q / 10, e + 1)

def scientific (places : Nat) (x : Float) : String :=
  match Binary.ofFloat x with
  | .nan => "nan"
  | .infinite negative => infinite negative
  | .finite negative significand exponent =>
    let (num, den) := ratio significand exponent
    let (digits, e) := if significand = 0 then (0, 0) else leadingDigits places num den
    signed negative (pointed places (padded (places + 1) digits) ++ exponentMark e)

example : fixed 3 2.0005 = "2.001" ∧ fixed 0 2.5 = "2" ∧ fixed 2 (-0.0) = "-0.00" := by
  decide +kernel

example : scientific 16 0.1 = "1.0000000000000001e-01" ∧ scientific 1 9.96 = "1.0e+01" := by
  decide +kernel

end TensorCalculus.Decimal
