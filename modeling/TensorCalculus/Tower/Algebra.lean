import TensorCalculus.Literal.Basic
import TensorCalculus.Text.Case

/-!
# Algebras of the tower

A tag names an algebra and says how many components its values have. Every power of two has a
standard tag; other tags may be made up freely. -/

namespace TensorCalculus

open TensorCalculus.Text

-- Powers of natural numbers are those of `Nat.pow`, whatever other instances are in sight.
attribute [local instance (2000)] instPowNat

structure AlgebraTag where
  name : String
  dimension : Int
  deriving DecidableEq

def isPowerOfTwo (n : Nat) : Bool :=
  2 ^ n.log2 == n

/-- The level of the tower that has a given number of components. -/
def level? (n : Nat) : Option Nat :=
  if 2 ^ n.log2 = n then some n.log2 else none

theorem level?_eq_some {n k : Nat} (h : level? n = some k) : n = 2 ^ k := by
  unfold level? at h
  split at h
  · cases h
    omega
  · cases h

@[simp]
theorem level?_two_pow (k : Nat) : level? (2 ^ k) = some k := by
  simp [level?, Nat.log2_two_pow]

namespace AlgebraTag

def real : AlgebraTag := ⟨"Real", 1⟩
def complex : AlgebraTag := ⟨"Complex", 2⟩
def quaternion : AlgebraTag := ⟨"Quaternion", 4⟩
def octonion : AlgebraTag := ⟨"Octonion", 8⟩
def sedenion : AlgebraTag := ⟨"Sedenion", 16⟩

/-- The algebras with a name of their own. -/
def named : List AlgebraTag :=
  [real, complex, quaternion, octonion, sedenion, ⟨"Trigintaduonion", 32⟩,
    ⟨"Sexagintaquatronion", 64⟩]

/-- The standard tag of a number of components that are given one by one. There are never so many of
them that their number could not be written. -/
def standard (dimension : Int) : Except Fault AlgebraTag :=
  match named.find? (·.dimension = dimension) with
  | some tag => .ok tag
  | none =>
    if 0 < dimension ∧ isPowerOfTwo dimension.toNat then
      .ok ⟨s!"CayleyDickson{dimension}", dimension⟩
    else .error (.algebra (.dimension dimension))

/-- The standard tag of a dimension. It may be any whole number, but it must be possible to write
it, whether in a name or in a fault. -/
def ofDimension (dimension : Int) : Except Fault AlgebraTag :=
  if isWritable dimension then standard dimension else .error (.value .longInteger)

/-- The number behind the general name, if what follows the name consists of digits. -/
def generalDimension (text : String) (digits : List Char) : Except Fault Nat :=
  if ¬ digits.isEmpty ∧ digits.all isDigit then do
    let n ← Literal.wholeOfText (String.ofList digits)
    if isPowerOfTwo n.toNat then return n.toNat else .error (.algebra (.unknown text))
  else .error (.algebra (.unknown text))

/-- The dimension that a name stands for: one of the names above in any case, or the general name
with digits behind it. -/
def dimensionOf (text : String) : Except Fault Nat :=
  let key := lower text
  match named.find? (fun tag => lower tag.name = key) with
  | some tag => .ok tag.dimension.toNat
  | none =>
    let general := "cayleydickson".toList
    if general.isPrefixOf key.toList then generalDimension text (key.toList.drop general.length)
    else .error (.algebra (.unknown text))

example : (dimensionOf "CAYLEYDICKSON1").toOption = some 1 ∧
    (dimensionOf "CayleyDickson12").toOption = none := by
  decide +kernel

end AlgebraTag

end TensorCalculus
