import TensorCalculus.Literal.Basic

/-!
# Random elements

Random tensors are drawn from a counter: each state is the seed plus a multiple of an odd constant,
and its bits are mixed until every bit depends on every other. A draw is uniform on the interval
from -1 to 1. -/

namespace TensorCalculus.Random

def mix (z : UInt64) : UInt64 :=
  let z := (z ^^^ (z >>> 30)) * 0xbf58476d1ce4e5b9
  let z := (z ^^^ (z >>> 27)) * 0x94d049bb133111eb
  z ^^^ (z >>> 31)

/-- The bits of the draw with a given number. -/
def bitsAt (seed : UInt64) (number : Nat) : UInt64 :=
  mix (mix seed + UInt64.ofNat (number + 1) * 0x9e3779b97f4a7c15)

/-- Fifty-three bits as a fraction of one, spread over the interval from -1 to 1. -/
def uniform (bits : UInt64) : Float :=
  (bits >>> 11).toFloat * (2.0 / 9007199254740992.0) - 1.0

def draws (seed : UInt64) (count : Nat) : List Float :=
  (List.range count).map fun number => uniform (bitsAt seed number)

@[simp]
theorem length_draws (seed : UInt64) (count : Nat) : (draws seed count).length = count := by
  simp [draws]

/-- A whole number that is not negative. -/
def wholeSeed? : Literal → Except Fault (Option Int)
  | .bool value => .ok (some (if value then 1 else 0))
  | .int n => if n < 0 then .error (.value .negativeSeed) else .ok (some n)
  | _ => .ok none

/-- A seed is a whole number that is not negative, or a list of such. Without a seed, and from a
list, the draws may start anywhere. -/
def seedOf (seed : Literal) : Except Fault Int := do
  let refused : Except Fault Int := .error (.type (.seed seed.shown))
  match seed, ← wholeSeed? seed with
  | _, some n => return n
  | .null, none => return 0
  | .list parts, none =>
    let numbers ← parts.mapM wholeSeed?
    if numbers.all Option.isSome then return 0 else refused
  | _, none => refused

/-- What can be said of a sequence of draws without naming them. -/
structure Summary where
  count : Nat
  bounded : Bool
  reproducible : Bool
  seedMatters : Bool

def sameDraws (xs ys : List Float) : Bool :=
  xs.length == ys.length && (xs.zip ys).all fun (x, y) => x == y

def summarize (seed : Int) (count : Nat) : Summary :=
  let start := UInt64.ofInt seed
  let drawn := draws start count
  { count := drawn.length
    bounded := drawn.all fun x => -1 ≤ x && x ≤ 1
    reproducible := sameDraws drawn (draws start count)
    seedMatters := !sameDraws drawn (draws (start + 1) count) }

end TensorCalculus.Random
