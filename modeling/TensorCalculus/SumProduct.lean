import TensorCalculus.Comparison
import TensorCalculus.Contraction

/-!
# Sums and products of other kinds

A contraction needs a sum and a product, not necessarily the usual ones. A `SumProduct` supplies
both on a carrier of its own, together with the way stored numbers are lifted into the carrier and
lowered again. The catalogue holds reachability, counting, best probabilities, clamped probabilities
and shortest paths. -/

namespace TensorCalculus

structure SumProduct (σ : Type) where
  name : String
  Carrier : Type
  zero : Carrier
  one : Carrier
  add : Carrier → Carrier → Carrier
  mul : Carrier → Carrier → Carrier
  lift : σ → Carrier
  lower : Carrier → Except Fault σ

namespace SumProduct

variable {σ : Type}

def sum (s : SumProduct σ) (xs : List s.Carrier) : s.Carrier :=
  xs.foldl s.add s.zero

def product (s : SumProduct σ) (xs : List s.Carrier) : s.Carrier :=
  xs.foldl s.mul s.one

/-- The contraction loop over stored numbers. A cell is lifted before each addition and lowered
after it; once lowering fails, the cell keeps the fault. -/
def backend (s : SumProduct σ) : Backend σ (Except Fault σ) s.Carrier where
  blank := s.lower s.zero
  combine values := values.foldl (fun product x => s.mul product (s.lift x)) s.one
  accumulate cell product := do
    s.lower (s.add (s.lift (← cell)) product)

/-- Reachability: or over and, every number above zero being true. -/
def boolean [Zero σ] [One σ] [LT σ] [DecidableLT σ] : SumProduct σ where
  name := "boolean"
  Carrier := Bool
  zero := false
  one := true
  add := or
  mul := and
  lift x := decide (0 < x)
  lower b := .ok (if b then 1 else 0)

/-- The usual sum and product. -/
def counting [Zero σ] [One σ] [Add σ] [Mul σ] : SumProduct σ where
  name := "counting"
  Carrier := σ
  zero := 0
  one := 1
  add := (· + ·)
  mul := (· * ·)
  lift := id
  lower := .ok

/-- Sum and product drawn into the unit interval. -/
def probabilistic [Zero σ] [One σ] [Add σ] [Mul σ] [LT σ] [DecidableLT σ] : SumProduct σ where
  name := "probabilistic"
  Carrier := σ
  zero := 0
  one := 1
  add a b := clampUnit (a + b)
  mul a b := clampUnit (a * b)
  lift := clampUnit
  lower := .ok

/-- Shortest paths: the lesser over the sum. -/
def minPlus [Zero σ] [Add σ] [LT σ] [DecidableLT σ] (infinity : σ) : SumProduct σ where
  name := "min_plus"
  Carrier := σ
  zero := infinity
  one := 0
  add := lesser
  mul := (· + ·)
  lift := id
  lower := .ok

/-- A logarithmic scale: stored numbers `σ` on one side, their logarithms `κ` on the other, with a
bottom for what has no logarithm. -/
structure LogScale (σ κ : Type) where
  log : σ → κ
  exp : κ → Except Fault σ
  bottom : κ

/-- Best probabilities: the greater over the sum of logarithms. -/
def viterbi {κ : Type} [Zero σ] [LT σ] [DecidableLT σ] [Zero κ] [Add κ] [LT κ] [DecidableLT κ]
    [BEq κ] (scale : LogScale σ κ) : SumProduct σ where
  name := "viterbi"
  Carrier := κ
  zero := scale.bottom
  one := 0
  add := greater
  mul := (· + ·)
  lift x := if 0 < x then scale.log x else scale.bottom
  lower x := if x == scale.bottom then .ok 0 else scale.exp x

end SumProduct

end TensorCalculus
