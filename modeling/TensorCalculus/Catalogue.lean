import TensorCalculus.Literal.Order
import TensorCalculus.SumProduct
import TensorCalculus.Text.Blank
import TensorCalculus.Text.Case

/-!
# The catalogue of sums and products

Every member of the catalogue is known by a name, compared in lower case, without surrounding white
space, and with hyphens read as underscores. -/

namespace TensorCalculus

open TensorCalculus.Text

inductive Catalogue where
  | boolean
  | counting
  | viterbi
  | probabilistic
  | minPlus
  deriving DecidableEq

/-- An element of a carrier, for display. -/
inductive Weight where
  | truth (value : Bool)
  | amount (value : Float)

namespace Catalogue

def infinity : Float :=
  Decimal.infinity false

/-- Natural logarithms; an exponential too large for a double is a fault. -/
def naturalScale : SumProduct.LogScale Float Float where
  log := Float.log
  exp x :=
    let y := x.exp
    if y == infinity && x < infinity then .error (.range .exponential) else .ok y
  bottom := -infinity

def sumProduct : Catalogue → SumProduct Float
  | boolean => .boolean
  | counting => .counting
  | viterbi => .viterbi naturalScale
  | probabilistic => .probabilistic
  | minPlus => .minPlus infinity

def weigh : (c : Catalogue) → c.sumProduct.Carrier → Weight
  | boolean, x => .truth x
  | counting, x => .amount x
  | viterbi, x => .amount x
  | probabilistic, x => .amount x
  | minPlus, x => .amount x

/-- An element of the carrier from a literal. Where only the sign of a number matters it is compared
with zero as it is; everywhere else it is made a double. A number beyond all doubles is above zero,
and its logarithm beyond all logarithms of doubles. -/
def liftLiteral (c : Catalogue) (value : Literal) : Except Fault c.sumProduct.Carrier :=
  match c with
  | boolean => Literal.stands .more value (.int 0)
  | viterbi => do
    if ← Literal.stands .more value (.int 0) then
      match value.toDouble with
      | .ok x => return Catalogue.viterbi.sumProduct.lift x
      | .error _ => return Float.ofScientific 1 false 4
    else return -infinity
  | other => do return other.sumProduct.lift (← value.toDouble)

/-- What becomes of a list of literals in a member: each one lifted and lowered again, and the sum
and the product of them all. -/
structure Folded (c : Catalogue) where
  lifted : List c.sumProduct.Carrier
  lowered : List Float
  sum : Float
  product : Float

def fold (c : Catalogue) (values : List Literal) : Except Fault (Folded c) := do
  let s := c.sumProduct
  let lifted ← values.mapM c.liftLiteral
  let lowered ← lifted.mapM s.lower
  let sum ← s.lower (s.sum lifted)
  let product ← s.lower (s.product lifted)
  return { lifted, lowered, sum, product }

/-- The names in alphabetical order. -/
def names : List (String × Catalogue) :=
  [("boolean", boolean), ("counting", counting), ("min_plus", minPlus),
   ("probabilistic", probabilistic), ("tropical", minPlus), ("viterbi", viterbi)]

def keyOf (name : String) : String :=
  String.ofList ((lower (trim name)).toList.map fun c => if c = '-' then '_' else c)

def find (name : Literal) : Except Fault Catalogue :=
  match names.lookup (keyOf name.shown) with
  | some c => .ok c
  | none => .error (.unknownSemiring name.shown (names.map Prod.fst))

example : (find (.text " MIN-PLUS\n")).toOption = some minPlus ∧
    (find (.text "min--plus")).toOption = none := by
  decide +kernel

end Catalogue

end TensorCalculus
