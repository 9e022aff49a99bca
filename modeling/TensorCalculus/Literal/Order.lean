import TensorCalculus.Literal.Basic

/-!
# The order of literals

Literals that count as numbers are compared by their exact values, a whole number with a double too,
so that nothing is lost to rounding. What is not a number is not comparable with anything. Texts are
ordered by their characters and lists by their first difference; between other literals no order is
defined. -/

namespace TensorCalculus

/-- A literal as a number: exact as long as it is whole, a double otherwise. -/
inductive Amount where
  | whole (n : Int)
  | real (x : Float)

namespace Amount

def toDouble : Amount → Except Fault Float
  | whole n => Literal.doubleOfInt n
  | real x => .ok x

def toLiteral : Amount → Literal
  | whole n => .int n
  | real x => .real x

/-- A whole number beside a double. -/
def compareWhole (n : Int) (x : Float) : Option Ordering :=
  match Decimal.Binary.ofFloat x with
  | .nan => none
  | .infinite negative => some (if negative then .gt else .lt)
  | .finite negative significand exponent =>
    let (num, den) := Decimal.ratio significand exponent
    some (compareOfLessAndEq (n * den) (if negative then -(num : Int) else num))

def compareDoubles (x y : Float) : Option Ordering :=
  if x < y then some .lt else if y < x then some .gt else if x == y then some .eq else none

def compare : Amount → Amount → Option Ordering
  | whole m, whole n => some (compareOfLessAndEq m n)
  | whole m, real y => compareWhole m y
  | real x, whole n => (compareWhole n x).map Ordering.swap
  | real x, real y => compareDoubles x y

def isZero : Amount → Bool
  | whole n => n == 0
  | real x => x == 0

end Amount

/-- The relations in which two values can be asked to stand. -/
inductive Relation where
  | less
  | atMost
  | more
  | atLeast
  deriving DecidableEq

namespace Relation

def symbol : Relation → String
  | less => "<"
  | atMost => "<="
  | more => ">"
  | atLeast => ">="

/-- Whether an order of two values is what the relation asks for. -/
def admits : Relation → Ordering → Bool
  | less, .lt => true
  | atMost, .lt => true
  | atMost, .eq => true
  | more, .gt => true
  | atLeast, .gt => true
  | atLeast, .eq => true
  | _, _ => false

/-- What is not comparable stands in no relation. -/
def admitsAny (r : Relation) : Option Ordering → Bool
  | some order => r.admits order
  | none => false

end Relation

namespace Literal

def amount? : Literal → Option Amount
  | bool value => some (.whole (if value then 1 else 0))
  | int value => some (.whole value)
  | real value => some (.real value)
  | _ => none

mutual

/-- Whether two literals say the same; whole numbers, doubles and truth values are compared as
numbers. -/
def same : Literal → Literal → Bool
  | null, null => true
  | text a, text b => a == b
  | list as, list bs => sameItems as bs
  | record fields, record others => fields.length == others.length && sameFields fields others
  | a, b =>
    match a.amount?, b.amount? with
    | some x, some y => x.compare y == some .eq
    | _, _ => false

def sameItems : List Literal → List Literal → Bool
  | [], [] => true
  | a :: as, b :: bs => same a b && sameItems as bs
  | _, _ => false

/-- Whether every field of one record has its like in another one. -/
def sameFields : List (String × Literal) → List (String × Literal) → Bool
  | [], _ => true
  | (key, value) :: fields, others =>
    (match others.lookup key with
      | some other => same value other
      | none => false) && sameFields fields others

end

mutual

/-- Whether two literals stand in a relation. -/
def stands (r : Relation) : Literal → Literal → Except Fault Bool
  | text a, text b => .ok (r.admits (compareOfLessAndEq a b))
  | list as, list bs => standsFirst r as bs
  | a, b =>
    match a.amount?, b.amount? with
    | some x, some y => .ok (r.admitsAny (x.compare y))
    | _, _ => .error (.type (.order r.symbol a.kind b.kind))

/-- Lists are related like their first items that differ. -/
def standsFirst (r : Relation) : List Literal → List Literal → Except Fault Bool
  | [], [] => .ok (r.admits .eq)
  | [], _ :: _ => .ok (r.admits .lt)
  | _ :: _, [] => .ok (r.admits .gt)
  | a :: as, b :: bs => if same a b then standsFirst r as bs else stands r a b

end

/-- The first of two literals unless the second is more. -/
def greater (a b : Literal) : Except Fault Literal := do
  if ← stands .more b a then return b else return a

/-- The first of two literals unless the second is less. -/
def lesser (a b : Literal) : Except Fault Literal := do
  if ← stands .less b a then return b else return a

@[simp]
theorem stands_int (r : Relation) (m n : Int) :
    stands r (int m) (int n) = .ok (r.admits (compareOfLessAndEq m n)) := rfl

example : (stands .less (int (2 ^ 53 + 1)) (real 9007199254740992)).toOption = some false ∧
    (stands .more (int (2 ^ 53 + 1)) (real 9007199254740992)).toOption = some true ∧
    (stands .less (text "1") (int 2)).toOption = none := by
  decide +kernel

end Literal

end TensorCalculus
