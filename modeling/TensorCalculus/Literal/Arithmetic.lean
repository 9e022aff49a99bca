import TensorCalculus.Comparison
import TensorCalculus.Layout.Limits
import TensorCalculus.Literal.Order

/-!
# Arithmetic of literals

Literals are calculated with as they are. Whole numbers stay exact; as soon as a double takes part,
or a quotient is formed, the result is the nearest double. Texts and lists can be joined and
repeated, and everything else is refused with the names of the types.

A calculation may have failed before its result is wanted: a `Figure` is a literal or the first
fault met on the way to it, and arithmetic on figures goes from left to right. -/

namespace TensorCalculus

namespace Literal

/-- Applies one operation to whole numbers, and another one as soon as a double takes part. -/
def combine (exact : Int → Int → Int) (approximate : Float → Float → Float) (x y : Amount) :
    Except Fault Literal :=
  match x, y with
  | .whole m, .whole n => .ok (.int (exact m n))
  | x, y => do return .real (approximate (← x.toDouble) (← y.toDouble))

def refused (operator : String) (a b : Literal) : Fault :=
  .type (.operands operator a.kind b.kind)

def isSequence : Literal → Bool
  | text _ => true
  | list _ => true
  | _ => false

def add (a b : Literal) : Except Fault Literal :=
  match a, b with
  | text s, text t => .ok (.text (s ++ t))
  | list xs, list ys => .ok (.list (xs ++ ys))
  | _, _ =>
    match a.amount?, b.amount? with
    | some x, some y => combine (· + ·) (· + ·) x y
    | _, _ =>
      if a.isSequence then .error (.type (.concatenation a.kind b.kind))
      else .error (refused "+" a b)

def sub (a b : Literal) : Except Fault Literal :=
  match a.amount?, b.amount? with
  | some x, some y => combine (· - ·) (· - ·) x y
  | _, _ => .error (refused "-" a b)

/-- A sequence a number of times over. -/
def repeated (times : Int) : Literal → Except Fault Literal
  | text s => do
    Layout.checkText times s.length
    return .text (String.ofList (List.replicate times.toNat s.toList).flatten)
  | list xs => do
    Layout.checkList times xs.length
    return .list (List.replicate times.toNat xs).flatten
  | other => .error (.type (.repetition other.kind))

def mul (a b : Literal) : Except Fault Literal :=
  match a.amount?, b.amount? with
  | some x, some y => combine (· * ·) (· * ·) x y
  | some (.whole n), none => if b.isSequence then repeated n b else .error (refused "*" a b)
  | none, some (.whole n) => if a.isSequence then repeated n a else .error (refused "*" a b)
  | _, _ =>
    if a.isSequence then .error (.type (.repetition b.kind))
    else if b.isSequence then .error (.type (.repetition a.kind))
    else .error (refused "*" a b)

/-- The double nearest to a quotient of whole numbers. -/
def quotientOfInts (m n : Int) : Except Fault Literal :=
  if n = 0 then .error (.zeroDivision true)
  else
    let negative : Bool := (m < 0) != (n < 0)
    if Decimal.nearestBits m.natAbs n.natAbs < Decimal.infinityBits then
      .ok (.real (Decimal.nearest negative m.natAbs n.natAbs))
    else .error (.range .quotient)

def div (a b : Literal) : Except Fault Literal :=
  match a.amount?, b.amount? with
  | some (.whole m), some (.whole n) => quotientOfInts m n
  | some x, some y => do
    let x ← x.toDouble
    let y ← y.toDouble
    if y == 0 then .error (.zeroDivision false) else return .real (x / y)
  | _, _ => .error (refused "/" a b)

def neg (a : Literal) : Except Fault Literal :=
  match a.amount? with
  | some (.whole n) => .ok (.int (-n))
  | some (.real x) => .ok (.real (-x))
  | none => .error (.type (.lone "unary -" a.kind))

def abs (a : Literal) : Except Fault Literal :=
  match a.amount? with
  | some (.whole n) => .ok (.int n.natAbs)
  | some (.real x) => .ok (.real x.abs)
  | none => .error (.type (.lone "abs()" a.kind))

@[simp]
theorem add_int (m n : Int) : add (int m) (int n) = .ok (int (m + n)) := rfl

@[simp]
theorem sub_int (m n : Int) : sub (int m) (int n) = .ok (int (m - n)) := rfl

@[simp]
theorem mul_int (m n : Int) : mul (int m) (int n) = .ok (int (m * n)) := rfl

end Literal

/-- A literal, or the fault that was met on the way to it. -/
abbrev Figure := Pending Literal

namespace Figure

def lift (f : Literal → Literal → Except Fault Literal) (a b : Figure) : Figure := do
  f (← a) (← b)

instance : Add Figure := ⟨lift Literal.add⟩
instance : Sub Figure := ⟨lift Literal.sub⟩
instance : Mul Figure := ⟨lift Literal.mul⟩
instance : Div Figure := ⟨lift Literal.div⟩

/-- Zero is whole, so that nothing is lost by adding to it. -/
instance : Zero Figure := ⟨.ok (.int 0)⟩

/-- One is a double, so that whatever is taken from it is a double too. -/
instance : One Figure := ⟨.ok (.real 1)⟩

/-- A fraction is a double. -/
instance : OfScientific Figure :=
  ⟨fun mantissa negative exponent => .ok (.real (.ofScientific mantissa negative exponent))⟩

instance : Extremes Figure := ⟨lift Literal.greater, lift Literal.lesser⟩

/-- Whether a figure has come about and is zero. -/
def isZero (a : Figure) : Bool :=
  match a with
  | .ok value => value.same (.int 0)
  | .error _ => false

def toDouble (a : Figure) : Except Fault Float := do
  (← a).toDouble

end Figure

end TensorCalculus
