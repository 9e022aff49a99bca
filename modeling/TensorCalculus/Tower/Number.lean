import TensorCalculus.Comparison
import TensorCalculus.Layout.Limits
import TensorCalculus.Tower.Algebra
import TensorCalculus.Tower.Basic

/-!
# Hypercomplex numbers

A number holds its components under the tag of its algebra. Numbers of the algebras with two, four,
eight and sixteen components are shown in a form of their own; operations keep the form of their
left operand. The number of components always is the dimension of the tag. -/

namespace TensorCalculus

/-- The form in which a number is shown. -/
inductive View where
  | general
  | complex
  | quaternion
  | octonion
  | sedenion
  deriving DecidableEq

def View.name : View → String
  | general => "CayleyDickson"
  | complex => "Complex"
  | quaternion => "Quaternion"
  | octonion => "Octonion"
  | sedenion => "Sedenion"

/-- The form of an algebra. A tag that is not the standard one of its dimension has the general
form. -/
def View.ofTag (tag : AlgebraTag) : View :=
  if tag = .complex then complex
  else if tag = .quaternion then quaternion
  else if tag = .octonion then octonion
  else if tag = .sedenion then sedenion
  else general

structure Number (α : Type) where
  view : View
  algebra : AlgebraTag
  components : List α
  length_components : (components.length : Int) = algebra.dimension

namespace Number

variable {α : Type}

def dimension (x : Number α) : Nat :=
  x.components.length

/-- The number with given components under a tag that fits them. -/
def ofTag (view : View) (algebra : AlgebraTag) (components : List α) : Except Fault (Number α) :=
  if h : (components.length : Int) = algebra.dimension then
    .ok { view, algebra, components, length_components := h }
  else .error (.algebra (.componentCount algebra.name algebra.dimension components.length))

/-- The number in the form of its algebra; without a tag the standard one of the length is taken. -/
def make (components : List α) (algebra : Option AlgebraTag) : Except Fault (Number α) := do
  let tag ← match algebra with
    | some tag => .ok tag
    | none => AlgebraTag.standard components.length
  ofTag (.ofTag tag) tag components

/-- The number in a given form. The length must be a power of two whatever the tag. -/
def makeIn (view : View) (components : List α) (algebra : Option AlgebraTag) :
    Except Fault (Number α) := do
  if isPowerOfTwo components.length then
    let tag ← match algebra with
      | some tag => .ok tag
      | none => AlgebraTag.standard components.length
    ofTag view tag components
  else .error (.algebra (.dimension components.length))

/-- A number of a form that has exactly one length. -/
def makeExact (view : View) (tag : AlgebraTag) (components : List α) : Except Fault (Number α) :=
  if h : (components.length : Int) = tag.dimension then
    .ok { view, algebra := tag, components, length_components := h }
  else .error (.algebra (.exactCount tag.name tag.dimension.toNat components.length))

/-- The number with a given first component and zeros behind it. The zeros are laid out first. -/
def unit [Zero α] (algebra : AlgebraTag) (x : α) : Except Fault (Number α) := do
  Layout.checkBlock [algebra.dimension]
  match algebra.dimension.toNat with
  | 0 => .error (.bounds .noComponents)
  | n + 1 => make (x :: List.replicate n 0) (some algebra)

/-- The same number with other components. -/
def withComponents (x : Number α) (components : List α)
    (h : components.length = x.components.length) : Number α :=
  { x with components, length_components := h ▸ x.length_components }

def mapComponents (f : α → α) (x : Number α) : Number α :=
  x.withComponents (x.components.map f) (by simp)

theorem length_eq_of_algebra_eq {x y : Number α} (h : x.algebra = y.algebra) :
    x.components.length = y.components.length := by
  have hx := x.length_components
  have hy := y.length_components
  rw [h] at hx
  omega

/-- Combines the components of two numbers of one algebra. -/
def zipComponents (f : α → α → α) (x y : Number α) (h : x.algebra = y.algebra) : Number α :=
  x.withComponents (List.zipWith f x.components y.components)
    (by simp [length_eq_of_algebra_eq h])

def checkSameAlgebra (operation : String) (x y : Number α) :
    Except Fault (PLift (x.algebra = y.algebra)) :=
  if h : x.algebra = y.algebra then .ok ⟨h⟩
  else .error (.algebra (.differing operation x.algebra.name y.algebra.name))

def add [Add α] (x y : Number α) : Except Fault (Number α) := do
  let same ← checkSameAlgebra "add" x y
  return zipComponents (· + ·) x y same.down

def sub [Sub α] (x y : Number α) : Except Fault (Number α) := do
  let same ← checkSameAlgebra "subtract" x y
  return zipComponents (· - ·) x y same.down

def neg [Neg α] (x : Number α) : Number α :=
  x.mapComponents (-·)

def scale [Mul α] (x : Number α) (factor : α) : Number α :=
  x.mapComponents (· * factor)

def divideBy [Div α] (x : Number α) (divisor : α) : Number α :=
  x.mapComponents (· / divisor)

/-- The first component; a number of dimension zero has none. -/
def real (x : Number α) : Except Fault α :=
  match x.components with
  | [] => .error (.bounds .noComponents)
  | c :: _ => .ok c

/-- Keeps the first of some components and negates all others. -/
def conjugateOfList [Neg α] : List α → Except Fault (List α)
  | [] => .error (.bounds .noComponents)
  | c :: cs => .ok (c :: cs.map (-·))

theorem length_conjugateOfList [Neg α] {xs ys : List α} (h : conjugateOfList xs = .ok ys) :
    ys.length = xs.length := by
  cases xs with
  | nil => cases h
  | cons c cs =>
    cases h
    simp

def conjugate [Neg α] (x : Number α) : Except Fault (Number α) :=
  match h : conjugateOfList x.components with
  | .error fault => .error fault
  | .ok components => .ok (x.withComponents components (length_conjugateOfList h))

section Product

variable [Zero α] [Add α] [Sub α] [Neg α] [Mul α]

/-- The product of two lists of components, which the halving of other lengths does not reach. -/
def productOfLists (xs ys : List α) : Except Fault (List α) :=
  match level? xs.length with
  | some k => .ok (Tower.mul (Tower.ofList k xs) (Tower.ofList k ys)).toList
  | none => .error (.value (.assignment [2] [1]))

theorem length_productOfLists {xs ys zs : List α} (h : productOfLists xs ys = .ok zs) :
    zs.length = xs.length := by
  unfold productOfLists at h
  split at h
  case h_1 k found =>
    cases h
    rw [level?_eq_some found]
    exact Tower.length_toList _
  case h_2 => cases h

/-- The product in the form and the algebra of the left factor. -/
def product (x y : Number α) : Except Fault (Number α) :=
  match h : productOfLists x.components y.components with
  | .error fault => .error fault
  | .ok components => .ok (x.withComponents components (length_productOfLists h))

def mul (x y : Number α) : Except Fault (Number α) := do
  let _ ← checkSameAlgebra "multiply" x y
  product x y

/-- The sum of the squared components. -/
def normSquared (x : Number α) : α :=
  x.components.foldl (fun total c => total + c * c) 0

def norm (sqrt : α → α) (x : Number α) : α :=
  sqrt x.normSquared

variable [Div α]

def inverse (x : Number α) : Except Fault (Number α) := do
  return (← x.conjugate).divideBy x.normSquared

def div (x y : Number α) : Except Fault (Number α) := do
  let _ ← checkSameAlgebra "divide" x y
  return (← product x (← y.conjugate)).divideBy y.normSquared

end Product

/-- The two halves of the components, each under the standard tag of its dimension. -/
def halves (x : Number α) : Except Fault (Number α × Number α) := do
  if x.dimension = 1 then .error (.algebra .realHalves)
  else
    let h := x.dimension / 2
    let tag ← AlgebraTag.standard h
    let a ← make (x.components.take h) (some tag)
    let b ← make (x.components.drop h) (some tag)
    return (a, b)

/-- Doubles two numbers of one dimension into one number. -/
def ofHalves (a b : Number α) : Except Fault (Number α) := do
  if a.dimension ≠ b.dimension then .error (.algebra (.unequalHalves a.dimension b.dimension))
  else
    let components := a.components ++ b.components
    make components (some (← AlgebraTag.standard components.length))

section Laws

variable [Zero α] [Add α] [Sub α] [Neg α] [Mul α]

/-- How far two numbers are from commuting. -/
def commutator (x y : Number α) : Except Fault (Number α) := do
  sub (← mul x y) (← mul y x)

/-- How far three numbers are from associating. -/
def associator (x y z : Number α) : Except Fault (Number α) := do
  let left ← mul (← mul x y) z
  let right ← mul x (← mul y z)
  sub left right

end Laws

/-- Whether all components are within a distance; the algebras may differ. -/
def isClose [Zero α] [Sub α] [Neg α] [LT α] [DecidableLT α] [LE α] [DecidableLE α] (x : Number α)
    (distance : α) (y : Number α) : Bool :=
  x.dimension == y.dimension &&
    (List.zipWith (fun a b => magnitude (a - b)) x.components y.components).all (· ≤ distance)

/-- Whether tag and components agree. -/
def isEqual [BEq α] (x y : Number α) : Bool :=
  decide (x.algebra = y.algebra) && x.components == y.components

end Number

end TensorCalculus
