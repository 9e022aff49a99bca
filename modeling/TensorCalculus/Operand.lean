import TensorCalculus.HyperTensor.Build

/-!
# Operands

What is handed to an operation on tensors: a real tensor, a hypercomplex one, or something that is
no tensor and is only known by the name of its type. Each kind of contraction accepts its own kind
of tensor; a few other operations take either kind, as far as the elements allow it. -/

namespace TensorCalculus

inductive Operand (α : Type) where
  | real (t : Tensor α)
  | hyper (t : HyperTensor α)
  /-- Not a tensor. It may still have something by the name of an algebra or of a shape, but whether
  the one has a name and the other one is a list shows only when they are asked for. -/
  | foreign (kind : String) (algebra : Pending (Option String)) (sizes : Pending (List Literal))

namespace Operand

variable {α : Type}

def kind : Operand α → String
  | real _ => "Tensor"
  | hyper _ => "HypercomplexTensor"
  | foreign kind _ _ => kind

/-- The real tensor, or a fault that names the role it should have played. -/
def expectReal (role : String) : Operand α → Except Fault (Tensor α)
  | real t => .ok t
  | other => .error (.type (.notTensor role other.kind))

def expectHyper : Operand α → Except Fault (HyperTensor α)
  | hyper t => .ok t
  | other => .error (.type (.notHyperTensor other.kind))

def expectReals (operands : List (Operand α)) : Except Fault (List (Tensor α)) :=
  operands.mapM (expectReal "operand")

/-- The first tensor, from the given position on, whose algebra is another one. -/
def checkAlgebras (algebra : AlgebraTag) : Nat → List (HyperTensor α) → Except Fault Unit
  | _, [] => .ok ()
  | position, t :: ts =>
    if t.algebra = algebra then checkAlgebras algebra (position + 1) ts
    else .error (.algebra (.mixedOperands position t.algebra.name algebra.name))

/-- Hypercomplex tensors of one algebra, of which there must be at least one. -/
def expectHypers (operands : List (Operand α)) :
    Except Fault (AlgebraTag × List (HyperTensor α)) := do
  if operands.isEmpty then .error (.shape (.noOperands "hypercomplex_einsum") none none)
  else
    match ← operands.mapM expectHyper with
    | [] => .error (.shape (.noOperands "hypercomplex_einsum") none none)
    | first :: rest => do
      checkAlgebras first.algebra 1 rest
      return (first.algebra, first :: rest)

/-- What is listed as the sizes of the axes. -/
def sizes : Operand α → Pending (List Literal)
  | real t => .ok (t.dims.map .int)
  | hyper t => .ok (t.dims.map .int)
  | foreign _ _ sizes => sizes

/-- The name of the algebra, where there is an algebra. -/
def algebraName? : Operand α → Pending (Option String)
  | real _ => .ok none
  | hyper t => .ok (some t.algebra.name)
  | foreign _ algebra _ => algebra

/-- The same tensor with its elements as doubles, which numbers of an algebra cannot become. -/
def asReal : Operand α → Except Fault (Tensor α)
  | real t => .ok t
  | hyper t =>
    match t.data[0]? with
    | some x => .error (.type (.toFraction x.view.name))
    | none => Tensor.make t.name t.indices t.dims (.ok #[])
  | other => .error (.type (.notTensor "operand" other.kind))

/-- An element as a double. Its place is looked for first. -/
def getReal {κ : Type} (understand : κ → Except Fault Int) (coords : List κ) : Operand α →
    Except Fault α
  | real t => t.get understand coords
  | hyper t => do
    let x ← t.get understand coords
    .error (.type (.toFraction x.view.name))
  | other => .error (.type (.notTensor "operand" other.kind))

/-- Writes a double, for which numbers of an algebra leave no room. Its place is looked for
first. -/
def setReal {κ : Type} (understand : κ → Except Fault Int) (coords : List κ) (x : α) :
    Operand α → Except Fault (Tensor α)
  | real t => t.set understand coords x
  | hyper t => do
    let _ ← t.toTensor.locate understand coords
    .error (.type (.notTensor "operand" (hyper t).kind))
  | other => .error (.type (.notTensor "operand" other.kind))

/-- The first components of the elements; those of a real tensor are the elements themselves. -/
def realParts : Operand α → Except Fault (Tensor α)
  | real t => .ok t
  | hyper t => t.realParts
  | other => .error (.type (.notHyperTensor other.kind))

/-- The norms of the elements. A real tensor has no norms, except that one without elements lacks
none. -/
def norms [Zero α] [Add α] [Mul α] (sqrt : α → α) : Operand α → Except Fault (Tensor α)
  | hyper t => .ok (t.norms sqrt)
  | real t => if t.data.isEmpty then .ok t else .error (.type (.notHyperTensor (real t).kind))
  | other => .error (.type (.notHyperTensor other.kind))

end Operand

end TensorCalculus
