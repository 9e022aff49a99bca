import TensorCalculus.Comparison
import TensorCalculus.HyperTensor.Basic

/-!
# Activations

A real function acts on a hypercomplex tensor component by component, or on the norm of every
element, whose direction it leaves alone. -/

namespace TensorCalculus.HyperTensor

variable {α : Type} [Zero α]

/-- Applies a real function to every component. -/
def splitActivation (f : α → α) (t : HyperTensor α) : Except Fault (HyperTensor α) :=
  t.mapTerms fun x => do return .number (← Number.make (x.components.map f) (some t.algebra))

/-- Rescales every element so that its norm becomes a function of its norm; an element without a
positive norm becomes zero. -/
def modulusActivation [Add α] [Mul α] [Div α] [LT α] [DecidableLT α] (sqrt f : α → α)
    (t : HyperTensor α) : Except Fault (HyperTensor α) :=
  t.mapTerms fun x =>
    let norm := x.norm sqrt
    .ok (.number (x.scale (if 0 < norm then f norm / norm else 0)))

/-- Zero in place of every component that is not above zero, for tensors of one algebra. -/
def reluOf [LT α] [DecidableLT α] (operation : String) (algebra : AlgebraTag) (t : HyperTensor α) :
    Except Fault (HyperTensor α) :=
  if t.algebra = algebra then t.splitActivation (greater 0)
  else .error (.algebra (.wrongTensor operation algebra.name t.algebra.name))

def complexRelu [LT α] [DecidableLT α] (t : HyperTensor α) : Except Fault (HyperTensor α) :=
  t.reluOf "complex_relu" .complex

def quaternionRelu [LT α] [DecidableLT α] (t : HyperTensor α) : Except Fault (HyperTensor α) :=
  t.reluOf "quaternion_relu" .quaternion

end TensorCalculus.HyperTensor
