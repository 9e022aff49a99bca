import TensorCalculus.Literal.Order
import TensorCalculus.Tensor.Elementwise

/-!
# Cutoffs and temperatures as they are given

The cutoff of a threshold and the temperature of a logistic function are literals. A cutoff that is
no number counts as a fault only when there is an element to compare with it; the temperature is
made a double at once, and its magnitude is compared exactly with the tolerance. -/

namespace TensorCalculus.Tensor

/-- The cutoff where none is given. -/
def usualCutoff : Literal := .real 0

/-- The temperature where none is given, and how close to zero a temperature may be. -/
def usualTemperature : Literal := .real 1
def usualTolerance : Literal := .real 1e-9

/-- One where an element exceeds the cutoff, zero elsewhere. -/
def thresholdAt (t : Tensor Float) (cutoff : Literal := usualCutoff) :
    Except Fault (Tensor Float) :=
  match cutoff.amount? with
  | some amount => do return t.threshold (← amount.toDouble)
  | none =>
    if t.data.isEmpty then .ok t
    else .error (.type (.order Relation.more.symbol (Literal.real 0).kind cutoff.kind))

/-- The logistic function of `x / temperature`, or the step at zero for a temperature within the
tolerance of zero. -/
def sigmoidAt (exp : Float → Float) (t : Tensor Float) (temperature : Literal := usualTemperature)
    (tolerance : Literal := usualTolerance) : Except Fault (Tensor Float) := do
  let divisor ← temperature.toDouble
  if ← Literal.stands .atMost (.real divisor.abs) tolerance then return t.threshold 0
  else return t.logistic exp divisor

end TensorCalculus.Tensor
