import TensorCalculus.Comparison
import TensorCalculus.Literal.Arithmetic
import TensorCalculus.Operand
import TensorCalculus.Tensor.Elementwise

/-!
# Truth values

A truth value pairs a strength, how likely a statement is, with a confidence, how much evidence
backs that estimate. The connectives calculate both, and the results are then drawn into the unit
interval. They are written over any arithmetic: figures keep whole numbers exact and remember the
first fault. -/

namespace TensorCalculus

structure TruthValue (α : Type) where
  strength : α
  confidence : α
  deriving DecidableEq

namespace TruthValue

variable {α : Type}

def map {β : Type} (f : α → β) (v : TruthValue α) : TruthValue β :=
  ⟨f v.strength, f v.confidence⟩

def clamped [Zero α] [One α] [LT α] [DecidableLT α] (strength confidence : α) : TruthValue α :=
  ⟨clampUnit strength, clampUnit confidence⟩

section Constants

variable [OfScientific α]

/-- The least chance of a failure that a deduction divides by. -/
def leastDoubt : α := 1e-3

/-- The greatest confidence that merged estimates reach. -/
def mostConfidence : α := 0.99

/-- The strength of a statement of which nothing is known. -/
def unknownStrength : α := 0.5

end Constants

section Connectives

variable [Zero α] [One α] [Extremes α] [Add α] [Sub α] [Mul α]

/-- Both statements, taken as independent. -/
def conjunction (a b : TruthValue α) : TruthValue α :=
  ⟨a.strength * b.strength, a.confidence * b.confidence⟩

def disjunction (a b : TruthValue α) : TruthValue α :=
  ⟨a.strength + b.strength - a.strength * b.strength, Extremes.lesser a.confidence b.confidence⟩

def negation (a : TruthValue α) : TruthValue α :=
  ⟨1 - a.strength, a.confidence⟩

variable [Div α] [OfScientific α]

/-- The strength of "A implies C" from "A implies B" and "B implies C", where C depends on B alone.
The chance that B fails is kept away from zero. -/
def deducedStrength (ab bc b c : TruthValue α) : α :=
  ab.strength * bc.strength +
    (1 - ab.strength) * (c.strength - b.strength * bc.strength) / Extremes.greater leastDoubt
      (1 - b.strength)

def jointEvidence (ab bc a b c : TruthValue α) : α :=
  ab.confidence * bc.confidence * a.confidence * b.confidence * c.confidence

/-- Chains two implications. The confidence is the fifth root of all five confidences. -/
def deduction (fifthRoot : α → α) (ab bc a b c : TruthValue α) : TruthValue α :=
  ⟨deducedStrength ab bc b c, fifthRoot (jointEvidence ab bc a b c)⟩

/-- The mean of two strengths, weighted by their confidences, whose sum is given. -/
def revisedStrength (total : α) (a b : TruthValue α) : α :=
  (a.strength * a.confidence + b.strength * b.confidence) / total

/-- Merges two estimates of one statement, weighted by their confidence, which grows toward a limit.
Without any confidence nothing is known. -/
def revision (isZero : α → Bool) (a b : TruthValue α) : TruthValue α :=
  let total := a.confidence + b.confidence
  if isZero total then ⟨unknownStrength, 0⟩
  else ⟨revisedStrength total a b, Extremes.lesser mostConfidence (total / (total + 1))⟩

end Connectives

/-- A truth value that has been calculated: both parts must have come about before either is made a
double and drawn into the unit interval. -/
def settle (v : TruthValue Figure) : Except Fault (TruthValue Float) := do
  let strength ← v.strength
  let confidence ← v.confidence
  return clamped (← strength.toDouble) (← confidence.toDouble)

/-- The fifth root of a literal. A finite number below zero has none that could be made a double. -/
def fifthRoot (evidence : Figure) : Figure := do
  let value ← evidence
  match value.amount? with
  | none => .error (.type (.operands "** or pow()" value.kind (Literal.real 0).kind))
  | some amount =>
    let x ← amount.toDouble
    if x < 0 ∧ x.isFinite then .error (.type .complexRoot) else return .real (x.pow 0.2)

/-- Both statements, from figures. -/
def conjoined (a b : TruthValue Figure) : Except Fault (TruthValue Float) :=
  (conjunction a b).settle

/-- Either statement, from figures. -/
def disjoined (a b : TruthValue Figure) : Except Fault (TruthValue Float) :=
  (disjunction a b).settle

/-- The opposite of a statement, from figures. -/
def negated (a : TruthValue Figure) : Except Fault (TruthValue Float) :=
  a.negation.settle

/-- Chains two implications, from figures. -/
def deduced (ab bc a b c : TruthValue Figure) : Except Fault (TruthValue Float) :=
  (deduction fifthRoot ab bc a b c).settle

/-- Merges two estimates, from figures. The sum of their confidences is formed before anything
else. -/
def revised (a b : TruthValue Figure) : Except Fault (TruthValue Float) := do
  let _ ← a.confidence + b.confidence
  (revision Figure.isZero a b).settle

end TruthValue

/-- A truth value as it is given. -/
abbrev GivenTruth := TruthValue Literal

namespace GivenTruth

def figures (v : GivenTruth) : TruthValue Figure :=
  v.map .ok

/-- The truth value in doubles, not drawn into any interval. -/
def toDoubles (v : GivenTruth) : Except Fault (TruthValue Float) := do
  return ⟨← v.strength.toDouble, ← v.confidence.toDouble⟩

def ofDoubles (v : TruthValue Float) : GivenTruth :=
  v.map .real

end GivenTruth

/-- A tensor with one truth value for every element, in row-major order. -/
structure BeliefTensor (α : Type) where
  tensor : Tensor α
  values : List (TruthValue α)
  length_values : values.length = tensor.data.size

namespace BeliefTensor

variable {α : Type}

/-- There must be one truth value for every element, whatever it consists of. -/
def checkCount {β : Type} (tensor : Tensor α) (values : List (TruthValue β)) :
    Except Fault (PLift (values.length = tensor.data.size)) :=
  if h : values.length = tensor.data.size then .ok ⟨h⟩
  else .error (.shape (.beliefCount tensor.name tensor.data.size values.length) none none)

def make (tensor : Tensor α) (values : List (TruthValue α)) : Except Fault (BeliefTensor α) := do
  let counted ← checkCount tensor values
  return ⟨tensor, values, counted.down⟩

/-- The confidence where none is given. -/
def usualConfidence : Literal := .real 0.9

/-- Reads every element as a strength, all with one confidence, which is looked at for each of
them. -/
def ofTensor (tensor : Tensor Float) (confidence : Literal := usualConfidence) :
    Except Fault (BeliefTensor Float) := do
  make tensor (← tensor.data.toList.mapM fun x =>
    return TruthValue.clamped x (← confidence.toDouble))

/-- Multiplies two tensors and joins their truth values one by one. -/
def conjunction (a b : Tensor Float) (left right : List GivenTruth) :
    Except Fault (BeliefTensor Float) := do
  let product ← Tensor.multiply [.ok a, .ok b]
  make product (← (left.zip right).mapM fun (x, y) => x.figures.conjoined y.figures)

end BeliefTensor

end TensorCalculus
