import TensorCalculus.Catalogue
import TensorCalculus.Cost
import TensorCalculus.Einsum
import TensorCalculus.Literal.Arithmetic
import TensorCalculus.Trace.Memo

/-!
# Traces

A trace carries out contractions under one choice of settings and keeps a log. A call is noted down
before it is carried out, under a heading that says what was asked of which operands; if even that
cannot be told, the call is over. Every other call leaves one record, whether it succeeds or not;
memos may be put between the records. Readings of a clock are handed out one by one, and the last
one is repeated for ever. -/

namespace TensorCalculus

/-- What is noted down of a call before anything else is done. -/
structure Heading where
  name : String
  iteration : Nat
  asked : String
  backend : String
  shapes : List (List Literal)

structure Record extends Heading where
  /-- The milliseconds taken, where they were measured. -/
  duration : Option Literal
  outcome : Except Fault (String × Cost)

inductive Entry where
  | contraction (record : Record)
  | note (memo : Memo)

structure Clock where
  readings : List Literal

/-- The next reading, and the clock after it. -/
def Clock.read (clock : Clock) : Literal × Clock :=
  match clock.readings with
  | [] => (.real 0, clock)
  | [last] => (last, clock)
  | first :: rest => (first, { readings := rest })

structure Trace where
  settings : Settings Float
  entries : List Entry := []
  clock : Clock

/-- Which sum and product a call asks for: a member of the catalogue, or something else, which may
have a name as well. -/
inductive Choice where
  | member (c : Catalogue)
  | foreign (kind : String) (name : Pending String := .ok "?")

def Choice.resolve : Choice → Except Fault (SumProduct Float)
  | member c => .ok c.sumProduct
  | foreign kind _ => .error (.type (.notSemiring kind))

def Choice.name : Choice → Pending String
  | member c => .ok c.sumProduct.name
  | foreign _ name => name

namespace Trace

def isContraction : Entry → Except Fault Bool
  | .contraction _ => .ok true
  | .note memo => memo.isContraction

/-- The number of contractions logged so far. Every entry is asked whether it stands for one. -/
def iterations (t : Trace) : Except Fault Nat := do
  return (← t.entries.mapM isContraction).count true

def append (t : Trace) (e : Entry) : Trace :=
  { t with entries := t.entries ++ [e] }

def reset (t : Trace) : Trace :=
  { t with entries := [] }

def note (t : Trace) (memo : Memo) : Trace :=
  t.append (.note memo)

/-- The starting time, if times are taken at all. -/
def start (t : Trace) : Option Literal × Trace :=
  if t.settings.timings then
    let (time, clock) := t.clock.read
    (some time, { t with clock })
  else (none, t)

/-- The milliseconds between two readings in seconds. -/
def millisecondsBetween (started time : Literal) : Except Fault Literal := do
  (← time.sub started).mul (.real 1000)

/-- The milliseconds since a start. -/
def elapsed (t : Trace) : Option Literal → Except Fault (Option Literal) × Trace
  | none => (.ok none, t)
  | some started =>
    let (time, clock) := t.clock.read
    ((millisecondsBetween started time).map some, { t with clock })

/-- The heading of a call: the label of its backend, the number of contractions so far, and then
what the operands list as their sizes. -/
def heading (t : Trace) (backend : Pending String) (wording : Wording)
    (operands : List (Operand Float)) (name : Option String) : Except Fault Heading := do
  let backend ← backend
  let iteration ← t.iterations
  let shapes ← operands.mapM Operand.sizes
  return { name := resultName name, iteration, asked := wording.shown, backend, shapes }

/-- Carries out a call under its heading and logs it. The operands are checked first, then the
wording is planned for the shapes of those that were found, then the plan is run. A call whose time
or cost cannot be told after all leaves no entry. -/
def carryOut {ρ θ : Type} (t : Trace) (heading : Heading) (wording : Wording)
    (check : Except Fault θ) (shapes : θ → List (List Int)) (execute : θ → Plan → Except Fault ρ) :
    Except Fault ρ × Trace :=
  let (started, t) := t.start
  let run : Except Fault (Plan × ρ) := do
    let checked ← check
    let plan ← t.settings.planWording wording (shapes checked)
    return (plan, ← execute checked plan)
  match run with
  | .error fault =>
    let record : Record := { heading with duration := none, outcome := .error fault }
    (.error fault, t.append (.contraction record))
  | .ok (plan, result) =>
    let (duration, t) := t.elapsed started
    let account : Except Fault Record := do
      let duration ← duration
      let cost ← plan.cost
      return { heading with duration, outcome := .ok (plan.subscripts.toText, cost) }
    match account with
    | .error fault => (.error fault, t)
    | .ok record => (.ok result, t.append (.contraction record))

/-- A call, from its heading on. Without a heading nothing is carried out and nothing is logged. -/
def call {ρ θ : Type} (t : Trace) (backend : Pending String) (wording : Wording)
    (operands : List (Operand Float)) (name : Option String) (check : Except Fault θ)
    (shapes : θ → List (List Int)) (execute : θ → Plan → Except Fault ρ) : Except Fault ρ × Trace :=
  match t.heading backend wording operands name with
  | .error fault => (.error fault, t)
  | .ok heading => t.carryOut heading wording check shapes execute

def einsum [BulkRoutine Float] (t : Trace) (wording : Wording) (operands : List (Operand Float))
    (name : Option String) : Except Fault (Tensor Float) × Trace :=
  let backend := if t.settings.strategy = .bulk then "numpy" else "real"
  t.call (.ok backend) wording operands name (Operand.expectReals operands) (·.map Tensor.dims)
    fun tensors plan => plan.runReal tensors t.settings.strategy name

/-- The contraction under another sum and product, which goes by a label in the log. What is given
for the sum and product is looked at before the operands. -/
def sumProductEinsum (t : Trace) (label : Pending String) (s : Pending (SumProduct Float))
    (wording : Wording) (operands : List (Operand Float)) (name : Option String) :
    Except Fault (Tensor Float) × Trace :=
  let check : Except Fault (List (Tensor Float)) :=
    match s with
    | .ok _ => Operand.expectReals operands
    | .error fault => .error fault
  t.call (label.map ("semiring:" ++ ·)) wording operands name check (·.map Tensor.dims)
    fun tensors plan =>
    match s with
    | .ok s => plan.runSumProduct s tensors name
    | .error fault => .error fault

def semiringEinsum (t : Trace) (choice : Choice) (wording : Wording)
    (operands : List (Operand Float)) (name : Option String) :
    Except Fault (Tensor Float) × Trace :=
  t.sumProductEinsum choice.name choice.resolve wording operands name

/-- The label of a hypercomplex contraction names the algebra of the first operand, if it has
one. -/
def hyperLabel (operands : List (Operand Float)) : Pending String :=
  match operands with
  | [] => .ok "hypercomplex:?"
  | first :: _ => first.algebraName?.map fun name => "hypercomplex:" ++ name.getD "?"

def hyperEinsum (t : Trace) (wording : Wording) (operands : List (Operand Float))
    (name : Option String) : Except Fault (HyperTensor Float) × Trace :=
  t.call (hyperLabel operands) wording operands name (Operand.expectHypers operands)
    (·.2.map fun t => t.toTensor.dims) fun (algebra, tensors) plan =>
      plan.runHyper algebra tensors name

end Trace

end TensorCalculus
