import TensorCalculus.Fixpoint
import TensorCalculus.Literal.Buffer
import TensorCalculus.Operand
import TensorCalculus.TruthValue
import TensorCalculus.Usage

/-!
# The store

Variables share objects: a tensor that is written through one name changes under every other name,
and the wrappers around tensors point at them. The store keeps every object once and gives it a
number; names are bound to numbers. Actions on the store keep what they have changed when they
fail. -/

namespace TensorCalculus

abbrev Ref := Nat

inductive Object where
  | tensor (t : Tensor Float)
  | hyper (t : HyperTensor Float)
  | number (x : Number Float)
  | belief (tensor : Ref) (values : List GivenTruth)
  | guarded (tensor : Ref) (guard : Guard)
  | outcome (tensor : Ref) (iterations : Int) (converged : Bool)
  /-- Any other value, by the name of its type and the literal that shows it. -/
  | plain (kind : String) (face : Literal)

structure Store where
  objects : Array Object := #[]
  names : List (String × Ref) := []

namespace Object

def ofLiteral (value : Literal) : Object :=
  plain value.kind value

def kind : Object → String
  | tensor _ => "Tensor"
  | hyper _ => "HypercomplexTensor"
  | number x => x.view.name
  | belief _ _ => "PLNTensor"
  | guarded _ _ => "ModalTensor"
  | outcome _ _ _ => "FixpointResult"
  | plain kind _ => kind

/-- The object as an operand of a contraction. -/
def toOperand : Object → Operand Float
  | tensor t => .real t
  | hyper t => .hyper t
  | number x => .foreign x.view.name (.ok (some x.algebra.name)) (.ok [])
  | plain kind face =>
    .foreign kind (.ok none) (.ok (if kind = "ndarray" then face.extent.sizes.map .int else []))
  | other => .foreign other.kind (.ok none) (.ok [])

/-- A block of reals as a term. A block of anything else is known by its type only. -/
def block (kind : String) (face : Literal) : Term Float :=
  match face.toBlock with
  | .ok (shape, data) => .block kind { shape := shape.map Int.toNat, data := data.map .real }
  | .error _ => .foreign kind

/-- The object as a term beside an operator. -/
def toTerm : Object → Term Float
  | number x => .number x
  | plain kind face =>
    if kind = face.kind then .plain face
    else if kind = "ndarray" ∨ kind = "float64" then block kind face
    else .foreign kind
  | other => .foreign other.kind

end Object

/-- An action that may fail, and keeps the store as it left it. -/
abbrev Action := ExceptT Fault (StateM Store)

namespace Action

def ofExcept {β : Type} : Except Fault β → Action β
  | .ok x => pure x
  | .error fault => throw fault

def alloc (object : Object) : Action Ref :=
  modifyGet fun store => (store.objects.size, { store with objects := store.objects.push object })

def read (ref : Ref) : Action Object := do
  return (← get).objects.getD ref (.plain "NoneType" .null)

def write (ref : Ref) (object : Object) : Action Unit :=
  modify fun store => { store with objects := store.objects.setIfInBounds ref object }

def bind (name : String) (ref : Ref) : Action Unit :=
  modify fun store => { store with names := (name, ref) :: store.names }

def lookup (name : String) : Action Ref := do
  match (← get).names.lookup name with
  | some ref => return ref
  | none => throw (.unbound name)

def operand (ref : Ref) : Action (Operand Float) := do
  return (← read ref).toOperand

/-- The real tensor behind a number, in a given role. -/
def tensorAs (role : String) (ref : Ref) : Action (Tensor Float) := do
  ofExcept ((← operand ref).expectReal role)

def tensor (ref : Ref) : Action (Tensor Float) :=
  tensorAs "operand" ref

def term (ref : Ref) : Action (Term Float) := do
  return (← read ref).toTerm

/-- Writes an element of a tensor. The double is understood before its place is looked for. -/
def setElement (ref : Ref) (value : Literal) (coords : List Literal) : Action Unit := do
  let x ← ofExcept value.toDouble
  let target ← operand ref
  write ref (.tensor (← ofExcept (target.setReal Literal.toInt coords x)))

/-- Writes an element of a hypercomplex tensor. -/
def setNumber (ref : Ref) (value : Term Float) (coords : List Literal) : Action Unit := do
  let t ← ofExcept (← operand ref).expectHyper
  write ref (.hyper (← ofExcept (t.set Literal.toInt value coords)))

/-- Guards a copy of a tensor. -/
def guardCopy (discipline : String) (ref : Ref) : Action Ref := do
  let t ← tensor ref
  let d ← ofExcept (Discipline.ofName discipline)
  let copy ← alloc (.tensor t)
  alloc (.guarded copy (Guard.new d))

/-- Uses a guarded tensor: what is handed over is the tensor itself or a copy of it. -/
def useGuarded (ref : Ref) : Action Ref := do
  match ← read ref with
  | .guarded inner guard =>
    let t ← tensor inner
    let (handover, next) ← ofExcept (guard.use t.name)
    write ref (.guarded inner next)
    match handover with
    | .itself => return inner
    | .copy => alloc (.tensor t)
  | other => throw (.type (.notTensor "operand" other.kind))

/-- Whether a use would succeed. What is not guarded has no use. -/
def canUseGuarded (ref : Ref) : Action Bool := do
  match ← read ref with
  | .guarded _ guard => return guard.canUse
  | _ => return false

def discardGuarded (ref : Ref) : Action Unit := do
  match ← read ref with
  | .guarded inner guard =>
    let t ← tensor inner
    write ref (.guarded inner (← ofExcept (guard.discard t.name)))
  | other => throw (.type (.notTensor "operand" other.kind))

/-- A tensor and the truth values that belong to it. -/
def belief (ref : Ref) : Action (Tensor Float × List GivenTruth) := do
  match ← read ref with
  | .belief inner values => return (← tensor inner, values)
  | other => throw (.type (.notTensor "operand" other.kind))

/-- Runs an action; names that it binds are forgotten afterwards. -/
def inScope {β : Type} (action : Action β) : Action β := do
  let names := (← get).names
  let restore : Action Unit := modify fun store => { store with names }
  let result ← tryCatch action fun fault => do
    restore
    throw fault
  restore
  return result

/-- Applies an update to a tensor until it has settled. What the search starts from must be a
tensor, and so must every result of the update; the tolerance is looked at with each change. -/
def fixpoint (update : Ref → Action Ref) (initial : Ref)
    (limit : Pending Int := .ok Fixpoint.usualLimit)
    (tolerance : Literal := Fixpoint.usualTolerance) : Action (Fixpoint.Outcome Ref) := do
  let _ ← tensorAs "initial value" initial
  let limit ← ofExcept limit
  let updated (current : Ref) : Action Ref := do
    let next ← update current
    let _ ← tensorAs "fixpoint update result" next
    return next
  let change (previous current : Ref) : Action Float := do
    ofExcept (Fixpoint.maxChange (← tensor previous) (← tensor current))
  Fixpoint.search updated change (fun moved => ofExcept (Fixpoint.withinLiteral tolerance moved))
    limit initial

end Action

end TensorCalculus
