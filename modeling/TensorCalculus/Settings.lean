import TensorCalculus.Plan
import TensorCalculus.Text.Case

/-!
# Settings

The switches shared by all contractions and by the iterations built on them. Settings arrive as a
draft of literals; a draft is checked field by field, and the first field that is out of order is
reported. -/

namespace TensorCalculus

open TensorCalculus.Text

/-- How a real contraction is carried out: by the loop, or by a bulk routine that takes only plain
letters and an output without repetition. -/
inductive Strategy where
  | loop
  | bulk
  deriving DecidableEq

structure Settings (τ : Type) where
  strategy : Strategy := .loop
  repetition : RepetitionPolicy := .diagonal
  /-- The greatest number of joint assignments that is carried out. -/
  sizeLimit : Option Int := none
  timings : Bool := true
  iterationLimit : Int := 32
  tolerance : τ
  deriving DecidableEq

structure SettingsDraft where
  strategy : Literal := .text "loop"
  repetition : Literal := .text "diagonal"
  sizeLimit : Literal := .null
  timings : Literal := .bool true
  iterationLimit : Literal := .int 32
  tolerance : Literal := .real 1e-6

def Strategy.name : Strategy → String
  | loop => "loop"
  | bulk => "numpy"

def RepetitionPolicy.name : RepetitionPolicy → String
  | diagonal => "diagonal"
  | reject => "reject"

def Strategy.ofName? (name : String) : Option Strategy :=
  if name = "loop" then some .loop else if name = "numpy" then some .bulk else none

def RepetitionPolicy.ofName? (name : String) : Option RepetitionPolicy :=
  if name = "diagonal" then some .diagonal else if name = "reject" then some .reject else none

namespace SettingsDraft

/-- A name in lower case; anything that counts as false stands for the usual name. -/
def nameOf (usual : String) (value : Literal) : String :=
  if value.isTrue then lower value.shown else usual

def checkStrategy (value : Literal) : Except Fault Strategy :=
  match Strategy.ofName? (nameOf "loop" value) with
  | some strategy => .ok strategy
  | none => .error (.value (.strategy value.shown))

def checkRepetition (value : Literal) : Except Fault RepetitionPolicy :=
  match RepetitionPolicy.ofName? (nameOf "diagonal" value) with
  | some policy => .ok policy
  | none => .error (.value (.repetitionPolicy value.shown))

def checkSizeLimit : Literal → Except Fault (Option Int)
  | .null => .ok none
  | value => do
    let limit ← value.toInt
    if limit ≤ 0 then .error (.value .sizeLimit) else return some limit

def checkIterationLimit (value : Literal) : Except Fault Int := do
  let limit ← value.toInt
  if limit ≤ 0 then .error (.value .iterationLimit) else return limit

def checkTolerance (value : Literal) : Except Fault Float := do
  let tolerance ← value.toDouble
  if tolerance < 0 then .error (.value .tolerance) else return tolerance

def normalize (draft : SettingsDraft) : Except Fault (Settings Float) := do
  let strategy ← checkStrategy draft.strategy
  let repetition ← checkRepetition draft.repetition
  let sizeLimit ← checkSizeLimit draft.sizeLimit
  let iterationLimit ← checkIterationLimit draft.iterationLimit
  let tolerance ← checkTolerance draft.tolerance
  let timings := draft.timings.isTrue
  return { strategy, repetition, sizeLimit, timings, iterationLimit, tolerance }

end SettingsDraft

namespace Settings

/-- Settings as a draft that says the same. -/
def toDraft (s : Settings Float) : SettingsDraft :=
  { strategy := .text s.strategy.name
    repetition := .text s.repetition.name
    sizeLimit := match s.sizeLimit with
      | none => .null
      | some limit => .int limit
    timings := .bool s.timings
    iterationLimit := .int s.iterationLimit
    tolerance := .real s.tolerance }

/-- Reads subscripts against shapes and applies the limit on the number of assignments. -/
def plan {τ : Type} (settings : Settings τ) (subscripts : Subscripts) (shapes : List (List Int)) :
    Except Fault Plan := do
  let plan ← Plan.resolve subscripts shapes settings.repetition
  plan.checkLimit settings.sizeLimit
  return plan

end Settings

end TensorCalculus
