import TensorCalculus.Fault

/-!
# Usage disciplines

A guarded tensor may be used only as its discipline allows: exactly once (linear), at most once
(affine), any number of times (bang), or at most once as one branch of a choice (with). The guard
itself only counts; what a use hands over is said by `Handover`. -/

namespace TensorCalculus

inductive Discipline where
  | linear
  | affine
  | bang
  | choice
  deriving DecidableEq

namespace Discipline

def name : Discipline → String
  | linear => "linear"
  | affine => "affine"
  | bang => "bang"
  | choice => "with"

def all : List Discipline :=
  [linear, affine, bang, choice]

def ofName? (name : String) : Option Discipline :=
  all.find? (·.name = name)

def ofName (name : String) : Except Fault Discipline :=
  match ofName? name with
  | some d => .ok d
  | none => .error (.value (.discipline name))

/-- The number of uses a new guard allows; a bang guard has no limit. -/
def limit : Discipline → Option Int
  | bang => none
  | _ => some 1

end Discipline

/-- What a use gives away: the guarded tensor itself, or a copy of it. -/
inductive Handover where
  | itself
  | copy
  deriving DecidableEq

structure Guard where
  discipline : Discipline
  uses : Int := 0
  limit : Option Int := some 1
  consumed : Bool := false
  deriving DecidableEq

namespace Guard

def new (discipline : Discipline) : Guard :=
  { discipline, limit := discipline.limit }

def exhausted (g : Guard) : Bool :=
  match g.limit with
  | none => false
  | some limit => limit ≤ g.uses

def canUse (g : Guard) : Bool :=
  g.discipline == .bang || (!g.consumed && !g.exhausted)

/-- The guard after one more use, and what the use hands over. -/
def counted (g : Guard) : Handover × Guard :=
  match g.discipline with
  | .linear | .affine => (.itself, { g with uses := g.uses + 1, consumed := true })
  | .bang | .choice => (.copy, { g with uses := g.uses + 1 })

/-- Uses the tensor with the given name, if the discipline allows it. -/
def use (name : String) (g : Guard) : Except Fault (Handover × Guard) :=
  if g.discipline = .bang then .ok g.counted
  else if g.consumed then .error (.usage (.consumed g.discipline.name name))
  else
    match g.limit with
    | none => .ok g.counted
    | some limit =>
      if limit ≤ g.uses then .error (.usage (.exceeded g.discipline.name name limit))
      else .ok g.counted

/-- Gives the tensor up. A linear one must have been used before. -/
def discard (name : String) (g : Guard) : Except Fault Guard :=
  if g.discipline = .linear ∧ ¬ g.consumed then .error (.usage (.kept g.discipline.name name))
  else .ok { g with consumed := true }

end Guard

end TensorCalculus
