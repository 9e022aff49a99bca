import TensorCalculus.Grid
import TensorCalculus.Literal.Buffer
import TensorCalculus.Literal.Order
import TensorCalculus.Subscripts.Reader

/-!
# Memos

A memo is what somebody puts between the records of a trace. It may hold more than a literal does:
blocks of doubles and subscripts, at any depth. A report writes a memo as a literal, but a question
that is asked of it before is answered by what it holds, and a block has no answer to most of
them. -/

namespace TensorCalculus

inductive Memo where
  | plain (value : Literal)
  | block (entries : Grid Float)
  | subscripts (s : Subscripts)
  | list (items : List Memo)
  | record (fields : List (String × Memo))
  deriving Inhabited

namespace Memo

/-- The name of a memo's type in messages. -/
def kind : Memo → String
  | plain value => value.kind
  | block _ => "numpy.ndarray"
  | subscripts _ => "Notation"
  | list _ => "list"
  | record _ => "dict"

mutual

/-- The literal by which a memo is reported. -/
def ready : Memo → Literal
  | plain value => value
  | block entries => .nest entries.shape (entries.data.toList.map .real)
  | subscripts s => .text s.toText
  | list items => .list (readyItems items)
  | record fields => .record (readyFields fields)

def readyItems : List Memo → List Literal
  | [] => []
  | item :: items => ready item :: readyItems items

def readyFields : List (String × Memo) → List (String × Literal)
  | [] => []
  | (key, value) :: fields => (key, ready value) :: readyFields fields

end

/-- What stands under a key. Only a record can be asked. -/
def get? (memo : Memo) (key : String) : Except Fault (Option Memo) :=
  match memo with
  | record fields => .ok (fields.lookup key)
  | plain (.record fields) => .ok (((Literal.record fields).field? key).map plain)
  | other => .error (.attribute other.kind "get")

/-- Whether a memo is a given text. A block is compared element by element, and unless it has one
element there is no single answer. -/
def isText (text : String) : Memo → Except Fault Bool
  | plain value => .ok (value.same (.text text))
  | block entries =>
    if entries.data.size = 1 then .ok false else .error (.value (.truthOfBlock entries.data.size))
  | _ => .ok false

/-- Whether a memo says of itself that it stands for a contraction. -/
def isContraction (memo : Memo) : Except Fault Bool := do
  match ← memo.get? "kind" with
  | none => return false
  | some kind => kind.isText "contraction"

end Memo

end TensorCalculus
