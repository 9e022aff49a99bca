import TensorCalculus.Literal.Basic
import TensorCalculus.Subscripts.Reader

/-!
# Wordings

A contraction is asked for in subscripts that are already understood, or in a literal that should be
a text and still has to be read. -/

namespace TensorCalculus

inductive Wording where
  | understood (subscripts : Subscripts)
  | written (literal : Literal)

namespace Wording

def resolve : Wording → Except Fault Subscripts
  | understood subscripts => .ok subscripts
  | written (.text text) => Subscripts.read text
  | written other => .error (.subscripts (.notText other.kind) none none)

/-- How the wording is shown in a record of what was asked. -/
def shown : Wording → String
  | understood subscripts => subscripts.toText
  | written literal => literal.shown

end Wording

end TensorCalculus
