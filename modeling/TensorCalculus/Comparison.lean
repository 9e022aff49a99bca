/-!
# Comparisons

The greater and the lesser of two numbers, the first one staying unless the second is strictly
beyond it, and what follows from them. Where numbers need not be comparable, the order of the
arguments matters. -/

namespace TensorCalculus

variable {α : Type} [LT α] [DecidableLT α]

def greater (a b : α) : α :=
  if a < b then b else a

def lesser (a b : α) : α :=
  if b < a then b else a

/-- A number drawn into the interval from zero to one. -/
def clampUnit [Zero α] [One α] (x : α) : α :=
  lesser 1 (greater 0 x)

/-- How the greater and the lesser of two values are found. -/
class Extremes (β : Type) where
  greater : β → β → β
  lesser : β → β → β

instance : Extremes α := ⟨greater, lesser⟩

def magnitude [Zero α] [Neg α] (x : α) : α :=
  if x < 0 then -x else x

example : clampUnit (Float.ofBits 0x7ff8000000000000) = 0 ∧ clampUnit (1.5 : Float) = 1 := by
  decide +kernel

end TensorCalculus
