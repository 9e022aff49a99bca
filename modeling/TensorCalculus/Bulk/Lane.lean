/-!
# Sums in two lanes

Elements that lie side by side in memory are summed two at a time: one lane takes the elements at
even places and the other one those at odd places, four pairs are taken together while there are as
many, and at last the two lanes are added. Sums of elements and sums of products group the four
pairs differently. -/

namespace TensorCalculus.Bulk

variable {α : Type}

/-- Two sums that are carried side by side. -/
structure Lanes (α : Type) where
  even : α
  odd : α

namespace Lanes

instance [Add α] : Add (Lanes α) where
  add x y := ⟨x.even + y.even, x.odd + y.odd⟩

variable [Zero α] [Add α]

/-- Adds elements to two lanes, where `gather` groups four pairs with what has been summed
before. -/
def collect (gather : Lanes α → Lanes α → Lanes α → Lanes α → Lanes α → Lanes α) :
    Lanes α → List α → Lanes α
  | lanes, a :: b :: c :: d :: e :: f :: g :: h :: rest =>
    collect gather (gather ⟨a, b⟩ ⟨c, d⟩ ⟨e, f⟩ ⟨g, h⟩ lanes) rest
  | lanes, a :: b :: rest => collect gather (⟨a, b⟩ + lanes) rest
  | lanes, [a] => ⟨a, 0⟩ + lanes
  | lanes, [] => lanes

def total (lanes : Lanes α) : α :=
  lanes.even + lanes.odd

end Lanes

variable [Zero α] [Add α]

/-- The sum of elements: four pairs are added among themselves first. -/
def sumOfElements (xs : List α) : α :=
  (Lanes.collect (fun a b c d lanes => ((a + b) + (c + d)) + lanes) ⟨0, 0⟩ xs).total

/-- The sum of products: each of four pairs is added to what there is, from the last one to the
first. -/
def sumOfProducts (xs : List α) : α :=
  (Lanes.collect (fun a b c d lanes => a + (b + (c + (d + lanes)))) ⟨0, 0⟩ xs).total

example : sumOfElements [1, 2, 3, 4, 5, 6, 7, 8, 9, (10 : Nat)] = 55 ∧
    sumOfProducts [1, 2, (3 : Nat)] = 6 := by
  decide

end TensorCalculus.Bulk
