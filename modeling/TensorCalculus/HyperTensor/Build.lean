import TensorCalculus.HyperTensor.Basic
import TensorCalculus.Tensor.Build

/-!
# Building hypercomplex tensors

Tensors filled with zero or one, drawn at random, or given element by element, and real tensors seen
as hypercomplex ones and back. -/

namespace TensorCalculus.HyperTensor

open TensorCalculus.Layout TensorCalculus.Text

/-- How the elements of a new tensor are given. -/
inductive Initializer where
  | named (kind : String)
  | listed (terms : List (Term Float))

def filled (algebra : AlgebraTag) (size : Int) (x : Float) : Except Fault (List (Term Float)) := do
  let element ← Number.unit algebra x
  checkList size 1
  return List.replicate size.toNat (.number element)

/-- Numbers of which every component is drawn at random. Here a negative size is refused at once. -/
def drawn (algebra : AlgebraTag) (size : Int) : Except Fault (List (Term Float)) := do
  checkBlock [size, algebra.dimension]
  let width := algebra.dimension.toNat
  let all := Random.draws 0 (size.toNat * width)
  (List.range size.toNat).mapM fun i => do
    return .number (← Number.make ((all.drop (i * width)).take width) (some algebra))

def initialTerms (algebra : AlgebraTag) (size : Int) : Initializer →
    Except Fault (List (Term Float))
  | .named kind =>
    let key := lower kind
    if key = "zeros" then filled algebra size 0
    else if key = "ones" then filled algebra size 1
    else if key = "random" then drawn algebra size
    else .error (.value (.initializer kind))
  | .listed terms => .ok terms

/-- A tensor filled by an initializer. The index names are looked at last. -/
def create (name : String) (indices : Pending (List String)) (shape : List Int)
    (algebra : AlgebraTag) (initializer : Initializer := .named Tensor.usualFilling) :
    Except Fault (HyperTensor Float) := do
  let terms ← initialTerms algebra (volume shape) initializer
  make name (← indices) shape terms algebra

/-- What can be said of the draws that fill a tensor at random. Everything that would keep the
tensor from being made counts, the seed before the size of the draws. -/
def surveyRandom (indices : Pending (List String)) (shape : List Int) (seed : Literal)
    (algebra : Option AlgebraTag) : Except Fault Random.Summary := do
  let count ← match algebra with
    | none => do
      Tensor.checkDimensions shape
      let _ ← Random.seedOf seed
      pure (← Tensor.create "T" indices shape (.text "random")).data.size
    | some tag => do
      let _ ← Random.seedOf seed
      let t ← create "T" indices shape tag (.named "random")
      pure (t.data.size * tag.dimension.toNat)
  let _ ← seed.add (.int 1)
  return Random.summarize (← Random.seedOf seed) count

section Embedding

variable {α : Type}

/-- A real tensor with every element as a first component. -/
def ofReal [Zero α] (t : Tensor α) (algebra : AlgebraTag) : Except Fault (HyperTensor α) := do
  let terms ← t.data.toList.mapM fun x => do return .number (← Number.unit algebra x)
  make t.name t.indices t.dims terms algebra

/-- The first components. -/
def realParts (t : HyperTensor α) : Except Fault (Tensor α) := do
  let parts ← t.data.toList.mapM Number.real
  Tensor.make t.name t.indices t.dims (.ok parts.toArray)

def norms [Zero α] [Add α] [Mul α] (sqrt : α → α) (t : HyperTensor α) : Tensor α :=
  t.toTensor.map (Number.norm sqrt)

end Embedding

end TensorCalculus.HyperTensor
