import TensorCalculus.Tensor.Basic
import TensorCalculus.Tower.Term

/-!
# Hypercomplex tensors

A tensor whose elements are numbers of one algebra. The tag is part of the tensor, so that a tensor
without elements has an algebra too, and every element carries it. -/

namespace TensorCalculus

open TensorCalculus.Layout

structure HyperTensor (α : Type) extends Tensor (Number α) where
  algebra : AlgebraTag
  tagged : ∀ x ∈ data, x.algebra = algebra

namespace HyperTensor

variable {α : Type}

/-- The number, if the term is one of the given algebra. -/
def checkElement (algebra : AlgebraTag) (position : Option Nat) :
    Term α → Except Fault { x : Number α // x.algebra = algebra }
  | .number x =>
    if h : x.algebra = algebra then .ok ⟨x, h⟩
    else .error (.algebra (.wrongElement position x.algebra.name algebra.name))
  | other => .error (.algebra (.notANumber position other.kind))

def checkElements (algebra : AlgebraTag) :
    Nat → List (Term α) → Except Fault (List { x : Number α // x.algebra = algebra })
  | _, [] => .ok []
  | position, term :: terms => do
    let x ← checkElement algebra (some position) term
    let xs ← checkElements algebra (position + 1) terms
    return x :: xs

theorem length_checkElements {algebra : AlgebraTag} {position : Nat} {terms : List (Term α)}
    {xs : List { x : Number α // x.algebra = algebra }}
    (h : checkElements algebra position terms = .ok xs) : xs.length = terms.length := by
  induction terms generalizing position xs with
  | nil =>
    cases h
    rfl
  | cons term terms ih =>
    simp only [checkElements, bind, Except.bind] at h
    split at h
    · cases h
    · split at h
      · cases h
      · next found =>
        cases h
        simp [ih found]

/-- A tensor from its parts. Index names are counted first, then sizes and elements are checked. -/
def make (name : String) (indices : List String) (shape : List Int) (terms : List (Term α))
    (algebra : AlgebraTag) : Except Fault (HyperTensor α) :=
  let sizes := shape.map Int.toNat
  if named : indices.length = sizes.length then
    match Tensor.checkDimensions shape with
    | .error fault => .error fault
    | .ok _ =>
      if filled : terms.length = volume sizes then
        match h : checkElements algebra 0 terms with
        | .error fault => .error fault
        | .ok xs =>
          .ok { name, indices, shape := sizes, data := (xs.map Subtype.val).toArray, algebra
                length_indices := named
                size_data := by simp [length_checkElements h, filled]
                tagged := fun x hx => by
                  simp only [List.mem_toArray, List.mem_map] at hx
                  obtain ⟨y, _, rfl⟩ := hx
                  exact y.property }
      else .error (.shape (.elementCount name shape (volume shape) terms.length) none none)
  else .error (.shape (.indexCount name indices.length sizes.length) none none)

def get {κ : Type} (understand : κ → Except Fault Int) (t : HyperTensor α) (coords : List κ) :
    Except Fault (Number α) :=
  t.toTensor.get understand coords

/-- Writes an element. The element is checked before its place. -/
def set {κ : Type} (understand : κ → Except Fault Int) (t : HyperTensor α) (term : Term α)
    (coords : List κ) : Except Fault (HyperTensor α) := do
  let x ← checkElement t.algebra none term
  let place ← t.toTensor.locate understand coords
  return { t with
    data := t.data.setIfInBounds place.toNat x.val
    size_data := by simp [t.size_data]
    tagged := fun y hy => by
      rcases Array.mem_or_eq_of_mem_setIfInBounds hy with old | rfl
      · exact t.tagged y old
      · exact x.property }

/-- The tensor of the values that a map gives, which must be numbers of the same algebra. -/
def mapTerms (t : HyperTensor α) (f : Number α → Except Fault (Term α)) :
    Except Fault (HyperTensor α) := do
  make t.name t.indices t.dims (← t.data.toList.mapM f) t.algebra

end HyperTensor

end TensorCalculus
