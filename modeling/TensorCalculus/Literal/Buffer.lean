import TensorCalculus.Layout.Limits
import TensorCalculus.Literal.Basic

/-!
# Nested lists as flat buffers

Element data may be nested. It must be regular: at every depth all lists have one length. A regular
literal is flattened with the last dimension varying fastest, and each entry becomes a double. A
flat list of entries is nested again by its shape. -/

namespace TensorCalculus.Literal

/-- The sizes two shapes share at their front. -/
def commonPrefix : List Int → List Int → List Int
  | a :: as, b :: bs => if a = b then a :: commonPrefix as bs else []
  | _, _ => []

/-- Whether all entries are regular, and the sizes that they share. -/
structure Extent where
  sizes : List Int
  regular : Bool

def Extent.join (a b : Extent) : Extent :=
  { sizes := commonPrefix a.sizes b.sizes, regular := a.regular && b.regular && a.sizes == b.sizes }

mutual

def extent : Literal → Extent
  | list [] => { sizes := [0], regular := true }
  | list (item :: items) =>
    let inner := sharedExtent (extent item) items
    { sizes := (items.length + 1 : Nat) :: inner.sizes, regular := inner.regular }
  | _ => { sizes := [], regular := true }

def sharedExtent (known : Extent) : List Literal → Extent
  | [] => known
  | item :: items => sharedExtent (known.join (extent item)) items

end

mutual

/-- The entries below all lists, first to last. -/
def leaves : Literal → List Literal
  | list items => leavesOf items
  | other => [other]

def leavesOf : List Literal → List Literal
  | [] => []
  | item :: items => leaves item ++ leavesOf items

end

/-- An entry of a buffer as a double; a missing entry is not a number. -/
def entry : Literal → Except Fault Float
  | null => .ok (Float.ofBits 0x7ff8000000000000)
  | other => other.toDouble

mutual

/-- How deep lists are nested. -/
def depth : Literal → Nat
  | list items => depthOfItems items + 1
  | _ => 0

def depthOfItems : List Literal → Nat
  | [] => 0
  | item :: items => max (depth item) (depthOfItems items)

end

/-- The block of doubles that a literal describes, flat, with the sizes of its axes. -/
def toBlock (value : Literal) : Except Fault (List Int × Array Float) :=
  let found := value.extent
  if Layout.axisLimit < value.depth then .error (.value .nesting)
  else if found.regular then return (found.sizes, (← value.leaves.mapM entry).toArray)
  else .error (.value (.ragged found.sizes.length found.sizes))

/-- The flat buffer of doubles that a literal describes. -/
def toBuffer (value : Literal) : Except Fault (Array Float) := do
  return (← value.toBlock).2

/-- Entries in row-major order as nested lists of a given shape. -/
def nest : List Nat → List Literal → Literal
  | [], entries => entries.head?.getD null
  | d :: shape, entries =>
    let width := Layout.volume shape
    list ((List.range d).map fun i => nest shape ((entries.drop (i * width)).take width))

end TensorCalculus.Literal
