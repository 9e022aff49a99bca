import TensorCalculus.Layout

/-!
# Limits of storage

Not every shape can be laid out. A block of elements has at most 64 axes, none of them longer than a
machine word can count, and its bytes must be countable too. So must be the bytes of a list, each
item of which takes as many as an element does. Whatever can be counted is taken to fit into
memory. -/

namespace TensorCalculus.Layout

/-- The most axes a block can have. -/
def axisLimit : Nat := 64

/-- The greatest number a machine word of 64 bits can count, one bit being for the sign. -/
def wordLimit : Nat := 0x7fffffffffffffff

/-- The bytes an element takes. -/
def elementBytes : Nat := 8

/-- The most items a list can have. -/
def listLimit : Nat := wordLimit / elementBytes

def checkAxes (rank : Nat) : Except Fault Unit :=
  if axisLimit < rank then .error (.value (.axisLimit rank)) else .ok ()

/-- Every axis must be countable. -/
def checkLengths (shape : List Nat) : Except Fault Unit :=
  if shape.any (wordLimit < ·) then .error (.value .dimensionLimit) else .ok ()

/-- The product of a list of sizes, unless it cannot be counted on the way. -/
def countable? : Nat → List Nat → Option Nat
  | product, [] => some product
  | product, d :: ds => if wordLimit < product * d then none else countable? (product * d) ds

/-- The bytes of a block must be countable, empty axes left aside. -/
def checkBytes (shape : List Nat) : Except Fault Unit :=
  match countable? elementBytes (shape.filter (· ≠ 0)) with
  | some _ => .ok ()
  | none => .error (.value .storageLimit)

/-- Whether a flat block of elements can be laid out in a shape. A block stays as it is under its
own shape; otherwise the elements are counted axis by axis before the bytes are. -/
def checkRegrouping (size : Nat) (shape : List Nat) : Except Fault Unit := do
  checkAxes shape.length
  checkLengths shape
  if shape = [size] then return
  else if countable? 1 shape = some size then checkBytes shape
  else .error (.value (.regrouping size (shape.map Int.ofNat)))

/-- Whether a whole number fits into a machine word. -/
def fitsWord (n : Int) : Bool :=
  -(wordLimit : Int) - 1 ≤ n && n ≤ wordLimit

/-- Whether a new block of a given shape can be made. -/
def checkBlock (shape : List Int) : Except Fault Unit :=
  if !shape.all fitsWord then .error (.value .dimensionLimit)
  else if shape.any (· < 0) then .error (.value .negativeSize)
  else checkBytes (shape.map Int.toNat)

/-- Whether a list of a given length can be repeated a number of times. -/
def checkList (times : Int) (length : Nat) : Except Fault Unit :=
  if !fitsWord times then .error (.range .listSize)
  else if listLimit < times * length then .error .memory
  else .ok ()

/-- Whether a text of a given length can be repeated a number of times. -/
def checkText (times : Int) (length : Nat) : Except Fault Unit :=
  if !fitsWord times then .error (.range .listSize)
  else if wordLimit < times * length then .error (.range .textSize)
  else .ok ()

example : (checkRegrouping 0 [0, 2 ^ 40, 2 ^ 40]).toOption = none ∧
    (checkRegrouping 6 [2, 3]).toOption = some () := by
  decide +kernel

end TensorCalculus.Layout
