/-!
# The odometer

All joint assignments of values to index symbols are visited like the readings of an odometer whose
last wheel turns fastest. What is wanted of a reading is not the digits but the place in every
buffer that they lead to, so the offsets are carried along: a wheel that advances adds its step, and
a wheel that wraps around takes back all the steps of its turn. -/

namespace TensorCalculus

/-- A wheel: how many values it shows, and how far every buffer moves when it advances by one. -/
structure Wheel where
  size : Int
  steps : List Int
  output : Int
  deriving DecidableEq

/-- A place in every operand buffer and in the output buffer. -/
structure Offsets where
  operands : List Int
  output : Int
  deriving DecidableEq

namespace Offsets

def origin (operands : Nat) : Offsets :=
  { operands := List.replicate operands 0, output := 0 }

/-- The offsets after a wheel has advanced a number of times. -/
def move (o : Offsets) (w : Wheel) (times : Int) : Offsets :=
  { operands := List.zipWith (fun place step => place + times * step) o.operands w.steps
    output := o.output + times * w.output }

end Offsets

namespace Odometer

/-- What a turn leads to; `wrapped` when every wheel has come back to its first value. -/
structure Turn where
  wrapped : Bool
  digits : List Int
  offsets : Offsets

/-- Advances the last wheel, and each wheel in front of one that wraps around. -/
def turn : List Wheel → List Int → Offsets → Turn
  | w :: ws, digit :: digits, offsets =>
    let behind := turn ws digits offsets
    if behind.wrapped then
      if digit + 1 < w.size then
        { wrapped := false, digits := (digit + 1) :: behind.digits,
          offsets := behind.offsets.move w 1 }
      else
        { wrapped := true, digits := 0 :: behind.digits,
          offsets := behind.offsets.move w (-(w.size - 1)) }
    else { behind with digits := digit :: behind.digits }
  | _, _, offsets => { wrapped := true, digits := [], offsets }

/-- How many readings there are. A wheel without a positive size still shows its first value, except
that no reading exists when some size is zero. -/
def count (ws : List Wheel) : Nat :=
  if ws.any (·.size = 0) then 0 else (ws.map fun w => (max w.size 1).toNat).foldr (· * ·) 1

/-- The offsets of the next `fuel` readings. -/
def visitsFrom (ws : List Wheel) : Nat → List Int → Offsets → List Offsets
  | 0, _, _ => []
  | fuel + 1, digits, offsets =>
    let next := turn ws digits offsets
    offsets :: if next.wrapped then [] else visitsFrom ws fuel next.digits next.offsets

/-- The offsets of all readings, in order. -/
def visits (ws : List Wheel) (operands : Nat) : List Offsets :=
  visitsFrom ws (count ws) (List.replicate ws.length 0) (.origin operands)

section Fold

variable {ε β : Type}

def foldFrom (ws : List Wheel) (f : β → Offsets → Except ε β) :
    Nat → List Int → Offsets → β → Except ε β
  | 0, _, _, b => .ok b
  | fuel + 1, digits, offsets, b =>
    match f b offsets with
    | .error e => .error e
    | .ok b =>
      let next := turn ws digits offsets
      if next.wrapped then .ok b else foldFrom ws f fuel next.digits next.offsets b

/-- Runs through all readings without listing them. -/
def fold (ws : List Wheel) (operands : Nat) (f : β → Offsets → Except ε β) (b : β) : Except ε β :=
  foldFrom ws f (count ws) (List.replicate ws.length 0) (.origin operands) b

theorem foldFrom_eq (ws : List Wheel) (f : β → Offsets → Except ε β) (fuel : Nat)
    (digits : List Int) (offsets : Offsets) (b : β) :
    foldFrom ws f fuel digits offsets b = (visitsFrom ws fuel digits offsets).foldlM f b := by
  induction fuel generalizing digits offsets b with
  | zero => rfl
  | succ fuel ih =>
    simp only [foldFrom, visitsFrom, List.foldlM_cons]
    cases f b offsets with
    | error e => rfl
    | ok b =>
      by_cases h : (turn ws digits offsets).wrapped
      · simp only [h, if_true]
        rfl
      · simp only [h, Bool.false_eq_true, if_false]
        exact ih _ _ b

theorem fold_eq (ws : List Wheel) (operands : Nat) (f : β → Offsets → Except ε β) (b : β) :
    fold ws operands f b = (visits ws operands).foldlM f b :=
  foldFrom_eq ..

end Fold

example : visits [⟨2, [3], 1⟩, ⟨2, [1], 0⟩] 1 = [⟨[0], 0⟩, ⟨[1], 0⟩, ⟨[3], 1⟩, ⟨[4], 1⟩] := by
  decide

end Odometer

end TensorCalculus
