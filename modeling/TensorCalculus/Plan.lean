import TensorCalculus.Layout
import TensorCalculus.Literal.Shape
import TensorCalculus.Odometer
import TensorCalculus.Subscripts.Basic

/-!
# Plans

A plan is what remains of a contraction once its subscripts have been matched with the shapes of its
operands: the size of every symbol. Everything the iteration needs follows from it. An operand that
names a symbol twice moves along its diagonal, so the strides of all occurrences add up; in the
output the last occurrence of a symbol decides. -/

namespace TensorCalculus

open TensorCalculus.Layout

/-- What becomes of a symbol that occurs twice in one operand. -/
inductive RepetitionPolicy where
  | diagonal
  | reject
  deriving DecidableEq

/-- Symbols with their sizes, in order of first appearance. -/
abbrev SymbolSizes := List (Char × Int)

structure Plan where
  subscripts : Subscripts
  operandShapes : List (List Int)
  symbolSizes : SymbolSizes
  deriving DecidableEq

namespace SymbolSizes

/-- The size of a symbol; a symbol without a size counts as empty. -/
def sizeOf (known : SymbolSizes) (c : Char) : Int :=
  (known.lookup c).getD 0

/-- Adds the symbols of one segment. The first occurrence fixes the size. -/
def extend (operand : Nat) (label : String) : SymbolSizes → List (Char × Int) →
    Except Fault SymbolSizes
  | known, [] => .ok known
  | known, (c, size) :: rest =>
    match known.lookup c with
    | none => extend operand label (known ++ [(c, size)]) rest
    | some first =>
      if first = size then extend operand label known rest
      else .error (.shape (.inconsistentSize c size first) (some operand) (some label))

/-- Adds the symbols of all segments; the first operand at fault is reported. -/
def extendAll (policy : RepetitionPolicy) (label : String) :
    Nat → SymbolSizes → List (List Char × List Int) → Except Fault SymbolSizes
  | _, known, [] => .ok known
  | operand, known, (segment, shape) :: rest =>
    if policy = .reject ∧ ¬ segment.Nodup then
      .error (.subscripts (.repeatedSymbol operand segment) none none)
    else do
      let known ← extend operand label known (segment.zip shape)
      extendAll policy label (operand + 1) known rest

end SymbolSizes

namespace Subscripts

/-- Compares the lengths of the segments with the ranks of the operands, first to last. -/
def checkSegments (label : String) : Nat → List (List Char) → List Int → Except Fault Unit
  | operand, segment :: segments, rank :: ranks =>
    if segment.length = rank then checkSegments label (operand + 1) segments ranks
    else .error (.shape (.segmentLength segment (toString rank)) (some operand) (some label))
  | _, _, _ => .ok ()

def checkRanks (s : Subscripts) (ranks : List Int) : Except Fault Unit :=
  if s.inputs.length = ranks.length then checkSegments s.label 0 s.inputs ranks
  else .error (.shape (.operandCount s.inputs.length ranks.length) none (some s.label))

/-- The same comparison for ranks as they are given, each understood just before it is compared. -/
def checkGivenSegments (label : String) : Nat → List (List Char) → List Literal → Except Fault Unit
  | operand, segment :: segments, rank :: ranks => do
    if segment.length = (← rank.toInt) then checkGivenSegments label (operand + 1) segments ranks
    else .error (.shape (.segmentLength segment rank.shown) (some operand) (some label))
  | _, _, _ => .ok ()

def checkGivenRanks (s : Subscripts) (ranks : Literal) : Except Fault Unit := do
  let ranks ← ranks.counted
  if s.inputs.length = ranks.length then checkGivenSegments s.label 0 s.inputs ranks
  else .error (.shape (.operandCount s.inputs.length ranks.length) none (some s.label))

end Subscripts

namespace Plan

/-- Matches subscripts with shapes, or says what does not fit: the number of operands, then a rank,
then a repetition or a size, and at last output symbols that no operand has. -/
def resolve (s : Subscripts) (shapes : List (List Int)) (policy : RepetitionPolicy) :
    Except Fault Plan := do
  s.checkRanks (shapes.map fun shape => shape.length)
  let sizes ← SymbolSizes.extendAll policy s.label 0 [] (s.inputs.zip shapes)
  match s.output.filter (fun c => (sizes.lookup c).isNone) with
  | [] => return { subscripts := s, operandShapes := shapes, symbolSizes := sizes }
  | missing => .error (.shape (.missingOutput missing) none (some s.label))

/-- The same for sizes that are still to be understood; ranks are compared before any size is
read. -/
def resolveLiterals (s : Subscripts) (shapes : List (List Literal)) (policy : RepetitionPolicy) :
    Except Fault Plan := do
  s.checkRanks (shapes.map fun shape => shape.length)
  resolve s (← shapes.mapM fun shape => shape.mapM Literal.toInt) policy

def order (p : Plan) : List Char :=
  p.subscripts.symbols

def sizeOf (p : Plan) (c : Char) : Int :=
  p.symbolSizes.sizeOf c

def sizes (p : Plan) : List Int :=
  p.order.map p.sizeOf

def contracted (p : Plan) : List Char :=
  p.subscripts.contracted

def outputShape (p : Plan) : List Int :=
  p.subscripts.output.map p.sizeOf

def outputSize (p : Plan) : Int :=
  volume p.outputShape

/-- The number of joint assignments. -/
def jointSize (p : Plan) : Int :=
  volume p.sizes

/-- The number of assignments of the symbols summed over. -/
def contractedSize (p : Plan) : Int :=
  volume (p.contracted.map p.sizeOf)

/-- The strides of all occurrences of a symbol, added up. -/
def summedStride (c : Char) : List Char → List Int → Int
  | s :: segment, d :: strides => (if s = c then d else 0) + summedStride c segment strides
  | _, _ => 0

/-- The stride of the last occurrence of a symbol, zero when it does not occur. -/
def lastStride (c : Char) (otherwise : Int) : List Char → List Int → Int
  | s :: segment, d :: strides => lastStride c (if s = c then d else otherwise) segment strides
  | _, _ => otherwise

/-- How far each operand moves when a symbol's value grows by one. -/
def stepsOf (p : Plan) (c : Char) : List Int :=
  List.zipWith (fun segment shape => summedStride c segment (strides shape))
    p.subscripts.inputs p.operandShapes

def outputStrideOf (p : Plan) (c : Char) : Int :=
  lastStride c 0 p.subscripts.output (strides p.outputShape)

def wheelOf (p : Plan) (c : Char) : Wheel :=
  { size := p.sizeOf c, steps := p.stepsOf c, output := p.outputStrideOf c }

def wheels (p : Plan) : List Wheel :=
  p.order.map p.wheelOf

/-- The places in all buffers, one for each joint assignment in lexicographic order. -/
def visits (p : Plan) : List Offsets :=
  Odometer.visits p.wheels p.operandShapes.length

/-- The stride table of every operand, in the order of the symbols. -/
def operandStrides (p : Plan) : List (List Int) :=
  List.zipWith (fun segment shape => p.order.map fun c => summedStride c segment (strides shape))
    p.subscripts.inputs p.operandShapes

def outputStrides (p : Plan) : List Int :=
  p.order.map p.outputStrideOf

/-- Whether a limit admits the number of joint assignments. -/
def checkLimit (p : Plan) (limit : Option Int) : Except Fault Unit :=
  match limit with
  | none => .ok ()
  | some limit =>
    if limit < p.jointSize then .error (.jointSize p.subscripts.toText p.jointSize limit)
    else .ok ()

end Plan

end TensorCalculus
