import TensorCalculus.Text.Digit
import TensorCalculus.Text.Listing
import TensorCalculus.Text.Quoted

/-!
# Faults

Every way in which a request can be refused, sorted by what is at fault: the notation, a shape, an
algebra, a limit, the use of a guarded tensor, or a plain value. A fault holds its cause;
`Fault.kind` and `Fault.message` say how it is reported. A fault that speaks of a number too long to
be written cannot be reported as what it is. -/

namespace TensorCalculus

universe u

open TensorCalculus.Text

/-- What is wrong with a notation. -/
inductive SyntaxFault where
  | notText (kind : String)
  | unexpected (symbol : Char)
  | misplaced
  | repeatedOutput (symbol : Char)
  | repeatedSymbol (operand : Nat) (segment : List Char)
  deriving DecidableEq

/-- What does not fit in number or size. -/
inductive ShapeFault where
  | operandCount (named supplied : Nat)
  | segmentLength (segment : List Char) (rank : String)
  | inconsistentSize (symbol : Char) (size first : Int)
  | missingOutput (symbols : List Char)
  | negativeDimension (shape : List Int)
  | indexCount (name : String) (names rank : Nat)
  | elementCount (name : String) (shape : List Int) (needed : Int) (given : Nat)
  | matrixNames (names : Nat)
  | matrixRow (row columns expected : Nat)
  | softmaxRank (rank : Nat)
  | differingShapes (operation : String) (first other : List Int)
  | transposeRank (rank : Nat)
  | broadcastRank (operation : String) (rank : Nat)
  | broadcastOntoScalar (operation : String)
  | broadcastLength (operation : String) (length : Int) (axis : String) (size : Int)
  | changedShape (previous current : List Int)
  | notSquare (operation : String) (shape : List Int)
  | beliefCount (name : String) (elements beliefs : Nat)
  | noOperands (operation : String)
  deriving DecidableEq

/-- What is wrong with the algebra of a value. -/
inductive AlgebraFault where
  | dimension (size : Int)
  | unknown (text : String)
  | componentCount (algebra : String) (needed : Int) (given : Nat)
  | exactCount (algebra : String) (needed given : Nat)
  | differing (operation left right : String)
  | foreign (operation left kind : String)
  | realHalves
  | unequalHalves (left right : Nat)
  | notANumber (offset : Option Nat) (kind : String)
  | wrongElement (offset : Option Nat) (held expected : String)
  | wrongTensor (operation needed given : String)
  | mixedOperands (position : Nat) (held first : String)
  deriving DecidableEq

/-- What breaks the discipline of a guarded tensor. -/
inductive UsageFault where
  | consumed (discipline name : String)
  | exceeded (discipline name : String) (limit : Int)
  | kept (discipline name : String)
  deriving DecidableEq

/-- A value that an operation cannot accept although its type is right. -/
inductive ValueFault where
  | strategy (text : String)
  | repetitionPolicy (text : String)
  | sizeLimit
  | iterationLimit
  | tolerance
  | notInteger (text : String)
  | longNumeral (digits : Nat)
  | longInteger
  | notFraction (text : String)
  | nanToInteger
  | ragged (depth : Nat) (detected : List Int)
  | nesting
  | axis (axis : String) (rank : Nat)
  | softmaxAxis (axis : String)
  | noTensors (operation : String)
  | initializer (text : String)
  | discipline (text : String)
  | axisCount (given : Nat)
  | zeroAxis
  | infiniteAngle
  | negativeSize
  | negativeSeed
  | missingPlaces
  | placesSpecifier (specifier : String)
  | manyPlaces
  | longPlaces
  | layoutCode (code kind : String)
  | axisLimit (rank : Nat)
  | dimensionLimit
  | storageLimit
  | regrouping (size : Nat) (shape : List Int)
  | assignment (source target : List Nat)
  | unequalShapes (left right : List Nat)
  /-- A block of this many elements stands where a truth value is wanted. -/
  | truthOfBlock (size : Nat)
  /-- What a routine that is not part of this library says against its operands. -/
  | rejected (reason : String)
  deriving DecidableEq

/-- A value of the wrong type. -/
inductive TypeFault where
  | notTensor (role kind : String)
  | notHyperTensor (kind : String)
  | notSemiring (kind : String)
  | operands (operator left right : String)
  | concatenation (left right : String)
  | repetition (kind : String)
  | toInteger (kind : String)
  | toFraction (kind : String)
  | notIterable (kind : String)
  | noLength (kind : String)
  | order (operator left right : String)
  | lone (operator kind : String)
  | axisKind (kind : String)
  | sizeKind (kind : String)
  | wholeAxis (purpose : String)
  | joinedItem (position : Nat) (kind : String)
  | notJoinable
  | noLayout (kind : String)
  | seed (text : String)
  | unhashable (kind : String)
  | complexRoot
  | missingParts (form : String) (parts : List String)
  | surplusParts (form : String) (least most given : Nat)
  deriving DecidableEq

/-- A coordinate or an index that names no element. -/
inductive BoundsFault where
  | coordinateCount (expected given : Nat)
  | coordinate (coordinate : Int) (axis : Nat) (size : String)
  | slice (index axis : String) (size : Int)
  | noComponents
  | noAxes
  | scalarIndexed
  | offset (offset : Int) (size : Nat)
  deriving DecidableEq

/-- A number beyond the range of its type. -/
inductive RangeFault where
  | integerTooLarge
  | infinityToInteger
  | exponential
  | quotient
  | listSize
  | textSize
  deriving DecidableEq

inductive Fault where
  | subscripts (cause : SyntaxFault) (column : Option Int) (source : Option String)
  | shape (cause : ShapeFault) (operand : Option Int) (label : Option String)
  | algebra (cause : AlgebraFault)
  | jointSize (subscripts : String) (size limit : Int)
  | bulk (subscripts reason : String)
  | usage (cause : UsageFault)
  | value (cause : ValueFault)
  | type (cause : TypeFault)
  | unknownSemiring (name : String) (available : List String)
  | unbound (name : String)
  | bounds (cause : BoundsFault)
  | range (cause : RangeFault)
  /-- Division by zero, of whole numbers or of doubles. -/
  | zeroDivision (whole : Bool)
  /-- A value lacks what is asked of it by name. -/
  | attribute (kind name : String)
  /-- More items than a list can have. -/
  | memory
  /-- A recursion without end. -/
  | recursion
  deriving DecidableEq

/-- A value that may turn out to be at fault. The fault counts from the moment the value is
needed. -/
abbrev Pending (β : Type u) : Type u :=
  Except Fault β

/-- A text with the place it speaks of: the column, and below it the source with a mark under the
column. -/
def located (text : String) (column : Option Int) (source : Option String) : String :=
  match column with
  | none => text
  | some column =>
    let place := text ++ s!" (col {column})"
    match source with
    | none => place
    | some source =>
      if column < 1 then place
      else
        place ++ "\n  " ++ source ++ "\n  " ++
          String.ofList (List.replicate (column - 1).toNat ' ') ++ "^"

/-- A text under the operand it speaks of and the notation it arose in. -/
def framed (text : String) (operand : Option Int) (label : Option String) : String :=
  let opening := match operand with
    | none => ""
    | some position => s!"operand {position}: "
  let closing := match label with
    | none => ""
    | some label => if label.isEmpty then "" else s!" (in '{label}')"
  opening ++ text ++ closing

def atOffset : Option Nat → String
  | none => ""
  | some offset => s!" at flat offset {offset}"

namespace SyntaxFault

def message : SyntaxFault → String
  | notText kind => s!"Einsum notation must be a string, got {kind}"
  | unexpected symbol =>
    let shown := quoteChar symbol
    s!"Unexpected character {shown} in einsum notation"
  | misplaced => "Malformed einsum notation"
  | repeatedOutput symbol => s!"Output index '{symbol}' appears more than once"
  | repeatedSymbol operand segment =>
    let shown := String.ofList segment
    s!"Operand {operand} segment '{shown}' repeats an index symbol"

end SyntaxFault

namespace ShapeFault

def message : ShapeFault → String
  | operandCount named supplied =>
    s!"Notation names {named} operand(s) but {supplied} tensor(s) were supplied"
  | segmentLength segment rank =>
    let shown := String.ofList segment
    s!"segment '{shown}' has {segment.length} index symbol(s) but the tensor has rank {rank}"
  | inconsistentSize symbol size first =>
    s!"inconsistent index size for '{symbol}': {size} vs {first}"
  | missingOutput symbols =>
    let shown := commaSeparated (symbols.map toString)
    s!"output index(es) {shown} do not appear in any operand"
  | negativeDimension shape =>
    let shown := tupleOfInts shape
    s!"Tensor dimensions must be non-negative, got {shown}"
  | indexCount name names rank => s!"Tensor '{name}' has {names} index name(s) for rank {rank}"
  | elementCount name shape needed given =>
    let shown := tupleOfInts shape
    s!"Tensor '{name}' with shape {shown} needs {needed} element(s), got {given}"
  | matrixNames names => s!"from_matrix expects two index names, got {names}"
  | matrixRow row columns expected =>
    s!"Matrix row {row} has {columns} column(s), expected {expected}"
  | softmaxRank rank => s!"softmax supports rank 1 and rank 2 tensors, got rank {rank}"
  | differingShapes operation first other =>
    let left := tupleOfInts first
    let right := tupleOfInts other
    s!"{operation} expects matching shapes, got {left} and {right}"
  | transposeRank rank => s!"transpose requires a rank 2 tensor, got rank {rank}"
  | broadcastRank operation rank =>
    s!"{operation} expects a rank 1 operand to broadcast, got rank {rank}"
  | broadcastOntoScalar operation => s!"{operation} cannot broadcast onto a scalar tensor"
  | broadcastLength operation length axis size =>
    s!"{operation} length {length} does not match axis {axis} of size {size}"
  | changedShape previous current =>
    let left := tupleOfInts previous
    let right := tupleOfInts current
    s!"fixpoint update changed the shape from {left} to {right}"
  | notSquare operation shape =>
    let shown := tupleOfInts shape
    s!"{operation} expects a square relation matrix, got shape {shown}"
  | beliefCount name elements beliefs =>
    s!"PLN tensor '{name}' has {elements} element(s) but {beliefs} truth value(s)"
  | noOperands operation => s!"{operation} needs at least one operand"

/-- Whether all numbers that the fault speaks of can be written. -/
def isWritable : ShapeFault → Bool
  | inconsistentSize _ size first => Text.isWritable size && Text.isWritable first
  | negativeDimension shape => shape.all Text.isWritable
  | elementCount _ shape needed _ => shape.all Text.isWritable && Text.isWritable needed
  | differingShapes _ first other => first.all Text.isWritable && other.all Text.isWritable
  | broadcastLength _ length _ size => Text.isWritable length && Text.isWritable size
  | changedShape previous current => previous.all Text.isWritable && current.all Text.isWritable
  | notSquare _ shape => shape.all Text.isWritable
  | _ => true

end ShapeFault

namespace AlgebraFault

def message : AlgebraFault → String
  | dimension size => s!"Cayley-Dickson dimension must be a power of two, got {size}"
  | unknown text => s!"Unknown algebra type: {text}"
  | componentCount algebra needed given => s!"{algebra} expects {needed} components, got {given}"
  | exactCount algebra needed given =>
    s!"{algebra} requires exactly {needed} components, got {given}"
  | differing operation left right => s!"Cannot {operation} {left} and {right} values"
  | foreign operation left kind => s!"Cannot {operation} {left} and {kind}"
  | realHalves => "Real values cannot be split into halves"
  | unequalHalves left right => s!"Halves must share a dimension, got {left} and {right}"
  | notANumber offset kind =>
    let place := atOffset offset
    s!"Expected a hypercomplex value{place}, got {kind}"
  | wrongElement offset held expected =>
    let place := atOffset offset
    s!"Element{place} is {held} but the tensor holds {expected}"
  | wrongTensor operation needed given => s!"{operation} needs a {needed} tensor, got {given}"
  | mixedOperands position held first =>
    s!"operand {position}: {held} tensor cannot be contracted with {first} tensors"

def isWritable : AlgebraFault → Bool
  | dimension size => Text.isWritable size
  | componentCount _ needed _ => Text.isWritable needed
  | _ => true

end AlgebraFault

namespace UsageFault

def message : UsageFault → String
  | consumed discipline name => s!"{discipline} tensor '{name}' was already consumed"
  | exceeded discipline name limit => s!"{discipline} tensor '{name}' exceeded {limit} use(s)"
  | kept discipline name => s!"{discipline} tensor '{name}' must be used and cannot be discarded"

def isWritable : UsageFault → Bool
  | exceeded _ _ limit => Text.isWritable limit
  | _ => true

end UsageFault

namespace ValueFault

def message : ValueFault → String
  | strategy text => s!"Unsupported contraction strategy: {text}"
  | repetitionPolicy text => s!"Unsupported repeated index policy: {text}"
  | sizeLimit => "max_joint_size must be positive when provided"
  | iterationLimit => "max_iters must be positive"
  | tolerance => "tol must be non-negative"
  | notInteger text =>
    let shown := (quote text).take 200
    s!"invalid literal for int() with base 10: {shown}"
  | longNumeral digits =>
    s!"Exceeds the limit (4300 digits) for integer string conversion: value has {digits} " ++
      "digits; use sys.set_int_max_str_digits() to increase the limit"
  | longInteger =>
    "Exceeds the limit (4300 digits) for integer string conversion; " ++
      "use sys.set_int_max_str_digits() to increase the limit"
  | notFraction text =>
    let shown := quote text
    s!"could not convert string to float: {shown}"
  | nanToInteger => "cannot convert float NaN to integer"
  | ragged depth detected =>
    let shown := tupleOfInts detected
    "setting an array element with a sequence. The requested array has an inhomogeneous shape " ++
      s!"after {depth} dimensions. The detected shape was {shown} + inhomogeneous part."
  | nesting =>
    "setting an array element with a sequence. " ++
      "The requested array would exceed the maximum number of dimension of 64."
  | axis given rank => s!"axis {given} out of range for rank {rank}"
  | softmaxAxis given => s!"softmax axis must be 0, 1 or -1 for a matrix, got {given}"
  | noTensors operation => s!"{operation} needs at least one tensor"
  | initializer text => s!"Unknown tensor initializer: {text}"
  | discipline text => s!"Unknown modality '{text}'. Available: linear, affine, bang, with"
  | axisCount given => s!"Rotation axis must have 3 components, got {given}"
  | zeroAxis => "Rotation axis must be non-zero"
  | infiniteAngle => "math domain error"
  | negativeSize => "negative dimensions are not allowed"
  | negativeSeed => "expected non-negative integer"
  | missingPlaces => "Format specifier missing precision"
  | placesSpecifier specifier =>
    s!"Invalid format specifier '{specifier}' for object of type 'float'"
  | manyPlaces => "precision too big"
  | longPlaces => "Too many decimal digits in format string"
  | layoutCode code kind => s!"Unknown format code '{code}' for object of type '{kind}'"
  | axisLimit rank => s!"maximum supported dimension for an ndarray is currently 64, found {rank}"
  | dimensionLimit => "Maximum allowed dimension exceeded"
  | storageLimit =>
    "array is too big; \x60arr.size * arr.dtype.itemsize\x60 is larger than the maximum " ++
      "possible size."
  | regrouping size shape =>
    let shown := closeTuple (shape.map toString)
    s!"cannot reshape array of size {size} into shape {shown}"
  | assignment source target =>
    let left := closeTuple (source.map toString)
    let right := closeTuple (target.map toString)
    s!"could not broadcast input array from shape {left} into shape {right}"
  | unequalShapes left right =>
    let first := closeTuple (left.map toString)
    let second := closeTuple (right.map toString)
    s!"operands could not be broadcast together with shapes {first} {second} "
  | truthOfBlock 0 =>
    "The truth value of an empty array is ambiguous. " ++
      "Use \x60array.size > 0\x60 to check that an array is not empty."
  | truthOfBlock _ =>
    "The truth value of an array with more than one element is ambiguous. Use a.any() or a.all()"
  | rejected reason => reason

end ValueFault

namespace TypeFault

def message : TypeFault → String
  | notTensor role kind => s!"Expected a Tensor {role}, got {kind}"
  | notHyperTensor kind => s!"Expected a HypercomplexTensor operand, got {kind}"
  | notSemiring kind => s!"Expected a Semiring, got {kind}"
  | operands operator left right =>
    s!"unsupported operand type(s) for {operator}: '{left}' and '{right}'"
  | concatenation left right => s!"can only concatenate {left} (not \"{right}\") to {left}"
  | repetition kind => s!"can't multiply sequence by non-int of type '{kind}'"
  | toInteger kind =>
    s!"int() argument must be a string, a bytes-like object or a real number, not '{kind}'"
  | toFraction kind => s!"float() argument must be a string or a real number, not '{kind}'"
  | notIterable kind => s!"'{kind}' object is not iterable"
  | noLength kind => s!"object of type '{kind}' has no len()"
  | order operator left right =>
    s!"'{operator}' not supported between instances of '{left}' and '{right}'"
  | lone operator kind => s!"bad operand type for {operator}: '{kind}'"
  | axisKind kind => s!"tuple indices must be integers or slices, not {kind}"
  | sizeKind kind => s!"'{kind}' object cannot be interpreted as an integer"
  | wholeAxis purpose => s!"an integer is required{purpose}"
  | joinedItem position kind => s!"sequence item {position}: expected str instance, {kind} found"
  | notJoinable => "can only join an iterable"
  | noLayout kind => s!"unsupported format string passed to {kind}.__format__"
  | seed text => s!"SeedSequence expects int or sequence of ints for entropy not {text}"
  | unhashable kind => s!"unhashable type: '{kind}'"
  | complexRoot => "float() argument must be a string or a real number, not 'complex'"
  | missingParts form parts =>
    let shown := conjoined (parts.map quote)
    let noun := counted "argument" parts.length
    s!"{form}() missing {parts.length} required positional {noun}: {shown}"
  | surplusParts form least most given =>
    let admitted := if least = most then s!"{most}" else s!"from {least} to {most}"
    let noun := if least = most then counted "argument" most else "arguments"
    s!"{form}() takes {admitted} positional {noun} but {given} were given"

end TypeFault

namespace BoundsFault

def message : BoundsFault → String
  | coordinateCount expected given => s!"Expected {expected} coordinates, got {given}"
  | coordinate given axis size =>
    s!"Coordinate {given} out of range for axis {axis} with size {size}"
  | slice index axis size => s!"index {index} out of range for axis {axis} with size {size}"
  | noComponents => "index 0 is out of bounds for axis 0 with size 0"
  | noAxes => "tuple index out of range"
  | scalarIndexed => "too many indices for array: array is 0-dimensional, but 1 were indexed"
  | offset given size => s!"index {given} is out of bounds for axis 0 with size {size}"

/-- Whether all numbers that the fault speaks of can be written. The size of an axis stands in a
coordinate's fault as it was given, and a text is given with no more digits than can be read. -/
def isWritable : BoundsFault → Bool
  | coordinate given _ size => Text.isWritable given && isShort size
  | slice _ _ size => Text.isWritable size
  | _ => true

end BoundsFault

namespace RangeFault

def message : RangeFault → String
  | integerTooLarge => "int too large to convert to float"
  | infinityToInteger => "cannot convert float infinity to integer"
  | exponential => "math range error"
  | quotient => "integer division result too large for a float"
  | listSize => "cannot fit 'int' into an index-sized integer"
  | textSize => "repeated string is too long"

end RangeFault

namespace Fault

/-- Whether all numbers that a fault speaks of can be written. -/
def isWritable : Fault → Bool
  | .shape cause _ _ => cause.isWritable
  | .algebra cause => cause.isWritable
  | .jointSize _ size limit => Text.isWritable size && Text.isWritable limit
  | .usage cause => cause.isWritable
  | .bounds cause => cause.isWritable
  | _ => true

/-- What a fault comes out as. Where one of its numbers cannot be written, that is the fault. -/
def reported (fault : Fault) : Fault :=
  if fault.isWritable then fault else .value .longInteger

/-- The kind of a fault that can be written. -/
def ownKind : Fault → String
  | .subscripts .. => "ParseError"
  | .shape .. => "ShapeError"
  | .algebra .. => "AlgebraError"
  | .jointSize .. => "ResourceLimitError"
  | .bulk .. => "BackendError"
  | .usage .. => "LinearityError"
  | .value .. => "ValueError"
  | .type .. => "TypeError"
  | .unknownSemiring .. => "KeyError"
  | .unbound .. => "KeyError"
  | .bounds .. => "IndexError"
  | .range .. => "OverflowError"
  | .zeroDivision _ => "ZeroDivisionError"
  | .attribute .. => "AttributeError"
  | .memory => "MemoryError"
  | .recursion => "RecursionError"

/-- The message of a fault that can be written. -/
def ownMessage : Fault → String
  | .subscripts cause column source => located cause.message column source
  | .shape cause operand label => framed cause.message operand label
  | .algebra cause => cause.message
  | .jointSize label size limit =>
    s!"Contraction '{label}' visits {size} joint assignments, exceeding max_joint_size={limit}"
  | .bulk label reason => s!"numpy.einsum rejected '{label}': {reason}"
  | .usage cause => cause.message
  | .value cause => cause.message
  | .type cause => cause.message
  | .unknownSemiring name available =>
    let shown := commaSeparated available
    s!"Unknown semiring '{name}'. Available: {shown}"
  | .unbound name => name
  | .bounds cause => cause.message
  | .range cause => cause.message
  | .zeroDivision whole => if whole then "division by zero" else "float division by zero"
  | .attribute kind name => s!"'{kind}' object has no attribute '{name}'"
  | .memory => ""
  | .recursion => "maximum recursion depth exceeded"

def kind (fault : Fault) : String :=
  fault.reported.ownKind

def message (fault : Fault) : String :=
  fault.reported.ownMessage

/-- The column a fault of the notation points at. -/
def column? (fault : Fault) : Option Int :=
  match fault.reported with
  | .subscripts _ column _ => column
  | _ => none

/-- The operand a fault of shapes points at. -/
def operand? (fault : Fault) : Option Int :=
  match fault.reported with
  | .shape _ operand _ => operand
  | _ => none

theorem kind_eq (fault : Fault) : fault.kind = if fault.isWritable then fault.ownKind
    else "ValueError" := by
  unfold kind reported
  split <;> rfl

end Fault

example : located "oops" (some 3) (some "ab,c") = "oops (col 3)\n  ab,c\n    ^" := by decide +kernel

end TensorCalculus
