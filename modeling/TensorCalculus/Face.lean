import TensorCalculus.Catalogue
import TensorCalculus.Cost
import TensorCalculus.HyperTensor.Basic
import TensorCalculus.Profile
import TensorCalculus.Settings
import TensorCalculus.Tensor.Random
import TensorCalculus.TruthValue

/-!
# Faces of values

Every value that an operation can hand out is shown as a literal: its parts under their names, in
lists, or as they are. The faces hold all that can be asked of a value, derived quantities such as
the strides of a plan included. -/

namespace TensorCalculus

namespace Literal

def ofTexts (texts : List String) : Literal := list (texts.map text)

def ofInts (values : List Int) : Literal := list (values.map int)

def ofReals (values : List Float) : Literal := list (values.map real)

def ofChars (cs : List Char) : Literal := ofTexts (cs.map String.singleton)

/-- The face of a value that may be missing. -/
def ofOption {α : Type} (face : α → Literal) : Option α → Literal
  | none => null
  | some x => face x

end Literal

open TensorCalculus.Layout

/-- The parts of a tensor, given the face of an element. -/
def Tensor.fields {α : Type} (element : α → Literal) (t : Tensor α) : List (String × Literal) :=
  [("name", .text t.name), ("indices", .ofTexts t.indices), ("shape", .ofInts t.dims),
   ("data", .list (t.data.toList.map element))]

def Tensor.toLiteral (t : Tensor Float) : Literal :=
  .record (t.fields .real)

/-- The elements nested by the shape. -/
def Tensor.nested (t : Tensor Float) : Literal :=
  .nest t.shape (t.data.toList.map .real)

def HyperTensor.toLiteral (t : HyperTensor Float) : Literal :=
  .record (("algebra", .text t.algebra.name) :: t.toTensor.fields fun x => .ofReals x.components)

def Number.toLiteral (x : Number Float) : Literal :=
  .record [("class", .text x.view.name), ("algebra", .text x.algebra.name),
    ("components", .ofReals x.components)]

def AlgebraTag.toLiteral (tag : AlgebraTag) : Literal :=
  .record [("name", .text tag.name), ("dimension", .int tag.dimension)]

def TruthValue.toLiteral (v : TruthValue Float) : Literal :=
  .ofReals [v.strength, v.confidence]

def Subscripts.toLiteral (s : Subscripts) : Literal :=
  .record [("inputs", .ofTexts (s.inputs.map String.ofList)),
    ("output", .text (String.ofList s.output)), ("explicit", .bool s.explicit),
    ("text", .text s.text), ("symbols", .ofChars s.symbols),
    ("contracted", .ofChars s.contracted), ("str", .text s.toText)]

def Offsets.toLiteral (o : Offsets) : Literal :=
  .list [.ofInts o.operands, .int o.output]

def Plan.toLiteral (p : Plan) : Literal :=
  .record [("index_order", .ofChars p.order), ("index_sizes", .ofInts p.sizes),
    ("sizes", .ofInts p.sizes), ("operand_shapes", .list (p.operandShapes.map .ofInts)),
    ("output_shape", .ofInts p.outputShape),
    ("segment_strides", .list (p.operandShapes.map fun shape => .ofInts (strides shape))),
    ("output_segment_strides", .ofInts (strides p.outputShape)),
    ("operand_strides", .list (p.operandStrides.map .ofInts)),
    ("output_strides", .ofInts p.outputStrides), ("contracted", .ofChars p.contracted),
    ("output_size", .int p.outputSize), ("joint_size", .int p.jointSize)]

def Cost.toLiteral (c : Cost) : Literal :=
  .record [("flops", .real c.operations), ("bytes_in", .int c.bytesIn),
    ("bytes_out", .int c.bytesOut), ("bytes_total", .int c.bytesTotal),
    ("contracted", .ofChars c.contracted),
    ("output_indices", .ofChars c.output), ("reductions", .int c.reductions),
    ("joint_size", .int c.jointSize)]

def Settings.toLiteral (s : Settings Float) : Literal :=
  .record [("strategy", .text s.strategy.name), ("repeated_indices", .text s.repetition.name),
    ("max_joint_size", .ofOption .int s.sizeLimit), ("explain_timings", .bool s.timings),
    ("max_iters", .int s.iterationLimit), ("tol", .real s.tolerance)]

/-- The figures of a profile. Amounts are shown as doubles, which they may be too large for; counts
are shown as they are, by the face given for them. -/
def Profile.toLiteral (count : Literal → Literal) (p : Profile) : Except Fault Literal := do
  let mainBytes ← p.mainBytes.toDouble
  let cacheBytes ← p.cacheBytes.toDouble
  let sharedBytes ← p.sharedBytes.toDouble
  let operations ← p.operations.toDouble
  let bandwidth ← p.bandwidth.toDouble
  let density ← p.density.toDouble
  return .record [("hbm_bytes", .real mainBytes), ("l2_bytes", .real cacheBytes),
    ("shared_mem_bytes", .real sharedBytes), ("registers", count p.registers),
    ("flops", .real operations),
    ("bandwidth", .real bandwidth), ("nnz", count p.nonzero), ("density", .real density),
    ("rank", count p.rank)]

def Weight.toLiteral : Weight → Literal
  | truth value => .bool value
  | amount value => .real value

/-- A member of the catalogue with its neutral elements. -/
def Catalogue.toLiteral (c : Catalogue) : Literal :=
  let s := c.sumProduct
  .record [("name", .text s.name), ("zero", (c.weigh s.zero).toLiteral),
    ("one", (c.weigh s.one).toLiteral)]

def Catalogue.Folded.toLiteral {c : Catalogue} (f : Folded c) : Literal :=
  .record [("lifted", .list (f.lifted.map fun x => (c.weigh x).toLiteral)),
    ("lowered", .ofReals f.lowered), ("sum", .real f.sum), ("product", .real f.product)]

def Random.Summary.toLiteral (s : Random.Summary) : Literal :=
  .record [("count", .int s.count), ("bounded", .bool s.bounded),
    ("reproducible", .bool s.reproducible), ("seed_matters", .bool s.seedMatters)]

end TensorCalculus
