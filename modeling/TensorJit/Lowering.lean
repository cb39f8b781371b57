import TensorJit.Function.Basic
import TensorJit.Graph.Order
import TensorJit.Tensor.Basic

/-!
# Lowering graphs to functions

A graph of elementwise operations and reshapes is lowered to a function by going through its
nodes in topological order. An input becomes a parameter, an operation an instruction, and an
output names the value that is returned at its position. The operand in a slot of a node is
the source of **the first data edge into the slot**, in the order of the graph.

The target of a reshape is not a value of the function. It is read while lowering, from the
tensor that stands at a static input, and one dimension of it may be left to be inferred:

| requested | target |
|---|---|
| no dimension below zero | the request |
| one dimension `-1`, the others with a positive product | the request, with what is left for it |

The target must have as many elements as the operand; anything else is refused.
-/

namespace TensorJit

/-- Why a graph cannot be lowered. -/
inductive LoweringFault where
  /-- The graph itself is malformed. -/
  | graph (fault : GraphFault)
  /-- A position of the order without a node. -/
  | unknownNode (position : Nat)
  /-- An input without a tensor. -/
  | noTensor (index : Nat)
  /-- An operation that is not known. -/
  | unsupportedOp (op node : String)
  /-- A slot without an edge. -/
  | missingInput (node : String) (slot : Nat)
  /-- A slot whose edge carries no lowered value. -/
  | unloweredInput (node : String) (slot : Nat)
  /-- Operands of different specs. -/
  | disagreement (node : String) (first second : TensorSpec)
  /-- A reshape whose target is not an input of the graph. -/
  | shapeNotInput (node : String)
  /-- A reshape whose target is an input that is not static. -/
  | shapeNotStatic (node : String) (position : Nat)
  /-- A reshape whose target does not hold integers. -/
  | shapeValue (fault : ValueFault)
  /-- A reshape with a dimension that cannot be met. -/
  | badDimension (dim : Int) (node : String)
  /-- A reshape to another number of elements. -/
  | badElementCount (elements : Nat) (target : Shape) (node : String)
  /-- A position among the outputs that no output has. -/
  | noOutput (index : Nat)
  /-- The function that came out is malformed. -/
  | function (fault : FunctionFault)
  deriving DecidableEq, Repr

/-- The wording of a fault. -/
def LoweringFault.message : LoweringFault → String
  | .graph fault => fault.message
  | .unknownNode position => s!"unknown node {position}"
  | .noTensor index => s!"graph input {index} has no corresponding tensor"
  | .unsupportedOp op node => s!"unsupported op '{op}' on node '{node}'"
  | .missingInput node slot => s!"node '{node}' is missing input {slot}"
  | .unloweredInput node slot => s!"input {slot} of node '{node}' is produced by an unlowered node"
  | .disagreement node first second =>
    s!"operands of '{node}' disagree: {first.text} vs {second.text}"
  | .shapeNotInput node => s!"shape of reshape '{node}' must come straight from a graph input"
  | .shapeNotStatic node position =>
    s!"shape of reshape '{node}' (input {position}) is not a static input"
  | .shapeValue fault => fault.message
  | .badDimension dim node => s!"invalid reshape dimension {dim} on '{node}'"
  | .badElementCount elements target node =>
    s!"cannot reshape {elements} elements into {target.text} on '{node}'"
  | .noOutput index => s!"graph output {index} is never produced"
  | .function fault => fault.message

namespace Lowering

/-- A lowered value: where it is and what it looks like. -/
structure Lowered where
  /-- The reference to the value. -/
  ref : ValueRef
  /-- Element type and shape. -/
  spec : TensorSpec
  deriving DecidableEq, Repr

/-- What lowering reads. -/
structure Source where
  /-- The graph. -/
  graph : Graph
  /-- The specs of the inputs. -/
  inputs : List TensorSpec
  /-- The values of the static inputs, by position. -/
  statics : List (Option Tensor)

/-- What has been lowered so far. -/
structure Progress where
  /-- The instructions, in order. -/
  body : List Instruction
  /-- The values of node outputs, by node and output; a later entry stands in front. -/
  values : List ((Nat × Nat) × Lowered)
  /-- The values returned, by position; a later entry stands in front. -/
  outputs : List (Nat × Lowered)

/-- Nothing lowered yet. -/
def Progress.start : Progress := ⟨[], [], []⟩

/-- The value in a slot of a node, and the node it comes from. -/
def operand (src : Source) (p : Progress) (node : Node) (slot : Nat) :
    Except LoweringFault (Nat × Lowered) :=
  match (src.graph.dataInputs node.id).find? (·.dstInput = slot) with
  | none => .error (.missingInput node.name slot)
  | some e =>
    match p.values.lookup (e.src, e.srcOutput) with
    | none => .error (.unloweredInput node.name slot)
    | some v => .ok (e.src, v)

/-! ### Reshape targets -/

/-- The product of the dimensions that are not below zero. -/
def knownElements (requested : List Int) : Nat :=
  Shape.elements ((requested.filter (0 ≤ ·)).map Int.toNat)

/-- The dimensions of a target for `elements` elements, of which the others take `known`. One
`-1` is replaced by what is left, unless `inferred` says that this has been done. -/
def targetDims (node : String) (elements known : Nat) :
    (inferred : Bool) → List Int → Except LoweringFault Shape
  | _, [] => .ok []
  | inferred, dim :: rest =>
    if dim = -1 ∧ inferred = false ∧ 0 < known then do
      return elements / known :: (← targetDims node elements known true rest)
    else if 0 ≤ dim then do
      return dim.toNat :: (← targetDims node elements known inferred rest)
    else .error (.badDimension dim node)

/-- The target of a reshape of `elements` elements to the requested dimensions. -/
def resolveTarget (node : String) (elements : Nat) (requested : List Int) :
    Except LoweringFault Shape := do
  let target ← targetDims node elements (knownElements requested) false requested
  if target.elements = elements then .ok target
  else .error (.badElementCount elements target node)

/-- The target of a reshape, read from the static input in its second slot. -/
def reshapeTarget (src : Source) (p : Progress) (node : Node) (elements : Nat) :
    Except LoweringFault Shape := do
  let (origin, _) ← operand src p node 1
  match (src.graph.node? origin).filter Node.isArg with
  | none => .error (.shapeNotInput node.name)
  | some arg =>
    let position ← arg.index.mapError .graph
    match src.statics[position]? with
    | some (some t) => resolveTarget node.name elements (← t.integers.mapError .shapeValue)
    | _ => .error (.shapeNotStatic node.name position)

/-! ### Nodes -/

/-- The operands and the result spec of an operation. -/
def lowerOperands (src : Source) (p : Progress) (node : Node) (op : OpKind) :
    Except LoweringFault (List ValueRef × TensorSpec) := do
  let (_, first) ← operand src p node 0
  match op with
  | .add | .sub | .mul =>
    let (_, second) ← operand src p node 1
    if first.spec = second.spec then .ok ([first.ref, second.ref], first.spec)
    else .error (.disagreement node.name first.spec second.spec)
  | .neg | .identity => .ok ([first.ref], first.spec)
  | .reshape =>
    let target ← reshapeTarget src p node first.spec.elements
    .ok ([first.ref], ⟨first.spec.dtype, target⟩)

/-- An operation becomes an instruction. -/
def lowerOp (src : Source) (p : Progress) (node : Node) : Except LoweringFault Progress := do
  match OpKind.ofTag? node.op with
  | none => .error (.unsupportedOp node.op node.name)
  | some op =>
    let (operands, spec) ← lowerOperands src p node op
    return { p with
      body := p.body ++ [⟨op, operands, spec⟩]
      values := ((node.id, 0), ⟨.instruction p.body.length, spec⟩) :: p.values }

/-- An input becomes a parameter, known by the position of its node. -/
def lowerArg (src : Source) (p : Progress) (position : Nat) (node : Node) :
    Except LoweringFault Progress := do
  let index ← node.index.mapError .graph
  match src.inputs[index]? with
  | none => .error (.noTensor index)
  | some spec => .ok { p with values := ((position, 0), ⟨.parameter index, spec⟩) :: p.values }

/-- An output names what is returned at its position. -/
def lowerRetval (src : Source) (p : Progress) (node : Node) : Except LoweringFault Progress := do
  let index ← node.index.mapError .graph
  let (_, v) ← operand src p node 0
  return { p with outputs := (index, v) :: p.outputs }

/-- The node at a position. -/
def lowerNode (src : Source) (p : Progress) (position : Nat) : Except LoweringFault Progress :=
  match src.graph.node? position with
  | none => .error (.unknownNode position)
  | some node =>
    if node.isArg then lowerArg src p position node
    else if node.isRetval then lowerRetval src p node
    else lowerOp src p node

/-- The nodes at the positions, in order. -/
def lowerNodes (src : Source) : Progress → List Nat → Except LoweringFault Progress
  | p, [] => .ok p
  | p, position :: rest => do lowerNodes src (← lowerNode src p position) rest

/-- The number of positions up to the greatest one that is returned. -/
def outputCount (p : Progress) : Nat := p.outputs.foldl (fun n o => max n (o.1 + 1)) 0

/-- What is returned at each position. -/
def collectOutputs (p : Progress) : Except LoweringFault (List Lowered) :=
  (List.range (outputCount p)).mapM fun index =>
    match p.outputs.lookup index with
    | some v => .ok v
    | none => .error (.noOutput index)

end Lowering

/-- The function of a graph for the specs of its inputs and the values of its static inputs. -/
def Graph.lower (g : Graph) (inputs : List TensorSpec) (statics : List (Option Tensor)) :
    Except LoweringFault Function := do
  let order ← g.topologicalOrder.mapError .graph
  let p ← Lowering.lowerNodes ⟨g, inputs, statics⟩ .start order
  let outputs ← Lowering.collectOutputs p
  let f : Function :=
    { name := "ref_cpu_function"
      parameters := inputs
      results := outputs.map (·.spec)
      body := p.body
      outputs := outputs.map (·.ref) }
  f.validate.mapError .function
  return f

end TensorJit
