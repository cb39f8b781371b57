import TensorJit.Graph.Basic

/-!
# Static inputs

Some operands must be known when a graph is compiled: a target shape, a permutation, the axes
of a reduction. An input of the graph is **static** when such an operand takes it straight from
its `_Arg` node, and the value of a static input then becomes part of the signature.

Which operands count is for a `StaticQuery` to say. The default reads the node's attribute
`_static_inputs` and falls back on a table of operations.
-/

namespace TensorJit

/-- Whether a slot of a node must be known when its graph is compiled. -/
abbrev StaticQuery := Node → Nat → Bool

namespace StaticQuery

/-- The slots of the operations whose shape or axes are operands. -/
def slotsOf (op : String) : List Nat :=
  if op = "Fill" || op = "Conv2DBackpropInput" then [0]
  else if ["Reshape", "Tile", "Transpose", "Pad", "ExpandDims", "OneHot", "Sum", "Mean", "Max",
      "Min", "Prod", "All", "Any", "ArgMax", "ArgMin", "BroadcastTo", "Squeeze",
      "ResizeBilinear", "Conv2DBackpropFilter"].contains op then [1]
  else if op = "Slice" then [1, 2]
  else if op = "StridedSlice" then [1, 2, 3]
  else if op = "ScatterNd" then [2]
  else []

/-- The slots named by the attribute `_static_inputs`, or else by the table. -/
def byAttribute : StaticQuery := fun node slot =>
  match node.attrIntList? "_static_inputs" with
  | some slots => slots.contains (Graph.signed64 slot)
  | none => (slotsOf node.op).contains slot

/-- The slots of the listed pairs of operation and slot. -/
def ofPairs (pairs : List (String × Nat)) : StaticQuery := fun node slot =>
  pairs.contains (node.op, slot)

end StaticQuery

/-- For each input position whether its value is part of the signature. -/
structure StaticInputs where
  /-- One flag per position; positions beyond are not static. -/
  flags : List Bool
  deriving DecidableEq, Repr, Inhabited

namespace StaticInputs

/-- Whether the value at a position is part of the signature. -/
def isStatic (s : StaticInputs) (position : Nat) : Bool := s.flags.getD position false

/-- The static positions, least first. -/
def positions (s : StaticInputs) : List Nat := (s.flags.zipIdx.filter (·.1)).map (·.2)

/-- Whether a data edge takes the output of `arg` to a slot that must be known. -/
def feedsStatic (g : Graph) (query : StaticQuery) (arg : Node) : Bool :=
  (g.outEdges arg.id).any fun e =>
    !e.control &&
      match g.node? e.dst with
      | some dst => dst.isOp && query dst e.dstInput
      | none => false

/-- The static inputs of a graph. There is a flag for every position up to the greatest
`index`; of two inputs with one `index` the later decides. -/
def analyze (g : Graph) (query : StaticQuery) : Except GraphFault StaticInputs := do
  let args ← g.args.mapM fun n => return (n, ← n.index)
  let size := args.foldl (fun size a => max size (a.2 + 1)) 0
  return ⟨args.foldl (fun flags a => flags.set a.2 (feedsStatic g query a.1))
    (List.replicate size false)⟩

end StaticInputs

end TensorJit
