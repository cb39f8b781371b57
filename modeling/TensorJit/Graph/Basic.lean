import TensorJit.SortedMap
import TensorJit.Tensor.DType

/-!
# Dataflow graphs

A graph is a list of nodes and a list of edges. The nodes of two operations are its boundary:
an `_Arg` node is an input and a `_Retval` node an output, each with an attribute `index` that
fixes its position. A data edge carries an output of its source to an input slot of its
destination; a control edge only orders the two.

Nodes are found by position, and edges name their ends by the nodes' own numbers. The two
agree in every graph that was built here; in a graph that was read from text they need not,
so every operation says which of the two it uses.
-/

namespace TensorJit

/-- The value of a node attribute. -/
inductive AttrValue where
  /-- An integer of 64 bits. -/
  | int (value : Int)
  /-- A text. -/
  | str (value : String)
  /-- A truth value. -/
  | bool (value : Bool)
  /-- Integers of 64 bits. -/
  | intList (values : List Int)
  /-- An element type. -/
  | dtype (value : DType)
  deriving DecidableEq, Repr

/-- A node of a graph. -/
structure Node where
  /-- The number by which edges name the node. -/
  id : Nat
  /-- The name in messages. -/
  name : String
  /-- The operation. -/
  op : String
  /-- The attributes, by name. -/
  attrs : SortedMap String AttrValue
  deriving DecidableEq

/-- An edge of a graph. -/
structure Edge where
  /-- The node the edge leaves. -/
  src : Nat
  /-- The output it carries. -/
  srcOutput : Nat
  /-- The node the edge enters. -/
  dst : Nat
  /-- The input slot it feeds. -/
  dstInput : Nat
  /-- Whether it only orders the two nodes. -/
  control : Bool
  deriving DecidableEq, Repr

/-- A dataflow graph. -/
structure Graph where
  /-- The nodes, by position. -/
  nodes : List Node
  /-- The edges, in the order they were added. -/
  edges : List Edge
  deriving DecidableEq

/-- Why a graph cannot be used. -/
inductive GraphFault where
  /-- A boundary node without an integer `index`. -/
  | noIndex (name op : String)
  /-- A boundary node whose `index` is below zero. -/
  | negativeIndex (name : String) (index : Int)
  /-- An edge enters a node that does not exist. -/
  | unknownTarget (node : Nat)
  /-- Some nodes wait for each other. -/
  | cycle
  deriving DecidableEq, Repr

/-- The wording of a fault. -/
def GraphFault.message : GraphFault → String
  | .noIndex name op => s!"error getting node attribute index of '{name}' ({op})"
  | .negativeIndex name index => s!"node '{name}' has negative index {index}"
  | .unknownTarget node => s!"edge targets unknown node {node}"
  | .cycle => "graph contains a cycle"

namespace Node

/-- Whether the node is an input of its graph. -/
def isArg (n : Node) : Bool := n.op = "_Arg"

/-- Whether the node is an output of its graph. -/
def isRetval (n : Node) : Bool := n.op = "_Retval"

/-- Whether the node computes something. -/
def isOp (n : Node) : Bool := !n.isArg && !n.isRetval

/-- An integer attribute. -/
def attrInt? (n : Node) (name : String) : Option Int :=
  match n.attrs.get? name with
  | some (.int value) => some value
  | _ => none

/-- An attribute that is a list of integers. -/
def attrIntList? (n : Node) (name : String) : Option (List Int) :=
  match n.attrs.get? name with
  | some (.intList values) => some values
  | _ => none

/-- The position of a boundary node among the inputs or the outputs. -/
def index (n : Node) : Except GraphFault Nat :=
  match n.attrInt? "index" with
  | none => .error (.noIndex n.name n.op)
  | some i => if i < 0 then .error (.negativeIndex n.name i) else .ok i.toNat

end Node

namespace Graph

/-- The graph without nodes. -/
def empty : Graph := ⟨[], []⟩

instance : Inhabited Graph := ⟨empty⟩

/-- The node at a position. -/
def node? (g : Graph) (position : Nat) : Option Node := g.nodes[position]?

/-- The edges that leave the node numbered `id`, in the order of the graph. -/
def outEdges (g : Graph) (id : Nat) : List Edge := g.edges.filter (·.src = id)

/-- An edge added to a list that is in the order of slots, in front of those of its own slot. -/
def insertBySlot (e : Edge) : List Edge → List Edge
  | [] => [e]
  | f :: rest => if e.dstInput ≤ f.dstInput then e :: f :: rest else f :: insertBySlot e rest

/-- The data edges that enter the node numbered `id`, by slot; those of one slot in the order
of the graph. -/
def dataInputs (g : Graph) (id : Nat) : List Edge :=
  (g.edges.filter fun e => e.dst = id && !e.control).foldr insertBySlot []

/-- The inputs of the graph, by position. -/
def args (g : Graph) : List Node := g.nodes.filter Node.isArg

/-! ### Building -/

/-- The 64-bit pattern of `n` as a signed integer. -/
def signed64 (n : Nat) : Int := Int.bmod n UInt64.size

/-- The graph with one more node, which gets its position as number. -/
def addNode (g : Graph) (name op : String) (attrs : SortedMap String AttrValue) : Nat × Graph :=
  let id := g.nodes.length
  (id, { g with nodes := g.nodes ++ [⟨id, name, op, attrs⟩] })

/-- The attributes of a boundary node at a position. -/
def indexAttrs (index : Nat) : SortedMap String AttrValue :=
  SortedMap.empty.insert "index" (.int (signed64 index))

/-- The graph with one more input. -/
def addArg (g : Graph) (name : String) (index : Nat) : Nat × Graph :=
  g.addNode name "_Arg" (indexAttrs index)

/-- The graph with one more output. -/
def addRetval (g : Graph) (name : String) (index : Nat) : Nat × Graph :=
  g.addNode name "_Retval" (indexAttrs index)

/-- The graph with an attribute of the node at a position set; nothing changes if there is no
such node. -/
def setAttr (g : Graph) (position : Nat) (name : String) (value : AttrValue) : Graph :=
  { g with nodes := g.nodes.modify position fun n => { n with attrs := n.attrs.insert name value } }

/-- The graph with one more data edge. -/
def addEdge (g : Graph) (src srcOutput dst dstInput : Nat) : Graph :=
  { g with edges := g.edges ++ [⟨src, srcOutput, dst, dstInput, false⟩] }

/-- The graph with one more control edge. -/
def addControlEdge (g : Graph) (src dst : Nat) : Graph :=
  { g with edges := g.edges ++ [⟨src, 0, dst, 0, true⟩] }

end Graph

end TensorJit
