import TensorJit.Graph.Basic
import TensorJit.Json.Reader
import TensorJit.Json.Record
import TensorJit.Tensor.DType

/-!
# The stored form of a graph

A graph is stored as JSON: nodes and edges as records, an attribute value as a choice that
names its kind. The attributes of a node may be left out, and so may the flag of an edge that
says it is a control edge. Attributes are written in the order of their names; in a text that
names one twice, the later counts.
-/

namespace TensorJit

namespace AttrValue

/-- The stored form of an attribute value. -/
def toJson : AttrValue → Json
  | .int value => .record [("Int", .number value)]
  | .str value => .record [("Str", .string value)]
  | .bool value => .record [("Bool", .bool value)]
  | .intList values => .record [("IntList", .array (values.map .number))]
  | .dtype value => .record [("Type", .string value.tag)]

/-- The attribute value of a stored form. -/
def ofJson? (j : Json) : Option AttrValue := do
  let (kind, held) ← j.choice?
  match kind with
  | "Int" => held.int64?.map .int
  | "Str" => held.string?.map .str
  | "Bool" => held.bool?.map .bool
  | "IntList" => (held.list? Json.int64?).map .intList
  | "Type" => (held.unitChoice?.bind DType.ofTag?).map .dtype
  | _ => none

end AttrValue

/-- The stored form of a node's attributes. -/
def attrsToJson (attrs : SortedMap String AttrValue) : Json :=
  .record (attrs.toList.map fun a => (a.1, a.2.toJson))

/-- The attributes of a stored form. -/
def attrsOfJson? (j : Json) : Option (SortedMap String AttrValue) := do
  let fields ← j.fields?
  let attrs ← fields.mapM fun f => do some (f.1, ← AttrValue.ofJson? f.2)
  some (.ofList attrs)

/-- The stored form of a node. -/
def Node.toJson (n : Node) : Json :=
  .record [("id", .nat n.id), ("name", .string n.name), ("op", .string n.op),
    ("attrs", attrsToJson n.attrs)]

/-- The node of a stored form. -/
def Node.ofJson? (j : Json) : Option Node := do
  match ← j.record? ["id", "name", "op", "attrs"] with
  | [id, name, op, attrs] =>
    some ⟨← (← id).word?, ← (← name).string?, ← (← op).string?,
      ← match attrs with
        | some attrs => attrsOfJson? attrs
        | none => some .empty⟩
  | _ => none

/-- The stored form of an edge. -/
def Edge.toJson (e : Edge) : Json :=
  .record [("src", .nat e.src), ("src_output", .nat e.srcOutput), ("dst", .nat e.dst),
    ("dst_input", .nat e.dstInput), ("control", .bool e.control)]

/-- The edge of a stored form. -/
def Edge.ofJson? (j : Json) : Option Edge := do
  match ← j.record? ["src", "src_output", "dst", "dst_input", "control"] with
  | [src, srcOutput, dst, dstInput, control] =>
    some ⟨← (← src).word?, ← (← srcOutput).word?, ← (← dst).word?, ← (← dstInput).word?,
      ← match control with
        | some control => control.bool?
        | none => some false⟩
  | _ => none

namespace Graph

/-- The stored form of a graph. -/
def toJson (g : Graph) : Json :=
  .record [("nodes", .array (g.nodes.map Node.toJson)), ("edges", .array (g.edges.map Edge.toJson))]

/-- The graph of a stored form. -/
def ofJson? (j : Json) : Option Graph := do
  match ← j.record? ["nodes", "edges"] with
  | [nodes, edges] =>
    some ⟨← (← nodes).list? Node.ofJson?, ← (← edges).list? Edge.ofJson?⟩
  | _ => none

/-- The graph that a text stores. -/
def ofText? (text : String) : Option Graph := do ofJson? (← Json.ofText? text)

end Graph

end TensorJit
