import TensorJit.Graph.Basic

/-!
# Sample graphs

Three small graphs that reach everything lowering knows: an operation of two operands, a value
used more than once together with two results, and a reshape whose target is a static input.
-/

namespace TensorJit.Graph

/-- The graph with the listed nodes, each a name and an operation; boundary nodes of one
operation are numbered in order, and edges are triples of source, destination and slot. -/
def ofSample (nodes : List (String × String × Option Nat)) (edges : List (Nat × Nat × Nat)) :
    Graph :=
  let g := nodes.foldl (fun g (name, op, index) =>
    (g.addNode name op ((index.map indexAttrs).getD .empty)).2) empty
  edges.foldl (fun g (src, dst, slot) => g.addEdge src 0 dst slot) g

/-- The sum of two inputs. -/
def sampleAdd : Graph :=
  ofSample
    [("a", "_Arg", some 0), ("b", "_Arg", some 1), ("add", "Add", none),
      ("out", "_Retval", some 0)]
    [(0, 2, 0), (1, 2, 1), (2, 3, 0)]

/-- The negation and the square of one input. -/
def sampleNegAndSquare : Graph :=
  ofSample
    [("x", "_Arg", some 0), ("neg", "Neg", none), ("square", "Mul", none),
      ("neg_out", "_Retval", some 0), ("square_out", "_Retval", some 1)]
    [(0, 1, 0), (0, 2, 0), (0, 2, 1), (1, 3, 0), (2, 4, 0)]

/-- One input in the shape that the other names. -/
def sampleReshape : Graph :=
  ofSample
    [("data", "_Arg", some 0), ("shape", "_Arg", some 1), ("reshape", "Reshape", none),
      ("out", "_Retval", some 0)]
    [(0, 2, 0), (1, 2, 1), (2, 3, 0)]

end TensorJit.Graph
