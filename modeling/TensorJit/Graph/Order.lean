import TensorJit.Graph.Basic

/-!
# Topological order

The nodes of a graph in an order in which every edge, data or control, leaves an earlier node
than it enters. Nodes are drained in the order in which they become ready: at first those that
no edge enters, by position, and then each as soon as the last node before it is drained.

An edge into a node that does not exist is refused at once. An edge that leaves such a node is
never drained, so its destination waits for ever; **what is left over waits on a cycle or on a
node that does not exist**, and the two are reported alike.
-/

namespace TensorJit.Graph

/-- The progress of the draining. -/
structure Drain where
  /-- For each position, how many edges still hold it back. -/
  pending : List Nat
  /-- The nodes that nothing holds back, first come first. -/
  ready : List Nat
  /-- The nodes drained so far, in order. -/
  drained : List Nat
  deriving DecidableEq, Repr

namespace Drain

/-- One edge into `dst` holds it back no longer. -/
def release (s : Drain) (dst : Nat) : Drain :=
  let pending := s.pending.modify dst (· - 1)
  if pending[dst]? = some 0 then { s with pending, ready := s.ready ++ [dst] }
  else { s with pending }

/-- The first ready node is drained, and the edges that leave it are released. -/
def step (g : Graph) (s : Drain) : Drain :=
  match s.ready with
  | [] => s
  | id :: ready =>
    (g.outEdges id).foldl (fun s e => s.release e.dst)
      { s with ready, drained := s.drained ++ [id] }

end Drain

/-- The number of edges into each position. -/
def inDegrees (g : Graph) : List Nat :=
  (List.range g.nodes.length).map fun v => g.edges.countP (·.dst = v)

/-- The draining before its first step. -/
def drainStart (g : Graph) : Drain :=
  let pending := g.inDegrees
  { pending
    ready := (List.range g.nodes.length).filter fun v => pending[v]? = some 0
    drained := [] }

/-- The draining after as many steps as there are nodes, which is when nothing is ready. -/
def drainAll (g : Graph) : Drain :=
  g.nodes.length.fold (fun _ _ s => s.step g) g.drainStart

/-- The positions of all nodes, every edge from an earlier to a later one. -/
def topologicalOrder (g : Graph) : Except GraphFault (List Nat) :=
  match g.edges.find? fun e => g.nodes.length ≤ e.dst with
  | some e => .error (.unknownTarget e.dst)
  | none =>
    let order := g.drainAll.drained
    if order.length = g.nodes.length then .ok order else .error .cycle

end TensorJit.Graph
