import Mathlib.Logic.Function.Iterate
import TensorJit.Graph.Samples
import TensorJit.Proofs.Graph.Acyclic

/-!
# The draining, moment by moment

The draining takes the first ready node, then releases the edges that leave it, one at a time, and
goes on until nothing is ready. `Drain.Reached` is this loop: a moment is a state together with the
edges that are still to be released. It says nothing of how many steps there are.

At every moment the counts are balanced (`Drain.Reached.balanced`): an edge that is still to be
released is one of those counted at its destination. So **whenever an edge is released, the count of
its destination is positive**, however many edges there are between two nodes; and a node that has
an edge to itself is never ready in the first place.

Nothing is drained twice, so after as many steps as there are nodes nothing is ready any more
(`Drain.ready_drainAll`), and the loop stops there and nowhere else (`Drain.Reached.eq_drainAll`).
What it has drained by then are all nodes if and only if the graph is closed and acyclic.
-/

namespace TensorJit.Graph

variable {g : Graph}

namespace Drain

variable {s : Drain} {rest : List Edge}

/-- The moments of the draining: a state, and the edges of the node drained last that are still to
be released. -/
inductive Reached (g : Graph) : Drain → List Edge → Prop
  /-- Before the first node is drained. -/
  | start : Reached g g.drainStart []
  /-- All edges of the last node have been released, and the first ready node is drained. -/
  | drain {s : Drain} {id : Nat} {ready : List Nat} (h : Reached g s [])
      (hready : s.ready = id :: ready) :
      Reached g { s with ready, drained := s.drained ++ [id] } (g.outEdges id)
  /-- One edge is released. -/
  | release {s : Drain} {e : Edge} {rest : List Edge} (h : Reached g s (e :: rest)) :
      Reached g (s.release e.dst) rest

namespace Reached

/-- **At every moment the counts are balanced**, by induction on how it is reached. -/
theorem balanced (h : Reached g s rest) : s.Balanced g rest := by
  induction h with
  | start => exact balanced_start g
  | drain _ hready ih => exact ih.drain hready
  | release _ ih => exact ih.release

/-- **An edge is released where it is counted.** -/
theorem pending_pos {e : Edge} (h : Reached g s (e :: rest)) (he : e.dst < g.nodes.length) :
    ∃ count, s.pending[e.dst]? = some (count + 1) := by
  rw [h.balanced.pending e.dst he, List.countP_cons, if_pos (decide_eq_true rfl)]
  exact ⟨_, rfl⟩

/-- All edges of a node are released. -/
theorem releaseAll {edges : List Edge} (h : Reached g s edges) :
    Reached g (edges.foldl (fun s e => s.release e.dst) s) [] := by
  induction edges generalizing s with
  | nil => exact h
  | cons e rest ih => exact ih h.release

theorem step (h : Reached g s []) : Reached g (s.step g) [] := by
  rw [Drain.step]
  split
  · exact h
  · rename_i hready
    exact (h.drain hready).releaseAll

end Reached

/-- The loop goes nowhere else: once the edges are released that are still to be, it has taken some
number of steps. -/
theorem Reached.exists_iterate (h : Reached g s rest) :
    ∃ steps, rest.foldl (fun s e => s.release e.dst) s = (Drain.step g)^[steps] g.drainStart := by
  induction h with
  | start => exact ⟨0, rfl⟩
  | @drain s id ready _ hready ih =>
    obtain ⟨steps, hsteps⟩ := ih
    refine ⟨steps + 1, ?_⟩
    rw [Function.iterate_succ_apply', ← hsteps, List.foldl_nil, Drain.step, hready]
  | release _ ih => exact ih

theorem drainAll_eq_iterate (g : Graph) :
    g.drainAll = (Drain.step g)^[g.nodes.length] g.drainStart := by
  rw [drainAll]
  generalize g.nodes.length = steps
  induction steps with
  | zero => rfl
  | succ steps ih => rw [Nat.fold_succ, ih, Function.iterate_succ_apply']

theorem reached_drainAll (g : Graph) : Reached g g.drainAll [] := by
  rw [drainAll_eq_iterate]
  generalize g.nodes.length = steps
  induction steps with
  | zero => exact .start
  | succ steps ih =>
    rw [Function.iterate_succ_apply']
    exact ih.step

/-- **The loop stops**: there are no more nodes to drain than there are nodes. -/
theorem ready_drainAll (g : Graph) : g.drainAll.ready = [] := by
  have hadvanced := advanced_drainAll g
  rcases hadvanced.count with hready | hcount
  · exact hready
  · -- All nodes have been drained, and what is ready would be one more.
    have hsubset : g.drainAll.drained ++ g.drainAll.ready ⊆ List.range g.nodes.length :=
      fun v hv => List.mem_range.2 (hadvanced.balanced.lt hv)
    have hle := (List.subperm_of_subset hadvanced.balanced.nodup hsubset).length_le
    rw [List.length_append, List.length_range, hcount] at hle
    exact List.length_eq_zero_iff.1 (by omega)

/-- **It stops nowhere else.** Two numbers of steps after which nothing is ready lead to one state,
since the smaller of them has led there already. -/
theorem Reached.eq_drainAll (h : Reached g s []) (hready : s.ready = []) : s = g.drainAll := by
  have hstays : ∀ (t : Drain) (steps : Nat), t.ready = [] → (Drain.step g)^[steps] t = t := by
    intro t steps ht
    exact Function.iterate_fixed (step_of_ready_eq_nil ht) steps
  obtain ⟨steps, hsteps⟩ := h.exists_iterate
  have hall := drainAll_eq_iterate g
  rw [List.foldl_nil] at hsteps
  rcases Nat.le_total steps g.nodes.length with hle | hle
  · obtain ⟨more, hmore⟩ := Nat.exists_eq_add_of_le' hle
    rw [hmore, Function.iterate_add_apply, ← hsteps, hstays s more hready] at hall
    exact hall.symm
  · obtain ⟨more, rfl⟩ := Nat.exists_eq_add_of_le' hle
    rw [Function.iterate_add_apply, ← hall, hstays _ more (ready_drainAll g)] at hsteps
    exact hsteps

end Drain

/-- In a topological order every edge leaves an earlier position than it enters. -/
theorem idxOf_lt_of_topologicalOrder {order : List Nat} (h : g.topologicalOrder = .ok order)
    {e : Edge} (he : e ∈ g.edges) : order.idxOf e.src < order.idxOf e.dst := by
  have hperm := topologicalOrder_perm h
  have hmem : ∀ e ∈ g.edges, e.dst ∈ order := fun e he =>
    hperm.mem_iff.2 (List.mem_range.2 ((topologicalOrder_eq_ok_iff.1 h).1 e he))
  exact (ordered_of_topologicalOrder h).idxOf_lt (hperm.nodup_iff.2 List.nodup_range) hmem
    (.single ⟨e, he, rfl, rfl⟩)

/-- **The topological order is exact**, for every graph, whatever its edges: parallel ones, edges
that come from nowhere or lead from a node to itself, data or control. The loop reaches exactly one
moment at which nothing is ready and no edge is left to be released; no count is lowered that is
zero; there is an order if and only if every edge joins two nodes and no path is a cycle; and then
it consists of what the loop has drained, which is every position once, the source of every edge
before its destination. -/
theorem topologicalOrder_exact (g : Graph) :
    (∀ s, Drain.Reached g s [] ∧ s.ready = [] ↔ s = g.drainAll) ∧
    (∀ s e rest, Drain.Reached g s (e :: rest) → e.dst < g.nodes.length →
      ∃ count, s.pending[e.dst]? = some (count + 1)) ∧
    ((∃ order, g.topologicalOrder = .ok order) ↔ g.Closed ∧ g.Acyclic) ∧
    ∀ order, g.topologicalOrder = .ok order →
      order = g.drainAll.drained ∧ order.Perm (List.range g.nodes.length) ∧
        ∀ e ∈ g.edges, order.idxOf e.src < order.idxOf e.dst := by
  refine ⟨fun s => ⟨fun ⟨hreached, hready⟩ => hreached.eq_drainAll hready, ?_⟩,
    fun s e rest hreached he => hreached.pending_pos he, exists_topologicalOrder_iff,
    fun order h => ⟨?_, topologicalOrder_perm h, fun e he => idxOf_lt_of_topologicalOrder h he⟩⟩
  · rintro rfl
    exact ⟨Drain.reached_drainAll g, Drain.ready_drainAll g⟩
  · exact (topologicalOrder_eq_ok_iff.1 h).2.2.symm

/-- The square takes its input by two parallel edges, and the first of them is released while both
are counted. With an edge back to that input there is no order: from the result of the square, which
closes a cycle, or from a node that does not exist. -/
theorem order_of_negAndSquare :
    (Drain.Reached sampleNegAndSquare ⟨[0, 0, 2, 1, 1], [1], [0]⟩
        [⟨0, 0, 2, 0, false⟩, ⟨0, 0, 2, 1, false⟩] ∧
      ∃ count, [0, 0, 2, 1, 1][2]? = some (count + 1)) ∧
    ((sampleNegAndSquare.Closed ∧ sampleNegAndSquare.Acyclic) ∧
      ∀ e ∈ sampleNegAndSquare.edges, [0, 1, 2, 3, 4].idxOf e.src < [0, 1, 2, 3, 4].idxOf e.dst) ∧
    ∀ src ∈ [4, 7], ¬ ((sampleNegAndSquare.addControlEdge src 0).Closed ∧
      (sampleNegAndSquare.addControlEdge src 0).Acyclic) := by
  have htaken : Drain.Reached sampleNegAndSquare ⟨[0, 1, 2, 1, 1], [], [0]⟩
      [⟨0, 0, 1, 0, false⟩, ⟨0, 0, 2, 0, false⟩, ⟨0, 0, 2, 1, false⟩] := by
    have hready : sampleNegAndSquare.drainStart.ready = [0] := by decide
    exact Drain.Reached.start.drain hready
  have hreached := htaken.release
  have horder : sampleNegAndSquare.topologicalOrder = .ok [0, 1, 2, 3, 4] := by decide
  have hnone : ∀ src ∈ [4, 7],
      (sampleNegAndSquare.addControlEdge src 0).topologicalOrder = .error .cycle := by decide
  obtain ⟨-, hpos, hiff, hforward⟩ := topologicalOrder_exact sampleNegAndSquare
  refine ⟨⟨hreached, hpos _ _ _ hreached (by decide)⟩,
    ⟨hiff.1 ⟨_, horder⟩, (hforward _ horder).2.2⟩, fun src hsrc h => ?_⟩
  obtain ⟨order, hok⟩ := (topologicalOrder_exact _).2.2.1.2 h
  rw [hnone src hsrc] at hok
  cases hok

end TensorJit.Graph
