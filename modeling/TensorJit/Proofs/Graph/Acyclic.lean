import Mathlib.Logic.Relation
import TensorJit.Proofs.Graph.Order

/-!
# When there is a topological order

A node is drained when nothing holds it back, that is when every edge into it leaves a node that has
been drained before (`Graph.Ordered`). So an order rules out cycles: along a path the places in the
order rise.

Conversely the draining stops only when nothing is ready. Then every node that is left over is held
back by an edge, and in a graph without edges that leave nowhere this edge comes from another node
that is left over. Among finitely many nodes of a graph without cycles there would be a first one.

Hence **there is a topological order exactly if every edge joins two nodes and no path along edges,
data or control, is a cycle** (`Graph.exists_topologicalOrder_iff`).
-/

namespace TensorJit.Graph

variable {g : Graph}

/-- An edge, data or control, leads from one position to another. -/
def Precedes (g : Graph) (u v : Nat) : Prop := ∃ e ∈ g.edges, e.src = u ∧ e.dst = v

/-- Every edge joins two nodes. -/
def Closed (g : Graph) : Prop :=
  ∀ e ∈ g.edges, e.src < g.nodes.length ∧ e.dst < g.nodes.length

/-- No path along edges leads from a node back to it. -/
def Acyclic (g : Graph) : Prop := ∀ v, ¬ Relation.TransGen g.Precedes v v

/-- Every edge into a position of a list leaves an earlier position of it. -/
def Ordered (g : Graph) (order : List Nat) : Prop :=
  ∀ (before : List Nat) (v : Nat) (after : List Nat), order = before ++ v :: after →
    ∀ e ∈ g.edges, e.dst = v → e.src ∈ before

/-! ### Lists in which edges lead forwards -/

theorem ordered_nil (g : Graph) : g.Ordered [] := by
  intro before v after h
  exact absurd h.symm (List.append_ne_nil_of_right_ne_nil before (List.cons_ne_nil v after))

theorem Ordered.concat {order : List Nat} {v : Nat} (h : g.Ordered order)
    (hv : ∀ e ∈ g.edges, e.dst = v → e.src ∈ order) : g.Ordered (order ++ [v]) := by
  intro before w after hsplit
  rcases List.eq_nil_or_concat after with rfl | ⟨after, last, rfl⟩
  · obtain ⟨rfl, hlast⟩ := List.append_inj' hsplit rfl
    obtain rfl := (List.cons.inj hlast).1
    exact hv
  · rw [List.concat_eq_append, ← List.cons_append, ← List.append_assoc] at hsplit
    exact h before w after (List.append_inj' hsplit rfl).1

/-- **Along a path the places in an order rise.** -/
theorem Ordered.idxOf_lt {order : List Nat} (h : g.Ordered order) (hnodup : order.Nodup)
    (hmem : ∀ e ∈ g.edges, e.dst ∈ order) {u v : Nat} (hpath : Relation.TransGen g.Precedes u v) :
    order.idxOf u < order.idxOf v := by
  have hedge : ∀ u v, g.Precedes u v → order.idxOf u < order.idxOf v := by
    rintro u v ⟨e, he, rfl, rfl⟩
    -- The source is in front of the destination, which does not occur there again.
    obtain ⟨before, after, hsplit⟩ := List.append_of_mem (hmem e he)
    have hsrc := h before e.dst after hsplit e he rfl
    have hnot : e.dst ∉ before := by
      rw [hsplit] at hnodup
      exact fun hdst => (List.nodup_append'.1 hnodup).2.2 hdst List.mem_cons_self
    rw [hsplit, List.idxOf_append_of_mem hsrc, List.idxOf_append_of_notMem hnot]
    exact Nat.lt_of_lt_of_le (List.idxOf_lt_length_iff.2 hsrc) (Nat.le_add_right _ _)
  induction hpath with
  | single huv => exact hedge _ _ huv
  | tail _ hvw ih => exact Nat.lt_trans ih (hedge _ _ hvw)

/-! ### The steps of the draining -/

/-- Nothing holds a position back if every edge into it leaves a drained node. -/
theorem held_eq_zero_iff {drained : List Nat} {v : Nat} :
    g.held drained v = 0 ↔ ∀ e ∈ g.edges, e.dst = v → e.src ∈ drained := by
  simp only [held, List.countP_eq_zero, decide_eq_true_eq, not_and, not_not]

namespace Drain

variable {s : Drain}

theorem drained_release (s : Drain) (dst : Nat) : (s.release dst).drained = s.drained := by
  rw [release]
  split
  · rfl
  · rfl

theorem step_of_ready_eq_nil (h : s.ready = []) : s.step g = s := by
  rw [step, h]

theorem drained_step {id : Nat} {ready : List Nat} (h : s.ready = id :: ready) :
    (s.step g).drained = s.drained ++ [id] := by
  have hrelease : ∀ (edges : List Edge) (t : Drain),
      (edges.foldl (fun s e => s.release e.dst) t).drained = t.drained := by
    intro edges
    induction edges with
    | nil => exact fun t => rfl
    | cons e rest ih => exact fun t => (ih (t.release e.dst)).trans (drained_release t e.dst)
  rw [step, h]
  exact hrelease _ _

/-- The draining after some steps. -/
structure Advanced (g : Graph) (steps : Nat) (s : Drain) : Prop where
  /-- The counts are those of the edges that hold positions back. -/
  balanced : s.Balanced g []
  /-- Edges lead forwards in what has been drained. -/
  ordered : g.Ordered s.drained
  /-- Every step has drained a node, unless nothing is ready any more. -/
  count : s.ready = [] ∨ s.drained.length = steps

/-- **One step** drains a node that nothing holds back. -/
theorem Advanced.step {steps : Nat} (h : s.Advanced g steps) : (s.step g).Advanced g (steps + 1) := by
  cases hready : s.ready with
  | nil =>
    rw [step_of_ready_eq_nil hready]
    exact ⟨h.balanced, h.ordered, .inl hready⟩
  | cons id ready =>
    refine ⟨h.balanced.step, ?_, .inr ?_⟩
    · -- It is ready, so no edge into it leaves a node that is still to be drained.
      have hmem : id ∈ s.drained ++ s.ready :=
        List.mem_append_right _ (hready ▸ List.mem_cons_self)
      have hpending := h.balanced.pending id (h.balanced.lt hmem)
      rw [(h.balanced.mem id).1 hmem, List.countP_nil, Nat.add_zero] at hpending
      rw [drained_step hready]
      exact h.ordered.concat (held_eq_zero_iff.1 (Option.some.inj hpending).symm)
    · have hcount := h.count.resolve_left fun hnil => by
        rw [hready] at hnil
        cases hnil
      rw [drained_step hready, List.length_append, hcount]
      rfl

theorem advanced_drainAll (g : Graph) : g.drainAll.Advanced g g.nodes.length := by
  rw [drainAll]
  generalize g.nodes.length = steps
  induction steps with
  | zero => exact ⟨balanced_start g, ordered_nil g, .inr rfl⟩
  | succ steps ih =>
    rw [Nat.fold_succ]
    exact ih.step

end Drain

/-! ### What is left over -/

/-- Among some nodes of a graph without cycles there is a first one: no path leads to it from any of
them. -/
theorem Acyclic.exists_first (h : g.Acyclic) {nodes : List Nat} (hne : nodes ≠ []) :
    ∃ v ∈ nodes, ∀ u ∈ nodes, ¬ Relation.TransGen g.Precedes u v := by
  induction nodes with
  | nil => exact absurd rfl hne
  | cons w rest ih =>
    by_cases hrest : rest = []
    · subst hrest
      refine ⟨w, List.mem_cons_self, fun u hu => ?_⟩
      obtain rfl := List.mem_singleton.1 hu
      exact h u
    · obtain ⟨v, hv, hfirst⟩ := ih hrest
      -- The new node is the first one if a path leads from it to the first of the others.
      by_cases hwv : Relation.TransGen g.Precedes w v
      · refine ⟨w, List.mem_cons_self, fun u hu hpath => ?_⟩
        rcases List.mem_cons.1 hu with rfl | hu
        · exact h u hpath
        · exact hfirst u hu (hpath.trans hwv)
      · refine ⟨v, List.mem_cons_of_mem _ hv, fun u hu hpath => ?_⟩
        rcases List.mem_cons.1 hu with rfl | hu
        · exact hwv hpath
        · exact hfirst u hu hpath

/-- **In a graph without cycles and loose ends everything is drained.** -/
theorem Drain.Advanced.mem_drained {steps : Nat} {s : Drain} (h : s.Advanced g steps)
    (hclosed : g.Closed) (hacyclic : g.Acyclic) (hready : s.ready = []) {v : Nat}
    (hv : v < g.nodes.length) : v ∈ s.drained := by
  by_contra hnot
  have hleft : ∀ u, u ∈ (List.range g.nodes.length).filter (· ∉ s.drained) ↔
      u < g.nodes.length ∧ u ∉ s.drained := by
    intro u
    rw [List.mem_filter, List.mem_range, decide_eq_true_eq]
  obtain ⟨first, hmem, hfirst⟩ :=
    hacyclic.exists_first (List.ne_nil_of_mem ((hleft v).2 ⟨hv, hnot⟩))
  obtain ⟨hlt, hnotDrained⟩ := (hleft first).1 hmem
  -- All that precedes it has been drained, so nothing holds it back.
  have hheld : g.held s.drained first = 0 := by
    refine held_eq_zero_iff.2 fun e he hdst => ?_
    by_contra hsrc
    exact hfirst e.src ((hleft e.src).2 ⟨(hclosed e he).1, hsrc⟩) (.single ⟨e, he, rfl, hdst⟩)
  have hpending := h.balanced.pending first hlt
  rw [hheld, List.countP_nil] at hpending
  have hready' := (h.balanced.mem first).2 hpending
  rw [hready, List.append_nil] at hready'
  exact hnotDrained hready'

/-! ### Topological orders -/

/-- There is an order if no edge enters nowhere and everything is drained. -/
theorem topologicalOrder_eq_ok_iff {order : List Nat} : g.topologicalOrder = .ok order ↔
    (∀ e ∈ g.edges, e.dst < g.nodes.length) ∧ g.drainAll.drained.length = g.nodes.length ∧
      g.drainAll.drained = order := by
  rw [topologicalOrder]
  cases hfind : g.edges.find? fun e => g.nodes.length ≤ e.dst with
  | some e =>
    refine ⟨nofun, fun h => ?_⟩
    have hlt := h.1 e (List.mem_of_find?_eq_some hfind)
    have hle : g.nodes.length ≤ e.dst := by simpa using List.find?_some hfind
    omega
  | none =>
    have hdst : ∀ e ∈ g.edges, e.dst < g.nodes.length := by
      intro e he
      simpa using List.find?_eq_none.1 hfind e he
    dsimp only
    split
    · rename_i hlength
      exact ⟨fun h => ⟨hdst, hlength, Except.ok.inj h⟩, fun h => congrArg Except.ok h.2.2⟩
    · rename_i hlength
      exact ⟨nofun, fun h => absurd h.2.1 hlength⟩

/-- **In a topological order edges lead forwards.** -/
theorem ordered_of_topologicalOrder {order : List Nat} (h : g.topologicalOrder = .ok order) :
    g.Ordered order := by
  obtain ⟨-, -, rfl⟩ := topologicalOrder_eq_ok_iff.1 h
  exact (Drain.advanced_drainAll g).ordered

/-- **When there is a topological order.** -/
theorem exists_topologicalOrder_iff :
    (∃ order, g.topologicalOrder = .ok order) ↔ g.Closed ∧ g.Acyclic := by
  have hadvanced := Drain.advanced_drainAll g
  constructor
  · rintro ⟨order, horder⟩
    have hordered := ordered_of_topologicalOrder horder
    have hperm := topologicalOrder_perm horder
    have hmem : ∀ v, v ∈ order ↔ v < g.nodes.length := fun v =>
      hperm.mem_iff.trans List.mem_range
    have hdst := (topologicalOrder_eq_ok_iff.1 horder).1
    refine ⟨fun e he => ⟨?_, hdst e he⟩, fun v hcycle => ?_⟩
    · obtain ⟨before, after, hsplit⟩ := List.append_of_mem ((hmem e.dst).2 (hdst e he))
      have hsrc := hordered before e.dst after hsplit e he rfl
      exact (hmem e.src).1 (hsplit ▸ List.mem_append_left _ hsrc)
    · have hnodup : order.Nodup := hperm.nodup_iff.2 List.nodup_range
      exact Nat.lt_irrefl _
        (hordered.idxOf_lt hnodup (fun e he => (hmem e.dst).2 (hdst e he)) hcycle)
  · rintro ⟨hclosed, hacyclic⟩
    refine ⟨_, topologicalOrder_eq_ok_iff.2 ⟨fun e he => (hclosed e he).2, ?_, rfl⟩⟩
    rcases hadvanced.count with hready | hcount
    · -- The draining has stopped early, if at all, because nothing was left over.
      have hsubset : List.range g.nodes.length ⊆ g.drainAll.drained := fun v hv =>
        hadvanced.mem_drained hclosed hacyclic hready (List.mem_range.1 hv)
      have hsubset' : g.drainAll.drained ⊆ List.range g.nodes.length := fun v hv =>
        List.mem_range.2 (hadvanced.balanced.lt (List.mem_append_left _ hv))
      have hnodup := hadvanced.balanced.nodup.of_append_left
      have hperm := (List.perm_ext_iff_of_nodup hnodup List.nodup_range).2 fun v =>
        ⟨fun hv => hsubset' hv, fun hv => hsubset hv⟩
      rw [hperm.length_eq, List.length_range]
    · exact hcount

end TensorJit.Graph
