import Mathlib.Data.List.Nodup
import Mathlib.Data.List.Perm.Subperm
import TensorJit.Graph.Order

/-!
# What is drained

In every state of the draining, a position is held back by the edges into it that leave nodes which
have not been drained yet (`Drain.Balanced`). While the edges of a node are being released, those
still to come are held back as well. Since a position becomes ready only when the last edge that held
it back is released, **no node is drained twice**; so an order that has as many positions as there are
nodes has all of them (`topologicalOrder_perm`).
-/

namespace TensorJit.Graph

/-- The number of edges into a position that leave nodes which have not been drained. -/
def held (g : Graph) (drained : List Nat) (v : Nat) : Nat :=
  g.edges.countP fun e => e.dst = v ∧ e.src ∉ drained

/-- Of the edges that hold a position back, those that leave a node are released with it. -/
theorem held_append (g : Graph) {drained : List Nat} {id : Nat} (hid : id ∉ drained) (v : Nat) :
    g.held drained v = g.held (drained ++ [id]) v + (g.outEdges id).countP (·.dst = v) := by
  unfold held outEdges
  rw [List.countP_filter]
  induction g.edges with
  | nil => rfl
  | cons e rest ih =>
    rw [List.countP_cons, List.countP_cons, List.countP_cons, ih]
    by_cases hdst : e.dst = v
    · by_cases hsrc : e.src = id
      · simp [hdst, hsrc, hid]
        omega
      · simp [hdst, hsrc]
        omega
    · simp [hdst]

namespace Drain

variable {g : Graph} {s : Drain} {rest : List Edge}

/-- A state of the draining, while some edges of the last node are still to be released. -/
structure Balanced (g : Graph) (s : Drain) (rest : List Edge) : Prop where
  /-- There is a count for every position. -/
  length : s.pending.length = g.nodes.length
  /-- It is that of the edges that hold the position back. -/
  pending : ∀ v, v < g.nodes.length →
    s.pending[v]? = some (g.held s.drained v + rest.countP (·.dst = v))
  /-- No position is ready or drained twice. -/
  nodup : (s.drained ++ s.ready).Nodup
  /-- A position is ready or drained if nothing holds it back. -/
  mem : ∀ v, v ∈ s.drained ++ s.ready ↔ s.pending[v]? = some 0

theorem Balanced.lt (h : s.Balanced g rest) {v : Nat} (hv : v ∈ s.drained ++ s.ready) :
    v < g.nodes.length := by
  have hpending := (h.mem v).1 hv
  rw [← h.length]
  exact (List.getElem?_eq_some_iff.1 hpending).1

theorem balanced_start (g : Graph) : g.drainStart.Balanced g [] where
  length := by simp [drainStart, inDegrees]
  pending v hv := by simp [drainStart, inDegrees, held, hv]
  nodup := List.nodup_range.filter _
  mem v := by
    change v ∈ [] ++ List.filter _ (List.range g.nodes.length) ↔ g.inDegrees[v]? = some 0
    rw [List.nil_append, List.mem_filter, List.mem_range, decide_eq_true_iff, and_iff_right_iff_imp]
    intro hpending
    have hlt := (List.getElem?_eq_some_iff.1 hpending).1
    simpa [inDegrees] using hlt

/-- **One edge is released.** -/
theorem Balanced.release {e : Edge} (h : s.Balanced g (e :: rest)) :
    (s.release e.dst).Balanced g rest := by
  have hget : ∀ v, (s.pending.modify e.dst (· - 1))[v]? =
      if e.dst = v then s.pending[v]?.map (· - 1) else s.pending[v]? := fun v => by
    rw [List.getElem?_modify]
    split <;> simp
  have hpending : ∀ v, v < g.nodes.length → (s.pending.modify e.dst (· - 1))[v]? =
      some (g.held s.drained v + rest.countP (·.dst = v)) := by
    intro v hv
    rw [hget, h.pending v hv, List.countP_cons]
    by_cases hdst : e.dst = v
    · simp [hdst]
    · simp [hdst]
  -- The position was held back by this edge, so it was neither ready nor drained.
  have hnot : e.dst ∉ s.drained ++ s.ready := by
    intro hmem
    have hzero := (h.mem e.dst).1 hmem
    rw [h.pending _ (h.lt hmem), List.countP_cons, if_pos (decide_eq_true rfl)] at hzero
    have := Option.some.inj hzero
    omega
  have hother : ∀ v, v ≠ e.dst → ((s.pending.modify e.dst (· - 1))[v]? = some 0 ↔
      v ∈ s.drained ++ s.ready) := fun v hv => by
    rw [hget, if_neg (Ne.symm hv), h.mem]
  unfold Drain.release
  dsimp only
  split
  · rename_i hzero
    refine ⟨by simp [h.length], hpending, ?_, fun v => ?_⟩
    · rw [← List.append_assoc]
      refine List.nodup_append'.2 ⟨h.nodup, List.nodup_singleton _, fun v hv hdst => hnot ?_⟩
      rwa [← List.mem_singleton.1 hdst]
    · rw [← List.append_assoc, List.mem_append, List.mem_singleton]
      by_cases hv : v = e.dst
      · subst hv
        exact ⟨fun _ => hzero, fun _ => .inr rfl⟩
      · rw [hother v hv]
        exact ⟨fun hmem => hmem.resolve_right hv, .inl⟩
  · rename_i hzero
    refine ⟨by simp [h.length], hpending, h.nodup, fun v => ?_⟩
    by_cases hv : v = e.dst
    · subst hv
      exact ⟨fun hmem => absurd hmem hnot, fun hpos => absurd hpos hzero⟩
    · exact (hother v hv).symm

/-- **The first ready node is taken.** The edges that leave it are still to be released. -/
theorem Balanced.drain {id : Nat} {ready : List Nat} (h : s.Balanced g [])
    (hready : s.ready = id :: ready) :
    Balanced g { s with ready, drained := s.drained ++ [id] } (g.outEdges id) := by
  have hlist : (s.drained ++ [id]) ++ ready = s.drained ++ s.ready := by
    rw [List.append_assoc, List.singleton_append, ← hready]
  refine ⟨h.length, fun v hv => ?_, ?_, fun v => ?_⟩
  · have hid : id ∉ s.drained := fun hmem => by
      have := (List.nodup_append'.1 h.nodup).2.2
      exact this hmem (hready ▸ List.mem_cons_self)
    rw [h.pending v hv, held_append g hid]
    simp
  · rw [hlist]
    exact h.nodup
  · rw [hlist]
    exact h.mem v

/-- **One node is drained.** -/
theorem Balanced.step (h : s.Balanced g []) : (s.step g).Balanced g [] := by
  have hrelease : ∀ (edges : List Edge) (t : Drain), t.Balanced g edges →
      (edges.foldl (fun s e => s.release e.dst) t).Balanced g [] := by
    intro edges
    induction edges with
    | nil => exact fun t ht => ht
    | cons e rest ih => exact fun t ht => ih (t.release e.dst) ht.release
  rw [Drain.step]
  split
  · exact h
  · rename_i hready
    exact hrelease _ _ (h.drain hready)

theorem balanced_drainAll (g : Graph) : g.drainAll.Balanced g [] := by
  unfold drainAll
  suffices ∀ n, (Nat.fold n (fun _ _ s => s.step g) g.drainStart).Balanced g [] from this _
  intro n
  induction n with
  | zero => exact balanced_start g
  | succ n ih =>
    rw [Nat.fold_succ]
    exact ih.step

end Drain

/-- **A topological order is one of all positions.** -/
theorem topologicalOrder_perm {g : Graph} {order : List Nat} (h : g.topologicalOrder = .ok order) :
    order.Perm (List.range g.nodes.length) := by
  have hbalanced := Drain.balanced_drainAll g
  unfold topologicalOrder at h
  split at h
  · cases h
  · dsimp only at h
    split at h
    · rename_i hlength
      obtain rfl := Except.ok.inj h
      refine (List.subperm_of_subset hbalanced.nodup.of_append_left fun v hv => ?_).perm_of_length_le ?_
      · exact List.mem_range.2 (hbalanced.lt (List.mem_append_left _ hv))
      · rw [List.length_range]
        exact Nat.le_of_eq hlength.symm
    · cases h

end TensorJit.Graph
