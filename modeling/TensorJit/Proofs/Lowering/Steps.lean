import TensorJit.Proofs.Function.Run
import TensorJit.Proofs.Lowering

/-!
# Lowering step by step

Lowering a node adds an entry to one of the tables or an instruction to the body, and takes
nothing back. What a node adds is told by its kind (`Lowering.Stepped`), so **what every rule
keeps holds of everything that has been lowered** (`Lowering.lowerNodes_induction`).
-/

namespace TensorJit

namespace Lowering

variable {src : Source} {p q : Progress} {position : Nat}

/-! ### What one node does -/

/-- What an operand is, if there is one: the value of the edge that feeds the slot. -/
theorem operand_eq_ok {node : Node} {slot origin : Nat} {v : Lowered}
    (h : operand src p node slot = .ok (origin, v)) : ∃ e,
      src.graph.feed? node.id slot = some e ∧ e.src = origin ∧
        p.values.lookup (origin, e.srcOutput) = some v := by
  unfold operand at h
  rw [Graph.find?_dataInputs] at h
  split at h
  · cases h
  · rename_i e he
    split at h
    · cases h
    · rename_i w hw
      cases h
      exact ⟨e, he, rfl, hw⟩

/-- What lowering the node at a position does: one rule for each kind of node. -/
inductive Stepped (src : Source) (p : Progress) (position : Nat) : Progress → Prop
  /-- An input is known by a parameter. -/
  | arg {node : Node} {index : Nat} {spec : TensorSpec}
      (hnode : src.graph.node? position = some node) (harg : node.isArg = true)
      (hindex : node.index = .ok index) (hspec : src.inputs[index]? = some spec) :
      Stepped src p position
        { p with values := ((position, 0), ⟨.parameter index, spec⟩) :: p.values }
  /-- An output names the value that it is fed with. -/
  | retval {node : Node} {index origin : Nat} {v : Lowered}
      (hnode : src.graph.node? position = some node) (hretval : node.isRetval = true)
      (hindex : node.index = .ok index) (hv : operand src p node 0 = .ok (origin, v)) :
      Stepped src p position { p with outputs := (index, v) :: p.outputs }
  /-- An operation adds an instruction. -/
  | op {node : Node} {op : OpKind} {refs : List ValueRef} {spec : TensorSpec}
      (hnode : src.graph.node? position = some node) (hop : OpKind.ofTag? node.op = some op)
      (hrefs : lowerOperands src p node op = .ok (refs, spec)) :
      Stepped src p position
        { p with
          body := p.body ++ [⟨op, refs, spec⟩]
          values := ((node.id, 0), ⟨.instruction p.body.length, spec⟩) :: p.values }

/-- **Lowering a node follows the rule of its kind.** -/
theorem stepped_of_lowerNode (h : lowerNode src p position = .ok q) : Stepped src p position q := by
  unfold lowerNode at h
  split at h
  · cases h
  · rename_i node hnode
    split at h
    · rename_i harg
      unfold lowerArg at h
      obtain ⟨index, hindex, h⟩ := except_bind_eq_ok.1 h
      split at h
      · cases h
      · rename_i spec hspec
        cases h
        exact .arg hnode harg (mapError_eq_ok.1 hindex) hspec
    · split at h
      · rename_i hretval
        unfold lowerRetval at h
        obtain ⟨index, hindex, h⟩ := except_bind_eq_ok.1 h
        obtain ⟨⟨origin, v⟩, hv, h⟩ := except_bind_eq_ok.1 h
        cases h
        exact .retval hnode hretval (mapError_eq_ok.1 hindex) hv
      · unfold lowerOp at h
        split at h
        · cases h
        · rename_i op hop
          obtain ⟨⟨refs, spec⟩, hrefs, h⟩ := except_bind_eq_ok.1 h
          cases h
          exact .op hnode hop hrefs

/-- Instructions and outputs stay. -/
theorem Stepped.extends (h : Stepped src p position q) :
    p.body <+: q.body ∧ p.outputs ⊆ q.outputs := by
  cases h with
  | arg => exact ⟨List.prefix_rfl, List.Subset.refl _⟩
  | retval => exact ⟨List.prefix_rfl, List.subset_cons_self _ _⟩
  | op => exact ⟨List.prefix_append _ _, List.Subset.refl _⟩

theorem lowerNodes_extends {order : List Nat} (h : lowerNodes src p order = .ok q) :
    p.body <+: q.body ∧ p.outputs ⊆ q.outputs := by
  induction order generalizing p with
  | nil =>
    cases h
    exact ⟨List.prefix_rfl, List.Subset.refl _⟩
  | cons position rest ih =>
    unfold lowerNodes at h
    obtain ⟨next, hnext, h⟩ := except_bind_eq_ok.1 h
    have hstep := (stepped_of_lowerNode hnext).extends
    exact ⟨hstep.1.trans (ih h).1, List.Subset.trans hstep.2 (ih h).2⟩

/-- **Where lowering stops**: the nodes in front of the one that cannot be lowered have been. -/
theorem lowerNodes_eq_error_iff {order : List Nat} {fault : LoweringFault} :
    lowerNodes src p order = .error fault ↔ ∃ before position after q,
      order = before ++ position :: after ∧ lowerNodes src p before = .ok q ∧
        lowerNode src q position = .error fault := by
  constructor
  · intro h
    induction order generalizing p with
    | nil => cases h
    | cons position rest ih =>
      rw [lowerNodes] at h
      rcases except_bind_eq_error.1 h with h | ⟨next, hnext, h⟩
      · exact ⟨[], position, rest, p, rfl, rfl, h⟩
      · obtain ⟨before, position', after, q, rfl, hq, hfault⟩ := ih h
        refine ⟨position :: before, position', after, q, rfl, ?_, hfault⟩
        rw [lowerNodes]
        exact except_bind_eq_ok.2 ⟨next, hnext, hq⟩
  · rintro ⟨before, position, after, q, rfl, hq, hfault⟩
    induction before generalizing p with
    | nil =>
      obtain rfl := Except.ok.inj hq
      exact except_bind_eq_error.2 (.inl hfault)
    | cons first rest ih =>
      rw [lowerNodes] at hq
      obtain ⟨next, hnext, hq⟩ := except_bind_eq_ok.1 hq
      exact except_bind_eq_error.2 (.inr ⟨next, hnext, ih hq⟩)

/-- What holds before some nodes are lowered, and is kept by every one of them, holds
afterwards. In every step the instructions so far are the beginning of those at the end. -/
theorem lowerNodes_induction {P : Progress → Prop} {order : List Nat}
    (hstep : ∀ {p r : Progress} {position : Nat}, P p → Stepped src p position r →
      r.body <+: q.body → P r)
    (hp : P p) (h : lowerNodes src p order = .ok q) : P q := by
  induction order generalizing p with
  | nil =>
    cases h
    exact hp
  | cons position rest ih =>
    unfold lowerNodes at h
    obtain ⟨next, hnext, h⟩ := except_bind_eq_ok.1 h
    exact ih (hstep hp (stepped_of_lowerNode hnext) (lowerNodes_extends h).1) h

/-- **Every output is among those that are named**, with its index. -/
theorem lowerNodes_outputs {order : List Nat} (h : lowerNodes src p order = .ok q)
    (hposition : position ∈ order) {node : Node} (hnode : src.graph.node? position = some node)
    (hretval : node.isRetval = true) : ∃ index v, node.index = .ok index ∧ (index, v) ∈ q.outputs := by
  induction order generalizing p with
  | nil => cases hposition
  | cons first rest ih =>
    unfold lowerNodes at h
    obtain ⟨next, hnext, h⟩ := except_bind_eq_ok.1 h
    rcases List.mem_cons.1 hposition with rfl | hrest
    · cases stepped_of_lowerNode hnext with
      | arg hnode' harg =>
        obtain rfl := Option.some.inj (hnode.symm.trans hnode')
        rw [Node.isArg_eq_false_of_isRetval hretval] at harg
        cases harg
      | @retval _ index _ v hnode' _ hindex =>
        obtain rfl := Option.some.inj (hnode.symm.trans hnode')
        exact ⟨index, v, hindex, (lowerNodes_extends h).2 List.mem_cons_self⟩
      | op hnode' hop =>
        obtain rfl := Option.some.inj (hnode.symm.trans hnode')
        rw [(OpKind.isOp_of_ofTag?_eq_some hop).2] at hretval
        cases hretval
    · exact ih h hrest

/-! ### What is collected -/

/-- What is returned is named by an output, for every index below their number. -/
theorem collectOutputs_eq_ok {outputs : List Lowered} (h : collectOutputs p = .ok outputs) :
    outputs.length = outputCount p ∧
      ∀ (index : Nat) (v : Lowered), outputs[index]? = some v → (index, v) ∈ p.outputs := by
  have hall := except_mapM_eq_ok.1 h
  have hlength := hall.length_eq
  rw [List.length_range] at hlength
  refine ⟨hlength.symm, fun index v hv => ?_⟩
  obtain ⟨hlt, rfl⟩ := List.getElem?_eq_some_iff.1 hv
  have hget := hall.get (by rwa [List.length_range, hlength]) hlt
  simp only [List.get_eq_getElem, List.getElem_range] at hget
  split at hget
  · rename_i w hw
    rw [← Except.ok.inj hget]
    exact mem_of_lookup_eq_some hw
  · cases hget

end Lowering

end TensorJit
