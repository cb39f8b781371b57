import TensorJit.Graph.Samples
import TensorJit.Proofs.Graph.Acyclic
import TensorJit.Proofs.Lowering.Fed
import TensorJit.Proofs.Lowering.Spec

/-!
# Which graphs are lowered

Lowering stops at the first thing that is wrong, and what it looks at is spread over the order of
the nodes, the table of values, the operations and the collection of outputs. **All that can be wrong
can be said of the graph, the inputs and the static tensors alone**
(`Lowering.Source.Lowerable`), and a graph is lowered exactly if nothing of it is
(`lower_iff_lowerable`).

| condition | what would stop lowering |
|---|---|
| edges join nodes, and there is no cycle | the topological order |
| inputs and outputs have indices, those of outputs without gaps | a node of the boundary, the collection |
| operations are known | the node |
| the slots that are needed are fed by first outputs of inputs and operations | an operand |
| two operands have one spec, targets can be resolved | an operation |

From left to right, each node has been lowered at some point, and what it found in the table is what
the graph says. From right to left, the order puts the sources of a node before it; so when its turn
comes, the values that it needs are in the table (`Lowering.Progress.Complete`).
-/

namespace TensorJit

/-- The slots in which a node needs an operand: the first one, unless it is an input, and for
operations of two operands and reshapes also the second. -/
def Node.Needs (n : Node) (slot : Nat) : Prop :=
  slot = 0 ∧ (n.isRetval = true ∨ ∃ op, OpKind.ofTag? n.op = some op) ∨
  slot = 1 ∧ ∃ op, OpKind.ofTag? n.op = some op ∧ (op.arity = 2 ∨ op = .reshape)

namespace Lowering

/-- What has to be right for a graph to be lowered. -/
structure Source.Lowerable (src : Source) : Prop where
  /-- Every edge, data or control, joins two nodes. -/
  closed : src.graph.Closed
  /-- No path along edges, data or control, is a cycle. -/
  acyclic : src.graph.Acyclic
  /-- Every input has an index, and a spec is given for it. -/
  inputs : ∀ node ∈ src.graph.nodes, node.isArg = true →
    ∃ index, node.index = .ok index ∧ index < src.inputs.length
  /-- Every output has an index, and there are outputs for all indices before it. -/
  outputs : ∀ node ∈ src.graph.nodes, node.isRetval = true → ∃ index, node.index = .ok index ∧
    ∀ i < index, ∃ other ∈ src.graph.nodes, other.isRetval = true ∧ other.index = .ok i
  /-- Every other node is a known operation. -/
  operations : ∀ node ∈ src.graph.nodes, node.isOp = true → ∃ op, OpKind.ofTag? node.op = some op
  /-- A slot that is needed is fed, and by the first output of an input or an operation. -/
  slots : ∀ (position : Nat) (node : Node) (slot : Nat), src.graph.node? position = some node →
    node.Needs slot → ∃ e source, src.graph.feed? position slot = some e ∧ e.srcOutput = 0 ∧
      src.graph.node? e.src = some source ∧ source.isRetval = false
  /-- What feeds an operation of two operands has one spec. -/
  operands : ∀ (position : Nat) (node : Node) (op : OpKind) (e e' : Edge),
    src.graph.node? position = some node → OpKind.ofTag? node.op = some op → op.arity = 2 →
    src.graph.feed? position 0 = some e → src.graph.feed? position 1 = some e' →
    ∃ spec, HasSpec src e.src spec ∧ HasSpec src e'.src spec
  /-- Every reshape has a target. -/
  targets : ∀ (position : Nat) (node : Node) (e : Edge), src.graph.node? position = some node →
    OpKind.ofTag? node.op = some .reshape → src.graph.feed? position 0 = some e →
    ∃ spec target, HasSpec src e.src spec ∧ ReadsTarget src position spec.elements target

variable {src : Source} {p q : Progress} {position : Nat} {node : Node}

/-! ### What has been lowered was lowerable -/

namespace Operands

variable {op : OpKind} {refs : List ValueRef} {spec : TensorSpec}

/-- The operand in the first slot. -/
theorem first (h : Operands src p node op refs spec) :
    ∃ origin v, operand src p node 0 = .ok (origin, v) := by
  cases h with
  | pair _ hfirst | same _ hfirst | reshape hfirst => exact ⟨_, _, hfirst⟩

/-- The operand in the second slot, where there is one. -/
theorem second (h : Operands src p node op refs spec) (hop : op.arity = 2 ∨ op = .reshape) :
    ∃ origin v, operand src p node 1 = .ok (origin, v) := by
  cases h with
  | pair _ _ hsecond => exact ⟨_, _, hsecond⟩
  | same hunary => rcases hunary with rfl | rfl <;> rcases hop with hop | hop <;> cases hop
  | reshape _ htarget =>
    obtain ⟨origin, v, -, -, -, -, hv, -⟩ := reshapeTarget_eq_ok_iff.1 htarget
    exact ⟨origin, v, hv⟩

end Operands

namespace Stepped

/-- An input that has been lowered. -/
theorem of_isArg (h : Stepped src p position q) (hnode : src.graph.node? position = some node)
    (harg : node.isArg = true) : ∃ index, node.index = .ok index ∧ index < src.inputs.length := by
  cases h with
  | arg hnode' _ hindex hspec =>
    obtain rfl := Option.some.inj (hnode.symm.trans hnode')
    exact ⟨_, hindex, (List.getElem?_eq_some_iff.1 hspec).1⟩
  | retval hnode' hretval =>
    obtain rfl := Option.some.inj (hnode.symm.trans hnode')
    exact absurd harg (Bool.eq_false_iff.1 (Node.isArg_eq_false_of_isRetval hretval))
  | op hnode' hop =>
    obtain rfl := Option.some.inj (hnode.symm.trans hnode')
    exact absurd harg (Bool.eq_false_iff.1 (OpKind.isOp_of_ofTag?_eq_some hop).1)

/-- An output that has been lowered. -/
theorem of_isRetval (h : Stepped src p position q) (hnode : src.graph.node? position = some node)
    (hretval : node.isRetval = true) : ∃ index origin v, node.index = .ok index ∧
      operand src p node 0 = .ok (origin, v) := by
  cases h with
  | arg hnode' harg =>
    obtain rfl := Option.some.inj (hnode.symm.trans hnode')
    exact absurd harg (Bool.eq_false_iff.1 (Node.isArg_eq_false_of_isRetval hretval))
  | retval hnode' _ hindex hv =>
    obtain rfl := Option.some.inj (hnode.symm.trans hnode')
    exact ⟨_, _, _, hindex, hv⟩
  | op hnode' hop =>
    obtain rfl := Option.some.inj (hnode.symm.trans hnode')
    exact absurd hretval (Bool.eq_false_iff.1 (OpKind.isOp_of_ofTag?_eq_some hop).2)

/-- An operation that has been lowered. -/
theorem of_isOp (h : Stepped src p position q) (hnode : src.graph.node? position = some node)
    (hisOp : node.isOp = true) : ∃ op refs spec, OpKind.ofTag? node.op = some op ∧
      Operands src p node op refs spec := by
  rw [Node.isOp, Bool.and_eq_true, Bool.not_eq_true', Bool.not_eq_true'] at hisOp
  cases h with
  | arg hnode' harg =>
    obtain rfl := Option.some.inj (hnode.symm.trans hnode')
    exact absurd harg (Bool.eq_false_iff.1 hisOp.1)
  | retval hnode' hretval =>
    obtain rfl := Option.some.inj (hnode.symm.trans hnode')
    exact absurd hretval (Bool.eq_false_iff.1 hisOp.2)
  | op hnode' hop hrefs =>
    obtain rfl := Option.some.inj (hnode.symm.trans hnode')
    exact ⟨_, _, _, hop, lowerOperands_eq_ok_iff.1 hrefs⟩

/-- An operation that has been lowered takes operands by the rule for it. -/
theorem of_ofTag? (h : Stepped src p position q) (hnode : src.graph.node? position = some node)
    {op : OpKind} (hop : OpKind.ofTag? node.op = some op) :
    ∃ refs spec, Operands src p node op refs spec := by
  obtain ⟨hnotArg, hnotRetval⟩ := OpKind.isOp_of_ofTag?_eq_some hop
  obtain ⟨op', refs, spec, hop', hrefs⟩ :=
    h.of_isOp hnode (by rw [Node.isOp, hnotArg, hnotRetval]; rfl)
  obtain rfl := Option.some.inj (hop.symm.trans hop')
  exact ⟨refs, spec, hrefs⟩

/-- **A node that has been lowered found the operands that it needs.** -/
theorem operand_of_needs (h : Stepped src p position q)
    (hnode : src.graph.node? position = some node) {slot : Nat} (hneeds : node.Needs slot) :
    ∃ origin v, operand src p node slot = .ok (origin, v) := by
  rcases hneeds with ⟨rfl, hretval | ⟨op, hop⟩⟩ | ⟨rfl, op, hop, hsecond⟩
  · obtain ⟨-, origin, v, -, hv⟩ := h.of_isRetval hnode hretval
    exact ⟨origin, v, hv⟩
  · obtain ⟨refs, spec, hrefs⟩ := h.of_ofTag? hnode hop
    exact hrefs.first
  · obtain ⟨refs, spec, hrefs⟩ := h.of_ofTag? hnode hop
    exact hrefs.second hsecond

end Stepped

/-- Every node has been lowered at some point. -/
theorem exists_stepped {order : List Nat} (hg : src.graph.Numbered) (hp : p.Specified src)
    (h : lowerNodes src p order = .ok q) (hposition : position ∈ order) :
    ∃ r s, r.Specified src ∧ Stepped src r position s := by
  induction order generalizing p with
  | nil => cases hposition
  | cons first rest ih =>
    rw [lowerNodes] at h
    obtain ⟨next, hnext, h⟩ := except_bind_eq_ok.1 h
    have hstep := stepped_of_lowerNode hnext
    rcases List.mem_cons.1 hposition with rfl | hrest
    · exact ⟨p, next, hp, hstep⟩
    · exact ih (hp.step hg hstep) h hrest

theorem lowerNodes_specified {order : List Nat} (hg : src.graph.Numbered) (hp : p.Specified src)
    (h : lowerNodes src p order = .ok q) : q.Specified src :=
  lowerNodes_induction (P := Progress.Specified src) (fun hp hstep _ => hp.step hg hstep) hp h

/-- **Graphs that have been lowered are lowerable.** -/
theorem lowerable_of_lower {f : Function} (hg : src.graph.Numbered)
    (h : src.graph.lower src.inputs src.statics = .ok f) : src.Lowerable := by
  obtain ⟨order, p, outputs, horder, hp, houtputs, -⟩ := lower_eq_ok h
  have hspecified := lowerNodes_specified hg (Progress.specified_start src) hp
  obtain ⟨hclosed, hacyclic⟩ := Graph.exists_topologicalOrder_iff.1 ⟨order, horder⟩
  have hin : ∀ {position : Nat} {node : Node}, src.graph.node? position = some node →
      position ∈ order := fun hnode => (Graph.topologicalOrder_perm horder).mem_iff.2
        (List.mem_range.2 (List.getElem?_eq_some_iff.1 hnode).1)
  have hstepped : ∀ {position : Nat} {node : Node}, src.graph.node? position = some node →
      ∃ r s, r.Specified src ∧ Stepped src r position s := fun hnode =>
    exists_stepped hg (Progress.specified_start src) hp (hin hnode)
  refine ⟨hclosed, hacyclic, ?inputs, ?outputs, ?operations, ?slots, ?operands, ?targets⟩
  case inputs =>
    intro node hmem harg
    obtain ⟨position, hnode⟩ := List.getElem?_of_mem hmem
    obtain ⟨r, s, -, hstep⟩ := hstepped hnode
    exact hstep.of_isArg hnode harg
  case outputs =>
    intro node hmem hretval
    obtain ⟨position, hnode⟩ := List.getElem?_of_mem hmem
    obtain ⟨index, v, hindex, hnamed⟩ := lowerNodes_outputs hp (hin hnode) hnode hretval
    refine ⟨index, hindex, fun i hi => ?_⟩
    -- All indices up to the greatest one are among those that are collected.
    obtain ⟨hcount, hcollected⟩ := collectOutputs_eq_ok houtputs
    have hlt : i < outputs.length := by
      have := lt_outputCount hnamed
      omega
    exact hspecified.outputs _ (hcollected i _ (List.getElem?_eq_getElem hlt))
  case operations =>
    intro node hmem hisOp
    obtain ⟨position, hnode⟩ := List.getElem?_of_mem hmem
    obtain ⟨r, s, -, hstep⟩ := hstepped hnode
    obtain ⟨op, -, -, hop, -⟩ := hstep.of_isOp hnode hisOp
    exact ⟨op, hop⟩
  case slots =>
    intro position node slot hnode hneeds
    obtain ⟨r, s, hr, hstep⟩ := hstepped hnode
    obtain ⟨origin, v, hv⟩ := hstep.operand_of_needs hnode hneeds
    obtain ⟨e, hfeed, rfl, houtput, hspec⟩ := hr.operand hv
    obtain ⟨source, hsource, hnotRetval⟩ := hspec.source
    exact ⟨e, source, hg _ _ hnode ▸ hfeed, houtput, hsource, hnotRetval⟩
  case operands =>
    intro position node op e e' hnode hop harity he he'
    obtain ⟨r, s, hr, hstep⟩ := hstepped hnode
    obtain ⟨refs, spec, hrefs⟩ := hstep.of_ofTag? hnode hop
    obtain rfl := hg _ _ hnode
    cases hrefs with
    | @pair _ _ _ first second _ hfirst hsecond hspec =>
      obtain ⟨d, hd, rfl, -, hfirst⟩ := hr.operand hfirst
      obtain ⟨d', hd', rfl, -, hsecond⟩ := hr.operand hsecond
      obtain rfl := Option.some.inj (he.symm.trans hd)
      obtain rfl := Option.some.inj (he'.symm.trans hd')
      exact ⟨first.spec, hfirst, hspec ▸ hsecond⟩
    | same hunary => rcases hunary with rfl | rfl <;> cases harity
    | reshape => cases harity
  case targets =>
    intro position node e hnode hop he
    obtain ⟨r, s, hr, hstep⟩ := hstepped hnode
    obtain ⟨refs, spec, hrefs⟩ := hstep.of_ofTag? hnode hop
    obtain rfl := hg _ _ hnode
    cases hrefs with
    | pair harity => cases harity
    | same hunary => rcases hunary with h | h <;> cases h
    | @reshape _ first target hfirst htarget =>
      obtain ⟨d, hd, rfl, -, hfirst⟩ := hr.operand hfirst
      obtain rfl := Option.some.inj (he.symm.trans hd)
      exact ⟨first.spec, target, hfirst, hr.readsTarget htarget⟩

/-! ### What is lowerable can be lowered -/

/-- A value in the table stays there, perhaps behind another one. -/
theorem exists_lookup_cons {κ υ : Type} [BEq κ] {k k' : κ} {v : υ} {values : List (κ × υ)}
    (h : ∃ l, values.lookup k = some l) : ∃ l, ((k', v) :: values).lookup k = some l := by
  rw [List.lookup_cons]
  cases k == k' with
  | true => exact ⟨v, rfl⟩
  | false => exact h

theorem exists_lookup_of_mem {κ υ : Type} [BEq κ] [LawfulBEq κ] {l : List (κ × υ)} {k : κ} {v : υ}
    (h : (k, v) ∈ l) : ∃ w, l.lookup k = some w := by
  cases hlookup : l.lookup k with
  | some w => exact ⟨w, rfl⟩
  | none => exact absurd (List.lookup_eq_none_iff.1 hlookup _ h) (by simp)

/-- An operand is there if the edge that feeds the slot carries a value of the table. -/
theorem operand_of_feed? {slot : Nat} {e : Edge} {v : Lowered}
    (hfeed : src.graph.feed? node.id slot = some e)
    (hlookup : p.values.lookup (e.src, e.srcOutput) = some v) :
    operand src p node slot = .ok (e.src, v) := by
  simp only [operand, Graph.find?_dataInputs, hfeed, hlookup]

/-- **A node is lowered if the rule of its kind can be followed.** -/
theorem lowerNode_of_stepped (h : Stepped src p position q) :
    lowerNode src p position = .ok q := by
  cases h with
  | arg hnode harg hindex hspec =>
    simp only [lowerNode, hnode, harg, if_true]
    refine except_bind_eq_ok.2 ⟨_, mapError_eq_ok.2 hindex, ?_⟩
    simp only [hspec]
  | retval hnode hretval hindex hv =>
    simp only [lowerNode, hnode, Node.isArg_eq_false_of_isRetval hretval, hretval, if_true,
      Bool.false_eq_true, if_false]
    exact except_bind_eq_ok.2 ⟨_, mapError_eq_ok.2 hindex, except_bind_eq_ok.2 ⟨_, hv, rfl⟩⟩
  | op hnode hop hrefs =>
    obtain ⟨hnotArg, hnotRetval⟩ := OpKind.isOp_of_ofTag?_eq_some hop
    simp only [lowerNode, hnode, hnotArg, hnotRetval, Bool.false_eq_true, if_false, lowerOp, hop]
    exact except_bind_eq_ok.2 ⟨_, hrefs, rfl⟩

/-- Lowering agrees with the graph, and the values of some inputs and operations are in the
table. -/
structure Progress.Complete (src : Source) (done : List Nat) (p : Progress) : Prop
    extends p.Specified src where
  /-- An input or an operation that is done has its value in the table. -/
  available : ∀ v ∈ done, ∀ node, src.graph.node? v = some node → node.isRetval = false →
    ∃ l, p.values.lookup (v, 0) = some l

namespace Progress.Complete

variable {done : List Nat}

/-- **What a node needs is there** when all that precedes it is done. -/
theorem operand (hp : p.Complete src done) (hl : src.Lowerable) (hg : src.graph.Numbered)
    (hbefore : ∀ e ∈ src.graph.edges, e.dst = position → e.src ∈ done)
    (hnode : src.graph.node? position = some node) {slot : Nat} (hneeds : node.Needs slot) :
    ∃ e v, src.graph.feed? position slot = some e ∧ operand src p node slot = .ok (e.src, v) ∧
      HasSpec src e.src v.spec := by
  obtain ⟨e, source, hfeed, houtput, hsource, hnotRetval⟩ := hl.slots position node slot hnode hneeds
  obtain ⟨hedge, hdst, -⟩ := Graph.of_feed?_eq_some hfeed
  obtain ⟨v, hv⟩ := hp.available e.src (hbefore e hedge hdst) source hsource hnotRetval
  obtain rfl := hg _ _ hnode
  exact ⟨e, v, hfeed, operand_of_feed? hfeed (houtput ▸ hv),
    (hp.values _ (mem_of_lookup_eq_some hv)).2⟩

/-- **An operation finds its operands.** -/
theorem operands (hp : p.Complete src done) (hl : src.Lowerable) (hg : src.graph.Numbered)
    (hbefore : ∀ e ∈ src.graph.edges, e.dst = position → e.src ∈ done)
    (hnode : src.graph.node? position = some node) {op : OpKind}
    (hop : OpKind.ofTag? node.op = some op) :
    ∃ refs spec, Operands src p node op refs spec := by
  obtain ⟨e, first, hfeed, hfirst, hspec⟩ :=
    hp.operand hl hg hbefore hnode (.inl ⟨rfl, .inr ⟨op, hop⟩⟩)
  have hpair : op.arity = 2 → ∃ refs spec, Operands src p node op refs spec := by
    intro harity
    obtain ⟨e', second, hfeed', hsecond, hspec'⟩ :=
      hp.operand hl hg hbefore hnode (.inr ⟨rfl, op, hop, .inl harity⟩)
    -- Both have the spec that the graph gives them, and there is one for each.
    obtain ⟨spec, hs, hs'⟩ := hl.operands position node op e e' hnode hop harity hfeed hfeed'
    exact ⟨_, _, .pair harity hfirst hsecond ((hspec.unique hs).trans (hs'.unique hspec'))⟩
  cases op with
  | add | sub | mul => exact hpair rfl
  | neg => exact ⟨_, _, .same (.inl rfl) hfirst⟩
  | identity => exact ⟨_, _, .same (.inr rfl) hfirst⟩
  | reshape =>
    -- The second operand is looked up for the node it comes from; its value is not used.
    obtain ⟨e', second, hfeed', hsecond, -⟩ :=
      hp.operand hl hg hbefore hnode (.inr ⟨rfl, .reshape, hop, .inr rfl⟩)
    obtain ⟨spec, target, hs, htarget⟩ := hl.targets position node e hnode hop hfeed
    obtain rfl := hspec.unique hs
    obtain ⟨hd, harg, hisArg, hindex, hstatic, -, hintegers, hresolves⟩ := htarget
    obtain rfl := Option.some.inj (hfeed'.symm.trans hd)
    exact ⟨_, _, .reshape hfirst (reshapeTarget_eq_ok_iff.2 ⟨_, _, _, _, _, _, hsecond, harg, hisArg,
      hindex, hstatic, hintegers, resolveTarget_eq_ok_iff.2 hresolves⟩)⟩

/-- **A node can be lowered** when all that precedes it is done. -/
theorem exists_stepped (hp : p.Complete src done) (hl : src.Lowerable) (hg : src.graph.Numbered)
    (hbefore : ∀ e ∈ src.graph.edges, e.dst = position → e.src ∈ done)
    (hnode : src.graph.node? position = some node) : ∃ q, Stepped src p position q := by
  have hmem : node ∈ src.graph.nodes := List.mem_of_getElem? hnode
  cases harg : node.isArg with
  | true =>
    obtain ⟨index, hindex, hlt⟩ := hl.inputs node hmem harg
    exact ⟨_, .arg hnode harg hindex (List.getElem?_eq_getElem hlt)⟩
  | false =>
    cases hretval : node.isRetval with
    | true =>
      obtain ⟨index, hindex, -⟩ := hl.outputs node hmem hretval
      obtain ⟨e, v, -, hv, -⟩ := hp.operand hl hg hbefore hnode (.inl ⟨rfl, .inl hretval⟩)
      exact ⟨_, .retval hnode hretval hindex hv⟩
    | false =>
      obtain ⟨op, hop⟩ := hl.operations node hmem (by rw [Node.isOp, harg, hretval]; rfl)
      obtain ⟨refs, spec, hrefs⟩ := hp.operands hl hg hbefore hnode hop
      exact ⟨_, .op hnode hop (lowerOperands_eq_ok_iff.2 hrefs)⟩

/-- **One node**: when it has been lowered, its value is in the table. -/
theorem step (hp : p.Complete src done) (hg : src.graph.Numbered) (h : Stepped src p position q) :
    q.Complete src (done ++ [position]) := by
  refine ⟨hp.toSpecified.step hg h, fun v hv node hnode hnotRetval => ?_⟩
  have hself : ∀ (l : Lowered) (values : List ((Nat × Nat) × Lowered)),
      ∃ l', (((position, 0), l) :: values).lookup (position, 0) = some l' := by
    intro l values
    exact ⟨l, List.lookup_cons_self⟩
  rcases List.mem_append.1 hv with hdone | hlast
  · have hbefore := hp.available v hdone node hnode hnotRetval
    cases h with
    | arg => exact exists_lookup_cons hbefore
    | retval => exact hbefore
    | op => exact exists_lookup_cons hbefore
  · obtain rfl := List.mem_singleton.1 hlast
    cases h with
    | arg => exact hself _ _
    | retval hnode' hretval =>
      obtain rfl := Option.some.inj (hnode.symm.trans hnode')
      exact absurd hretval (Bool.eq_false_iff.1 hnotRetval)
    | op hnode' =>
      obtain rfl := hg _ _ hnode'
      exact hself _ _

/-- **All nodes**, by induction on those that are left, in an order in which edges lead forwards. -/
theorem exists_lowerNodes (hp : p.Complete src done) (hl : src.Lowerable) (hg : src.graph.Numbered)
    {order rest : List Nat} (hordered : src.graph.Ordered order) (hsplit : order = done ++ rest)
    (hnodes : ∀ v ∈ rest, ∃ node, src.graph.node? v = some node) :
    ∃ q, lowerNodes src p rest = .ok q := by
  induction rest generalizing done p with
  | nil => exact ⟨p, rfl⟩
  | cons position rest ih =>
    obtain ⟨node, hnode⟩ := hnodes position List.mem_cons_self
    -- The order has the sources of all edges into the node among those that are done.
    obtain ⟨next, hstep⟩ :=
      hp.exists_stepped hl hg (hordered done position rest hsplit) hnode
    obtain ⟨q, hq⟩ := ih (hp.step hg hstep) (by rw [hsplit, List.append_assoc, List.singleton_append])
      fun v hv => hnodes v (List.mem_cons_of_mem _ hv)
    exact ⟨q, except_bind_eq_ok.2 ⟨next, lowerNode_of_stepped hstep, hq⟩⟩

end Progress.Complete

/-! ### Outputs -/

/-- Below the number of positions there is an index that is named, or a greater one is. -/
theorem exists_output_of_lt_outputCount {i : Nat} (h : i < outputCount p) :
    ∃ e ∈ p.outputs, i ≤ e.1 := by
  have hfold : ∀ (l : List (Nat × Lowered)) (n : Nat),
      i < l.foldl (fun n o => max n (o.1 + 1)) n → i < n ∨ ∃ e ∈ l, i ≤ e.1 := by
    intro l
    induction l with
    | nil => exact fun n h => .inl h
    | cons o rest ih =>
      intro n h
      rcases ih _ h with hmax | ⟨e, he, hle⟩
      · dsimp only at hmax
        rcases Nat.lt_or_ge i n with hlt | hge
        · exact .inl hlt
        · exact .inr ⟨o, List.mem_cons_self, by omega⟩
      · exact .inr ⟨e, List.mem_cons_of_mem _ he, hle⟩
  exact (hfold p.outputs 0 h).resolve_left (Nat.not_lt_zero i)

/-- **Outputs without gaps are collected.** -/
theorem exists_collectOutputs {order : List Nat} (hl : src.Lowerable) (hg : src.graph.Numbered)
    (h : lowerNodes src .start order = .ok p)
    (horder : ∀ v, v < src.graph.nodes.length → v ∈ order) :
    ∃ outputs, collectOutputs p = .ok outputs := by
  have hspecified := lowerNodes_specified hg (Progress.specified_start src) h
  have hnamed : ∀ i < outputCount p, ∃ v, p.outputs.lookup i = some v := by
    intro i hi
    obtain ⟨e, he, hle⟩ := exists_output_of_lt_outputCount hi
    obtain ⟨node, hmem, hretval, hindex⟩ := hspecified.outputs e he
    -- There is an output of this index, and it has been lowered.
    obtain ⟨other, hother, hretval', hindex'⟩ : ∃ other ∈ src.graph.nodes,
        other.isRetval = true ∧ other.index = .ok i := by
      obtain ⟨index, hindex', hbelow⟩ := hl.outputs node hmem hretval
      obtain rfl := Except.ok.inj (hindex.symm.trans hindex')
      rcases Nat.lt_or_eq_of_le hle with hlt | rfl
      · exact hbelow i hlt
      · exact ⟨node, hmem, hretval, hindex⟩
    obtain ⟨position, hposition⟩ := List.getElem?_of_mem hother
    obtain ⟨index, v, hindex, hv⟩ := lowerNodes_outputs h
      (horder position (List.getElem?_eq_some_iff.1 hposition).1) hposition hretval'
    obtain rfl := Except.ok.inj (hindex'.symm.trans hindex)
    exact exists_lookup_of_mem hv
  rw [collectOutputs]
  refine (except_mapM_ok_of_forall (P := fun _ _ => True) fun i hi => ?_).imp fun _ h => h.1
  obtain ⟨v, hv⟩ := hnamed i (List.mem_range.1 hi)
  exact ⟨v, by rw [hv], trivial⟩

/-- **Graphs that are lowerable are lowered.** The check at the end finds nothing, since the function
consists of fed instructions. -/
theorem exists_lower_of_lowerable (hg : src.graph.Numbered) (hl : src.Lowerable) :
    ∃ f, src.graph.lower src.inputs src.statics = .ok f := by
  obtain ⟨order, horder⟩ := Graph.exists_topologicalOrder_iff.2 ⟨hl.closed, hl.acyclic⟩
  have hmem : ∀ v, v ∈ order ↔ v < src.graph.nodes.length := fun v =>
    (Graph.topologicalOrder_perm horder).mem_iff.trans List.mem_range
  -- Before the first node nothing is done, and nothing has to be available.
  have hstart : Progress.start.Complete src [] := ⟨Progress.specified_start src, nofun⟩
  obtain ⟨p, hp⟩ := hstart.exists_lowerNodes hl hg (Graph.ordered_of_topologicalOrder horder)
    (List.nil_append order).symm fun v hv => ⟨_, List.getElem?_eq_getElem ((hmem v).1 hv)⟩
  obtain ⟨outputs, houtputs⟩ := exists_collectOutputs hl hg hp fun v hv => (hmem v).2 hv
  have hfed := fed_of_collected (f :=
    { name := "ref_cpu_function"
      parameters := src.inputs
      results := outputs.map (·.spec)
      body := p.body
      outputs := outputs.map (·.ref) })
    (lowerNodes_fed (fed_start src.inputs) hp) houtputs rfl rfl rfl rfl
  exact ⟨_, except_bind_eq_ok.2 ⟨order, mapError_eq_ok.2 horder, except_bind_eq_ok.2 ⟨p, hp,
    except_bind_eq_ok.2 ⟨outputs, houtputs, except_bind_eq_ok.2 ⟨(), mapError_eq_ok.2 hfed.validate,
      rfl⟩⟩⟩⟩⟩

end Lowering

/-- **Exactly the lowerable graphs are lowered.** -/
theorem lower_iff_lowerable (g : Graph) (inputs : List TensorSpec) (statics : List (Option Tensor))
    (hg : g.Numbered) : (∃ f, g.lower inputs statics = .ok f) ↔
      (⟨g, inputs, statics⟩ : Lowering.Source).Lowerable := by
  constructor
  · rintro ⟨f, hf⟩
    exact Lowering.lowerable_of_lower hg hf
  · intro hl
    exact Lowering.exists_lower_of_lowerable hg hl

/-- A shape of which one dimension is open is found for six elements, but not if no tensor stands at
its input; and a sum is not lowered any more when a control edge leads from its result back to an
operand. -/
theorem lowerable_of_samples :
    Graph.sampleReshape.Numbered ∧ (Graph.sampleAdd.addControlEdge 3 0).Numbered ∧
    (⟨.sampleReshape, [⟨.f32, [2, 3]⟩, ⟨.i32, [2]⟩],
      [none, some ⟨⟨.i32, [2]⟩, [255, 255, 255, 255, 2, 0, 0, 0]⟩]⟩ : Lowering.Source).Lowerable ∧
    ¬ (⟨.sampleReshape, [⟨.f32, [2, 3]⟩, ⟨.i32, [2]⟩], [none, none]⟩ : Lowering.Source).Lowerable ∧
    ¬ (⟨Graph.sampleAdd.addControlEdge 3 0, [⟨.f32, []⟩, ⟨.f32, []⟩], []⟩ :
      Lowering.Source).Lowerable := by
  have hreshape : Graph.sampleReshape.Numbered := by decide +kernel
  have hadd : (Graph.sampleAdd.addControlEdge 3 0).Numbered := by decide +kernel
  have hok : ((Graph.sampleReshape.lower [⟨.f32, [2, 3]⟩, ⟨.i32, [2]⟩]
      [none, some ⟨⟨.i32, [2]⟩, [255, 255, 255, 255, 2, 0, 0, 0]⟩]).map (·.results)) =
        .ok [⟨.f32, [3, 2]⟩] := by decide +kernel
  have hstatic : Graph.sampleReshape.lower [⟨.f32, [2, 3]⟩, ⟨.i32, [2]⟩] [none, none] =
      .error (.shapeNotStatic "reshape" 1) := by decide +kernel
  have hcycle : (Graph.sampleAdd.addControlEdge 3 0).lower [⟨.f32, []⟩, ⟨.f32, []⟩] [] =
      .error (.graph .cycle) := by decide +kernel
  refine ⟨hreshape, hadd, (lower_iff_lowerable _ _ _ hreshape).1 ?_, fun hl => ?_, fun hl => ?_⟩
  · obtain ⟨f, hf, -⟩ := except_map_eq_ok.1 hok
    exact ⟨f, hf⟩
  · obtain ⟨f, hf⟩ := (lower_iff_lowerable _ _ _ hreshape).2 hl
    cases hstatic.symm.trans hf
  · obtain ⟨f, hf⟩ := (lower_iff_lowerable _ _ _ hadd).2 hl
    cases hcycle.symm.trans hf

end TensorJit
