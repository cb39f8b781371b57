import TensorJit.Proofs.Lowering.Target

/-!
# The specs of nodes

Which spec the value of a node has can be read off the graph, without lowering it
(`Lowering.HasSpec`): an input has the spec given for its index, an operation that of what feeds its
first slot, and a reshape takes from there the element type alone. The target of a reshape is
resolved from the static tensor at the input that feeds its second slot (`Lowering.ReadsTarget`).

Lowering computes these specs. **Every value in the table is the first output of a node and has the
spec of this node**, and every value that is named for an index is so by an output of this index
(`Lowering.Progress.Specified`).
-/

namespace TensorJit

/-- Integers are read from tensors of these element types only. -/
theorem Tensor.dtype_of_integers_eq_ok {t : Tensor} {requested : List Int}
    (h : t.integers = .ok requested) : t.spec.dtype ∈ [DType.i32, .i64, .u8] := by
  rw [integers] at h
  cases hdtype : t.spec.dtype with
  | i32 | i64 | u8 => decide
  | f32 | f64 | bool =>
    rw [hdtype] at h
    cases h

/-- They are read from all tensors of these element types. -/
theorem Tensor.exists_integers {t : Tensor} (h : t.spec.dtype ∈ [DType.i32, .i64, .u8]) :
    ∃ requested, t.integers = .ok requested := by
  rw [integers]
  cases hdtype : t.spec.dtype with
  | i32 | i64 | u8 => exact ⟨_, rfl⟩
  | f32 | f64 | bool => simp [hdtype] at h

namespace Lowering

variable {src : Source} {p q : Progress} {position : Nat}

/-! ### What the graph says -/

/-- The target of a reshape of some number of elements: an input feeds its second slot, and the
static tensor that stands there holds integers that come to the target. -/
inductive ReadsTarget (src : Source) (position elements : Nat) (target : Shape) : Prop
  /-- The input, its index, the tensor and the integers. -/
  | intro {e : Edge} {arg : Node} {index : Nat} {t : Tensor} {requested : List Int}
      (hfeed : src.graph.feed? position 1 = some e) (hnode : src.graph.node? e.src = some arg)
      (harg : arg.isArg = true) (hindex : arg.index = .ok index)
      (hstatic : src.statics[index]? = some (some t))
      (hdtype : t.spec.dtype ∈ [DType.i32, .i64, .u8]) (hintegers : t.integers = .ok requested)
      (hresolves : Resolves elements requested target)

/-- The spec of the value of the node at a position. -/
inductive HasSpec (src : Source) : Nat → TensorSpec → Prop
  /-- An input has the spec that is given for it. -/
  | arg {position index : Nat} {node : Node} {spec : TensorSpec}
      (hnode : src.graph.node? position = some node) (harg : node.isArg = true)
      (hindex : node.index = .ok index) (hspec : src.inputs[index]? = some spec) :
      HasSpec src position spec
  /-- An operation that is no reshape has the spec of its first operand. -/
  | op {position : Nat} {node : Node} {op : OpKind} {e : Edge} {spec : TensorSpec}
      (hnode : src.graph.node? position = some node) (hop : OpKind.ofTag? node.op = some op)
      (hne : op ≠ .reshape) (hfeed : src.graph.feed? position 0 = some e)
      (hspec : HasSpec src e.src spec) : HasSpec src position spec
  /-- A reshape has the element type of its operand, and its target as shape. -/
  | reshape {position : Nat} {node : Node} {e : Edge} {spec : TensorSpec} {target : Shape}
      (hnode : src.graph.node? position = some node)
      (hop : OpKind.ofTag? node.op = some .reshape) (hfeed : src.graph.feed? position 0 = some e)
      (hspec : HasSpec src e.src spec)
      (htarget : ReadsTarget src position spec.elements target) :
      HasSpec src position ⟨spec.dtype, target⟩

/-- A reshape has one target. -/
theorem ReadsTarget.unique {elements : Nat} {s t : Shape}
    (hs : ReadsTarget src position elements s) (ht : ReadsTarget src position elements t) :
    s = t := by
  obtain ⟨hfeed, hnode, -, hindex, hstatic, -, hintegers, hs⟩ := hs
  obtain ⟨hfeed', hnode', -, hindex', hstatic', -, hintegers', ht⟩ := ht
  obtain rfl := Option.some.inj (hfeed.symm.trans hfeed')
  obtain rfl := Option.some.inj (hnode.symm.trans hnode')
  obtain rfl := Except.ok.inj (hindex.symm.trans hindex')
  obtain rfl := Option.some.inj (Option.some.inj (hstatic.symm.trans hstatic'))
  obtain rfl := Except.ok.inj (hintegers.symm.trans hintegers')
  exact hs.unique ht

/-- **A node has one spec.** -/
theorem HasSpec.unique {s t : TensorSpec} (hs : HasSpec src position s)
    (ht : HasSpec src position t) : s = t := by
  -- The node decides which rule applies, so the two derivations end alike.
  induction hs generalizing t with
  | arg hnode harg hindex hspec =>
    cases ht with
    | arg hnode' _ hindex' hspec' =>
      obtain rfl := Option.some.inj (hnode.symm.trans hnode')
      obtain rfl := Except.ok.inj (hindex.symm.trans hindex')
      exact Option.some.inj (hspec.symm.trans hspec')
    | op hnode' hop' | reshape hnode' hop' =>
      obtain rfl := Option.some.inj (hnode.symm.trans hnode')
      rw [(OpKind.isOp_of_ofTag?_eq_some hop').1] at harg
      cases harg
  | op hnode hop hne hfeed _ ih =>
    cases ht with
    | arg hnode' harg' =>
      obtain rfl := Option.some.inj (hnode.symm.trans hnode')
      rw [(OpKind.isOp_of_ofTag?_eq_some hop).1] at harg'
      cases harg'
    | op hnode' _ _ hfeed' ht =>
      obtain rfl := Option.some.inj (hfeed.symm.trans hfeed')
      exact ih ht
    | reshape hnode' hop' =>
      obtain rfl := Option.some.inj (hnode.symm.trans hnode')
      exact absurd (Option.some.inj (hop.symm.trans hop')) hne
  | reshape hnode hop hfeed _ htarget ih =>
    cases ht with
    | arg hnode' harg' =>
      obtain rfl := Option.some.inj (hnode.symm.trans hnode')
      rw [(OpKind.isOp_of_ofTag?_eq_some hop).1] at harg'
      cases harg'
    | op hnode' hop' hne' =>
      obtain rfl := Option.some.inj (hnode.symm.trans hnode')
      exact absurd (Option.some.inj (hop'.symm.trans hop)) hne'
    | reshape _ _ hfeed' ht htarget' =>
      obtain rfl := Option.some.inj (hfeed.symm.trans hfeed')
      obtain rfl := ih ht
      rw [htarget.unique htarget']

/-- What has a spec is an input or an operation. -/
theorem HasSpec.source {s : TensorSpec} (h : HasSpec src position s) :
    ∃ node, src.graph.node? position = some node ∧ node.isRetval = false := by
  cases h with
  | @arg _ _ node _ hnode harg =>
    refine ⟨node, hnode, Bool.eq_false_iff.2 fun hretval => ?_⟩
    rw [Node.isArg_eq_false_of_isRetval hretval] at harg
    cases harg
  | op hnode hop => exact ⟨_, hnode, (OpKind.isOp_of_ofTag?_eq_some hop).2⟩
  | reshape hnode hop => exact ⟨_, hnode, (OpKind.isOp_of_ofTag?_eq_some hop).2⟩

/-! ### What lowering has found out -/

/-- What has been lowered so far agrees with what the graph says. -/
structure Progress.Specified (src : Source) (p : Progress) : Prop where
  /-- Every value is the first output of a node, and has its spec. -/
  values : ∀ e ∈ p.values, e.1.2 = 0 ∧ HasSpec src e.1.1 e.2.spec
  /-- An output of the graph has the index for which a value is named. -/
  outputs : ∀ e ∈ p.outputs, ∃ node ∈ src.graph.nodes, node.isRetval = true ∧ node.index = .ok e.1

theorem Progress.specified_start (src : Source) : Progress.start.Specified src := ⟨nofun, nofun⟩

/-- **An operand is the first output of a node that has a spec.** -/
theorem Progress.Specified.operand {node : Node} {slot origin : Nat} {v : Lowered}
    (hp : p.Specified src) (h : operand src p node slot = .ok (origin, v)) :
    ∃ e, src.graph.feed? node.id slot = some e ∧ e.src = origin ∧ e.srcOutput = 0 ∧
      HasSpec src origin v.spec := by
  obtain ⟨e, hfeed, hsrc, hlookup⟩ := operand_eq_ok h
  obtain ⟨houtput, hspec⟩ := hp.values _ (mem_of_lookup_eq_some hlookup)
  exact ⟨e, hfeed, hsrc, houtput, hspec⟩

theorem Progress.Specified.readsTarget {node : Node} {elements : Nat} {target : Shape}
    (hp : p.Specified src) (h : reshapeTarget src p node elements = .ok target) :
    ReadsTarget src node.id elements target := by
  obtain ⟨origin, v, arg, index, t, requested, hv, hnode, harg, hindex, hstatic, hintegers, h⟩ :=
    reshapeTarget_eq_ok_iff.1 h
  obtain ⟨e, hfeed, rfl, -⟩ := hp.operand hv
  exact .intro hfeed hnode harg hindex hstatic (Tensor.dtype_of_integers_eq_ok hintegers) hintegers
    (resolveTarget_eq_ok_iff.1 h)

/-- **An operation has the spec that lowering gives it.** -/
theorem Operands.hasSpec {node : Node} {op : OpKind} {refs : List ValueRef} {spec : TensorSpec}
    (hp : p.Specified src) (hnode : src.graph.node? node.id = some node)
    (hop : OpKind.ofTag? node.op = some op) (h : Operands src p node op refs spec) :
    HasSpec src node.id spec := by
  cases h with
  | pair harity hfirst =>
    obtain ⟨e, hfeed, rfl, -, hspec⟩ := hp.operand hfirst
    refine .op hnode hop ?_ hfeed hspec
    rintro rfl
    cases harity
  | same hunary hfirst =>
    obtain ⟨e, hfeed, rfl, -, hspec⟩ := hp.operand hfirst
    refine .op hnode hop ?_ hfeed hspec
    rintro rfl
    rcases hunary with h | h <;> cases h
  | reshape hfirst htarget =>
    obtain ⟨e, hfeed, rfl, -, hspec⟩ := hp.operand hfirst
    exact .reshape hnode hop hfeed hspec (hp.readsTarget htarget)

/-- **One node**: what has been lowered stays as the graph says. -/
theorem Progress.Specified.step (hg : src.graph.Numbered) (hp : p.Specified src)
    (h : Stepped src p position q) : q.Specified src := by
  cases h with
  | arg hnode harg hindex hspec =>
    refine ⟨fun e he => ?_, hp.outputs⟩
    rcases List.mem_cons.1 he with rfl | he
    · exact ⟨rfl, .arg hnode harg hindex hspec⟩
    · exact hp.values e he
  | retval hnode hretval hindex =>
    refine ⟨hp.values, fun e he => ?_⟩
    rcases List.mem_cons.1 he with rfl | he
    · exact ⟨_, List.mem_of_getElem? hnode, hretval, hindex⟩
    · exact hp.outputs e he
  | op hnode hop hrefs =>
    refine ⟨fun e he => ?_, hp.outputs⟩
    rcases List.mem_cons.1 he with rfl | he
    · obtain rfl := hg _ _ hnode
      exact ⟨rfl, (lowerOperands_eq_ok_iff.1 hrefs).hasSpec hp hnode hop⟩
    · exact hp.values e he

end Lowering

end TensorJit
