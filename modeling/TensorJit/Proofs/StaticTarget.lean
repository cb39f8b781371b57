import TensorJit.Graph.Samples
import TensorJit.Proofs.Atomicity
import TensorJit.Proofs.Executor.Failure
import TensorJit.Proofs.Graph.StaticInputs
import TensorJit.Proofs.Lowering.Target

/-!
# The targets of reshapes are recorded

Two passes over a graph have to agree. The analysis goes forward, from every input along its data
edges, and asks which of the slots they enter must be known; lowering goes back, from a reshape
along the edge that feeds its second slot, and looks up the value of the input it comes to. What
the signature records is decided by the first pass, and the second has to do with it.

They agree **because the edge that lowering goes back along is one of those that the analysis goes
forward along**: it is a data edge, it leaves an input, and the slot it enters is one that must be
known (`Lowering.Consults.feedsStatic`). The input has been lowered by then, so it has a tensor
(`Lowering.Consults.lt`). For inputs of one index the later decides whether they are static, so
the indices have to be distinct.

Hence no look-up of an executable ends with a target that is not static (`targets_recorded`).
-/

namespace TensorJit

/-! ### What lowering looks up -/

namespace Lowering

variable {src : Source} {p q : Progress} {index : Nat}

/-- Lowering comes to look up the static input of an index: what stands in front of a reshape has
been lowered, its operand is there, and its target comes from the input of this index. -/
def Consults (src : Source) (index : Nat) : Prop :=
  ∃ before position after p node operand₀ origin v arg,
    src.graph.topologicalOrder = .ok (before ++ position :: after) ∧
    lowerNodes src .start before = .ok p ∧ src.graph.node? position = some node ∧
    OpKind.ofTag? node.op = some .reshape ∧ operand src p node 0 = .ok operand₀ ∧
    operand src p node 1 = .ok (origin, v) ∧ src.graph.node? origin = some arg ∧
    arg.isArg = true ∧ arg.index = .ok index

theorem operand_ne_shapeNotStatic {node : Node} {slot position : Nat} {name : String} :
    operand src p node slot ≠ .error (.shapeNotStatic name position) := by
  rw [operand]
  split
  · exact nofun
  · split
    · exact nofun
    · exact nofun

theorem lowerArg_ne_shapeNotStatic {node : Node} {position i : Nat} {name : String} :
    lowerArg src p position node ≠ .error (.shapeNotStatic name i) := by
  intro h
  rcases except_bind_eq_error.1 h with h | ⟨i, -, h⟩
  · obtain ⟨_, -, h⟩ := mapError_eq_error.1 h
    cases h
  · split at h
    · cases h
    · cases h

theorem lowerRetval_ne_shapeNotStatic {node : Node} {position : Nat} {name : String} :
    lowerRetval src p node ≠ .error (.shapeNotStatic name position) := by
  intro h
  rcases except_bind_eq_error.1 h with h | ⟨i, -, h⟩
  · obtain ⟨_, -, h⟩ := mapError_eq_error.1 h
    cases h
  · rcases except_bind_eq_error.1 h with h | ⟨v, -, h⟩
    · exact operand_ne_shapeNotStatic h
    · cases h

/-- A target that is not static is one that comes from an input without a recorded value. -/
theorem reshapeTarget_eq_error {node : Node} {elements : Nat} {name : String}
    (h : reshapeTarget src p node elements = .error (.shapeNotStatic name index)) :
    ∃ origin v arg, operand src p node 1 = .ok (origin, v) ∧ src.graph.node? origin = some arg ∧
      arg.isArg = true ∧ arg.index = .ok index ∧ ∀ t, src.statics[index]? ≠ some (some t) := by
  rw [reshapeTarget] at h
  rcases except_bind_eq_error.1 h with h | ⟨⟨origin, v⟩, hv, h⟩
  · exact absurd h operand_ne_shapeNotStatic
  · dsimp only at h
    split at h
    · cases h
    · rename_i arg harg
      obtain ⟨hnode, harg⟩ := Option.filter_eq_some_iff.1 harg
      rcases except_bind_eq_error.1 h with h | ⟨i, hi, h⟩
      · obtain ⟨_, -, h⟩ := mapError_eq_error.1 h
        cases h
      · split at h
        · -- A value is recorded, and a request that is refused is refused for another reason.
          rcases except_bind_eq_error.1 h with h | ⟨requested, -, h⟩
          · obtain ⟨_, -, h⟩ := mapError_eq_error.1 h
            cases h
          · cases refused_of_resolveTarget h
        · rename_i hnone
          cases h
          exact ⟨origin, v, arg, hv, hnode, harg, mapError_eq_ok.1 hi, hnone⟩

/-- **One operation**: if a target is not static, the operation is a reshape. -/
theorem lowerOperands_eq_error {node : Node} {op : OpKind} {name : String}
    (h : lowerOperands src p node op = .error (.shapeNotStatic name index)) :
    op = .reshape ∧ ∃ operand₀ origin v arg, operand src p node 0 = .ok operand₀ ∧
      operand src p node 1 = .ok (origin, v) ∧ src.graph.node? origin = some arg ∧
      arg.isArg = true ∧ arg.index = .ok index ∧ ∀ t, src.statics[index]? ≠ some (some t) := by
  rw [lowerOperands] at h
  rcases except_bind_eq_error.1 h with h | ⟨⟨origin₀, first⟩, hfirst, h⟩
  · exact absurd h operand_ne_shapeNotStatic
  · cases op with
    | add | sub | mul =>
      rcases except_bind_eq_error.1 h with h | ⟨second, -, h⟩
      · exact absurd h operand_ne_shapeNotStatic
      · dsimp only at h
        split at h
        · cases h
        · cases h
    | neg | identity => cases h
    | reshape =>
      rcases except_bind_eq_error.1 h with h | ⟨target, -, h⟩
      · obtain ⟨origin, v, arg, hrest⟩ := reshapeTarget_eq_error h
        exact ⟨rfl, _, origin, v, arg, hfirst, hrest⟩
      · cases h

/-- **One node**: if a target is not static, the node is a reshape. -/
theorem lowerNode_eq_error {position : Nat} {name : String}
    (h : lowerNode src p position = .error (.shapeNotStatic name index)) :
    ∃ node operand₀ origin v arg, src.graph.node? position = some node ∧
      OpKind.ofTag? node.op = some .reshape ∧ operand src p node 0 = .ok operand₀ ∧
      operand src p node 1 = .ok (origin, v) ∧ src.graph.node? origin = some arg ∧
      arg.isArg = true ∧ arg.index = .ok index ∧ ∀ t, src.statics[index]? ≠ some (some t) := by
  rw [lowerNode] at h
  split at h
  · cases h
  · rename_i node hnode
    split at h
    · exact absurd h lowerArg_ne_shapeNotStatic
    · split at h
      · exact absurd h lowerRetval_ne_shapeNotStatic
      · rw [lowerOp] at h
        split at h
        · cases h
        · rename_i op hop
          rcases except_bind_eq_error.1 h with h | ⟨_, -, h⟩
          · obtain ⟨rfl, operand₀, origin, v, arg, hrest⟩ := lowerOperands_eq_error h
            exact ⟨node, operand₀, origin, v, arg, hnode, hop, hrest⟩
          · cases h

/-- **Lowering fails at a target that is not static only where it looks one up** that is not
recorded. -/
theorem consults_of_lower_eq_error {g : Graph} {inputs : List TensorSpec}
    {statics : List (Option Tensor)} {name : String}
    (h : g.lower inputs statics = .error (.shapeNotStatic name index)) :
    Consults ⟨g, inputs, statics⟩ index ∧ ∀ t, statics[index]? ≠ some (some t) := by
  unfold Graph.lower at h
  rcases except_bind_eq_error.1 h with h | ⟨order, horder, h⟩
  · obtain ⟨_, -, h⟩ := mapError_eq_error.1 h
    cases h
  rcases except_bind_eq_error.1 h with h | ⟨p, -, h⟩
  · obtain ⟨before, position, after, q, rfl, hq, hfault⟩ := lowerNodes_eq_error_iff.1 h
    obtain ⟨node, operand₀, origin, v, arg, hnode, hop, hfirst, hv, horigin, harg, hindex, hnone⟩ :=
      lowerNode_eq_error hfault
    exact ⟨⟨before, position, after, q, node, operand₀, origin, v, arg, mapError_eq_ok.1 horder,
      hq, hnode, hop, hfirst, hv, horigin, harg, hindex⟩, hnone⟩
  rcases except_bind_eq_error.1 h with h | ⟨outputs, -, h⟩
  · unfold collectOutputs at h
    obtain ⟨i, -, h⟩ := except_mapM_eq_error h
    split at h
    · cases h
    · cases h
  · rcases except_bind_eq_error.1 h with h | ⟨_, -, h⟩
    · obtain ⟨_, -, h⟩ := mapError_eq_error.1 h
      cases h
    · cases h

/-! ### The two passes -/

/-- The value of an input is in the table when there is a tensor for its index. -/
def Progress.Supplied (src : Source) (p : Progress) : Prop :=
  ∀ e ∈ p.values, ∀ (node : Node) (index : Nat), src.graph.node? e.1.1 = some node →
    node.isArg = true → node.index = .ok index → index < src.inputs.length

theorem Progress.Supplied.step {position : Nat} (hg : src.graph.Numbered) (hp : p.Supplied src)
    (h : Stepped src p position q) : q.Supplied src := by
  cases h with
  | arg hnode harg hindex hspec =>
    intro e he node' index' hnode' harg' hindex'
    rcases List.mem_cons.1 he with rfl | he
    · obtain rfl := Option.some.inj (hnode.symm.trans hnode')
      obtain rfl := Except.ok.inj (hindex.symm.trans hindex')
      exact (List.getElem?_eq_some_iff.1 hspec).1
    · exact hp e he node' index' hnode' harg' hindex'
  | retval => exact hp
  | op hnode hop =>
    intro e he node' index' hnode' harg' hindex'
    rcases List.mem_cons.1 he with rfl | he
    · rw [hg _ _ hnode] at hnode'
      obtain rfl := Option.some.inj (hnode.symm.trans hnode')
      rw [(OpKind.isOp_of_ofTag?_eq_some hop).1] at harg'
      cases harg'
    · exact hp e he node' index' hnode' harg' hindex'

/-- There is a tensor for an input that lowering looks up. -/
theorem Consults.lt (hg : src.graph.Numbered) (h : Consults src index) :
    index < src.inputs.length := by
  obtain ⟨before, position, after, p, node, operand₀, origin, v, arg, -, hp, -, -, -, hv, horigin,
    harg, hindex⟩ := h
  have hsupplied : p.Supplied src :=
    lowerNodes_induction (P := fun p => p.Supplied src) (fun hp hstep _ => hp.step hg hstep)
      (fun _ he => absurd he List.not_mem_nil) hp
  obtain ⟨e, -, rfl, hlookup⟩ := operand_eq_ok hv
  exact hsupplied _ (mem_of_lookup_eq_some hlookup) arg index horigin harg hindex

/-- **An input that lowering looks up feeds a slot that must be known**: going back along the edge
that feeds the second slot of a reshape, it has come to an input that the analysis goes forward
from along the same edge. -/
theorem Consults.feedsStatic (hg : src.graph.Numbered)
    (hreshape : ∀ node ∈ src.graph.nodes, node.op = "Reshape" →
      node.attrIntList? "_static_inputs" = none)
    (h : Consults src index) : ∃ arg ∈ src.graph.nodes, arg.isArg = true ∧ arg.index = .ok index ∧
      StaticInputs.feedsStatic src.graph StaticQuery.byAttribute arg = true := by
  obtain ⟨before, position, after, p, node, operand₀, origin, v, arg, -, -, hnode, hop, -, hv,
    horigin, harg, hindex⟩ := h
  obtain ⟨e, hfeed, rfl, -⟩ := operand_eq_ok hv
  obtain ⟨hedge, hdst, hcontrol, hslot⟩ := Graph.of_feed?_eq_some hfeed
  refine ⟨arg, List.mem_of_getElem? horigin, harg, hindex, ?_⟩
  have hout : e ∈ src.graph.outEdges arg.id := by
    rw [hg _ _ horigin]
    exact List.mem_filter.2 ⟨hedge, decide_eq_true rfl⟩
  have htag : node.op = "Reshape" := OpKind.tag_of_ofTag?_eq_some hop
  have hquery : StaticQuery.byAttribute node e.dstInput = true := by
    unfold StaticQuery.byAttribute
    rw [hreshape node (List.mem_of_getElem? hnode) htag, htag, hslot]
    decide
  have hisOp : node.isOp = true := by
    unfold Node.isOp
    rw [(OpKind.isOp_of_ofTag?_eq_some hop).1, (OpKind.isOp_of_ofTag?_eq_some hop).2]
    rfl
  unfold StaticInputs.feedsStatic
  refine List.any_eq_true.2 ⟨e, hout, ?_⟩
  rw [hdst, hg _ _ hnode, hnode, hcontrol]
  dsimp only
  rw [hisOp, hquery]
  rfl

end Lowering

/-! ### What a signature records -/

/-- **The value that lowering looks up is recorded**, whatever the inputs are that the signature
is computed for. -/
theorem Lowering.Consults.recorded {g : Graph} {flags : StaticInputs} {ts : List Tensor}
    {computed : Signature.Computed} {index : Nat}
    (hanalyze : StaticInputs.analyze g StaticQuery.byAttribute = .ok flags) (hg : g.Numbered)
    (hdistinct : g.IndicesDistinct Node.isArg)
    (hreshape : ∀ node ∈ g.nodes, node.op = "Reshape" →
      node.attrIntList? "_static_inputs" = none)
    (hcompute : Signature.compute flags ts = .ok computed)
    (h : Consults ⟨g, computed.specs, computed.statics⟩ index) :
    ∃ t, ts[index]? = some t ∧ computed.statics[index]? = some (some t) := by
  obtain ⟨-, -, -, hspecs, hstatics⟩ := Signature.compute_eq_ok hcompute
  obtain ⟨arg, hmem, harg, hindex, hfeeds⟩ := h.feedsStatic hg hreshape
  have hlt : index < ts.length := by
    have := h.lt hg
    rwa [hspecs, List.length_map] at this
  have hstatic : flags.isStatic index = true :=
    (StaticInputs.isStatic_eq_feedsStatic hanalyze hdistinct hmem harg hindex).trans hfeeds
  refine ⟨ts[index], List.getElem?_eq_getElem hlt, ?_⟩
  rw [hstatics, Signature.getElem?_staticsFrom, List.getElem?_eq_getElem hlt, Nat.zero_add, hstatic]
  rfl

/-! ### Where malformations come from -/

namespace ExecM

variable {s : ExecState}

/-- That a graph or something made from it is malformed is said by the maker of functions, for
the inputs of the look-up. -/
def Blames (s : ExecState) (inputs : List HostBuffer) (error : Error) : Prop :=
  ∀ cause, error = .construction cause → ∃ computed translate,
    Signature.compute s.executor.statics (inputs.map s.memory.read) = .ok computed ∧
      s.executor.translator = some translate ∧
        translate s.executor.unit.graph computed.specs computed.statics = .error error

/-- **A look-up calls nothing malformed that the maker of functions does not.** -/
theorem ends_getExecutable_construction (inputs : List HostBuffer) :
    Ends (getExecutable inputs s) (fun _ _ => True) fun error _ => Blames s inputs error := by
  refine (fault_getExecutable inputs).mono (fun _ _ _ => trivial) ?_
  rintro error t h cause rfl
  cases h with
  | translation computed translate _ hcompute htranslator herror =>
    exact ⟨computed, translate, hcompute, htranslator, herror⟩

end ExecM

/-- **No target of a reshape is missing.** An executor that makes functions by lowering and finds
its static inputs by attributes and the table of operations has been built for a graph whose nodes
have their positions as numbers, whose inputs have distinct indices, and where no reshape names its
static slots itself. Then whatever inputs a signature is computed for, the value of an input that
lowering looks up for them is recorded; and whatever has happened since, looking up the executable
for some inputs never ends with a target that is not static. -/
theorem targets_recorded (w : Process) (r : BuildRequest) (e : Executor) (p : Platform)
    (hbuild : Executor.build r w.platform = .ok e p) (htranslator : r.translator = some .lowering)
    (hquery : r.query = StaticQuery.byAttribute) (hg : r.unit.graph.Numbered)
    (hdistinct : r.unit.graph.IndicesDistinct Node.isArg)
    (hreshape : ∀ node ∈ r.unit.graph.nodes, node.op = "Reshape" →
      node.attrIntList? "_static_inputs" = none) :
    (∀ ts computed index, Signature.compute e.statics ts = .ok computed →
      Lowering.Consults ⟨r.unit.graph, computed.specs, computed.statics⟩ index →
        ∃ t, ts[index]? = some t ∧ computed.statics[index]? = some (some t)) ∧
    ∀ commands o inputs name index,
      (((w.step (.build r)).run commands).ask w.executors.length o (.getExecutable inputs)).1 ≠
        some (.error (Error.ofLoweringFault (.shapeNotStatic name index))) := by
  obtain ⟨hbuilt, -⟩ := (Executor.ends_build r w.platform).ok hbuild
  have hanalyze : StaticInputs.analyze r.unit.graph StaticQuery.byAttribute = .ok e.statics :=
    hquery ▸ hbuilt.statics
  have hrecorded : ∀ ts computed index, Signature.compute e.statics ts = .ok computed →
      Lowering.Consults ⟨r.unit.graph, computed.specs, computed.statics⟩ index →
        ∃ t, ts[index]? = some t ∧ computed.statics[index]? = some (some t) :=
    fun ts computed index hcompute h =>
      h.recorded hanalyze hg hdistinct hreshape hcompute
  refine ⟨hrecorded, fun commands o inputs name index hask => ?_⟩
  have hlast : (w.step (.build r)).executors[w.executors.length]? = some e := by
    change (w.build r).executors[w.executors.length]? = some e
    unfold Process.build
    rw [hbuild]
    exact List.getElem?_concat_length
  obtain ⟨f, hf, hremains⟩ := Process.executor_of_run hlast commands
  -- If the lookup failed so, lowering would have consulted an input whose value is not recorded.
  obtain ⟨u, -, ⟨answer, hanswer, -⟩ | ⟨error, herror, hblames⟩⟩ := Process.ask_of_ends (o := o)
    (r := .getExecutable inputs) (Q := fun _ _ => True) hf (by
      unfold Request.perform
      rw [ends_bind]
      exact (ExecM.ends_getExecutable_construction inputs).mono (fun _ _ _ => trivial)
        fun _ _ h => h)
  · rw [hanswer] at hask
    cases hask
  · obtain rfl := Except.error.inj (Option.some.inj (herror.symm.trans hask))
    obtain ⟨computed, translate, hcompute, htranslate, hfault⟩ := hblames _ rfl
    change f.translator = some translate at htranslate
    obtain rfl : translate = .lowering := Option.some.inj
      (htranslate.symm.trans (hremains.translator.trans (hbuilt.translator.trans htranslator)))
    change Translator.lowering f.unit.graph _ _ = _ at hfault
    rw [hremains.unit, hbuilt.unit] at hfault
    obtain ⟨fault, hfault, hsame⟩ := mapError_eq_error.1 hfault
    obtain rfl : fault = .shapeNotStatic name index := by
      cases fault <;> first | (cases hsame; rfl) | cases hsame
    obtain ⟨hconsults, hnone⟩ := Lowering.consults_of_lower_eq_error hfault
    obtain ⟨t, -, ht⟩ := hrecorded _ computed index (hremains.statics ▸ hcompute) hconsults
    exact hnone t ht

/-- Two reshapes with one target. The second slot of the first is fed twice, the second one waits
for the target, and its own slot is fed by the same input. -/
def Graph.sampleTargets : Graph :=
  (ofSample
    [("data", "_Arg", some 0), ("shape", "_Arg", some 1), ("first", "Reshape", none),
      ("second", "Reshape", none), ("out", "_Retval", some 0)]
    [(0, 2, 0), (1, 2, 1), (0, 2, 1), (2, 3, 0), (1, 3, 1), (3, 4, 0)]).addControlEdge 1 3

/-- The target of the first reshape is looked up at the second input, and it is recorded; with one
input alone, it is a tensor that is missing. -/
theorem recorded_of_sampleTargets : ∃ e p computed,
    Executor.build (.plain Graph.sampleTargets "host" .recording .never)
      (Process.empty.step (.register "host" (.recording .host) none)).platform = .ok e p ∧
    Signature.compute e.statics [⟨⟨.u8, [2]⟩, [7, 9]⟩, ⟨⟨.u8, [2]⟩, [2, 1]⟩] = .ok computed ∧
    Lowering.Consults ⟨Graph.sampleTargets, computed.specs, computed.statics⟩ 1 ∧
    computed.statics[1]? = some (some ⟨⟨.u8, [2]⟩, [2, 1]⟩) ∧
    ∀ name index, ((Process.empty.run [.register "host" (.recording .host) none,
      .build (.plain Graph.sampleTargets "host" .recording .never),
      .allocate ⟨⟨.u8, [2]⟩, [7, 9]⟩]).ask 0 0 (.getExecutable [⟨⟨.u8, [2]⟩, 0⟩])).1 ≠
        some (.error (Error.ofLoweringFault (.shapeNotStatic name index))) := by
  obtain ⟨w, hw⟩ : ∃ w, w = Process.empty.step (.register "host" (.recording .host) none) := ⟨_, rfl⟩
  obtain ⟨e, p, hbuild⟩ : ∃ e p,
      Executor.build (.plain Graph.sampleTargets "host" .recording .never) w.platform = .ok e p := by
    have hlength : (w.step
        (.build (.plain Graph.sampleTargets "host" .recording .never))).executors.length ≠
          w.executors.length := by
      rw [hw]
      decide +kernel
    rcases w.length_executors_build (.plain Graph.sampleTargets "host" .recording .never) with
      ⟨e, p, hbuild, -⟩ | ⟨_, _, -, hsame⟩
    · exact ⟨e, p, hbuild⟩
    · exact absurd hsame hlength
  have hnumbered : Graph.sampleTargets.Numbered := by decide +kernel
  have hdistinct : Graph.sampleTargets.IndicesDistinct Node.isArg := by
    unfold Graph.IndicesDistinct
    decide +kernel
  have hreshape : ∀ node ∈ Graph.sampleTargets.nodes, node.op = "Reshape" →
      node.attrIntList? "_static_inputs" = none := by decide +kernel
  obtain ⟨hrecorded, hnever⟩ :=
    targets_recorded w _ e p hbuild rfl rfl hnumbered hdistinct hreshape
  have hstatics : e.statics = ⟨[true, true]⟩ := by
    obtain ⟨hbuilt, -⟩ := (Executor.ends_build _ w.platform).ok hbuild
    have : StaticInputs.analyze Graph.sampleTargets StaticQuery.byAttribute = .ok ⟨[true, true]⟩ := by
      decide +kernel
    exact (Except.ok.inj (this.symm.trans hbuilt.statics)).symm
  have hcompute : Signature.compute e.statics [⟨⟨.u8, [2]⟩, [7, 9]⟩, ⟨⟨.u8, [2]⟩, [2, 1]⟩] =
      .ok ⟨"2,;2,;/7,9;2,1;", [⟨.u8, [2]⟩, ⟨.u8, [2]⟩],
        [some ⟨⟨.u8, [2]⟩, [7, 9]⟩, some ⟨⟨.u8, [2]⟩, [2, 1]⟩]⟩ := by
    rw [hstatics]
    decide +kernel
  have hconsults : Lowering.Consults ⟨Graph.sampleTargets, [⟨.u8, [2]⟩, ⟨.u8, [2]⟩],
      [some ⟨⟨.u8, [2]⟩, [7, 9]⟩, some ⟨⟨.u8, [2]⟩, [2, 1]⟩]⟩ 1 := by
    refine ⟨[0, 1], 2, [3, 4], _, _, (0, _), 1, _, _, by decide +kernel, rfl, rfl, by decide +kernel,
      rfl, rfl, rfl, by decide +kernel, by decide +kernel⟩
  obtain ⟨t, ht, hstatic⟩ := hrecorded _ _ 1 hcompute hconsults
  obtain rfl := Option.some.inj ht
  refine ⟨e, p, _, by rw [← hw]; exact hbuild, hcompute, hconsults, hstatic, fun name index => ?_⟩
  have := hnever [.allocate ⟨⟨.u8, [2]⟩, [7, 9]⟩] 0 [⟨⟨.u8, [2]⟩, 0⟩] name index
  rw [hw] at this
  exact this

end TensorJit
