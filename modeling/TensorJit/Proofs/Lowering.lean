import TensorJit.Lowering
import TensorJit.Proofs.Function.Typed
import TensorJit.Proofs.Graph.Order

/-!
# What lowering reads and what it makes

Of the static inputs, lowering reads **the integers they hold and nothing else**: two lists of
static inputs with the same integers lead to one function (`lower_congr`).

The function that comes out is typed (`Function.Typed`). Every reference it returns has the
spec that is declared for the result, and an operation that takes its size from its operand
alone, which is a change of sign or the identity, is declared with the spec of its operand. That
is what evaluation does not check; so **the results of a typed function have as many elements as
declared** (`Function.Typed.sized`). A graph with an output has a function with a result, since
every node is lowered (`lower_results_ne_nil`).
-/

namespace TensorJit

namespace Lowering

/-! ### What is read of the static inputs -/

section Congr

variable {g : Graph} {inputs : List TensorSpec} {statics statics' : List (Option Tensor)}
  (h : statics.map (Option.map Tensor.integers) = statics'.map (Option.map Tensor.integers))
include h

theorem integers_getElem? (position : Nat) :
    (statics[position]?).map (Option.map Tensor.integers) =
      (statics'[position]?).map (Option.map Tensor.integers) := by
  rw [← List.getElem?_map, ← List.getElem?_map, h]

/-- A target is read as integers. -/
theorem reshapeTarget_congr (p : Progress) (node : Node) (elements : Nat) :
    reshapeTarget ⟨g, inputs, statics⟩ p node elements =
      reshapeTarget ⟨g, inputs, statics'⟩ p node elements := by
  unfold reshapeTarget
  refine congrArg (operand ⟨g, inputs, statics⟩ p node 1 >>= ·) (funext fun v => ?_)
  dsimp only
  split
  · rfl
  · rename_i arg _
    refine congrArg (arg.index.mapError LoweringFault.graph >>= ·) (funext fun position => ?_)
    have hint := integers_getElem? h position
    rcases hs : statics[position]? with _ | _ | t <;>
      rcases hs' : statics'[position]? with _ | _ | t' <;>
      simp_all

/-- No other node reads static inputs. -/
theorem lowerOp_congr (p : Progress) (node : Node) :
    lowerOp ⟨g, inputs, statics⟩ p node = lowerOp ⟨g, inputs, statics'⟩ p node := by
  unfold lowerOp lowerOperands
  simp only [reshapeTarget_congr h]
  rfl

theorem lowerNode_congr (p : Progress) (position : Nat) :
    lowerNode ⟨g, inputs, statics⟩ p position = lowerNode ⟨g, inputs, statics'⟩ p position := by
  unfold lowerNode
  simp only [lowerOp_congr h]
  rfl

/-- So it is for all nodes in their order. -/
theorem lowerNodes_congr (p : Progress) (order : List Nat) :
    lowerNodes ⟨g, inputs, statics⟩ p order = lowerNodes ⟨g, inputs, statics'⟩ p order := by
  induction order generalizing p with
  | nil => rfl
  | cons position rest ih =>
    unfold lowerNodes
    rw [lowerNode_congr h]
    exact congrArg _ (funext ih)

/-- **Lowering reads the integers of the static inputs and nothing else of them.** -/
theorem lower_congr : g.lower inputs statics = g.lower inputs statics' := by
  unfold Graph.lower
  simp only [lowerNodes_congr h]

end Congr

/-! ### What is made -/

/-- The specs in the table of values and among the outputs are those of what they refer to. -/
structure Progress.Typed (inputs : List TensorSpec) (p : Progress) : Prop where
  /-- An operation that takes its size from its operand has the spec of its operand. -/
  body : ∀ i ∈ p.body, i.op = .neg ∨ i.op = .identity →
    ∀ r ∈ i.operands, r.specIn inputs p.body = some i.spec
  /-- The values of node outputs. -/
  values : ∀ e ∈ p.values, e.2.ref.specIn inputs p.body = some e.2.spec
  /-- The values returned. -/
  outputs : ∀ e ∈ p.outputs, e.2.ref.specIn inputs p.body = some e.2.spec

/-- Nothing has been lowered yet. -/
theorem Progress.typed_start (inputs : List TensorSpec) : Progress.start.Typed inputs :=
  ⟨nofun, nofun, nofun⟩

theorem mem_of_lookup_eq_some {κ υ : Type} [BEq κ] [LawfulBEq κ] {l : List (κ × υ)} {k : κ}
    {v : υ} (h : l.lookup k = some v) : (k, v) ∈ l := by
  obtain ⟨before, after, hl, -⟩ := List.lookup_eq_some_iff.1 h
  rw [hl]
  exact List.mem_append_right _ List.mem_cons_self

variable {src : Source} {p q : Progress}

/-- An operand refers to a value with the spec that is remembered for it. -/
theorem operand_typed {node : Node} {slot origin : Nat} {v : Lowered}
    (hp : p.Typed src.inputs) (h : operand src p node slot = .ok (origin, v)) :
    v.ref.specIn src.inputs p.body = some v.spec := by
  unfold operand at h
  split at h
  · cases h
  · split at h
    · cases h
    · rename_i w hw
      cases h
      exact hp.values _ (mem_of_lookup_eq_some hw)

/-- What is negated or passed on has the spec of the result. -/
theorem lowerOperands_typed {node : Node} {op : OpKind} {refs : List ValueRef}
    {spec : TensorSpec} (hp : p.Typed src.inputs)
    (h : lowerOperands src p node op = .ok (refs, spec)) (hop : op = .neg ∨ op = .identity) :
    ∀ r ∈ refs, r.specIn src.inputs p.body = some spec := by
  unfold lowerOperands at h
  obtain ⟨⟨origin, first⟩, hfirst, h⟩ := except_bind_eq_ok.1 h
  have htyped := operand_typed hp hfirst
  rcases hop with rfl | rfl
  · cases h
    simpa using htyped
  · cases h
    simpa using htyped

/-- **An instruction is added** whose operands come before it, and whose spec is remembered. -/
theorem lowerOp_typed {node : Node} (hp : p.Typed src.inputs) (h : lowerOp src p node = .ok q) :
    q.Typed src.inputs := by
  unfold lowerOp at h
  split at h
  · cases h
  · rename_i op _
    obtain ⟨⟨refs, spec⟩, hrefs, h⟩ := except_bind_eq_ok.1 h
    cases h
    refine ⟨fun i hi hunary r hr => ?_, fun e he => ?_, fun e he =>
      ValueRef.specIn_append (hp.outputs e he)⟩
    · rcases List.mem_append.1 hi with hi | hi
      · exact ValueRef.specIn_append (hp.body i hi hunary r hr)
      · rw [List.mem_singleton] at hi
        subst hi
        exact ValueRef.specIn_append (lowerOperands_typed hp hrefs hunary r hr)
    · rcases List.mem_cons.1 he with rfl | he
      · simp [ValueRef.specIn]
      · exact ValueRef.specIn_append (hp.values e he)

/-- An input is remembered with its spec. -/
theorem lowerArg_typed {position : Nat} {node : Node} (hp : p.Typed src.inputs)
    (h : lowerArg src p position node = .ok q) : q.Typed src.inputs := by
  unfold lowerArg at h
  obtain ⟨index, -, h⟩ := except_bind_eq_ok.1 h
  split at h
  · cases h
  · rename_i spec hspec
    cases h
    refine ⟨hp.body, fun e he => ?_, hp.outputs⟩
    rcases List.mem_cons.1 he with rfl | he
    · exact hspec
    · exact hp.values e he

/-- An output is remembered with the spec of what it returns. -/
theorem lowerRetval_typed {node : Node} (hp : p.Typed src.inputs)
    (h : lowerRetval src p node = .ok q) : q.Typed src.inputs := by
  unfold lowerRetval at h
  obtain ⟨index, -, h⟩ := except_bind_eq_ok.1 h
  obtain ⟨⟨origin, v⟩, hv, h⟩ := except_bind_eq_ok.1 h
  have hspec := operand_typed hp hv
  cases h
  refine ⟨hp.body, hp.values, fun e he => ?_⟩
  rcases List.mem_cons.1 he with rfl | he
  · exact hspec
  · exact hp.outputs e he

/-- **One node**: what has been lowered stays typed. -/
theorem lowerNode_typed {position : Nat} (hp : p.Typed src.inputs)
    (h : lowerNode src p position = .ok q) : q.Typed src.inputs := by
  unfold lowerNode at h
  split at h
  · cases h
  · split at h
    · exact lowerArg_typed hp h
    · split at h
      · exact lowerRetval_typed hp h
      · exact lowerOp_typed hp h

/-- So it stays for all nodes in their order. By induction on the order. -/
theorem lowerNodes_typed {order : List Nat} (hp : p.Typed src.inputs)
    (h : lowerNodes src p order = .ok q) : q.Typed src.inputs := by
  induction order generalizing p with
  | nil =>
    cases h
    exact hp
  | cons position rest ih =>
    unfold lowerNodes at h
    obtain ⟨next, hnext, h⟩ := except_bind_eq_ok.1 h
    exact ih (lowerNode_typed hp hnext) h

theorem mapM_lookup_mem {l : List (Nat × Lowered)} {positions : List Nat} {vs : List Lowered}
    (h : positions.mapM (fun index => match l.lookup index with
      | some v => .ok v
      | none => .error (.noOutput index)) = Except.ok (ε := LoweringFault) vs) :
    ∀ v ∈ vs, ∃ e ∈ l, e.2 = v := by
  intro v hv
  obtain ⟨k, hk, rfl⟩ := List.getElem_of_mem hv
  have hall := except_mapM_eq_ok.1 h
  have hindex := hall.get (by rw [hall.length_eq]; exact hk) hk
  rw [List.get_eq_getElem, List.get_eq_getElem] at hindex
  split at hindex
  · rename_i w hw
    cases hindex
    exact ⟨_, mem_of_lookup_eq_some hw, rfl⟩
  · cases hindex

/-- What is collected has the specs that are returned with it. -/
theorem collectOutputs_typed {inputs : List TensorSpec} {outputs : List Lowered}
    (hp : p.Typed inputs) (h : collectOutputs p = .ok outputs) :
    ∀ v ∈ outputs, v.ref.specIn inputs p.body = some v.spec := by
  intro v hv
  obtain ⟨e, he, rfl⟩ := mapM_lookup_mem h v hv
  exact hp.outputs e he

/-- What a function that was lowered consists of. -/
theorem lower_eq_ok {g : Graph} {inputs : List TensorSpec} {statics : List (Option Tensor)}
    {f : Function} (h : g.lower inputs statics = .ok f) :
    ∃ order p outputs, g.topologicalOrder = .ok order ∧
      lowerNodes ⟨g, inputs, statics⟩ .start order = .ok p ∧ collectOutputs p = .ok outputs ∧
      f.parameters = inputs ∧ f.body = p.body ∧ f.results = outputs.map (·.spec) ∧
      f.outputs = outputs.map (·.ref) ∧ f.validate = .ok () := by
  unfold Graph.lower at h
  obtain ⟨order, horder, h⟩ := except_bind_eq_ok.1 h
  obtain ⟨p, hp, h⟩ := except_bind_eq_ok.1 h
  obtain ⟨outputs, houtputs, h⟩ := except_bind_eq_ok.1 h
  obtain ⟨⟨⟩, hvalid, h⟩ := except_bind_eq_ok.1 h
  cases h
  exact ⟨order, p, outputs, mapError_eq_ok.1 horder, hp, houtputs, rfl, rfl, rfl, rfl,
    mapError_eq_ok.1 hvalid⟩

/-- **What lowering makes is typed**, and its parameters are the inputs. -/
theorem lower_typed {g : Graph} {inputs : List TensorSpec} {statics : List (Option Tensor)}
    {f : Function} (h : g.lower inputs statics = .ok f) : f.Typed ∧ f.parameters = inputs := by
  obtain ⟨order, p, outputs, -, hp, houtputs, hparameters, hbody, hresults, hrefs, -⟩ :=
    lower_eq_ok h
  have htyped := lowerNodes_typed (Progress.typed_start inputs) hp
  refine ⟨⟨?_, ?_⟩, hparameters⟩
  · intro i hi hunary r hr
    unfold Function.specOf
    rw [hparameters, hbody]
    exact htyped.body i (hbody ▸ hi) hunary r hr
  · rw [hresults, hrefs, List.map_map, List.map_map]
    refine List.map_congr_left fun v hv => ?_
    unfold Function.comp Function.specOf
    rw [hparameters, hbody]
    exact collectOutputs_typed htyped houtputs v hv

/-! ### Outputs and results -/

/-- The greatest of some numbers, and one more, is above each of them. -/
theorem lt_foldl_max {β : Type} (f : β → Nat) {l : List β} {b : β} (h : b ∈ l) (n : Nat) :
    f b < l.foldl (fun n o => max n (f o + 1)) n := by
  have hle : ∀ (l : List β) (n : Nat), n ≤ l.foldl (fun n o => max n (f o + 1)) n := by
    intro l
    induction l with
    | nil => exact fun n => Nat.le_refl n
    | cons o rest ih => exact fun n => Nat.le_trans (Nat.le_max_left n _) (ih _)
  induction l generalizing n with
  | nil => cases h
  | cons o rest ih =>
    rcases List.mem_cons.1 h with rfl | h
    · exact Nat.lt_of_lt_of_le (Nat.lt_succ_self _) (Nat.le_trans (Nat.le_max_right n _) (hle rest _))
    · exact ih h _

/-- There is room for every output. -/
theorem lt_outputCount {p : Progress} {e : Nat × Lowered} (h : e ∈ p.outputs) :
    e.1 < outputCount p :=
  lt_foldl_max Prod.fst h 0

/-- Outputs stay there, and an output is there when its node has been lowered. -/
theorem lowerNode_outputs_ne_nil {src : Source} {p q : Progress} {position : Nat}
    (h : lowerNode src p position = .ok q) (hne : p.outputs ≠ [] ∨
      ∃ node, src.graph.node? position = some node ∧ node.isRetval = true) : q.outputs ≠ [] := by
  unfold lowerNode at h
  split at h
  · cases h
  · rename_i node hnode
    -- Only the node of a result adds an output, and no node drops one.
    have hretval : node.isRetval = false → p.outputs ≠ [] := fun hnot => by
      rcases hne with hne | ⟨node', hnode', hretval⟩
      · exact hne
      · obtain rfl := Option.some.inj (hnode.symm.trans hnode')
        rw [hnot] at hretval
        cases hretval
    split at h
    · rename_i harg
      have hnot : node.isRetval = false := by
        simp only [Node.isArg, decide_eq_true_eq] at harg
        simp [Node.isRetval, harg]
      unfold lowerArg at h
      obtain ⟨index, -, h⟩ := except_bind_eq_ok.1 h
      split at h
      · cases h
      · cases h
        exact hretval hnot
    · split at h
      · unfold lowerRetval at h
        obtain ⟨index, -, h⟩ := except_bind_eq_ok.1 h
        obtain ⟨v, -, h⟩ := except_bind_eq_ok.1 h
        cases h
        exact List.cons_ne_nil _ _
      · rename_i hnot
        unfold lowerOp at h
        split at h
        · cases h
        · obtain ⟨v, -, h⟩ := except_bind_eq_ok.1 h
          cases h
          exact hretval (Bool.not_eq_true _ ▸ hnot)

/-- There is an output when all nodes have been lowered and one of them is one. By induction on the
order. -/
theorem lowerNodes_outputs_ne_nil {src : Source} {p q : Progress} {order : List Nat}
    (h : lowerNodes src p order = .ok q) (hne : p.outputs ≠ [] ∨ ∃ position ∈ order, ∃ node,
      src.graph.node? position = some node ∧ node.isRetval = true) : q.outputs ≠ [] := by
  induction order generalizing p with
  | nil =>
    cases h
    rcases hne with hne | ⟨position, hmem, -⟩
    · exact hne
    · cases hmem
  | cons position rest ih =>
    unfold lowerNodes at h
    obtain ⟨next, hnext, h⟩ := except_bind_eq_ok.1 h
    refine ih h ?_
    rcases hne with hne | ⟨position', hmem, hnode⟩
    · exact .inl (lowerNode_outputs_ne_nil hnext (.inl hne))
    · rcases List.mem_cons.1 hmem with rfl | hmem
      · exact .inl (lowerNode_outputs_ne_nil hnext (.inr hnode))
      · exact .inr ⟨position', hmem, hnode⟩

/-- **A graph with an output has a function with a result.** -/
theorem lower_results_ne_nil {g : Graph} {inputs : List TensorSpec} {statics : List (Option Tensor)}
    {f : Function} (h : g.lower inputs statics = .ok f) {node : Node} (hnode : node ∈ g.nodes)
    (hretval : node.isRetval = true) : f.results ≠ [] := by
  obtain ⟨order, p, outputs, horder, hp, houtputs, -, -, hresults, -⟩ := lower_eq_ok h
  obtain ⟨position, hposition⟩ := List.getElem?_of_mem hnode
  have hmem : position ∈ order := by
    refine (Graph.topologicalOrder_perm horder).mem_iff.2 (List.mem_range.2 ?_)
    exact (List.getElem?_eq_some_iff.1 hposition).1
  have hne := lowerNodes_outputs_ne_nil hp (.inr ⟨position, hmem, node, hposition, hretval⟩)
  -- The greatest position is among those that are collected.
  have hcount : outputCount p ≠ 0 := by
    obtain ⟨o, rest, ho⟩ := List.exists_cons_of_ne_nil hne
    have hlt : o.1 < outputCount p := lt_outputCount (ho ▸ List.mem_cons_self)
    exact Nat.ne_of_gt (Nat.lt_of_le_of_lt (Nat.zero_le _) hlt)
  rw [hresults]
  intro hnil
  obtain rfl := List.map_eq_nil_iff.1 hnil
  obtain ⟨n, hn⟩ := Nat.exists_eq_succ_of_ne_zero hcount
  unfold collectOutputs at houtputs
  rw [hn, List.range_succ_eq_map, List.mapM_cons] at houtputs
  obtain ⟨v, -, houtputs⟩ := except_bind_eq_ok.1 houtputs
  obtain ⟨vs, -, houtputs⟩ := except_bind_eq_ok.1 houtputs
  cases houtputs

end Lowering

end TensorJit
