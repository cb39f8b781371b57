import TensorJit.Proofs.Function.Progress
import TensorJit.Proofs.Lowering.Operands

/-!
# Lowering makes instructions that are fed

An operation takes its operands from the table of lowered values, and what is in the table is
declared before (`Lowering.Progress.Typed`). The operands of a sum, a difference or a product have
been compared, and the target of a reshape has as many elements as its operand; so the instruction
is fed by those before it (`Lowering.Operands.fed`), and lowering keeps this
(`Lowering.Progress.Fed`). **A lowered function consists of fed instructions**
(`Lowering.lower_fed`), whether or not it is looked at again.
-/

namespace TensorJit

namespace Lowering

variable {src : Source} {p q : Progress}

/-- **The operands of an operation feed its instruction.** -/
theorem Operands.fed {node : Node} {op : OpKind} {refs : List ValueRef} {spec : TensorSpec}
    (hp : p.Typed src.inputs) (h : Operands src p node op refs spec) :
    (⟨op, refs, spec⟩ : Instruction).Fed src.inputs p.body := by
  cases h with
  | @pair _ _ _ first second hop hfirst hsecond hspec =>
    refine ⟨hop.symm, fun r hr => ?_⟩
    rcases List.mem_cons.1 hr with rfl | hr
    · exact ⟨first.spec, operand_typed hp hfirst, rfl, rfl⟩
    · obtain rfl := List.mem_singleton.1 hr
      exact ⟨first.spec, hspec ▸ operand_typed hp hsecond, rfl, rfl⟩
  | @same _ _ first hop hfirst =>
    have harity : op.arity = 1 := by rcases hop with rfl | rfl <;> rfl
    refine ⟨harity.symm, fun r hr => ?_⟩
    obtain rfl := List.mem_singleton.1 hr
    exact ⟨first.spec, operand_typed hp hfirst, rfl, rfl⟩
  | @reshape _ first target hfirst htarget =>
    refine ⟨rfl, fun r hr => ?_⟩
    obtain rfl := List.mem_singleton.1 hr
    exact ⟨first.spec, operand_typed hp hfirst, rfl, (elements_of_reshapeTarget htarget).symm⟩

/-- What has been lowered is typed, and its instructions are fed. -/
structure Progress.Fed (inputs : List TensorSpec) (p : Progress) : Prop
    extends p.Typed inputs where
  /-- Every instruction is fed by those before it. -/
  instructions : FedBody inputs p.body

/-- **One node** keeps instructions fed. -/
theorem Progress.Fed.lowerNode {position : Nat} (hp : p.Fed src.inputs)
    (h : lowerNode src p position = .ok q) : q.Fed src.inputs := by
  refine ⟨lowerNode_typed hp.toTyped h, ?_⟩
  cases stepped_of_lowerNode h with
  | arg => exact hp.instructions
  | retval => exact hp.instructions
  | op hnode hop hrefs =>
    exact hp.instructions.append ((lowerOperands_eq_ok_iff.1 hrefs).fed hp.toTyped)

theorem lowerNodes_fed {order : List Nat} (hp : p.Fed src.inputs)
    (h : lowerNodes src p order = .ok q) : q.Fed src.inputs := by
  induction order generalizing p with
  | nil =>
    cases h
    exact hp
  | cons position rest ih =>
    rw [lowerNodes] at h
    obtain ⟨next, hnext, h⟩ := except_bind_eq_ok.1 h
    exact ih (hp.lowerNode hnext) h

theorem fed_start (inputs : List TensorSpec) : Progress.start.Fed inputs :=
  ⟨Progress.typed_start inputs, nofun⟩

/-- A function is fed if it is made of what has been lowered and of the outputs collected. -/
theorem fed_of_collected {f : Function} {inputs : List TensorSpec} {outputs : List Lowered}
    (hp : p.Fed inputs) (houtputs : collectOutputs p = .ok outputs)
    (hparameters : f.parameters = inputs) (hbody : f.body = p.body)
    (hresults : f.results = outputs.map (·.spec)) (hrefs : f.outputs = outputs.map (·.ref)) :
    f.Fed := by
  refine ⟨?_, ?_⟩
  · rw [hparameters, hbody]
    exact hp.instructions
  · rw [hresults, hrefs, List.map_map, List.map_map]
    refine List.map_congr_left fun v hv => ?_
    simp only [Function.comp, Function.specOf]
    rw [hparameters, hbody]
    exact collectOutputs_typed hp.toTyped houtputs v hv

/-- **A lowered function is fed.** -/
theorem lower_fed {g : Graph} {inputs : List TensorSpec} {statics : List (Option Tensor)}
    {f : Function} (h : g.lower inputs statics = .ok f) : f.Fed := by
  obtain ⟨order, p, outputs, -, hp, houtputs, hparameters, hbody, hresults, hrefs, -⟩ :=
    lower_eq_ok h
  have hfed : p.Fed inputs := lowerNodes_fed (fed_start inputs) hp
  exact fed_of_collected hfed houtputs hparameters hbody hresults hrefs

end Lowering

end TensorJit
