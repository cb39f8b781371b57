import TensorJit.Proofs.Lowering.Steps

/-!
# The operands of an operation

Which operands an operation takes, and which spec its result has, follows one of three rules
(`Lowering.Operands`), and lowering goes by these rules exactly (`Lowering.lowerOperands_eq_ok_iff`):

| operation | operands | spec of the result |
|---|---|---|
| sum, difference, product | those of slots 0 and 1, of one spec | that of the operands |
| change of sign, identity | that of slot 0 | that of the operand |
| reshape | that of slot 0 | its element type, with the target as shape |

A target is **read off the static tensor at the input that feeds slot 1**
(`Lowering.reshapeTarget_eq_ok_iff`), and has as many elements as the operand.
-/

namespace TensorJit

namespace Lowering

variable {src : Source} {p : Progress} {node : Node}

/-! ### Targets -/

/-- A target has as many elements as what is reshaped. -/
theorem elements_of_resolveTarget {name : String} {elements : Nat} {requested : List Int}
    {target : Shape} (h : resolveTarget name elements requested = .ok target) :
    target.elements = elements := by
  rw [resolveTarget] at h
  obtain ⟨dims, -, h⟩ := except_bind_eq_ok.1 h
  split at h
  · rename_i helements
    exact Except.ok.inj h ▸ helements
  · cases h

/-- **Where a target is read.** -/
theorem reshapeTarget_eq_ok_iff {elements : Nat} {target : Shape} :
    reshapeTarget src p node elements = .ok target ↔
      ∃ origin v arg index t requested, operand src p node 1 = .ok (origin, v) ∧
        src.graph.node? origin = some arg ∧ arg.isArg = true ∧ arg.index = .ok index ∧
        src.statics[index]? = some (some t) ∧ t.integers = .ok requested ∧
        resolveTarget node.name elements requested = .ok target := by
  rw [reshapeTarget, except_bind_eq_ok]
  constructor
  · rintro ⟨⟨origin, v⟩, hv, h⟩
    dsimp only at h
    split at h
    · cases h
    · rename_i arg harg
      obtain ⟨hnode, hisArg⟩ := Option.filter_eq_some_iff.1 harg
      obtain ⟨index, hindex, h⟩ := except_bind_eq_ok.1 h
      split at h
      · rename_i t ht
        obtain ⟨requested, hrequested, h⟩ := except_bind_eq_ok.1 h
        exact ⟨origin, v, arg, index, t, requested, hv, hnode, hisArg, mapError_eq_ok.1 hindex, ht,
          mapError_eq_ok.1 hrequested, h⟩
      · cases h
  · rintro ⟨origin, v, arg, index, t, requested, hv, hnode, hisArg, hindex, ht, hrequested, h⟩
    refine ⟨(origin, v), hv, ?_⟩
    have harg : (src.graph.node? origin).filter Node.isArg = some arg :=
      Option.filter_eq_some_iff.2 ⟨hnode, hisArg⟩
    simp only [harg]
    refine except_bind_eq_ok.2 ⟨index, mapError_eq_ok.2 hindex, ?_⟩
    simp only [ht]
    exact except_bind_eq_ok.2 ⟨requested, mapError_eq_ok.2 hrequested, h⟩

theorem elements_of_reshapeTarget {elements : Nat} {target : Shape}
    (h : reshapeTarget src p node elements = .ok target) : target.elements = elements := by
  obtain ⟨_, _, _, _, _, _, -, -, -, -, -, -, h⟩ := reshapeTarget_eq_ok_iff.1 h
  exact elements_of_resolveTarget h

/-! ### Operands -/

/-- The operands of an operation and the spec of its result: one rule for each kind of operation. -/
inductive Operands (src : Source) (p : Progress) (node : Node) :
    OpKind → List ValueRef → TensorSpec → Prop
  /-- Two operands of one spec. -/
  | pair {op : OpKind} {origin origin' : Nat} {first second : Lowered} (hop : op.arity = 2)
      (hfirst : operand src p node 0 = .ok (origin, first))
      (hsecond : operand src p node 1 = .ok (origin', second)) (hspec : first.spec = second.spec) :
      Operands src p node op [first.ref, second.ref] first.spec
  /-- One operand. -/
  | same {op : OpKind} {origin : Nat} {first : Lowered} (hop : op = .neg ∨ op = .identity)
      (hfirst : operand src p node 0 = .ok (origin, first)) :
      Operands src p node op [first.ref] first.spec
  /-- One operand, in the shape of the target. -/
  | reshape {origin : Nat} {first : Lowered} {target : Shape}
      (hfirst : operand src p node 0 = .ok (origin, first))
      (htarget : reshapeTarget src p node first.spec.elements = .ok target) :
      Operands src p node .reshape [first.ref] ⟨first.spec.dtype, target⟩

/-- The operands are those of the first slots, as many as the operation takes. -/
theorem Operands.slots {op : OpKind} {refs : List ValueRef} {spec : TensorSpec}
    (h : Operands src p node op refs spec) : ∃ origin first,
      operand src p node 0 = .ok (origin, first) ∧
        (op.arity = 1 ∧ refs = [first.ref] ∨ ∃ origin' second,
          operand src p node 1 = .ok (origin', second) ∧ op.arity = 2 ∧
            refs = [first.ref, second.ref]) := by
  cases h with
  | pair hop hfirst hsecond => exact ⟨_, _, hfirst, .inr ⟨_, _, hsecond, hop, rfl⟩⟩
  | same hop hfirst =>
    have harity : op.arity = 1 := by rcases hop with rfl | rfl <;> rfl
    exact ⟨_, _, hfirst, .inl ⟨harity, rfl⟩⟩
  | reshape hfirst => exact ⟨_, _, hfirst, .inl ⟨rfl, rfl⟩⟩

/-- **Lowering takes operands by the rule of the operation.** -/
theorem lowerOperands_eq_ok_iff {op : OpKind} {refs : List ValueRef} {spec : TensorSpec} :
    lowerOperands src p node op = .ok (refs, spec) ↔ Operands src p node op refs spec := by
  constructor
  · intro h
    rw [lowerOperands] at h
    obtain ⟨⟨origin, first⟩, hfirst, h⟩ := except_bind_eq_ok.1 h
    cases op with
    | add | sub | mul =>
      obtain ⟨⟨origin', second⟩, hsecond, h⟩ := except_bind_eq_ok.1 h
      dsimp only at h
      split at h
      · rename_i hspec
        cases h
        exact .pair rfl hfirst hsecond hspec
      · cases h
    | neg =>
      cases h
      exact .same (.inl rfl) hfirst
    | identity =>
      cases h
      exact .same (.inr rfl) hfirst
    | reshape =>
      obtain ⟨target, htarget, h⟩ := except_bind_eq_ok.1 h
      cases h
      exact .reshape hfirst htarget
  · intro h
    rw [lowerOperands]
    cases h with
    | @pair _ _ origin' first second hop hfirst hsecond hspec =>
      refine except_bind_eq_ok.2 ⟨_, hfirst, ?_⟩
      cases op with
      | add | sub | mul =>
        refine except_bind_eq_ok.2 ⟨_, hsecond, ?_⟩
        exact if_pos hspec
      | neg | identity | reshape => cases hop
    | same hop hfirst =>
      refine except_bind_eq_ok.2 ⟨_, hfirst, ?_⟩
      rcases hop with rfl | rfl
      · rfl
      · rfl
    | reshape hfirst htarget =>
      refine except_bind_eq_ok.2 ⟨_, hfirst, ?_⟩
      exact except_bind_eq_ok.2 ⟨_, htarget, rfl⟩

end Lowering

end TensorJit
