import Mathlib.Algebra.Group.Nat.Defs
import TensorJit.Executor.Basic
import TensorJit.Proofs.Lowerable

/-!
# What a reshape is lowered to

When lowering comes to a reshape (`Lowering.Arrives`), the nodes in front of it have been lowered,
it has an operand, and the static tensor that names the target stands at an input. From then on
**the integers of this tensor and the number of elements of the operand decide**: the target is what
they come to (`Lowering.Resolves`), and if they come to nothing the graph is refused, for one of two
reasons (`Lowering.Refused`).

| request | what is found |
|---|---|
| a second `-1`, another dimension below zero, or a zero beside `-1` | the dimension |
| a remainder, or another product | the number of elements |

The products are those of machine integers as long as the request itself does not overflow: what is
left for the open dimension divides the elements, so that no prefix of the target has more of them
than there are (`Lowering.elements_take_targetDims_lt`).
-/

namespace TensorJit

namespace Lowering

variable {src : Source} {p : Progress} {position : Nat} {node : Node} {first : Lowered}
  {t : Tensor} {requested : List Int} {name : String} {elements : Nat}

/-! ### Products that fit -/

theorem elements_take_dvd (s : Shape) (k : Nat) : Shape.elements (s.take k) ∣ s.elements := by
  refine ⟨Shape.elements (s.drop k), ?_⟩
  rw [← elements_append, List.take_append_drop]

theorem take_request (s : Shape) (k : Nat) : (request s).take k = request (s.take k) :=
  List.map_take.symm

/-- **No prefix of a target overflows** if no prefix of the request does. -/
theorem elements_take_targetDims_lt {dims : Shape}
    (hrequested : ∀ k, knownElements (requested.take k) < 2 ^ 63) (helements : elements < 2 ^ 64)
    (h : targetDims name elements (knownElements requested) false requested = .ok dims) (k : Nat) :
    Shape.elements (dims.take k) < 2 ^ 64 := by
  rcases targetDims_false_eq_ok_iff.1 h with rfl | ⟨hpos, before, after, rfl, rfl⟩
  · have hlt := hrequested k
    rw [take_request, knownElements_request] at hlt
    omega
  · have hknown := hrequested (request before ++ -1 :: request after).length
    rw [List.take_length] at hknown
    rw [knownElements_inferred] at hpos hknown ⊢
    generalize hothers : Shape.elements (before ++ after) = others at hpos hknown ⊢
    -- In front of the open dimension the product divides that of the given ones.
    rcases Nat.le_total k before.length with hk | hk
    · rw [List.take_append_of_le_length hk]
      have hdvd : Shape.elements (before.take k) ∣ others := by
        rw [← hothers, elements_append]
        exact Nat.dvd_trans (elements_take_dvd before k) (Nat.dvd_mul_right _ _)
      have hle := Nat.le_of_dvd hpos hdvd
      omega
    · obtain ⟨j, rfl⟩ := Nat.exists_eq_add_of_le hk
      rw [List.take_length_add_append]
      cases j with
      | zero =>
        have hdvd : before.elements ∣ others := by
          rw [← hothers, elements_append]
          exact Nat.dvd_mul_right _ _
        have hle := Nat.le_of_dvd hpos hdvd
        rw [List.take_zero, List.append_nil]
        omega
      | succ j =>
        -- Behind it there is one more factor, and the whole is no more than there are elements.
        have hdvd : Shape.elements (before ++ after.take j) ∣ others := by
          rw [← hothers, elements_append, elements_append]
          exact Nat.mul_dvd_mul_left _ (elements_take_dvd after j)
        rw [List.take_succ_cons, elements_insert]
        calc elements / others * Shape.elements (before ++ after.take j)
            ≤ elements / others * others := Nat.mul_le_mul_left _ (Nat.le_of_dvd hpos hdvd)
          _ ≤ elements := Nat.div_mul_le_self _ _
          _ < 2 ^ 64 := helements

/-! ### Where lowering comes to a reshape -/

/-- Lowering comes to a reshape: the nodes in front of it have been lowered, its operand is there,
and `t` stands at the input that its target comes from. -/
structure Arrives (src : Source) (position : Nat) (p : Progress) (node : Node) (first : Lowered)
    (t : Tensor) : Prop where
  /-- What has been lowered is all that stands in front of it. -/
  lowered : ∃ before after, src.graph.topologicalOrder = .ok (before ++ position :: after) ∧
    lowerNodes src .start before = .ok p
  /-- The node is a reshape. -/
  reshape : src.graph.node? position = some node ∧ OpKind.ofTag? node.op = some .reshape
  /-- What is reshaped. -/
  data : ∃ origin, operand src p node 0 = .ok (origin, first)
  /-- Where the target comes from. -/
  target : ∃ origin v arg index, operand src p node 1 = .ok (origin, v) ∧
    src.graph.node? origin = some arg ∧ arg.isArg = true ∧ arg.index = .ok index ∧
    src.statics[index]? = some (some t)

namespace Arrives

/-- The target is resolved from the integers of the tensor. -/
theorem reshapeTarget_eq (h : Arrives src position p node first t)
    (hrequested : t.integers = .ok requested) :
    reshapeTarget src p node elements = resolveTarget node.name elements requested := by
  obtain ⟨origin, v, arg, index, hv, horigin, harg, hindex, hstatic⟩ := h.target
  have hfilter : (src.graph.node? origin).filter Node.isArg = some arg :=
    Option.filter_eq_some_iff.2 ⟨horigin, harg⟩
  rw [reshapeTarget, hv]
  simp only [Except.bind, bind, hfilter, hindex, hstatic, hrequested, Except.mapError]

/-- **A target lets the reshape be lowered.** -/
theorem lowerNode_eq (h : Arrives src position p node first t) {s : Shape}
    (hs : reshapeTarget src p node first.spec.elements = .ok s) :
    lowerNode src p position = .ok
      { p with
        body := p.body ++ [⟨.reshape, [first.ref], ⟨first.spec.dtype, s⟩⟩]
        values := ((node.id, 0), ⟨.instruction p.body.length, ⟨first.spec.dtype, s⟩⟩) ::
          p.values } := by
  obtain ⟨origin, hfirst⟩ := h.data
  refine lowerNode_of_stepped (.op h.reshape.1 h.reshape.2 ?_)
  exact lowerOperands_eq_ok_iff.2 (.reshape hfirst hs)

/-- **Without a target the graph cannot be lowered**, for the same reason. -/
theorem lower_eq_error (h : Arrives src position p node first t) {fault : LoweringFault}
    (hfault : reshapeTarget src p node first.spec.elements = .error fault) :
    src.graph.lower src.inputs src.statics = .error fault := by
  obtain ⟨before, after, horder, hbefore⟩ := h.lowered
  obtain ⟨hnode, hop⟩ := h.reshape
  obtain ⟨origin, hfirst⟩ := h.data
  obtain ⟨hnotArg, hnotRetval⟩ := OpKind.isOp_of_ofTag?_eq_some hop
  have hoperands : lowerOperands src p node .reshape = .error fault :=
    except_bind_eq_error.2 (.inr ⟨_, hfirst, except_bind_eq_error.2 (.inl hfault)⟩)
  have hlower : lowerNode src p position = .error fault := by
    simp only [lowerNode, hnode, hnotArg, hnotRetval, Bool.false_eq_true, if_false, lowerOp, hop]
    exact except_bind_eq_error.2 (.inl hoperands)
  have hnodes : lowerNodes src .start (before ++ position :: after) = .error fault :=
    lowerNodes_eq_error_iff.2 ⟨before, position, after, p, rfl, hbefore, hlower⟩
  exact except_bind_eq_error.2
    (.inr ⟨_, mapError_eq_ok.2 horder, except_bind_eq_error.2 (.inl hnodes)⟩)

end Arrives

/-- A reason for which a request is refused is one for which the graph is malformed. -/
theorem Refused.ofLoweringFault_eq {fault : LoweringFault}
    (h : Refused name elements requested fault) :
    Error.ofLoweringFault fault = .construction (.lowering fault) := by
  cases h with
  | dimension => rfl
  | count => rfl

end Lowering

/-! ### Exact targets -/

open Lowering in
/-- **Targets are exact.** Lowering comes to a reshape whose target is a tensor of integers. Then
the target is found if and only if the integers come to one for the number of elements of the
operand; it has as many elements, and the reshape becomes an instruction of this shape. In all other
cases the graph is refused as malformed. If the prefixes of the request and the elements fit in
machine integers, so does every product on the way. -/
theorem targets_exact {src : Source} {position : Nat} {p : Progress} {node : Node}
    {first : Lowered} {t : Tensor} (h : Arrives src position p node first t)
    (hdtype : t.spec.dtype ∈ [DType.i32, .i64, .u8]) :
    ∃ requested, t.integers = .ok requested ∧
      (∀ s, reshapeTarget src p node first.spec.elements = .ok s ↔
        Resolves first.spec.elements requested s) ∧
      (∀ s, Resolves first.spec.elements requested s →
        s.elements = first.spec.elements ∧ lowerNode src p position = .ok
          { p with
            body := p.body ++ [⟨.reshape, [first.ref], ⟨first.spec.dtype, s⟩⟩]
            values := ((node.id, 0), ⟨.instruction p.body.length, ⟨first.spec.dtype, s⟩⟩) ::
              p.values }) ∧
      ((∀ s, ¬ Resolves first.spec.elements requested s) →
        ∃ fault, Refused node.name first.spec.elements requested fault ∧
          Translator.lowering src.graph src.inputs src.statics =
            .error (.construction (.lowering fault))) ∧
      ((∀ k, knownElements (requested.take k) < 2 ^ 63) → first.spec.elements < 2 ^ 64 →
        ∀ dims, targetDims node.name first.spec.elements (knownElements requested) false requested =
          .ok dims → ∀ k, Shape.elements (dims.take k) < 2 ^ 64) := by
  obtain ⟨requested, hrequested⟩ := Tensor.exists_integers hdtype
  have htarget : ∀ s, reshapeTarget src p node first.spec.elements = .ok s ↔
      Resolves first.spec.elements requested s := by
    intro s
    rw [h.reshapeTarget_eq hrequested, resolveTarget_eq_ok_iff]
  refine ⟨requested, hrequested, htarget, fun s hs => ?_, fun hnone => ?_,
    fun hfits helements dims hdims k => elements_take_targetDims_lt hfits helements hdims k⟩
  · exact ⟨elements_of_reshapeTarget ((htarget s).2 hs), h.lowerNode_eq ((htarget s).2 hs)⟩
  · obtain ⟨fault, hrefused, hfault⟩ := refused_of_not_resolves hnone
    rw [← h.reshapeTarget_eq hrequested] at hfault
    refine ⟨fault, hrefused, ?_⟩
    rw [← hrefused.ofLoweringFault_eq]
    exact mapError_eq_error.2 ⟨fault, h.lower_eq_error hfault, rfl⟩

/-- Lowering comes to the reshape of the sample graph, whatever is reshaped and requested. -/
theorem arrives_sampleReshape (spec : TensorSpec) (t : Tensor) :
    Lowering.Arrives ⟨.sampleReshape, [spec, t.spec], [none, some t]⟩ 2
      ⟨[], [((1, 0), ⟨.parameter 1, t.spec⟩), ((0, 0), ⟨.parameter 0, spec⟩)], []⟩
      ⟨2, "reshape", "Reshape", .empty⟩ ⟨.parameter 0, spec⟩ t := by
  have horder : Graph.sampleReshape.topologicalOrder = .ok ([0, 1] ++ 2 :: [3]) := by
    decide +kernel
  exact
    { lowered := ⟨[0, 1], [3], horder, rfl⟩
      reshape := ⟨rfl, by decide⟩
      data := ⟨0, rfl⟩
      target := ⟨1, ⟨.parameter 1, t.spec⟩, _, 1, rfl, rfl, rfl, rfl, rfl⟩ }

/-- The request for rows of some length, as many as it takes. -/
def Tensor.sampleRows (length : UInt8) : Tensor :=
  ⟨⟨.i32, [2]⟩, [255, 255, 255, 255, length, 0, 0, 0]⟩

/-- Six elements make three rows of two, but they do not make four; and into rows of length zero not
even no elements are put, since there might be any number of them. -/
theorem targets_of_sampleReshape :
    Lowering.reshapeTarget
        ⟨.sampleReshape, [⟨.f32, [2, 3]⟩, ⟨.i32, [2]⟩], [none, some (.sampleRows 2)]⟩
        ⟨[], [((1, 0), ⟨.parameter 1, ⟨.i32, [2]⟩⟩), ((0, 0), ⟨.parameter 0, ⟨.f32, [2, 3]⟩⟩)], []⟩
        ⟨2, "reshape", "Reshape", .empty⟩ 6 = .ok [3, 2] ∧
    (∃ fault, Translator.lowering .sampleReshape [⟨.f32, [2, 3]⟩, ⟨.u8, [1]⟩]
      [none, some ⟨⟨.u8, [1]⟩, [4]⟩] = .error (.construction (.lowering fault))) ∧
    ∃ fault, Translator.lowering .sampleReshape [⟨.f32, [0]⟩, ⟨.i32, [2]⟩]
      [none, some (.sampleRows 0)] = .error (.construction (.lowering fault)) := by
  have htwo : (Tensor.sampleRows 2).integers = .ok [-1, 2] := by decide +kernel
  have hzero : (Tensor.sampleRows 0).integers = .ok [-1, 0] := by decide +kernel
  have hnone : ∀ elements requested fault,
      Lowering.resolveTarget "" elements requested = .error fault →
        ∀ s, ¬ Lowering.Resolves elements requested s := by
    intro elements requested fault h s hs
    rw [Lowering.resolveTarget_eq_ok_iff.2 hs] at h
    cases h
  refine ⟨?_, ?_, ?_⟩
  · obtain ⟨requested, hrequested, htarget, -⟩ :=
      targets_exact (arrives_sampleReshape ⟨.f32, [2, 3]⟩ (.sampleRows 2)) (by decide)
    obtain rfl := Except.ok.inj (htwo.symm.trans hrequested)
    have hresolves : Lowering.Resolves 6 (Lowering.request [] ++ -1 :: Lowering.request [2])
        ([] ++ 6 / Shape.elements ([] ++ [2]) :: [2]) := .inferred (by decide) (by decide)
    exact (htarget [3, 2]).2 hresolves
  · obtain ⟨requested, hrequested, -, -, hrefused, -⟩ :=
      targets_exact (arrives_sampleReshape ⟨.f32, [2, 3]⟩ ⟨⟨.u8, [1]⟩, [4]⟩) (by decide)
    obtain rfl : [4] = requested := Except.ok.inj hrequested
    obtain ⟨fault, -, hfault⟩ := hrefused (hnone 6 [4] (.badElementCount 6 [4] "") (by decide))
    exact ⟨fault, hfault⟩
  · obtain ⟨requested, hrequested, -, -, hrefused, -⟩ :=
      targets_exact (arrives_sampleReshape ⟨.f32, [0]⟩ (.sampleRows 0)) (by decide)
    obtain rfl := Except.ok.inj (hzero.symm.trans hrequested)
    obtain ⟨fault, -, hfault⟩ := hrefused (hnone 0 [-1, 0] (.badDimension (-1) "") (by decide))
    exact ⟨fault, hfault⟩

end TensorJit
