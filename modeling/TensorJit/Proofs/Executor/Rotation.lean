import TensorJit.Proofs.Executor.Changes
import TensorJit.Proofs.Executor.Overwriting

/-!
# Calls with one group after another

What a call with a group does depends on what its tensors held before, since inputs and results are
written over that. `Ran` says exactly what it does, and **whichever group is taken, what is behind the
results is left as it was** (`Worn`): how many bytes each result takes is told by the outlines of the
parameters, and these are those that the function declares (`ExecutionUnit.span`).

Whether a call goes through is a question of how long things are (`PipelineGroup.Carries`), so **what
one group can carry any other can** (`PipelineGroup.Carries.of_fits`). A call that has gone through
leaves its group at rest (`PipelineGroup.Rests`), and a call with another group then **leaves the same
bytes in the output buffers if nothing of what that group held before can be seen**
(`ExecM.Ran.storage_eq`).
-/

namespace TensorJit

open ExecState (OnlyMemory)

/-! ### What a group shows -/

/-- The tensors of a group that a call sees, which are none at positions bound elsewhere. -/
def visible (external : List Nat) (tensors : List TensorId) : List (Option TensorId) :=
  tensors.zipIdx.map fun w => if external.contains w.2 then none else some w.1

theorem getElem?_visible (external : List Nat) (tensors : List TensorId) (q : Nat) :
    (visible external tensors)[q]? = tensors[q]?.map fun x =>
      if external.contains q then none else some x := by
  unfold visible
  rw [List.getElem?_map, List.getElem?_zipIdx, Option.map_map, Nat.zero_add]
  rfl

theorem length_visible (external : List Nat) (tensors : List TensorId) :
    (visible external tensors).length = tensors.length := by
  unfold visible
  rw [List.length_map, List.length_zipIdx]

theorem visible_eq_some {external : List Nat} {tensors : List TensorId} {q : Nat} {x : TensorId} :
    (visible external tensors)[q]? = some (some x) ↔
      tensors[q]? = some x ∧ external.contains q = false := by
  rw [getElem?_visible]
  cases tensors[q]? with
  | none => simp
  | some y => cases external.contains q <;> simp

namespace ExecutionUnit

/-- The outlines of the parameters of a function, as a unit fills them from a group: positions bound
elsewhere and positions that are not floating point give no parameter. -/
def blanks (u : ExecutionUnit) (f : Function) : List (Option (Value Unit)) :=
  f.parameters.zipIdx.map fun w =>
    if u.externalInputs.contains w.2 = false ∧ w.1.dtype = .f32 then
      some ⟨w.1, List.replicate w.1.elements ()⟩ else none

/-- How many bytes a call with a group stores for a result; none if it stores nothing. -/
def span (u : ExecutionUnit) (f : Function) (p : Nat) : Nat :=
  match f.evaluate .blank (u.blanks f) with
  | .ok outlines => (outlines[p]?.map (·.data.length)).getD 0 * 4
  | .error _ => 0

end ExecutionUnit

namespace PipelineGroup

variable {m n : Memory} {f : Function} {g : PipelineGroup TensorId} {u : ExecutionUnit} {q : Nat}
  {x : TensorId}

/-- A tensor of a group holds as many bytes as the spec of its position asks for. -/
theorem Fits.length_contents (h : g.Fits m f) {side : Side} {spec : TensorSpec}
    (hx : (g.tensors side)[q]? = some x) (hspec : (f.specs side)[q]? = some spec) :
    (m.contents x).length = spec.byteLength := by
  obtain ⟨spec', hspec', -, -, hhome⟩ := h.tensors side q x hx
  cases hspec.symm.trans hspec'
  exact Memory.length_contents_of_home_own hhome

/-- **The outlines of the parameters** do not depend on the group. -/
theorem Fits.outlines (h : g.Fits m f) (u : ExecutionUnit) (mode : RecordingMode) :
    Value.outlines (Backend.parametersOf (.recording mode) m f.parameters
      (visible u.externalInputs g.inputs)) = u.blanks f := by
  refine List.ext_getElem? fun q => ?_
  unfold Value.outlines ExecutionUnit.blanks
  rw [List.getElem?_map, Backend.parametersOf_getElem?, List.getElem?_map, List.getElem?_zipIdx,
    Option.map_map, Option.map_map, Nat.zero_add]
  cases hspec : f.parameters[q]? with
  | none => rfl
  | some spec =>
    obtain ⟨x, hx, -, hxspec, hhome⟩ :=
      h.exists_tensor (show (f.specs .input)[q]? = some spec from hspec)
    change g.inputs[q]? = some x at hx
    rw [Option.map_some, Option.map_some, getElem?_visible, hx, Option.map_some]
    refine congrArg some ?_
    dsimp only [Function.comp_apply]
    cases u.externalInputs.contains q with
    | true => rfl
    | false =>
      rw [if_neg Bool.false_ne_true, Option.join_some, Option.bind_some,
        Backend.parameterOf_eq fun _ => hxspec.symm, hxspec]
      by_cases hdtype : spec.dtype = .f32
      · rw [if_pos hdtype, if_pos ⟨rfl, hdtype⟩, Option.map_some]
        refine congrArg some (Value.outline_eq_iff.2 ⟨rfl, ?_⟩)
        rw [Tensor.length_wordsOfBytes, Memory.length_contents_of_home_own hhome,
          List.length_replicate]
        unfold TensorSpec.byteLength
        rw [hdtype]
        exact Nat.mul_div_cancel _ (by decide)
      · rw [if_neg hdtype, if_neg fun hand => hdtype hand.2]
        rfl

end PipelineGroup

/-! ### Copying the inputs -/

/-- Between two states only these tensors have been touched, and the storages of the host. -/
structure ExecState.Handles (s : ExecState) (ids : List TensorId) (t : ExecState) : Prop where
  /-- Only memory has changed. -/
  only : s.OnlyMemory t.memory t
  /-- There are as many tensors. -/
  size : t.memory.tensors.size = s.memory.tensors.size
  /-- Other tensors are as they were. -/
  tensors : ∀ j, j ∉ ids → t.memory.tensor j = s.memory.tensor j

namespace ExecState.Handles

variable {s t u : ExecState} {ids ids' : List TensorId}

theorem refl (s : ExecState) (ids : List TensorId) : s.Handles ids s :=
  ⟨.of_untouched (.refl s), rfl, fun _ _ => rfl⟩

theorem trans (h : s.Handles ids t) (h' : t.Handles ids u) : s.Handles ids u :=
  ⟨h.only.trans h'.only, h'.size.trans h.size, fun j hj =>
    (h'.tensors j hj).trans (h.tensors j hj)⟩

theorem mono (h : s.Handles ids t) (hids : ∀ j ∈ ids, j ∈ ids') : s.Handles ids' t :=
  ⟨h.only, h.size, fun j hj => h.tensors j fun hmem => hj (hids j hmem)⟩

/-- A tensor is flagged. -/
theorem setStale {x : TensorId} {stale : Bool} (h : s.OnlyMemory (s.memory.setStale x stale) t)
    (hx : x ∈ ids) : s.Handles ids t := by
  refine ⟨h.memory.symm ▸ h, ?_, fun j hj => ?_⟩
  · rw [h.memory, Memory.size_tensors_setStale]
  · rw [h.memory, Memory.tensor_setStale_of_ne]
    rintro rfl
    exact hj hx

/-- Bytes are written to a tensor. -/
theorem setContents {x : TensorId} {bytes : Bytes}
    (h : s.OnlyMemory (s.memory.setContents x bytes) t) (hx : x ∈ ids) : s.Handles ids t := by
  refine ⟨h.memory.symm ▸ h, ?_, fun j hj => ?_⟩
  · rw [h.memory, Memory.size_tensors_setContents]
  · rw [h.memory, Memory.tensor_setContents_of_ne]
    rintro rfl
    exact hj hx

/-- Storages of the host are written to. -/
theorem of_tensors_eq (h : s.OnlyMemory t.memory t)
    (htensors : t.memory.tensors = s.memory.tensors) : s.Handles ids t := by
  refine ⟨h, congrArg _ htensors, fun j _ => ?_⟩
  unfold Memory.tensor
  rw [htensors]

end ExecState.Handles

/-- The first inputs of a call have been written over what the tensors of a group hold, and nothing
else has happened. -/
structure Overfed (s : ExecState) (g : PipelineGroup TensorId) (inputs : List HostBuffer)
    (count : Nat) (t : ExecState) : Prop extends ExecState.Handles s g.inputs t where
  /-- The storages of the host are equal. -/
  storages : t.memory.storages = s.memory.storages
  /-- The buffers have been copied to the tensors. -/
  fed : ∀ (q : Nat) (host : HostBuffer) (x : TensorId), q < count → inputs[q]? = some host →
    (visible s.executor.unit.externalInputs g.inputs)[q]? = some (some x) →
    s.memory.Copies x host ∧
      t.memory.contents x = (s.memory.copy x host).onto (s.memory.contents x)
  /-- Tensors of positions that are to come hold what they held. -/
  ahead : ∀ (q : Nat) (x : TensorId), count ≤ q → g.inputs[q]? = some x →
    t.memory.contents x = s.memory.contents x

namespace Overfed

variable {s t u : ExecState} {f : Function} {g : PipelineGroup TensorId} {inputs : List HostBuffer}
  {host : HostBuffer} {x : TensorId} {n : Nat}

/-- Storages of the host hold what they held. -/
theorem storage_eq (h : Overfed s g inputs n t) (j : StorageId) :
    t.memory.storage j = s.memory.storage j := by
  unfold Memory.storage
  rw [h.storages]

/-- The tensor of the next position can be copied to exactly if it could be at the start. -/
theorem copies_iff (h : Overfed s g inputs n t) (hg : g.Fits s.memory f)
    (hx : g.inputs[n]? = some x) : t.memory.Copies x host ↔ s.memory.Copies x host := by
  obtain ⟨-, -, hlive, -⟩ := hg.tensors .input n x hx
  have hspec := h.only.later.platform.memory.spec x hlive
  have hcontents := h.ahead n x (Nat.le_refl _) hx
  exact ⟨fun hcopies => hcopies.congr hspec.symm (h.storage_eq _).symm (by rw [hcontents]),
    fun hcopies => hcopies.congr hspec (h.storage_eq _) (by rw [hcontents])⟩

/-- A position that is bound elsewhere is passed over. -/
theorem passed (h : Overfed s g inputs n t)
    (hposition : s.executor.unit.externalInputs.contains n = true) :
    Overfed s g inputs (n + 1) t where
  toHandles := h.toHandles
  storages := h.storages
  fed q b y hq hb hy := by
    rcases Nat.lt_succ_iff_lt_or_eq.1 hq with hlt | rfl
    · exact h.fed q b y hlt hb hy
    · have hinside := (visible_eq_some.1 hy).2
      rw [hposition] at hinside
      cases hinside
  ahead q y hq := h.ahead q y (Nat.le_of_succ_le hq)

/-- The next input is written over what the tensor of its position holds. -/
theorem next (h : Overfed s g inputs n t) (hg : g.Fits s.memory f)
    (hhost : inputs[n]? = some host) (hx : g.inputs[n]? = some x) (hhandles : t.Handles [x] u)
    (hstorages : u.memory.storages = t.memory.storages) (hcopies : t.memory.Copies x host)
    (hover : u.memory.contents x = (t.memory.copy x host).onto (t.memory.contents x)) :
    Overfed s g inputs (n + 1) u := by
  have hextends : s.memory.Extends t.memory := h.only.later.platform.memory
  -- Other positions have other tensors.
  have hothers : ∀ (q : Nat) (y : TensorId), q ≠ n → g.inputs[q]? = some y →
      u.memory.contents y = t.memory.contents y := fun q y hq hy => by
    obtain ⟨spec, -, -, -, hhome⟩ := (hg.extends hextends).tensors .input q y hy
    refine Memory.contents_eq_of_home_own hhome (hhandles.tensors y fun hmem => hq ?_)
    rw [List.mem_singleton.1 hmem] at hy
    exact (hg.apart .input .input q n _ hy hx).2
  refine ⟨h.toHandles.trans (hhandles.mono fun j hj => ?_), hstorages.trans h.storages,
    fun q b y hq hb hy => ?_, fun q y hq hy => ?_⟩
  · rw [List.mem_singleton.1 hj]
    exact List.mem_of_getElem? hx
  · rcases Nat.lt_succ_iff_lt_or_eq.1 hq with hlt | rfl
    · rw [hothers q y (Nat.ne_of_lt hlt) (visible_eq_some.1 hy).1]
      exact h.fed q b y hlt hb hy
    · obtain rfl := Option.some.inj (hhost.symm.trans hb)
      obtain rfl := Option.some.inj (hx.symm.trans (visible_eq_some.1 hy).1)
      obtain ⟨-, -, hlive, -⟩ := hg.tensors .input q x hx
      refine ⟨(h.copies_iff hg hx).1 hcopies, ?_⟩
      rw [hover, h.ahead q x (Nat.le_refl _) hx,
        Memory.copy_congr (hextends.spec x hlive) (h.storage_eq _)]
  · rw [hothers q y (Nat.ne_of_gt hq) hy]
    exact h.ahead q y (Nat.le_of_succ_le hq) hy

end Overfed

namespace ExecM

variable {s t : ExecState} {f : Function} {g : PipelineGroup TensorId} {position : Nat}
  {host : HostBuffer} {inputs : List HostBuffer}

/-- **One input is copied** to the tensor of its position exactly if it can be. -/
theorem ends_feedOver (hg : g.Fits s.memory f)
    (hinside : s.executor.unit.externalInputs.contains position = false) :
    Ends (feedInput g position host s)
      (fun v t => ∃ x, v.tensor = some x ∧ g.inputs[position]? = some x ∧
        s.Handles [x] t ∧ t.memory.storages = s.memory.storages ∧ s.memory.Copies x host ∧
        t.memory.contents x = (s.memory.copy x host).onto (s.memory.contents x))
      fun _ t => s.Handles g.inputs t ∧
        ∀ x, g.inputs[position]? = some x → ¬ s.memory.Copies x host := by
  unfold feedInput
  rw [ends_bind, ends_executor, if_neg (by rw [hinside]; exact Bool.false_ne_true)]
  cases hx : g.inputs[position]? with
  | none => exact ⟨.refl s _, nofun⟩
  | some x =>
    obtain ⟨spec, -, hlive, -, hhome⟩ := hg.tensors .input position x hx
    dsimp only
    rw [ends_bind]
    refine (ends_markStale x).mono (fun _ t ht => ?_) fun _ _ h => h.elim
    -- Marking the tensor changes nothing but the mark, so the copy is the same as before it.
    have hspec : (t.memory.tensor x).spec = (s.memory.tensor x).spec := by
      rw [ht.memory, Memory.spec_setStale]
    have hcontents : t.memory.contents x = s.memory.contents x := by
      rw [ht.memory, Memory.contents_setStale]
    have hstorage : t.memory.storage host.storage = s.memory.storage host.storage := by
      rw [ht.memory]
      rfl
    have hhome' : t.memory.home x = .own spec.byteLength := by
      rw [ht.memory]
      unfold Memory.home
      rw [Memory.residence_setStale]
      exact hhome
    have hstale : ∀ ids, x ∈ ids → s.Handles ids t := fun ids => .setStale ht
    rw [ends_bind]
    refine (ends_writeOver position x host).mono (fun _ u hu => ?_) fun _ u hu => ?_
    · obtain ⟨hcopies, hu⟩ := hu
      rw [ends_pure]
      refine ⟨x, rfl, rfl, (hstale [x] List.mem_cons_self).trans (.setContents hu List.mem_cons_self),
        ?_, hcopies.congr hspec.symm hstorage.symm (by rw [hcontents]), ?_⟩
      · rw [hu.memory, Memory.storages_setContents_of_home_own hhome', ht.memory]
        rfl
      · rw [hu.memory, Memory.contents_setContents_of_home_own hhome', hcontents,
          Memory.copy_congr hspec hstorage]
        rw [ht.memory, Memory.size_tensors_setStale]
        exact hlive
    · obtain ⟨hnot, hu⟩ := hu
      refine ⟨(hstale _ (List.mem_of_getElem? hx)).trans (.of_tensors_eq (hu.memory.symm ▸ hu)
        (by rw [hu.memory])), fun y hy hcopies => ?_⟩
      obtain rfl := Option.some.inj hy
      exact hnot (hcopies.congr hspec hstorage (by rw [hcontents]))

/-- **All inputs are copied** exactly if each can be. -/
theorem ends_feedAllOver (hg : g.Fits s.memory f) (hlength : g.inputs.length = inputs.length) :
    Ends (inputs.zipIdx.mapM (fun b => feedInput g b.2 b.1) s)
      (fun services t => (Allocation.ofServices services).tensors =
          visible s.executor.unit.externalInputs g.inputs ∧
        Overfed s g inputs inputs.length t)
      fun _ t => s.Handles g.inputs t ∧ ∃ (q : Nat) (host : HostBuffer) (x : TensorId),
        inputs[q]? = some host ∧
        (visible s.executor.unit.externalInputs g.inputs)[q]? = some (some x) ∧
        ¬ s.memory.Copies x host := by
  refine (ends_mapM_zipIdx (I := fun (services : List Service) t =>
      services.map (·.tensor) =
        (visible s.executor.unit.externalInputs g.inputs).take services.length ∧
      Overfed s g inputs services.length t)
    (fun services host t hhost ht => ?_)
    ⟨rfl, .refl s _, rfl, fun _ _ _ hq => absurd hq (Nat.not_lt_zero _), fun _ _ _ _ => rfl⟩).mono
    (fun services t ht => ?_) fun _ _ ht => ht
  · obtain ⟨htensors, ht⟩ := ht
    have hunit : t.executor.unit = s.executor.unit := ht.only.later.unit
    obtain ⟨x, hx⟩ : ∃ x, g.inputs[services.length]? = some x :=
      ⟨_, List.getElem?_eq_getElem (hlength ▸ (List.getElem?_eq_some_iff.1 hhost).1)⟩
    -- What the group shows at the position that is served now.
    have hshown := getElem?_visible s.executor.unit.externalInputs g.inputs services.length
    rw [hx, Option.map_some] at hshown
    have hnext : ∀ v : Service, v.tensor = (if s.executor.unit.externalInputs.contains
        services.length then none else some x) → (services ++ [v]).map (·.tensor) =
          (visible s.executor.unit.externalInputs g.inputs).take (services ++ [v]).length :=
      fun v hv => by
        rw [List.map_append, htensors, List.length_append, List.length_singleton,
          List.take_add_one, hshown, ← hv]
        rfl
    have hlen : ∀ v : Service, (services ++ [v]).length = services.length + 1 := fun v => by
      rw [List.length_append, List.length_singleton]
    cases hposition : s.executor.unit.externalInputs.contains services.length with
    | true =>
      rw [hposition, if_pos rfl] at hnext
      unfold feedInput
      rw [ends_bind, ends_executor, hunit, if_pos hposition, ends_pure]
      exact ⟨hnext _ rfl, hlen _ ▸ ht.passed hposition⟩
    | false =>
      rw [hposition, if_neg Bool.false_ne_true] at hnext hshown
      refine (ends_feedOver (hg.extends ht.only.later.platform.memory)
        (hunit ▸ hposition)).mono (fun v u hu => ?_) fun _ u hu => ?_
      · obtain ⟨y, hv, hy, hhandles, hstorages, hcopies, hover⟩ := hu
        obtain rfl := Option.some.inj (hx.symm.trans hy)
        exact ⟨hnext v hv, hlen v ▸ ht.next hg hhost hx hhandles hstorages hcopies hover⟩
      · exact ⟨ht.toHandles.trans hu.1, services.length, host, x, hhost, hshown, fun hcopies =>
          hu.2 x hx ((ht.copies_iff hg hx).2 hcopies)⟩
  · obtain ⟨hcount, htensors, ht⟩ := ht
    rw [hcount] at ht htensors
    rw [List.take_of_length_le (by rw [length_visible, hlength])] at htensors
    exact ⟨htensors, ht⟩

/-- **The output tensors are offered**, which sets their flags. -/
theorem ends_offerAllOver (g : PipelineGroup TensorId) :
    Ends (g.outputs.zipIdx.mapM (fun b => offerOutput b.2 b.1) s)
      (fun outs t => outs = visible s.executor.unit.externalOutputs g.outputs ∧
        s.Handles g.outputs t ∧ s.memory.Alike t.memory) fun _ _ => False := by
  refine (ends_mapM_zipIdx (I := fun (outs : List (Option TensorId)) t =>
      outs = (visible s.executor.unit.externalOutputs g.outputs).take outs.length ∧
      s.Handles g.outputs t ∧ s.memory.Alike t.memory)
    (fun outs x t hx ht => ?_) ⟨rfl, .refl s _, .refl _⟩).mono (fun outs t ht => ?_) fun _ _ ht => ht
  · obtain ⟨houts, hhandles, halike⟩ := ht
    have hnext : ∀ v, v = (if s.executor.unit.externalOutputs.contains outs.length then none
        else some x) → outs ++ [v] =
          (visible s.executor.unit.externalOutputs g.outputs).take (outs ++ [v]).length :=
      fun v hv => by
        rw [List.length_append, List.length_singleton, List.take_add_one, getElem?_visible, hx,
          Option.map_some, ← hv, ← houts]
        rfl
    unfold offerOutput
    rw [ends_bind, ends_executor, hhandles.only.later.unit]
    cases hposition : s.executor.unit.externalOutputs.contains outs.length with
    | true =>
      rw [hposition, if_pos rfl] at hnext
      rw [if_pos rfl, ends_pure]
      exact ⟨hnext _ rfl, hhandles, halike⟩
    | false =>
      rw [hposition, if_neg Bool.false_ne_true] at hnext
      rw [if_neg Bool.false_ne_true, ends_bind]
      refine (ends_markStale x).mono (fun _ u hu => ?_) fun _ _ hu => hu
      rw [ends_pure]
      refine ⟨hnext _ rfl, hhandles.trans (.setStale hu (List.mem_of_getElem? hx)), ?_⟩
      rw [hu.memory]
      exact halike.trans (t.memory.alike_setStale x true)
  · obtain ⟨hcount, houts, ht⟩ := ht
    rw [hcount, List.take_of_length_le (Nat.le_of_eq (length_visible _ _))] at houts
    exact ⟨houts, ht⟩

end ExecM

/-! ### The whole call -/

namespace PipelineGroup

variable {m n : Memory} {f : Function} {g g' : PipelineGroup TensorId} {u : ExecutionUnit}
  {external external' : List Nat} {mode : RecordingMode} {results : List (Value UInt32)} {p : Nat}

/-- **No two output tensors of a group have bytes in common.** -/
theorem Fits.disjoint (h : g.Fits m f) (external : List Nat) :
    m.Disjoint (visible external g.outputs) where
  held p x hx := by
    obtain ⟨spec, -, hlive, -, hhome⟩ := h.tensors .output p x (visible_eq_some.1 hx).1
    refine ⟨hlive, fun storage hhost => ?_⟩
    rw [hhome] at hhost
    cases hhost
  apart p q x y hpq hx hy := by
    obtain ⟨spec, -, -, -, hhome⟩ := h.tensors .output p x (visible_eq_some.1 hx).1
    refine ⟨fun heq => ?_, fun storage hhost => ?_⟩
    · subst heq
      exact hpq (h.apart .output .output p q x (visible_eq_some.1 hx).1 (visible_eq_some.1 hy).1).2
    · rw [hhome] at hhost
      cases hhost

/-- How many bytes are stored for a result. -/
theorem Fits.length_stored (h : g.Fits m f) (u : ExecutionUnit)
    (heval : f.evaluate .binary32 (Backend.parametersOf (.recording mode) m f.parameters
      (visible u.externalInputs g.inputs)) = .ok results) (p : Nat) :
    (Backend.stored results p).length = u.span f p := by
  have hblank := Function.evaluate_outlines_eq_ok heval
  rw [h.outlines u mode] at hblank
  unfold ExecutionUnit.span
  rw [hblank]
  exact Backend.length_stored results p

/-- **Whether there are results and room for them** is a question of how many bytes the tensors of a
group hold, not of which. -/
theorem Fits.answers_iff (h : g.Fits m f) (u : ExecutionUnit) (external : List Nat)
    (mode : RecordingMode) :
    (∃ results, Backend.Answers (.recording mode) m f (visible external g.outputs)
      (visible u.externalInputs g.inputs) results) ↔
    (∃ outlines, f.evaluate .blank (u.blanks f) = .ok outlines) ∧
      ∀ (p : Nat) (x : TensorId), (visible external g.outputs)[p]? = some (some x) →
        u.span f p ≤ (m.contents x).length := by
  constructor
  · rintro ⟨results, hresults⟩
    refine ⟨⟨results.map Value.outline, ?_⟩, fun p x hx => ?_⟩
    · rw [← h.outlines u mode]
      exact Function.evaluate_outlines_eq_ok hresults.evaluate
    · rw [← h.length_stored u hresults.evaluate]
      exact hresults.rooms.length_stored hx
  · rintro ⟨⟨outlines, houtlines⟩, hrooms⟩
    rw [← h.outlines u mode, ← f.evaluate_outlines .binary32] at houtlines
    cases heval : f.evaluate .binary32 (Backend.parametersOf (.recording mode) m f.parameters
        (visible u.externalInputs g.inputs)) with
    | error fault =>
      rw [heval] at houtlines
      cases houtlines
    | ok results =>
      refine ⟨results, heval, fun p x v hx hv => ⟨?_, nofun⟩⟩
      have hlength := h.length_stored u heval p
      unfold Backend.stored at hlength
      rw [hv] at hlength
      exact Nat.le_trans (Nat.le_of_eq hlength) (hrooms p x hx)

/-- Two groups give the same parameters if they hold the same at the floating-point positions. -/
theorem Fits.parametersOf_eq (h : g.Fits m f) (h' : g'.Fits n f)
    (hcontents : ∀ (q : Nat) (spec : TensorSpec) (x y : TensorId), f.parameters[q]? = some spec →
      spec.dtype = .f32 → (visible external g.inputs)[q]? = some (some x) →
      (visible external g'.inputs)[q]? = some (some y) → n.contents y = m.contents x) :
    Backend.parametersOf (.recording mode) n f.parameters (visible external g'.inputs) =
      Backend.parametersOf (.recording mode) m f.parameters (visible external g.inputs) := by
  refine List.ext_getElem? fun q => ?_
  rw [Backend.parametersOf_getElem?, Backend.parametersOf_getElem?]
  cases hspec : f.parameters[q]? with
  | none => rfl
  | some spec =>
    obtain ⟨x, hx, -, hxspec, -⟩ :=
      h.exists_tensor (show (f.specs .input)[q]? = some spec from hspec)
    obtain ⟨y, hy, -, hyspec, -⟩ :=
      h'.exists_tensor (show (f.specs .input)[q]? = some spec from hspec)
    change g.inputs[q]? = some x at hx
    change g'.inputs[q]? = some y at hy
    have hsame := hcontents q spec x y hspec
    rw [getElem?_visible, getElem?_visible, hx, hy] at hsame ⊢
    simp only [Option.map_some, Option.join_some] at hsame ⊢
    cases hposition : external.contains q with
    | true => rfl
    | false =>
      rw [hposition, if_neg Bool.false_ne_true, if_neg Bool.false_ne_true] at hsame
      rw [if_neg Bool.false_ne_true, if_neg Bool.false_ne_true, Option.bind_some, Option.bind_some,
        Backend.parameterOf_eq fun _ => hxspec.symm, Backend.parameterOf_eq fun _ => hyspec.symm,
        hxspec, hyspec]
      by_cases hdtype : spec.dtype = .f32
      · rw [if_pos hdtype, if_pos hdtype, hsame hdtype rfl rfl]
      · rw [if_neg hdtype, if_neg hdtype]

/-- Everything that a call with a group asks for. -/
structure Carries (s : ExecState) (f : Function) (inputs : List HostBuffer)
    (g : PipelineGroup TensorId) : Prop where
  /-- Every input can be copied. -/
  copies : ∀ (q : Nat) (host : HostBuffer) (x : TensorId), inputs[q]? = some host →
    (visible s.executor.unit.externalInputs g.inputs)[q]? = some (some x) → s.memory.Copies x host
  /-- The function has results. -/
  evaluates : ∃ outlines, f.evaluate .blank (s.executor.unit.blanks f) = .ok outlines
  /-- There is room for them. -/
  rooms : ∀ (p : Nat) (x : TensorId),
    (visible s.executor.unit.externalOutputs g.outputs)[p]? = some (some x) →
    s.executor.unit.span f p ≤ (s.memory.contents x).length
  /-- No output buffer is longer than its tensor. -/
  reach : ∀ (p : Nat) (x : TensorId) (b : HostBuffer),
    (visible s.executor.unit.externalOutputs g.outputs)[p]? = some (some x) →
    s.outputs.buffers[p]? = some b →
    (s.memory.storage b.storage).length ≤ (s.memory.contents x).length

/-- **What one group can carry any other can**, as long as the buffers are as long as before. -/
theorem Carries.of_fits {s t : ExecState} {inputs : List HostBuffer} (h : g.Carries s f inputs)
    (hg : g.Fits s.memory f) (hg' : g'.Fits t.memory f)
    (hunit : t.executor.unit = s.executor.unit) (houtputs : t.outputs = s.outputs)
    (hlength : ∀ b, b ∈ inputs ∨ b ∈ s.outputs.buffers →
      (t.memory.storage b.storage).length = (s.memory.storage b.storage).length) :
    g'.Carries t f inputs := by
  -- The tensors at one position are of the same size.
  have hsame : ∀ side (p : Nat) (y : TensorId), (g'.tensors side)[p]? = some y →
      ∃ x, (g.tensors side)[p]? = some x ∧ (t.memory.tensor y).spec = (s.memory.tensor x).spec ∧
        (t.memory.contents y).length = (s.memory.contents x).length := fun side p y hy => by
    obtain ⟨spec, hspec, -, hyspec, hyhome⟩ := hg'.tensors side p y hy
    obtain ⟨x, hx, -, hxspec, hxhome⟩ := hg.exists_tensor hspec
    exact ⟨x, hx, hyspec.trans hxspec.symm, (Memory.length_contents_of_home_own hyhome).trans
      (Memory.length_contents_of_home_own hxhome).symm⟩
  refine ⟨fun q host y hhost hy => ?_, hunit.symm ▸ h.evaluates, fun p y hy => ?_,
    fun p y b hy hb => ?_⟩
  · rw [hunit] at hy
    obtain ⟨hy, hposition⟩ := visible_eq_some.1 hy
    obtain ⟨x, hx, hspec, hroom⟩ := hsame .input q y hy
    obtain ⟨hsource, hfits⟩ := h.copies q host x hhost (visible_eq_some.2 ⟨hx, hposition⟩)
    have hneeded : t.memory.needed y host = s.memory.needed x host := by
      unfold Memory.needed
      rw [hspec]
    exact ⟨by rwa [hneeded, hlength host (.inl (List.mem_of_getElem? hhost))], by rwa [hneeded, hroom]⟩
  · rw [hunit] at hy ⊢
    obtain ⟨hy, hposition⟩ := visible_eq_some.1 hy
    obtain ⟨x, hx, -, hroom⟩ := hsame .output p y hy
    rw [hroom]
    exact h.rooms p x (visible_eq_some.2 ⟨hx, hposition⟩)
  · rw [hunit] at hy
    rw [houtputs] at hb
    obtain ⟨hy, hposition⟩ := visible_eq_some.1 hy
    obtain ⟨x, hx, -, hroom⟩ := hsame .output p y hy
    rw [hroom, hlength b (.inr (List.mem_of_getElem? hb))]
    exact h.reach p x b (visible_eq_some.2 ⟨hx, hposition⟩) hb

end PipelineGroup

/-- **A group at rest**: what another call with it would write stands there already. -/
structure PipelineGroup.Rests (s : ExecState) (f : Function) (inputs : List HostBuffer)
    (results : List (Value UInt32)) (g : PipelineGroup TensorId) : Prop where
  /-- It fits. -/
  fits : g.Fits s.memory f
  /-- A call with it would go through. -/
  carries : g.Carries s f inputs
  /-- Its input tensors begin with the inputs. -/
  fed : ∀ (q : Nat) (host : HostBuffer) (x : TensorId), inputs[q]? = some host →
    (visible s.executor.unit.externalInputs g.inputs)[q]? = some (some x) →
    s.memory.copy x host <+: s.memory.contents x
  /-- The function has these results. -/
  evaluate : f.evaluate .binary32 (Backend.parametersOf s.kind s.memory f.parameters
    (visible s.executor.unit.externalInputs g.inputs)) = .ok results
  /-- Its output tensors begin with them. -/
  stands : ∀ (p : Nat) (x : TensorId),
    (visible s.executor.unit.externalOutputs g.outputs)[p]? = some (some x) →
    Backend.stored results p <+: s.memory.contents x
  /-- The output buffers have been read from there. -/
  read : ∀ (p : Nat) (x : TensorId) (b : HostBuffer),
    (visible s.executor.unit.externalOutputs g.outputs)[p]? = some (some x) →
    s.outputs.buffers[p]? = some b → s.memory.storage b.storage <+: s.memory.contents x

/-- It is at rest as long as memory is as it was. -/
theorem PipelineGroup.Rests.of_later {s t : ExecState} {f : Function} {inputs : List HostBuffer}
    {results : List (Value UInt32)} {g : PipelineGroup TensorId} (h : g.Rests s f inputs results)
    (hlater : s.Later t) (houtputs : t.outputs = s.outputs) (hmemory : t.memory = s.memory) :
    g.Rests t f inputs results := by
  have hunit : t.executor.unit = s.executor.unit := hlater.unit
  refine ⟨hmemory ▸ h.fits, h.carries.of_fits h.fits (hmemory ▸ h.fits) hunit houtputs
    fun _ _ => by rw [hmemory], ?_, ?_, ?_, ?_⟩
  · rw [hunit, hmemory]
    exact h.fed
  · rw [hlater.kind_eq, hunit, hmemory]
    exact h.evaluate
  · rw [hunit, hmemory]
    exact h.stands
  · rw [hunit, hmemory, houtputs]
    exact h.read

/-- **Between two states only a group has been worked with**, and what its output tensors hold behind
the results is what they held. -/
structure Worn (s : ExecState) (f : Function) (g : PipelineGroup TensorId) (t : ExecState) : Prop
    extends ExecState.Handles s (g.inputs ++ g.outputs) t where
  /-- What is behind the results is left. -/
  ends : ∀ (p : Nat) (x : TensorId), g.outputs[p]? = some x →
    (t.memory.contents x).drop (s.executor.unit.span f p) =
      (s.memory.contents x).drop (s.executor.unit.span f p)

namespace Worn

variable {s t u : ExecState} {f : Function} {g : PipelineGroup TensorId} {m : Memory}

theorem trans (h : Worn s f g t) (h' : Worn t f g u) : Worn s f g u where
  toHandles := h.toHandles.trans h'.toHandles
  ends p x hx := by
    have hnext := h'.ends p x hx
    rw [h.only.later.unit] at hnext
    exact hnext.trans (h.ends p x hx)

/-- The output tensors hold what they held. -/
theorem of_contents_eq (h : s.Handles (g.inputs ++ g.outputs) t)
    (hcontents : ∀ x ∈ g.outputs, t.memory.contents x = s.memory.contents x) : Worn s f g t :=
  ⟨h, fun _ x hx => by rw [hcontents x (List.mem_of_getElem? hx)]⟩

/-- Nothing but the inputs has been worked with. -/
theorem of_inputs (hg : g.Fits s.memory f) (h : s.Handles g.inputs t) : Worn s f g t := by
  refine of_contents_eq (h.mono fun j hj => List.mem_append_left _ hj) fun x hx => ?_
  obtain ⟨p, hp⟩ := List.getElem?_of_mem hx
  obtain ⟨spec, -, -, -, hhome⟩ := hg.tensors .output p x hp
  refine Memory.contents_eq_of_home_own hhome (h.tensors x fun hmem => ?_)
  obtain ⟨q, hq⟩ := List.getElem?_of_mem hmem
  cases (hg.apart .input .output q p x hq hp).1

/-- Some of the results have been stored. -/
theorem of_written (hg : g.Fits s.memory f) (honly : s.OnlyMemory t.memory t)
    {writes : List (TensorId × Bytes)} (h : s.memory.Written writes t.memory)
    (hwrites : ∀ w ∈ writes, ∃ p : Nat, g.outputs[p]? = some w.1 ∧
      w.2.drop (s.executor.unit.span f p) =
        (s.memory.contents w.1).drop (s.executor.unit.span f p)) : Worn s f g t := by
  refine ⟨⟨honly, h.count, fun j hj => h.tensors j fun w hw heq => hj ?_⟩, fun p x hx => ?_⟩
  · obtain ⟨p, hp, -⟩ := hwrites w hw
    exact List.mem_append_right _ (heq ▸ List.mem_of_getElem? hp)
  · by_cases hmem : ∃ w ∈ writes, w.1 = x
    · obtain ⟨w, hw, rfl⟩ := hmem
      obtain ⟨q, hq, hdrop⟩ := hwrites w hw
      obtain ⟨-, rfl⟩ := hg.apart .output .output p q w.1 hx hq
      rw [h.contents w hw, hdrop]
    · obtain ⟨spec, -, -, -, hhome⟩ := hg.tensors .output p x hx
      rw [Memory.contents_eq_of_home_own hhome
        (h.tensors x fun w hw heq => hmem ⟨w, hw, heq.symm⟩)]

/-- An output tensor is as long as before. -/
theorem length_contents (h : Worn s f g t) (hg : g.Fits s.memory f) {p : Nat} {x : TensorId}
    (hx : g.outputs[p]? = some x) :
    (t.memory.contents x).length = (s.memory.contents x).length := by
  obtain ⟨spec, -, hlive, -, hhome⟩ := hg.tensors .output p x hx
  rw [Memory.length_contents_of_home_own hhome, Memory.length_contents_of_home_own
    ((h.only.later.platform.memory.home x hlive).trans hhome)]

end Worn

/-- **The executable has been called with a group.** -/
structure Worked (s : ExecState) (f : Function) (g : PipelineGroup TensorId)
    (inputs : List HostBuffer) (results : List (Value UInt32)) (t : ExecState) : Prop
    extends Worn s f g t where
  /-- The inputs have been written over what the tensors held. -/
  fed : ∀ (q : Nat) (host : HostBuffer) (x : TensorId), inputs[q]? = some host →
    (visible s.executor.unit.externalInputs g.inputs)[q]? = some (some x) →
    t.memory.contents x = (s.memory.copy x host).onto (s.memory.contents x)
  /-- The function has these results on what the tensors hold now. -/
  evaluate : f.evaluate .binary32 (Backend.parametersOf s.kind t.memory f.parameters
    (visible s.executor.unit.externalInputs g.inputs)) = .ok results
  /-- The results have been written over what the tensors held. -/
  stored : ∀ (p : Nat) (x : TensorId),
    (visible s.executor.unit.externalOutputs g.outputs)[p]? = some (some x) →
    t.memory.contents x = (Backend.stored results p).onto (s.memory.contents x)

/-- **A call with a group has gone through.** -/
structure Ran (s : ExecState) (f : Function) (g : PipelineGroup TensorId)
    (inputs : List HostBuffer) (results : List (Value UInt32)) (t : ExecState) : Prop
    extends Worked s f g inputs results t where
  /-- The results have been read from the tensors. -/
  read : ∀ (p : Nat) (x : TensorId) (b : HostBuffer),
    (visible s.executor.unit.externalOutputs g.outputs)[p]? = some (some x) →
    s.outputs.buffers[p]? = some b → t.memory.storage b.storage =
      (t.memory.contents x).take (s.memory.storage b.storage).length
  /-- Storages that receive no results are as they were. -/
  others : ∀ storage, ¬ s.Receives storage → t.memory.storage storage = s.memory.storage storage

/-- Something has been counted. -/
theorem Ran.counted {s t : ExecState} {f : Function} {g : PipelineGroup TensorId}
    {inputs : List HostBuffer} {results : List (Value UInt32)} (h : Ran s f g inputs results t)
    (x : Stats) : Ran s f g inputs results { t with executor.stats := x } :=
  { h with only := h.only.trans (.of_untouched (ExecState.untouched_stats t x)) }

/-- The tensors of the group hold what they held. -/
theorem Worked.of_contents_eq {s t u : ExecState} {f : Function} {g : PipelineGroup TensorId}
    {inputs : List HostBuffer} {results : List (Value UInt32)}
    (h : Worked s f g inputs results t) (hg : g.Fits t.memory f) (hworn : Worn t f g u)
    (hcontents : ∀ x ∈ g.inputs ++ g.outputs, u.memory.contents x = t.memory.contents x) :
    Worked s f g inputs results u where
  toWorn := h.toWorn.trans hworn
  fed q host x hhost hx := by
    rw [hcontents x (List.mem_append_left _ (List.mem_of_getElem? (visible_eq_some.1 hx).1))]
    exact h.fed q host x hhost hx
  evaluate := by
    rw [Backend.parametersOf_congr s.kind f.parameters fun x hx => ?_]
    · exact h.evaluate
    · obtain ⟨q, hq⟩ := List.getElem?_of_mem hx
      have hgq := (visible_eq_some.1 hq).1
      obtain ⟨-, -, hlive, -⟩ := hg.tensors .input q x hgq
      exact ⟨hworn.only.later.platform.memory.spec x hlive,
        hcontents x (List.mem_append_left _ (List.mem_of_getElem? hgq))⟩
  stored p x hx := by
    rw [hcontents x (List.mem_append_right _ (List.mem_of_getElem? (visible_eq_some.1 hx).1))]
    exact h.stored p x hx

/-- When the results have been read after the executable has been called. -/
theorem Worked.ran {s t : ExecState} {f : Function} {g : PipelineGroup TensorId}
    {inputs : List HostBuffer} {results : List (Value UInt32)} (h : Worked s f g inputs results t)
    (hg : g.Fits t.memory f) (hstorage : ∀ j, t.memory.storage j = s.memory.storage j)
    {u : ExecState} (hworn : Worn t f g u)
    (hcontents : ∀ x ∈ g.inputs ++ g.outputs, u.memory.contents x = t.memory.contents x)
    (hread : ∀ (p : Nat) (x : TensorId) (b : HostBuffer),
      (visible t.executor.unit.externalOutputs g.outputs)[p]? = some (some x) →
      t.outputs.buffers[p]? = some b →
      u.memory.storage b.storage =
        (t.memory.contents x).take (t.memory.storage b.storage).length)
    (hothers : ∀ j, ¬ t.Receives j → u.memory.storage j = t.memory.storage j) :
    Ran s f g inputs results u where
  toWorked := h.of_contents_eq hg hworn hcontents
  read p x b hx hb := by
    rw [h.only.later.unit, h.only.outputs] at hread
    rw [← hstorage, hread p x b hx hb,
      hcontents x (List.mem_append_right _ (List.mem_of_getElem? (visible_eq_some.1 hx).1))]
  others j hj := by
    refine (hothers j fun hreceives => hj ?_).trans (hstorage j)
    unfold ExecState.Receives at hreceives ⊢
    rwa [h.only.outputs, h.only.later.unit] at hreceives

namespace ExecM

variable {s t : ExecState} {f : Function} {g g' : PipelineGroup TensorId} {inputs : List HostBuffer}

/-- **The inputs have been copied and the outputs offered**: the output tensors and the storages of
the host are as they were. -/
structure Laid (s : ExecState) (f : Function) (g : PipelineGroup TensorId)
    (inputs : List HostBuffer) (t : ExecState) : Prop extends Worn s f g t where
  /-- The inputs have been written over what the tensors held. -/
  fed : ∀ (q : Nat) (host : HostBuffer) (x : TensorId), inputs[q]? = some host →
    (visible s.executor.unit.externalInputs g.inputs)[q]? = some (some x) →
    s.memory.Copies x host ∧
      t.memory.contents x = (s.memory.copy x host).onto (s.memory.contents x)
  /-- The output tensors hold what they held. -/
  outputs : ∀ x ∈ g.outputs, t.memory.contents x = s.memory.contents x
  /-- The storages of the host hold what they held. -/
  storage : ∀ j, t.memory.storage j = s.memory.storage j

theorem laid_of_overfed (hg : g.Fits s.memory f) (ht : Overfed s g inputs inputs.length t)
    {u : ExecState} (hhandles : t.Handles g.outputs u) (halike : t.memory.Alike u.memory) :
    Laid s f g inputs u := by
  have hworn := Worn.of_inputs hg ht.toHandles
  refine ⟨hworn.trans (.of_contents_eq (hhandles.mono fun j hj => List.mem_append_right _ hj)
    fun x _ => halike.contents x), fun q host x hhost hx => ?_, fun x hx => ?_, fun j => ?_⟩
  · rw [halike.contents]
    exact ht.fed q host x (List.getElem?_eq_some_iff.1 hhost).1 hhost hx
  · rw [halike.contents]
    obtain ⟨p, hp⟩ := List.getElem?_of_mem hx
    obtain ⟨spec, -, -, -, hhome⟩ := hg.tensors .output p x hp
    refine Memory.contents_eq_of_home_own hhome (ht.tensors x fun hmem => ?_)
    obtain ⟨q, hq⟩ := List.getElem?_of_mem hmem
    cases (hg.apart .input .output q p x hq hp).1
  · rw [halike.storage]
    unfold Memory.storage
    rw [ht.storages]

/-- **What has been laid out is answered** exactly if the function has results and there is room for
them. -/
theorem Laid.answers_iff (h : Laid s f g inputs t) (hg : g.Fits s.memory f)
    (hkind : s.kind = .recording .pipelined) :
    (∃ results, Backend.Answers t.kind t.memory f
        (visible t.executor.unit.externalOutputs g.outputs)
        (visible t.executor.unit.externalInputs g.inputs) results) ↔
      (∃ outlines, f.evaluate .blank (s.executor.unit.blanks f) = .ok outlines) ∧
        ∀ (p : Nat) (x : TensorId),
          (visible s.executor.unit.externalOutputs g.outputs)[p]? = some (some x) →
          s.executor.unit.span f p ≤ (s.memory.contents x).length := by
  have hlater : s.Later t := h.only.later
  rw [hlater.kind_eq.trans hkind, (hg.extends hlater.platform.memory).answers_iff, hlater.unit]
  refine and_congr_right fun _ => forall₃_congr fun p x hx => ?_
  rw [h.outputs x (List.mem_of_getElem? (visible_eq_some.1 hx).1)]

/-- **The executable is called** with a group, exactly if there are results and room for them. -/
theorem ends_callGroup (hg : g.Fits s.memory f) (hkind : s.kind = .recording .pipelined)
    {x : Executable} (hx : x.function = f) :
    Ends (callExecutable x (visible s.executor.unit.externalOutputs g.outputs)
        (visible s.executor.unit.externalInputs g.inputs) s)
      (fun _ t => Worn s f g t ∧ (∀ j, t.memory.storage j = s.memory.storage j) ∧
        (∀ y ∈ g.inputs, t.memory.contents y = s.memory.contents y) ∧ ∃ results,
        Backend.Answers s.kind s.memory f (visible s.executor.unit.externalOutputs g.outputs)
          (visible s.executor.unit.externalInputs g.inputs) results ∧
        ∀ (p : Nat) (y : TensorId),
          (visible s.executor.unit.externalOutputs g.outputs)[p]? = some (some y) →
          t.memory.contents y = (Backend.stored results p).onto (s.memory.contents y))
      fun _ t => Worn s f g t ∧ ∀ results, ¬ Backend.Answers s.kind s.memory f
        (visible s.executor.unit.externalOutputs g.outputs)
        (visible s.executor.unit.externalInputs g.inputs) results := by
  subst hx
  have hdisjoint := hg.disjoint s.executor.unit.externalOutputs
  -- What is written reaches as far as the results do.
  have hwrites : ∀ results, x.function.evaluate .binary32 (Backend.parametersOf s.kind s.memory
      x.function.parameters (visible s.executor.unit.externalInputs g.inputs)) = .ok results →
      ∀ w ∈ Backend.writesOver s.memory (visible s.executor.unit.externalOutputs g.outputs) results,
        ∃ p : Nat, g.outputs[p]? = some w.1 ∧ w.2.drop (s.executor.unit.span x.function p) =
          (s.memory.contents w.1).drop (s.executor.unit.span x.function p) :=
    fun results heval w hw => by
      obtain ⟨p, v, hp, hv, hbytes⟩ := Backend.mem_writesOver.1 hw
      rw [hkind] at heval
      have hspan := hg.length_stored s.executor.unit heval p
      unfold Backend.stored at hspan
      rw [hv, Option.map_some, Option.getD_some] at hspan
      exact ⟨p, (visible_eq_some.1 hp).1, by rw [hbytes, ← hspan, Bytes.drop_onto]⟩
  refine (ends_callOver x hdisjoint).mono (fun _ t ht => ?_) fun _ t ht => ?_
  · obtain ⟨honly, results, hanswers, hwritten⟩ := ht
    refine ⟨.of_written hg honly hwritten (hwrites results hanswers.evaluate), fun j => ?_,
      fun y hy => ?_, results, hanswers, fun p y hy =>
        Backend.contents_of_writesOver hwritten hdisjoint hy⟩
    · refine hwritten.storages j fun w hw hhost => ?_
      obtain ⟨p, -, hp, -⟩ := Backend.mem_writesOver.1 hw
      obtain ⟨spec, -, -, -, hhome⟩ := hg.tensors .output p w.1 (visible_eq_some.1 hp).1
      rw [hhome] at hhost
      cases hhost
    · obtain ⟨q, hq⟩ := List.getElem?_of_mem hy
      obtain ⟨spec, -, hlive, -, hhome⟩ := hg.tensors .input q y hq
      refine Memory.contents_eq_of_home_own hhome (hwritten.tensors y fun w hw heq => ?_)
      obtain ⟨p, -, hp, -⟩ := Backend.mem_writesOver.1 hw
      cases (hg.apart .input .output q p y hq (heq ▸ (visible_eq_some.1 hp).1)).1
  · obtain ⟨honly, hnot, done, hdone, hwritten⟩ := ht
    refine ⟨.of_written hg honly hwritten fun w hw => ?_, hnot⟩
    obtain ⟨results, heval, hw⟩ := hdone w hw
    exact hwrites results heval w hw

/-- When the executable has been called on what has been laid out. -/
theorem worked_of_laid (hg : g.Fits s.memory f) (hlaid : Laid s f g inputs t) {u : ExecState}
    (hworn : Worn t f g u) (hsame : ∀ x ∈ g.inputs, u.memory.contents x = t.memory.contents x)
    {results : List (Value UInt32)}
    (heval : f.evaluate .binary32 (Backend.parametersOf s.kind t.memory f.parameters
      (visible s.executor.unit.externalInputs g.inputs)) = .ok results)
    (hstored : ∀ (p : Nat) (x : TensorId),
      (visible s.executor.unit.externalOutputs g.outputs)[p]? = some (some x) →
      u.memory.contents x = (Backend.stored results p).onto (t.memory.contents x)) :
    Worked s f g inputs results u where
  toWorn := hlaid.toWorn.trans hworn
  fed q host x hhost hx := by
    rw [hsame x (List.mem_of_getElem? (visible_eq_some.1 hx).1)]
    exact (hlaid.fed q host x hhost hx).2
  evaluate := by
    rw [Backend.parametersOf_congr s.kind f.parameters fun x hx => ?_]
    · exact heval
    · obtain ⟨q, hq⟩ := List.getElem?_of_mem hx
      have hgq := (visible_eq_some.1 hq).1
      obtain ⟨-, -, hlive, -⟩ := (hg.extends hlaid.only.later.platform.memory).tensors .input q x hgq
      exact ⟨hworn.only.later.platform.memory.spec x hlive, hsame x (List.mem_of_getElem? hgq)⟩
  stored p x hx := by
    rw [hstored p x hx, hlaid.outputs x (List.mem_of_getElem? (visible_eq_some.1 hx).1)]

/-- **The results are read from a group**, exactly if no output buffer is longer than its tensor. -/
theorem ends_readGroup (hg : g.Fits s.memory f) (hseparate : s.outputs.Separate s.memory) :
    Ends (readOutputs (visible s.executor.unit.externalOutputs g.outputs) s)
      (fun _ t => Worn s f g t ∧
        (∀ x ∈ g.inputs ++ g.outputs, t.memory.contents x = s.memory.contents x) ∧
        (∀ (p : Nat) (x : TensorId) (b : HostBuffer),
          (visible s.executor.unit.externalOutputs g.outputs)[p]? = some (some x) →
          s.outputs.buffers[p]? = some b →
          (s.memory.storage b.storage).length ≤ (s.memory.contents x).length ∧
          t.memory.storage b.storage =
            (s.memory.contents x).take (s.memory.storage b.storage).length) ∧
        ∀ j, ¬ s.Receives j → t.memory.storage j = s.memory.storage j)
      fun _ t => Worn s f g t ∧ ∃ (p : Nat) (x : TensorId) (b : HostBuffer),
        (visible s.executor.unit.externalOutputs g.outputs)[p]? = some (some x) ∧
        s.outputs.buffers[p]? = some b ∧
        ¬ (s.memory.storage b.storage).length ≤ (s.memory.contents x).length := by
  -- Nothing is written to a tensor.
  have hworn : ∀ t : ExecState, s.OnlyMemory t.memory t → t.memory.tensors = s.memory.tensors →
      Worn s f g t ∧ ∀ x ∈ g.inputs ++ g.outputs, t.memory.contents x = s.memory.contents x :=
    fun t honly htensors => by
      have hcontents : ∀ side, ∀ x ∈ g.tensors side, t.memory.contents x = s.memory.contents x :=
        fun side x hx => by
          obtain ⟨p, hp⟩ := List.getElem?_of_mem hx
          obtain ⟨spec, -, -, -, hhome⟩ := hg.tensors side p x hp
          exact Memory.contents_eq_of_home_own hhome (by unfold Memory.tensor; rw [htensors])
      exact ⟨.of_contents_eq (.of_tensors_eq honly htensors) (hcontents .output),
        fun x hx => (List.mem_append.1 hx).elim (hcontents .input x) (hcontents .output x)⟩
  refine (ends_readAllOver hseparate fun p x hx => ?_).mono (fun _ t ht => ?_) fun _ t ht => ?_
  · obtain ⟨spec, -, -, -, hhome⟩ := hg.tensors .output p x (visible_eq_some.1 hx).1
    exact ⟨_, hhome⟩
  · obtain ⟨honly, hread⟩ := ht
    obtain ⟨ht, hcontents⟩ := hworn t honly hread.tensors
    have hcount : ∀ {p : Nat} {x : TensorId} {b : HostBuffer},
        (visible s.executor.unit.externalOutputs g.outputs)[p]? = some (some x) →
        s.outputs.buffers[p]? = some b →
        p < ((visible s.executor.unit.externalOutputs g.outputs).zip s.outputs.buffers).length :=
      fun {p x b} hx hb => (List.getElem?_eq_some_iff.1 (List.getElem?_zip_eq_some.2
        (show _ = some (some x, b).1 ∧ _ = some (some x, b).2 from ⟨hx, hb⟩))).1
    refine ⟨ht, hcontents, fun p x b hx hb => ⟨hread.reach p x b (hcount hx hb) hx hb,
      hread.read p x b (hcount hx hb) hx hb⟩, fun j hj => hread.others j fun p x b _ hx hb heq => ?_⟩
    exact hj ⟨p, b, hb, (visible_eq_some.1 hx).2, heq⟩
  · obtain ⟨honly, htensors, hlonger⟩ := ht
    exact ⟨(hworn t honly htensors).1, hlonger⟩

/-- **A call with a group goes through exactly if the group can carry it.** -/
theorem ends_runOnGroup_over {found : Lookup} (hg : g.Fits s.memory found.executable.function)
    (hkind : s.kind = .recording .pipelined) (hseparate : s.outputs.Separate s.memory)
    (hlength : found.executable.function.parameters.length = inputs.length) :
    Ends (runOnGroup found g inputs s)
      (fun r t => r.tensorsCreated = 0 ∧ r.group = some g.index ∧
        g.Carries s found.executable.function inputs ∧
        ∃ results, Ran s found.executable.function g inputs results t)
      fun _ t => ¬ g.Carries s found.executable.function inputs ∧
        Worn s found.executable.function g t := by
  obtain ⟨f, hf⟩ : ∃ f, f = found.executable.function := ⟨_, rfl⟩
  rw [← hf] at hg hlength ⊢
  have hcount : g.inputs.length = inputs.length := (hg.length .input).trans hlength
  unfold runOnGroup
  rw [ends_bind]
  refine (ends_feedAllOver hg hcount).mono (fun services t ht => ?_) fun _ t ht => ?_
  swap
  · obtain ⟨hhandles, q, host, x, hhost, hx, hnot⟩ := ht
    exact ⟨fun hcarries => hnot (hcarries.copies q host x hhost hx), .of_inputs hg hhandles⟩
  obtain ⟨hins, ht⟩ := ht
  dsimp only
  rw [hins, ends_bind]
  refine (ends_offerAllOver g).mono (fun outs u hu => ?_) fun _ _ hu => hu.elim
  obtain ⟨houts, hhandles, halike⟩ := hu
  have hlaid := laid_of_overfed hg ht hhandles halike
  have hlater : s.Later u := hlaid.only.later
  rw [ht.only.later.unit, ← hlater.unit] at houts
  rw [houts, ends_bind, ← hlater.unit]
  have hg' := hg.extends hlater.platform.memory
  refine (ends_callGroup hg' (hlater.kind_eq.trans hkind) hf.symm).mono (fun _ v hv => ?_)
    fun _ v hv => ?_
  swap
  · obtain ⟨hworn, hnot⟩ := hv
    refine ⟨fun hcarries => ?_, hlaid.toWorn.trans hworn⟩
    obtain ⟨results, hresults⟩ :=
      (hlaid.answers_iff hg hkind).2 ⟨hcarries.evaluates, hcarries.rooms⟩
    exact hnot results hresults
  obtain ⟨hworn, hstorage, hsame, results, hanswers, hstored⟩ := hv
  obtain ⟨hevaluates, hrooms⟩ := (hlaid.answers_iff hg hkind).1 ⟨results, hanswers⟩
  have heval := hanswers.evaluate
  rw [hlater.kind_eq, hlater.unit] at heval
  rw [hlater.unit] at hstored
  have hworked := worked_of_laid hg hlaid hworn hsame heval hstored
  have hunit : v.executor.unit = s.executor.unit := hworked.only.later.unit
  have houtputs : v.outputs = s.outputs := hworked.only.outputs
  have hstorage' : ∀ j, v.memory.storage j = s.memory.storage j := fun j =>
    (hstorage j).trans (hlaid.storage j)
  have hg'' := hg'.extends hworn.only.later.platform.memory
  rw [ends_bind, ← hworn.only.later.unit]
  refine (ends_readGroup hg'' (houtputs.symm ▸ hseparate.of_extends
    (hlater.trans hworn.only.later).platform.memory)).mono (fun _ z hz => ?_) fun _ z hz => ?_
  · obtain ⟨hz, hcontents, hread, hothers⟩ := hz
    rw [ends_bind, ends_count, ends_pure]
    refine ⟨rfl, rfl, ⟨fun q host x hhost hx => (hlaid.fed q host x hhost hx).1, hevaluates, hrooms,
      fun p x b hx hb => ?_⟩, results, Ran.counted (hworked.ran hg'' hstorage' hz hcontents
        (fun p x b hx hb => (hread p x b hx hb).2) hothers) _⟩
    rw [← hstorage', ← hworked.length_contents hg (visible_eq_some.1 hx).1]
    exact (hread p x b (hunit.symm ▸ hx) (houtputs.symm ▸ hb)).1
  · obtain ⟨hz, p, x, b, hx, hb, hnot⟩ := hz
    rw [hunit] at hx
    refine ⟨fun hcarries => hnot ?_, hworked.toWorn.trans hz⟩
    rw [hstorage', hworked.length_contents hg (visible_eq_some.1 hx).1]
    exact hcarries.reach p x b hx (houtputs ▸ hb)

/-- **A call that has gone through leaves its group at rest**, if no input receives a result. -/
theorem Ran.rests {results : List (Value UInt32)} (h : Ran s f g inputs results t)
    (hg : g.Fits s.memory f) (hcarries : g.Carries s f inputs)
    (hbuffers : s.outputs.buffers.length = f.results.length)
    (haside : ∀ host ∈ inputs, ¬ s.Receives host.storage) : g.Rests t f inputs results := by
  have hunit : t.executor.unit = s.executor.unit := h.only.later.unit
  have houtputs : t.outputs = s.outputs := h.only.outputs
  have hgt := hg.extends h.only.later.platform.memory
  -- A buffer that has been read into is as long as it was, since its tensor is no shorter.
  have hread : ∀ (p : Nat) (x : TensorId) (b : HostBuffer),
      (visible s.executor.unit.externalOutputs g.outputs)[p]? = some (some x) →
      s.outputs.buffers[p]? = some b →
      (t.memory.storage b.storage).length = (s.memory.storage b.storage).length ∧
        t.memory.storage b.storage <+: t.memory.contents x := fun p x b hx hb => by
    obtain ⟨spec, hspec, -⟩ := hg.tensors .output p x (visible_eq_some.1 hx).1
    have hreach := hcarries.reach p x b hx hb
    rw [hg.length_contents (visible_eq_some.1 hx).1 hspec,
      ← hgt.length_contents (visible_eq_some.1 hx).1 hspec] at hreach
    rw [h.read p x b hx hb]
    exact ⟨List.length_take_of_le hreach, List.take_prefix _ _⟩
  have hlength : ∀ j, (t.memory.storage j).length = (s.memory.storage j).length := fun j => by
    by_cases hreceives : s.Receives j
    · obtain ⟨p, b, hb, hposition, rfl⟩ := hreceives
      obtain ⟨x, hx, -⟩ := hg.exists_tensor (show (f.specs .output)[p]? = some _ from
        List.getElem?_eq_getElem (hbuffers ▸ (List.getElem?_eq_some_iff.1 hb).1))
      exact (hread p x b (visible_eq_some.2 ⟨hx, hposition⟩) hb).1
    · rw [h.others j hreceives]
  refine ⟨hgt, hcarries.of_fits hg hgt hunit houtputs fun b _ => hlength b.storage,
    fun q host x hhost hx => ?_, ?_, fun p x hx => ?_, fun p x b hx hb => ?_⟩
  · rw [hunit] at hx
    obtain ⟨-, -, hlive, -⟩ := hg.tensors .input q x (visible_eq_some.1 hx).1
    rw [h.fed q host x hhost hx, Memory.copy_congr (h.only.later.platform.memory.spec x hlive)
      (h.others _ (haside host (List.mem_of_getElem? hhost)))]
    exact Bytes.prefix_onto _ _
  · rw [h.only.later.kind_eq, hunit]
    exact h.evaluate
  · rw [hunit] at hx
    rw [h.stored p x hx]
    exact Bytes.prefix_onto _ _
  · rw [hunit] at hx
    rw [houtputs] at hb
    exact (hread p x b hx hb).2

/-- **A call leaves the output buffers as they are** if some group is at rest and the two groups hold
the same where the function reads and behind the results. -/
theorem Ran.storage_eq {results results' : List (Value UInt32)} (h : g.Rests s f inputs results)
    (h' : Ran s f g' inputs results' t) (hg' : g'.Fits s.memory f)
    (hkind : s.kind = .recording .pipelined) (hcount : f.parameters.length = inputs.length)
    (hbuffers : s.outputs.buffers.length = f.results.length)
    (hinputs : ∀ (q : Nat) (spec : TensorSpec) (host : HostBuffer) (x y : TensorId),
      f.parameters[q]? = some spec → spec.dtype = .f32 → inputs[q]? = some host →
      (visible s.executor.unit.externalInputs g.inputs)[q]? = some (some x) →
      (visible s.executor.unit.externalInputs g'.inputs)[q]? = some (some y) →
      (s.memory.copy y host).onto (s.memory.contents y) = s.memory.contents x)
    (hbehind : ∀ (p : Nat) (x y : TensorId), g.outputs[p]? = some x → g'.outputs[p]? = some y →
      (s.memory.contents y).drop (s.executor.unit.span f p) =
        (s.memory.contents x).drop (s.executor.unit.span f p)) (j : StorageId) :
    t.memory.storage j = s.memory.storage j := by
  have heval := h.evaluate
  rw [hkind] at heval
  -- Both groups are given the same parameters, so the results are the same.
  have hsame : results' = results := by
    have heval' := h'.evaluate
    rw [hkind, PipelineGroup.Fits.parametersOf_eq h.fits
      (hg'.extends h'.only.later.platform.memory) (fun q spec x y hspec hdtype hx hy => ?_),
      heval] at heval'
    · exact (Except.ok.inj heval').symm
    · have hhost : inputs[q]? = some _ :=
        List.getElem?_eq_getElem (hcount ▸ (List.getElem?_eq_some_iff.1 hspec).1)
      rw [h'.fed q _ y hhost hy]
      exact hinputs q spec _ x y hspec hdtype hhost hx hy
  subst hsame
  by_cases hreceives : s.Receives j
  · obtain ⟨p, b, hb, hposition, rfl⟩ := hreceives
    have hspec : (f.specs .output)[p]? = some _ :=
      List.getElem?_eq_getElem (hbuffers ▸ (List.getElem?_eq_some_iff.1 hb).1)
    obtain ⟨x, hx, -⟩ := h.fits.exists_tensor hspec
    obtain ⟨y, hy, -⟩ := hg'.exists_tensor hspec
    have hshown := visible_eq_some.2 ⟨hx, hposition⟩
    have hshown' := visible_eq_some.2 ⟨hy, hposition⟩
    -- The results are the same, and so is what stands behind them.
    have hcontents : t.memory.contents y = s.memory.contents x := by
      rw [h'.stored p y hshown', ← Bytes.onto_eq_self (h.stands p x hshown)]
      refine Bytes.onto_congr ?_
      rw [h.fits.length_stored s.executor.unit heval]
      exact hbehind p x y hx hy
    rw [h'.read p y b hshown' hb, hcontents]
    exact (List.prefix_iff_eq_take.1 (h.read p x b hshown hb)).symm
  · exact h'.others j hreceives

end ExecM

end TensorJit
