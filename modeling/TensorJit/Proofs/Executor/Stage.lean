import TensorJit.Proofs.Executor.Allocate
import TensorJit.Proofs.Executor.Call
import TensorJit.Proofs.Executor.Sound

/-!
# Tensors on stage

Before an executable is called, an artifact is found for the inputs and the output buffers are
ready (`Poised`); then every position of both sides gets its tensor (`Staged`). What is said of
the inputs when they are served still holds after the outputs have been served, and the tensors
of the outputs are those that the call may write to. The definition speaks of the first positions
of both sides, so it also says what is left when a tensor cannot be made.
-/

namespace TensorJit

open ExecState (Within OnlyMemory Sound)

/-- The values that a unit passes to a function: one for each input, absent where the input is
bound elsewhere or not floating point. -/
def ExecutionUnit.arguments (u : ExecutionUnit) (m : Memory) (inputs : List HostBuffer) :
    List (Option (Value UInt32)) :=
  inputs.zipIdx.map fun (host, position) =>
    if u.externalInputs.contains position || host.spec.dtype ≠ .f32 then none
    else some ⟨host.spec, Tensor.wordsOfBytes (m.storage host.storage)⟩

theorem ExecutionUnit.arguments_getElem? (u : ExecutionUnit) (m : Memory)
    (inputs : List HostBuffer) (q : Nat) :
    (u.arguments m inputs)[q]? = (inputs[q]?).map fun host =>
      if u.externalInputs.contains q || host.spec.dtype ≠ .f32 then none
      else some ⟨host.spec, Tensor.wordsOfBytes (m.storage host.storage)⟩ := by
  unfold arguments
  rw [List.getElem?_map, List.getElem?_zipIdx, Option.map_map, Nat.zero_add]
  rfl

theorem ExecutionUnit.arguments_congr (u : ExecutionUnit) {m n : Memory}
    (h : n.storages = m.storages) (inputs : List HostBuffer) :
    u.arguments n inputs = u.arguments m inputs := by
  unfold arguments Memory.storage
  rw [h]

/-- **Serving positions of one side keeps an executor sound**, if the buffers have the specs of the
positions. -/
theorem Filled.sound {δ : Nat → DType} {s t : ExecState} {id : ArtifactId} {a : Artifact}
    {side : Side} {hosts : List HostBuffer} {external : List Nat}
    {tensors : List (Option TensorId)} {slots : SlotTable} {ins : List TensorSpec}
    (h : Filled s id a side hosts external tensors slots t) (hsound : Sound δ s)
    (ha : s.cache.get? id = some a) (hexpects : s.executor.Expects δ a ins)
    (hspecs : hosts.map (·.spec) = a.specs ins side) (hle : tensors.length ≤ hosts.length) :
    Sound δ t := by
  have hfits := hsound.fits id a ins ha hexpects
  have hmemory := h.later.platform.memory
  refine hsound.update h.later ha h.cache (a.bare_withSlots side slots) (fun ins' hins' =>
    ⟨fun side' q slot hslot => ?_, fun p hpipeline => ?_⟩) h.within.owns
  · obtain rfl := hexpects.unique hins'
    have hsame : (a.withSlots side slots).specs ins side' = a.specs ins side' := by
      cases side <;> cases side' <;> rfl
    rw [hsame]
    have hold : (a.slots side').get? q = some slot → ∃ spec,
        (a.specs ins side')[q]? = some spec ∧ Slot.Fits s.kind t.memory spec slot := fun hs => by
      obtain ⟨spec, hspec, hslotFits⟩ := hfits.slots side' q slot hs
      exact ⟨spec, hspec, hslotFits.extends hmemory⟩
    rw [Artifact.slots_withSlots] at hslot
    split at hslot
    · rename_i hside
      subst hside
      -- A slot of this side is either new, or one that was there before.
      by_cases hq : tensors.length ≤ q ∨ external.contains q = true
      · exact hold (h.rest q hq ▸ hslot)
      · obtain ⟨hlt, hexternal⟩ := not_or.1 hq
        have hhost : hosts[q]? = some _ := List.getElem?_eq_getElem
          (Nat.lt_of_lt_of_le (Nat.lt_of_not_le hlt) hle)
        obtain ⟨tensor, htensor, hs⟩ :=
          h.served q _ (Nat.lt_of_not_le hlt) hhost (Bool.not_eq_true _ ▸ hexternal)
        rw [hs] at hslot
        obtain rfl := Option.some.inj hslot
        refine ⟨_, ?_, h.fits q _ tensor hhost htensor⟩
        rw [← hspecs, List.getElem?_map, hhost]
        rfl
    · exact hold hslot
  · rw [Artifact.pipeline_withSlots] at hpipeline
    rw [Artifact.executable_withSlots]
    exact (hfits.pipeline p hpipeline).extends hmemory

/-- An artifact has been found for the inputs of a call, and the output buffers are ready. Nothing
is said of other artifacts, nor of what the slots of this one were made for. -/
structure Poised (s : ExecState) (id : ArtifactId) (a : Artifact) (inputs : List HostBuffer) :
    Prop where
  /-- No two places have the same tensor. -/
  owns : s.cache.Owns s.memory
  /-- The artifact is there. -/
  found : s.cache.get? id = some a
  /-- Its pipeline fits its function. -/
  pipeline : ∀ p, a.pipeline = some p → p.Fits s.memory a.executable.function
  /-- The output buffers have the declared specs. -/
  results : a.executable.function.results = s.outputs.buffers.map (·.spec)
  /-- The storages of the inputs are as long as their specs say. -/
  filled : ∀ b ∈ inputs, (s.memory.read b).WellSized
  /-- The output buffers are separate. -/
  separate : s.outputs.Separate s.memory
  /-- Their storages are as long as their specs say. -/
  sized : ∀ b ∈ s.outputs.buffers, (s.memory.read b).WellSized

/-- The tensors of the slots that are used again in a call fit its buffers. -/
structure ExecState.SlotsFit (s : ExecState) (a : Artifact) (inputs : List HostBuffer) : Prop where
  /-- Those of the inputs. -/
  ins : a.inputs.FitsFor s.kind s.memory s.executor.unit.externalInputs inputs
  /-- Those of the outputs. -/
  outs : a.outputs.FitsFor s.kind s.memory s.executor.unit.externalOutputs s.outputs.buffers

/-- The executable of an artifact can be called with some inputs: its function is typed, and
declares their specs. -/
structure Artifact.Callable (a : Artifact) (inputs : List HostBuffer) : Prop where
  /-- It is typed. -/
  typed : a.executable.function.Typed
  /-- It declares the specs. -/
  parameters : a.executable.function.parameters = inputs.map (·.spec)

/-- The first positions of both sides have been served. -/
def Staged (s : ExecState) (id : ArtifactId) (a : Artifact) (inputs : List HostBuffer)
    (ins : List (Option TensorId)) (slots : SlotTable) (outs : List (Option TensorId))
    (slots' : SlotTable) (t : ExecState) : Prop :=
  ∃ r, Loaded s id a inputs ins slots r ∧
    Filled r id (a.withSlots .input slots) .output s.outputs.buffers
      s.executor.unit.externalOutputs outs slots' t ∧
    t.platform.registries = r.platform.registries

namespace Staged

variable {s t u : ExecState} {id : ArtifactId} {a : Artifact} {inputs : List HostBuffer}
  {ins outs : List (Option TensorId)} {slots slots' : SlotTable}
  {host : HostBuffer} {tensor : TensorId} {q : Nat}

theorem of_loaded (h : Loaded s id a inputs ins slots t) (ha : s.cache.get? id = some a) :
    Staged s id a inputs ins slots [] a.outputs t :=
  ⟨t, h, .start h.within.owns (h.toFilled.found ha), rfl⟩

theorem later (h : Staged s id a inputs ins slots outs slots' t) : s.Later t := by
  obtain ⟨r, hin, hout, -⟩ := h
  exact hin.later.trans hout.later

theorem outputs_eq (h : Staged s id a inputs ins slots outs slots' t) :
    t.outputs = s.outputs := by
  obtain ⟨r, hin, hout, -⟩ := h
  exact hout.outputs.trans hin.outputs

theorem storages_eq (h : Staged s id a inputs ins slots outs slots' t) :
    t.memory.storages = s.memory.storages := by
  obtain ⟨r, hin, hout, -⟩ := h
  exact hout.storages.trans hin.storages

theorem cache_eq (h : Staged s id a inputs ins slots outs slots' t) :
    t.cache = s.cache.update id ((a.withSlots .input slots).withSlots .output slots') := by
  obtain ⟨r, hin, hout, -⟩ := h
  rw [hout.cache, hin.cache, Cache.update_update]

/-- Only slots of the artifact have changed, and what is in their tensors. -/
theorem within (h : Staged s id a inputs ins slots outs slots' t) :
    Within (fun i p => i = id ∧ ∃ side q, p = .slot side q) s t := by
  obtain ⟨r, hin, hout, -⟩ := h
  exact (hin.within.mono fun i p ⟨hi, q, _, hp⟩ => ⟨hi, .input, q, hp⟩).trans
    (hout.within.mono fun i p ⟨hi, q, _, hp⟩ => ⟨hi, .output, q, hp⟩)

/-- What the tracker vouches for. -/
theorem fresh_iff (h : Staged s id a inputs ins slots outs slots' t) (storage : StorageId)
    (j : ArtifactId) : t.platform.isFresh s.executor.tracker storage j = true ↔
      s.platform.isFresh s.executor.tracker storage j = true ∨
        s.executor.tracker.Listens s.platform.registries ∧ s.kind.isHostBound = false ∧
          j = id ∧ s.ServedBefore inputs ins.length storage := by
  obtain ⟨r, hin, -, hregistries⟩ := h
  rw [← hin.fresh]
  unfold Platform.isFresh
  rw [hregistries]

/-- An input tensor is in the slot of its position, and fits the buffer. -/
theorem input (h : Staged s id a inputs ins slots outs slots' t)
    (ha : s.cache.get? id = some a) (hhost : inputs[q]? = some host)
    (htensor : ins[q]? = some (some tensor)) :
    t.cache.tensorAt id (.slot .input q) = some tensor ∧
      slots.get? q = some ⟨host.storage, tensor⟩ ∧
      Slot.Fits s.kind t.memory host.spec ⟨host.storage, tensor⟩ := by
  obtain ⟨r, hin, hout, -⟩ := h
  obtain ⟨hat, hslot, hfits⟩ := hin.toFilled.tensorAt ha hhost htensor
  refine ⟨(hout.within.places id _ fun hp => ?_).trans hat, hslot,
    hfits.extends hout.later.platform.memory⟩
  obtain ⟨-, p, -, hp⟩ := hp
  exact nomatch (Place.slot.inj hp).1

/-- Serving the outputs does not touch what an input tensor holds. -/
theorem contents_eq {r : ExecState} (hin : Loaded s id a inputs ins slots r)
    (hout : Filled r id (a.withSlots .input slots) .output s.outputs.buffers
      s.executor.unit.externalOutputs outs slots' t) (ha : s.cache.get? id = some a)
    (hhost : inputs[q]? = some host) (htensor : ins[q]? = some (some tensor)) :
    t.memory.contents tensor = r.memory.contents tensor := by
  refine Memory.contents_eq_of_tensor_eq (hout.within.kept id (.slot .input q) tensor
    (fun hp => ?_) (hin.toFilled.tensorAt ha hhost htensor).1) hout.storages
  obtain ⟨-, p, -, hp⟩ := hp
  exact nomatch (Place.slot.inj hp).1

theorem reused (h : Staged s id a inputs ins slots outs slots' t)
    (ha : s.cache.get? id = some a) (hhost : inputs[q]? = some host)
    (htensor : ins[q]? = some (some tensor)) (hskips : s.Skips id a inputs q) :
    a.inputs.get? q = some ⟨host.storage, tensor⟩ ∧
      t.memory.contents tensor = s.memory.contents tensor := by
  obtain ⟨r, hin, hout, -⟩ := h
  obtain ⟨hslot, hcontents⟩ := hin.reused q host tensor hhost htensor hskips
  exact ⟨hslot, (contents_eq hin hout ha hhost htensor).trans hcontents⟩

theorem current (h : Staged s id a inputs ins slots outs slots' t)
    (ha : s.cache.get? id = some a) (hhost : inputs[q]? = some host)
    (htensor : ins[q]? = some (some tensor)) (hskips : ¬ s.Skips id a inputs q) :
    t.memory.contents tensor = s.memory.storage host.storage := by
  obtain ⟨r, hin, hout, -⟩ := h
  exact (contents_eq hin hout ha hhost htensor).trans
    (hin.current q host tensor hhost htensor hskips)

/-- **What is passed is current** if only copies that are current are left out: every tensor that has
been served holds what its buffer holds. -/
theorem contents_eq_storage (h : Staged s id a inputs ins slots outs slots' t)
    (ha : s.cache.get? id = some a) (hcurrent : s.SkipsCurrent id a inputs)
    (hhost : inputs[q]? = some host) (htensor : ins[q]? = some (some tensor)) :
    t.memory.contents tensor = s.memory.storage host.storage := by
  by_cases hskips : s.Skips id a inputs q
  · obtain ⟨hslot, hcontents⟩ := h.reused ha hhost htensor hskips
    have hin : s.executor.unit.externalInputs.contains q = false := by
      cases hexternal : s.executor.unit.externalInputs.contains q with
      | false => rfl
      | true =>
        obtain ⟨r, hr, -, -⟩ := h
        rw [hr.absent q (List.getElem?_eq_some_iff.1 htensor).1 hexternal] at htensor
        cases htensor
    rw [hcontents]
    exact hcurrent q host tensor hhost hslot hin hskips
  · exact h.current ha hhost htensor hskips

/-- Every position has been served, or is bound elsewhere. -/
theorem ins_getElem? (h : Staged s id a inputs ins slots outs slots' t)
    (hhost : inputs[q]? = some host) (hlen : ins.length = inputs.length) :
    if s.executor.unit.externalInputs.contains q then ins[q]? = some none
    else ∃ tensor, ins[q]? = some (some tensor) := by
  have hq : q < ins.length := hlen ▸ (List.getElem?_eq_some_iff.1 hhost).1
  obtain ⟨r, hin, -, -⟩ := h
  cases hexternal : s.executor.unit.externalInputs.contains q with
  | true =>
    rw [if_pos rfl]
    exact hin.absent q hq hexternal
  | false =>
    rw [if_neg Bool.false_ne_true]
    obtain ⟨tensor, htensor, -⟩ := hin.served q host hq hhost hexternal
    exact ⟨tensor, htensor⟩

/-- The slots of positions that have not been served are as they were. -/
theorem rest (h : Staged s id a inputs ins slots outs slots' t)
    (hq : ins.length ≤ q ∨ s.executor.unit.externalInputs.contains q = true) :
    slots.get? q = a.inputs.get? q := by
  obtain ⟨r, hin, -, -⟩ := h
  exact hin.rest q hq

/-- An output tensor is in the slot of its position, and fits the buffer. -/
theorem output (h : Staged s id a inputs ins slots outs slots' t)
    (ha : s.cache.get? id = some a) (hle : outs.length ≤ s.outputs.buffers.length)
    (htensor : outs[q]? = some (some tensor)) : ∃ b : HostBuffer,
      s.outputs.buffers[q]? = some b ∧ t.cache.tensorAt id (.slot .output q) = some tensor ∧
      Slot.Fits s.kind t.memory b.spec ⟨b.storage, tensor⟩ := by
  obtain ⟨r, hin, hout, -⟩ := h
  have hq : q < s.outputs.buffers.length :=
    Nat.lt_of_lt_of_le (List.getElem?_eq_some_iff.1 htensor).1 hle
  have hb : s.outputs.buffers[q]? = some _ := List.getElem?_eq_getElem hq
  obtain ⟨hat, -, hfits⟩ := hout.tensorAt (hin.toFilled.found ha) hb htensor
  exact ⟨_, hb, hat, hin.later.kind_eq ▸ hfits⟩

/-- **The output tensors are offered for the output buffers.** -/
theorem offered (h : Staged s id a inputs ins slots outs slots' t)
    (ha : s.cache.get? id = some a) (hle : outs.length ≤ s.outputs.buffers.length) :
    Offered t.kind t.memory t.outputs.buffers outs := by
  have houtputs := h.outputs_eq
  have hkind := h.later.kind_eq
  refine ⟨fun p x hx => ?_, fun p p' x hx hx' => ?_⟩
  · obtain ⟨b, hb, -, hfits⟩ := h.output ha hle hx
    exact ⟨b, by rw [houtputs, hb], hkind.symm ▸ hfits⟩
  · obtain ⟨-, -, hx, -⟩ := h.output ha hle hx
    obtain ⟨-, -, hx', -⟩ := h.output ha hle hx'
    exact (Place.slot.inj (h.within.owns.apart id id _ _ x hx hx').2).2

/-- **The executor stays sound**, wherever the walk over the positions stops. -/
theorem sound {δ : Nat → DType} (h : Staged s id a inputs ins slots outs slots' t)
    (hp : Poised s id a inputs) (hsound : Sound δ s)
    (hexpects : s.executor.Expects δ a (inputs.map (·.spec))) (hle : ins.length ≤ inputs.length)
    (hle' : outs.length ≤ s.outputs.buffers.length) : Sound δ t := by
  obtain ⟨r, hin, hout, -⟩ := h
  have hexpects' : r.executor.Expects δ (a.withSlots .input slots) (inputs.map (·.spec)) :=
    (hexpects.of_statics_eq hin.later.statics).of_signature_eq
      (Artifact.bare_eq_iff.1 (a.bare_withSlots .input slots)).2.1
  refine hout.sound (hin.toFilled.sound hsound hp.found hexpects rfl hle)
    (hin.toFilled.found hp.found) hexpects' ?_ hle'
  change s.outputs.buffers.map (·.spec) = (a.withSlots .input slots).executable.function.results
  rw [Artifact.executable_withSlots, hp.results]

/-- **The input tensors are filled**, each as its spec says. -/
theorem supplied (h : Staged s id a inputs ins slots outs slots' t)
    (hp : Poised s id a inputs) (hcall : a.Callable inputs)
    (hle : ins.length ≤ inputs.length) :
    Backend.Supplied a.executable.function t.memory ins := by
  intro q x hx
  have hhost : inputs[q]? = some _ := List.getElem?_eq_getElem
    (Nat.lt_of_lt_of_le (List.getElem?_eq_some_iff.1 hx).1 hle)
  obtain ⟨-, -, hfits⟩ := h.input hp.found hhost hx
  have hspec := hfits.spec_eq
  have hhome := hfits.home
  dsimp only at hspec hhome
  rw [hspec, hcall.parameters, List.getElem?_map, hhost]
  refine ⟨rfl, ?_⟩
  unfold homeFor at hhome
  split at hhome
  · rw [Memory.contents_of_home_host hhome]
    unfold Memory.storage
    rw [h.storages_eq]
    exact hp.filled _ (List.mem_of_getElem? hhost)
  · exact Memory.length_contents_of_home_own hhome

end Staged

/-- **When every input tensor holds what its buffer holds, a function is called with the values
of the inputs.** Only the reference backend looks at the specs that the function declares. -/
theorem parametersOf_eq_arguments {u : ExecutionUnit} {m n : Memory} {declared : List TensorSpec}
    {inputs : List HostBuffer} {ins : List (Option TensorId)} {κ : BackendKind}
    (hlen : declared.length = inputs.length)
    (hreference : κ = .reference → declared = inputs.map (·.spec))
    (hins : ∀ (q : Nat) (host : HostBuffer), inputs[q]? = some host →
      if u.externalInputs.contains q then ins[q]? = some none
      else ∃ x, ins[q]? = some (some x) ∧ (n.tensor x).spec = host.spec ∧
        n.contents x = m.storage host.storage) :
    Backend.parametersOf κ n declared ins = u.arguments m inputs := by
  refine List.ext_getElem? fun q => ?_
  rw [Backend.parametersOf_getElem?, ExecutionUnit.arguments_getElem?]
  cases hhost : inputs[q]? with
  | none =>
    have hnone : declared[q]? = none := by
      rw [List.getElem?_eq_none_iff, hlen]
      exact List.getElem?_eq_none_iff.1 hhost
    rw [hnone]
    rfl
  | some host =>
    have hq := hins q host hhost
    obtain ⟨spec, hdeclared⟩ : ∃ spec, declared[q]? = some spec :=
      ⟨_, List.getElem?_eq_getElem (hlen ▸ (List.getElem?_eq_some_iff.1 hhost).1)⟩
    rw [hdeclared, Option.map_some, Option.map_some]
    refine congrArg some ?_
    cases hexternal : u.externalInputs.contains q with
    | true =>
      rw [hexternal, if_pos rfl] at hq
      rw [hq]
      rfl
    | false =>
      rw [hexternal, if_neg Bool.false_ne_true] at hq
      obtain ⟨x, hx, hspec, hcontents⟩ := hq
      rw [hx, show (some (some x)).join = some x from rfl, Option.bind_some,
        Backend.parameterOf_eq fun hκ => ?_, hspec, hcontents]
      · -- Only floats are read from a tensor; the others are given by their specs alone.
        by_cases hdtype : host.spec.dtype = .f32
        · rw [if_pos hdtype, if_neg (by simp [hdtype])]
        · rw [if_neg hdtype, if_pos (by simp [hdtype])]
      · rw [hreference hκ, List.getElem?_map, hhost] at hdeclared
        rw [hspec]
        exact (Option.some.inj hdeclared).symm

end TensorJit
