import TensorJit.Proofs.Executor.Stage

/-!
# Calls

A call with tensors from slots is in two parts: every position gets its tensor (`ExecM.stage`),
and then the executable is called and the results are read back (`ExecM.finish`). **No storage of
the host but those of the output buffers is touched, and no tensor but those of the results**
(`ExecM.RanOnSlots`). If the function is typed and declares the specs of the inputs, the results
are those of evaluating it on what the input tensors hold, and the output buffers have them
(`Delivered`).
-/

namespace TensorJit

open ExecState (Within OnlyMemory Sound)

/-- What a function gives for some arguments. -/
structure Function.Yields (f : Function) (arguments : List (Option (Value UInt32)))
    (results : List (Value UInt32)) : Prop where
  /-- Evaluation gives the results. -/
  evaluate : f.evaluate .binary32 arguments = .ok results
  /-- They have the declared specs. -/
  specs : results.map (·.spec) = f.results
  /-- They are as long as their specs say. -/
  sized : ∀ v ∈ results, v.Sized

/-- The results of a call have their tensors, and nothing has happened to the host. -/
structure Equipped (s : ExecState) (outs : List (Option TensorId)) (t : ExecState) : Prop where
  /-- The executor is the same. -/
  later : s.Later t
  /-- The output buffers are equal. -/
  outputs : t.outputs = s.outputs
  /-- The storages of the host are equal. -/
  storages : t.memory.storages = s.memory.storages
  /-- The output tensors are offered for the output buffers. -/
  offered : Offered t.kind t.memory t.outputs.buffers outs
  /-- A position has a tensor for its result exactly if it is not bound elsewhere. -/
  wanted : ∀ (p : Nat) (b : HostBuffer), s.outputs.buffers[p]? = some b →
    ((∃ x, outs[p]? = some (some x)) ↔ s.executor.unit.externalOutputs.contains p = false)

/-- The results of a call are in the output buffers, except at positions bound elsewhere, and
nothing else has happened to the storages of the host. -/
structure Delivered (s : ExecState) (results : List (Value UInt32)) (t : ExecState) : Prop where
  /-- The executor is the same. -/
  later : s.Later t
  /-- The output buffers are equal. -/
  outputs : t.outputs = s.outputs
  /-- There are as many storages. -/
  size : t.memory.storages.size = s.memory.storages.size
  /-- A buffer holds the bytes of its result. -/
  results : ∀ (p : Nat) (b : HostBuffer) (v : Value UInt32), s.outputs.buffers[p]? = some b →
    s.executor.unit.externalOutputs.contains p = false → results[p]? = some v →
    t.memory.storage b.storage = Tensor.bytesOfWords v.data
  /-- Every other storage is as it was. -/
  storages : ∀ storage, (∀ (p : Nat) (b : HostBuffer), s.outputs.buffers[p]? = some b →
    s.executor.unit.externalOutputs.contains p = false → b.storage ≠ storage) →
    t.memory.storage storage = s.memory.storage storage

/-- What happens before and after to things other than storages of the host makes no
difference. -/
theorem Delivered.between {s t u v : ExecState} {results : List (Value UInt32)}
    (h : Delivered t results u) (hst : s.Later t) (houtputs : t.outputs = s.outputs)
    (hstorages : t.memory.storages = s.memory.storages) (huv : u.Later v)
    (houtputs' : v.outputs = u.outputs) (hstorages' : v.memory.storages = u.memory.storages) :
    Delivered s results v := by
  have hafter : ∀ storage, v.memory.storage storage = u.memory.storage storage := fun storage => by
    unfold Memory.storage
    rw [hstorages']
  refine ⟨(hst.trans h.later).trans huv, houtputs'.trans (h.outputs.trans houtputs),
    by rw [hstorages', h.size, hstorages], fun p b w hb hin hw => ?_, fun storage hne => ?_⟩
  · rw [hafter]
    exact h.results p b w (houtputs ▸ hb) (by rw [hst.unit]; exact hin) hw
  · rw [hafter, h.storages storage fun p b hb hin => hne p b (houtputs ▸ hb)
      (by rw [← hst.unit]; exact hin)]
    unfold Memory.storage
    rw [hstorages]

theorem Equipped.delivered {s t u : ExecState} {outs : List (Option TensorId)}
    {results : List (Value UInt32)} (h : Equipped s outs t)
    (hanswered : Answered t outs results u) : Delivered s results u where
  later := h.later.trans hanswered.only.later
  outputs := hanswered.only.outputs.trans h.outputs
  size := by rw [hanswered.size, h.storages]
  results p b v hb hin hv := by
    obtain ⟨x, hx⟩ := (h.wanted p b hb).2 hin
    exact hanswered.results p x b v hx (h.outputs ▸ hb) hv
  storages storage hne := by
    refine (hanswered.storages storage fun p x b hx hb => ?_).trans ?_
    · rw [h.outputs] at hb
      exact hne p b hb ((h.wanted p b hb).1 ⟨x, hx⟩)
    · unfold Memory.storage
      rw [h.storages]

namespace Staged

variable {s t : ExecState} {id : ArtifactId} {a : Artifact} {inputs : List HostBuffer}
  {ins outs : List (Option TensorId)} {slots slots' : SlotTable}

/-- When all positions have been served, all tensors are at hand. -/
theorem equipped (h : Staged s id a inputs ins slots outs slots' t) (hp : Poised s id a inputs)
    (houts : outs.length = s.outputs.buffers.length) : Equipped s outs t where
  later := h.later
  outputs := h.outputs_eq
  storages := h.storages_eq
  offered := h.offered hp.found (Nat.le_of_eq houts)
  wanted p b hb := by
    have hlt : p < outs.length := houts ▸ (List.getElem?_eq_some_iff.1 hb).1
    obtain ⟨r, -, hout, -⟩ := h
    cases hexternal : s.executor.unit.externalOutputs.contains p with
    | true =>
      refine ⟨fun ⟨x, hx⟩ => ?_, nofun⟩
      rw [hout.absent p hlt hexternal] at hx
      cases hx
    | false =>
      obtain ⟨x, hx, -⟩ := hout.served p b hlt hb hexternal
      exact ⟨fun _ => rfl, fun _ => ⟨x, hx⟩⟩

end Staged

namespace ExecM

/-! ### The executable is called -/

section Equipped

variable {s t u : ExecState} {id : ArtifactId} {a : Artifact} {inputs : List HostBuffer}
  {ins outs : List (Option TensorId)} {results : List (Value UInt32)}

/-- The output buffers are as long and as separate as when the call began. -/
theorem outputs_of_equipped (hp : Poised s id a inputs) (he : Equipped s outs t) :
    t.outputs.Separate t.memory ∧ ∀ b ∈ t.outputs.buffers, (t.memory.read b).WellSized := by
  refine ⟨he.outputs.symm ▸ hp.separate.of_extends he.later.platform.memory, fun b hb => ?_⟩
  have hsized := hp.sized b (he.outputs ▸ hb)
  unfold Memory.read Memory.storage at hsized ⊢
  rwa [he.storages]

/-- **The executable is called.** If it can be called with the inputs, this fails only if
evaluation does. -/
theorem ends_callEquipped (hp : Poised s id a inputs) (he : Equipped s outs t)
    (hins : a.Callable inputs → Backend.Supplied a.executable.function t.memory ins) :
    Ends (callExecutable a.executable outs ins t)
      (fun _ u => Called t outs u ∧ (a.Callable inputs → ∃ results,
        a.executable.function.Yields (Backend.parametersOf t.kind t.memory
          a.executable.function.parameters ins) results ∧ Stored t outs results u))
      fun _ u => Called t outs u ∧ (a.Callable inputs →
        (∃ fault, a.executable.function.evaluate .binary32 (Backend.parametersOf t.kind t.memory
          a.executable.function.parameters ins) = .error fault) ∧ t.OnlyMemory t.memory u) := by
  have hcalled := called_callExecutable (s := t) a.executable outs ins
  by_cases hcall : a.Callable inputs
  · obtain ⟨hseparate, hsized⟩ := outputs_of_equipped hp he
    have hready := he.offered.ready hseparate hsized
    rw [he.outputs, ← hp.results] at hready
    refine (hcalled.and (ends_callExecutable hcall.typed (hins hcall) hready)).mono
      (fun _ u hu => ⟨hu.1, fun _ => ?_⟩) fun _ u hu => ⟨hu.1, fun _ => hu.2⟩
    obtain ⟨-, results, heval, hspecs, hresults, hstored⟩ := hu
    exact ⟨results, ⟨heval, hspecs, hresults⟩, hstored⟩
  · exact hcalled.mono (fun _ u hu => ⟨hu, fun h => absurd h hcall⟩)
      fun _ u hu => ⟨hu, fun h => absurd h hcall⟩

/-- **The results are read back** where tensors have storage of their own. -/
theorem ends_readEquipped (hp : Poised s id a inputs) (he : Equipped s outs t)
    (hown : t.kind.isHostBound = false) (hcalled : Called t outs u) :
    Ends (readOutputs outs u)
      (fun _ v => ReadBack u outs (outs.zip u.outputs.buffers).length v) fun _ _ => False := by
  have hkind : u.kind = t.kind := hcalled.only.later.kind_eq
  obtain ⟨hseparate, hsized⟩ := outputs_of_equipped hp he
  have hoffered : Offered u.kind u.memory u.outputs.buffers outs := by
    rw [hkind, hcalled.only.outputs]
    refine ⟨fun p x hx => ?_, he.offered.apart⟩
    obtain ⟨b, hb, hfits⟩ := he.offered.fits p x hx
    exact ⟨b, hb, hfits.extends hcalled.rewritten.grown⟩
  refine ends_readOutputs hoffered (by rw [hkind, hown]) ?_ fun b hb => ?_
  · rw [hcalled.only.outputs]
    exact hseparate.of_extends hcalled.rewritten.grown
  · have := hsized b (hcalled.only.outputs ▸ hb)
    unfold Memory.read at this ⊢
    rwa [hcalled.storages_of_own he.offered hown]

end Equipped

/-! ### With tensors from slots -/

/-- The tensors for all positions of a call, from slots. -/
def stage (id : ArtifactId) (inputs : List HostBuffer) : ExecM (Allocation × Allocation) := do
  let ins ← allocateInputs id inputs
  let outs ← allocateOutputs id (← get).outputs.buffers
  return (ins, outs)

/-- What is left of a call when it has its tensors. -/
def finish (found : Lookup) (ins outs : Allocation) : ExecM Report := do
  callExecutable found.executable outs.tensors ins.tensors
  if !(← kind).isHostBound then readOutputs outs.tensors
  return {
    artifact := found.artifact
    signature := found.signature
    hit := found.hit
    tensorsCreated := ins.created + outs.created
    inputCopies := ins.copies
    bytesCopied := ins.bytesCopied
    group := none }

theorem runOnSlots_eq (found : Lookup) (inputs : List HostBuffer) :
    runOnSlots found inputs =
      stage found.artifact inputs >>= fun tensors => finish found tensors.1 tensors.2 := by
  unfold runOnSlots stage
  simp only [bind_assoc, pure_bind]
  rfl

variable {s t : ExecState} {id : ArtifactId} {a : Artifact} {inputs : List HostBuffer}

/-- The walk over the positions of a call has stopped somewhere, among the inputs only where a tensor
had to be made. -/
def Interrupted (s : ExecState) (id : ArtifactId) (a : Artifact) (inputs : List HostBuffer)
    (t : ExecState) : Prop :=
  ∃ ins slots outs slots', ins.length ≤ inputs.length ∧ outs.length ≤ s.outputs.buffers.length ∧
    (ins.length = inputs.length ∨ s.Vacant a ins.length) ∧
    Staged s id a inputs ins slots outs slots' t

/-- **Every position gets its tensor**, as far as tensors can be made. -/
theorem ends_stage (hp : Poised s id a inputs) (hfit : s.SlotsFit a inputs) :
    Ends (stage id inputs s)
      (fun w t => ∃ slots slots', w.1.tensors.length = inputs.length ∧
        w.2.tensors.length = s.outputs.buffers.length ∧
        Staged s id a inputs w.1.tensors slots w.2.tensors slots' t)
      fun _ t => Interrupted s id a inputs t ∧ ¬ s.device.backend.Quiet := by
  unfold stage
  rw [ends_bind]
  refine (ends_allocateInputs hp.owns hp.found hfit.ins hp.filled).mono
    (fun ins r hr => ?_) fun _ t ht => ?_
  · obtain ⟨slots, hlen, hloaded⟩ := hr
    have hfound := hloaded.toFilled.found hp.found
    rw [ends_bind, ends_get, ends_bind]
    rw [show r.outputs.buffers = s.outputs.buffers by rw [hloaded.outputs]]
    have hfits : ((a.withSlots .input slots).slots .output).FitsFor r.kind r.memory
        r.executor.unit.externalOutputs s.outputs.buffers := by
      rw [Artifact.slots_withSlots, if_neg nofun, hloaded.later.kind_eq, hloaded.later.unit]
      exact hfit.outs.extends hloaded.later.platform.memory
    refine (ends_allocateOutputs hloaded.within.owns hfound hfits).mono
      (fun outs t ht => ?_) fun _ t ht => ?_
    · obtain ⟨slots', hlen', hfilled, hregistries⟩ := ht
      rw [hloaded.later.unit] at hfilled
      rw [ends_pure]
      exact ⟨slots, slots', hlen, hlen', r, hloaded, hfilled, hregistries⟩
    · obtain ⟨⟨outs, slots', hle, hfilled, hregistries⟩, hnot⟩ := ht
      rw [hloaded.later.unit] at hfilled
      exact ⟨⟨ins.tensors, slots, outs, slots', Nat.le_of_eq hlen, hle, .inl hlen, r, hloaded,
        hfilled, hregistries⟩, not_quiet_of_later hloaded.later hnot⟩
  · obtain ⟨⟨ins, slots, hle, hvacant, hloaded⟩, hnot⟩ := ht
    exact ⟨⟨ins, slots, [], a.outputs, hle, Nat.zero_le _, .inr hvacant,
      .of_loaded hloaded hp.found⟩, hnot⟩

/-- A report on a call of what has been found. -/
structure ReportOn (found : Lookup) (r : Report) : Prop where
  /-- The artifact that was found. -/
  artifact : r.artifact = found.artifact
  /-- The signature of the inputs. -/
  signature : r.signature = found.signature
  /-- Whether the artifact was in the cache. -/
  hit : r.hit = found.hit

/-- **The executable is called and the results end up in the output buffers.** -/
theorem ends_finish (hp : Poised s id a inputs) {found : Lookup}
    (hexecutable : found.executable = a.executable) {ins outs : Allocation}
    (he : Equipped s outs.tensors t)
    (hins : a.Callable inputs → Backend.Supplied a.executable.function t.memory ins.tensors) :
    Ends (finish found ins outs t)
      (fun r u => ReportOn found r ∧ Affected t outs.tensors u ∧ (a.Callable inputs →
        ∃ results, a.executable.function.Yields (Backend.parametersOf t.kind t.memory
          a.executable.function.parameters ins.tensors) results ∧
          Answered t outs.tensors results u))
      fun _ u => Called t outs.tensors u ∧ (a.Callable inputs →
        (∃ fault, a.executable.function.evaluate .binary32 (Backend.parametersOf t.kind t.memory
          a.executable.function.parameters ins.tensors) = .error fault) ∧
          t.OnlyMemory t.memory u) := by
  unfold finish
  rw [ends_bind, hexecutable]
  refine (ends_callEquipped hp he hins).mono (fun _ u hu => ?_) fun _ u hu => hu
  obtain ⟨hcalled, hstored⟩ := hu
  rw [ends_bind, ends_kind, hcalled.only.later.kind_eq]
  dsimp only
  cases hbound : t.kind.isHostBound with
  | true =>
    rw [Bool.not_true, if_neg Bool.false_ne_true, ends_pure]
    refine ⟨⟨rfl, rfl, rfl⟩, hcalled.affected he.offered hbound, fun hcall => ?_⟩
    obtain ⟨results, hyields, hstored⟩ := hstored hcall
    exact ⟨results, hyields, hstored.answered he.offered hbound⟩
  | false =>
    rw [Bool.not_false, if_pos rfl, ends_bind]
    refine (ends_readEquipped hp he hbound hcalled).mono (fun _ v hv => ?_) fun _ _ h => h.elim
    refine ⟨⟨rfl, rfl, rfl⟩, hcalled.affected_of_readBack he.offered hbound hv, fun hcall => ?_⟩
    obtain ⟨results, hyields, hstored⟩ := hstored hcall
    exact ⟨results, hyields, hstored.readBack he.offered hbound hv⟩

/-- A call with tensors from slots has gone well: in a state in which every position had its
tensor, the executable was called. -/
structure RanOnSlots (s : ExecState) (id : ArtifactId) (a : Artifact) (inputs : List HostBuffer)
    (ins outs : List (Option TensorId)) (t u : ExecState) : Prop where
  /-- Every position had its tensor. -/
  staged : ∃ slots slots', ins.length = inputs.length ∧
    outs.length = s.outputs.buffers.length ∧ Staged s id a inputs ins slots outs slots' t
  /-- The output buffers may have been written to, and the tensors of the results. -/
  affected : Affected t outs u
  /-- The function was evaluated on what the input tensors held, and the results are in the
  output buffers. -/
  answered : a.Callable inputs → ∃ results,
    a.executable.function.Yields (Backend.parametersOf t.kind t.memory
      a.executable.function.parameters ins) results ∧ Answered t outs results u

/-- A call with tensors from slots has failed when every position had its tensor. -/
def FailedOnSlots (s : ExecState) (id : ArtifactId) (a : Artifact) (inputs : List HostBuffer)
    (u : ExecState) : Prop :=
  ∃ ins slots outs slots' t, ins.length = inputs.length ∧
    outs.length = s.outputs.buffers.length ∧ Staged s id a inputs ins slots outs slots' t ∧
    Called t outs u ∧ (a.Callable inputs →
      (∃ fault, a.executable.function.evaluate .binary32 (Backend.parametersOf t.kind t.memory
        a.executable.function.parameters ins) = .error fault) ∧ t.OnlyMemory t.memory u)

/-- **A call with tensors from slots.** -/
theorem ends_runOnSlots (hp : Poised s id a inputs) (hfit : s.SlotsFit a inputs)
    {found : Lookup} (hartifact : found.artifact = id) (hexecutable : found.executable = a.executable) :
    Ends (runOnSlots found inputs s)
      (fun r u => ReportOn found r ∧ ∃ ins outs t, RanOnSlots s id a inputs ins outs t u)
      fun _ u => Interrupted s id a inputs u ∧ ¬ s.device.backend.Quiet ∨
        FailedOnSlots s id a inputs u := by
  rw [runOnSlots_eq, ends_bind, hartifact]
  refine (ends_stage hp hfit).mono (fun w t ht => ?_) fun _ u hu => .inl hu
  obtain ⟨slots, slots', hins, houts, hstaged⟩ := ht
  refine (ends_finish hp hexecutable (hstaged.equipped hp houts) fun hcall =>
    hstaged.supplied hp hcall (Nat.le_of_eq hins)).mono (fun r u hu => ?_) fun _ u hu => .inr ?_
  · obtain ⟨hr, haffected, hanswered⟩ := hu
    exact ⟨hr, _, _, t, ⟨slots, slots', hins, houts, hstaged⟩, haffected, hanswered⟩
  · obtain ⟨hcalled, hfault⟩ := hu
    exact ⟨_, slots, _, slots', t, hins, houts, hstaged, hcalled, hfault⟩

namespace RanOnSlots

variable {ins outs : List (Option TensorId)} {u : ExecState}

theorem delivered (h : RanOnSlots s id a inputs ins outs t u) (hp : Poised s id a inputs)
    (hcall : a.Callable inputs) : ∃ results, a.executable.function.Yields
      (Backend.parametersOf t.kind t.memory a.executable.function.parameters ins) results ∧
      Delivered s results u := by
  obtain ⟨slots, slots', -, houts, hstaged⟩ := h.staged
  obtain ⟨results, hyields, hanswered⟩ := h.answered hcall
  exact ⟨results, hyields, (hstaged.equipped hp houts).delivered hanswered⟩

theorem sound {δ : Nat → DType} (h : RanOnSlots s id a inputs ins outs t u)
    (hp : Poised s id a inputs) (hsound : Sound δ s)
    (hexpects : s.executor.Expects δ a (inputs.map (·.spec))) : Sound δ u := by
  obtain ⟨slots, slots', hins, houts, hstaged⟩ := h.staged
  exact (hstaged.sound hp hsound hexpects (Nat.le_of_eq hins) (Nat.le_of_eq houts)).onlyMemory
    h.affected.only

end RanOnSlots

theorem FailedOnSlots.sound {δ : Nat → DType} {u : ExecState}
    (h : FailedOnSlots s id a inputs u) (hp : Poised s id a inputs) (hsound : Sound δ s)
    (hexpects : s.executor.Expects δ a (inputs.map (·.spec))) : Sound δ u := by
  obtain ⟨ins, slots, outs, slots', t, hins, houts, hstaged, hcalled, -⟩ := h
  exact (hstaged.sound hp hsound hexpects (Nat.le_of_eq hins) (Nat.le_of_eq houts)).onlyMemory
    hcalled.only

end ExecM

end TensorJit
