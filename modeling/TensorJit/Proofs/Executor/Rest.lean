import TensorJit.Proofs.Executor.Current

/-!
# States at rest

A call with tensors from slots leaves them in a state that it would not change: every position has
its tensor, no input needs a copy, the function has results on what the input tensors hold, these
results stand in the output tensors, and the output buffers have been read from there (`AtRest`).
**A call that succeeds leaves its state at rest** (`ExecM.ends_runOnSlots_atRest`), unless an output
buffer is one of the inputs. **A call on a state at rest succeeds and does nothing that shows**
(`ExecM.ends_runOnSlots_idle`): it sets flags, it counts, and the tracker may vouch for more copies
than before.
-/

namespace TensorJit

open ExecState (Within OnlyMemory Spares)

/-! ### Nothing that shows -/

namespace ExecState

variable {s t u : ExecState} {m : Memory}

/-- Between two states nothing has happened but that flags have been set and things counted, and
that the tracker may vouch for more. -/
structure Idle (s t : ExecState) : Prop where
  /-- The executor is the same. -/
  later : s.Later t
  /-- The caches are equal. -/
  cache : t.cache = s.cache
  /-- The output buffers are equal. -/
  outputs : t.outputs = s.outputs
  /-- Memory differs in nothing but flags. -/
  memory : s.memory.Alike t.memory
  /-- The tracker vouches for no less. -/
  remembers : s.Remembers t

theorem Idle.refl (s : ExecState) : s.Idle s := ⟨.refl s, rfl, rfl, .refl _, .of_eq rfl⟩

theorem Idle.trans (h : s.Idle t) (h' : t.Idle u) : s.Idle u :=
  ⟨h.later.trans h'.later, h'.cache.trans h.cache, h'.outputs.trans h.outputs,
    h.memory.trans h'.memory, h.remembers.trans h.later h'.remembers⟩

theorem OnlyMemory.idle (h : s.OnlyMemory m t) (hm : s.memory.Alike m) : s.Idle t :=
  ⟨h.later, h.cache, h.outputs, h.memory ▸ hm, .of_eq h.registries⟩

theorem Untouched.idle (h : s.Untouched t) : s.Idle t :=
  (OnlyMemory.of_untouched h).idle (.refl _)

end ExecState

/-! ### Every position has its tensor -/

/-- The positions of one side have their tensors in the slots of an artifact. -/
structure Artifact.Serves (a : Artifact) (side : Side) (hosts : List HostBuffer)
    (external : List Nat) (tensors : List (Option TensorId)) : Prop where
  /-- There is something for each position. -/
  length : tensors.length = hosts.length
  /-- Positions bound elsewhere have no tensor. -/
  absent : ∀ q : Nat, q < tensors.length → external.contains q = true → tensors[q]? = some none
  /-- Every other position has the tensor of its slot. -/
  served : ∀ (q : Nat) (host : HostBuffer), hosts[q]? = some host → external.contains q = false →
    ∃ x, tensors[q]? = some (some x) ∧ (a.slots side).get? q = some ⟨host.storage, x⟩

namespace Artifact.Serves

variable {a b : Artifact} {side : Side} {hosts : List HostBuffer} {external : List Nat}
  {tensors : List (Option TensorId)}

theorem of_slots_eq (h : a.Serves side hosts external tensors)
    (hslots : b.slots side = a.slots side) : b.Serves side hosts external tensors :=
  ⟨h.length, h.absent, hslots.symm ▸ h.served⟩

/-- A tensor is that of a slot. -/
theorem slot (h : a.Serves side hosts external tensors) {q : Nat} {x : TensorId}
    (hx : tensors[q]? = some (some x)) :
    ∃ host : HostBuffer, hosts[q]? = some host ∧ external.contains q = false ∧
      (a.slots side).get? q = some ⟨host.storage, x⟩ := by
  have hq : q < tensors.length := (List.getElem?_eq_some_iff.1 hx).1
  have hhost : hosts[q]? = some _ := List.getElem?_eq_getElem (h.length ▸ hq)
  cases hc : external.contains q with
  | true =>
    have := h.absent q hq hc
    rw [hx] at this
    cases this
  | false =>
    obtain ⟨y, hy, hslot⟩ := h.served q _ hhost hc
    rw [hx] at hy
    obtain rfl := Option.some.inj (Option.some.inj hy)
    exact ⟨_, hhost, rfl, hslot⟩

end Artifact.Serves

/-- All positions of a side have got their tensors. -/
theorem Placed.serves {s t : ExecState} {id : ArtifactId} {a : Artifact} {side : Side}
    {hosts : List HostBuffer} {external : List Nat} {tensors : List (Option TensorId)}
    {slots : SlotTable} (h : Placed s id a side hosts external tensors slots t)
    (hlength : tensors.length = hosts.length) :
    (a.withSlots side slots).Serves side hosts external tensors where
  length := hlength
  absent := h.absent
  served q host hhost hinside := by
    rw [Artifact.slots_withSlots, if_pos rfl]
    exact h.served q host (hlength ▸ (List.getElem?_eq_some_iff.1 hhost).1) hhost hinside

/-- Every position of a call has its tensor, and no input needs a copy. -/
structure Seats (s : ExecState) (id : ArtifactId) (a : Artifact) (inputs : List HostBuffer)
    (ins outs : List (Option TensorId)) : Prop where
  /-- The tensors are at home. -/
  home : s.AtHome
  /-- No two places have the same tensor. -/
  owns : s.cache.Owns s.memory
  /-- The artifact is there. -/
  found : s.cache.get? id = some a
  /-- The output buffers are separate. -/
  separate : s.outputs.Separate s.memory
  /-- None of them is an input. -/
  aside : ∀ host ∈ inputs, ∀ b ∈ s.outputs.buffers, b.storage ≠ host.storage
  /-- These are the tensors of the inputs. -/
  serves : a.Serves .input inputs s.executor.unit.externalInputs ins
  /-- These are the tensors for the results. -/
  offers : a.Serves .output s.outputs.buffers s.executor.unit.externalOutputs outs
  /-- No input needs a copy. -/
  current : ∀ (q : Nat) (host : HostBuffer) (x : TensorId), inputs[q]? = some host →
    ins[q]? = some (some x) → s.Current id x host

/-- A call with tensors from slots would not change anything. -/
structure AtRest (s : ExecState) (id : ArtifactId) (a : Artifact) (inputs : List HostBuffer)
    (ins outs : List (Option TensorId)) (results : List (Value UInt32)) : Prop
    extends Seats s id a inputs ins outs where
  /-- The function has these results, and there is room for them. -/
  answers : Backend.Answers s.kind s.memory a.executable.function outs ins results
  /-- They stand in the output tensors. -/
  stands : ∀ (p : Nat) (x : TensorId), outs[p]? = some (some x) →
    Backend.stored results p <+: s.memory.contents x
  /-- The output buffers have been read from there, where tensors have storage of their own. -/
  read : s.kind.isHostBound = false → ∀ (p : Nat) (x : TensorId) (b : HostBuffer),
    outs[p]? = some (some x) → s.outputs.buffers[p]? = some b →
    s.memory.storage b.storage <+: s.memory.contents x

namespace Seats

variable {s t : ExecState} {id : ArtifactId} {a : Artifact} {inputs : List HostBuffer}
  {ins outs : List (Option TensorId)} {q p : Nat} {x y : TensorId}

/-- An input tensor is that of a slot, and at home there. -/
theorem input (h : Seats s id a inputs ins outs) (hx : ins[q]? = some (some x)) :
    ∃ host : HostBuffer, inputs[q]? = some host ∧ Slot.AtHome s.kind s.memory ⟨host.storage, x⟩ ∧
      s.cache.tensorAt id (.slot .input q) = some x := by
  obtain ⟨host, hhost, -, hslot⟩ := h.serves.slot hx
  exact ⟨host, hhost, (h.home id a h.found).slots .input q _ hslot,
    Cache.tensorAt_slot h.found hslot⟩

/-- An output tensor is that of a slot, and at home there. -/
theorem output (h : Seats s id a inputs ins outs) (hx : outs[p]? = some (some x)) :
    ∃ b : HostBuffer, s.outputs.buffers[p]? = some b ∧
      Slot.AtHome s.kind s.memory ⟨b.storage, x⟩ ∧
      s.cache.tensorAt id (.slot .output p) = some x := by
  obtain ⟨b, hb, -, hslot⟩ := h.offers.slot hx
  exact ⟨b, hb, (h.home id a h.found).slots .output p _ hslot, Cache.tensorAt_slot h.found hslot⟩

/-- **No two output tensors have bytes in common.** -/
theorem disjoint (h : Seats s id a inputs ins outs) : s.memory.Disjoint outs where
  held p x hx := by
    obtain ⟨b, hb, hslot, -⟩ := h.output hx
    refine ⟨hslot.live, fun storage hhome => ?_⟩
    obtain ⟨-, rfl⟩ := hslot.bound hhome
    exact h.separate.live b (List.mem_of_getElem? hb)
  apart p q x y hpq hx hy := by
    obtain ⟨b, hb, hslot, hat⟩ := h.output hx
    obtain ⟨c, hc, hslot', hat'⟩ := h.output hy
    refine ⟨fun heq => ?_, fun storage hhome hhome' => ?_⟩
    · subst heq
      obtain ⟨-, hplace⟩ := h.owns.apart id id _ _ x hat hat'
      exact hpq (Place.slot.inj hplace).2
    · obtain ⟨-, heq⟩ := hslot.bound hhome
      obtain ⟨-, heq'⟩ := hslot'.bound hhome'
      exact hpq (h.separate.eq_of_storage_eq hb hc (heq.trans heq'.symm))

/-- **No output tensor has bytes in common with an input tensor.** -/
theorem apart (h : Seats s id a inputs ins outs) (hx : some x ∈ ins) (hy : some y ∈ outs) :
    s.memory.Apart y x := by
  obtain ⟨q, hq⟩ := List.getElem?_of_mem hx
  obtain ⟨p, hp⟩ := List.getElem?_of_mem hy
  obtain ⟨host, hhost, hslot, hat⟩ := h.input hq
  obtain ⟨b, hb, hslot', hat'⟩ := h.output hp
  refine ⟨fun heq => ?_, fun storage hhome' hhome => ?_⟩
  · subst heq
    obtain ⟨-, hplace⟩ := h.owns.apart id id _ _ y hat hat'
    cases (Place.slot.inj hplace).1
  · obtain ⟨-, heq⟩ := hslot.bound hhome
    obtain ⟨-, heq'⟩ := hslot'.bound hhome'
    exact h.aside host (List.mem_of_getElem? hhost) b (List.mem_of_getElem? hb)
      (heq'.trans heq.symm)

theorem live (h : Seats s id a inputs ins outs) (hx : some x ∈ ins) :
    x < s.memory.tensors.size := by
  obtain ⟨q, hq⟩ := List.getElem?_of_mem hx
  obtain ⟨_, -, hslot, -⟩ := h.input hq
  exact hslot.live

/-- Where tensors are not kept in host buffers, the output tensors have storage of their own. -/
theorem own (h : Seats s id a inputs ins outs) (hbound : s.kind.isHostBound = false)
    (hx : outs[p]? = some (some x)) : ∃ length, s.memory.home x = .own length := by
  obtain ⟨b, -, hslot, -⟩ := h.output hx
  cases hhome : s.memory.home x with
  | own length => exact ⟨length, rfl⟩
  | host storage => exact absurd (hbound.symm.trans (hslot.bound hhome).1) (by decide)

/-- All is as it was as long as the input tensors hold what they held, and the inputs too where
they may still be copied. -/
theorem after (h : Seats s id a inputs ins outs) (hlater : s.Later t) (hcache : t.cache = s.cache)
    (houtputs : t.outputs = s.outputs)
    (hfresh : ∀ host ∈ inputs, s.platform.isFresh s.executor.tracker host.storage id = true →
      t.platform.isFresh s.executor.tracker host.storage id = true)
    (hcontents : ∀ x, some x ∈ ins → t.memory.contents x = s.memory.contents x)
    (hstorage : s.kind.isHostBound = false → ∀ host ∈ inputs,
      t.memory.storage host.storage = s.memory.storage host.storage) :
    Seats t id a inputs ins outs where
  home := h.home.of_later hlater hcache
  owns := hcache.symm ▸ h.owns.of_sub hlater.platform.memory.tensors fun _ _ _ hx => hx
  found := hcache ▸ h.found
  separate := houtputs.symm ▸ h.separate.of_extends hlater.platform.memory
  aside := houtputs.symm ▸ h.aside
  serves := by
    rw [hlater.unit]
    exact h.serves
  offers := by
    rw [hlater.unit, houtputs]
    exact h.offers
  current q host x hhost hx := by
    have hmem := List.mem_of_getElem? hhost
    cases hbound : s.kind.isHostBound with
    | true => exact .inl (hlater.kind_eq ▸ hbound)
    | false =>
      exact (h.current q host x hhost hx).of_eq hlater
        (hlater.platform.memory.spec x (h.live (List.mem_of_getElem? hx)))
        (hstorage hbound host hmem) (hcontents x (List.mem_of_getElem? hx)) (hfresh host hmem)

/-- Nothing that shows has happened. -/
theorem idle (h : Seats s id a inputs ins outs) (ht : s.Idle t) : Seats t id a inputs ins outs :=
  h.after ht.later ht.cache ht.outputs (fun host _ => ht.remembers host.storage id)
    (fun x _ => ht.memory.contents x) fun _ host _ => ht.memory.storage host.storage

end Seats

/-- All is as it was while nothing changes that the call depends on. -/
theorem AtRest.after {s t : ExecState} {id : ArtifactId} {a : Artifact} {inputs : List HostBuffer}
    {ins outs : List (Option TensorId)} {results : List (Value UInt32)}
    (h : AtRest s id a inputs ins outs results) (hlater : s.Later t) (hcache : t.cache = s.cache)
    (houtputs : t.outputs = s.outputs) (hmemory : s.memory.Alike t.memory)
    (hfresh : ∀ host ∈ inputs, s.platform.isFresh s.executor.tracker host.storage id = true →
      t.platform.isFresh s.executor.tracker host.storage id = true) :
    AtRest t id a inputs ins outs results where
  toSeats := h.toSeats.after hlater hcache houtputs hfresh (fun x _ => hmemory.contents x)
    fun _ host _ => hmemory.storage host.storage
  answers := by
    rw [hlater.kind_eq]
    exact h.answers.congr (fun x _ => ⟨hmemory.spec x, hmemory.contents x⟩)
      fun x _ => ⟨hmemory.spec x, by rw [hmemory.contents]⟩
  stands p x hx := by
    rw [hmemory.contents]
    exact h.stands p x hx
  read hbound p x b hx hb := by
    rw [hmemory.contents, hmemory.storage]
    exact h.read (hlater.kind_eq ▸ hbound) p x b hx (houtputs ▸ hb)

namespace ExecM

variable {s t : ExecState} {id : ArtifactId} {a : Artifact} {inputs : List HostBuffer}
  {ins outs : List (Option TensorId)} {results : List (Value UInt32)}

/-! ### Coming to rest -/

/-- **When the inputs and then the outputs have been served**, every position has its tensor. -/
theorem seats_of_placed {slots slots' : SlotTable} {u : ExecState}
    (hready : Readied s id a inputs ins slots t) (hplaced : Placed t id (a.withSlots .input slots)
      .output s.outputs.buffers s.executor.unit.externalOutputs outs slots' u)
    (ha : s.cache.get? id = some a) (hhome : u.AtHome)
    (hregistries : u.platform.registries = t.platform.registries)
    (hseparate : s.outputs.Separate s.memory)
    (haside : ∀ host ∈ inputs, ∀ b ∈ s.outputs.buffers, b.storage ≠ host.storage)
    (hins : ins.length = inputs.length) (houts : outs.length = s.outputs.buffers.length) :
    Seats u id ((a.withSlots .input slots).withSlots .output slots') inputs ins outs := by
  have houtputs : u.outputs = s.outputs := hplaced.outputs.trans hready.outputs
  have hlater := hready.later.trans hplaced.later
  have hserves : ((a.withSlots .input slots).withSlots .output slots').Serves .input inputs
      s.executor.unit.externalInputs ins := (hready.toPlaced.serves hins).of_slots_eq (by
    rw [Artifact.slots_withSlots, if_neg nofun])
  refine ⟨hhome, hplaced.within.owns, hplaced.found (hready.found ha),
    houtputs.symm ▸ hseparate.of_extends hlater.platform.memory, houtputs.symm ▸ haside,
    by rw [hlater.unit]; exact hserves, ?_, fun q host x hhost hx => ?_⟩
  · rw [hlater.unit, houtputs]
    exact hplaced.serves houts
  · refine (hready.current q host x hhost hx).of_tensor_eq hplaced.later
      (hplaced.within.kept id (.slot .input q) x (fun hp => ?_)
        (hready.toPlaced.tensorAt ha hhost hx)) hplaced.storages (.of_eq hregistries)
    obtain ⟨-, p, -, hp⟩ := hp
    cases (Place.slot.inj hp).1

/-- **When the executable has been called**, its results stand in the output tensors, and the input
tensors hold what they held. -/
theorem seats_of_called (h : Seats s id a inputs ins outs) (honly : s.OnlyMemory t.memory t)
    (hanswers : Backend.Answers s.kind s.memory a.executable.function outs ins results)
    (hwritten : s.memory.Written (Backend.writesOver s.memory outs results) t.memory) :
    Seats t id a inputs ins outs ∧
      Backend.Answers t.kind t.memory a.executable.function outs ins results ∧
      ∀ (p : Nat) (x : TensorId), outs[p]? = some (some x) →
        Backend.stored results p <+: t.memory.contents x := by
  have hins : ∀ x, some x ∈ ins → t.memory.contents x = s.memory.contents x := fun x hx =>
    Backend.contents_of_apart hwritten (h.live hx) fun y hy => h.apart hx hy
  have houts : ∀ (p : Nat) (x : TensorId), outs[p]? = some (some x) →
      t.memory.contents x = (Backend.stored results p).onto (s.memory.contents x) :=
    fun p x hx => Backend.contents_of_writesOver hwritten h.disjoint hx
  refine ⟨h.after honly.later honly.cache honly.outputs (fun host _ hfresh => ?_) hins
    fun hbound host _ => hwritten.storages _ fun w hw hhome => ?_, ?_, fun p x hx => ?_⟩
  · unfold Platform.isFresh
    rw [honly.registries]
    exact hfresh
  · obtain ⟨p, v, hp, -, -⟩ := Backend.mem_writesOver.1 hw
    obtain ⟨length, hown⟩ := h.own hbound hp
    rw [hown] at hhome
    cases hhome
  · rw [honly.later.kind_eq]
    refine hanswers.congr (fun x hx => ⟨hwritten.grown.spec x (h.live hx), hins x hx⟩) fun x hx => ?_
    obtain ⟨p, hp⟩ := List.getElem?_of_mem hx
    refine ⟨hwritten.grown.spec x (h.disjoint.held p x hp).live, ?_⟩
    rw [houts p x hp, Bytes.length_onto (hanswers.rooms.length_stored hp)]
  · rw [houts p x hx]
    exact Bytes.prefix_onto _ _

/-- **When the results have been read**, where tensors have storage of their own. -/
theorem atRest_of_read (h : Seats s id a inputs ins outs)
    (hanswers : Backend.Answers s.kind s.memory a.executable.function outs ins results)
    (hstands : ∀ (p : Nat) (x : TensorId), outs[p]? = some (some x) →
      Backend.stored results p <+: s.memory.contents x) (hbound : s.kind.isHostBound = false)
    (honly : s.OnlyMemory t.memory t)
    (hread : ReadOver s.memory s.outputs.buffers outs (outs.zip s.outputs.buffers).length t.memory) :
    AtRest t id a inputs ins outs results := by
  have htensor : ∀ x, t.memory.tensor x = s.memory.tensor x := fun x => by
    unfold Memory.tensor
    rw [hread.tensors]
  have hspec : ∀ x, (t.memory.tensor x).spec = (s.memory.tensor x).spec := fun x => by rw [htensor]
  -- Reading back writes buffers only, and no tensor here is a buffer.
  have hins : ∀ x, some x ∈ ins → t.memory.contents x = s.memory.contents x := fun x hx => by
    obtain ⟨q, hq⟩ := List.getElem?_of_mem hx
    obtain ⟨host, -, hslot, -⟩ := h.input hq
    cases hhome : s.memory.home x with
    | own length => exact hread.contents hhome
    | host storage => exact absurd (hbound.symm.trans (hslot.bound hhome).1) (by decide)
  have houts : ∀ (p : Nat) (x : TensorId), outs[p]? = some (some x) →
      t.memory.contents x = s.memory.contents x := fun p x hx => by
    obtain ⟨length, hhome⟩ := h.own hbound hx
    exact hread.contents hhome
  have hcount : ∀ (p : Nat) (x : TensorId), outs[p]? = some (some x) →
      p < (outs.zip s.outputs.buffers).length := fun p x hx => by
    rw [List.length_zip, h.offers.length, Nat.min_self, ← h.offers.length]
    exact (List.getElem?_eq_some_iff.1 hx).1
  refine ⟨h.after honly.later honly.cache honly.outputs (fun host _ hfresh => ?_) hins
    fun _ host hmem => hread.others _ fun p x b _ _ hb => h.aside host hmem b
      (List.mem_of_getElem? hb), ?_, fun p x hx => ?_, fun _ p x b hx hb => ?_⟩
  · unfold Platform.isFresh
    rw [honly.registries]
    exact hfresh
  · rw [honly.later.kind_eq]
    refine hanswers.congr (fun x hx => ⟨hspec x, hins x hx⟩) fun x hx => ?_
    obtain ⟨p, hp⟩ := List.getElem?_of_mem hx
    exact ⟨hspec x, by rw [houts p x hp]⟩
  · rw [houts p x hx]
    exact hstands p x hx
  · rw [houts p x hx, hread.read p x b (hcount p x hx) hx (honly.outputs ▸ hb)]
    exact List.take_prefix _ _

/-- **A call with tensors from slots that succeeds** leaves its state at rest, unless an output
buffer is one of the inputs. -/
theorem ends_runOnSlots_atRest (h : s.AtHome) (howns : s.cache.Owns s.memory)
    (ha : s.cache.get? id = some a) (hseparate : s.outputs.Separate s.memory)
    (haside : ∀ host ∈ inputs, ∀ b ∈ s.outputs.buffers, b.storage ≠ host.storage) {found : Lookup}
    (hartifact : found.artifact = id) (hexecutable : found.executable = a.executable) :
    Ends (runOnSlots found inputs s)
      (fun _ t => ∃ b ins outs results, AtRest t id b inputs ins outs results)
      fun _ _ => True := by
  unfold runOnSlots
  rw [ends_bind, hartifact]
  refine (ends_readyInputs h howns ha inputs).mono (fun ial t ht => ?_) fun _ _ _ => trivial
  obtain ⟨slots, hins, hready⟩ := ht
  rw [ends_bind, ends_get, ends_bind, hready.outputs]
  refine ((ends_readyOutputs hready.within.owns (hready.found ha) s.outputs.buffers).and
    (spares_allocateOutputs hready.home id s.outputs.buffers)).mono (fun oal u hu => ?_)
    fun _ _ _ => trivial
  obtain ⟨⟨slots', houts, hplaced, hregistries⟩, hspares, -⟩ := hu
  rw [hready.later.unit] at hplaced
  have hseats := seats_of_placed hready hplaced ha hspares.home hregistries hseparate haside hins
    houts
  have hexecutable' : found.executable =
      ((a.withSlots .input slots).withSlots .output slots').executable := by
    rw [Artifact.executable_withSlots, Artifact.executable_withSlots, hexecutable]
  rw [ends_bind]
  refine (ends_callOver found.executable hseats.disjoint).mono (fun _ v hv => ?_)
    fun _ _ _ => trivial
  obtain ⟨honly, results, hanswers, hwritten⟩ := hv
  rw [hexecutable'] at hanswers
  obtain ⟨hseats', hanswers', hstands⟩ := seats_of_called hseats honly hanswers hwritten
  rw [ends_bind, ends_kind]
  -- Host-bound tensors are the buffers, so there is nothing to read back.
  cases hbound : v.kind.isHostBound with
  | true =>
    rw [Bool.not_true, if_neg Bool.false_ne_true, ends_pure]
    exact ⟨_, _, _, results, hseats', hanswers', hstands,
      fun hown => absurd (hbound.symm.trans hown) (by decide)⟩
  | false =>
    rw [Bool.not_false, if_pos rfl, ends_bind]
    refine (ends_readAllOver hseats'.separate fun p x => hseats'.own hbound).mono
      (fun _ w hw => ?_) fun _ _ _ => trivial
    exact ⟨_, _, _, results, atRest_of_read hseats' hanswers' hstands hbound hw.1 hw.2⟩

/-! ### Staying there -/

/-- **A position is resolved again** for the buffer that its slot last served. -/
theorem ends_resolve_idle (howns : s.cache.Owns s.memory) (ha : s.cache.get? id = some a)
    {side : Side} {position : Nat} {host : HostBuffer} {x : TensorId}
    (hslot : (a.slots side).get? position = some ⟨host.storage, x⟩) (vouched : Bool)
    (fault : BackendError → InternalFault) :
    Ends (onBackend fault ((a.slots side).resolve side position host vouched) s)
      (fun r t => r.1.tensor = x ∧ r.1.created = false ∧ (side = .input → r.1.stale = !vouched) ∧
        s.Idle { t with executor.cache := t.cache.update id (a.withSlots side r.2) })
      fun _ _ => False := by
  have hstay : ¬ (a.slots side).Moved position host := by
    unfold SlotTable.Moved
    rw [hslot, not_not]
    rfl
  refine (ends_seatSlot howns ha vouched fault).mono (fun r t ht => ?_)
    fun _ _ ht => hstay ht.2.2.2
  obtain ⟨hseated, ⟨d, hd, hresolved⟩, hregistries, hstale, hkept⟩ := ht
  obtain ⟨hslot', -⟩ := hkept hstay
  have hx : r.1.tensor = x := by
    rw [hslot] at hslot'
    exact (Slot.mk.inj (Option.some.inj hslot')).2.symm
  -- A tensor is created only for a position that has none, or whose buffer has moved.
  have hold : r.1.created = false := by
    cases hnew : r.1.created with
    | false => rfl
    | true =>
      rcases hresolved.created_iff.1 hnew with hnone | ⟨-, hmoved⟩
      · rw [hslot] at hnone
        cases hnone
      · exact absurd hmoved hstay
  refine ⟨hx, hold, fun hside => ?_, hseated.later, ?_, hseated.outputs, ?_, .of_eq hregistries⟩
  · cases vouched with
    | true => exact hstale.2 ⟨hside, hstay, rfl⟩
    | false =>
      cases hs : r.1.stale with
      | true => rfl
      | false => exact absurd (hstale.1 hs).2.2 Bool.false_ne_true
  · rw [hseated.cache, hx, SortedMap.insert_of_get?_eq_some hslot, a.withSlots_slots,
      Cache.update_self ha]
  · change s.memory.Alike t.memory
    rw [← hd]
    cases hresolved with
    | created hnew _ _ _ _ => exact absurd (hnew.symm.trans hold) (by decide)
    | kept _ _ _ _ hmemory _ =>
      rw [hmemory]
      exact s.memory.alike_setStale _ _

/-- **A buffer is copied again** to a tensor that holds it. -/
theorem ends_writeInput_idle (position : Nat) {x : TensorId} {host : HostBuffer}
    (h : s.memory.Holds x host) :
    Ends (writeInput position x host s) (fun _ t => s.Idle t) fun _ _ => False := by
  refine (ends_writeOver position x host).mono (fun _ t ht => ?_) fun _ _ ht => ht.1 h.copies
  refine ht.2.idle ?_
  rw [Bytes.onto_eq_self h.start]
  exact s.memory.alike_setContents x

/-- **An input is served again.** -/
theorem ends_serveInput_idle (h : Seats s id a inputs ins outs) {q : Nat} {host : HostBuffer}
    (hhost : inputs[q]? = some host) :
    Ends (serveInput id q host s)
      (fun v t => ins[q]? = some v.tensor ∧ v.created = false ∧ s.Idle t) fun _ _ => False := by
  unfold serveInput
  rw [ends_bind, ends_executor]
  dsimp only
  cases hinside : s.executor.unit.externalInputs.contains q with
  | true =>
    rw [if_pos rfl, ends_pure]
    exact ⟨h.serves.absent q (h.serves.length ▸ (List.getElem?_eq_some_iff.1 hhost).1) hinside, rfl,
      .refl s⟩
  | false =>
    obtain ⟨x, hx, hslot⟩ := h.serves.served q host hhost hinside
    rw [if_neg Bool.false_ne_true, ends_bind, ends_artifact_of_some h.found, ends_bind,
      ends_platform, ends_bind]
    refine (@ends_resolve_idle s id a h.owns h.found .input q host x hslot _ _).mono
      (fun ⟨r, slots⟩ t ht => ?_) fun _ _ ht => ht
    obtain ⟨htensor, hold, hstale, hidle⟩ := ht
    dsimp only at htensor hold hidle hstale
    rw [ends_bind, ends_setArtifact]
    obtain ⟨u, hu⟩ : ∃ u : ExecState, u = { t with
      executor.cache := t.executor.cache.update id (a.withSlots .input slots) } := ⟨_, rfl⟩
    change Ends ((kind >>= _) ({ t with
      executor.cache := t.executor.cache.update id (a.withSlots .input slots) } : ExecState)) _ _
    rw [← hu] at hidle ⊢
    rw [ends_bind, ends_kind, hidle.later.kind_eq]
    split
    · rename_i hcopy
      obtain ⟨hs, hnot⟩ := Bool.and_eq_true_iff.1 hcopy
      -- What is copied is neither bound to the buffer nor vouched for.
      have hholds : u.memory.Holds x host := by
        rcases h.current q host x hhost hx with hbound | hfresh | hholds
        · rw [hbound] at hnot
          cases hnot
        · rw [hstale rfl, hfresh] at hs
          cases hs
        · exact hholds.congr (hidle.memory.spec x) (hidle.memory.storage _)
            (hidle.memory.contents x)
      rw [ends_bind, htensor]
      refine (ends_writeInput_idle q hholds).mono (fun _ v hv => ?_) fun _ _ hv => hv
      rw [ends_bind, ends_changePlatform, ends_pure]
      refine ⟨hx, hold, hidle.trans (hv.trans ⟨{ ExecState.Later.refl _ with
        platform := (Platform.calm_tell _ _ _).toLater }, rfl, rfl, .refl _, ?_⟩)⟩
      refine .mark (?_ : _ = v.executor.tracker.update v.platform.registries
        (·.mark host.storage id))
      rw [(hidle.later.trans hv.later).tracker]
      rfl
    · rw [ends_pure]
      exact ⟨htensor ▸ hx, hold, hidle⟩

/-- **An output is served again.** -/
theorem ends_serveOutput_idle (h : Seats s id a inputs ins outs) {p : Nat} {b : HostBuffer}
    (hb : s.outputs.buffers[p]? = some b) :
    Ends (serveOutput id p b s)
      (fun v t => outs[p]? = some v.tensor ∧ v.created = false ∧ s.Idle t) fun _ _ => False := by
  unfold serveOutput
  rw [ends_bind, ends_executor]
  dsimp only
  cases hinside : s.executor.unit.externalOutputs.contains p with
  | true =>
    rw [if_pos rfl, ends_pure]
    exact ⟨h.offers.absent p (h.offers.length ▸ (List.getElem?_eq_some_iff.1 hb).1) hinside, rfl,
      .refl s⟩
  | false =>
    obtain ⟨x, hx, hslot⟩ := h.offers.served p b hb hinside
    rw [if_neg Bool.false_ne_true, ends_bind, ends_artifact_of_some h.found, ends_bind,
      ends_platform, ends_bind]
    refine (@ends_resolve_idle s id a h.owns h.found .output p b x hslot _ _).mono
      (fun ⟨r, slots⟩ t ht => ?_) fun _ _ ht => ht
    obtain ⟨htensor, hold, -, hidle⟩ := ht
    rw [ends_bind, ends_setArtifact, ends_pure]
    exact ⟨htensor ▸ hx, hold, hidle⟩

/-- **All positions of a side are served again**, which comes to the tensors that they have. -/
theorem ends_serveAll_idle (serve : Nat → HostBuffer → ExecM Service) {hosts : List HostBuffer}
    {tensors : List (Option TensorId)} (hlength : tensors.length = hosts.length)
    (hserve : ∀ (q : Nat) (host : HostBuffer) (t : ExecState), s.Idle t → hosts[q]? = some host →
      Ends (serve q host t) (fun v u => tensors[q]? = some v.tensor ∧ v.created = false ∧ t.Idle u)
        fun _ _ => False) :
    Ends (hosts.zipIdx.mapM (fun b => serve b.2 b.1) s)
      (fun services t => (Allocation.ofServices services).tensors = tensors ∧
        (Allocation.ofServices services).created = 0 ∧ s.Idle t) fun _ _ => False := by
  refine (ends_mapM_zipIdx (I := fun services t => s.Idle t ∧ ∀ (q : Nat) (v : Service),
    services[q]? = some v → tensors[q]? = some v.tensor ∧ v.created = false)
    (fun services host t hhost ht => ?_) ⟨.refl s, nofun⟩).mono (fun services t ht => ?_)
    fun _ _ h => h
  · refine (hserve services.length host t ht.1 hhost).mono (fun v u hu => ?_) fun _ _ hu => hu
    refine ⟨ht.1.trans hu.2.2, fun q w hw => ?_⟩
    rcases getElem?_concat_cases hw with hold | ⟨rfl, rfl⟩
    · exact ht.2 q w hold
    · exact ⟨hu.1, hu.2.1⟩
  · obtain ⟨hservices, hidle, hall⟩ := ht
    refine ⟨List.ext_getElem? fun q => ?_, ?_, hidle⟩
    · change (services.map (·.tensor))[q]? = _
      rw [List.getElem?_map]
      cases hv : services[q]? with
      | some v => exact (hall q v hv).1.symm
      | none =>
        rw [List.getElem?_eq_none_iff, hservices, ← hlength] at hv
        exact (List.getElem?_eq_none_iff.2 hv).symm
    · change services.countP (·.created) = 0
      rw [List.countP_eq_zero]
      intro v hv
      obtain ⟨q, hq⟩ := List.getElem?_of_mem hv
      rw [(hall q v hq).2]
      exact Bool.false_ne_true

theorem ends_allocateInputs_idle (h : Seats s id a inputs ins outs) :
    Ends (allocateInputs id inputs s)
      (fun al t => al.tensors = ins ∧ al.created = 0 ∧ s.Idle t) fun _ _ => False := by
  unfold allocateInputs
  rw [ends_bind, ends_discard, ends_artifact_of_some h.found, ends_bind]
  refine (ends_serveAll_idle (serveInput id) h.serves.length fun q host t ht hhost =>
    ends_serveInput_idle (h.idle ht) hhost).mono (fun services t ht => ?_) fun _ _ h => h
  rw [ends_bind, ends_count, ends_pure]
  exact ⟨ht.1, ht.2.1, ht.2.2.trans (ExecState.untouched_stats t _).idle⟩

theorem ends_allocateOutputs_idle (h : Seats s id a inputs ins outs) :
    Ends (allocateOutputs id s.outputs.buffers s)
      (fun al t => al.tensors = outs ∧ al.created = 0 ∧ s.Idle t) fun _ _ => False := by
  unfold allocateOutputs
  rw [ends_bind, ends_discard, ends_artifact_of_some h.found, ends_bind]
  refine (ends_serveAll_idle (serveOutput id) h.offers.length fun p b t ht hb =>
    ends_serveOutput_idle (h.idle ht) (ht.outputs.symm ▸ hb)).mono (fun services t ht => ?_)
    fun _ _ h => h
  rw [ends_bind, ends_count, ends_pure]
  exact ⟨ht.1, ht.2.1, ht.2.2.trans (ExecState.untouched_stats t _).idle⟩

/-- **The executable is called again** on a state at rest, and stores what is there already. -/
theorem ends_callExecutable_idle (h : AtRest s id a inputs ins outs results) {x : Executable}
    (hx : x = a.executable) :
    Ends (callExecutable x outs ins s) (fun _ t => s.Idle t) fun _ _ => False := by
  subst hx
  refine (ends_callOver a.executable h.disjoint).mono (fun _ t ht => ?_)
    fun _ t ht => ht.2.1 results h.answers
  obtain ⟨honly, results', hanswers, hwritten⟩ := ht
  obtain rfl := Except.ok.inj (hanswers.evaluate.symm.trans h.answers.evaluate)
  refine honly.idle (hwritten.alike (fun w hw => ?_) fun w hw => ?_)
  · obtain ⟨p, v, hp, -, -⟩ := Backend.mem_writesOver.1 hw
    exact (h.disjoint.held p w.1 hp).live
  · obtain ⟨p, v, hp, hv, hbytes⟩ := Backend.mem_writesOver.1 hw
    rw [hbytes]
    refine Bytes.onto_eq_self ?_
    have hstands := h.stands p w.1 hp
    unfold Backend.stored at hstands
    rw [hv] at hstands
    exact hstands

/-- **The results are read again** into buffers that hold them. -/
theorem ends_readOutputs_idle (h : AtRest s id a inputs ins outs results)
    (hbound : s.kind.isHostBound = false) :
    Ends (readOutputs outs s) (fun _ t => s.Idle t) fun _ _ => False := by
  unfold readOutputs
  rw [ends_bind, ends_get]
  refine ends_forM_zipIdx (I := fun _ t => s.Idle t) (fun position w t hw ht => ?_) (.refl s)
  obtain ⟨tensor, host⟩ := w
  obtain ⟨htensor, hhost⟩ := List.getElem?_zip_eq_some.1 hw
  cases tensor with
  | none => exact ht
  | some x =>
    have hread : t.memory.storage host.storage <+: t.memory.contents x := by
      rw [ht.memory.storage, ht.memory.contents]
      exact h.read hbound position x host htensor hhost
    refine (ends_readOver position x host).mono (fun _ u hu => ?_)
      fun _ _ hu => hu.1 hread.length_le
    refine ht.trans (hu.2.idle ?_)
    rw [← List.prefix_iff_eq_take.1 hread]
    exact t.memory.alike_setStorage _

/-- **A call on a state at rest** succeeds, makes no tensor, and does nothing that shows. -/
theorem ends_runOnSlots_idle (h : AtRest s id a inputs ins outs results) {found : Lookup}
    (hartifact : found.artifact = id) (hexecutable : found.executable = a.executable) :
    Ends (runOnSlots found inputs s) (fun r t => r.tensorsCreated = 0 ∧ r.group = none ∧ s.Idle t)
      fun _ _ => False := by
  have hrest : ∀ {t : ExecState}, s.Idle t → AtRest t id a inputs ins outs results := fun ht =>
    h.after ht.later ht.cache ht.outputs ht.memory fun host _ => ht.remembers host.storage id
  unfold runOnSlots
  rw [ends_bind, hartifact]
  refine (ends_allocateInputs_idle h.toSeats).mono (fun ial t ht => ?_) fun _ _ ht => ht
  obtain ⟨hins, hnone, ht⟩ := ht
  rw [ends_bind, ends_get, ends_bind]
  refine (ends_allocateOutputs_idle (hrest ht).toSeats).mono (fun oal u hu => ?_) fun _ _ hu => hu
  obtain ⟨houts, hnone', hu⟩ := hu
  replace hu := ht.trans hu
  rw [ends_bind, hins, houts]
  refine (ends_callExecutable_idle (hrest hu) hexecutable).mono (fun _ v hv => ?_) fun _ _ hv => hv
  replace hv := hu.trans hv
  rw [ends_bind, ends_kind]
  cases hbound : v.kind.isHostBound with
  | true =>
    rw [Bool.not_true, if_neg Bool.false_ne_true, ends_pure]
    exact ⟨by rw [hnone, hnone'], rfl, hv⟩
  | false =>
    rw [Bool.not_false, if_pos rfl, ends_bind]
    refine (ends_readOutputs_idle (hrest hv) hbound).mono (fun _ w hw => ?_) fun _ _ hw => hw
    exact ⟨by rw [hnone, hnone'], rfl, hv.trans hw⟩

end ExecM

end TensorJit
