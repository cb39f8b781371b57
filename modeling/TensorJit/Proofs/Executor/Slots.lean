import TensorJit.Proofs.Executor.Tensors

/-!
# Serving positions from their slots

A position is served with the tensor of its slot or with a new one, and that tensor fits the
position. What an input tensor then holds depends on the backend and on the tracker:

| | the input tensor holds |
|---|---|
| tensors in host buffers | what the buffer holds |
| the same buffer as before, and vouched for | what it held before |
| anything else | what the buffer holds, copied there |

Outputs are served in the same way, but nothing is copied. All other places of the executor,
the storages of the host and the output buffers stay as they are.
-/

namespace TensorJit

/-! ### Only memory changes -/

/-- Between two states memory has changed to `m`, and nothing else that a call works with. -/
structure ExecState.OnlyMemory (s : ExecState) (m : Memory) (t : ExecState) : Prop where
  /-- The executor is the same. -/
  later : s.Later t
  /-- The caches are equal. -/
  cache : t.cache = s.cache
  /-- The output buffers are equal. -/
  outputs : t.outputs = s.outputs
  /-- This is the memory now. -/
  memory : t.memory = m
  /-- The registries of fresh copies are equal. -/
  registries : t.platform.registries = s.platform.registries
  /-- No identity of an artifact has been used up. -/
  nextArtifact : t.platform.nextArtifact = s.platform.nextArtifact

namespace ExecState

variable {s t u : ExecState} {m n : Memory}

theorem OnlyMemory.trans (h : s.OnlyMemory m t) (h' : t.OnlyMemory n u) : s.OnlyMemory n u :=
  ⟨h.later.trans h'.later, h'.cache.trans h.cache, h'.outputs.trans h.outputs, h'.memory,
    h'.registries.trans h.registries, h'.nextArtifact.trans h.nextArtifact⟩

theorem OnlyMemory.of_untouched (h : s.Untouched t) : s.OnlyMemory s.memory t :=
  ⟨h.later, h.cache, h.outputs, h.memory, h.registries, h.nextArtifact⟩

theorem onlyMemory_withDevice {d : Device} (h : s.device.Later d) :
    s.OnlyMemory d.memory (s.withDevice d) :=
  ⟨{ Later.refl s with platform := Platform.later_withDevice h }, rfl, rfl, rfl, rfl, rfl⟩

end ExecState

/-! ### Steps of the backend -/

/-- The residence of a new tensor for a host buffer, on a backend of a kind. -/
def residenceFor (κ : BackendKind) (host : HostBuffer) : Residence :=
  if κ.isHostBound then .host host.storage else .own (Tensor.zeros host.spec).bytes

theorem home_residenceFor (κ : BackendKind) (host : HostBuffer) :
    (residenceFor κ host).home = homeFor κ host.spec host.storage := by
  unfold residenceFor homeFor
  split
  · rfl
  · change Home.own (Tensor.zeros host.spec).bytes.length = _
    rw [show (Tensor.zeros host.spec).bytes.length = host.spec.byteLength from
      Tensor.wellSized_zeros host.spec]

namespace Backend

theorem ends_takeInjection (injected : Injections → Bool) (clear : Injections → Injections)
    (hquiet : injected ⟨false, false, false⟩ = false) (d : Device) :
    Ends (takeInjection injected clear d)
      (fun taken e => e.memory = d.memory ∧ e.backend.kind = d.backend.kind ∧
        (taken = true → ¬ d.backend.Quiet)) fun _ _ => False := by
  unfold takeInjection
  rw [ends_bind, ends_get]
  split
  · rename_i hinjected
    refine ⟨rfl, rfl, fun _ h => ?_⟩
    rw [h, hquiet] at hinjected
    cases hinjected
  · exact ⟨rfl, rfl, nofun⟩

/-- **Making a tensor for a host buffer.** It gets the next identity, unless the backend has
been told to fail. -/
theorem ends_createTensor (host : HostBuffer) (d : Device) :
    Ends (createTensor host.spec (if d.backend.kind.isHostBound then some host else none) d)
      (fun id e => id = d.memory.tensors.size ∧
        e.memory = (d.memory.createTensor host.spec (residenceFor d.backend.kind host)).2)
      fun _ e => e.memory = d.memory ∧ ¬ d.backend.Quiet := by
  unfold createTensor
  rw [ends_bind]
  rw [ends_kindOf]
  cases hκ : d.backend.kind with
  | reference =>
    change Ends ((if host.spec = host.spec then createBound host.spec host
      else fail (.hostMismatch host.spec host.spec)) d) _ _
    rw [if_pos rfl]
    exact ⟨rfl, rfl⟩
  | recording mode =>
    -- A recording backend can be told to fail here, in every mode.
    have htake := ends_takeInjection (·.allocationFailure) ({ · with allocationFailure := false })
      rfl d
    cases mode with
    | host =>
      change Ends ((takeInjection _ _ >>= fun taken => _) d) _ _
      rw [ends_bind]
      refine htake.mono (fun taken e he => ?_) fun _ _ h => h.elim
      obtain ⟨hm, -, hnot⟩ := he
      cases taken with
      | true => exact ⟨hm, hnot rfl⟩
      | false => exact ⟨congrArg (·.tensors.size) hm, by rw [← hm]; rfl⟩
    | device =>
      change Ends ((takeInjection _ _ >>= fun taken => _) d) _ _
      rw [ends_bind]
      refine htake.mono (fun taken e he => ?_) fun _ _ h => h.elim
      obtain ⟨hm, -, hnot⟩ := he
      cases taken with
      | true => exact ⟨hm, hnot rfl⟩
      | false => exact ⟨congrArg (·.tensors.size) hm, by rw [← hm]; rfl⟩
    | pipelined =>
      change Ends ((takeInjection _ _ >>= fun taken => _) d) _ _
      rw [ends_bind]
      refine htake.mono (fun taken e he => ?_) fun _ _ h => h.elim
      obtain ⟨hm, -, hnot⟩ := he
      cases taken with
      | true => exact ⟨hm, hnot rfl⟩
      | false => exact ⟨congrArg (·.tensors.size) hm, by rw [← hm]; rfl⟩

end Backend

namespace SlotTable

/-- Whether the slot of a position last served another buffer, or none. -/
def Moved (slots : SlotTable) (position : Nat) (host : HostBuffer) : Prop :=
  (slots.get? position).map (·.host) ≠ some host.storage

instance (slots : SlotTable) (position : Nat) (host : HostBuffer) :
    Decidable (slots.Moved position host) := inferInstanceAs (Decidable (_ ≠ _))

theorem moved_iff {slots : SlotTable} {position : Nat} {host : HostBuffer} :
    slots.Moved position host ↔ slots.get? position = none ∨
      ∃ slot, slots.get? position = some slot ∧ slot.host ≠ host.storage := by
  unfold Moved
  cases slots.get? position with
  | none => simp
  | some slot => simp

/-- What resolving a position does to the memory. -/
inductive Resolved (slots : SlotTable) (position : Nat) (host : HostBuffer) (d : Device)
    (r : SlotResolution) (e : Device) : Prop where
  /-- A new tensor is made. -/
  | created (hcreated : r.created = true) (htensor : r.tensor = d.memory.tensors.size)
    (hmemory : e.memory = (d.memory.createTensor host.spec
      (residenceFor d.backend.kind host)).2.setStale r.tensor r.stale)
    (hmoved : slots.Moved position host)
    (hneeded : d.backend.kind.isHostBound = false → slots.get? position = none)
  /-- The tensor of the slot is used again. -/
  | kept (slot : Slot) (hcreated : r.created = false) (hslot : slots.get? position = some slot)
    (htensor : r.tensor = slot.tensor)
    (hmemory : e.memory = d.memory.setStale r.tensor r.stale)
    (hmoved : d.backend.kind.isHostBound = true → slot.host = host.storage)

namespace Resolved

variable {slots : SlotTable} {position : Nat} {host : HostBuffer} {d e : Device}
  {r : SlotResolution}

/-- **When a tensor is made.** -/
theorem created_iff (h : slots.Resolved position host d r e) :
    r.created = true ↔ slots.get? position = none ∨
      d.backend.kind.isHostBound = true ∧ slots.Moved position host := by
  cases h with
  | created hnew _ _ hmoved hneeded =>
    refine ⟨fun _ => ?_, fun _ => hnew⟩
    cases hbound : d.backend.kind.isHostBound with
    | true => exact .inr ⟨rfl, hmoved⟩
    | false => exact .inl (hneeded hbound)
  | kept slot hold hslot _ _ hbound =>
    refine ⟨fun hnew => absurd (hnew.symm.trans hold) (by decide), ?_⟩
    rintro (hnone | ⟨hb, hmoved⟩)
    · rw [hslot] at hnone
      cases hnone
    · refine absurd ?_ hmoved
      rw [hslot, ← hbound hb]
      rfl

theorem storages (h : slots.Resolved position host d r e) :
    e.memory.storages = d.memory.storages := by
  cases h with
  | created _ _ hmemory _ _ => rw [hmemory]; rfl
  | kept _ _ _ _ hmemory _ => rw [hmemory]; rfl

/-- A new tensor is one that memory has not had. -/
theorem live_of_created (h : slots.Resolved position host d r e) (hcreated : r.created = true) :
    r.tensor = d.memory.tensors.size ∧ r.tensor < e.memory.tensors.size := by
  cases h with
  | created _ htensor hmemory _ _ =>
    rw [hmemory, htensor]
    simp [Memory.createTensor]
  | kept _ hkept => exact absurd (hcreated.symm.trans hkept) (by decide)

/-- **No other tensor is touched.** -/
theorem tensor_of_ne (h : slots.Resolved position host d r e) {j : TensorId}
    (hlive : j < d.memory.tensors.size) (hj : j ≠ r.tensor) :
    e.memory.tensor j = d.memory.tensor j := by
  cases h with
  | created _ _ hmemory _ _ =>
    rw [hmemory, Memory.tensor_setStale_of_ne _ _ hj, Memory.tensor_createTensor,
      if_neg (Nat.ne_of_lt hlive)]
  | kept _ _ _ _ hmemory _ => rw [hmemory, Memory.tensor_setStale_of_ne _ _ hj]

/-- The flag of the tensor says what the answer says. -/
theorem flag (h : slots.Resolved position host d r e) (hlive : r.tensor < e.memory.tensors.size) :
    (e.memory.tensor r.tensor).stale = r.stale := by
  obtain ⟨m, hm⟩ : ∃ m : Memory, e.memory = m.setStale r.tensor r.stale := by
    cases h with
    | created _ _ hmemory _ _ => exact ⟨_, hmemory⟩
    | kept _ _ _ _ hmemory _ => exact ⟨_, hmemory⟩
  rw [hm, Memory.size_tensors_setStale] at hlive
  rw [hm, Memory.stale_setStale m r.stale hlive]

/-- What is not made is the tensor of the slot. -/
theorem exists_slot_of_kept (h : slots.Resolved position host d r e) (hold : r.created = false) :
    ∃ slot, slots.Reuses d.backend.kind position host slot ∧ r.tensor = slot.tensor := by
  cases h with
  | created hnew _ _ _ _ => exact absurd (hnew.symm.trans hold) (by decide)
  | kept slot _ hslot htensor _ hbound => exact ⟨slot, ⟨hslot, hbound⟩, htensor⟩

/-- A new tensor fits the buffer it is made for. -/
theorem fits_of_created (h : slots.Resolved position host d r e) (hnew : r.created = true) :
    Slot.Fits d.backend.kind e.memory host.spec ⟨host.storage, r.tensor⟩ := by
  have hlive := (h.live_of_created hnew).2
  cases h with
  | created _ htensor hmemory _ _ =>
    refine ⟨hlive, ?_, ?_⟩
    · change (e.memory.tensor r.tensor).spec = _
      rw [hmemory, Memory.spec_setStale, Memory.tensor_createTensor, if_pos htensor]
    · change e.memory.home r.tensor = _
      unfold Memory.home
      rw [hmemory, Memory.residence_setStale, Memory.tensor_createTensor, if_pos htensor]
      exact home_residenceFor _ host
  | kept _ hold => exact absurd (hnew.symm.trans hold) (by decide)

/-- The tensor of the slot fits the buffer it is used for again. -/
theorem fits_of_kept (h : slots.Resolved position host d r e) (hold : r.created = false)
    {slot : Slot} (hslot : slots.get? position = some slot) {spec : TensorSpec}
    (hfits : slot.Fits d.backend.kind d.memory spec) :
    Slot.Fits d.backend.kind e.memory spec ⟨host.storage, r.tensor⟩ := by
  cases h with
  | created hnew _ _ _ _ => exact absurd (hnew.symm.trans hold) (by decide)
  | kept slot' _ hslot' htensor hmemory hbound =>
    cases hslot.symm.trans hslot'
    rw [htensor]
    exact (hfits.extends (hmemory ▸ Memory.extends_setStale ..)).serving hbound

end Resolved

/-- **Resolving a position**, which fails only if a tensor cannot be made. Where tensors have
storage of their own, none is made for a position that has a slot. Only an input can be up to
date. -/
theorem ends_resolve (slots : SlotTable) (side : Side) (position : Nat) (host : HostBuffer)
    (vouched : Bool) (d : Device) :
    Ends (slots.resolve side position host vouched d)
      (fun r e => r.2 = slots.insert position ⟨host.storage, r.1.tensor⟩ ∧
        slots.Resolved position host d r.1 e ∧
        (r.1.stale = false ↔ side = .input ∧ ¬ slots.Moved position host ∧ vouched = true))
      fun _ e => e.memory = d.memory ∧ ¬ d.backend.Quiet ∧
        (d.backend.kind.isHostBound = false → slots.get? position = none) ∧
        slots.Moved position host := by
  have hmovedIff : ((slots.get? position).map (·.host) ≠ some host.storage) ↔
      slots.Moved position host := Iff.rfl
  unfold resolve
  rw [ends_bind, Backend.ends_kindOf]
  dsimp only
  generalize hcreated : ((slots.get? position).isNone || (d.backend.kind.isHostBound &&
    decide ((slots.get? position).map (·.host) ≠ some host.storage))) = created
  generalize hstale : (decide (side = .output) || created ||
    decide ((slots.get? position).map (·.host) ≠ some host.storage) || !vouched) = stale
  have hside : decide (side = .output) = false ↔ side = .input := by cases side <;> decide
  -- An input is current if its tensor is kept, its buffer stays, and the copy is vouched for.
  have hfresh : stale = false ↔
      side = .input ∧ created = false ∧ ¬ slots.Moved position host ∧ vouched = true := by
    rw [← hstale, ← hmovedIff, ← hside]
    simp [and_assoc]
  cases created with
  | true =>
    have hmoved : slots.Moved position host := by
      unfold Moved
      rcases Bool.or_eq_true_iff.1 hcreated with h | h
      · rw [Option.isNone_iff_eq_none.1 h]
        exact nofun
      · exact of_decide_eq_true (Bool.and_eq_true_iff.1 h).2
    have hneeded : d.backend.kind.isHostBound = false → slots.get? position = none := fun hown => by
      rw [hown, Bool.false_and, Bool.or_false] at hcreated
      exact Option.isNone_iff_eq_none.1 hcreated
    rw [if_pos rfl, ends_bind]
    refine (Backend.ends_createTensor host d).mono (fun id e he => ?_) fun _ e he =>
      ⟨he.1, he.2, hneeded, hmoved⟩
    rw [ends_bind, Backend.ends_setStale, ends_pure]
    refine ⟨rfl, .created rfl he.1 (by rw [he.2]) hmoved hneeded, ?_⟩
    rw [hfresh]
    simp [hmoved]
  | false =>
    obtain ⟨hsome, hstay⟩ := Bool.or_eq_false_iff.1 hcreated
    obtain ⟨slot, hslot⟩ : ∃ slot, slots.get? position = some slot := by
      cases h : slots.get? position with
      | none => rw [h] at hsome; cases hsome
      | some slot => exact ⟨slot, rfl⟩
    rw [if_neg Bool.false_ne_true, hslot]
    dsimp only
    rw [ends_bind, ends_pure, ends_bind, Backend.ends_setStale, ends_pure]
    refine ⟨rfl, .kept slot rfl hslot rfl rfl fun hbound => ?_, by simpa using hfresh⟩
    rw [hbound, Bool.true_and, decide_eq_false_iff_not, not_not, hslot] at hstay
    exact Option.some.inj hstay

end SlotTable

/-! ### One position -/

/-- What giving a position of one side a tensor in its slot does. -/
structure Seated (s : ExecState) (id : ArtifactId) (a : Artifact) (side : Side)
    (position : Nat) (host : HostBuffer) (tensor : TensorId) (t : ExecState) : Prop where
  /-- The executor is the same. -/
  later : s.Later t
  /-- Every other place is as it was. -/
  within : ExecState.Within (fun i p => i = id ∧ p = .slot side position) s t
  /-- The slot is that of the buffer and the tensor now. -/
  cache : t.cache = s.cache.update id
    (a.withSlots side ((a.slots side).insert position ⟨host.storage, tensor⟩))
  /-- The output buffers are equal. -/
  outputs : t.outputs = s.outputs
  /-- The storages of the host are equal. -/
  storages : t.memory.storages = s.memory.storages
  /-- No identity of an artifact has been used up. -/
  nextArtifact : t.platform.nextArtifact = s.platform.nextArtifact

/-- What serving a position of one side from its slot does, on the way to what it is for. -/
structure Served (s : ExecState) (id : ArtifactId) (a : Artifact) (side : Side)
    (position : Nat) (host : HostBuffer) (tensor : TensorId) (t : ExecState) : Prop
    extends Seated s id a side position host tensor t where
  /-- The tensor fits. -/
  fits : Slot.Fits s.kind t.memory host.spec ⟨host.storage, tensor⟩

/-- The tensor has the slot for its place. -/
theorem Seated.tensorAt {s t : ExecState} {id : ArtifactId} {a : Artifact} {side : Side}
    {position : Nat} {host : HostBuffer} {tensor : TensorId}
    (h : Seated s id a side position host tensor t) (ha : s.cache.get? id = some a) :
    t.cache.tensorAt id (.slot side position) = some tensor := by
  rw [h.cache, Cache.tensorAt_update ha, if_pos rfl, Artifact.tensorAt_withSlots_insert, if_pos rfl]

/-- A tensor with storage of its own is written to when it has been given its slot. -/
theorem Seated.rewritten {s t u : ExecState} {id : ArtifactId} {a : Artifact} {side : Side}
    {position : Nat} {host : HostBuffer} {tensor : TensorId} {length : Nat} {bytes : Bytes}
    (h : Seated s id a side position host tensor t) (ha : s.cache.get? id = some a)
    (hhome : t.memory.home tensor = .own length)
    (hlength : bytes.length = (t.memory.contents tensor).length) (hlater : t.Later u)
    (hcache : u.cache = t.cache) (houtputs : u.outputs = t.outputs)
    (hmemory : u.memory = t.memory.setContents tensor bytes)
    (hnext : u.platform.nextArtifact = t.platform.nextArtifact) :
    Seated s id a side position host tensor u := by
  have hextends : t.memory.Extends u.memory := hmemory ▸ Memory.extends_setContents _ _ hlength
  have hat : ∀ i p, u.cache.tensorAt i p = if i = id ∧ p = .slot side position then
      some tensor else t.cache.tensorAt i p := fun i p => by
    rw [hcache]
    split
    · rename_i hip
      rw [hip.1, hip.2, h.tensorAt ha]
    · rfl
  refine ⟨h.later.trans hlater, h.within.trans ?_, hcache.trans h.cache, houtputs.trans h.outputs,
    ?_, hnext.trans h.nextArtifact⟩
  · refine ExecState.Within.of_place h.within.owns hat hextends.tensors (.inl (h.tensorAt ha))
      fun j _ hj => ?_
    rw [hmemory, Memory.tensor_setContents_of_ne _ _ hj]
  · rw [hmemory, Memory.storages_setContents_of_home_own hhome]
    exact h.storages

namespace ExecM

variable {s : ExecState} {id : ArtifactId} {a : Artifact} {side : Side} {position : Nat}
  {host : HostBuffer}

/-- **A position is resolved**, whatever its slot holds, and the artifact gets the slot. -/
theorem ends_seatSlot (howns : s.cache.Owns s.memory) (ha : s.cache.get? id = some a)
    (vouched : Bool) (fault : BackendError → InternalFault) :
    Ends (onBackend fault ((a.slots side).resolve side position host vouched) s)
      (fun r t => Seated s id a side position host r.1.tensor
          { t with executor.cache := t.cache.update id (a.withSlots side r.2) } ∧
        (∃ d : Device, d.memory = t.memory ∧
          (a.slots side).Resolved position host s.device r.1 d) ∧
        t.platform.registries = s.platform.registries ∧
        (r.1.stale = false ↔ side = .input ∧
          ¬ (a.slots side).Moved position host ∧ vouched = true) ∧
        (¬ (a.slots side).Moved position host →
          (a.slots side).get? position = some ⟨host.storage, r.1.tensor⟩ ∧
          t.memory.contents r.1.tensor = s.memory.contents r.1.tensor))
      fun _ t => s.OnlyMemory s.memory t ∧ ¬ s.device.backend.Quiet ∧
        (s.kind.isHostBound = false → (a.slots side).get? position = none) ∧
        (a.slots side).Moved position host := by
  rw [ends_onBackend]
  refine (((a.slots side).ends_resolve side position host vouched s.device).and
    (SlotTable.keeps_resolve _ _ _ _ _ s.device)).mono (fun r d hd => ?_) fun _ d hd => ?_
  · obtain ⟨⟨hslots, hresolved, hstale⟩, hlater⟩ := hd
    have honly := ExecState.onlyMemory_withDevice hlater.toLater
    have hplace := a.tensorAt_withSlots_insert side position ⟨host.storage, r.1.tensor⟩
    -- No place changes but the one that is seated.
    have hcache : ∀ i p, (s.cache.update id (a.withSlots side r.2)).tensorAt i p =
        if i = id ∧ p = .slot side position then some r.1.tensor else s.cache.tensorAt i p := by
      intro i p
      rw [Cache.tensorAt_update ha, hslots, hplace]
      by_cases hi : i = id
      · rw [if_pos hi]
        by_cases hp : p = .slot side position
        · rw [if_pos hp, if_pos ⟨hi, hp⟩]
        · rw [if_neg hp, if_neg fun h => hp h.2, hi]
          unfold Cache.tensorAt
          rw [ha]
          rfl
      · rw [if_neg hi, if_neg fun h => hi h.1]
    have hservedCache : s.cache.update id (a.withSlots side r.2) = s.cache.update id
        (a.withSlots side ((a.slots side).insert position ⟨host.storage, r.1.tensor⟩)) := by
      rw [hslots]
    have hlater' : s.Later { s.withDevice d with
        executor.cache := s.cache.update id (a.withSlots side r.2) } :=
      { honly.later with }
    refine ⟨⟨hlater', ExecState.Within.of_place howns hcache hlater.memory.tensors ?_
      (fun j hlt hj => hresolved.tensor_of_ne hlt hj), hservedCache, rfl, hresolved.storages, rfl⟩,
      ⟨d, rfl, hresolved⟩, rfl, hstale, fun hstay => ?_⟩
    · cases hnew : r.1.created with
      | true =>
        obtain ⟨hid, hlive⟩ := hresolved.live_of_created hnew
        exact .inr ⟨Nat.le_of_eq hid.symm, hlive⟩
      | false =>
        obtain ⟨slot, hslot, htensor⟩ := hresolved.exists_slot_of_kept hnew
        exact .inl (htensor ▸ Cache.tensorAt_slot ha hslot.get?)
    · cases hresolved with
      | created _ _ _ hmoved _ => exact absurd hmoved hstay
      | kept slot _ hslot htensor hmemory _ =>
        have hhost : slot.host = host.storage := by
          unfold SlotTable.Moved at hstay
          rw [hslot, not_not] at hstay
          exact Option.some.inj hstay
        refine ⟨by rw [hslot, htensor, ← hhost], ?_⟩
        change d.memory.contents r.1.tensor = s.memory.contents r.1.tensor
        rw [hmemory, Memory.contents_setStale]
        rfl
  · obtain ⟨⟨hmemory, hnot⟩, hlater⟩ := hd
    have honly := ExecState.onlyMemory_withDevice hlater.toLater
    exact ⟨{ honly with memory := hmemory }, hnot⟩

/-- **A position is resolved** whose slot fits the buffer if its tensor is used again. -/
theorem ends_resolveSlot (howns : s.cache.Owns s.memory) (ha : s.cache.get? id = some a)
    (hfits : ∀ slot, (a.slots side).Reuses s.kind position host slot →
      slot.Fits s.kind s.memory host.spec)
    (vouched : Bool) (fault : BackendError → InternalFault) :
    Ends (onBackend fault ((a.slots side).resolve side position host vouched) s)
      (fun r t => Served s id a side position host r.1.tensor
          { t with executor.cache := t.cache.update id (a.withSlots side r.2) } ∧
        t.platform.registries = s.platform.registries ∧
        (r.1.stale = false ↔ side = .input ∧
          ¬ (a.slots side).Moved position host ∧ vouched = true) ∧
        (¬ (a.slots side).Moved position host →
          (a.slots side).get? position = some ⟨host.storage, r.1.tensor⟩ ∧
          t.memory.contents r.1.tensor = s.memory.contents r.1.tensor))
      fun _ t => s.OnlyMemory s.memory t ∧ ¬ s.device.backend.Quiet ∧
        (s.kind.isHostBound = false → (a.slots side).get? position = none) := by
  refine (ends_seatSlot howns ha vouched fault).mono (fun r t ht => ?_)
    fun _ _ h => ⟨h.1, h.2.1, h.2.2.1⟩
  obtain ⟨hseated, ⟨d, hd, hresolved⟩, hrest⟩ := ht
  refine ⟨⟨hseated, ?_⟩, hrest⟩
  change Slot.Fits s.kind t.memory host.spec ⟨host.storage, r.1.tensor⟩
  rw [← hd]
  cases hnew : r.1.created with
  | true => exact hresolved.fits_of_created hnew
  | false =>
    obtain ⟨slot, hslot, -⟩ := hresolved.exists_slot_of_kept hnew
    exact hresolved.fits_of_kept hnew hslot.get? (hfits slot hslot)

/-- **An input is copied** to a tensor of its spec with storage of its own: the tensor holds
what the buffer holds. -/
theorem ends_writeInput (position : Nat) {tensor : TensorId}
    (hspec : (s.memory.tensor tensor).spec = host.spec)
    (hhome : s.memory.home tensor = .own host.spec.byteLength)
    (hsize : (s.memory.read host).WellSized) :
    Ends (writeInput position tensor host s)
      (fun _ t => s.OnlyMemory (s.memory.setContents tensor (s.memory.storage host.storage)) t)
      fun _ _ => False := by
  have hlen : (s.memory.storage host.storage).length = host.spec.byteLength := hsize
  have hneeded : (s.memory.tensor tensor).spec.elements * host.spec.dtype.size =
      (s.memory.storage host.storage).length := by
    rw [hspec, hlen]
    rfl
  unfold writeInput
  rw [ends_bind, ends_platform]
  dsimp only
  rw [hneeded, if_neg (Nat.lt_irrefl _), List.take_length, ends_bind, ends_onBackend]
  -- The buffer is as long as the tensor, so all of the tensor is overwritten.
  have hover : (s.memory.contents tensor).overwrite? (s.memory.storage host.storage) 0 =
      some (s.memory.storage host.storage) := by
    have hcontents := Memory.length_contents_of_home_own hhome
    unfold Bytes.overwrite?
    rw [if_pos (by omega), List.take_zero, List.nil_append, Nat.zero_add,
      List.drop_of_length_le (by omega), List.append_nil]
  have hwrite : Ends (Backend.write tensor (s.memory.storage host.storage) 0 s.device)
      (fun _ d => d.memory =
        s.memory.setContents tensor (s.memory.storage host.storage)) fun _ _ => False := by
    unfold Backend.write Backend.overwrite
    rw [ends_bind, ends_bind, ends_get]
    have : s.device.memory.overwrite? tensor (s.memory.storage host.storage) 0 =
        some (s.memory.setContents tensor (s.memory.storage host.storage)) := by
      unfold Memory.overwrite?
      rw [ExecState.device_memory, hover]
      rfl
    rw [this]
    exact rfl
  refine (hwrite.and (Backend.keeps_write _ _ _ s.device)).mono (fun _ d hd => ?_)
    fun _ _ h => h.1.elim
  rw [ends_bind, ends_changePlatform, ends_pure]
  have honly := ExecState.onlyMemory_withDevice hd.2.toLater
  exact ⟨honly.later.trans { ExecState.Later.refl _ with
    platform := Platform.later_cacheEvent _ _ }, rfl, rfl, hd.1, rfl, rfl⟩

/-- What an input tensor holds, and what the tracker has been told, when an input has been
served. -/
inductive InputServed (s : ExecState) (id : ArtifactId) (a : Artifact) (position : Nat)
    (host : HostBuffer) (tensor : TensorId) (t : ExecState) : Prop where
  /-- The tensor is bound to the buffer. -/
  | bound (hbound : s.kind.isHostBound = true)
    (hregistries : t.platform.registries = s.platform.registries)
  /-- The tensor of the slot is vouched for. -/
  | vouched (hbound : s.kind.isHostBound = false)
    (hfresh : s.platform.isFresh s.executor.tracker host.storage id = true)
    (hslot : a.inputs.get? position = some ⟨host.storage, tensor⟩)
    (hcontents : t.memory.contents tensor = s.memory.contents tensor)
    (hregistries : t.platform.registries = s.platform.registries)
  /-- The input has been copied. -/
  | copied (hbound : s.kind.isHostBound = false)
    (hreason : ¬ (s.platform.isFresh s.executor.tracker host.storage id = true ∧
      ∃ old, a.inputs.get? position = some ⟨host.storage, old⟩))
    (hcontents : t.memory.contents tensor = s.memory.storage host.storage)
    (hregistries : t.platform.registries =
      s.executor.tracker.update s.platform.registries (·.mark host.storage id))

/-- The input is copied to the tensor that serves it, and the copy is remembered. -/
theorem served_of_copied {t u : ExecState} {tensor : TensorId}
    (h : Served s id a .input position host tensor t)
    (ha : s.cache.get? id = some a) (hbound : s.kind.isHostBound = false)
    (hsize : (s.memory.read host).WellSized)
    (hregistries : t.platform.registries = s.platform.registries)
    (hreason : ¬ (s.platform.isFresh s.executor.tracker host.storage id = true ∧
      ∃ old, a.inputs.get? position = some ⟨host.storage, old⟩))
    (hu : t.OnlyMemory (t.memory.setContents tensor (s.memory.storage host.storage)) u) :
    Served s id a .input position host tensor
        { u with platform := u.platform.tell s.executor.tracker (·.mark host.storage id) } ∧
      InputServed s id a position host tensor
        { u with platform := u.platform.tell s.executor.tracker (·.mark host.storage id) } := by
  have hhome : t.memory.home tensor = .own host.spec.byteLength := by
    rw [h.fits.home]
    unfold homeFor
    rw [if_neg (by rw [hbound]; exact Bool.false_ne_true)]
  have hlen : (s.memory.storage host.storage).length = (t.memory.contents tensor).length := by
    rw [Memory.length_contents_of_home_own hhome]
    exact hsize
  have hextends : t.memory.Extends u.memory := by
    rw [hu.memory]
    exact Memory.extends_setContents _ _ hlen
  refine ⟨⟨h.toSeated.rewritten ha hhome hlen ?_ hu.cache hu.outputs hu.memory hu.nextArtifact,
    h.fits.extends hextends⟩, .copied hbound hreason ?_ ?_⟩
  · exact hu.later.trans { ExecState.Later.refl _ with
      platform := (Platform.calm_tell _ _ _).toLater }
  · change u.memory.contents tensor = _
    rw [hu.memory]
    exact Memory.contents_setContents_of_home_own hhome h.fits.live _
  · change s.executor.tracker.update u.platform.registries _ = _
    rw [hu.registries, hregistries]

/-- **An input is served**, unless a tensor cannot be made for it. -/
theorem ends_serveInput (howns : s.cache.Owns s.memory) (ha : s.cache.get? id = some a)
    (hexternal : s.executor.unit.externalInputs.contains position = false)
    (hfits : ∀ slot, a.inputs.Reuses s.kind position host slot →
      slot.Fits s.kind s.memory host.spec)
    (hsize : (s.memory.read host).WellSized) :
    Ends (serveInput id position host s)
      (fun v t => ∃ tensor, v.tensor = some tensor ∧
        Served s id a .input position host tensor t ∧
        InputServed s id a position host tensor t)
      fun _ t => s.OnlyMemory s.memory t ∧ ¬ s.device.backend.Quiet ∧
        (s.kind.isHostBound = false → a.inputs.get? position = none) := by
  unfold serveInput
  rw [ends_bind, ends_executor]
  dsimp only
  rw [if_neg (by rw [hexternal]; exact Bool.false_ne_true), ends_bind, ends_artifact_of_some ha,
    ends_bind, ends_platform, ends_bind]
  have hfits' : ∀ slot, (a.slots .input).Reuses s.kind position host slot →
      slot.Fits s.kind s.memory host.spec := hfits
  refine (ends_resolveSlot howns ha hfits' _ _).mono (fun ⟨r, slots⟩ t ht => ?_) fun _ _ h => h
  obtain ⟨hserved, hregistries, hstale, hkept⟩ := ht
  rw [eq_self_iff_true, true_and] at hstale
  dsimp only at hserved hstale hkept
  rw [ends_bind, ends_setArtifact]
  obtain ⟨u, hu⟩ : ∃ u : ExecState, u = { t with
    executor.cache := t.executor.cache.update id (a.withSlots .input slots) } := ⟨_, rfl⟩
  have hregistries' : u.platform.registries = s.platform.registries := by rw [hu]; exact hregistries
  have hcontents' : ∀ j, u.memory.contents j = t.memory.contents j := fun _ => by rw [hu]
  change Ends ((kind >>= _) ({ t with
    executor.cache := t.executor.cache.update id (a.withSlots .input slots) } : ExecState)) _ _
  rw [← hu] at hserved ⊢
  rw [ends_bind, ends_kind, hserved.later.kind_eq]
  -- A host-bound tensor is the buffer. Any other holds a copy that is vouched for, or gets one.
  cases hbound : s.kind.isHostBound with
  | true =>
    rw [Bool.not_true, Bool.and_false, if_neg Bool.false_ne_true, ends_pure]
    exact ⟨r.tensor, rfl, hserved, .bound hbound hregistries'⟩
  | false =>
    rw [Bool.not_false, Bool.and_true]
    cases hs : r.stale with
    | false =>
      obtain ⟨hstay, hvouched⟩ := hstale.1 hs
      obtain ⟨hslot, hcontents⟩ := hkept hstay
      rw [if_neg Bool.false_ne_true, ends_pure]
      exact ⟨r.tensor, rfl, hserved, .vouched hbound hvouched hslot
        ((hcontents' _).trans hcontents) hregistries'⟩
    | true =>
      rw [if_pos rfl, ends_bind]
      have hhome : u.memory.home r.tensor = .own host.spec.byteLength := by
        rw [hserved.fits.home]
        unfold homeFor
        rw [if_neg (by rw [hbound]; exact Bool.false_ne_true)]
      have hstorage : ∀ j, u.memory.storage j = s.memory.storage j := fun j => by
        unfold Memory.storage
        rw [hserved.storages]
      have hsize' : (u.memory.read host).WellSized := by
        unfold Memory.read at hsize ⊢
        rwa [hstorage]
      refine (ends_writeInput position hserved.fits.spec_eq hhome hsize').mono
        (fun n v hv => ?_) fun _ _ h => h.elim
      rw [ends_bind, ends_changePlatform, ends_pure]
      rw [hstorage] at hv
      refine ⟨r.tensor, rfl, served_of_copied hserved ha hbound hsize hregistries' ?_ hv⟩
      rintro ⟨hfresh, old, hold⟩
      have hstay : ¬ a.inputs.Moved position host := by
        unfold SlotTable.Moved
        rw [hold]
        exact fun h => h rfl
      exact Bool.false_ne_true ((hstale.2 ⟨hstay, hfresh⟩).symm.trans hs)

/-- **An output is served**, unless a tensor cannot be made for it. -/
theorem ends_serveOutput (howns : s.cache.Owns s.memory) (ha : s.cache.get? id = some a)
    (hexternal : s.executor.unit.externalOutputs.contains position = false)
    (hfits : ∀ slot, a.outputs.Reuses s.kind position host slot →
      slot.Fits s.kind s.memory host.spec) :
    Ends (serveOutput id position host s)
      (fun v t => ∃ tensor, v.tensor = some tensor ∧
        Served s id a .output position host tensor t ∧
        t.platform.registries = s.platform.registries)
      fun _ t => s.OnlyMemory s.memory t ∧ ¬ s.device.backend.Quiet := by
  unfold serveOutput
  rw [ends_bind, ends_executor]
  dsimp only
  rw [if_neg (by rw [hexternal]; exact Bool.false_ne_true), ends_bind, ends_artifact_of_some ha,
    ends_bind, ends_platform, ends_bind]
  have hfits' : ∀ slot, (a.slots .output).Reuses s.kind position host slot →
      slot.Fits s.kind s.memory host.spec := hfits
  refine (ends_resolveSlot howns ha hfits' _ _).mono (fun ⟨r, slots⟩ t ht => ?_)
    fun _ _ h => ⟨h.1, h.2.1⟩
  rw [ends_bind, ends_setArtifact, ends_pure]
  exact ⟨r.tensor, rfl, ht.1, ht.2.1⟩

end ExecM

end TensorJit
