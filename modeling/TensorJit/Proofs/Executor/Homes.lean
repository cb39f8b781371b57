import TensorJit.Proofs.Executor.Failure
import TensorJit.Proofs.Executor.Lending
import TensorJit.Proofs.Executor.Run

/-!
# Tensors at home

A tensor at home is bound to no storage of the host but that of the buffer that its slot last
served, and to that only on a backend that keeps tensors in host buffers (`Slot.AtHome.bound`). Every
tensor is made at home and stays there, whatever the element types of the inputs and the lengths of
the buffers, and **a step that only gets tensors for a call spares the host**: it changes none of its
storages, however it ends (`ExecState.Spares`).

The tensors that a call gets for its results are bound to the buffers of their own positions, and
there is none for a position that is bound elsewhere (`ExecM.Tethered`). Those of a group have
storage of their own.
-/

namespace TensorJit

/-! ### Tensors at home -/

namespace Artifact

variable {κ : BackendKind} {m n : Memory} {a : Artifact}

/-- Tensors stay at home while memory grows. -/
theorem AtHome.extends (h : a.AtHome κ m) (hmn : m.Extends n) : a.AtHome κ n where
  slots side position slot hslot := (h.slots side position slot hslot).extends hmn
  pipeline p hp := (h.pipeline p hp).extends hmn

/-- The artifact gets a slot. -/
theorem AtHome.withSlot (h : a.AtHome κ m) (side : Side) (position : Nat) {slot : Slot}
    (hslot : slot.AtHome κ m) :
    (a.withSlots side ((a.slots side).insert position slot)).AtHome κ m where
  slots side' position' slot' hslot' := by
    rw [slots_withSlots] at hslot'
    split at hslot'
    · rename_i hside
      rw [SortedMap.get?_insert] at hslot'
      split at hslot'
      · obtain rfl := Option.some.inj hslot'
        exact hslot
      · exact h.slots side position' slot' hslot'
    · exact h.slots side' position' slot' hslot'
  pipeline p hp := by
    rw [executable_withSlots]
    exact h.pipeline p ((a.pipeline_withSlots side _).symm.trans hp)

/-- The artifact gets a pipeline. -/
theorem AtHome.withPipeline (h : a.AtHome κ m) {p : Pipeline TensorId}
    (hp : p.Fits m a.executable.function) : (a.withPipeline p).AtHome κ m where
  slots := h.slots
  pipeline q hq := by
    obtain rfl := Option.some.inj hq
    exact hp

end Artifact

/-- A unit writes to the buffer with this storage: it is an output buffer, and its position is not
bound elsewhere. -/
def OutputBuffers.Receives (o : OutputBuffers) (u : ExecutionUnit) (storage : StorageId) : Prop :=
  ∃ (p : Nat) (b : HostBuffer), o.buffers[p]? = some b ∧
    u.externalOutputs.contains p = false ∧ b.storage = storage

/-! ### States -/

namespace ExecState

variable {S S' : StorageId → Prop} {s t u : ExecState} {m : Memory}

/-- They do so in every step that leaves the cache alone. -/
theorem AtHome.of_later (h : s.AtHome) (hlater : s.Later t) (hcache : t.cache = s.cache) :
    t.AtHome := by
  intro i a ha
  rw [hlater.kind_eq]
  exact (h i a (hcache ▸ ha)).extends hlater.platform.memory

/-- An artifact is replaced. -/
theorem AtHome.update (h : s.AtHome) (hlater : s.Later t) {id : ArtifactId} {a b : Artifact}
    (ha : s.cache.get? id = some a) (hcache : t.cache = s.cache.update id b)
    (hb : b.AtHome s.kind t.memory) : t.AtHome := by
  intro i c hc
  rw [hlater.kind_eq]
  rw [hcache, Cache.get?_update] at hc
  split at hc
  · rw [ha] at hc
    obtain rfl := Option.some.inj hc
    exact hb
  · exact (h i c hc).extends hlater.platform.memory

/-- An artifact gets a pipeline. -/
theorem AtHome.withPipeline (h : s.AtHome) (hlater : s.Later t) {id : ArtifactId} {a : Artifact}
    {p : Pipeline TensorId} (ha : s.cache.get? id = some a)
    (hcache : t.cache = s.cache.update id (a.withPipeline p))
    (hfits : p.Fits t.memory a.executable.function) : t.AtHome :=
  h.update hlater ha hcache (((h id a ha).extends hlater.platform.memory).withPipeline hfits)

/-- Between two states no storage of the host has changed but those of `S`. -/
structure Touches (S : StorageId → Prop) (s t : ExecState) : Prop where
  /-- The tensors are at home. -/
  home : t.AtHome
  /-- The executor is the same. -/
  later : s.Later t
  /-- The output buffers are equal. -/
  outputs : t.outputs = s.outputs
  /-- Every other storage is as it was. -/
  storages : ∀ storage, ¬ S storage → t.memory.storage storage = s.memory.storage storage

theorem Touches.refl (h : s.AtHome) : s.Touches S s := ⟨h, .refl s, rfl, fun _ _ => rfl⟩

/-- **What is touched in one step or the other** is all that is touched in both. -/
theorem Touches.trans (h : s.Touches S t) (h' : t.Touches S u) : s.Touches S u :=
  ⟨h'.home, h.later.trans h'.later, h'.outputs.trans h.outputs, fun storage hS =>
    (h'.storages storage hS).trans (h.storages storage hS)⟩

/-- More may be touched than is. -/
theorem Touches.mono (h : s.Touches S t) (hS : ∀ storage, S storage → S' storage) :
    s.Touches S' t :=
  { h with storages := fun storage hS' => h.storages storage fun hs => hS' (hS storage hs) }

theorem Touches.counted (h : s.Touches S t) (x : Stats) :
    s.Touches S { t with executor.stats := x } :=
  ⟨h.home, { h.later with }, h.outputs, h.storages⟩

/-- Nothing has happened to the artifacts or to the output buffers. -/
theorem Touches.of_cache_eq (h : s.AtHome) (hlater : s.Later t) (hcache : t.cache = s.cache)
    (houtputs : t.outputs = s.outputs)
    (hstorages : ∀ storage, ¬ S storage → t.memory.storage storage = s.memory.storage storage) :
    s.Touches S t := ⟨h.of_later hlater hcache, hlater, houtputs, hstorages⟩

/-- Only memory has changed, and in it only these storages. -/
theorem OnlyMemory.touches (ht : s.OnlyMemory m t) (h : s.AtHome)
    (hstorages : ∀ storage, ¬ S storage → m.storage storage = s.memory.storage storage) :
    s.Touches S t :=
  .of_cache_eq h ht.later ht.cache ht.outputs fun storage hS => by
    rw [ht.memory]
    exact hstorages storage hS

/-- Between two states no storage of the host has changed. -/
abbrev Spares (s t : ExecState) : Prop := s.Touches (fun _ => False) t

theorem Spares.touches (h : s.Spares t) : s.Touches S t := h.mono nofun

theorem Spares.trans (h : s.Spares t) (h' : t.Spares u) : s.Spares u := Touches.trans h h'

/-- Nothing has been touched before. -/
theorem Spares.append (h : s.Spares t) (h' : t.Touches S u) : s.Touches S u := h.touches.trans h'

/-- Only memory has changed, and nothing of the host. -/
theorem OnlyMemory.spares (ht : s.OnlyMemory m t) (h : s.AtHome)
    (hstorages : m.storages = s.memory.storages) : s.Spares t :=
  ht.touches h fun storage _ => by
    unfold Memory.storage
    rw [hstorages]

/-- Something happens to the platform, and nothing to memory. -/
theorem Spares.of_platform (h : s.AtHome) {p : Platform} (hp : s.platform.Later p)
    (hmemory : p.memory = s.memory) : s.Spares { s with platform := p } :=
  .of_cache_eq h { Later.refl s with platform := hp } rfl rfl fun _ _ => by
    rw [show ExecState.memory { s with platform := p } = s.memory from hmemory]

end ExecState

namespace ExecM

open ExecState (OnlyMemory Spares)

variable {s t : ExecState} {id : ArtifactId} {a : Artifact}

/-! ### Inputs -/

/-- **Copying an input** to a tensor with storage of its own. -/
theorem spares_writeInput (h : s.AtHome) (position : Nat) {tensor : TensorId} (host : HostBuffer)
    (hown : ∀ storage, s.memory.home tensor ≠ .host storage) :
    Ends (writeInput position tensor host s) (fun _ t => s.Spares t)
      fun _ t => s.Spares t := by
  unfold writeInput
  rw [ends_bind, ends_platform]
  dsimp only
  split
  · rw [ends_bind, ends_fail]
    exact .refl h
  rw [ends_bind, ends_onBackend]
  have hwrite : ∀ d : Device, s.device.Later d → s.memory.Rewritten [some tensor] d.memory →
      s.Spares (s.withDevice d) := fun d hlater hd =>
    (ExecState.onlyMemory_withDevice hlater).touches h fun storage _ =>
      hd.storages storage fun j hj => by
        obtain rfl := Option.some.inj (List.mem_singleton.1 hj)
        exact hown storage
  refine ((Backend.rewritten_write _ _ _ s.device).and (Backend.keeps_write _ _ _ s.device)).mono
    (fun _ d hd => ?_) fun _ d hd => hwrite d hd.2.toLater hd.1
  rw [ends_bind, ends_changePlatform, ends_pure]
  have ht := hwrite d hd.2.toLater hd.1
  exact ht.trans (Spares.of_platform ht.home (Platform.later_cacheEvent _ _) rfl)

/-- **A position is resolved**, and the artifact gets the slot. -/
theorem spares_resolve (h : s.AtHome) (ha : s.cache.get? id = some a) (side : Side)
    (position : Nat) (host : HostBuffer) (vouched : Bool) (fault : BackendError → InternalFault) :
    Ends (onBackend fault ((a.slots side).resolve side position host vouched) s)
      (fun r t => s.Spares
          { t with executor.cache := t.cache.update id (a.withSlots side r.2) } ∧
        Slot.AtHome s.kind t.memory ⟨host.storage, r.1.tensor⟩)
      fun _ t => s.Spares t := by
  rw [ends_onBackend]
  refine (((a.slots side).ends_resolve side position host vouched s.device).and
    (SlotTable.keeps_resolve _ _ _ _ _ s.device)).mono (fun r d hd => ?_) fun _ d hd => ?_
  · obtain ⟨⟨hslots, hresolved, -⟩, hlater⟩ := hd
    have honly := ExecState.onlyMemory_withDevice hlater.toLater
    have hfits : r.1.created = true →
        Slot.Fits s.kind d.memory host.spec ⟨host.storage, r.1.tensor⟩ :=
      hresolved.fits_of_created
    have hslot : Slot.AtHome s.kind d.memory ⟨host.storage, r.1.tensor⟩ := by
      cases hresolved with
      | created hnew _ _ _ _ => exact (hfits hnew).atHome
      | kept slot _ hslot htensor hmemory hbound =>
        rw [ExecState.device_memory] at hmemory
        rw [htensor, hmemory]
        exact (((h id a ha).slots side position slot hslot).extends
          (Memory.extends_setStale _ _ _)).serving hbound
    have htouches : s.Spares (s.withDevice d) := honly.spares h hresolved.storages
    have hlater' : s.Later { s.withDevice d with
        executor.cache := s.cache.update id (a.withSlots side r.2) } := { honly.later with }
    refine ⟨⟨h.update hlater' ha rfl ?_, hlater', rfl, htouches.storages⟩, hslot⟩
    rw [hslots]
    exact ((h id a ha).extends honly.later.platform.memory).withSlot side position hslot
  · obtain ⟨⟨hmemory, -⟩, hlater⟩ := hd
    exact (ExecState.onlyMemory_withDevice hlater.toLater).spares h (congrArg _ hmemory)

/-- **Serving an input** makes a tensor or copies to one, and neither touches the host. -/
theorem spares_serveInput (h : s.AtHome) (id : ArtifactId) (position : Nat) (host : HostBuffer) :
    Ends (serveInput id position host s) (fun _ t => s.Spares t)
      fun _ t => s.Spares t := by
  unfold serveInput
  rw [ends_bind, ends_executor]
  dsimp only
  split
  · exact .refl h
  rw [ends_bind, ends_artifact]
  refine ⟨fun a ha => ?_, fun _ => .refl h⟩
  rw [ends_bind, ends_platform, ends_bind]
  refine (spares_resolve h ha .input position host _ _).mono (fun ⟨r, slots⟩ t ht => ?_)
    fun _ _ ht => ht
  obtain ⟨ht, hslot⟩ := ht
  rw [ends_bind, ends_setArtifact, ends_bind, ends_kind]
  replace ht : s.Spares
    { t with executor.cache := t.cache.update id { a with inputs := slots } } := ht
  split
  · rename_i hcopy
    -- An input is copied only where tensors have storage of their own.
    have hown : ∀ storage, t.memory.home r.tensor ≠ .host storage := fun storage hhome => by
      obtain ⟨hbound, -⟩ := hslot.bound hhome
      rw [ht.later.kind_eq, hbound, Bool.not_true, Bool.and_false] at hcopy
      cases hcopy
    rw [ends_bind]
    refine (spares_writeInput ht.home position host hown).mono (fun n u hu => ?_)
      fun _ u hu => ht.trans hu
    rw [ends_bind, ends_changePlatform, ends_pure]
    exact (ht.trans hu).trans (Spares.of_platform hu.home (u.platform.calm_tell _ _).toLater rfl)
  · exact ht

/-- So it is for all inputs. -/
theorem spares_allocateInputs (h : s.AtHome) (id : ArtifactId) (inputs : List HostBuffer) :
    Ends (allocateInputs id inputs s) (fun _ t => s.Spares t)
      fun _ t => s.Spares t := by
  unfold allocateInputs
  rw [ends_bind, ends_discard, ends_artifact]
  refine ⟨fun _ _ => ?_, fun _ => .refl h⟩
  rw [ends_bind]
  refine (ends_mapM (I := fun _ _ t => s.Spares t) (fun _ b _ _ _ _ ht =>
    (spares_serveInput ht.home id b.2 b.1).mono (fun _ _ hu => ht.trans hu)
      fun _ _ hu => ht.trans hu) (.refl h)).mono (fun _ t ht => ?_) fun _ _ ht => ht
  rw [ends_bind, ends_count, ends_pure]
  exact ht.counted _

/-! ### Tensors for the results -/

/-- The tensors for the results of a call: there is none at a position that is bound elsewhere, and
each is bound to no storage of the host but that of the buffer at its position, and to that only
where tensors are kept in host buffers. -/
structure Tethered (s : ExecState) (buffers : List HostBuffer)
    (tensors : List (Option TensorId)) : Prop where
  /-- The positions are not bound elsewhere. -/
  inside : ∀ (p : Nat) (x : TensorId), tensors[p]? = some (some x) →
    s.executor.unit.externalOutputs.contains p = false
  /-- The tensors exist. -/
  live : ∀ (p : Nat) (x : TensorId), tensors[p]? = some (some x) → x < s.memory.tensors.size
  /-- They are bound to these storages if to any. -/
  home : ∀ (p : Nat) (x : TensorId) (storage : StorageId), tensors[p]? = some (some x) →
    s.memory.home x = .host storage → s.kind.isHostBound = true ∧
      ∃ b : HostBuffer, buffers[p]? = some b ∧ b.storage = storage

variable {buffers : List HostBuffer} {tensors : List (Option TensorId)}

/-- Where the tensors are does not change. -/
theorem Tethered.of_later (h : Tethered s buffers tensors) (hlater : s.Later t) :
    Tethered t buffers tensors where
  inside p x hx := by
    rw [hlater.unit]
    exact h.inside p x hx
  live p x hx := Nat.lt_of_lt_of_le (h.live p x hx) hlater.platform.memory.tensors
  home p x storage hx hhome := by
    rw [hlater.kind_eq]
    exact h.home p x storage hx ((hlater.platform.memory.home x (h.live p x hx)).symm.trans hhome)

/-- A storage of the host that one of the tensors is bound to is that of a result. -/
theorem Tethered.receives (h : Tethered s s.outputs.buffers tensors) {x : TensorId}
    {storage : StorageId} (hx : some x ∈ tensors) (hhome : s.memory.home x = .host storage) :
    s.kind.isHostBound = true ∧ s.outputs.Receives s.executor.unit storage := by
  obtain ⟨p, hp⟩ := List.getElem?_of_mem hx
  obtain ⟨hbound, b, hb, hstorage⟩ := h.home p x storage hp hhome
  exact ⟨hbound, p, b, hb, h.inside p x hp, hstorage⟩

/-- **Serving an output** gives a tensor that is at home in the slot of its buffer. -/
theorem spares_serveOutput (h : s.AtHome) (id : ArtifactId) (position : Nat) (host : HostBuffer) :
    Ends (serveOutput id position host s)
      (fun v t => s.Spares t ∧ ∀ x, v.tensor = some x →
        s.executor.unit.externalOutputs.contains position = false ∧
        Slot.AtHome s.kind t.memory ⟨host.storage, x⟩)
      fun _ t => s.Spares t := by
  unfold serveOutput
  rw [ends_bind, ends_executor]
  dsimp only
  split
  · exact ⟨.refl h, nofun⟩
  rename_i hinside
  rw [ends_bind, ends_artifact]
  refine ⟨fun a ha => ?_, fun _ => .refl h⟩
  rw [ends_bind, ends_platform, ends_bind]
  refine (spares_resolve h ha .output position host _ _).mono (fun ⟨r, slots⟩ t ht => ?_)
    fun _ _ ht => ht
  rw [ends_bind, ends_setArtifact, ends_pure]
  refine ⟨ht.1, fun x hx => ?_⟩
  obtain rfl := Option.some.inj hx
  exact ⟨Bool.eq_false_of_not_eq_true hinside, ht.2⟩

/-- So all tensors for results are tied to the buffers of their positions at most. -/
theorem spares_allocateOutputs (h : s.AtHome) (id : ArtifactId) (buffers : List HostBuffer) :
    Ends (allocateOutputs id buffers s)
      (fun outs t => s.Spares t ∧ Tethered t buffers outs.tensors)
      fun _ t => s.Spares t := by
  unfold allocateOutputs
  rw [ends_bind, ends_discard, ends_artifact]
  refine ⟨fun _ _ => ?_, fun _ => .refl h⟩
  rw [ends_bind]
  refine (ends_mapM_zipIdx (I := fun (services : List Service) t => s.Spares t ∧
    Tethered t buffers (services.map (·.tensor))) (fun services b t hb ht => ?_)
    ⟨.refl h, nofun, nofun, nofun⟩).mono (fun services t ht => ?_) fun _ _ ht => ht
  · refine (spares_serveOutput ht.1.home id services.length b).mono (fun v u hu => ?_)
      fun _ u hu => ht.1.trans hu
    obtain ⟨hu, hv⟩ := hu
    have hold := ht.2.of_later hu.later
    -- The position that is served now is the last one.
    have hcases : ∀ {p : Nat} {x : TensorId},
        ((services ++ [v]).map (·.tensor))[p]? = some (some x) →
        (services.map (·.tensor))[p]? = some (some x) ∨
          p = services.length ∧ v.tensor = some x := fun {p x} hx => by
      rw [List.map_append] at hx
      rcases Nat.lt_or_ge p services.length with hlt | hge
      · rw [List.getElem?_append_left (by rwa [List.length_map])] at hx
        exact .inl hx
      · rw [List.getElem?_append_right (by rwa [List.length_map]), List.length_map,
          List.map_singleton, List.getElem?_singleton] at hx
        split at hx
        · exact .inr ⟨by omega, Option.some.inj hx⟩
        · cases hx
    refine ⟨ht.1.trans hu, fun p x hx => ?_, fun p x hx => ?_, fun p x storage hx hhome => ?_⟩
    · rcases hcases hx with hbefore | ⟨rfl, hlast⟩
      · exact hold.inside p x hbefore
      · rw [hu.later.unit]
        exact (hv x hlast).1
    · rcases hcases hx with hbefore | ⟨rfl, hlast⟩
      · exact hold.live p x hbefore
      · exact (hv x hlast).2.live
    · rcases hcases hx with hbefore | ⟨rfl, hlast⟩
      · exact hold.home p x storage hbefore hhome
      · obtain ⟨hbound, hstorage⟩ := (hv x hlast).2.bound hhome
        rw [hu.later.kind_eq]
        exact ⟨hbound, b, hb, hstorage⟩
  · obtain ⟨-, ht, htethered⟩ := ht
    rw [ends_bind, ends_count, ends_pure]
    exact ⟨ht.counted _, htethered.of_later (by exact { ExecState.Later.refl t with })⟩

end ExecM

/-! ### Groups -/

/-- The tensors of a group have storage of their own. -/
def PipelineGroup.Own (m : Memory) (g : PipelineGroup TensorId) : Prop :=
  ∀ side, ∀ x ∈ g.tensors side, x < m.tensors.size ∧ ∃ length, m.home x = .own length

/-- The tensors of a group keep their own storage. -/
theorem PipelineGroup.Own.extends {m n : Memory} {g : PipelineGroup TensorId} (h : g.Own m)
    (hmn : m.Extends n) : g.Own n := fun side x hx => by
  obtain ⟨hlive, length, hhome⟩ := h side x hx
  exact ⟨Nat.lt_of_lt_of_le hlive hmn.tensors, length, (hmn.home x hlive).trans hhome⟩

namespace ExecM

variable {P : List Tensor → Prop} {s t : ExecState} {id : ArtifactId} {a : Artifact}
  {g : PipelineGroup TensorId}

/-- A group that has been lent has it. -/
theorem Acquired.own {p : Pipeline TensorId} (h : Acquired s id a g p t) : g.Own t.memory := by
  intro side x hx
  rw [h.tensors_eq] at hx
  obtain ⟨row, hrow, hx⟩ := List.mem_filterMap.1 hx
  obtain ⟨position, hposition⟩ := List.getElem?_of_mem hrow
  obtain ⟨spec, -, hlive, -, hhome⟩ :=
    h.fits.tensors side position row x hposition (List.mem_of_getElem? hx)
  exact ⟨hlive, _, hhome⟩

/-- **Lending a group** touches nothing of the host, even if its tensors are made first. -/
theorem spares_acquireGroup (h : s.AtHome) (id : ArtifactId) :
    Ends (acquireGroup id s) (fun g t => s.Spares t ∧ g.Own t.memory) fun _ t => s.Spares t := by
  refine ((ends_acquireGroup_of (R := ExecState.AtHome) id
      (fun a p ha hp => (h id a ha).pipeline p hp) (fun t ht _ => h.of_later ht.later ht.cache)
      (fun a p q u ha _ _ hfits hlater hcache _ => h.withPipeline hlater ha hcache hfits)
      (fun a p q _ u ha _ _ hfits hlater hcache _ => h.withPipeline hlater ha hcache hfits)).and
    (keeps_acquireGroup (T := ExecState.Later) id s)).mono (fun g t ht => ?_) fun _ t ht => ?_
  · obtain ⟨⟨hhome, a, p, -, hacquired⟩, hlater⟩ := ht
    refine ⟨⟨hhome, hlater, hacquired.outputs, fun storage _ => ?_⟩, hacquired.own⟩
    unfold Memory.storage
    rw [hacquired.storages]
  · obtain ⟨⟨hhome, -, houtputs, hstorages⟩, hlater⟩ := ht
    refine ⟨hhome, hlater, houtputs, fun storage _ => ?_⟩
    unfold Memory.storage
    rw [hstorages]

/-- Nor does giving it back. -/
theorem spares_returnGroup (h : s.AtHome) (id : ArtifactId) (index : Nat) :
    Ends (returnGroup id index s) (fun _ t => s.Spares t) fun _ t => s.Spares t := by
  refine (returned_returnGroup id index).mono (fun _ t ht => ?_) fun _ t ht => ?_
  · obtain ⟨a, p, q, ha, hp, hq, rfl⟩ := ht
    have hlater : s.Later { s with executor.cache := s.cache.update id (a.withPipeline q) } :=
      { ExecState.Later.refl s with }
    exact ⟨h.withPipeline hlater ha rfl (((h id a ha).pipeline p hp).returned hq), hlater, rfl,
      fun _ _ => rfl⟩
  · obtain ⟨rfl, -⟩ := ht
    exact .refl h

/-- Its tensors are written to, not the host. -/
theorem spares_feedInput (h : s.AtHome) (hg : g.Own s.memory) (position : Nat)
    (host : HostBuffer) :
    Ends (feedInput g position host s) (fun _ t => s.Spares t) fun _ t => s.Spares t := by
  unfold feedInput
  rw [ends_bind, ends_executor]
  split
  · exact .refl h
  · cases hx : g.inputs[position]? with
    | none => exact .refl h
    | some x =>
      dsimp only
      rw [ends_bind]
      refine (ends_markStale x).mono (fun _ t ht => ?_) fun _ _ ht => ht.elim
      have hspares : s.Spares t := ht.spares h rfl
      obtain ⟨-, length, hhome⟩ :=
        hg.extends ht.later.platform.memory .input x (List.mem_of_getElem? hx)
      rw [ends_bind]
      refine (spares_writeInput hspares.home position host fun storage hhost => ?_).mono
        (fun _ u hu => hspares.trans hu) fun _ u hu => hspares.trans hu
      rw [hhome] at hhost
      cases hhost

theorem spares_feedInputs (h : s.AtHome) (hg : g.Own s.memory) (inputs : List HostBuffer) :
    Ends (inputs.zipIdx.mapM (fun b => feedInput g b.2 b.1) s) (fun _ t => s.Spares t)
      fun _ t => s.Spares t :=
  ends_mapM (I := fun _ _ t => s.Spares t) (fun _ b _ _ _ _ ht =>
    (spares_feedInput ht.home (hg.extends ht.later.platform.memory) b.2 b.1).mono
      (fun _ _ hu => ht.trans hu) fun _ _ hu => ht.trans hu) (.refl h)

/-- Its tensors for results are tied to no buffer. -/
theorem spares_offerOutputs (h : s.AtHome) (hg : g.Own s.memory) (buffers : List HostBuffer) :
    Ends (g.outputs.zipIdx.mapM (fun b => offerOutput b.2 b.1) s)
      (fun outs t => s.Spares t ∧ Tethered t buffers outs) fun _ _ => False := by
  refine (ends_offerOutputs g).mono (fun outs t ht => ?_) fun _ _ h => h
  obtain ⟨hlength, honly, hstorages, -, houts⟩ := ht
  have hat : ∀ (p : Nat) (x : TensorId), outs[p]? = some (some x) →
      s.executor.unit.externalOutputs.contains p = false ∧ x ∈ g.outputs := fun p x hx => by
    have hlt : p < g.outputs.length := hlength ▸ (List.getElem?_eq_some_iff.1 hx).1
    have hp := houts p _ (List.getElem?_eq_getElem hlt)
    rw [hx] at hp
    split at hp
    · cases hp
    · rename_i hinside
      obtain rfl := Option.some.inj (Option.some.inj hp)
      exact ⟨Bool.eq_false_of_not_eq_true hinside, List.getElem_mem hlt⟩
  have hown : ∀ (p : Nat) (x : TensorId), outs[p]? = some (some x) →
      x < t.memory.tensors.size ∧ ∃ length, t.memory.home x = .own length := fun p x hx =>
    hg.extends honly.later.platform.memory .output x (hat p x hx).2
  refine ⟨honly.spares h hstorages, fun p x hx => ?_, fun p x hx => (hown p x hx).1,
    fun p x storage hx hhost => ?_⟩
  · rw [honly.later.unit]
    exact (hat p x hx).1
  · obtain ⟨-, length, hhome⟩ := hown p x hx
    rw [hhome] at hhost
    cases hhost

/-! ### Looking up -/

/-- Nothing that a look-up does touches the host. -/
theorem Found.spares {computed : Signature.Computed} {l : Lookup}
    (ht : Found s computed l a t) (h : s.AtHome) : s.Spares t :=
  ⟨ht.atHome h, ht.later, ht.outputs, fun _ _ => by rw [ht.memory]⟩

/-- So it is when the look-up fails. -/
theorem spares_getExecutable (hcompiled : Compiled P s) (h : s.AtHome) (inputs : List HostBuffer) :
    Ends (getExecutable inputs s) (fun _ t => s.Spares t) fun _ t => s.Spares t := by
  refine (ends_getExecutable hcompiled inputs).mono (fun l t ht => ?_) fun _ t ht => ?_
  · obtain ⟨computed, a, -, hfound⟩ := ht
    exact hfound.spares h
  · exact (ExecState.OnlyMemory.of_untouched ht.1).spares h rfl

end ExecM

end TensorJit
