import TensorJit.Proofs.Executor.Homes

/-!
# What a call changes on the host

While the tensors of an executor are at home, a call changes no storage of the host but those of its
output buffers, and of these none whose position is bound elsewhere. The tracker is told of them
when everything else is done, so **a call that fails does not get as far as telling it**. Which
error it is says whether any of them may have changed (`Error.changesOutputs`):

| | what may have changed |
|---|---|
| in the call, where tensors are in host buffers | the output buffers |
| in reading, where they are not | the output buffers |
| anywhere else | nothing |
-/

namespace TensorJit

open ExecState (OnlyMemory Touches)

/-- Whether an output buffer may have changed when a call fails in a stage. -/
def Stage.changesOutputs (stage : Stage) (κ : BackendKind) : Bool :=
  match stage with
  | .calling => κ.isHostBound
  | .reading => !κ.isHostBound
  | .missing | .feeding | .offering => false

/-- Whether an output buffer may have changed when a call fails with an error. -/
def Error.changesOutputs (e : Error) (κ : BackendKind) : Bool := e.stage?.any (·.changesOutputs κ)

theorem Error.changesOutputs_of_stage {e : Error} {stage : Stage} (h : e.stage? = some stage)
    (κ : BackendKind) : e.changesOutputs κ = stage.changesOutputs κ := by
  unfold changesOutputs
  rw [h, Option.any_some]

namespace ExecState

variable {s t u : ExecState} {e : Error}

/-- The storage receives a result of a call. -/
def Receives (s : ExecState) (storage : StorageId) : Prop :=
  s.outputs.Receives s.executor.unit storage

/-- An error may have left a changed result in the storage. -/
def Leaves (s : ExecState) (e : Error) (storage : StorageId) : Prop :=
  e.changesOutputs s.kind = true ∧ s.Receives storage

/-- The results are those of the same buffers. -/
theorem Touches.receives_eq {S : StorageId → Prop} (h : s.Touches S t) :
    t.Receives = s.Receives := by
  unfold Receives
  rw [h.outputs, h.later.unit]

theorem Touches.leaves_eq {S : StorageId → Prop} (h : s.Touches S t) :
    t.Leaves e = s.Leaves e := by
  unfold Leaves
  rw [h.receives_eq, h.later.kind_eq]

theorem Touches.leaves (h : s.Touches s.Receives t) (he : e.changesOutputs s.kind = true) :
    s.Touches (s.Leaves e) t := h.mono fun _ hstorage => ⟨he, hstorage⟩

end ExecState

namespace ExecM

variable {P : List Tensor → Prop} {s t : ExecState} {outs : List (Option TensorId)}

/-! ### Calling and reading -/

/-- **A call** changes the storages of results where tensors are in host buffers, and no others. -/
theorem touches_callExecutable (h : s.AtHome) (ht : Tethered s s.outputs.buffers outs)
    (x : Executable) (ins : List (Option TensorId)) :
    Ends (callExecutable x outs ins s) (fun _ t => s.Touches s.Receives t)
      fun e t => s.Touches (s.Leaves e) t := by
  have hcalled : Ends (callExecutable x outs ins s) (fun _ _ => True)
      fun e _ => e.stage? = some .calling := by
    unfold callExecutable
    rw [ends_bind, ends_executor, ends_onBackend]
    exact (ends_trivial _).mono (fun _ _ _ => trivial) fun _ _ _ => rfl
  refine ((called_callExecutable x outs ins).and hcalled).mono (fun _ t hcall => ?_)
    fun e t hcall => ?_
  · refine hcall.1.only.touches h fun storage hnot => ?_
    refine hcall.1.rewritten.storages storage fun id hid hhome => ?_
    exact hnot (ht.receives hid hhome).2
  · obtain ⟨hcall, hstage⟩ := hcall
    refine hcall.only.touches h fun storage hnot => ?_
    refine hcall.rewritten.storages storage fun id hid hhome => ?_
    obtain ⟨hbound, hreceives⟩ := ht.receives hid hhome
    exact hnot ⟨(Error.changesOutputs_of_stage hstage _).trans hbound, hreceives⟩

theorem touches_readOutput {S : StorageId → Prop} (h : s.AtHome) (position : Nat)
    (tensor : TensorId) {host : HostBuffer} (hS : S host.storage) :
    Ends (readOutput position tensor host s) (fun _ t => s.Touches S t)
      fun e t => e.stage? = some .reading ∧ s.Touches S t := by
  unfold readOutput
  rw [ends_bind, ends_platform, ends_bind, ends_onBackend]
  have hread : ∀ d : Device, s.device.Later d → d.memory = s.memory →
      s.Touches S (s.withDevice d) := fun d hlater hmemory =>
    (ExecState.onlyMemory_withDevice hlater).touches h fun storage _ => by rw [hmemory]
  refine ((Backend.memory_read _ _ _ s.device).and (Backend.keeps_read _ _ _ s.device)).mono
    (fun bytes d hd => ?_) fun e d hd => ⟨rfl, hread d hd.2.toLater hd.1⟩
  rw [ends_changePlatform]
  have ht := hread d hd.2.toLater hd.1
  refine ht.trans (.of_cache_eq ht.home
    { ExecState.Later.refl _ with platform := (Platform.calm_setBytes _ _ _).toLater } rfl rfl
    fun storage hnot => ?_)
  exact Memory.storage_setStorage_of_ne _ _ fun heq => hnot (heq ▸ hS)

/-- **Reading the results** changes the storages of results, and no others. -/
theorem touches_readOutputs (h : s.AtHome) (ht : Tethered s s.outputs.buffers outs)
    (hown : s.kind.isHostBound = false) :
    Ends (readOutputs outs s) (fun _ t => s.Touches s.Receives t)
      fun e t => e.changesOutputs s.kind = true ∧ s.Touches s.Receives t := by
  have hreading : ∀ e : Error, e.stage? = some .reading → e.changesOutputs s.kind = true :=
    fun e he => by
      rw [Error.changesOutputs_of_stage he, Stage.changesOutputs, hown]
      rfl
  unfold readOutputs
  rw [ends_bind, ends_get]
  refine ends_forM_zipIdx (I := fun _ t => s.Touches s.Receives t)
    (fun position b t hb hst => ?_) (.refl h)
  obtain ⟨tensor, host⟩ := b
  obtain ⟨htensor, hhost⟩ := List.getElem?_zip_eq_some.1 hb
  cases tensor with
  | none => exact hst
  | some tensor =>
    have hreceives : s.Receives host.storage :=
      ⟨position, host, hhost, ht.inside position tensor htensor, rfl⟩
    exact (touches_readOutput hst.home position tensor hreceives).mono
      (fun _ _ hu => hst.trans hu) fun e _ hu => ⟨hreading e hu.1, hst.trans hu.2⟩

/-- Reading the results after a call has changed nothing else. -/
theorem touches_readCalled (hcall : s.Touches s.Receives t)
    (ht : Tethered s s.outputs.buffers outs) (hown : s.kind.isHostBound = false) :
    Ends (readOutputs outs t) (fun _ u => s.Touches s.Receives u)
      fun e u => s.Touches (s.Leaves e) u := by
  have ht' : Tethered t t.outputs.buffers outs := by
    rw [hcall.outputs]
    exact ht.of_later hcall.later
  refine (touches_readOutputs hcall.home ht' (hcall.later.kind_eq ▸ hown)).mono
    (fun _ u hread => ?_) fun e u hread => ?_
  · rw [hcall.receives_eq] at hread
    exact hcall.trans hread
  · rw [hcall.receives_eq, hcall.later.kind_eq] at hread
    exact (hcall.trans hread.2).leaves hread.1

/-! ### Running -/

theorem touches_runOnSlots (h : s.AtHome) (found : Lookup) (inputs : List HostBuffer) :
    Ends (runOnSlots found inputs s) (fun _ t => s.Touches s.Receives t)
      fun e t => s.Touches (s.Leaves e) t := by
  unfold runOnSlots
  rw [ends_bind]
  refine (spares_allocateInputs h _ inputs).mono (fun ins t ht => ?_) fun _ _ ht => ht.touches
  rw [ends_bind, ends_get, ends_bind]
  refine (spares_allocateOutputs ht.home _ _).mono (fun outs u hu => ?_)
    fun _ _ hu => (ht.trans hu).touches
  obtain ⟨hu, htethered⟩ := hu
  rw [← hu.outputs] at htethered
  replace hu := ht.trans hu
  have hleaves : ∀ {e : Error} {v : ExecState}, u.Touches (u.Leaves e) v →
      s.Touches (s.Leaves e) v := fun hv => hu.append (hu.leaves_eq ▸ hv)
  rw [ends_bind]
  refine (touches_callExecutable hu.home htethered _ _).mono (fun _ v hv => ?_)
    fun _ _ hv => hleaves hv
  rw [ends_bind, ends_kind, hv.later.kind_eq]
  split
  · rename_i hown
    rw [ends_bind]
    refine (touches_readCalled hv htethered (Bool.not_eq_true' _ ▸ hown)).mono
      (fun _ z hz => ?_) fun _ _ hz => hleaves hz
    exact hu.append (hu.receives_eq ▸ hz)
  · exact hu.append (hu.receives_eq ▸ hv)

theorem touches_runOnGroup {g : PipelineGroup TensorId} (h : s.AtHome) (hg : g.Own s.memory)
    (hown : s.kind.isHostBound = false) (found : Lookup) (inputs : List HostBuffer) :
    Ends (runOnGroup found g inputs s) (fun _ t => s.Touches s.Receives t)
      fun e t => s.Touches (s.Leaves e) t := by
  unfold runOnGroup
  rw [ends_bind]
  refine (spares_feedInputs h hg inputs).mono (fun services t ht => ?_) fun _ _ ht => ht.touches
  dsimp only
  rw [ends_bind]
  refine (spares_offerOutputs ht.home (hg.extends ht.later.platform.memory)
    t.outputs.buffers).mono (fun outs u hu => ?_) fun _ _ h => h.elim
  obtain ⟨hu, htethered⟩ := hu
  rw [← hu.outputs] at htethered
  replace hu := ht.trans hu
  have hleaves : ∀ {e : Error} {v : ExecState}, u.Touches (u.Leaves e) v →
      s.Touches (s.Leaves e) v := fun hv => hu.append (hu.leaves_eq ▸ hv)
  rw [ends_bind]
  refine (touches_callExecutable hu.home htethered _ _).mono (fun _ v hv => ?_)
    fun _ _ hv => hleaves hv
  rw [ends_bind]
  refine (touches_readCalled hv htethered (hu.later.kind_eq ▸ hown)).mono (fun _ z hz => ?_)
    fun _ _ hz => hleaves hz
  rw [ends_bind, ends_count, ends_pure]
  replace hz : s.Touches s.Receives z := hu.append (hu.receives_eq ▸ hz)
  exact hz.counted _

/-- The group is given back whatever has happened, so **the error of the run comes out**. -/
theorem touches_runPipelined {depth : Nat} (h : s.AtHome) (hpipelined : s.kind.isPipelined = true)
    (hcoherent : s.cache.Coherent depth) (hdepth : s.executor.config.pipelineDepth = depth)
    (found : Lookup) (inputs : List HostBuffer) :
    Ends (runPipelined found inputs s) (fun _ t => s.Touches s.Receives t)
      fun e t => s.Touches (s.Leaves e) t := by
  have hown : s.kind.isHostBound = false := by
    rw [show s.kind = .recording .pipelined from of_decide_eq_true hpipelined]
    rfl
  unfold runPipelined
  rw [ends_bind]
  refine ((ends_acquireGroup_lent found.artifact hcoherent hdepth).and
    (spares_acquireGroup h found.artifact)).mono (fun g t ht => ?_) fun _ _ ht => ht.2.touches
  obtain ⟨hlends, ht, hg⟩ := ht
  have hback : ∀ u, u.AtHome → t.SameCache u → Ends (returnGroup found.artifact g.index u)
      (fun _ v => u.Spares v) fun _ _ => False := fun u hu hsame =>
    ((hlends.ends_returnGroup hsame).and (spares_returnGroup hu _ _)).mono
      (fun _ _ hv => hv.2) fun _ _ hv => hv.1
  rw [ends_bind, ends_observe]
  refine ((touches_runOnGroup ht.home hg (ht.later.kind_eq ▸ hown) found inputs).and
    (keeps_runOnGroup (T := ExecState.SameCache) found g inputs t)).mono
    (fun report u hu => ?_) fun e u hu => ?_
  · have hall : s.Touches s.Receives u := ht.append (ht.receives_eq ▸ hu.1)
    rw [ends_bind]
    exact (hback u hall.home hu.2).mono (fun _ v hv => hall.trans hv.touches) fun _ _ h => h.elim
  · have hall : s.Touches (s.Leaves e) u := ht.append (ht.leaves_eq ▸ hu.1)
    rw [ends_bind]
    exact (hback u hall.home hu.2).mono (fun _ v hv => hall.trans hv.touches) fun _ _ h => h.elim

end ExecM

/-! ### Requests -/

namespace ExecState

variable {s t u : ExecState} {e : Error}

/-- A storage of the host that there was has other bytes. -/
def Changes (s t : ExecState) (storage : StorageId) : Prop :=
  storage < s.memory.storages.size ∧ t.memory.storage storage ≠ s.memory.storage storage

/-- Everything that has changed has received a result, and nobody vouches for copies of it. -/
structure Announces (s t : ExecState) : Prop where
  /-- The tensors are at home. -/
  home : t.AtHome
  /-- What has changed has received a result. -/
  receives : ∀ storage, s.Changes t storage → t.Receives storage
  /-- Copies of it are not vouched for. -/
  stale : ∀ storage, s.Changes t storage → ∀ id,
    t.platform.isFresh t.executor.tracker storage id = false

/-- Everything that has changed has received a result, and the error says that it may have. -/
structure Withholds (s : ExecState) (e : Error) (t : ExecState) : Prop where
  /-- The tensors are at home. -/
  home : t.AtHome
  /-- What has changed may have been left by the error. -/
  leaves : ∀ storage, s.Changes t storage → t.Leaves e storage

/-- What touches only some storages changes no others. -/
theorem Touches.of_changes {S : StorageId → Prop} (h : s.Touches S t) {storage : StorageId}
    (hchanges : s.Changes t storage) : S storage := by
  by_contra hnot
  exact hchanges.2 (h.storages storage hnot)

theorem Spares.announces (h : s.Spares t) : s.Announces t :=
  ⟨h.home, fun _ hchanges => (h.of_changes hchanges).elim,
    fun _ hchanges => (h.of_changes hchanges).elim⟩

theorem Spares.withholds (h : s.Spares t) : s.Withholds e t :=
  ⟨h.home, fun _ hchanges => (h.of_changes hchanges).elim⟩

/-- What has changed between two states has changed since every state in which the storages were as
before. -/
theorem Changes.since {storage : StorageId} (h : s.Changes u storage)
    (hsize : s.memory.storages.size ≤ t.memory.storages.size)
    (hsame : ∀ j, j < s.memory.storages.size → t.memory.storage j = s.memory.storage j) :
    t.Changes u storage :=
  ⟨Nat.lt_of_lt_of_le h.1 hsize, by rw [hsame storage h.1]; exact h.2⟩

theorem Spares.changes (h : s.Spares t) {storage : StorageId} (hchanges : s.Changes u storage) :
    t.Changes u storage :=
  hchanges.since h.later.platform.memory.storages fun j _ => h.storages j not_false

theorem Announces.prepend (h : s.Spares t) (h' : t.Announces u) : s.Announces u :=
  ⟨h'.home, fun storage hchanges => h'.receives storage (h.changes hchanges),
    fun storage hchanges => h'.stale storage (h.changes hchanges)⟩

theorem Withholds.prepend (h : s.Spares t) (h' : t.Withholds e u) : s.Withholds e u :=
  ⟨h'.home, fun storage hchanges => h'.leaves storage (h.changes hchanges)⟩

theorem changes_prepared (specs : List TensorSpec) {storage : StorageId}
    (h : s.Changes u storage) : (s.prepared specs).Changes u storage :=
  h.since (s.refitted_prepared specs).size (s.refitted_prepared specs).storages

end ExecState

namespace ExecM

variable {s : ExecState}

/-- **What follows when the executable has been found.** -/
theorem changes_runFound {depth : Nat} (h : s.AtHome) (hcoherent : s.cache.Coherent depth)
    (hdepth : s.executor.config.pipelineDepth = depth) (found : Lookup)
    (inputs : List HostBuffer) :
    Ends (runFound found inputs s) (fun _ t => s.Announces t) fun e t => s.Withholds e t := by
  obtain ⟨p, hp⟩ : ∃ p, p = s.prepared found.executable.function.results := ⟨_, rfl⟩
  have hlater : s.Later p := hp ▸ s.later_prepared _
  have hchanges : ∀ {u : ExecState} {storage : StorageId}, s.Changes u storage →
      p.Changes u storage := fun hu => hp ▸ ExecState.changes_prepared _ hu
  have hhome : p.AtHome := h.of_later hlater (by rw [hp]; rfl)
  have herror : ∀ (e : Error) (t : ExecState), p.Touches (p.Leaves e) t → s.Withholds e t :=
    fun e t ht => ⟨ht.home, fun storage hchanged => by
      rw [ht.leaves_eq]
      exact ht.of_changes (hchanges hchanged)⟩
  -- What the outputs have received is announced when they are invalidated.
  have hend : ∀ (report : Report) (t : ExecState), p.Touches p.Receives t → Ends ((do
      invalidateOutputs
      count fun c => { c with executions := c.executions + 1 }
      return report) t) (fun _ u => s.Announces u) fun _ _ => False := by
    intro report t ht
    rw [ends_bind]
    refine ends_invalidateOutputs.mono (fun _ u hu => ?_) fun _ _ hu => hu
    obtain ⟨hlater', hcache, houtputs, hmemory, -, hfresh⟩ := hu
    rw [ends_bind, ends_count, ends_pure]
    have htu : p.Touches p.Receives u :=
      ht.trans (.of_cache_eq ht.home hlater' hcache houtputs fun _ _ => by rw [hmemory])
    refine ⟨(htu.counted _).home, fun storage hchanged => ?_, fun storage hchanged id => ?_⟩
    · rw [(htu.counted _).receives_eq]
      exact htu.of_changes (hchanges hchanged)
    · have hreceives : p.Receives storage := htu.of_changes (hchanges hchanged)
      rw [← ht.receives_eq] at hreceives
      obtain ⟨position, b, hb, hinside, hstorage⟩ := hreceives
      rw [Bool.eq_false_iff]
      intro htrue
      rw [show ExecState.executor { u with executor.stats := _ } = _ from rfl] at htrue
      exact ((hfresh storage id).1 (hlater'.tracker ▸ htrue)).2 position b hb hinside hstorage
  unfold runFound
  dsimp only
  split
  · rw [ends_bind, ends_fail]
    exact ExecState.Spares.withholds (.refl h)
  · rw [ends_bind, ends_prepareOutputs, ← hp, ends_bind, ends_kind]
    split
    · rename_i hpipelined
      rw [ends_bind]
      exact (touches_runPipelined hhome hpipelined (by rw [hp]; exact hcoherent)
        (by rw [hlater.config]; exact hdepth) found inputs).mono
        (fun report t ht => (hend report t ht).mono (fun _ _ hu => hu) fun _ _ hu => hu.elim) herror
    · rw [ends_bind]
      exact (touches_runOnSlots hhome found inputs).mono
        (fun report t ht => (hend report t ht).mono (fun _ _ hu => hu) fun _ _ hu => hu.elim) herror

end ExecM

end TensorJit
