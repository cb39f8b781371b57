import TensorJit.Proofs.Executor.Elision
import TensorJit.Proofs.Twins

/-!
# Executors that ask nobody

An executor that asks nobody whether a copy is current copies every input every time. Next to one
that asks a tracker it does more, and counts more, but **nothing that it does is seen by the host**:
if only copies that are current are left out, the two calls end alike, with the same error or with
the same bytes in the same output buffers (`ExecM.abreast_execute`).

The two are twins (`ExecState.Twin`): they may differ in what has been counted, in what registries
vouch for, in profiles and logs, and in flags of tensors. Every step of a call but one respects this.
Where a copy is left out on one side it is made on the other, and there it writes bytes where they
already are (`ends_rewriteInput`).
-/

namespace TensorJit

open ExecState (Sound)

/-- Two platforms differ in counters, registries, profiles and logs at most, and in flags of
tensors. -/
structure Platform.Twin (p q : Platform) : Prop where
  /-- There are as many backends. -/
  size : q.backends.size = p.backends.size
  /-- They differ in nothing but their counters. -/
  backend : ∀ id, q.backend id = { p.backend id with counters := (q.backend id).counters }
  /-- The memories are alike. -/
  memory : p.memory.Alike q.memory
  /-- The same backends are registered. -/
  registered : q.registered = p.registered
  /-- The next artifact gets the same identity. -/
  nextArtifact : q.nextArtifact = p.nextArtifact
  /-- The files are equal. -/
  files : q.files = p.files

/-- The second executor asks nobody whether a copy is current. In everything else but what they have
counted, the two are equal. -/
def Executor.Twin (e f : Executor) : Prop := f = { e with tracker := .never, stats := f.stats }

/-- Two executors that are twins work on the same output buffers, on platforms that are. -/
structure ExecState.Twin (s s' : ExecState) : Prop where
  /-- The executors are twins. -/
  executor : s.executor.Twin s'.executor
  /-- The output buffers are equal. -/
  outputs : s'.outputs = s.outputs
  /-- The platforms are twins. -/
  platform : s.platform.Twin s'.platform

/-- The host sees the same in both states: the same output buffers, and the same bytes in every
storage. -/
structure ExecState.SameHost (s t : ExecState) : Prop where
  /-- The output buffers are equal. -/
  outputs : t.outputs = s.outputs
  /-- The storages hold the same. -/
  storage : ∀ j, t.memory.storage j = s.memory.storage j

/-- Two reports differ in the copies only. -/
def Report.SameButCopies (r r' : Report) : Prop :=
  r' = { r with inputCopies := r'.inputCopies, bytesCopied := r'.bytesCopied }

/-- The executor, asking nobody whether a copy is current. -/
def ExecState.neverFresh (s : ExecState) : ExecState :=
  { s with executor := { s.executor with tracker := .never } }

namespace Executor.Twin

variable {e f : Executor}

theorem withCache (h : e.Twin f) (c : Cache) :
    ({ e with cache := c } : Executor).Twin { f with cache := c } := by
  unfold Twin at h ⊢
  rw [h]

/-- Whatever is counted on either side. -/
theorem withStats (h : e.Twin f) (stats stats' : Stats) :
    ({ e with stats } : Executor).Twin { f with stats := stats' } := by
  unfold Twin at h ⊢
  rw [h]

end Executor.Twin

namespace Platform.Twin

variable {p q : Platform}

theorem refl (p : Platform) : p.Twin p := ⟨rfl, fun _ => rfl, .refl p.memory, rfl, rfl, rfl⟩

theorem device (h : p.Twin q) (id : BackendId) : (p.device id).Twin (q.device id) :=
  ⟨h.backend id, h.memory⟩

/-- A step of the backend on each side. -/
theorem withDevice (h : p.Twin q) {d e : Device} (hd : d.Twin e) (id : BackendId) :
    (p.withDevice id d).Twin (q.withDevice id e) where
  size := by
    unfold Platform.withDevice
    rw [Array.size_setIfInBounds, Array.size_setIfInBounds, h.size]
  backend j := by
    rw [backend_withDevice, backend_withDevice, h.size]
    split
    · exact hd.backend
    · exact h.backend j
  memory := hd.memory
  registered := h.registered
  nextArtifact := h.nextArtifact
  files := h.files

/-- The same comes of a step of the backend, and the platforms stay twins. -/
theorem runBackend {α : Type} {step : BackendM α} (h : p.Twin q)
    (hstep : Respects Device.Twin step) (id : BackendId) :
    (q.runBackend id step).1 = (p.runBackend id step).1 ∧
      (p.runBackend id step).2.Twin (q.runBackend id step).2 := by
  have hends := hstep _ _ (h.device id)
  rw [runBackend_eq, runBackend_eq]
  cases hp : step (p.device id) with
  | ok a d =>
    obtain ⟨b, e, hq, rfl, hd⟩ := hends.exists_ok hp
    rw [hq]
    exact ⟨rfl, h.withDevice hd id⟩
  | error error d =>
    obtain ⟨e, hq, hd⟩ := hends.exists_error hp
    rw [hq]
    exact ⟨rfl, h.withDevice hd id⟩

/-- Something happens to memory on each side. -/
theorem withMemory (h : p.Twin q) {m n : Memory} (hm : m.Alike n) :
    ({ p with memory := m } : Platform).Twin { q with memory := n } :=
  ⟨h.size, h.backend, hm, h.registered, h.nextArtifact, h.files⟩

/-- Registries do not matter. -/
theorem withRegistries (h : p.Twin q) (registries registries' : Array FreshnessRegistry) :
    ({ p with registries } : Platform).Twin { q with registries := registries' } :=
  ⟨h.size, h.backend, h.memory, h.registered, h.nextArtifact, h.files⟩

/-- What trackers are told does not matter. -/
theorem tell (h : p.Twin q) (t t' : Tracker) (change change' : FreshnessRegistry → FreshnessRegistry) :
    (p.tell t change).Twin (q.tell t' change') := h.withRegistries _ _

/-- What is counted in the profile does not matter. -/
theorem withProfile (h : p.Twin q) (profile profile' : Profile) :
    ({ p with profile } : Platform).Twin { q with profile := profile' } :=
  ⟨h.size, h.backend, h.memory, h.registered, h.nextArtifact, h.files⟩

theorem cacheEvent (h : p.Twin q) (name : String) : (p.cacheEvent name).Twin (q.cacheEvent name) :=
  h.withProfile _ _

theorem compileStep (h : p.Twin q) (name : String) :
    (p.compileStep name).Twin (q.compileStep name) := h.withProfile _ _

/-- Nor does what is logged. -/
theorem note (h : p.Twin q) (entry entry' : LogEntry) : (p.note entry).Twin (q.note entry') :=
  ⟨h.size, h.backend, h.memory, h.registered, h.nextArtifact, h.files⟩

/-- The same function is dumped. -/
theorem dump (h : p.Twin q) (path : FilePath) (f : Function) :
    (q.dump path f).1 = (p.dump path f).1 ∧ (p.dump path f).2.Twin (q.dump path f).2 := by
  unfold Platform.dump
  rw [h.files]
  cases p.files.dump path f with
  | mk written files =>
    have hfiles : ({ p with files } : Platform).Twin { q with files } :=
      ⟨h.size, h.backend, h.memory, h.registered, h.nextArtifact, rfl⟩
    cases written with
    | true => exact ⟨rfl, hfiles.note _ _⟩
    | false => exact ⟨rfl, hfiles.note _ _⟩

end Platform.Twin

namespace ExecState.Twin

variable {s s' : ExecState}

theorem unit (h : s.Twin s') : s'.executor.unit = s.executor.unit := by rw [h.executor]

theorem backend (h : s.Twin s') : s'.executor.backend = s.executor.backend := by rw [h.executor]

/-- The second side asks nobody. -/
theorem tracker (h : s.Twin s') : s'.executor.tracker = .never := by rw [h.executor]

/-- Both sides have the same artifacts, with tensors of the same identities. -/
theorem cache (h : s.Twin s') : s'.cache = s.cache := by
  unfold ExecState.cache
  rw [h.executor]

theorem memory (h : s.Twin s') : s.memory.Alike s'.memory := h.platform.memory

theorem device (h : s.Twin s') : s.device.Twin s'.device := by
  unfold ExecState.device
  rw [h.backend]
  exact h.platform.device _

theorem kind (h : s.Twin s') : s'.kind = s.kind := h.device.kind

/-- **What can be seen of the host is the same.** -/
theorem sameHost (h : s.Twin s') : s.SameHost s' := ⟨h.outputs, h.memory.storage⟩

/-- Something happens to the platform on each side. -/
theorem withPlatform (h : s.Twin s') {p q : Platform} (hp : p.Twin q) :
    ({ s with platform := p } : ExecState).Twin { s' with platform := q } :=
  ⟨h.executor, h.outputs, hp⟩

/-- Something happens to the cache on each side. -/
theorem withCache (h : s.Twin s') (c : Cache) :
    ({ s with executor.cache := c } : ExecState).Twin { s' with executor.cache := c } :=
  ⟨h.executor.withCache c, h.outputs, h.platform⟩

/-- A step of the backend on each side. -/
theorem withDevice (h : s.Twin s') {d e : Device} (hd : d.Twin e) :
    (s.withDevice d).Twin (s'.withDevice e) := by
  unfold ExecState.withDevice
  rw [h.backend]
  exact h.withPlatform (h.platform.withDevice hd _)

/-- Output buffers are made ready on both sides. -/
theorem prepared (h : s.Twin s') (specs : List TensorSpec) :
    (s.prepared specs).Twin (s'.prepared specs) := by
  obtain ⟨hbuffers, hmemory⟩ := OutputBuffers.refit_congr h.memory s.outputs.buffers specs
  have houtputs : (s'.prepared specs).outputs = (s.prepared specs).outputs := by
    change OutputBuffers.mk (OutputBuffers.refit s'.outputs.buffers specs s'.memory).1.1 =
      ⟨(OutputBuffers.refit s.outputs.buffers specs s.memory).1.1⟩
    rw [h.outputs, hbuffers]
  refine ⟨h.executor, houtputs, h.platform.withMemory ?_⟩
  change (OutputBuffers.refit s.outputs.buffers specs s.memory).2.Alike
    (OutputBuffers.refit s'.outputs.buffers specs s'.memory).2
  rwa [h.outputs]

end ExecState.Twin

/-- An executor and the one that asks nobody begin as twins. -/
theorem ExecState.twin_neverFresh (s : ExecState) : s.Twin s.neverFresh := ⟨rfl, rfl, .refl _⟩

namespace ExecM

open ExecState (Twin)

variable {α β : Type} {s s' : ExecState}

/-! ### The steps of an executor -/

/-- Each side asks for its own executor. -/
theorem abreast_executor_bind {f : Executor → ExecM α} {g : Executor → ExecM β}
    {Q : α → ExecState → β → ExecState → Prop} {E : ExecState → ExecState → Prop} :
    Abreast ((executor >>= f) s) ((executor >>= g) s') Q E ↔
      Abreast (f s.executor s) (g s'.executor s') Q E := Iff.rfl

theorem abreast_platform_bind {f : Platform → ExecM α} {g : Platform → ExecM β}
    {Q : α → ExecState → β → ExecState → Prop} {E : ExecState → ExecState → Prop} :
    Abreast ((platform >>= f) s) ((platform >>= g) s') Q E ↔
      Abreast (f s.platform s) (g s'.platform s') Q E := Iff.rfl

theorem abreast_kind_bind {f : BackendKind → ExecM α} {g : BackendKind → ExecM β}
    {Q : α → ExecState → β → ExecState → Prop} {E : ExecState → ExecState → Prop} :
    Abreast ((kind >>= f) s) ((kind >>= g) s') Q E ↔
      Abreast (f s.kind s) (g s'.kind s') Q E := Iff.rfl

/-- What a step does with the executor must not depend on its tracker or its statistics. -/
theorem respects_executor_bind {f : Executor → ExecM α}
    (hf : ∀ (e : Executor) (stats : Stats), f { e with tracker := .never, stats } = f e)
    (h : ∀ e, Respects Twin (f e)) : Respects Twin (executor >>= f) := fun s s' hs => by
  rw [abreast_executor_bind, hs.executor, hf]
  exact h _ s s' hs

/-- What it does with the platform must be the same for twins. -/
theorem respects_platform_bind {f : Platform → ExecM α}
    (hf : ∀ p q : Platform, p.Twin q → f q = f p) (h : ∀ p, Respects Twin (f p)) :
    Respects Twin (platform >>= f) := fun s s' hs => by
  rw [abreast_platform_bind, hf _ _ hs.platform]
  exact h _ s s' hs

theorem respects_changePlatform {change : Platform → Platform}
    (h : ∀ p q : Platform, p.Twin q → (change p).Twin (change q)) :
    Respects Twin (changePlatform change) :=
  respects_modify fun _ _ hs => hs.withPlatform (h _ _ hs.platform)

/-- What trackers are told does not matter. -/
theorem abreast_tell (h : s.Twin s') (t t' : Tracker)
    (change change' : FreshnessRegistry → FreshnessRegistry) :
    Abreast (changePlatform (·.tell t change) s) (changePlatform (·.tell t' change') s')
      (fun _ t _ u => t.Twin u) Twin :=
  h.withPlatform (h.platform.tell t t' change change')

/-- What is counted does not matter. -/
theorem abreast_count (h : s.Twin s') (change change' : Stats → Stats) :
    Abreast (count change s) (count change' s') (fun _ t _ u => t.Twin u) Twin :=
  ⟨h.executor.withStats _ _, h.outputs, h.platform⟩

theorem respects_count (change : Stats → Stats) : Respects Twin (count change) :=
  respects_unit fun _ _ h => abreast_count h change change

theorem respects_fail (fault : InternalFault) : Respects Twin (fail fault : ExecM α) :=
  respects_executor_bind (fun _ _ => rfl) fun _ => respects_throw _

theorem respects_ofExcept (x : Except Error α) : Respects Twin (ofExcept x) := by
  cases x with
  | ok a => exact respects_pure a
  | error e => exact respects_throw e

/-- The same artifact is found, or is missing on both sides. -/
theorem respects_artifact (id : ArtifactId) : Respects Twin (artifact id) := by
  refine respects_executor_bind (fun _ _ => rfl) fun e => ?_
  cases e.cache.get? id with
  | some a => exact respects_pure a
  | none => exact respects_fail _

/-- It is replaced on both sides. -/
theorem respects_setArtifact (id : ArtifactId) (a : Artifact) :
    Respects Twin (setArtifact id a) := respects_modify fun s s' h => by
  have hupdate : s'.executor.cache.update id a = s.executor.cache.update id a := by
    rw [show s'.executor.cache = s.executor.cache from h.cache]
  rw [hupdate]
  exact h.withCache _

/-- **A step of the backend on each side** comes out abreast as the steps on the devices do. -/
theorem abreast_onBackend {x : BackendM α} {y : BackendM β} (fault : BackendError → InternalFault)
    {R : α → β → Prop} (h : s.Twin s')
    (hxy : Abreast (x s.device) (y s'.device) (fun a d b e => R a b ∧ d.Twin e) Device.Twin) :
    Abreast (onBackend fault x s) (onBackend fault y s') (fun a t b u => R a b ∧ t.Twin u) Twin := by
  unfold Abreast
  rw [ends_onBackend]
  refine Ends.mono hxy (fun a d hd => ?_) fun error d hd => ?_
  · rw [ends_onBackend]
    exact hd.mono (fun b e hbe => ⟨hbe.1, h.withDevice hbe.2⟩) fun _ _ => id
  · rw [ends_onBackend]
    refine hd.mono (fun _ _ => id) fun error' e hbe => ⟨?_, h.withDevice hbe.2⟩
    rw [h.unit, hbe.1]

/-- A step of the backend that is the same on twins is the same here. -/
theorem respects_onBackend {step : BackendM α} (fault : BackendError → InternalFault)
    (h : Respects Device.Twin step) : Respects Twin (onBackend fault step) := fun _ _ hs =>
  abreast_onBackend fault hs (h _ _ hs.device)

theorem respects_tryBackend {step : BackendM α} (h : Respects Device.Twin step) :
    Respects Twin (tryBackend step) := fun s s' hs => by
  obtain ⟨hresult, hplatform⟩ := hs.platform.runBackend h s.executor.backend
  unfold tryBackend
  rw [abreast_get_bind, hs.backend]
  exact ⟨hresult, hs.withPlatform hplatform⟩

/-! ### Finding an executable -/

/-- **The signature is the same**, since the inputs hold the same. -/
theorem respects_computeSignature (inputs : List HostBuffer) :
    Respects Twin (computeSignature inputs) := by
  refine respects_get_bind (fun s s' h => ?_) fun s => respects_ofExcept _
  have hread : s'.platform.memory.read = s.platform.memory.read := by
    funext b
    unfold Memory.read
    rw [h.memory.storage]
  rw [h.executor, hread]

/-- So is the function, which is read or made from the same things. -/
theorem respects_obtainFunction (computed : Signature.Computed) :
    Respects Twin (obtainFunction computed) := by
  refine respects_executor_bind (fun _ _ => rfl) fun e => ?_
  cases e.config.aot with
  | some table =>
    dsimp only
    cases table.function? computed.signature with
    | none => exact respects_throw _
    | some stored =>
      cases stored with
      | none => exact respects_throw _
      | some f => exact respects_pure f
  | none =>
    cases e.translator with
    | none => exact respects_throw _
    | some translate =>
      exact (respects_changePlatform fun _ _ h => h.compileStep _).bind fun _ =>
        (respects_ofExcept _).bind fun _ => respects_pure _

theorem respects_dump (path : FilePath) (f : Function) : Respects Twin (dump path f) :=
  fun _ _ h => ⟨(h.platform.dump path f).1, h.withPlatform (h.platform.dump path f).2⟩

theorem respects_serializedFor (signature : Signature) :
    Respects Twin (serializedFor signature) := by
  refine respects_executor_bind (fun _ _ => rfl) fun e => ?_
  cases e.config.aot with
  | none => exact respects_pure _
  | some table =>
    dsimp only
    cases table.executable? signature with
    | none => exact respects_throw _
    | some serialized => exact respects_pure _

/-- It is compiled or loaded on both sides, or the same error is reported. -/
theorem respects_compile (signature : Signature) (f : Function) :
    Respects Twin (compile signature f) := by
  refine respects_executor_bind (fun _ _ => rfl) fun e => ?_
  refine (respects_serializedFor signature).bind fun serialized =>
    (respects_changePlatform fun _ _ h => h.compileStep _).bind fun _ => ?_
  refine respects_platform_bind (fun p q h => ?_) fun p => (respects_ofExcept _).bind fun _ => ?_
  · unfold Platform.lock Platform.isRegistered
    rw [h.registered]
  refine (respects_tryBackend ?hbackend).bind fun result => ?_
  case hbackend =>
    cases serialized with
    | none => exact Backend.respects_compile f
    | some serialized => exact Backend.respects_load serialized
  cases result with
  | ok x => exact (respects_count _).bind fun _ => respects_pure x
  | error error =>
    -- The path has to be opaque, or elaboration tries to compute it.
    dsimp only
    generalize errorDumpPath e.config.dumpDirectory e.unit.name = path
    exact (respects_dump path f).bind fun _ =>
      (respects_changePlatform fun _ _ h => h.note _ _).bind fun _ => respects_throw _

/-- **The same artifact is evicted.** One side tells its tracker, and the other nobody. -/
theorem respects_evict : Respects Twin evict := by
  refine respects_unit fun s s' h => ?_
  unfold evict Cache.evictCounted
  rw [abreast_get_bind, show s'.executor.cache = s.executor.cache from h.cache]
  obtain ⟨evicted, c⟩ := s.executor.cache.evict
  cases evicted with
  | none => exact (h.withCache c).withPlatform (h.platform.withProfile _ _)
  | some a =>
    dsimp only
    rw [abreast_set_bind]
    have hset := (h.withCache c).withPlatform (h.platform.withProfile
      (s.platform.profile.cacheEvent "executable_cache_evict")
      (s'.platform.profile.cacheEvent "executable_cache_evict"))
    refine (((respects_tryBackend Backend.respects_release).map _).abreast hset).bind
      fun _ t _ u hu => ?_
    rw [abreast_platform_bind]
    refine (abreast_tell hu _ _ _ _).bind fun _ t _ u hu => ?_
    refine ((respects_count _).abreast hu).bind fun _ t _ u hu => ?_
    exact hu.withPlatform (hu.platform.note _ _)

/-- The artifact gets the same identity, and if one is evicted for it, then the same one. -/
theorem respects_keep (signature : Signature) (x : Executable) (f : Function) :
    Respects Twin (keep signature x f) := by
  have hrest : Respects Twin (do
      let id := (← platform).nextArtifact
      modify fun s => { s with
        executor.cache := s.executor.cache.insert (.new id signature x f)
        platform.nextArtifact := id + 1 }
      changePlatform (·.note (.compiled (← executor).cache.size f.graphSize))
      return id : ExecM ArtifactId) := by
    refine respects_platform_bind (fun p q h => by rw [h.nextArtifact]) fun p => ?_
    refine (respects_modify fun s s' h => ?_).bind fun _ => ?_
    · rw [show s'.executor.cache = s.executor.cache from h.cache]
      exact (h.withCache _).withPlatform ⟨h.platform.size, h.platform.backend, h.memory,
        h.platform.registered, rfl, h.platform.files⟩
    · exact respects_executor_bind (fun _ _ => rfl) fun e =>
        (respects_changePlatform fun _ _ h => h.note _ _).bind fun _ => respects_pure _
  refine respects_executor_bind (fun _ _ => rfl) fun e => ?_
  dsimp only
  split
  · exact respects_evict.bind fun _ => hrest
  · exact hrest

/-- A hit is a hit on both sides. -/
theorem respects_useCached (id : ArtifactId) (signature : Signature) :
    Respects Twin (useCached id signature) :=
  (respects_artifact id).bind fun _ => (respects_count _).bind fun _ =>
    (respects_changePlatform fun _ _ h => h.cacheEvent _).bind fun _ => respects_pure _

/-- So is a miss. -/
theorem respects_compileNew (computed : Signature.Computed) :
    Respects Twin (compileNew computed) := by
  refine (respects_count _).bind fun _ => ?_
  refine (respects_changePlatform fun _ _ h => h.cacheEvent _).bind fun _ => ?_
  refine (respects_obtainFunction computed).bind fun f => ?_
  have hrest : Respects Twin (do
      let executable ← compile computed.signature f
      let id ← keep computed.signature executable f
      return ⟨id, executable, computed.signature, false⟩ : ExecM Lookup) :=
    (respects_compile _ f).bind fun x => (respects_keep _ x f).bind fun _ => respects_pure _
  refine respects_executor_bind (fun _ _ => rfl) fun e => ?_
  dsimp only
  split
  · generalize dumpPath e.config.dumpDirectory e.unit.name = path
    exact ((respects_dump path f).map _).bind fun _ => hrest
  · exact hrest

/-- **The same executable is found** on both sides, or made. -/
theorem respects_getExecutable (inputs : List HostBuffer) :
    Respects Twin (getExecutable inputs) := by
  refine (respects_computeSignature inputs).bind fun computed s s' h => ?_
  rw [abreast_get_bind, show s'.executor.cache = s.executor.cache from h.cache]
  obtain ⟨found, c⟩ := s.executor.cache.lookup computed.signature
  dsimp only
  rw [abreast_set_bind]
  cases found with
  | some id => exact respects_useCached id _ _ _ (h.withCache c)
  | none => exact respects_compileNew computed _ _ (h.withCache c)

/-! ### Outputs -/

/-- An output is out of date in any case. -/
theorem respects_serveOutput (id : ArtifactId) (position : Nat) (host : HostBuffer) :
    Respects Twin (serveOutput id position host) := fun s s' h => by
  unfold serveOutput
  rw [abreast_executor_bind, h.unit]
  dsimp only
  split
  · exact abreast_pure ⟨rfl, h⟩
  · refine (respects_artifact id s s' h).bind fun a t b u hu => ?_
    obtain ⟨rfl, hu⟩ := hu
    rw [abreast_platform_bind, h.tracker]
    refine (abreast_onBackend _ hu (SlotTable.abreast_resolve hu.device _ _ _ _ _)).bind ?_
    rintro ⟨r, slots⟩ t ⟨_, _⟩ u ⟨heq, hu⟩
    cases heq
    exact ((respects_setArtifact id _).abreast hu).bind fun _ _ _ _ hu => abreast_pure ⟨rfl, hu⟩

/-- All outputs are served on both sides. -/
theorem respects_allocateOutputs (id : ArtifactId) (outputs : List HostBuffer) :
    Respects Twin (allocateOutputs id outputs) :=
  ((respects_artifact id).map _).bind fun _ =>
    (respects_mapM _ fun (host, position) => respects_serveOutput id position host).bind fun _ =>
      (respects_count _).bind fun _ => respects_pure _

/-- **The same function is called with the same tensors.** -/
theorem respects_callExecutable (x : Executable) (outputs inputs : List (Option TensorId)) :
    Respects Twin (callExecutable x outputs inputs) :=
  respects_executor_bind (fun _ _ => rfl) fun _ =>
    respects_onBackend _ (Backend.respects_call x outputs inputs)

/-- The same bytes are read back. -/
theorem respects_readOutput (position : Nat) (x : TensorId) (host : HostBuffer) :
    Respects Twin (readOutput position x host) := by
  refine respects_platform_bind (fun p q h => by rw [h.memory.storage]) fun p => ?_
  refine (respects_onBackend _ (Backend.respects_read x _ _)).bind fun bytes => ?_
  exact respects_changePlatform fun _ _ h => h.withMemory (h.memory.setStorage _ bytes)

theorem respects_readOutputs (tensors : List (Option TensorId)) :
    Respects Twin (readOutputs tensors) := by
  refine respects_get_bind (fun s s' h => by rw [h.outputs]) fun s =>
    respects_forM _ fun ⟨⟨x, host⟩, position⟩ => ?_
  cases x with
  | some x => exact respects_readOutput position x host
  | none => exact respects_pure _

/-- One side tells its tracker that the outputs have changed, and the other tells nobody. -/
theorem respects_invalidateOutputs : Respects Twin invalidateOutputs := by
  refine respects_unit fun s s' h => ?_
  unfold invalidateOutputs
  rw [abreast_get_bind, h.outputs]
  refine abreast_forM _ (fun ⟨buffer, position⟩ t u hu => ?_) h
  rw [h.unit]
  dsimp only
  split
  · exact abreast_pure hu
  · exact abreast_tell hu _ _ _ _

/-! ### Inputs -/

/-- An input is copied on both sides. -/
theorem respects_writeInput (position : Nat) (x : TensorId) (host : HostBuffer) :
    Respects Twin (writeInput position x host) := by
  refine respects_platform_bind (fun p q h => ?_) fun p => ?_
  · dsimp only
    rw [h.memory.spec, h.memory.storage]
  have hrest : ∀ (bytes : Bytes) (needed : Nat), Respects Twin (do
      onBackend (.transfer position) (Backend.write x bytes 0)
      changePlatform (·.cacheEvent "input_copy")
      return needed : ExecM Nat) := fun bytes needed =>
    (respects_onBackend _ (Backend.respects_write x bytes 0)).bind fun _ =>
      (respects_changePlatform fun _ _ h => h.cacheEvent _).bind fun _ => respects_pure needed
  dsimp only
  split
  · exact (respects_fail _).bind fun _ => hrest _ _
  · exact hrest _ _

/-- **Bytes are written where they already are**, on one side only. -/
theorem ends_rewriteInput (position : Nat) {x : TensorId} {host : HostBuffer} (h : s.Twin s')
    (hspec : (s'.memory.tensor x).spec = host.spec) (hsize : (s'.memory.read host).WellSized)
    (hcurrent : s'.memory.contents x = s'.memory.storage host.storage) :
    Ends (writeInput position x host s') (fun _ u => s.Twin u) fun _ _ => False := by
  have hneeded : (s'.memory.tensor x).spec.elements * host.spec.dtype.size =
      (s'.memory.storage host.storage).length := by
    rw [hspec]
    exact Eq.symm hsize
  unfold writeInput
  rw [ends_bind, ends_platform]
  dsimp only
  rw [hneeded, if_neg (Nat.lt_irrefl _), List.take_length, ends_bind, ends_onBackend, ← hcurrent]
  refine (Backend.ends_rewrite h.device x).mono (fun _ e he => ?_) fun _ _ => id
  rw [ends_bind, ends_changePlatform, ends_pure]
  have htwin : s.Twin (s'.withDevice e) := by
    have := h.withDevice he
    unfold ExecState.withDevice ExecState.device at this
    rwa [Platform.withDevice_device] at this
  exact htwin.withPlatform (htwin.platform.withProfile _ _)

variable {δ : Nat → DType} {id : ArtifactId} {a : Artifact} {inputs : List HostBuffer}

/-- **An input is copied**, on the first side unless the copy is left out. Where it is left out, the
tensor is to hold what the buffer holds. -/
theorem abreast_copyInput {r : SlotResolution} {position : Nat} {host : HostBuffer}
    {tracker : Tracker} (h : s.Twin s')
    (hcurrent : s.kind.isHostBound = false → r.stale = false →
      (s.memory.tensor r.tensor).spec = host.spec ∧ (s.memory.read host).WellSized ∧
        s.memory.contents r.tensor = s.memory.storage host.storage) :
    Abreast
      ((do
        if r.stale && !(← kind).isHostBound then
          let copied ← writeInput position r.tensor host
          changePlatform (·.tell tracker (·.mark host.storage id))
          return ⟨some r.tensor, r.created, some copied⟩
        else return ⟨some r.tensor, r.created, none⟩ : ExecM Service) s)
      ((do
        if true && !(← kind).isHostBound then
          let copied ← writeInput position r.tensor host
          changePlatform (·.tell .never (·.mark host.storage id))
          return ⟨some r.tensor, r.created, some copied⟩
        else return ⟨some r.tensor, r.created, none⟩ : ExecM Service) s')
      (fun v t w u => (w.tensor = v.tensor ∧ w.created = v.created) ∧ t.Twin u) Twin := by
  rw [abreast_kind_bind, h.kind]
  cases hbound : s.kind.isHostBound with
  | true =>
    rw [Bool.not_true, Bool.and_false, Bool.and_false, if_neg Bool.false_ne_true,
      if_neg Bool.false_ne_true]
    exact abreast_pure ⟨⟨rfl, rfl⟩, h⟩
  | false =>
    rw [Bool.not_false, Bool.and_true, Bool.and_true, if_pos rfl]
    cases hstale : r.stale with
    | true =>
      rw [if_pos rfl]
      refine ((respects_writeInput position r.tensor host).abreast h).bind fun _ _ _ _ hu => ?_
      exact (abreast_tell hu _ _ _ _).bind fun _ _ _ _ hu => abreast_pure ⟨⟨rfl, rfl⟩, hu⟩
    | false =>
      rw [if_neg Bool.false_ne_true]
      -- One side leaves the copy out, and the other writes what its tensor holds already.
      obtain ⟨hspec, hsize, hcontents⟩ := hcurrent hbound hstale
      have hrewrite : Ends (writeInput position r.tensor host s') (fun _ u => s.Twin u)
          fun _ _ => False := ends_rewriteInput position h
        ((h.memory.spec r.tensor).trans hspec)
        (by
          unfold Memory.read at hsize ⊢
          rwa [h.memory.storage])
        (by rw [h.memory.contents, h.memory.storage, hcontents])
      change Ends ((writeInput position r.tensor host >>= fun copied => do
        changePlatform (·.tell .never (·.mark host.storage id))
        return (⟨some r.tensor, r.created, some copied⟩ : Service)) s') _ _
      rw [ends_bind]
      exact hrewrite.mono (fun _ _ hu => ⟨⟨rfl, rfl⟩, hu⟩) fun _ _ hu => hu

/-- **An input is served.** The first side may leave the copy out if it is current, and the second
side copies in any case. -/
theorem abreast_serveInput {position : Nat} {host : HostBuffer} (h : s.Twin s')
    (howns : s.cache.Owns s.memory) (ha : s.cache.get? id = some a)
    (hfits : s.executor.unit.externalInputs.contains position = false →
      ∀ slot, a.inputs.Reuses s.kind position host slot → slot.Fits s.kind s.memory host.spec)
    (hsize : (s.memory.read host).WellSized)
    (hcurrent : s.executor.unit.externalInputs.contains position = false →
      s.kind.isHostBound = false →
      s.platform.isFresh s.executor.tracker host.storage id = true →
      ∀ x, a.inputs.get? position = some ⟨host.storage, x⟩ →
        s.memory.contents x = s.memory.storage host.storage) :
    Abreast (serveInput id position host s) (serveInput id position host s')
      (fun v t w u => (w.tensor = v.tensor ∧ w.created = v.created) ∧ t.Twin u) Twin := by
  unfold serveInput
  rw [abreast_executor_bind, h.unit]
  dsimp only
  split
  · exact abreast_pure ⟨⟨rfl, rfl⟩, h⟩
  · rename_i hposition
    have hfound : Ends (artifact id s) (fun b t => b = a ∧ t = s) fun _ _ => True :=
      (ends_artifact_of_some ha).2 ⟨rfl, rfl⟩
    refine ((respects_artifact id s s' h).and_ends hfound).bind fun b t b' w hb => ?_
    obtain ⟨⟨hba, hts⟩, hbb, hw⟩ := hb
    rw [hbb, hba]
    rw [hts] at hw ⊢
    rw [abreast_platform_bind, h.tracker]
    -- Both sides come to the same tensor, and it is known where it comes from.
    have hfits' : ∀ slot, (a.slots .input).Reuses s.kind position host slot →
        slot.Fits s.kind s.memory host.spec := hfits (Bool.eq_false_iff.2 hposition)
    have hresolve := (abreast_onBackend (.creation .input position) hw
      (SlotTable.abreast_resolve hw.device a.inputs .input position host
        (s.platform.isFresh s.executor.tracker host.storage id))).and_ends
      (ends_resolveSlot howns ha hfits' _ _)
    refine hresolve.bind ?_
    rintro ⟨r, slots⟩ u ⟨_, _⟩ w ⟨⟨hserved, -, hstale, hkept⟩, heq, hw⟩
    cases heq
    dsimp only at hserved hstale hkept ⊢
    obtain ⟨v, hv⟩ : ∃ v : ExecState, v = { u with
      executor.cache := u.executor.cache.update id (a.withSlots .input slots) } := ⟨_, rfl⟩
    have hset : Ends (setArtifact id (a.withSlots .input slots) u) (fun _ t => t = v)
        fun _ _ => True := hv.symm
    refine ((respects_setArtifact id _ u w hw).and_ends hset).bind fun _ v' _ w hw => ?_
    obtain ⟨rfl, -, hw⟩ := hw
    rw [← hv] at hserved
    refine abreast_copyInput hw fun hbound hs => ⟨hserved.fits.spec_eq, ?_, ?_⟩
    · unfold Memory.read Memory.storage at hsize ⊢
      rwa [hserved.storages]
    · obtain ⟨-, hstay, hvouched⟩ := hstale.1 hs
      obtain ⟨hslot, hcontents⟩ := hkept hstay
      rw [show v'.memory.contents r.tensor = u.memory.contents r.tensor by rw [hv], hcontents,
        hcurrent (Bool.eq_false_iff.2 hposition) (hserved.later.kind_eq ▸ hbound) hvouched _ hslot]
      unfold Memory.storage
      rw [hserved.storages]

/-- **Every input is served.** -/
theorem abreast_allocateInputs (h : s.Twin s') (howns : s.cache.Owns s.memory)
    (ha : s.cache.get? id = some a)
    (hfits : (a.slots .input).FitsFor s.kind s.memory s.executor.unit.externalInputs inputs)
    (hsize : ∀ host ∈ inputs, (s.memory.read host).WellSized)
    (hcurrent : s.SkipsCurrent id a inputs) :
    Abreast (allocateInputs id inputs s) (allocateInputs id inputs s')
      (fun al t al' u => (al'.tensors = al.tensors ∧ al'.created = al.created) ∧ t.Twin u) Twin := by
  unfold allocateInputs
  have hfound : Ends ((discard (artifact id) : ExecM Unit) s) (fun _ t => t = s) fun _ _ => True :=
    ends_discard.2 ((ends_artifact_of_some ha).2 rfl)
  refine (((respects_artifact id).map _ s s' h).and_ends hfound).bind fun _ t _ w hw => ?_
  obtain ⟨hts, -, hw⟩ := hw
  rw [hts] at hw ⊢
  -- The invariant: the left side has loaded the positions so far, the two have served the same
  -- tensors, and they are twins.
  refine (abreast_mapM_zipIdx (I := fun vs t ws u =>
    (∃ slots, Loaded s id a inputs (vs.map (·.tensor)) slots t) ∧
      ws.map (·.tensor) = vs.map (·.tensor) ∧ ws.map (·.created) = vs.map (·.created) ∧ t.Twin u)
    (fun vs host t ws u hhost hI => ?_) ⟨⟨_, .start howns ha⟩, rfl, rfl, hw⟩).bind
    fun vs t ws u hI => ?_
  · obtain ⟨⟨slots, ht⟩, htensors, hcreated, hu⟩ := hI
    have hlen : (vs.map (·.tensor)).length = vs.length := List.length_map _
    rw [← hlen] at hhost ⊢
    have hwell := hsize host (List.mem_of_getElem? hhost)
    -- A copy that is left out now was current at the start, since serving the earlier positions has
    -- changed neither this tensor nor a buffer.
    have hserve := abreast_serveInput hu ht.within.owns (ht.toFilled.found ha)
      (fun hin => ht.toFilled.fits_rest hfits hhost (ht.later.unit ▸ hin))
      (by
        unfold Memory.read Memory.storage at hwell ⊢
        rwa [ht.storages])
      (fun hin hbound hfresh x hslot => by
        rw [ht.later.kind_eq] at hbound
        rw [ht.later.tracker] at hfresh
        rw [ht.later.unit] at hin
        have hskips := (ht.skips_iff hhost hbound).2 ⟨hfresh, x, hslot⟩
        have hbefore := (ht.rest _ (.inl (Nat.le_refl _))).symm.trans hslot
        rw [ht.contents_rest ha (Nat.le_refl _) hbefore,
          hcurrent _ host x hhost hbefore hin hskips]
        unfold Memory.storage
        rw [ht.storages])
    refine (hserve.and_ends (ends_serveNext ht ha hfits hhost hwell)).mono
      (fun v t w u hu => ?_) fun _ _ h => h
    obtain ⟨hloaded, ⟨htensor, hnew⟩, hu⟩ := hu
    simp only [List.map_append, List.map_singleton, htensors, hcreated, htensor, hnew]
    exact ⟨hloaded, trivial, trivial, hu⟩
  · obtain ⟨-, htensors, hcreated, hu⟩ := hI
    have hcount := congrArg (List.countP fun created : Bool => created) hcreated
    rw [List.countP_map, List.countP_map] at hcount
    exact (abreast_count hu _ _).bind fun _ _ _ _ hu => abreast_pure ⟨⟨htensors, hcount⟩, hu⟩

/-! ### The whole call -/

/-- **Both sides of an artifact are served**: the same tensors are found or made, and they hold the
same. -/
theorem abreast_stage (hp : Poised s id a inputs) (hfit : s.SlotsFit a inputs) (h : s.Twin s')
    (hcurrent : s.SkipsCurrent id a inputs) :
    Abreast (stage id inputs s) (stage id inputs s')
      (fun w t w' u => (w'.1.tensors = w.1.tensors ∧ w'.1.created = w.1.created) ∧ w'.2 = w.2 ∧
        t.Twin u) Twin := by
  unfold stage
  refine (abreast_allocateInputs h hp.owns hp.found hfit.ins hp.filled hcurrent).bind fun ins t ins' u hu => ?_
  obtain ⟨hins, hu⟩ := hu
  rw [abreast_get_bind, hu.outputs]
  refine (respects_allocateOutputs id _ t u hu).bind fun outs t outs' u hu => ?_
  exact abreast_pure ⟨hins, hu⟩

/-- **The two sides come to their executable with the same tensors.** -/
theorem abreast_present (hsound : Sound δ s) (hpresented : Presented δ s inputs) (h : s.Twin s')
    (hcurrent : ∀ l a t, FoundFor s inputs l a t →
      (t.prepared a.executable.function.results).SkipsCurrent l.artifact a inputs) :
    Abreast (present inputs s) (present inputs s')
      (fun p t p' u => p'.1 = p.1 ∧
        (p'.2.1.tensors = p.2.1.tensors ∧ p'.2.1.created = p.2.1.created) ∧ p'.2.2 = p.2.2 ∧
        t.Twin u) Twin := by
  unfold present
  refine ((respects_getExecutable inputs s s' h).and_ends
    (ends_getExecutable hsound.compiled inputs)).bind fun l t l' u hu => ?_
  obtain ⟨⟨computed, a, hcompute, hfound⟩, rfl, hu⟩ := hu
  dsimp only
  split
  · have hfail : Abreast
        ((fail (.inputCount l'.executable.function.parameters.length inputs.length) : ExecM Unit) t)
        ((fail (.inputCount l'.executable.function.parameters.length inputs.length) : ExecM Unit) u)
        (fun _ _ _ _ => False) Twin := ⟨by rw [hu.unit], hu⟩
    exact hfail.bind fun _ _ _ _ hnever => hnever.elim
  · have hprepare : Abreast (prepareOutputs l'.executable.function.results t)
        (prepareOutputs l'.executable.function.results u)
        (fun _ t' _ u' => t' = t.prepared a.executable.function.results ∧ t'.Twin u') Twin :=
      ⟨by rw [hfound.executable]; rfl, hu.prepared _⟩
    refine hprepare.bind fun _ t' _ u hu => ?_
    obtain ⟨rfl, hu⟩ := hu
    obtain ⟨-, -, hfit⟩ := hpresented.prepared hsound hcompute hfound
    refine (abreast_stage (hpresented.poised hsound.owns hsound.atHome hfound) hfit hu
      (hcurrent _ a t ⟨computed, hcompute, hfound⟩)).bind fun w t w' u hw => ?_
    exact abreast_pure ⟨rfl, hw⟩

/-- What a call does from then on is the same on both sides. -/
theorem abreast_conclude (l : Lookup) {ins ins' outs : Allocation}
    (htensors : ins'.tensors = ins.tensors) (hcreated : ins'.created = ins.created)
    (h : s.Twin s') :
    Abreast (conclude l ins outs s) (conclude l ins' outs s')
      (fun r t r' u => r.SameButCopies r' ∧ t.Twin u) Twin := by
  have hfinish : Abreast (finish l ins outs s) (finish l ins' outs s')
      (fun r t r' u => r.SameButCopies r' ∧ t.Twin u) Twin := by
    unfold finish
    rw [htensors, hcreated]
    refine ((respects_callExecutable _ _ _).abreast h).bind fun _ t _ u hu => ?_
    rw [abreast_kind_bind, hu.kind]
    split
    · exact ((respects_readOutputs _).abreast hu).bind fun _ _ _ _ hu => abreast_pure ⟨rfl, hu⟩
    · exact abreast_pure ⟨rfl, hu⟩
  refine hfinish.bind fun r t r' u hu => ?_
  obtain ⟨hr, hu⟩ := hu
  refine (respects_invalidateOutputs.abreast hu).bind fun _ t _ u hu => ?_
  exact (abreast_count hu _ _).bind fun _ _ _ _ hu => abreast_pure ⟨hr, hu⟩

/-- **Nobody can tell from a call whether it left copies out**, if it left out none but current ones:
it ends as the one that copies everything, and the reports differ in the copies only. -/
theorem abreast_execute (hsound : Sound δ s) (hpresented : Presented δ s inputs)
    (hpipelined : s.kind.isPipelined = false) (h : s.Twin s')
    (hcurrent : ∀ l a t, FoundFor s inputs l a t →
      (t.prepared a.executable.function.results).SkipsCurrent l.artifact a inputs) :
    Abreast (execute inputs s) (execute inputs s')
      (fun r t r' u => r.SameButCopies r' ∧ t.Twin u) Twin := by
  rw [execute_eq_present hpipelined, execute_eq_present (by rw [h.kind, hpipelined])]
  refine (abreast_present hsound hpresented h hcurrent).bind fun p t p' u hp => ?_
  obtain ⟨hl, ⟨htensors, hcreated⟩, houts, hu⟩ := hp
  rw [hl, houts]
  exact abreast_conclude p.1 htensors hcreated hu

/-- **So it is with a faithful executor** whose buffers are told apart. -/
theorem abreast_execute_of_faithful (hsound : Sound δ s) (hpresented : Presented δ s inputs)
    (hdevice : s.kind = .recording .device) (hs : s.Faithful fun _ => False)
    (htells : s.TellsApart inputs) (h : s.Twin s') :
    Abreast (execute inputs s) (execute inputs s')
      (fun r t r' u => r.SameButCopies r' ∧ t.Twin u) Twin := by
  refine abreast_execute hsound hpresented (by rw [hdevice]; rfl) h fun l a t hfor => ?_
  obtain ⟨hf, hdiscreet⟩ := hfor.faithful hsound.atHome (by rw [hdevice]; rfl) hs
  obtain ⟨computed, -, hfound⟩ := hfor
  exact hf.skipsCurrent hfound.found (tellsApart_of_later htells hdiscreet.later)

end ExecM

end TensorJit
