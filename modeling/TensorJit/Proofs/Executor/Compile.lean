import TensorJit.Proofs.Executor.Build
import TensorJit.Proofs.Executor.Product

/-!
# Finding or compiling an executable

Function and executable for some inputs depend on nothing but the executor and the inputs
(`Executor.product?`): in translator mode they are what lowering makes of the unit's graph, and
otherwise they are read from the table. An artifact was made for some inputs in this way, if not for
those it is found for then for others of the same signature (`Executor.Made`). Whatever else happens,
that stays so (`Compiled`). The ends of `ExecM.getExecutable` are these:

| | cache afterwards | when |
|---|---|---|
| an artifact that was there | as before, the signature in front | its signature is listed |
| a new artifact | the new one in front, the last one gone if the cache was full | its signature is not listed, and there is a function with an executable |
| an error | as before | the signature does not exist, there is no function or no executable, or the backend refuses |

No memory is touched in any of them, and no output buffer.
-/

namespace TensorJit

/-! ### Compiled artifacts -/

/-- An artifact was made for some inputs of its signature. -/
def Executor.Made (e : Executor) (P : List Tensor → Prop) (a : Artifact) : Prop :=
  ∃ ts computed, P ts ∧ Signature.compute e.statics ts = .ok computed ∧
    computed.signature = a.signature ∧ e.product? computed = some (a.function, a.executable)

/-- Every artifact of the executor was made for inputs that satisfy `P`. -/
structure Compiled (P : List Tensor → Prop) (s : ExecState) : Prop where
  /-- The parts of the cache agree. -/
  consistent : s.cache.Consistent
  /-- Identities of artifacts that are still to come are not in use. -/
  issued : ∀ i a, s.cache.get? i = some a → i < s.platform.nextArtifact
  /-- The artifacts were made for inputs that satisfy `P`. -/
  made : ∀ i a, s.cache.get? i = some a → s.executor.Made P a

/-- Nothing that a call works with has changed between two states. -/
structure ExecState.Untouched (s t : ExecState) : Prop where
  /-- The executor is the same. -/
  later : s.Later t
  /-- The caches are equal. -/
  cache : t.cache = s.cache
  /-- The output buffers are equal. -/
  outputs : t.outputs = s.outputs
  /-- The memories are equal. -/
  memory : t.memory = s.memory
  /-- The registries of fresh copies are equal. -/
  registries : t.platform.registries = s.platform.registries
  /-- No identity of an artifact has been used up. -/
  nextArtifact : t.platform.nextArtifact = s.platform.nextArtifact

namespace ExecState

theorem Untouched.refl (s : ExecState) : s.Untouched s :=
  ⟨.refl s, rfl, rfl, rfl, rfl, rfl⟩

theorem Untouched.trans {s t u : ExecState} (h : s.Untouched t) (h' : t.Untouched u) :
    s.Untouched u :=
  ⟨h.later.trans h'.later, h'.cache.trans h.cache, h'.outputs.trans h.outputs,
    h'.memory.trans h.memory, h'.registries.trans h.registries,
    h'.nextArtifact.trans h.nextArtifact⟩

theorem untouched_stats (s : ExecState) (x : Stats) :
    s.Untouched { s with executor.stats := x } :=
  ⟨{ Later.refl s with }, rfl, rfl, rfl, rfl, rfl⟩

/-- Something that changes neither memory nor registries nor identities. -/
theorem untouched_platform {s : ExecState} {p : Platform} (hlater : s.platform.Later p)
    (hmemory : p.memory = s.platform.memory) (hregistries : p.registries = s.platform.registries)
    (hnext : p.nextArtifact = s.platform.nextArtifact) :
    s.Untouched { s with platform := p } :=
  ⟨{ Later.refl s with platform := hlater }, rfl, rfl, hmemory, hregistries, hnext⟩

end ExecState

/-- Nothing has changed between two states but counters of compile steps, files and the log. -/
structure ExecState.Aside (s t : ExecState) : Prop where
  /-- The executors are equal. -/
  executor : t.executor = s.executor
  /-- The output buffers are equal. -/
  outputs : t.outputs = s.outputs
  /-- The memories are equal. -/
  memory : t.memory = s.memory
  /-- The registries of fresh copies are equal. -/
  registries : t.platform.registries = s.platform.registries
  /-- No identity of an artifact has been used up. -/
  nextArtifact : t.platform.nextArtifact = s.platform.nextArtifact
  /-- There are the same executables. -/
  platform : s.platform.Steady t.platform

namespace ExecState

theorem Aside.refl (s : ExecState) : s.Aside s := ⟨rfl, rfl, rfl, rfl, rfl, .refl _⟩

theorem aside_platform {s : ExecState} {p : Platform} (hsteady : s.platform.Steady p)
    (hmemory : p.memory = s.platform.memory) (hregistries : p.registries = s.platform.registries)
    (hnext : p.nextArtifact = s.platform.nextArtifact) : s.Aside { s with platform := p } :=
  ⟨rfl, rfl, hmemory, hregistries, hnext, hsteady⟩

theorem Aside.untouched {s t : ExecState} (h : s.Aside t) : s.Untouched t where
  later := ⟨by rw [h.executor], by rw [h.executor], by rw [h.executor], by rw [h.executor],
    by rw [h.executor], by rw [h.executor], by unfold cache; rw [h.executor], h.platform.toLater⟩
  cache := by
    unfold cache
    rw [h.executor]
  outputs := h.outputs
  memory := h.memory
  registries := h.registries
  nextArtifact := h.nextArtifact

end ExecState

/-- A reason for which the backend of a unit may not compile a function, or load its executable. -/
def ExecState.Refuses (s : ExecState) (f : Function) : Prop :=
  s.platform.isRegistered s.executor.unit.backendName = false ∨ ¬ s.device.backend.Quiet ∨
    s.kind = .reference ∧ ∃ e, Backend.accept f = .error e

theorem ExecState.Untouched.refuses {s t : ExecState} {f : Function} (h : s.Untouched t)
    (ht : t.Refuses f) : s.Refuses f := by
  have hkind := h.later.kind_eq
  rcases ht with ht | ht | ⟨ht, he⟩
  · refine .inl ?_
    unfold Platform.isRegistered at ht ⊢
    rwa [h.later.platform.registered, h.later.unit] at ht
  · refine .inr (.inl fun hquiet => ht ?_)
    unfold ExecState.device Platform.device
    rw [h.later.backend]
    exact h.later.platform.quiet _ hquiet
  · exact .inr (.inr ⟨hkind ▸ ht, he⟩)

/-- The cache with a new artifact, in place of the least recently used one if it is full. -/
def Cache.keep (c : Cache) (a : Artifact) : Cache := (if c.isFull then c.evict.2 else c).insert a

namespace Backend

/-- What is accepted is the function. -/
theorem accept_eq_ok {f : Function} {e : Executable} (h : accept f = .ok e) : e = ⟨f⟩ := by
  unfold accept at h
  obtain ⟨⟨⟩, -, h⟩ := except_bind_eq_ok.1 h
  split at h
  · cases h
  · cases h
    rfl

/-- **Compiling** gives the executable of the function, if it does not fail, and touches no
memory. -/
theorem ends_compile (f : Function) (d : Device) : Ends (compile f d)
    (fun e d' => e = ⟨f⟩ ∧ d'.memory = d.memory)
    fun _ d' => d'.memory = d.memory ∧
      (¬ d.backend.Quiet ∨ d.backend.kind = .reference ∧ ∃ e, accept f = .error e) := by
  unfold compile
  rw [ends_bind, ends_kindOf]
  cases hκ : d.backend.kind with
  | reference =>
    dsimp only
    unfold acceptLive
    cases ha : accept f with
    | error e => exact ⟨rfl, .inr ⟨rfl, e, rfl⟩⟩
    | ok e => exact ⟨accept_eq_ok ha, rfl⟩
  | recording mode =>
    by_cases hquiet : d.backend.injections = ⟨false, false, false⟩
    · simp [takeInjection, hquiet, count]
    · dsimp only
      rw [ends_bind]
      have htake : ∀ (injected : Injections → Bool) (clear : Injections → Injections)
          (d : Device), Ends (takeInjection injected clear d)
            (fun _ d' => d'.memory = d.memory) fun _ _ => False := fun injected clear d => by
        unfold takeInjection
        rw [ends_bind, ends_get]
        split
        · rfl
        · rfl
      refine (htake _ _ d).mono (fun broken d₁ h₁ => ?_) fun _ _ h => h.elim
      cases broken with
      | true => exact ⟨h₁, .inl hquiet⟩
      | false =>
        rw [if_neg Bool.false_ne_true, ends_bind]
        refine (htake _ _ d₁).mono (fun failed d₂ h₂ => ?_) fun _ _ h => h.elim
        cases failed with
        | true => exact ⟨h₂.trans h₁, .inl hquiet⟩
        | false => exact ⟨rfl, h₂.trans h₁⟩

/-- **Loading** gives the executable of the function that was serialized, if it does not fail, and
touches no memory. -/
theorem ends_load (bytes : Bytes) (d : Device) : Ends (load bytes d)
    (fun e d' => (Function.deserialize? bytes).map Executable.mk = some e ∧ d'.memory = d.memory)
    fun _ d' => d'.memory = d.memory ∧ ∀ f, Function.deserialize? bytes = some f →
      d.backend.kind = .reference ∧ ∃ e, accept f = .error e := by
  unfold load
  rw [ends_bind, ends_kindOf]
  generalize Function.deserialize? bytes = read
  cases hκ : d.backend.kind with
  | reference =>
    cases read with
    | none => exact ⟨rfl, nofun⟩
    | some f =>
      change Ends (acceptLive f d) _ _
      unfold acceptLive
      cases ha : accept f with
      | error e =>
        refine ⟨rfl, fun g hg => ⟨rfl, e, ?_⟩⟩
        rw [← Option.some.inj hg, ha]
      | ok e =>
        rw [accept_eq_ok ha]
        exact ⟨rfl, rfl⟩
  | recording mode =>
    cases read with
    | none => exact ⟨rfl, nofun⟩
    | some f => exact ⟨rfl, rfl⟩

theorem ends_release (d : Device) :
    Ends (release d) (fun _ d' => d'.memory = d.memory) fun _ _ => False := by
  unfold release
  rw [ends_bind, ends_kindOf]
  cases d.backend.kind with
  | reference => exact rfl
  | recording mode => exact rfl

end Backend

namespace ExecM

open ExecState (Untouched)

variable {s : ExecState} {P : List Tensor → Prop}

/-- **The function for a signature.** -/
theorem ends_obtainFunction (computed : Signature.Computed) :
    Ends (obtainFunction computed s)
      (fun f t => s.Aside t ∧ s.executor.function? computed = some f)
      fun _ t => s.Aside t ∧ s.executor.function? computed = none := by
  have hstep : s.Aside { s with platform := s.platform.compileStep "translate" } :=
    ExecState.aside_platform (s.platform.calm_compileStep _).toSteady rfl rfl rfl
  unfold obtainFunction Executor.function?
  rw [ends_bind, ends_executor]
  cases s.executor.config.aot with
  | some table =>
    dsimp only
    rcases table.function? computed.signature with _ | _ | f
    · exact ⟨.refl s, rfl⟩
    · exact ⟨.refl s, rfl⟩
    · exact ⟨.refl s, rfl⟩
  | none =>
    cases s.executor.translator with
    | none => exact ⟨.refl s, rfl⟩
    | some translate =>
      dsimp only
      rw [ends_bind, ends_changePlatform, ends_bind, ends_ofExcept]
      refine ⟨fun f hf => ⟨hstep, ?_⟩, fun e he => ⟨hstep, ?_⟩⟩
      · rw [hf]
        rfl
      · rw [he]
        rfl

theorem aside_dump (path : FilePath) (f : Function) (s : ExecState) :
    Ends (dump path f s) (fun _ t => s.Aside t) fun _ _ => False := by
  have hdump : (s.platform.dump path f).2.memory = s.platform.memory ∧
      (s.platform.dump path f).2.registries = s.platform.registries ∧
      (s.platform.dump path f).2.nextArtifact = s.platform.nextArtifact := by
    unfold Platform.dump
    dsimp only
    split
    · exact ⟨rfl, rfl, rfl⟩
    · exact ⟨rfl, rfl, rfl⟩
  exact ExecState.aside_platform (s.platform.calm_dump path f).toSteady hdump.1 hdump.2.1 hdump.2.2

/-- The serialized executable for a signature is what its executable is loaded from. -/
theorem ends_serializedFor (signature : Signature) :
    Ends (serializedFor signature s)
      (fun serialized t => t = s ∧ serialized.isSome = s.executor.config.aot.isSome ∧
        ∀ f, s.executor.executable? signature f =
          match serialized with
          | none => some ⟨f⟩
          | some bytes => (Function.deserialize? bytes).map Executable.mk)
      fun _ t => t = s ∧ ∀ f, s.executor.executable? signature f = none := by
  unfold serializedFor Executor.executable?
  rw [ends_bind, ends_executor]
  cases s.executor.config.aot with
  | none => exact ⟨rfl, rfl, fun _ => rfl⟩
  | some table =>
    dsimp only
    cases table.executable? signature with
    | none => exact ⟨rfl, fun _ => rfl⟩
    | some bytes => exact ⟨rfl, rfl, fun _ => rfl⟩

/-- What the backend is asked for gives the executable for the signature, or is refused. -/
theorem ends_loadOrCompile {signature : Signature} {f : Function} {serialized : Option Bytes}
    (h : s.executor.executable? signature f =
      match serialized with
      | none => some ⟨f⟩
      | some bytes => (Function.deserialize? bytes).map Executable.mk) :
    Ends ((match serialized with
        | some serialized => Backend.load serialized
        | none => Backend.compile f) s.device)
      (fun x d => (d.memory = s.memory ∧ s.executor.executable? signature f = some x) ∧
        s.device.Later d)
      fun _ d => (d.memory = s.memory ∧ ∀ x, s.executor.executable? signature f = some x →
        s.Refuses x.function) ∧ s.device.Later d := by
  rw [h]
  cases serialized with
  | some bytes =>
    refine ((Backend.ends_load bytes s.device).and ((Backend.keeps_load bytes).later s.device)).mono
      (fun _ _ h => ⟨⟨h.1.2, h.1.1⟩, h.2⟩) fun _ _ h => ⟨⟨h.1.1, fun x hx => ?_⟩, h.2⟩
    obtain ⟨g, hg, rfl⟩ := Option.map_eq_some_iff.1 hx
    exact .inr (.inr (h.1.2 g hg))
  | none =>
    refine ((Backend.ends_compile f s.device).and ((Backend.keeps_compile f).later s.device)).mono
      (fun _ _ h => ⟨⟨h.1.2, congrArg some h.1.1.symm⟩, h.2⟩)
      fun _ _ h => ⟨⟨h.1.1, fun x hx => ?_⟩, h.2⟩
    obtain rfl := Option.some.inj hx
    exact .inr h.1.2

/-- **Compiling a function** gives its executable, or the one that is loaded instead, if there is one
and nothing refuses it. -/
theorem ends_compile (signature : Signature) (f : Function) :
    Ends (compile signature f s)
      (fun x t => s.Untouched t ∧ s.executor.executable? signature f = some x ∧
        s.platform.isRegistered s.executor.unit.backendName = true)
      fun _ t => s.Untouched t ∧
        ∀ x, s.executor.executable? signature f = some x → s.Refuses x.function := by
  have hlock : s.platform.lock s.executor.unit.backendName =
      if s.platform.isRegistered s.executor.unit.backendName then .ok ()
      else .error (.backendUnavailable s.executor.unit.backendName) := rfl
  unfold compile
  rw [ends_bind, ends_executor, ends_bind]
  refine (ends_serializedFor signature).mono (fun serialized t ht => ?_) fun _ t ht => ?_
  swap
  · refine ⟨ht.1 ▸ .refl s, fun x hx => ?_⟩
    rw [ht.2 f] at hx
    cases hx
  obtain ⟨rfl, -, hserialized⟩ := ht
  rw [ends_bind, ends_changePlatform, ends_bind, ends_platform, ends_bind, ends_ofExcept,
    show ({ t with platform := t.platform.compileStep "compile" } : ExecState).platform.lock
      t.executor.unit.backendName = t.platform.lock t.executor.unit.backendName from rfl, hlock]
  have hstep : t.Untouched { t with platform := t.platform.compileStep "compile" } :=
    ExecState.untouched_platform (t.platform.calm_compileStep _).toLater rfl rfl rfl
  cases hregistered : t.platform.isRegistered t.executor.unit.backendName with
  | false => exact ⟨nofun, fun _ _ => ⟨hstep, fun _ _ => .inl hregistered⟩⟩
  | true =>
    rw [if_pos rfl]
    refine ⟨fun _ _ => ?_, fun e he => by cases he⟩
    rw [ends_bind, ends_tryBackend]
    have hdevice : ∀ d : Device, t.device.Later d → d.memory = t.memory → t.Untouched
        ({ t with platform := t.platform.compileStep "compile" }.withDevice d) := fun d hd hm =>
      hstep.trans (ExecState.untouched_platform (Platform.later_withDevice hd) hm rfl rfl)
    refine (ends_loadOrCompile (hserialized f)).mono (fun x d hd => ?_) fun e d hd => ?_
    · obtain ⟨⟨hm, hx⟩, hlater⟩ := hd
      dsimp only
      rw [ends_bind, ends_count, ends_pure]
      exact ⟨(hdevice d hlater hm).trans (ExecState.untouched_stats _ _), hx, rfl⟩
    · have hu := hdevice d hd.2 hd.1.1
      have hreason := hd.1.2
      generalize ({ t with platform := t.platform.compileStep "compile" }.withDevice d) = u at hu ⊢
      rw [ends_bind]
      -- The path has to be opaque before anything is taken apart, or elaboration computes it.
      generalize errorDumpPath t.executor.config.dumpDirectory t.executor.unit.name = path
      refine (aside_dump path f u).mono (fun _ v hv => ?_) fun _ _ h => h.elim
      rw [ends_bind, ends_changePlatform, ends_throw]
      exact ⟨(hu.trans hv.untouched).trans
        (ExecState.untouched_platform (v.platform.calm_note _).toLater rfl rfl rfl), hreason⟩

/-! ### Keeping -/

/-- What evicting an artifact does. -/
structure EvictedFrom (s : ExecState) (a : Artifact) (t : ExecState) : Prop where
  /-- The executor is the same. -/
  later : s.Later t
  /-- The artifact is gone. -/
  cache : s.cache.Evicted a t.cache
  /-- The parts of the cache agree. -/
  consistent : t.cache.Consistent
  /-- The output buffers are equal. -/
  outputs : t.outputs = s.outputs
  /-- The memories are equal. -/
  memory : t.memory = s.memory
  /-- The copies made for it are forgotten. -/
  registries : t.platform.registries =
    s.executor.tracker.update s.platform.registries (·.forget a.id)
  /-- No identity of an artifact has been used up. -/
  nextArtifact : t.platform.nextArtifact = s.platform.nextArtifact

/-- **Evicting** from a cache that is not empty. -/
theorem ends_evict (hcache : s.cache.Consistent) (hne : s.cache.order ≠ []) :
    Ends (evict s) (fun _ t => ∃ a, EvictedFrom s a t) fun _ _ => False := by
  obtain ⟨a, hevict, hevicted, hconsistent⟩ := hcache.evict hne
  have hcounted : s.executor.cache.evictCounted s.platform.profile =
      (some a, s.cache.evict.2, s.platform.profile.cacheEvent "executable_cache_evict") := by
    unfold Cache.evictCounted
    rw [hevict]
  unfold evict
  rw [ends_bind, ends_get, hcounted]
  dsimp only
  rw [ends_bind, ends_set, ends_bind, ends_discard, ends_tryBackend]
  have hlater : s.Later { s with
      executor.cache := s.cache.evict.2
      platform.profile := s.platform.profile.cacheEvent "executable_cache_evict" } :=
    { ExecState.Later.refl s with
      depth := hevicted.depth
      platform := { Platform.Later.refl s.platform with } }
  refine ((Backend.ends_release _).and (Backend.keeps_release.later _)).mono (fun _ d hd => ?_)
    fun _ _ h => h.1.elim
  rw [ends_bind, ends_platform, ends_bind, ends_changePlatform, ends_bind, ends_count,
    ends_changePlatform]
  refine ⟨a, ?_, hevicted, hconsistent, rfl, hd.1, rfl, rfl⟩
  refine hlater.trans { ExecState.Later.refl _ with platform := ?_ }
  exact ((Platform.later_withDevice hd.2).trans (Platform.calm_tell _ _ _).toLater).trans
    (Platform.calm_note _ _).toLater

/-- What keeping a new artifact does. -/
structure Kept (s : ExecState) (a : Artifact) (t : ExecState) : Prop where
  /-- The executor is the same. -/
  later : s.Later t
  /-- The artifact gets the next identity. -/
  id : a.id = s.platform.nextArtifact
  /-- It is there. -/
  found : t.cache.get? a.id = some a
  /-- Every other artifact was there before. -/
  old : ∀ i b, i ≠ a.id → t.cache.get? i = some b → s.cache.get? i = some b
  /-- The parts of the cache agree. -/
  consistent : t.cache.Consistent
  /-- The signature is in front, and the last one is gone if the cache was full. -/
  order : t.cache.order =
    a.signature :: if s.cache.isFull then s.cache.order.dropLast else s.cache.order
  /-- The output buffers are equal. -/
  outputs : t.outputs = s.outputs
  /-- The memories are equal. -/
  memory : t.memory = s.memory
  /-- Copies are forgotten of an artifact that is gone, and of no other. -/
  registries : t.platform.registries = s.platform.registries ∨
    ∃ b, s.cache.get? b.id = some b ∧ t.cache.get? b.id = none ∧
      t.platform.registries = s.executor.tracker.update s.platform.registries (·.forget b.id)
  /-- They are forgotten of every artifact that is gone. -/
  forgotten : ∀ i b, s.cache.get? i = some b → t.cache.get? i = none →
    t.platform.registries = s.executor.tracker.update s.platform.registries (·.forget i)
  /-- Its identity is used up. -/
  nextArtifact : t.platform.nextArtifact = s.platform.nextArtifact + 1

/-- What making room for an artifact does, where there may be room already. -/
structure RoomMade (s t : ExecState) : Prop where
  /-- The executor is the same. -/
  later : s.Later t
  /-- There is room. -/
  room : t.cache.isFull = false
  /-- Every artifact was there before. -/
  old : ∀ i b, t.cache.get? i = some b → s.cache.get? i = some b
  /-- No signature is listed that was not. -/
  unlisted : ∀ signature, s.cache.index.get? signature = none →
    t.cache.index.get? signature = none
  /-- The parts of the cache agree. -/
  consistent : t.cache.Consistent
  /-- The last signature is gone if the cache was full. -/
  order : t.cache.order = if s.cache.isFull then s.cache.order.dropLast else s.cache.order
  /-- The output buffers are equal. -/
  outputs : t.outputs = s.outputs
  /-- The memories are equal. -/
  memory : t.memory = s.memory
  /-- Copies are forgotten of an artifact that is gone, and of no other. -/
  registries : t.platform.registries = s.platform.registries ∨
    ∃ b, s.cache.get? b.id = some b ∧ t.cache.get? b.id = none ∧
      t.platform.registries = s.executor.tracker.update s.platform.registries (·.forget b.id)
  /-- They are forgotten of every artifact that is gone. -/
  forgotten : ∀ i b, s.cache.get? i = some b → t.cache.get? i = none →
    t.platform.registries = s.executor.tracker.update s.platform.registries (·.forget i)
  /-- No identity of an artifact has been used up. -/
  nextArtifact : t.platform.nextArtifact = s.platform.nextArtifact

/-- There is room already. -/
theorem roomMade_of_not_full (hcache : s.cache.Consistent) (hfull : s.cache.isFull = false) :
    RoomMade s s where
  later := .refl s
  room := hfull
  old _ _ h := h
  unlisted _ h := h
  consistent := hcache
  order := by rw [hfull, if_neg Bool.false_ne_true]
  outputs := rfl
  memory := rfl
  registries := .inl rfl
  forgotten i b hb hgone := absurd (hb.symm.trans hgone) nofun
  nextArtifact := rfl

/-- An artifact of a full cache makes room. -/
theorem EvictedFrom.roomMade {t : ExecState} {a : Artifact} (h : EvictedFrom s a t)
    (hcache : s.cache.Consistent) (hfull : s.cache.isFull = true) : RoomMade s t where
  later := h.later
  room := by
    have hsize := h.cache.size
    have hle := hcache.size_le
    have hdepth := h.cache.depth
    unfold Cache.isFull
    simp only [decide_eq_false_iff_not, Nat.not_le]
    omega
  old i b hb := by
    rw [h.cache.get?] at hb
    split at hb
    · cases hb
    · exact hb
  unlisted signature hsignature := by
    rw [h.cache.index]
    split
    · rfl
    · exact hsignature
  consistent := h.consistent
  order := by rw [if_pos hfull, h.cache.order]
  outputs := h.outputs
  memory := h.memory
  registries := .inr ⟨a, h.cache.found, by rw [h.cache.get?, if_pos rfl], h.registries⟩
  forgotten i b hb hgone := by
    rw [h.cache.get?, hb] at hgone
    split at hgone
    · rename_i hi
      rw [hi]
      exact h.registries
    · cases hgone
  nextArtifact := h.nextArtifact

/-- Once there is room, the new artifact is put into the cache. -/
theorem RoomMade.kept {t : ExecState} (h : RoomMade s t) {a : Artifact}
    (hid : a.id = s.platform.nextArtifact)
    (hissued : ∀ i b, s.cache.get? i = some b → i < s.platform.nextArtifact)
    (hsignature : s.cache.index.get? a.signature = none) {u : ExecState} (hlater : t.Later u)
    (hcache : u.cache = t.cache.insert a) (houtputs : u.outputs = t.outputs)
    (hmemory : u.memory = t.memory) (hregistries : u.platform.registries = t.platform.registries)
    (hnext : u.platform.nextArtifact = t.platform.nextArtifact + 1) : Kept s a u := by
  have hindex := h.unlisted _ hsignature
  -- All identities in the cache have been issued before, so the new one is not among them.
  have hother : ∀ i b, s.cache.get? i = some b → i ≠ a.id := fun i b hb => by
    rw [hid]
    exact Nat.ne_of_lt (hissued i b hb)
  have hnone : t.cache.get? a.id = none :=
    Option.eq_none_iff_forall_ne_some.2 fun b hb => hother _ b (h.old _ b hb) rfl
  have hget : ∀ i, u.cache.get? i = if i = a.id then some a else t.cache.get? i := fun i => by
    rw [hcache]
    exact Cache.get?_insert_new hindex i
  have hrest : ∀ {i}, i ≠ a.id → u.cache.get? i = t.cache.get? i := fun hi =>
    (hget _).trans (if_neg hi)
  refine
    { later := h.later.trans hlater
      id := hid
      found := (hget _).trans (if_pos rfl)
      old := fun i b hi hb => h.old i b ((hrest hi).symm.trans hb)
      consistent := hcache ▸ h.consistent.insert h.room hnone hindex
      order := ?_
      outputs := houtputs.trans h.outputs
      memory := hmemory.trans h.memory
      registries := ?_
      forgotten := fun i b hb hgone => ?_
      nextArtifact := by rw [hnext, h.nextArtifact] }
  · rw [hcache, Cache.order_insert_new hindex, h.order]
  · rw [hregistries]
    refine h.registries.imp id ?_
    rintro ⟨b, hb, hgone, hforgot⟩
    exact ⟨b, hb, (hrest (hother _ b hb)).trans hgone, hforgot⟩
  · rw [hregistries]
    exact h.forgotten i b hb ((hrest (hother i b hb)).symm.trans hgone)

/-- **Keeping a new artifact** under a signature that the cache does not list. -/
theorem ends_keep (hcache : s.cache.Consistent)
    (hissued : ∀ i a, s.cache.get? i = some a → i < s.platform.nextArtifact)
    {signature : Signature} (hsignature : s.cache.index.get? signature = none)
    (executable : Executable) (f : Function) :
    Ends (keep signature executable f s)
      (fun id t => Kept s (.new id signature executable f) t) fun _ _ => False := by
  have hlater : ∀ (t : ExecState) a e, t.Later { t with
      executor.cache := t.executor.cache.insert a
      platform := ({ t.platform with nextArtifact := t.platform.nextArtifact + 1 }).note e } :=
    fun t _ _ => { ExecState.Later.refl t with
      platform := { (Platform.calm_note _ _).toLater with nextArtifact := Nat.le_succ _ } }
  unfold keep
  rw [ends_bind, ends_executor]
  cases hfull : s.executor.cache.isFull with
  | false =>
    dsimp only
    rw [if_neg Bool.false_ne_true, ends_bind, ends_platform, ends_bind, ends_modify, ends_bind,
      ends_executor, ends_bind, ends_changePlatform, ends_pure]
    exact (roomMade_of_not_full hcache hfull).kept rfl hissued hsignature
      (hlater s _ _) rfl rfl rfl rfl rfl
  | true =>
    dsimp only
    rw [if_pos rfl, ends_bind]
    refine (ends_evict hcache (hcache.order_ne_nil hfull)).mono (fun _ t ht => ?_)
      fun _ _ h => h
    obtain ⟨a, ht⟩ := ht
    rw [ends_bind, ends_platform, ends_bind, ends_modify, ends_bind, ends_executor, ends_bind,
      ends_changePlatform, ends_pure]
    exact (ht.roomMade hcache hfull).kept ht.nextArtifact hissued hsignature
      (hlater t _ _) rfl rfl rfl rfl rfl

/-- **Evicting** does not fail, whatever the backend does. -/
theorem ends_evict_cache (s : ExecState) : Ends (evict s) (fun _ t => t.cache = s.cache.evict.2)
    fun _ _ => False := by
  unfold evict
  rw [ends_bind, ends_get]
  have hcache : (s.executor.cache.evictCounted s.platform.profile).2.1 = s.cache.evict.2 := by
    unfold Cache.evictCounted ExecState.cache
    rcases s.executor.cache.evict with ⟨_ | a, c⟩
    · rfl
    · rfl
  rcases hcounted : s.executor.cache.evictCounted s.platform.profile with ⟨_ | a, c, profile⟩
  · rw [hcounted] at hcache
    exact hcache
  · rw [hcounted] at hcache
    dsimp only
    rw [ends_bind, ends_set, ends_bind, ends_discard, ends_tryBackend]
    have hrest : ∀ d : Device, (({ s with
        executor.cache := c, platform.profile := profile } : ExecState).withDevice d).cache =
        s.cache.evict.2 := fun _ => hcache
    cases Backend.release _ with
    | ok x d => exact hrest d
    | error e d => exact hrest d

/-- **Keeping** adds an artifact with the next identity, and does not fail. -/
theorem ends_keep_cache (signature : Signature) (x : Executable) (f : Function) :
    Ends (keep signature x f s) (fun id t => t.cache = s.cache.keep (.new id signature x f))
      fun _ _ => False := by
  have hrest : ∀ u : ExecState, Ends ((do
      let id := (← platform).nextArtifact
      modify fun (s : ExecState) => { s with
        executor.cache := s.executor.cache.insert (.new id signature x f)
        platform.nextArtifact := id + 1 }
      changePlatform (·.note (.compiled (← executor).cache.size f.graphSize))
      return id) u) (fun id t => t.cache = u.cache.insert (.new id signature x f))
      fun _ _ => False := fun u => rfl
  unfold keep Cache.keep
  rw [ends_bind, ends_executor]
  cases hfull : s.cache.isFull with
  | false => exact hrest s
  | true =>
    rw [if_pos rfl, if_pos rfl]
    dsimp only
    rw [ends_bind]
    refine (ends_evict_cache s).mono (fun _ t ht => ?_) fun _ _ h => h
    rw [← ht]
    exact hrest t

/-! ### Finding -/

/-- What finding or compiling the executable for a signature does. -/
structure Found (s : ExecState) (computed : Signature.Computed) (l : Lookup) (a : Artifact)
    (t : ExecState) : Prop where
  /-- The executor is the same. -/
  later : s.Later t
  /-- The output buffers are equal. -/
  outputs : t.outputs = s.outputs
  /-- The memories are equal. -/
  memory : t.memory = s.memory
  /-- It is the executable for this signature. -/
  signature : l.signature = computed.signature
  /-- It is a hit if the signature was listed. -/
  hit : l.hit = true ↔ computed.signature ∈ s.cache.order
  /-- The artifact is there. -/
  found : t.cache.get? l.artifact = some a
  /-- It has the signature. -/
  signature_eq : a.signature = computed.signature
  /-- It has the executable. -/
  executable : l.executable = a.executable
  /-- After a hit it is an artifact that was there before. -/
  before : l.hit = true → s.cache.get? l.artifact = some a
  /-- After a miss it is new, and made for these inputs. -/
  made : l.hit = false → l.artifact = s.platform.nextArtifact ∧
    t.platform.nextArtifact = s.platform.nextArtifact + 1 ∧
    s.executor.product? computed = some (a.function, a.executable) ∧
    a = .new l.artifact computed.signature a.executable a.function
  /-- After a miss it is the one that is kept. -/
  kept : l.hit = false → t.cache = s.cache.keep a
  /-- There is a miss only if the backend is registered. -/
  registered : l.hit = false → s.platform.isRegistered s.executor.unit.backendName = true
  /-- Every other artifact was there before. -/
  old : ∀ i b, i ≠ l.artifact → t.cache.get? i = some b → s.cache.get? i = some b
  /-- The parts of the cache agree. -/
  consistent : t.cache.Consistent
  /-- The signature is in front. -/
  order : t.cache.order = if l.hit then Cache.touch computed.signature s.cache.order else
    computed.signature :: if s.cache.isFull then s.cache.order.dropLast else s.cache.order
  /-- Copies are forgotten of an artifact that is gone, and of no other. -/
  registries : t.platform.registries = s.platform.registries ∨
    ∃ b, s.cache.get? b.id = some b ∧ t.cache.get? b.id = none ∧
      t.platform.registries = s.executor.tracker.update s.platform.registries (·.forget b.id)
  /-- They are forgotten of every artifact that is gone. -/
  forgotten : ∀ i b, s.cache.get? i = some b → t.cache.get? i = none →
    t.platform.registries = s.executor.tracker.update s.platform.registries (·.forget i)

/-- There is no executable for a signature: it is not listed, and nothing can be made of it, or what
can be made of it is refused. -/
def NotFound (s : ExecState) (computed : Signature.Computed) : Prop :=
  computed.signature ∉ s.cache.order ∧
    ∀ f x, s.executor.product? computed = some (f, x) → s.Refuses x.function

/-- The reasons if functions are made by lowering. -/
theorem NotFound.of_lowers {s : ExecState} {computed : Signature.Computed}
    (h : NotFound s computed) (hlowers : s.executor.Lowers) :
    (∃ e, s.executor.unit.lowered computed = .error e) ∨
      ∃ f, s.executor.unit.lowered computed = .ok f ∧ s.Refuses f := by
  cases hlowered : s.executor.unit.lowered computed with
  | error e => exact .inl ⟨e, rfl⟩
  | ok f => exact .inr ⟨f, rfl, h.2 f ⟨f⟩ (hlowers.product?_eq_some_iff.2 ⟨hlowered, rfl⟩)⟩

variable {computed : Signature.Computed}

theorem ends_useCached {c : Cache} {id : ArtifactId} (hcache : s.cache.Consistent)
    (hl : s.cache.lookup computed.signature = (some id, c)) :
    Ends (useCached id computed.signature { s with executor.cache := c })
      (fun l t => l.hit = true ∧ ∃ a, Found s computed l a t) fun _ _ => False := by
  obtain ⟨hconsistent, hindex, rfl⟩ := hcache.lookup hl
  obtain ⟨a, ha, hsignature⟩ := hcache.indexed _ _ hindex
  unfold useCached
  rw [ends_bind]
  refine ends_artifact.2 ⟨fun b hb => ?_, fun hnone => ?_⟩
  swap
  · cases hnone.symm.trans ha
  cases hb.symm.trans ha
  rw [ends_bind, ends_count, ends_bind, ends_changePlatform, ends_pure]
  have hmem : computed.signature ∈ s.cache.order := (hcache.listed _).2 (by rw [hindex]; rfl)
  refine ⟨rfl, a, { ExecState.Later.refl s with platform := s.platform.later_cacheEvent _ }, rfl,
    rfl, rfl, ⟨fun _ => hmem, fun _ => rfl⟩, ha, hsignature, rfl, fun _ => ha, nofun, nofun, nofun,
    fun _ _ _ hb => hb, hconsistent, rfl, .inl rfl, fun _ _ hb hgone => ?_⟩
  cases hgone.symm.trans hb

/-- An artifact that is compiled and kept while nothing else happens is found after a miss. -/
theorem found_of_kept {id : ArtifactId} {x : Executable} {f : Function} {t u : ExecState}
    (ht : s.Untouched t) (hu : Kept t (.new id computed.signature x f) u)
    (hkept : u.cache = t.cache.keep (.new id computed.signature x f))
    (hproduct : s.executor.product? computed = some (f, x))
    (hregistered : s.platform.isRegistered s.executor.unit.backendName = true)
    (hmem : computed.signature ∉ s.cache.order) :
    Found s computed ⟨id, x, computed.signature, false⟩ (.new id computed.signature x f) u where
  later := ht.later.trans hu.later
  outputs := hu.outputs.trans ht.outputs
  memory := hu.memory.trans ht.memory
  signature := rfl
  hit := ⟨nofun, fun h => absurd h hmem⟩
  found := hu.found
  signature_eq := rfl
  executable := rfl
  before := nofun
  made _ := ⟨hu.id.trans ht.nextArtifact, by rw [hu.nextArtifact, ht.nextArtifact], hproduct, rfl⟩
  kept _ := by rw [hkept, ht.cache]
  registered _ := hregistered
  old i b hi hb := by
    rw [← ht.cache]
    exact hu.old i b hi hb
  consistent := hu.consistent
  order := by
    rw [hu.order, ht.cache]
    exact (if_neg Bool.false_ne_true).symm
  registries := by
    rw [← ht.cache, ← ht.registries, ← ht.later.tracker]
    exact hu.registries
  forgotten i b hb hgone := by
    rw [← ht.registries, ← ht.later.tracker]
    exact hu.forgotten i b (ht.cache ▸ hb) hgone

theorem ends_compileNew (hcache : s.cache.Consistent)
    (hissued : ∀ i a, s.cache.get? i = some a → i < s.platform.nextArtifact)
    (hindex : s.cache.index.get? computed.signature = none) :
    Ends (compileNew computed s) (fun l t => l.hit = false ∧ ∃ a, Found s computed l a t)
      fun _ t => s.Untouched t ∧ NotFound s computed := by
  have hmem : computed.signature ∉ s.cache.order := fun h => by
    have := (hcache.listed _).1 h
    rw [hindex] at this
    cases this
  unfold compileNew
  rw [ends_bind, ends_count, ends_bind, ends_changePlatform, ends_bind]
  have hstart : s.Untouched { s with
      executor.stats := { s.executor.stats with misses := s.executor.stats.misses + 1 }
      platform := s.platform.cacheEvent "executable_cache_miss" } :=
    (ExecState.untouched_stats s _).trans
      (ExecState.untouched_platform (s.platform.later_cacheEvent _) rfl rfl rfl)
  refine (ends_obtainFunction (s := { s with
      executor.stats := { s.executor.stats with misses := s.executor.stats.misses + 1 }
      platform := s.platform.cacheEvent "executable_cache_miss" }) computed).mono
    (fun f t ht => ?_) fun _ t ht => ⟨hstart.trans ht.1.untouched, hmem, fun f x hx => ?_⟩
  swap
  · rw [Executor.product?_of_function?_eq_none (show s.executor.function? computed = none from ht.2)]
      at hx
    cases hx
  obtain ⟨htouched, hf⟩ := ht
  replace hf : s.executor.function? computed = some f := hf
  replace htouched := hstart.trans htouched.untouched
  -- Once there is a function, it is compiled and kept, whether it has been dumped or not.
  have hrest : ∀ u, s.Untouched u → Ends ((do
      let executable ← compile computed.signature f
      let id ← keep computed.signature executable f
      return (⟨id, executable, computed.signature, false⟩ : Lookup)) u)
      (fun l t => l.hit = false ∧ ∃ a, Found s computed l a t)
      fun _ t => s.Untouched t ∧ NotFound s computed := fun u hu => by
    have hexecutable : u.executor.executable? = s.executor.executable? := by
      funext signature g
      unfold Executor.executable?
      rw [hu.later.config]
    rw [ends_bind]
    refine (ends_compile computed.signature f).mono (fun x v hv => ?_)
      fun _ v hv => ⟨hu.trans hv.1, hmem, fun g x hx => ?_⟩
    swap
    · obtain ⟨hg, hx⟩ := Executor.product?_eq_some_iff.1 hx
      obtain rfl := Option.some.inj (hf.symm.trans hg)
      exact hu.refuses (hv.2 x (hexecutable ▸ hx))
    obtain ⟨hv, hx, hregistered⟩ := hv
    rw [hexecutable] at hx
    unfold Platform.isRegistered at hregistered
    rw [hu.later.platform.registered, hu.later.unit] at hregistered
    have huv := hu.trans hv
    rw [ends_bind]
    refine ((ends_keep (s := v) (by rw [huv.cache]; exact hcache) (fun i a ha => ?_)
      (by rw [huv.cache]; exact hindex) x f).and (ends_keep_cache computed.signature x f)).mono
      (fun id w hw => ?_) fun _ _ h => h.1.elim
    · rw [huv.nextArtifact]
      exact hissued i a (huv.cache ▸ ha)
    · exact ⟨rfl, _, found_of_kept huv hw.1 hw.2 (Executor.product?_eq_some_iff.2 ⟨hf, hx⟩)
        hregistered hmem⟩
  rw [ends_bind, ends_executor]
  dsimp only
  split
  · rw [ends_bind, ends_discard]
    generalize dumpPath t.executor.config.dumpDirectory t.executor.unit.name = path
    exact (aside_dump path f t).mono (fun _ u hu => hrest u (htouched.trans hu.untouched))
      fun _ _ h => h.elim
  · exact hrest t htouched

/-- **Finding or compiling the executable for some inputs.** -/
theorem ends_getExecutable (h : Compiled P s) (inputs : List HostBuffer) :
    Ends (getExecutable inputs s)
      (fun l t => ∃ computed a, Signature.compute s.executor.statics
        (inputs.map s.memory.read) = .ok computed ∧ Found s computed l a t)
      fun _ t => s.Untouched t ∧
        ((∃ e, Signature.compute s.executor.statics (inputs.map s.memory.read) = .error e) ∨
          ∃ computed, Signature.compute s.executor.statics (inputs.map s.memory.read) =
            .ok computed ∧ NotFound s computed) := by
  unfold getExecutable computeSignature
  rw [ends_bind, ends_bind, ends_get, ends_ofExcept]
  refine ⟨fun computed hcomputed => ?_, fun e he => ?_⟩
  · have hcompute := mapError_eq_ok.1 hcomputed
    rw [ends_bind, ends_get]
    rcases hl : s.executor.cache.lookup computed.signature with ⟨_ | id, c⟩
    · obtain ⟨hindex, rfl⟩ := Cache.lookup_eq_none hl
      dsimp only
      rw [ends_bind, ends_set]
      refine (ends_compileNew h.consistent h.issued hindex).mono (fun l t ht => ?_)
        fun _ t ht => ⟨ht.1, .inr ⟨computed, hcompute, ht.2⟩⟩
      obtain ⟨-, a, ha⟩ := ht
      exact ⟨computed, a, hcompute, ha⟩
    · dsimp only
      rw [ends_bind, ends_set]
      refine (ends_useCached h.consistent hl).mono (fun l t ht => ?_) fun _ _ hf => hf.elim
      obtain ⟨-, a, ha⟩ := ht
      exact ⟨computed, a, hcompute, ha⟩
  · refine ⟨.refl s, .inl ?_⟩
    cases hc : Signature.compute s.executor.statics (inputs.map s.memory.read) with
    | ok c =>
      rw [show s.platform.memory.read = s.memory.read from rfl, hc] at he
      cases he
    | error e' => exact ⟨e', rfl⟩

end ExecM

/-! ### What stays so -/

theorem Executor.Made.of_bare {e : Executor} {P : List Tensor → Prop} {a b : Artifact}
    (h : e.Made P a) (hb : b.bare = a.bare) : e.Made P b := by
  obtain ⟨ts, computed, hP, hcompute, hsignature, hproduct⟩ := h
  obtain ⟨-, hbsignature, hbexecutable, hbfunction⟩ := Artifact.bare_eq_iff.1 hb
  exact ⟨ts, computed, hP, hcompute, hsignature.trans hbsignature.symm,
    by rw [hbexecutable, hbfunction]; exact hproduct⟩

theorem ExecState.Later.lowers_iff {s t : ExecState} (hlater : s.Later t) :
    t.executor.Lowers ↔ s.executor.Lowers := by
  constructor
  · intro h
    exact ⟨hlater.translator ▸ h.translator, hlater.config ▸ h.table⟩
  · intro h
    exact ⟨hlater.translator.trans h.translator, hlater.config ▸ h.table⟩

theorem Executor.Made.of_later {s t : ExecState} {P : List Tensor → Prop} {a : Artifact}
    (h : s.executor.Made P a) (hlater : s.Later t) : t.executor.Made P a := by
  obtain ⟨ts, computed, hP, hcompute, hsignature, hproduct⟩ := h
  refine ⟨ts, computed, hP, by rw [hlater.statics]; exact hcompute, hsignature, ?_⟩
  rw [Executor.product?_congr hlater.unit hlater.translator hlater.config]
  exact hproduct

namespace Compiled

variable {P : List Tensor → Prop} {s t : ExecState}

/-- Other tensors for the artifacts leave the functions as they are. -/
theorem sameArtifacts (h : Compiled P s) (hlater : s.Later t) (ht : s.SameArtifacts t) :
    Compiled P t where
  consistent := by
    have hget : ∀ {i b}, t.cache.get? i = some b → ∃ a, s.cache.get? i = some a ∧
        b.bare = a.bare := fun hb => ht.get? hb
    refine ⟨ht.depth ▸ h.consistent.depth_pos, fun σ id hid => ?_, fun id b hb => ?_,
      ht.order ▸ h.consistent.nodup, fun σ => ?_, ?_, ?_⟩
    · rw [ht.index] at hid
      obtain ⟨a, ha, hσ⟩ := h.consistent.indexed σ id hid
      have hbare := ht.bare id
      rw [ha] at hbare
      obtain ⟨b, hb, hba⟩ := Option.map_eq_some_iff.1 hbare
      exact ⟨b, hb, (Artifact.bare_eq_iff.1 hba).2.1.trans hσ⟩
    · obtain ⟨a, ha, hba⟩ := hget hb
      obtain ⟨hid, hindex⟩ := h.consistent.kept id a ha
      obtain ⟨hbid, hbsignature, -⟩ := Artifact.bare_eq_iff.1 hba
      exact ⟨hbid.trans hid, by rw [ht.index, hbsignature, hindex]⟩
    · rw [ht.order, ht.index]
      exact h.consistent.listed σ
    · rw [ht.size, ht.order]
      exact h.consistent.size_eq
    · rw [ht.size, ht.depth]
      exact h.consistent.size_le
  issued i b hb := by
    obtain ⟨a, ha, -⟩ := ht.get? hb
    exact Nat.lt_of_lt_of_le (h.issued i a ha) hlater.platform.nextArtifact
  made i b hb := by
    obtain ⟨a, ha, hba⟩ := ht.get? hb
    exact ((h.made i a ha).of_bare hba).of_later hlater

theorem of_executor_eq {P : List Tensor → Prop} {s t : ExecState} (h : Compiled P s)
    (hexecutor : t.executor = s.executor)
    (hnext : s.platform.nextArtifact ≤ t.platform.nextArtifact) : Compiled P t where
  consistent := by
    unfold ExecState.cache
    rw [hexecutor]
    exact h.consistent
  issued i a ha := by
    unfold ExecState.cache at ha
    rw [hexecutor] at ha
    exact Nat.lt_of_lt_of_le (h.issued i a ha) hnext
  made i a ha := by
    unfold ExecState.cache at ha
    rw [hexecutor] at ha ⊢
    exact h.made i a ha

/-- After a look-up for inputs that satisfy `P`, every artifact was made for such inputs. -/
theorem found (h : Compiled P s) {inputs : List HostBuffer} {computed : Signature.Computed}
    {l : Lookup} {a : Artifact} (hP : P (inputs.map s.memory.read))
    (hcompute : Signature.compute s.executor.statics (inputs.map s.memory.read) = .ok computed)
    (hfound : ExecM.Found s computed l a t) : Compiled P t where
  consistent := hfound.consistent
  issued i b hb := by
    by_cases hi : i = l.artifact
    · cases hhit : l.hit with
      | true =>
        rw [hi] at hb ⊢
        rw [hfound.found] at hb
        cases hb
        exact Nat.lt_of_lt_of_le (h.issued _ a (hfound.before hhit))
          hfound.later.platform.nextArtifact
      | false =>
        obtain ⟨hid, hnext, -⟩ := hfound.made hhit
        rw [hi, hid, hnext]
        exact Nat.lt_succ_self _
    · exact Nat.lt_of_lt_of_le (h.issued i b (hfound.old i b hi hb))
        hfound.later.platform.nextArtifact
  made i b hb := by
    by_cases hi : i = l.artifact
    · rw [hi, hfound.found] at hb
      cases hb
      cases hhit : l.hit with
      | true => exact (h.made _ a (hfound.before hhit)).of_later hfound.later
      | false =>
        obtain ⟨-, -, hproduct, -⟩ := hfound.made hhit
        exact Executor.Made.of_later (s := s) ⟨inputs.map s.memory.read, computed, hP, hcompute,
          hfound.signature_eq.symm, hproduct⟩ hfound.later
    · exact (h.made i b (hfound.old i b hi hb)).of_later hfound.later

end Compiled

/-- An executor that has just been built has no artifacts. -/
theorem compiled_of_built {P : List Tensor → Prop} {r : BuildRequest} {p : Platform}
    {s : ExecState} (h : r.Built p s.executor) : Compiled P s := by
  have hcache : s.cache = .new s.executor.config.cacheDepth := h.cache
  have hnone : ∀ i a, s.cache.get? i ≠ some a := fun i a ha => by
    rw [hcache] at ha
    cases ha
  exact ⟨hcache ▸ Cache.consistent_new _, fun i a ha => absurd ha (hnone i a),
    fun i a ha => absurd ha (hnone i a)⟩

/-! ### Inputs of given element types -/

/-- **What is found for inputs can be called with them**, if the executor makes such things for the
element types of their positions. -/
theorem Compiled.suits_of_found {δ : Nat → DType} {s t : ExecState} {inputs : List HostBuffer}
    {computed : Signature.Computed} {l : Lookup} {a : Artifact} (h : Compiled (HasDTypes δ) s)
    (hsuits : s.executor.Suits δ) (hδ : HasDTypes δ (inputs.map s.memory.read))
    (hcompute : Signature.compute s.executor.statics (inputs.map s.memory.read) = .ok computed)
    (hfound : ExecM.Found s computed l a t) :
    a.executable.function.Typed ∧ a.executable.function.parameters = computed.specs := by
  cases hhit : l.hit with
  | false => exact hsuits _ computed _ _ hδ hcompute (hfound.made hhit).2.2.1
  | true =>
    obtain ⟨ts, made, hts, hmade, hsignature, hproduct⟩ := h.made _ a (hfound.before hhit)
    rw [hδ.specs_eq hts hcompute hmade (hfound.signature_eq.symm.trans hsignature.symm)]
    exact hsuits ts made _ _ hts hmade hproduct

/-- **Where every position keeps its element type**, an artifact holds what lowering makes for
the inputs that it is found for. -/
theorem Compiled.lowered_of_found {δ : Nat → DType} {s t : ExecState} {inputs : List HostBuffer}
    {computed : Signature.Computed} {l : Lookup} {a : Artifact} (h : Compiled (HasDTypes δ) s)
    (hlowers : s.executor.Lowers) (hδ : HasDTypes δ (inputs.map s.memory.read))
    (hcompute : Signature.compute s.executor.statics (inputs.map s.memory.read) = .ok computed)
    (hfound : ExecM.Found s computed l a t) :
    s.executor.unit.lowered computed = .ok a.function ∧ a.executable = ⟨a.function⟩ := by
  cases hhit : l.hit with
  | false => exact hlowers.product?_eq_some_iff.1 (hfound.made hhit).2.2.1
  | true =>
    obtain ⟨ts, made, hts, hmade, hsignature, hproduct⟩ := h.made _ a (hfound.before hhit)
    obtain ⟨hlowered, hexecutable⟩ := hlowers.product?_eq_some_iff.1 hproduct
    have hsame : made.signature = computed.signature := hsignature.trans hfound.signature_eq
    rw [← Signature.lowered_eq_of_signature_eq s.executor.unit hmade hcompute hsame
      (hts.dtypes_eq hδ (Signature.length_eq_of_signature_eq hmade hcompute hsame)), hlowered]
    exact ⟨rfl, hexecutable⟩

end TensorJit
