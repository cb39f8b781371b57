import TensorJit.Proofs.Backend
import TensorJit.Proofs.Cache
import TensorJit.Proofs.Executor.State

/-!
# What a step of an executor keeps

An executor moves in few ways. It does something to the platform that concerns no executables, it
counts something, it takes other output buffers, and it gives an artifact other tensors in its
slots, or another pipeline; and when it finds or compiles, it does anything whatever. A relation
that allows such a move holds between the states before and after **every step that is made of
such moves**:

| | what it allows | what keeps it |
|---|---|---|
| `Moves` | the first three | steps that leave the cache alone |
| `SlotMoves` | other tensors in slots too | steps with tensors from slots |
| `TensorMoves` | other pipelines too | all but finding and compiling |
| `CacheMoves` | everything else | every step |

None of them has to allow that an input is copied from the host, or that a tracker of copies is told
something: a relation that allows the one is one of `CopyMoves`, a relation that allows the other is
one of `TellMoves`, and the steps that copy or tell ask for that in addition
(`Request.keeps_perform`).

Relations of these kinds are that the caches are equal (`ExecState.SameCache`), that they are equal
but for the tensors of the artifacts (`ExecState.SameArtifacts`), and that the executor is the one
that was built and memory has only grown (`ExecState.Later`).
-/

namespace TensorJit

/-- A platform is another after steps of an executor. -/
structure Platform.Later (p q : Platform) : Prop where
  /-- There are as many backends. -/
  backends : q.backends.size = p.backends.size
  /-- Their classes and modes are the same. -/
  kind : ∀ id, (q.backend id).kind = (p.backend id).kind
  /-- One that was not to fail then is not to fail now. -/
  quiet : ∀ id, (p.backend id).Quiet → (q.backend id).Quiet
  /-- They are registered under the same names. -/
  registered : q.registered = p.registered
  /-- There are as many registries of fresh copies. -/
  registries : q.registries.size = p.registries.size
  /-- Identities of artifacts are used up. -/
  nextArtifact : p.nextArtifact ≤ q.nextArtifact
  /-- Memory has only grown. -/
  memory : p.memory.Extends q.memory

/-- Hits, misses and evictions. -/
def Profile.lookups (p : Profile) : Nat × Nat × Nat :=
  (p.cacheCount "executable_cache_hit", p.cacheCount "executable_cache_miss",
    p.cacheCount "executable_cache_evict")

/-- How often an input has been copied. -/
def Profile.copies (p : Profile) : Nat := p.cacheCount "input_copy"

/-- A platform is another after steps that concern no executables. -/
structure Platform.Steady (p q : Platform) : Prop extends Platform.Later p q where
  /-- The backends have the same executables. -/
  use : ∀ id, (q.backend id).counters.use = (p.backend id).counters.use
  /-- Nothing has been looked up, and nothing evicted. -/
  lookups : q.profile.lookups = p.profile.lookups

/-- A platform is another after steps that copy nothing from the host. -/
structure Platform.Unwritten (p q : Platform) : Prop extends Platform.Later p q where
  /-- Nothing has been written to any backend. -/
  written : ∀ id, (q.backend id).counters.written = (p.backend id).counters.written
  /-- No input has been copied. -/
  copies : q.profile.copies = p.profile.copies

/-- A platform is another after steps that concern no executables and copy nothing. -/
structure Platform.Calm (p q : Platform) : Prop extends Platform.Steady p q, Platform.Unwritten p q

/-- Hits, misses, functions compiled, executables loaded, and evictions. -/
def Stats.tally (x : Stats) : Nat × Nat × Nat × Nat × Nat :=
  (x.hits, x.misses, x.compiles, x.loads, x.evictions)

/-- Inputs copied, and their bytes. -/
def Stats.copied (x : Stats) : Nat × Nat := (x.inputCopies, x.bytesCopied)

/-- A state is another after steps of the executor. -/
structure ExecState.Later (s t : ExecState) : Prop where
  /-- The unit is the same. -/
  unit : t.executor.unit = s.executor.unit
  /-- The backend is the same. -/
  backend : t.executor.backend = s.executor.backend
  /-- Functions are made in the same way. -/
  translator : t.executor.translator = s.executor.translator
  /-- The same tracker is asked. -/
  tracker : t.executor.tracker = s.executor.tracker
  /-- The same inputs are static. -/
  statics : t.executor.statics = s.executor.statics
  /-- The configuration is the same. -/
  config : t.executor.config = s.executor.config
  /-- As many artifacts are allowed. -/
  depth : t.cache.depth = s.cache.depth
  /-- What is shared. -/
  platform : s.platform.Later t.platform

namespace Platform

theorem Later.refl (p : Platform) : p.Later p :=
  ⟨rfl, fun _ => rfl, fun _ => id, rfl, rfl, Nat.le_refl _, .refl p.memory⟩

theorem Later.trans {p q r : Platform} (h : p.Later q) (h' : q.Later r) : p.Later r :=
  ⟨h'.backends.trans h.backends, fun id => (h'.kind id).trans (h.kind id),
    fun id => h'.quiet id ∘ h.quiet id, h'.registered.trans h.registered,
    h'.registries.trans h.registries, Nat.le_trans h.nextArtifact h'.nextArtifact,
    h.memory.trans h'.memory⟩

theorem Steady.refl (p : Platform) : p.Steady p := ⟨.refl p, fun _ => rfl, rfl⟩

theorem Steady.trans {p q r : Platform} (h : p.Steady q) (h' : q.Steady r) : p.Steady r :=
  ⟨h.toLater.trans h'.toLater, fun id => (h'.use id).trans (h.use id), h'.lookups.trans h.lookups⟩

theorem Unwritten.refl (p : Platform) : p.Unwritten p := ⟨.refl p, fun _ => rfl, rfl⟩

theorem Calm.refl (p : Platform) : p.Calm p := ⟨.refl p, fun _ => rfl, rfl⟩

/-- Memory may grow in every step. -/
theorem calm_setMemory {p : Platform} {m : Memory} (h : p.memory.Extends m) :
    p.Calm { p with memory := m } := { Calm.refl p with memory := h }

/-- After a step of one backend, all others are as they were. -/
theorem backend_withDevice (p : Platform) (id j : BackendId) (d : Device) :
    (p.withDevice id d).backend j =
      if j = id ∧ id < p.backends.size then d.backend else p.backend j := by
  unfold withDevice backend
  rw [Array.getD_eq_getD_getElem?, Array.getD_eq_getD_getElem?, Array.getElem?_setIfInBounds]
  by_cases hj : j = id
  · subst hj
    by_cases hlt : j < p.backends.size
    · simp [hlt]
    · simp [hlt]
  · rw [if_neg (Ne.symm hj), if_neg fun h => hj h.1]

/-- **A step of a backend is a step of the platform**, and keeps of the others what it keeps of this
one. -/
theorem later_withDevice {p : Platform} {id : BackendId} {d : Device}
    (h : (p.device id).Later d) : p.Later (p.withDevice id d) where
  backends := Array.size_setIfInBounds
  kind j := by
    rw [backend_withDevice]
    split
    · rename_i hj
      rw [hj.1]
      exact h.kind
    · rfl
  quiet j hquiet := by
    rw [backend_withDevice]
    split
    · rename_i hj
      exact h.quiet (hj.1 ▸ hquiet)
    · exact hquiet
  registered := rfl
  registries := rfl
  nextArtifact := Nat.le_refl _
  memory := h.memory

/-- So is one that concerns no executables. -/
theorem steady_withDevice {p : Platform} {id : BackendId} {d : Device}
    (h : (p.device id).Steady d) : p.Steady (p.withDevice id d) where
  toLater := later_withDevice h.toLater
  use j := by
    rw [backend_withDevice]
    split
    · rename_i hj
      rw [hj.1]
      exact h.use
    · rfl
  lookups := rfl

/-- So is one that copies nothing. -/
theorem unwritten_withDevice {p : Platform} {id : BackendId} {d : Device}
    (h : (p.device id).Unwritten d) : p.Unwritten (p.withDevice id d) where
  toLater := later_withDevice h.toLater
  written j := by
    rw [backend_withDevice]
    split
    · rename_i hj
      rw [hj.1]
      exact h.written
    · rfl
  copies := rfl

theorem calm_withDevice {p : Platform} {id : BackendId} {d : Device}
    (h : (p.device id).Calm d) : p.Calm (p.withDevice id d) :=
  { steady_withDevice h.toSteady, unwritten_withDevice h.toUnwritten with }

/-- Storing the bytes of a result in a host buffer is no copy from the host. -/
theorem calm_setBytes (p : Platform) (b : HostBuffer) (bytes : Bytes) :
    p.Calm (p.setBytes b bytes) := calm_setMemory (p.memory.extends_setStorage _ _)

/-- A tracker may be told anything: that there are as many registries is all that is said of them.
-/
theorem calm_tell (p : Platform) (t : Tracker)
    (change : FreshnessRegistry → FreshnessRegistry) : p.Calm (p.tell t change) :=
  { Calm.refl p with
    registries := by
      cases t with
      | never => rfl
      | registry number => exact Array.size_modify }

theorem later_cacheEvent (p : Platform) (name : String) : p.Later (p.cacheEvent name) :=
  { Later.refl p with }

/-- Counting an event is no copy, unless copies are what is counted. -/
theorem unwritten_cacheEvent (p : Platform) {name : String} (h : name ≠ "input_copy") :
    p.Unwritten (p.cacheEvent name) :=
  { Unwritten.refl p with
    copies := (Profile.countIn_increment _ _ _).trans (if_neg h.symm) }

/-- Counting a copy is no look-up. -/
theorem steady_inputCopy (p : Platform) : p.Steady (p.cacheEvent "input_copy") :=
  { Steady.refl p with
    lookups := by
      change Profile.lookups (p.profile.cacheEvent "input_copy") = _
      unfold Profile.lookups Profile.cacheCount Profile.cacheEvent
      simp }

theorem calm_compileStep (p : Platform) (name : String) : p.Calm (p.compileStep name) :=
  { Calm.refl p with }

theorem calm_note (p : Platform) (entry : LogEntry) : p.Calm (p.note entry) :=
  { Calm.refl p with }

/-- A file for inspection concerns nobody else, whether or not it can be written. -/
theorem calm_dump (p : Platform) (path : FilePath) (f : Function) :
    p.Calm (p.dump path f).2 := by
  unfold dump
  dsimp only
  split
  · exact { Calm.refl p with }
  · exact { Calm.refl p with }

/-- Nor does it concern any registry. -/
theorem registries_dump (p : Platform) (path : FilePath) (f : Function) :
    (p.dump path f).2.registries = p.registries := by
  unfold dump
  dsimp only
  split
  · rfl
  · rfl

end Platform

namespace ExecState

theorem Later.refl (s : ExecState) : s.Later s :=
  ⟨rfl, rfl, rfl, rfl, rfl, rfl, rfl, .refl s.platform⟩

theorem Later.trans {s t u : ExecState} (h : s.Later t) (h' : t.Later u) : s.Later u :=
  ⟨h'.unit.trans h.unit, h'.backend.trans h.backend, h'.translator.trans h.translator,
    h'.tracker.trans h.tracker, h'.statics.trans h.statics, h'.config.trans h.config,
    h'.depth.trans h.depth, h.platform.trans h'.platform⟩

/-- The backend of the executor stays of its kind. -/
theorem Later.kind_eq {s t : ExecState} (h : s.Later t) : t.kind = s.kind := by
  unfold kind device Platform.device
  rw [h.backend]
  exact h.platform.kind _

end ExecState

/-! ### Relations that allow what a step does -/

/-- The artifact without its tensors. -/
def Artifact.bare (a : Artifact) : Artifact := .new a.id a.signature a.executable a.function

/-- What is left of an artifact without its tensors. -/
theorem Artifact.bare_eq_iff {a b : Artifact} : b.bare = a.bare ↔ b.id = a.id ∧
    b.signature = a.signature ∧ b.executable = a.executable ∧ b.function = a.function := by
  unfold bare new
  simp

/-- The state with the output buffers made ready for results with the given specs. -/
def ExecState.prepared (s : ExecState) (specs : List TensorSpec) : ExecState :=
  { s with
    outputs := (s.outputs.prepare specs s.memory).1.2
    platform.memory := (s.outputs.prepare specs s.memory).2 }

/-- A relation that allows every step which leaves the cache alone, concerns no executables, copies
nothing and tells no tracker anything. -/
class Moves (T : ExecState → ExecState → Prop) : Prop where
  /-- Nothing happens. -/
  refl : ∀ s, T s s
  /-- One thing happens after another. -/
  trans : ∀ {s t u}, T s t → T t u → T s u
  /-- Something happens to the platform that concerns no executables, copies nothing and is told to no
  tracker. -/
  calm : ∀ s p, s.platform.Calm p → p.registries = s.platform.registries →
    T s { s with platform := p }
  /-- Something else is counted than executables and copies. -/
  counted : ∀ s x, x.tally = s.executor.stats.tally → x.copied = s.executor.stats.copied →
    T s { s with executor.stats := x }
  /-- The output buffers are made ready. -/
  prepared : ∀ s specs, T s (s.prepared specs)

/-- A relation that allows in addition that an artifact gets other tensors in its slots. -/
class SlotMoves (T : ExecState → ExecState → Prop) : Prop extends Moves T where
  /-- An artifact gets other tensors in its slots. -/
  slots : ∀ (s : ExecState) (id : ArtifactId) (a b : Artifact), s.cache.get? id = some a →
    b.bare = a.bare → b.pipeline = a.pipeline →
    T s { s with executor.cache := s.cache.update id b }

/-- A relation that allows in addition that an artifact gets another pipeline. -/
class TensorMoves (T : ExecState → ExecState → Prop) : Prop extends SlotMoves T where
  /-- An artifact gets other tensors. -/
  tensors : ∀ (s : ExecState) (id : ArtifactId) (a b : Artifact), s.cache.get? id = some a →
    b.bare = a.bare → T s { s with executor.cache := s.cache.update id b }
  slots := fun s id a b ha hb _ => tensors s id a b ha hb

/-- A relation that allows every step that copies nothing. -/
class CacheMoves (T : ExecState → ExecState → Prop) : Prop extends TensorMoves T where
  /-- Something happens to the platform that copies nothing. -/
  shared : ∀ s p, s.platform.Unwritten p → T s { s with platform := p }
  /-- Something else is counted than copies. -/
  stats : ∀ s x, x.copied = s.executor.stats.copied → T s { s with executor.stats := x }
  /-- There are other artifacts, and as many of them are allowed. -/
  cache : ∀ (s : ExecState) (c : Cache), c.depth = s.cache.depth →
    T s { s with executor.cache := c }
  calm := fun s p h _ => shared s p h.toUnwritten
  counted := fun s x _ h => stats s x h

/-- A relation that allows that inputs are copied. -/
class CopyMoves (T : ExecState → ExecState → Prop) : Prop where
  /-- Something is written to a backend, and the copy is counted. -/
  steady : ∀ s p, s.platform.Steady p → p.registries = s.platform.registries →
    T s { s with platform := p }
  /-- Copies are counted in the statistics. -/
  recounted : ∀ s x, x.tally = s.executor.stats.tally → T s { s with executor.stats := x }

/-- A relation that allows that the tracker of the executor is told what happens to buffers. -/
class TellMoves (T : ExecState → ExecState → Prop) : Prop where
  /-- A copy of a buffer has been made for an artifact. -/
  marked : ∀ (s : ExecState) (id : ArtifactId) (a : Artifact) (storage : StorageId),
    s.cache.get? id = some a →
    T s { s with platform := s.platform.tell s.executor.tracker (·.mark storage id) }
  /-- A buffer has changed. -/
  invalidated : ∀ (s : ExecState) (storage : StorageId),
    T s { s with platform := s.platform.tell s.executor.tracker (·.invalidate storage) }

/-- A relation that allows everything that may happen to the platform allows what is told to
trackers. -/
instance {T : ExecState → ExecState → Prop} [CacheMoves T] : TellMoves T where
  marked s _ _ _ _ := CacheMoves.shared s _ (s.platform.calm_tell _ _).toUnwritten
  invalidated s _ := CacheMoves.shared s _ (s.platform.calm_tell _ _).toUnwritten

instance {T : ExecState → ExecState → Prop} [Moves T] : Std.Refl T := ⟨Moves.refl⟩

instance {T : ExecState → ExecState → Prop} [Moves T] : IsTrans ExecState T :=
  ⟨fun _ _ _ => Moves.trans⟩

/-- Making output buffers ready allocates at most. -/
theorem extends_refit (buffers : List HostBuffer) (specs : List TensorSpec) (m : Memory) :
    m.Extends (OutputBuffers.refit buffers specs m).2 := by
  induction specs generalizing buffers m with
  | nil =>
    unfold OutputBuffers.refit
    exact .refl m
  | cons spec specs ih =>
    unfold OutputBuffers.refit
    cases buffers.head?.filter (·.spec = spec) with
    | some b => exact ih buffers.tail m
    | none => exact (m.extends_allocate (.zeros spec)).trans (ih buffers.tail _)

namespace ExecState

instance : CacheMoves Later where
  refl := Later.refl
  trans := Later.trans
  shared s _ h := { Later.refl s with platform := h.toLater }
  stats s _ _ := { Later.refl s with }
  prepared s specs := { Later.refl s with
    platform := (Platform.calm_setMemory (extends_refit s.outputs.buffers specs s.memory)).toLater }
  tensors s _ _ _ _ _ := { Later.refl s with }
  cache s _ h := { Later.refl s with depth := h }

instance : CopyMoves Later where
  steady s _ h _ := { Later.refl s with platform := h.toLater }
  recounted s _ _ := { Later.refl s with }

/-- The caches are equal. -/
def SameCache (s t : ExecState) : Prop := t.cache = s.cache

instance : Moves SameCache where
  refl _ := rfl
  trans h h' := Eq.trans h' h
  calm _ _ _ _ := rfl
  counted _ _ _ _ := rfl
  prepared _ _ := rfl

instance : CopyMoves SameCache where
  steady _ _ _ _ := rfl
  recounted _ _ _ := rfl

/-- The caches are equal but for the tensors of the artifacts. -/
structure SameArtifacts (s t : ExecState) : Prop where
  /-- As many artifacts are allowed. -/
  depth : t.cache.depth = s.cache.depth
  /-- The indices are equal. -/
  index : t.cache.index = s.cache.index
  /-- The orders are equal. -/
  order : t.cache.order = s.cache.order
  /-- There are as many artifacts. -/
  size : t.cache.size = s.cache.size
  /-- They are the same without their tensors. -/
  bare : ∀ i, (t.cache.get? i).map Artifact.bare = (s.cache.get? i).map Artifact.bare

/-- Equal caches are equal but for tensors. -/
theorem SameArtifacts.of_cache_eq {s t : ExecState} (h : t.cache = s.cache) :
    s.SameArtifacts t := ⟨by rw [h], by rw [h], by rw [h], by rw [h], fun _ => by rw [h]⟩

/-- An artifact that gets other tensors is the same artifact. -/
theorem sameArtifacts_update {s : ExecState} {id : ArtifactId} {a b : Artifact}
    (ha : s.cache.get? id = some a) (hb : b.bare = a.bare) :
    s.SameArtifacts { s with executor.cache := s.cache.update id b } := by
  refine ⟨rfl, rfl, rfl, SortedMap.size_modify _ _ _, fun i => ?_⟩
  rw [show ExecState.cache { s with executor.cache := s.cache.update id b } =
    s.cache.update id b from rfl, Cache.get?_update]
  split
  · rename_i hi
    rw [hi, ha]
    exact congrArg some hb
  · rfl

instance : TensorMoves SameArtifacts where
  refl _ := .of_cache_eq rfl
  trans h h' := ⟨h'.depth.trans h.depth, h'.index.trans h.index, h'.order.trans h.order,
    h'.size.trans h.size, fun i => (h'.bare i).trans (h.bare i)⟩
  calm _ _ _ _ := .of_cache_eq rfl
  counted _ _ _ _ := .of_cache_eq rfl
  prepared _ _ := .of_cache_eq rfl
  tensors _ _ _ _ ha hb := sameArtifacts_update ha hb

instance : CopyMoves SameArtifacts where
  steady _ _ _ _ := .of_cache_eq rfl
  recounted _ _ _ := .of_cache_eq rfl

instance : TellMoves SameArtifacts where
  marked _ _ _ _ _ := .of_cache_eq rfl
  invalidated _ _ := .of_cache_eq rfl

/-- The artifacts afterwards are those before, with other tensors. -/
theorem SameArtifacts.get? {s t : ExecState} (h : s.SameArtifacts t) {i : ArtifactId}
    {b : Artifact} (hb : t.cache.get? i = some b) :
    ∃ a, s.cache.get? i = some a ∧ b.bare = a.bare := by
  have hbare := h.bare i
  rw [hb] at hbare
  obtain ⟨a, ha, hab⟩ := Option.map_eq_some_iff.1 hbare.symm
  exact ⟨a, ha, hab.symm⟩

end ExecState

namespace ExecM

open ExecState (Later SameCache)

variable {α : Type} {T : ExecState → ExecState → Prop}

section Moves

variable [Moves T]

/-! ### The parts of a step -/

/-- A change of the platform may happen if every such change may. -/
theorem keeps_changePlatform {change : Platform → Platform}
    (h : ∀ p : Platform, p.Calm (change p)) (h' : ∀ p, (change p).registries = p.registries) :
    Keeps T (changePlatform change) :=
  keeps_modify fun s => Moves.calm s _ (h s.platform) (h' s.platform)

/-- So may a change of the statistics that concerns neither executables nor copies. -/
theorem keeps_count {change : Stats → Stats} (h : ∀ x, (change x).tally = x.tally)
    (h' : ∀ x, (change x).copied = x.copied) : Keeps T (count change) :=
  keeps_modify fun s => Moves.counted s _ (h _) (h' _)

omit [Moves T] in
/-- Where copies may be made, they may be counted too. -/
theorem keeps_recount [CopyMoves T] {change : Stats → Stats}
    (h : ∀ x, (change x).tally = x.tally) : Keeps T (count change) :=
  keeps_modify fun s => CopyMoves.recounted s _ (h _)

theorem keeps_executor : Keeps T executor := keeps_get.bind fun _ => keeps_pure _

theorem keeps_platform : Keeps T platform := keeps_get.bind fun _ => keeps_pure _

theorem keeps_kind : Keeps T kind := keeps_get.bind fun _ => keeps_pure _

theorem keeps_fail (fault : InternalFault) : Keeps T (fail fault : ExecM α) :=
  keeps_executor.bind fun _ => keeps_throw _

theorem keeps_ofExcept (x : Except Error α) : Keeps T (ofExcept x) := by
  cases x with
  | ok a => exact keeps_pure a
  | error e => exact keeps_throw e

omit [Moves T] in
/-- To look at how a step ends does not change what it does. -/
theorem keeps_observe {x : ExecM α} (h : Keeps T x) : Keeps T (observe x) :=
  fun s => ends_observe.2 (h s)

/-- **A step of the backend** that concerns no executables and copies nothing. -/
theorem keeps_tryBackend {step : BackendM α} (h : Keeps Device.Calm step) :
    Keeps T (tryBackend step) := fun s =>
  ends_tryBackend.2 ((h s.device).mono
    (fun _ _ hd => Moves.calm s _ (Platform.calm_withDevice hd) rfl)
    fun _ _ hd => Moves.calm s _ (Platform.calm_withDevice hd) rfl)

/-- The same step, whose error has become one of the executor. -/
theorem keeps_onBackend {step : BackendM α} {fault : BackendError → InternalFault}
    (h : Keeps Device.Calm step) : Keeps T (onBackend fault step) :=
  (keeps_tryBackend h).bind fun result => by
    cases result with
    | ok a => exact keeps_pure a
    | error e => exact keeps_fail _

theorem keeps_artifact (id : ArtifactId) : Keeps T (artifact id) :=
  keeps_executor.bind fun e => by
    cases e.cache.get? id with
    | some a => exact keeps_pure a
    | none => exact keeps_fail _

/-! ### Finding and compiling -/

theorem keeps_computeSignature (inputs : List HostBuffer) :
    Keeps T (computeSignature inputs) := keeps_get.bind fun _ => keeps_ofExcept _

/-- **A function is read or made**, and the making is counted. Nothing is compiled yet. -/
theorem keeps_obtainFunction (computed : Signature.Computed) :
    Keeps T (obtainFunction computed) := by
  refine keeps_executor.bind fun e => ?_
  split
  · split
    · exact keeps_pure _
    · exact keeps_throw _
    · exact keeps_throw _
  · exact keeps_throw _
  · exact (keeps_changePlatform (fun p => p.calm_compileStep _) fun _ => rfl).bind fun _ =>
      (keeps_ofExcept _).bind fun _ => keeps_pure _

/-- A function is written to a file for inspection. -/
theorem keeps_dump (path : FilePath) (f : Function) : Keeps T (dump path f) := fun s =>
  Moves.calm s _ (s.platform.calm_dump path f) (s.platform.registries_dump path f)

theorem keeps_serializedFor (signature : Signature) : Keeps T (serializedFor signature) := by
  refine keeps_executor.bind fun e => ?_
  split
  · exact keeps_pure _
  · split
    · exact keeps_pure _
    · exact keeps_throw _

/-! ### Copying, calling and reading -/

/-- **An input is copied**: the backend writes it, and the copy is counted. This is where copies
have to be allowed. -/
theorem keeps_writeInput [CopyMoves T] (position : Nat) (tensor : TensorId) (host : HostBuffer) :
    Keeps T (writeInput position tensor host) := by
  refine keeps_platform.bind fun p => ?_
  dsimp only
  have hwrite : ∀ bytes : Bytes,
      Keeps T (onBackend (.transfer position) (Backend.write tensor bytes 0)) := by
    intro bytes
    have hdevice := Backend.keeps_write tensor bytes 0
    have htry : Keeps T (tryBackend (Backend.write tensor bytes 0)) := fun s =>
      ends_tryBackend.2 ((hdevice s.device).mono
        (fun _ _ hd => CopyMoves.steady s _ (Platform.steady_withDevice hd) rfl)
        fun _ _ hd => CopyMoves.steady s _ (Platform.steady_withDevice hd) rfl)
    refine htry.bind fun result => ?_
    cases result with
    | ok a => exact keeps_pure a
    | error e => exact keeps_fail _
  have hevent : Keeps T (changePlatform (·.cacheEvent "input_copy")) :=
    keeps_modify fun s => CopyMoves.steady s _ s.platform.steady_inputCopy rfl
  have hrest : ∀ (needed : Nat) (bytes : Bytes), Keeps T (do
      onBackend (.transfer position) (Backend.write tensor bytes 0)
      changePlatform (·.cacheEvent "input_copy")
      return needed) := fun needed bytes =>
    (hwrite bytes).bind fun _ => hevent.bind fun _ => keeps_pure needed
  split
  · exact (keeps_fail _).bind fun _ => hrest _ _
  · exact hrest _ _

/-- An output is read, and stored in its host buffer. -/
theorem keeps_readOutput (position : Nat) (tensor : TensorId) (host : HostBuffer) :
    Keeps T (readOutput position tensor host) :=
  keeps_platform.bind fun _ => (keeps_onBackend (Backend.keeps_read _ _ _)).bind fun bytes =>
    keeps_changePlatform (fun p => p.calm_setBytes host bytes) fun _ => rfl

theorem keeps_makeRow (e : Executable) (side : Side) (position : Nat) :
    Keeps T (makeRow e side position) :=
  keeps_executor.bind fun _ => keeps_onBackend (Backend.keeps_createPipelined _ _ _ _)

/-- **The tensors of a pipeline** are made row by row. That the rows may be refused afterwards does
not undo this. -/
theorem keeps_makePipeline (e : Executable) : Keeps T (makePipeline e) := by
  refine (Keeps.mapM (keeps_makeRow e .input) _).bind fun ins =>
    (Keeps.mapM (keeps_makeRow e .output) _).bind fun outs => keeps_executor.bind fun x => ?_
  cases Pipeline.ofRows ins outs x.config.pipelineDepth with
  | ok p => exact keeps_pure p
  | error fault => exact keeps_fail _

theorem keeps_markStale (tensor : TensorId) : Keeps T (markStale tensor) :=
  (keeps_tryBackend (Backend.keeps_setStale _ _)).discard

/-- An input is copied to the tensor of a group, unless it is bound elsewhere. -/
theorem keeps_feedInput [CopyMoves T] (group : PipelineGroup TensorId) (position : Nat)
    (host : HostBuffer) :
    Keeps T (feedInput group position host) := by
  refine keeps_executor.bind fun e => ?_
  split
  · exact keeps_pure _
  · split
    · exact keeps_fail _
    · exact (keeps_markStale _).bind fun _ => (keeps_writeInput _ _ _).bind fun _ => keeps_pure _

theorem keeps_offerOutput (position : Nat) (tensor : TensorId) :
    Keeps T (offerOutput position tensor) := by
  refine keeps_executor.bind fun e => ?_
  split
  · exact keeps_pure _
  · exact (keeps_markStale _).bind fun _ => keeps_pure _

/-- Output buffers are made ready, which is one of the moves. -/
theorem keeps_prepareOutputs (specs : List TensorSpec) : Keeps T (prepareOutputs specs) :=
  fun s => Moves.prepared s specs

/-- The executable is called. -/
theorem keeps_callExecutable (e : Executable) (outputs inputs : List (Option TensorId)) :
    Keeps T (callExecutable e outputs inputs) :=
  keeps_executor.bind fun _ => keeps_onBackend (Backend.keeps_call _ _ _)

/-- Outputs are read one after the other, up to one that cannot be. -/
theorem keeps_readOutputs (tensors : List (Option TensorId)) : Keeps T (readOutputs tensors) :=
  keeps_get.bind fun s => Keeps.forM (fun ⟨⟨tensor, host⟩, position⟩ => by
    cases tensor with
    | some tensor => exact keeps_readOutput position tensor host
    | none => exact keeps_pure _) _

/-- **A call on a group** feeds it, calls and reads, and counts its copies if all of this went well.
-/
theorem keeps_runOnGroup [CopyMoves T] (found : Lookup) (group : PipelineGroup TensorId)
    (inputs : List HostBuffer) : Keeps T (runOnGroup found group inputs) :=
  (Keeps.mapM (fun b : HostBuffer × Nat => keeps_feedInput group b.2 b.1) _).bind fun _ =>
    (Keeps.mapM (fun b : TensorId × Nat => keeps_offerOutput b.2 b.1) _).bind fun _ =>
    (keeps_callExecutable _ _ _).bind fun _ => (keeps_readOutputs _).bind fun _ =>
    (keeps_recount (by intro; rfl)).bind fun _ => keeps_pure _

/-- **The tracker is told of every output buffer that is not bound elsewhere.** -/
theorem keeps_invalidateOutputs [TellMoves T] : Keeps T invalidateOutputs := by
  intro s
  unfold invalidateOutputs
  rw [ends_bind, ends_get]
  -- The tracker that is told is the one of the executor as it was at the start.
  refine (ends_forM (I := fun _ t => T s t ∧ t.executor.tracker = s.executor.tracker)
    (fun _ ⟨buffer, position⟩ _ t _ ht => ?_) ⟨Moves.refl s, rfl⟩).mono
    (fun _ _ ht => ht.1) fun _ _ ht => ht
  dsimp only
  split
  · exact ht
  · rw [ends_changePlatform, ← ht.2]
    exact ⟨Moves.trans ht.1 (TellMoves.invalidated t _), rfl⟩

end Moves

/-- An artifact is given other tensors, and something follows. -/
theorem keeps_setArtifact_bind [Moves T] {s t : ExecState} {id : ArtifactId} {a b : Artifact}
    {x : ExecM α} (ha : s.cache.get? id = some a) (ht : T s t) (hcache : s.SameCache t)
    (hb : t.cache.get? id = some a → T t { t with executor.cache := t.cache.update id b })
    (hx : ∀ u, u.cache.get? id = some b → u.executor.tracker = t.executor.tracker →
      Ends (x u) (fun _ v => T u v) fun _ v => T u v) :
    Ends ((setArtifact id b >>= fun _ => x) t) (fun _ u => T s u) fun _ u => T s u := by
  have hat : t.cache.get? id = some a := by rw [show t.cache = s.cache from hcache]; exact ha
  rw [ends_bind, ends_setArtifact]
  have hset := Moves.trans ht (hb hat)
  refine (hx { t with executor.cache := t.cache.update id b } ?_ rfl).mono
    (fun _ _ hu => Moves.trans hset hu) fun _ _ hu => Moves.trans hset hu
  exact (Cache.get?_update t.cache id b id).trans (by rw [if_pos rfl, hat]; rfl)

/-! ### Slots -/

section SlotMoves

variable [SlotMoves T]

/-- **A slot of an input is served**: the artifact may get a tensor, which may be copied to, and
then the tracker is told so. The artifact must still be there each time, so that the cache and the
tracker are followed along with `T`. -/
theorem keeps_serveInput [CopyMoves T] [TellMoves T] (id : ArtifactId) (position : Nat) (host : HostBuffer) :
    Keeps T (serveInput id position host) := by
  intro s
  unfold serveInput
  rw [ends_bind, ends_executor]
  dsimp only
  split
  · exact Moves.refl s
  · rw [ends_bind, ends_artifact]
    refine ⟨fun a ha => ?_, fun _ => Moves.refl s⟩
    rw [ends_bind, ends_platform, ends_bind]
    have hresolve : ∀ (T' : ExecState → ExecState → Prop) [Moves T'], Keeps T'
        (onBackend (.creation .input position) (a.inputs.resolve .input position host
          (s.platform.isFresh s.executor.tracker host.storage id))) :=
      fun T' _ => keeps_onBackend (SlotTable.keeps_resolve _ _ _ _ _)
    refine ((hresolve T s).and ((hresolve SameCache s).and (hresolve Later s))).mono
      (fun ⟨r, slots⟩ t ht => ?_) fun _ _ ht => ht.1
    obtain ⟨ht, hcache, hlater⟩ := ht
    refine keeps_setArtifact_bind ha ht hcache (fun h => SlotMoves.slots t id a _ h rfl rfl)
      fun u hu htracker => ?_
    rw [ends_bind, ends_kind]
    split
    · rw [ends_bind]
      have hwrite : ∀ (T' : ExecState → ExecState → Prop) [Moves T'] [CopyMoves T'],
          Keeps T' (writeInput position r.tensor host) := fun T' _ _ => keeps_writeInput _ _ _
      refine ((hwrite T u).and ((hwrite SameCache u).and (hwrite Later u))).mono
        (fun copied v hv => ?_) fun _ _ hv => hv.1
      obtain ⟨hv, hvcache, hvlater⟩ := hv
      rw [ends_bind, ends_changePlatform, ends_pure,
        ← (hvlater.tracker.trans htracker).trans hlater.tracker]
      rw [← show v.cache = u.cache from hvcache] at hu
      exact Moves.trans hv (TellMoves.marked v id _ _ hu)
    · exact Moves.refl u

/-- A slot of an output is served, to which nothing is copied. -/
theorem keeps_serveOutput (id : ArtifactId) (position : Nat) (host : HostBuffer) :
    Keeps T (serveOutput id position host) := by
  intro s
  unfold serveOutput
  rw [ends_bind, ends_executor]
  dsimp only
  split
  · exact Moves.refl s
  · rw [ends_bind, ends_artifact]
    refine ⟨fun a ha => ?_, fun _ => Moves.refl s⟩
    rw [ends_bind, ends_platform, ends_bind]
    have hresolve : ∀ (T' : ExecState → ExecState → Prop) [Moves T'], Keeps T'
        (onBackend (.creation .output position) (a.outputs.resolve .output position host
          (s.platform.isFresh s.executor.tracker host.storage id))) :=
      fun T' _ => keeps_onBackend (SlotTable.keeps_resolve _ _ _ _ _)
    refine ((hresolve T s).and (hresolve SameCache s)).mono (fun ⟨r, slots⟩ t ht => ?_)
      fun _ _ ht => ht.1
    exact keeps_setArtifact_bind ha ht.1 ht.2 (fun h => SlotMoves.slots t id a _ h rfl rfl)
      fun u _ _ => Moves.refl u

/-- Inputs are served one after the other, and their copies are counted if all went well. -/
theorem keeps_allocateInputs [CopyMoves T] [TellMoves T] (id : ArtifactId) (inputs : List HostBuffer) :
    Keeps T (allocateInputs id inputs) :=
  (keeps_artifact id).discard.bind fun _ =>
    (Keeps.mapM (fun b : HostBuffer × Nat => keeps_serveInput id b.2 b.1) _).bind fun _ =>
    (keeps_recount (by intro; rfl)).bind fun _ => keeps_pure _

/-- So are outputs, which have no copies. -/
theorem keeps_allocateOutputs (id : ArtifactId) (outputs : List HostBuffer) :
    Keeps T (allocateOutputs id outputs) :=
  (keeps_artifact id).discard.bind fun _ =>
    (Keeps.mapM (fun b : HostBuffer × Nat => keeps_serveOutput id b.2 b.1) _).bind fun _ =>
    (keeps_count (by intro; rfl) (by intro; rfl)).bind fun _ => keeps_pure _

/-- **A call on slots** serves both sides, calls, and reads what is not kept in host buffers. -/
theorem keeps_runOnSlots [CopyMoves T] [TellMoves T] (found : Lookup) (inputs : List HostBuffer) :
    Keeps T (runOnSlots found inputs) := by
  refine (keeps_allocateInputs _ _).bind fun ins => keeps_get.bind fun s =>
    (keeps_allocateOutputs _ _).bind fun outs => (keeps_callExecutable _ _ _).bind fun _ =>
    keeps_kind.bind fun κ => ?_
  dsimp only
  split
  · exact (keeps_readOutputs _).bind fun _ => keeps_pure _
  · exact keeps_pure _

end SlotMoves

/-! ### Groups -/

section TensorMoves

variable [TensorMoves T]

/-- A group is taken out of a pipeline that an artifact has been given. -/
theorem keeps_lend {s t : ExecState} {id : ArtifactId} {a : Artifact} (e : Executor)
    (p : Pipeline TensorId) (ha : s.cache.get? id = some a) (ht : T s t)
    (hcache : s.SameCache t) :
    Ends ((do
      setArtifact id { a with pipeline := some p }
      match p.acquire? with
      | none => throw (Error.resourceExhausted e.unit.name "no free tensor available")
      | some (group, p) =>
        setArtifact id { a with pipeline := some p }
        return group) t) (fun _ u => T s u) fun _ u => T s u := by
  refine keeps_setArtifact_bind ha ht hcache (fun h => TensorMoves.tensors t id a _ h rfl)
    fun u hu _ => ?_
  cases p.acquire? with
  | none => exact Moves.refl u
  | some found => exact TensorMoves.tensors u id _ _ hu rfl

/-- **A group is lent**, and a pipeline is made for it first if there is none. -/
theorem keeps_acquireGroup (id : ArtifactId) : Keeps T (acquireGroup id) := by
  have hmake : ∀ (T' : ExecState → ExecState → Prop) [Moves T'] (e : Executable),
      Keeps T' (makePipeline e) := fun T' _ e => keeps_makePipeline e
  intro s
  unfold acquireGroup
  rw [ends_bind, ends_executor, ends_bind, ends_kind]
  dsimp only
  split
  · exact Moves.refl s
  · rw [ends_bind, ends_artifact]
    refine ⟨fun a ha => ?_, fun _ => Moves.refl s⟩
    cases a.pipeline with
    | some p => exact keeps_lend s.executor p ha (Moves.refl s) rfl
    | none =>
      refine ends_bind.2 (((hmake T a.executable s).and (hmake SameCache a.executable s)).mono
        (fun p t ht => ?_) fun _ _ ht => ht.1)
      exact keeps_lend s.executor p ha ht.1 ht.2

/-- **A group is taken back**, or was not lent, and then nothing happens. -/
theorem keeps_returnGroup (id : ArtifactId) (index : Nat) : Keeps T (returnGroup id index) := by
  intro s
  unfold returnGroup
  rw [ends_bind, ends_artifact]
  refine ⟨fun a ha => ?_, fun _ => Moves.refl s⟩
  cases hp : a.pipeline with
  | none => exact Moves.refl s
  | some p =>
    dsimp only
    cases p.giveBack index with
    | ok p => exact TensorMoves.tensors s id a _ ha rfl
    | error fault => exact Moves.refl s

/-! ### Running -/

/-- What a call does when the executable for its inputs has been found. -/
def runFound (found : Lookup) (inputs : List HostBuffer) : ExecM Report := do
  let expected := found.executable.function.parameters.length
  if inputs.length ≠ expected then fail (.inputCount expected inputs.length)
  prepareOutputs found.executable.function.results
  let report ← if (← kind).isPipelined then runPipelined found inputs else runOnSlots found inputs
  invalidateOutputs
  count fun c => { c with executions := c.executions + 1 }
  return report

/-- A call finds its executable, and then runs it. -/
theorem execute_eq (inputs : List HostBuffer) :
    execute inputs = getExecutable inputs >>= fun found => runFound found inputs := rfl

/-- A call on a group gives it back however it ends. -/
theorem keeps_runPipelined [CopyMoves T] (found : Lookup) (inputs : List HostBuffer) :
    Keeps T (runPipelined found inputs) :=
  (keeps_acquireGroup _).bind fun group =>
    (keeps_observe (keeps_runOnGroup found group inputs)).bind fun result =>
    (keeps_returnGroup _ _).bind fun _ => keeps_ofExcept result

/-- **What follows when the executable has been found.** -/
theorem keeps_runFound [CopyMoves T] [TellMoves T] (found : Lookup) (inputs : List HostBuffer) :
    Keeps T (runFound found inputs) := by
  have hend : ∀ report : Report, Keeps T (do
      invalidateOutputs
      count fun c => { c with executions := c.executions + 1 }
      return report) := fun report =>
    keeps_invalidateOutputs.bind fun _ =>
      (keeps_count (by intro; rfl) (by intro; rfl)).bind fun _ => keeps_pure report
  have hrest : Keeps T (do
      prepareOutputs found.executable.function.results
      let report ← if (← kind).isPipelined then runPipelined found inputs
        else runOnSlots found inputs
      invalidateOutputs
      count fun c => { c with executions := c.executions + 1 }
      return report) := by
    refine (keeps_prepareOutputs _).bind fun _ => keeps_kind.bind fun κ => ?_
    split
    · exact (keeps_runPipelined found inputs).bind hend
    · exact (keeps_runOnSlots found inputs).bind hend
  unfold runFound
  dsimp only
  split
  · exact (keeps_fail _).bind fun _ => hrest
  · exact hrest

end TensorMoves

/-! ### Finding and compiling, which change the cache -/

/-- Evicting changes nothing about how many artifacts are allowed. -/
theorem depth_evict (c : Cache) : c.evict.2.depth = c.depth := by
  unfold Cache.evict
  split
  · rfl
  · dsimp only
    split
    · rfl
    · rfl

section CacheMoves

variable [CacheMoves T]

/-- Where everything may happen but copies, anything else may be counted. -/
theorem keeps_tally {change : Stats → Stats} (h : ∀ x, (change x).copied = x.copied) :
    Keeps T (count change) := keeps_modify fun s => CacheMoves.stats s _ (h _)

theorem keeps_cacheEvent {name : String} (h : name ≠ "input_copy") :
    Keeps T (changePlatform (·.cacheEvent name)) :=
  keeps_modify fun s => CacheMoves.shared s _ (s.platform.unwritten_cacheEvent h)

/-- So may a step of the backend that copies nothing. -/
theorem keeps_useBackend {step : BackendM α} (h : Keeps Device.Unwritten step) :
    Keeps T (tryBackend step) := fun s =>
  ends_tryBackend.2 ((h s.device).mono
    (fun _ _ hd => CacheMoves.shared s _ (Platform.unwritten_withDevice hd))
    fun _ _ hd => CacheMoves.shared s _ (Platform.unwritten_withDevice hd))

/-- **A function is compiled, or its bytes are loaded**, and the outcome is counted. If it fails,
the function is written to a file. -/
theorem keeps_compile (signature : Signature) (f : Function) :
    Keeps T (compile signature f) := by
  refine keeps_executor.bind fun e => (keeps_serializedFor signature).bind fun serialized =>
    (keeps_changePlatform (fun p => p.calm_compileStep _) fun _ => rfl).bind fun _ =>
    keeps_platform.bind fun p => (keeps_ofExcept _).bind fun _ =>
    (keeps_useBackend ?_).bind fun result => ?_
  · cases serialized with
    | none => exact Backend.keeps_compile f
    | some bytes => exact Backend.keeps_load bytes
  · cases result with
    | ok executable =>
      refine (keeps_tally fun x => ?_).bind fun _ => keeps_pure _
      cases serialized with
      | none => rfl
      | some bytes => rfl
    | error error =>
      -- The path has to be opaque, or elaboration tries to compute it.
      dsimp only
      generalize errorDumpPath e.config.dumpDirectory e.unit.name = path
      exact (keeps_dump path f).bind fun _ =>
        (keeps_changePlatform (fun p => p.calm_note _) fun _ => rfl).bind fun _ => keeps_throw _

/-- **An artifact is evicted**: it is released, the tracker forgets it, and the eviction is counted.
-/
theorem keeps_evict : Keeps T evict := by
  intro s
  unfold evict
  rw [ends_bind, ends_get]
  obtain ⟨evicted, cache, hcache, hdepth, heq⟩ : ∃ evicted cache, cache = s.cache.evict.2 ∧
      cache.depth = s.cache.depth ∧ ∃ profile, profile.copies = s.platform.profile.copies ∧
      s.executor.cache.evictCounted s.platform.profile = (evicted, cache, profile) := by
    refine ⟨s.cache.evict.1, _, rfl, depth_evict _, ?_⟩
    unfold Cache.evictCounted
    rcases s.cache.evict with ⟨_ | a, c⟩
    · exact ⟨_, rfl, rfl⟩
    · exact ⟨_, (s.platform.unwritten_cacheEvent (by decide)).copies, rfl⟩
  obtain ⟨profile, hcopies, heq⟩ := heq
  rw [heq]
  dsimp only
  rw [ends_bind, ends_set]
  have hmoved : T s { s with executor.cache := cache, platform.profile := profile } :=
    Moves.trans (CacheMoves.cache s cache hdepth)
      (CacheMoves.shared { s with executor.cache := cache } { s.platform with profile }
        { Platform.Unwritten.refl s.platform with copies := hcopies })
  cases evicted with
  | none => exact hmoved
  | some a =>
    refine Keeps.after ?_ hmoved
    exact (keeps_useBackend Backend.keeps_release).discard.bind fun _ => keeps_platform.bind fun p =>
      (keeps_modify fun s => CacheMoves.shared s _ (s.platform.calm_tell _ _).toUnwritten).bind
        fun _ => (keeps_tally (by intro; rfl)).bind fun _ =>
        keeps_changePlatform (fun p => p.calm_note _) fun _ => rfl

/-- **An artifact is kept** under the next identity, after one has been evicted if there is no room.
-/
theorem keeps_keep (signature : Signature) (executable : Executable) (f : Function) :
    Keeps T (keep signature executable f) := by
  have hrest : Keeps T (do
      let id := (← platform).nextArtifact
      modify fun s => { s with
        executor.cache := s.executor.cache.insert (.new id signature executable f)
        platform.nextArtifact := id + 1 }
      changePlatform (·.note (.compiled (← executor).cache.size f.graphSize))
      return id) := by
    intro s
    rw [ends_bind, ends_platform]
    dsimp only
    rw [ends_bind, ends_modify]
    rw [ends_bind, ends_executor, ends_bind, ends_changePlatform, ends_pure]
    obtain ⟨c, hc⟩ : ∃ c, c = s.executor.cache.insert
        (.new s.platform.nextArtifact signature executable f) := ⟨_, rfl⟩
    have hdepth : c.depth = s.cache.depth := by
      rw [hc]
      rfl
    rw [← hc]
    exact Moves.trans (CacheMoves.cache s c hdepth) (CacheMoves.shared { s with executor.cache := c } _
      { (Platform.calm_note _ _).toUnwritten with nextArtifact := Nat.le_succ _ })
  refine keeps_executor.bind fun e => ?_
  dsimp only
  split
  · exact keeps_evict.bind fun _ => hrest
  · exact hrest

theorem keeps_useCached (id : ArtifactId) (signature : Signature) :
    Keeps T (useCached id signature) :=
  (keeps_artifact id).bind fun _ => (keeps_tally (by intro; rfl)).bind fun _ =>
    (keeps_cacheEvent (by decide)).bind fun _ => keeps_pure _

/-- A miss is counted, and then a function is obtained, compiled and kept. -/
theorem keeps_compileNew (computed : Signature.Computed) : Keeps T (compileNew computed) := by
  refine (keeps_tally (by intro; rfl)).bind fun _ => (keeps_cacheEvent (by decide)).bind
    fun _ => (keeps_obtainFunction computed).bind fun f => keeps_executor.bind fun e => ?_
  have hrest : Keeps T (do
      let executable ← compile computed.signature f
      let id ← keep computed.signature executable f
      return (⟨id, executable, computed.signature, false⟩ : Lookup)) :=
    (keeps_compile _ f).bind fun _ => (keeps_keep _ _ f).bind fun _ => keeps_pure _
  dsimp only
  generalize dumpPath e.config.dumpDirectory e.unit.name = path
  split
  · exact (keeps_dump path f).discard.bind fun _ => hrest
  · exact hrest

/-- **An executable is found or made.** The look-up alone already puts the signature in front. -/
theorem keeps_getExecutable (inputs : List HostBuffer) : Keeps T (getExecutable inputs) := by
  refine (keeps_computeSignature inputs).bind fun computed => ?_
  intro s
  rw [ends_bind, ends_get]
  have hdepth : (s.executor.cache.lookup computed.signature).2.depth = s.cache.depth := by
    unfold Cache.lookup
    split
    · rfl
    · rfl
  rcases hl : s.executor.cache.lookup computed.signature with ⟨found, cache⟩
  rw [hl] at hdepth
  dsimp only
  rw [ends_bind, ends_set]
  have hmoved : T s { s with executor.cache := cache } := CacheMoves.cache s cache hdepth
  cases found with
  | some id => exact (keeps_useCached id _).after hmoved
  | none => exact (keeps_compileNew computed).after hmoved

end CacheMoves

end ExecM

/-- **Whatever an executor is asked for**, a relation that allows every step holds between the
states before and after. -/
theorem Request.keeps_perform {T : ExecState → ExecState → Prop} [CacheMoves T] [CopyMoves T]
    (r : Request) : Keeps T r.perform := by
  cases r with
  | execute inputs =>
    exact ((ExecM.keeps_getExecutable inputs).bind fun found =>
      ExecM.keeps_runFound found inputs).bind fun _ => keeps_pure _
  | getExecutable inputs => exact (ExecM.keeps_getExecutable inputs).bind fun _ => keeps_pure _
  | allocateInputs artifact inputs =>
    exact (ExecM.keeps_allocateInputs _ _).bind fun _ => keeps_pure _
  | allocateOutputs artifact outputs =>
    exact (ExecM.keeps_allocateOutputs _ _).bind fun _ => keeps_pure _
  | acquireGroup artifact => exact (ExecM.keeps_acquireGroup _).bind fun _ => keeps_pure _
  | returnGroup artifact index => exact (ExecM.keeps_returnGroup _ _).bind fun _ => keeps_pure _

/-- An executor stays what it is. -/
theorem Request.later_perform (r : Request) : Keeps ExecState.Later r.perform := r.keeps_perform

/-- **Only finding and compiling change more than the tensors of artifacts.** -/
theorem Request.keeps_perform_of_inputs?_eq_none {T : ExecState → ExecState → Prop} [TensorMoves T]
    [CopyMoves T] [TellMoves T] {r : Request} (h : r.inputs? = none) : Keeps T r.perform := by
  cases r with
  | execute inputs => cases h
  | getExecutable inputs => cases h
  | allocateInputs artifact inputs =>
    exact (ExecM.keeps_allocateInputs _ _).bind fun _ => keeps_pure _
  | allocateOutputs artifact outputs =>
    exact (ExecM.keeps_allocateOutputs _ _).bind fun _ => keeps_pure _
  | acquireGroup artifact => exact (ExecM.keeps_acquireGroup _).bind fun _ => keeps_pure _
  | returnGroup artifact index => exact (ExecM.keeps_returnGroup _ _).bind fun _ => keeps_pure _

end TensorJit
