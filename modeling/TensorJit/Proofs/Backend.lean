import TensorJit.Backend.Call
import TensorJit.Cache.Slots
import TensorJit.Proofs.Memory
import TensorJit.Proofs.Step

/-!
# What a step of a backend keeps

Whatever a backend is asked for, and however that ends, it keeps its class and mode, it does
not come to fail at something it has not been told to fail at, and memory only grows
(`Device.Later`). What is done to tensors does not change either how many executables the
backend has got and given back (`Device.Steady`); only compiling, loading and releasing do. And
nothing but copying from the host changes how often and how much has been written
(`Device.Unwritten`).
-/

namespace TensorJit

/-- The backend has not been told to fail. -/
def Backend.Quiet (b : Backend) : Prop := b.injections = ⟨false, false, false⟩

/-- A device is another after steps of its backend. -/
structure Device.Later (d e : Device) : Prop where
  /-- Its class and mode are the same. -/
  kind : e.backend.kind = d.backend.kind
  /-- If it was not to fail then, it is not to fail now. -/
  quiet : d.backend.Quiet → e.backend.Quiet
  /-- Memory has only grown. -/
  memory : d.memory.Extends e.memory

/-- Executables live, compiled, loaded and released. -/
def BackendCounters.use (c : BackendCounters) : Nat × Nat × Nat × Nat :=
  (c.live, c.compiles, c.loads, c.releases)

/-- How often a tensor has been written to from the host, and how many bytes. -/
def BackendCounters.written (c : BackendCounters) : Nat × Nat := (c.writes, c.bytesWritten)

/-- A device is another after steps that concern no executables. -/
structure Device.Steady (d e : Device) : Prop extends Device.Later d e where
  /-- There are the same executables. -/
  use : e.backend.counters.use = d.backend.counters.use

/-- A device is another after steps that copy nothing from the host. -/
structure Device.Unwritten (d e : Device) : Prop extends Device.Later d e where
  /-- Nothing has been written. -/
  written : e.backend.counters.written = d.backend.counters.written

/-- A device is another after steps that concern no executables and copy nothing. -/
structure Device.Calm (d e : Device) : Prop extends Device.Steady d e, Device.Unwritten d e

instance : Std.Refl Device.Later := ⟨fun d => ⟨rfl, id, .refl d.memory⟩⟩

instance : IsTrans Device Device.Later :=
  ⟨fun _ _ _ h h' => ⟨h'.kind.trans h.kind, h'.quiet ∘ h.quiet, h.memory.trans h'.memory⟩⟩

instance : Std.Refl Device.Steady := ⟨fun d => ⟨Std.Refl.refl d, rfl⟩⟩

instance : IsTrans Device Device.Steady :=
  ⟨fun _ _ _ h h' => ⟨IsTrans.trans _ _ _ h.toLater h'.toLater, h'.use.trans h.use⟩⟩

instance : Std.Refl Device.Unwritten := ⟨fun d => ⟨Std.Refl.refl d, rfl⟩⟩

instance : IsTrans Device Device.Unwritten :=
  ⟨fun _ _ _ h h' => ⟨IsTrans.trans _ _ _ h.toLater h'.toLater, h'.written.trans h.written⟩⟩

instance : Std.Refl Device.Calm := ⟨fun d => ⟨Std.Refl.refl d, rfl⟩⟩

instance : IsTrans Device Device.Calm :=
  ⟨fun _ _ _ h h' =>
    ⟨IsTrans.trans _ _ _ h.toSteady h'.toSteady, h'.written.trans h.written⟩⟩

theorem Keeps.steady {ε α : Type} {x : EStateM ε Device α} (h : Keeps Device.Calm x) :
    Keeps Device.Steady x := h.mono fun _ _ => Device.Calm.toSteady

theorem Keeps.unwritten {ε α : Type} {x : EStateM ε Device α} (h : Keeps Device.Calm x) :
    Keeps Device.Unwritten x := h.mono fun _ _ => Device.Calm.toUnwritten

theorem Keeps.later {ε α : Type} {x : EStateM ε Device α} (h : Keeps Device.Unwritten x) :
    Keeps Device.Later x := h.mono fun _ _ => Device.Unwritten.toLater

namespace Backend

/-- Asking for the kind changes nothing. -/
@[simp] theorem ends_kindOf {d : Device} {Q : BackendKind → Device → Prop}
    {E : BackendError → Device → Prop} : Ends (kindOf d) Q E ↔ Q d.backend.kind d := Iff.rfl

@[simp] theorem ends_setStale {id : TensorId} {stale : Bool} {d : Device}
    {Q : Unit → Device → Prop} {E : BackendError → Device → Prop} :
    Ends (setStale id stale d) Q E ↔ Q () { d with memory := d.memory.setStale id stale } :=
  Iff.rfl

/-- Memory may grow in every step. -/
theorem calm_set {d : Device} {m : Memory} (h : d.memory.Extends m) :
    d.Calm { d with memory := m } := ⟨⟨⟨rfl, id, h⟩, rfl⟩, rfl⟩

theorem keeps_kindOf : Keeps Device.Calm kindOf := keeps_get.bind fun _ => keeps_pure _

/-- Counters other than those of writes may change where nothing is copied from the host. -/
theorem unwritten_count {change : BackendCounters → BackendCounters}
    (h : ∀ c, (change c).written = c.written) : Keeps Device.Unwritten (count change) :=
  keeps_modify fun d => ⟨⟨rfl, id, .refl d.memory⟩, h _⟩

/-- Counters other than those of executables may change where executables stay. -/
theorem steady_count {change : BackendCounters → BackendCounters}
    (h : ∀ c, (change c).use = c.use) : Keeps Device.Steady (count change) :=
  keeps_modify fun d => ⟨⟨rfl, id, .refl d.memory⟩, h _⟩

theorem keeps_count {change : BackendCounters → BackendCounters}
    (h : ∀ c, (change c).use = c.use) (h' : ∀ c, (change c).written = c.written) :
    Keeps Device.Calm (count change) :=
  keeps_modify fun d => ⟨⟨⟨rfl, id, .refl d.memory⟩, h _⟩, h' _⟩

/-- A change of memory is a small step if memory only grows by it. -/
theorem keeps_withMemory {α : Type} {change : Memory → α × Memory}
    (h : ∀ m : Memory, m.Extends (change m).2) : Keeps Device.Calm (withMemory change) :=
  fun d => calm_set (h d.memory)

theorem keeps_fail {α : Type} (fault : BackendFault) :
    Keeps Device.Calm (fail fault : BackendM α) := keeps_throw _

/-- **An injected failure is taken once.** This leads to no other one: what has not been told to
fail is not told so by taking. -/
theorem keeps_takeInjection {injected : Injections → Bool} {clear : Injections → Injections}
    (h : injected ⟨false, false, false⟩ = false) :
    Keeps Device.Calm (takeInjection injected clear) := by
  intro d
  unfold takeInjection
  rw [ends_bind, ends_get]
  split
  · rename_i hinjected
    refine ⟨⟨⟨rfl, fun hquiet => ?_, .refl d.memory⟩, rfl⟩, rfl⟩
    rw [hquiet, h] at hinjected
    cases hinjected
  · exact Std.Refl.refl d

/-! ### Compiling, loading, releasing -/

/-- The reference backend counts what it accepts, and refuses without a trace. -/
theorem keeps_acceptLive (f : Function) : Keeps Device.Unwritten (acceptLive f) := by
  unfold acceptLive
  split
  · exact keeps_throw _
  · exact (unwritten_count (by intro; rfl)).bind fun _ => keeps_pure _

/-- **Compiling** takes an injected failure or counts an executable. It copies nothing. -/
theorem keeps_compile (f : Function) : Keeps Device.Unwritten (compile f) := by
  refine keeps_kindOf.unwritten.bind fun κ => ?_
  cases κ with
  | reference => exact keeps_acceptLive f
  | recording mode =>
    refine (keeps_takeInjection rfl).unwritten.bind fun broken => ?_
    cases broken with
    | true => exact (keeps_fail _).unwritten
    | false =>
      refine (keeps_takeInjection rfl).unwritten.bind fun failed => ?_
      cases failed with
      | true => exact (keeps_fail _).unwritten
      | false => exact (unwritten_count (by intro; rfl)).bind fun _ => keeps_pure _

/-- **Loading** does so too, and bytes that are no function leave everything as it is. -/
theorem keeps_load (bytes : Bytes) : Keeps Device.Unwritten (load bytes) := by
  refine keeps_kindOf.unwritten.bind fun κ => ?_
  cases κ with
  | reference =>
    cases Function.deserialize? bytes with
    | none => exact (keeps_fail _).unwritten
    | some f => exact keeps_acceptLive f
  | recording mode =>
    cases Function.deserialize? bytes with
    | none => exact (keeps_fail _).unwritten
    | some f => exact (unwritten_count (by intro; rfl)).bind fun _ => keeps_pure _

/-- **Releasing** counts one executable less. -/
theorem keeps_release : Keeps Device.Unwritten release := by
  refine keeps_kindOf.unwritten.bind fun κ => ?_
  cases κ with
  | reference => exact unwritten_count (by intro; rfl)
  | recording mode => exact unwritten_count (by intro; rfl)

/-! ### Tensors -/

/-- A tensor with storage of its own is one more tensor. -/
theorem keeps_createOwn (spec : TensorSpec) : Keeps Device.Calm (createOwn spec) :=
  (keeps_count (by intro; rfl) (by intro; rfl)).bind fun _ =>
    keeps_withMemory fun m => m.extends_createTensor _ _

/-- So is a tensor in a host buffer. -/
theorem keeps_createBound (spec : TensorSpec) (host : HostBuffer) :
    Keeps Device.Calm (createBound spec host) :=
  (keeps_count (by intro; rfl) (by intro; rfl)).bind fun _ =>
    keeps_withMemory fun m => m.extends_createTensor _ _

/-- **Making a tensor**, in whichever of the two ways the kind of the backend has it. -/
theorem keeps_createTensor (spec : TensorSpec) (host : Option HostBuffer) :
    Keeps Device.Calm (createTensor spec host) := by
  refine keeps_kindOf.bind fun κ => ?_
  cases κ with
  | reference =>
    cases host with
    | none => exact keeps_createOwn spec
    | some b =>
      dsimp only
      split
      · exact keeps_createBound spec b
      · exact keeps_fail _
  | recording mode =>
    refine (keeps_takeInjection rfl).bind fun failed => ?_
    cases failed with
    | true => exact keeps_fail _
    | false =>
      cases mode <;> cases host <;> first
        | exact keeps_createBound spec _
        | exact keeps_createOwn spec

theorem keeps_setStale (id : TensorId) (stale : Bool) : Keeps Device.Calm (setStale id stale) :=
  keeps_withMemory fun m => m.extends_setStale id stale

/-- Overwriting without counting is what copies from the host and stored results have in common. -/
theorem keeps_overwrite (id : TensorId) (source : Bytes) (offset : Nat) :
    Keeps Device.Calm (overwrite id source offset) := by
  intro d
  unfold overwrite
  rw [ends_bind, ends_get]
  cases hm : d.memory.overwrite? id source offset with
  | some m => exact calm_set (Memory.extends_overwrite? hm)
  | none =>
    cases d.backend.kind with
    | reference => exact Std.Refl.refl d
    | recording mode => exact Std.Refl.refl d

/-- **Copying from the host** is the one step that is counted as a write, so more than memory
changes. -/
theorem keeps_write (id : TensorId) (source : Bytes) (offset : Nat) :
    Keeps Device.Steady (write id source offset) :=
  (keeps_overwrite id source offset).steady.bind fun _ => steady_count (by intro; rfl)

/-- Reading is counted, but not as a write. -/
theorem keeps_read (id : TensorId) (length offset : Nat) :
    Keeps Device.Calm (read id length offset) := by
  refine keeps_get.bind fun d => ?_
  cases (d.memory.contents id).slice? offset length with
  | some bytes => exact (keeps_count (by intro; rfl) (by intro; rfl)).bind fun _ => keeps_pure _
  | none =>
    cases d.backend.kind with
    | reference => exact keeps_fail _
    | recording mode => exact keeps_fail _

/-- A result is refused, or overwrites its tensor, which is then flagged. -/
theorem keeps_store (id : TensorId) (v : Value UInt32) : Keeps Device.Calm (store id v) := by
  refine keeps_get.bind fun d => ?_
  dsimp only
  split
  · exact (keeps_fail _).bind fun _ => (keeps_overwrite _ _ _).bind fun _ => keeps_setStale _ _
  · exact (keeps_pure _).bind fun _ => (keeps_overwrite _ _ _).bind fun _ => keeps_setStale _ _

/-- Results are stored one after the other, up to one that is refused. -/
theorem keeps_storeAll (outputs : List (Option TensorId)) (results : List (Value UInt32)) :
    Keeps Device.Calm (storeAll outputs results) := by
  induction outputs generalizing results with
  | nil => exact keeps_pure _
  | cons output outputs ih =>
    cases results with
    | nil => cases output <;> exact keeps_pure _
    | cons v results =>
      cases output with
      | none => exact ih results
      | some id => exact (keeps_store id v).bind fun _ => ih results

/-- **A call** counts itself, and then stores what the function gives. -/
theorem keeps_call (e : Executable) (outputs inputs : List (Option TensorId)) :
    Keeps Device.Calm (call e outputs inputs) := by
  refine (keeps_count (by intro; rfl) (by intro; rfl)).bind fun _ => keeps_get.bind fun d => ?_
  dsimp only
  split
  · exact keeps_throw _
  · exact keeps_storeAll _ _

/-- **Tensors of a pipeline** are made one by one, and on one kind of backend only. -/
theorem keeps_createPipelined (e : Executable) (side : Side) (position depth : Nat) :
    Keeps Device.Calm (createPipelined e side position depth) := by
  refine keeps_kindOf.bind fun κ => ?_
  dsimp only
  by_cases h : κ ≠ .recording .pipelined
  · rw [if_pos h]
    exact fun d => Std.Refl.refl d
  · rw [if_neg h]
    split
    · exact keeps_fail _
    · exact Keeps.mapM keeps_createOwn _

end Backend

/-- **Finding the tensor for a slot** makes one at most, and flags it. -/
theorem SlotTable.keeps_resolve (slots : SlotTable) (side : Side) (position : Nat)
    (host : HostBuffer) (vouched : Bool) :
    Keeps Device.Calm (slots.resolve side position host vouched) := by
  have hrest : ∀ (id : TensorId) (created stale : Bool), Keeps Device.Calm (do
      Backend.setStale id stale
      return ((⟨id, created, stale⟩ : SlotResolution), slots.insert position ⟨host.storage, id⟩)) :=
    fun id _ stale => (Backend.keeps_setStale id stale).bind fun _ => keeps_pure _
  refine Backend.keeps_kindOf.bind fun κ => ?_
  dsimp only
  split
  · exact (keeps_pure _).bind fun id => hrest id _ _
  · exact (Backend.keeps_createTensor _ _).bind fun id => hrest id _ _

end TensorJit
