import TensorJit.Backend.Error
import TensorJit.Function.Serialized
import TensorJit.Memory

/-!
# Backends

A backend compiles functions, hands out tensors and calls executables. There are two classes.
The **reference** backend keeps its tensors in the buffers of the host, accepts only
well-formed functions of floating-point instructions, and knows how many of its executables are
live. The **recording** backend accepts everything, counts everything that is asked of it, can
be told to fail, and comes in three modes:

| mode | where tensors are | who makes them |
|---|---|---|
| `host` | in host buffers | the backend |
| `device` | in storage of their own | the backend |
| `pipelined` | in storage of their own | the executable, a whole depth of them at once |

Both evaluate functions in one and the same way. An operation is a step on a backend and the
memory, and a step that fails keeps what happened before it failed.
-/

namespace TensorJit

/-- How a recording backend keeps tensors. -/
inductive RecordingMode where
  /-- In host buffers. -/
  | host
  /-- In storage of their own. -/
  | device
  /-- In storage of their own, made by executables. -/
  | pipelined
  deriving DecidableEq, Repr, Inhabited

/-- The class of a backend. -/
inductive BackendClass where
  /-- The reference backend. -/
  | reference
  /-- The recording backend. -/
  | recording
  deriving DecidableEq, Repr, Inhabited

/-- The class of a backend with its mode. -/
inductive BackendKind where
  /-- The reference backend. -/
  | reference
  /-- The recording backend in a mode. -/
  | recording (mode : RecordingMode)
  deriving DecidableEq, Repr, Inhabited

namespace BackendKind

/-- The class alone. -/
def toClass : BackendKind → BackendClass
  | reference => .reference
  | recording _ => .recording

/-- Whether tensors alias the buffers of the host, so that nothing is copied. -/
def isHostBound : BackendKind → Bool
  | reference | recording .host => true
  | recording .device | recording .pipelined => false

/-- Whether executables make the tensors. -/
def isPipelined (k : BackendKind) : Bool := k = recording .pipelined

end BackendKind

/-- Options of a backend, by key. -/
abbrev BackendOptions := SortedMap String String

/-- What a backend has counted. The reference backend reports its live executables alone, and
a recording backend everything else. -/
structure BackendCounters where
  /-- Executables compiled or loaded and not yet released. -/
  live : Nat
  /-- Functions compiled. -/
  compiles : Nat
  /-- Executables loaded. -/
  loads : Nat
  /-- Executables released. -/
  releases : Nat
  /-- Tensors made. -/
  tensorsCreated : Nat
  /-- Writes to tensors. -/
  writes : Nat
  /-- Bytes written to tensors. -/
  bytesWritten : Nat
  /-- Reads of tensors. -/
  reads : Nat
  /-- Calls of executables. -/
  calls : Nat
  deriving DecidableEq, Repr, Inhabited

/-- What a recording backend has been told to fail at, each time once. -/
structure Injections where
  /-- The next compilation fails. -/
  compileFailure : Bool
  /-- The next compilation breaks down, before it can fail. -/
  breakdown : Bool
  /-- The next allocation fails. -/
  allocationFailure : Bool
  deriving DecidableEq, Repr, Inhabited

/-- The state of a backend. -/
structure Backend where
  /-- The name it was made with. -/
  name : String
  /-- Its class and mode. -/
  kind : BackendKind
  /-- The options set so far. -/
  options : BackendOptions
  /-- An option it refuses, if it is a recording backend. -/
  rejected : Option String
  /-- What it has been told to fail at. -/
  injections : Injections
  /-- What it has counted. -/
  counters : BackendCounters
  deriving DecidableEq, Inhabited

/-- A new backend. -/
def Backend.new (name : String) (kind : BackendKind) (rejected : Option String) : Backend :=
  { name, kind, rejected
    options := .empty
    injections := ⟨false, false, false⟩
    counters := ⟨0, 0, 0, 0, 0, 0, 0, 0, 0⟩ }

/-- The option among the given ones that a backend refuses. The reference backend takes all. -/
def Backend.refusal? (b : Backend) (options : BackendOptions) : Option String :=
  match b.kind with
  | .reference => none
  | .recording _ => b.rejected.filter options.contains

/-- A compiled function. -/
structure Executable where
  /-- The function it was compiled from. -/
  function : Function
  deriving DecidableEq, Repr, Inhabited

/-- The serialized form of an executable, which is that of its function. -/
def Executable.serialize (e : Executable) : Bytes := e.function.serialize

/-- A backend and the memory its tensors are in. -/
structure Device where
  /-- The backend. -/
  backend : Backend
  /-- The memory. -/
  memory : Memory
  deriving DecidableEq, Inhabited

/-- A step of a backend. -/
abbrev BackendM := EStateM BackendError Device

namespace Backend

/-- Stops with a failure. -/
def fail {α : Type} (fault : BackendFault) : BackendM α := throw (.execution fault)

/-- The class and mode of the backend at work. -/
def kindOf : BackendM BackendKind := return (← get).backend.kind

/-- Counts something. -/
def count (change : BackendCounters → BackendCounters) : BackendM Unit :=
  modify fun d => { d with backend.counters := change d.backend.counters }

/-- Changes the memory. -/
def withMemory {α : Type} (change : Memory → α × Memory) : BackendM α := do
  let d ← get
  let (a, memory) := change d.memory
  set { d with memory }
  return a

/-! ### Compiling, loading, releasing -/

/-- The executable of a function, if the reference backend accepts it. -/
def accept (f : Function) : Except BackendError Executable := do
  f.validate.mapError fun fault => .execution (.malformed fault)
  match f.body.find? fun i => i.spec.dtype ≠ .f32 with
  | some i => .error (.unimplemented (.floatInstruction i.op i.spec))
  | none => .ok ⟨f⟩

/-- Accepts a function, and counts the executable as live. -/
def acceptLive (f : Function) : BackendM Executable :=
  match accept f with
  | .error e => throw e
  | .ok e => do
    count fun c => { c with live := c.live + 1 }
    return e

/-- Takes an injected failure, if there is one. -/
def takeInjection (injected : Injections → Bool) (clear : Injections → Injections) :
    BackendM Bool := do
  let d ← get
  if injected d.backend.injections then
    set { d with backend.injections := clear d.backend.injections }
    return true
  else return false

/-- Compiles a function. -/
def compile (f : Function) : BackendM Executable := do
  match ← kindOf with
  | .reference => acceptLive f
  | .recording _ =>
    if ← takeInjection (·.breakdown) ({ · with breakdown := false }) then
      fail .injectedBreakdown
    if ← takeInjection (·.compileFailure) ({ · with compileFailure := false }) then
      fail .injectedCompileFailure
    count fun c => { c with compiles := c.compiles + 1 }
    return ⟨f⟩

/-- Loads an executable from its serialized form. -/
def load (bytes : Bytes) : BackendM Executable := do
  match ← kindOf, Function.deserialize? bytes with
  | .reference, none => fail .unreadable
  | .reference, some f => acceptLive f
  | .recording _, none => fail .recordedUnreadable
  | .recording _, some f =>
    count fun c => { c with loads := c.loads + 1 }
    return ⟨f⟩

/-- Releases an executable. -/
def release : BackendM Unit := do
  match ← kindOf with
  | .reference => count fun c => { c with live := c.live - 1 }
  | .recording _ => count fun c => { c with releases := c.releases + 1 }

/-- Sets options, unless one of them is refused. -/
def configure (options : BackendOptions) : BackendM Unit := do
  let d ← get
  match d.backend.refusal? options with
  | some key => fail (.unsupportedOption key)
  | none => set { d with backend.options := d.backend.options.insertMany options }

/-! ### Tensors -/

/-- Makes a tensor with storage of its own, all zero. -/
def createOwn (spec : TensorSpec) : BackendM TensorId := do
  count fun c => { c with tensorsCreated := c.tensorsCreated + 1 }
  withMemory fun m => m.createTensor spec (.own (Tensor.zeros spec).bytes)

/-- Makes a tensor bound to a host buffer. -/
def createBound (spec : TensorSpec) (host : HostBuffer) : BackendM TensorId := do
  count fun c => { c with tensorsCreated := c.tensorsCreated + 1 }
  withMemory fun m => m.createTensor spec (.host host.storage)

/-- Makes a tensor, for a host buffer if one is given. Backends that keep tensors in host
buffers bind it; the reference backend insists that the specs agree. -/
def createTensor (spec : TensorSpec) (host : Option HostBuffer) : BackendM TensorId := do
  match ← kindOf, host with
  | .reference, some host =>
    if host.spec = spec then createBound spec host
    else fail (.hostMismatch host.spec spec)
  | .reference, none => createOwn spec
  | .recording mode, host =>
    if ← takeInjection (·.allocationFailure) ({ · with allocationFailure := false }) then
      fail .injectedAllocationFailure
    match mode, host with
    | .host, some host => createBound spec host
    | _, _ => createOwn spec

/-- Says whether the contents of a tensor are out of date. -/
def setStale (id : TensorId) (stale : Bool) : BackendM Unit :=
  withMemory fun m => ((), m.setStale id stale)

/-- Overwrites bytes of a tensor. -/
def overwrite (id : TensorId) (source : Bytes) (offset : Nat) : BackendM Unit := do
  let d ← get
  match d.memory.overwrite? id source offset with
  | some memory => set { d with memory }
  | none =>
    match d.backend.kind with
    | .reference => fail (.writeBounds source.length offset)
    | .recording _ => fail .recordedWriteBounds

/-- Copies bytes from the host into a tensor. -/
def write (id : TensorId) (source : Bytes) (offset : Nat) : BackendM Unit := do
  overwrite id source offset
  count fun c =>
    { c with writes := c.writes + 1, bytesWritten := c.bytesWritten + source.length }

/-- Copies bytes of a tensor to the host. -/
def read (id : TensorId) (length offset : Nat) : BackendM Bytes := do
  let d ← get
  match (d.memory.contents id).slice? offset length with
  | some bytes =>
    count fun c => { c with reads := c.reads + 1 }
    return bytes
  | none =>
    match d.backend.kind with
    | .reference => fail (.readBounds length offset)
    | .recording _ => fail .recordedReadBounds

end Backend

end TensorJit
