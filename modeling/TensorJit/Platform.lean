import TensorJit.Cache.Basic
import TensorJit.Error

/-!
# The platform

What all units of a process share: the memory, the backends and the names they are registered
under, the registries of fresh copies, the profiling counters, the identity for the next
artifact, the files that functions are dumped to, and the log.

A backend is registered under a name and shared by every unit that names it. Registering
another one under the name, or none, does not change which backend a unit has that was built
before; only the compile lock goes by the name.
-/

namespace TensorJit

/-- The identity of a backend. -/
abbrev BackendId := Nat

/-- What the log says. -/
inductive LogEntry where
  /-- A new artifact is in the cache. -/
  | compiled (cacheSize functionSize : Nat)
  /-- An artifact was evicted, and so many bytes of tensors with it. -/
  | evicted (signature : Signature) (inputBytes outputBytes : Nat)
  /-- A function did not compile. -/
  | compileFailed (signature : Signature)
  /-- A function was dumped. -/
  | dumpWritten
  /-- A function could not be dumped. -/
  | dumpFailed
  deriving DecidableEq, Repr

/-- What all units share. -/
structure Platform where
  /-- Host storages and device tensors. -/
  memory : Memory
  /-- The backends, by identity. -/
  backends : Array Backend
  /-- The identities of the registered backends, by name. -/
  registered : SortedMap String BackendId
  /-- The registries of fresh copies, by number. -/
  registries : Array FreshnessRegistry
  /-- The profiling counters. -/
  profile : Profile
  /-- The identity for the next artifact. -/
  nextArtifact : ArtifactId
  /-- The files that functions are dumped to. -/
  files : FileTree
  /-- The log, oldest entry first. -/
  log : Array LogEntry
  deriving Inhabited

namespace Platform

/-- The platform before anything happens. -/
def empty : Platform := ⟨.empty, #[], .empty, #[], .empty, 0, .empty, #[]⟩

/-! ### Backends -/

/-- The backend with an identity. -/
def backend (p : Platform) (id : BackendId) : Backend := p.backends.getD id default

/-- Registers a new backend under its name, in place of another. -/
def register (p : Platform) (b : Backend) : BackendId × Platform :=
  let id := p.backends.size
  (id, { p with backends := p.backends.push b, registered := p.registered.insert b.name id })

/-- Whether a backend is registered under a name. -/
def isRegistered (p : Platform) (name : String) : Bool := p.registered.contains name

/-- The platform with nothing registered under a name. -/
def unregister (p : Platform) (name : String) : Platform :=
  { p with registered := p.registered.erase name }

/-- The backend of a class that is registered under a name. -/
def findBackend (p : Platform) (name : String) (wanted : BackendClass) : Except Error BackendId :=
  match p.registered.get? name with
  | none => .error (.backendUnavailable name)
  | some id =>
    if (p.backend id).kind.toClass = wanted then .ok id
    else .error (.backendUnavailable (name ++ " (registered with a different backend type)"))

/-- Takes the compile lock of a name, which exists while a backend is registered under it. -/
def lock (p : Platform) (name : String) : Except Error Unit :=
  if p.isRegistered name then .ok () else .error (.backendUnavailable name)

/-- A step of a backend. -/
def runBackend {α : Type} (p : Platform) (id : BackendId) (step : BackendM α) :
    Except BackendError α × Platform :=
  let keep (d : Device) : Platform :=
    { p with memory := d.memory, backends := p.backends.setIfInBounds id d.backend }
  match step.run ⟨p.backend id, p.memory⟩ with
  | .ok a d => (.ok a, keep d)
  | .error e d => (.error e, keep d)

/-! ### Host buffers and registries -/

/-- A new host buffer with the given contents. -/
def allocate (p : Platform) (t : Tensor) : HostBuffer × Platform :=
  let (b, memory) := p.memory.allocate t
  (b, { p with memory })

/-- The platform with the bytes of a host buffer replaced. -/
def setBytes (p : Platform) (b : HostBuffer) (bytes : Bytes) : Platform :=
  { p with memory := p.memory.setStorage b.storage bytes }

/-- A new registry of fresh copies. -/
def newRegistry (p : Platform) : Tracker × Platform :=
  (.registry p.registries.size, { p with registries := p.registries.push .empty })

/-- Whether a tracker vouches for the copy of a buffer. -/
def isFresh (p : Platform) (t : Tracker) (host : StorageId) (artifact : ArtifactId) : Bool :=
  t.isFresh p.registries host artifact

/-- Tells a tracker something. -/
def tell (p : Platform) (t : Tracker) (change : FreshnessRegistry → FreshnessRegistry) : Platform :=
  { p with registries := t.update p.registries change }

/-! ### Counters, log and files -/

/-- Counts a cache event. -/
def cacheEvent (p : Platform) (name : String) : Platform :=
  { p with profile := p.profile.cacheEvent name }

/-- Counts a compile step. -/
def compileStep (p : Platform) (name : String) : Platform :=
  { p with profile := p.profile.compileStep name }

/-- Adds an entry to the log. -/
def note (p : Platform) (entry : LogEntry) : Platform := { p with log := p.log.push entry }

/-- Dumps a function and logs how that went; the path, if it went well. -/
def dump (p : Platform) (path : FilePath) (f : Function) : Option FilePath × Platform :=
  let (written, files) := p.files.dump path f
  let p := { p with files }
  if written then (some path, p.note .dumpWritten) else (none, p.note .dumpFailed)

end Platform

end TensorJit
