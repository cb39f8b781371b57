import TensorJit.Executor.Basic

/-!
# From inputs to an executable

The signature of the inputs decides. If the cache has an artifact for it, that one is used, and
it counts as the most recently used. Otherwise the function is made by the translator, or taken
from the table of the unit, and compiled, or loaded from the table; then the least recently
used artifact is evicted if the cache is full, and the new one inserted.

**A compilation that fails, in whatever way, leaves the cache alone.** The statistic of the
miss stays, and so do the dumps.
-/

namespace TensorJit

/-- What the executor found or compiled for a list of inputs. -/
structure Lookup where
  /-- The identity of the artifact. -/
  artifact : ArtifactId
  /-- The executable. -/
  executable : Executable
  /-- The signature of the inputs. -/
  signature : Signature
  /-- Whether the artifact was in the cache. -/
  hit : Bool
  deriving DecidableEq, Repr

namespace ExecM

/-- The signature of the inputs. -/
def computeSignature (inputs : List HostBuffer) : ExecM Signature.Computed := do
  let s ← get
  ofExcept ((Signature.compute s.executor.statics (inputs.map s.platform.memory.read)).mapError
    Error.ofValueFault)

/-- The function for a signature: from the table, if the unit runs on one, or else from the
translator, under the name of the unit. -/
def obtainFunction (computed : Signature.Computed) : ExecM Function := do
  let e ← executor
  match e.config.aot, e.translator with
  | some table, _ =>
    match table.function? computed.signature with
    | some (some f) => return f
    | some none => throw (.serialization .stored)
    | none =>
      throw (.configInvalid (.noFunction e.unit.name e.unit.backendName computed.signature))
  | none, none => throw (.configInvalid (.noTranslator e.unit.name))
  | none, some translate => do
    changePlatform (·.compileStep "translate")
    let f ← ofExcept (translate e.unit.graph computed.specs computed.statics)
    return { f with name := e.unit.name }

/-- Dumps a function; the path, if that went well. -/
def dump (path : FilePath) (f : Function) : ExecM (Option FilePath) := do
  let s ← get
  let (written, platform) := s.platform.dump path f
  set { s with platform }
  return written

/-- The serialized executable for a signature, if the unit runs on a table. -/
def serializedFor (signature : Signature) : ExecM (Option Bytes) := do
  let e ← executor
  match e.config.aot with
  | none => return none
  | some table =>
    match table.executable? signature with
    | some serialized => return some serialized
    | none => throw (.configInvalid (.noExecutable e.unit.name e.unit.backendName signature))

/-- Compiles a function, or loads the executable for its signature. -/
def compile (signature : Signature) (f : Function) : ExecM Executable := do
  let e ← executor
  let serialized ← serializedFor signature
  changePlatform (·.compileStep "compile")
  ofExcept ((← platform).lock e.unit.backendName)
  let result ← tryBackend <| match serialized with
    | some serialized => Backend.load serialized
    | none => Backend.compile f
  match result with
  | .ok executable =>
    count fun c =>
      if serialized.isSome then { c with loads := c.loads + 1 }
      else { c with compiles := c.compiles + 1 }
    return executable
  | .error error =>
    let path ← dump (errorDumpPath e.config.dumpDirectory e.unit.name) f
    changePlatform (·.note (.compileFailed signature))
    throw (.compileFailed e.unit.name e.unit.backendName signature (.backend error) path)

/-- Evicts the least recently used artifact, and everything that was kept for it. -/
def evict : ExecM Unit := do
  let s ← get
  let (evicted, cache, profile) := s.executor.cache.evictCounted s.platform.profile
  set { s with executor.cache := cache, platform.profile := profile }
  match evicted with
  | none => return
  | some a =>
    discard <| tryBackend Backend.release
    let (inputBytes, outputBytes) := a.tensorBytes (← platform).memory
    changePlatform (·.tell s.executor.tracker (·.forget a.id))
    count fun c => { c with evictions := c.evictions + 1 }
    changePlatform (·.note (.evicted a.signature inputBytes outputBytes))

/-- Keeps a new artifact, evicting another if the cache is full. -/
def keep (signature : Signature) (executable : Executable) (f : Function) : ExecM ArtifactId := do
  if (← executor).cache.isFull then evict
  let id := (← platform).nextArtifact
  modify fun s => { s with
    executor.cache := s.executor.cache.insert (.new id signature executable f)
    platform.nextArtifact := id + 1 }
  changePlatform (·.note (.compiled (← executor).cache.size f.graphSize))
  return id

/-- The artifact of a signature that the cache has. -/
def useCached (id : ArtifactId) (signature : Signature) : ExecM Lookup := do
  let a ← artifact id
  count fun c => { c with hits := c.hits + 1 }
  changePlatform (·.cacheEvent "executable_cache_hit")
  return ⟨id, a.executable, signature, true⟩

/-- A new artifact for a signature that the cache does not have. -/
def compileNew (computed : Signature.Computed) : ExecM Lookup := do
  count fun c => { c with misses := c.misses + 1 }
  changePlatform (·.cacheEvent "executable_cache_miss")
  let f ← obtainFunction computed
  let e ← executor
  if e.config.dumpOnCompile then
    discard <| dump (dumpPath e.config.dumpDirectory e.unit.name) f
  let executable ← compile computed.signature f
  let id ← keep computed.signature executable f
  return ⟨id, executable, computed.signature, false⟩

/-- The artifact for the inputs, compiled if the cache does not have it. -/
def getExecutable (inputs : List HostBuffer) : ExecM Lookup := do
  let computed ← computeSignature inputs
  let s ← get
  let (found, cache) := s.executor.cache.lookup computed.signature
  set { s with executor.cache := cache }
  match found with
  | some id => useCached id computed.signature
  | none => compileNew computed

end ExecM

end TensorJit
