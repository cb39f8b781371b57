import TensorJit.Cache.Pipeline
import TensorJit.Cache.Slots
import TensorJit.Profile
import TensorJit.Signature

/-!
# The cache of compiled artifacts

An artifact is an executable with the function it was compiled from and the tensors it has been
given. The cache finds artifacts by identity and by signature and knows in which order their
signatures were last used. Its three parts say the same thing three times: **the order lists
every signature of the index once, and the index leads to every artifact once.**

The cache never drops an artifact of its own accord. Whoever inserts into a full cache evicts
the least recently used artifact first.
-/

namespace TensorJit

/-- A compiled function and the tensors it has been given. -/
structure Artifact where
  /-- Its identity, which no other artifact ever has. -/
  id : ArtifactId
  /-- The signature it was compiled for. -/
  signature : Signature
  /-- The executable. -/
  executable : Executable
  /-- The function it was compiled from. -/
  function : Function
  /-- The slots of the inputs. -/
  inputs : SlotTable
  /-- The slots of the outputs. -/
  outputs : SlotTable
  /-- The pipeline, once it is used. -/
  pipeline : Option (Pipeline TensorId)
  deriving DecidableEq, Inhabited

namespace Artifact

/-- A new artifact, without tensors. -/
def new (id : ArtifactId) (signature : Signature) (executable : Executable)
    (function : Function) : Artifact :=
  ⟨id, signature, executable, function, .empty, .empty, none⟩

/-- The number of positions that have a tensor. -/
def slotCount (a : Artifact) : Nat := a.inputs.size + a.outputs.size

/-- The number of pipeline groups in flight. -/
def inFlight (a : Artifact) : Nat := (a.pipeline.map (·.inFlight)).getD 0

/-- The bytes that the tensors of the inputs and of the outputs take. -/
def tensorBytes (a : Artifact) (m : Memory) : Nat × Nat :=
  let size (id : TensorId) : Nat := (m.tensor id).spec.byteLength
  (a.inputs.byteLength m + (a.pipeline.map (·.inputBytes size)).getD 0,
    a.outputs.byteLength m + (a.pipeline.map (·.outputBytes size)).getD 0)

end Artifact

/-- The artifacts that an executor keeps. -/
structure Cache where
  /-- The greatest number of artifacts, at least one. -/
  depth : Nat
  /-- The artifacts, by identity. -/
  artifacts : SortedMap ArtifactId Artifact
  /-- The identity of the artifact of each signature. -/
  index : SortedMap Signature ArtifactId
  /-- The signatures, the most recently used first. -/
  order : List Signature
  deriving DecidableEq, Inhabited

namespace Cache

/-- A cache without artifacts. -/
def new (depth : Nat) : Cache := ⟨max depth 1, .empty, .empty, []⟩

/-- The number of artifacts. -/
def size (c : Cache) : Nat := c.artifacts.size

/-- Whether no artifact can be added without evicting one. -/
def isFull (c : Cache) : Bool := c.depth ≤ c.size

/-- The artifact with an identity. -/
def get? (c : Cache) (id : ArtifactId) : Option Artifact := c.artifacts.get? id

/-- The identity of the artifact of a signature; nothing is noted as used. -/
def peek? (c : Cache) (signature : Signature) : Option ArtifactId := c.index.get? signature

/-- The order with a signature moved to the front. -/
def touch (signature : Signature) (order : List Signature) : List Signature :=
  if order.head? = some signature then order else signature :: order.erase signature

/-- The identity of the artifact of a signature, which is noted as used. -/
def lookup (c : Cache) (signature : Signature) : Option ArtifactId × Cache :=
  match c.peek? signature with
  | none => (none, c)
  | some id => (some id, { c with order := touch signature c.order })

/-- The cache with the artifact of an identity replaced. -/
def update (c : Cache) (id : ArtifactId) (a : Artifact) : Cache :=
  { c with artifacts := c.artifacts.modify id fun _ => a }

/-- The cache with an artifact added as the most recently used, in place of another with its
signature. -/
def insert (c : Cache) (a : Artifact) : Cache :=
  let (artifacts, order) := match c.peek? a.signature with
    | some previous => (c.artifacts.erase previous, c.order.erase a.signature)
    | none => (c.artifacts, c.order)
  { c with
    artifacts := artifacts.insert a.id a
    index := c.index.insert a.signature a.id
    order := a.signature :: order }

/-- The least recently used artifact, taken out of the cache. -/
def evict (c : Cache) : Option Artifact × Cache :=
  match c.order.getLast? with
  | none => (none, c)
  | some signature =>
    let c := { c with order := c.order.dropLast }
    match c.peek? signature with
    | none => (none, c)
    | some id =>
      (c.get? id, { c with index := c.index.erase signature, artifacts := c.artifacts.erase id })

/-- An eviction, which counts as a cache event if there was something to evict. -/
def evictCounted (c : Cache) (p : Profile) : Option Artifact × Cache × Profile :=
  match c.evict with
  | (some a, c) => (some a, c, p.cacheEvent "executable_cache_evict")
  | (none, c) => (none, c, p)

end Cache

end TensorJit
