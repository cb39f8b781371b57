import TensorJit.Freshness
import TensorJit.Tensor.Basic

/-!
# Memory

Two kinds of storage. A **host buffer** is a spec with the identity of a storage, and two
buffers that share a storage see each other's writes; a storage may be cut or extended behind
the buffers that use it. A **device tensor** has a storage of its own or is bound to one of the
host, and a flag that says whether its contents are out of date.

Nothing is ever taken away, so an identity once given out stays that of one storage or one
tensor. Reads and writes that do not fit the storage fail and change nothing.
-/

namespace TensorJit

/-- The identity of a device tensor. -/
abbrev TensorId := Nat

/-- A host tensor: a spec, and the storage its bytes are in. -/
structure HostBuffer where
  /-- Element type and shape. -/
  spec : TensorSpec
  /-- The storage. -/
  storage : StorageId
  deriving DecidableEq, Repr, Inhabited

/-- Where a device tensor keeps its bytes. -/
inductive Residence where
  /-- In a storage of the host. -/
  | host (storage : StorageId)
  /-- In a storage of its own. -/
  | own (bytes : Bytes)
  deriving DecidableEq, Repr

instance : Inhabited Residence := ⟨.own []⟩

/-- A tensor as a backend sees it. -/
structure DeviceTensor where
  /-- Element type and shape. -/
  spec : TensorSpec
  /-- Where the bytes are. -/
  residence : Residence
  /-- Whether the contents are out of date. -/
  stale : Bool
  deriving DecidableEq, Repr, Inhabited

/-- The storages of the host and the tensors of all backends. -/
structure Memory where
  /-- The storages of the host, by identity. -/
  storages : Array Bytes
  /-- The device tensors, by identity. -/
  tensors : Array DeviceTensor
  deriving DecidableEq, Repr, Inhabited

namespace Memory

/-- The memory without storages and tensors. -/
def empty : Memory := ⟨#[], #[]⟩

/-! ### Host storages -/

/-- The bytes of a storage. -/
def storage (m : Memory) (id : StorageId) : Bytes := m.storages.getD id []

/-- The memory with the bytes of a storage replaced. -/
def setStorage (m : Memory) (id : StorageId) (bytes : Bytes) : Memory :=
  { m with storages := m.storages.setIfInBounds id bytes }

/-- A new host buffer with the given contents. -/
def allocate (m : Memory) (t : Tensor) : HostBuffer × Memory :=
  (⟨t.spec, m.storages.size⟩, { m with storages := m.storages.push t.bytes })

/-- The contents of a host buffer. -/
def read (m : Memory) (b : HostBuffer) : Tensor := ⟨b.spec, m.storage b.storage⟩

/-! ### Device tensors -/

/-- The tensor with an identity. -/
def tensor (m : Memory) (id : TensorId) : DeviceTensor := m.tensors.getD id default

/-- A new device tensor, out of date as yet. -/
def createTensor (m : Memory) (spec : TensorSpec) (residence : Residence) : TensorId × Memory :=
  (m.tensors.size, { m with tensors := m.tensors.push ⟨spec, residence, true⟩ })

/-- The memory with the flag of a tensor set. -/
def setStale (m : Memory) (id : TensorId) (stale : Bool) : Memory :=
  { m with tensors := m.tensors.modify id fun t => { t with stale } }

/-- The bytes of a tensor. -/
def contents (m : Memory) (id : TensorId) : Bytes :=
  match (m.tensor id).residence with
  | .host storage => m.storage storage
  | .own bytes => bytes

/-- The memory with the bytes of a tensor replaced. -/
def setContents (m : Memory) (id : TensorId) (bytes : Bytes) : Memory :=
  match (m.tensor id).residence with
  | .host storage => m.setStorage storage bytes
  | .own _ => { m with tensors := m.tensors.modify id fun t => { t with residence := .own bytes } }

/-- Whether a tensor keeps its bytes in the storage of a host buffer. -/
def aliases (m : Memory) (id : TensorId) (b : HostBuffer) : Bool :=
  (m.tensor id).residence = .host b.storage

/-- The memory with the bytes of a tensor from `offset` on overwritten, if they fit. -/
def overwrite? (m : Memory) (id : TensorId) (source : Bytes) (offset : Nat) : Option Memory :=
  ((m.contents id).overwrite? source offset).map (m.setContents id)

end Memory

end TensorJit
