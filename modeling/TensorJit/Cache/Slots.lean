import TensorJit.Backend.Basic
import TensorJit.SortedMap

/-!
# Slots

For each position of an artifact's inputs or outputs, a slot remembers the host buffer it last
served and the tensor that served it, so that repeated calls need neither allocate nor copy.

What a call gets for a position follows from the slot, the placement of the backend, and
whether somebody vouches for the copy:

| | a new tensor | a stale one |
|---|---|---|
| no slot yet | yes | yes |
| another buffer, tensors in host buffers | yes | yes |
| another buffer, tensors of their own | no | yes |
| the same buffer | no | unless it is vouched for |

Outputs are always stale, since they are about to be written. If a new tensor cannot be made,
the slot stays as it was.
-/

namespace TensorJit

/-- What a position was last served with. -/
structure Slot where
  /-- The storage of the host buffer. -/
  host : StorageId
  /-- The tensor. -/
  tensor : TensorId
  deriving DecidableEq, Repr, Inhabited

/-- The slots of one side of an artifact, by position. -/
abbrev SlotTable := SortedMap Nat Slot

/-- What a position is served with. -/
structure SlotResolution where
  /-- The tensor. -/
  tensor : TensorId
  /-- Whether it was made for this call. -/
  created : Bool
  /-- Whether its contents are out of date. -/
  stale : Bool
  deriving DecidableEq, Repr, Inhabited

namespace SlotTable

/-- The tensor of a position. -/
def tensor? (slots : SlotTable) (position : Nat) : Option TensorId :=
  (slots.get? position).map (·.tensor)

/-- The bytes that the tensors of the slots take. -/
def byteLength (slots : SlotTable) (m : Memory) : Nat :=
  (slots.values.map fun s => (m.tensor s.tensor).spec.byteLength).foldr (· + ·) 0

/-- Serves a position for a host buffer; `vouched` says that the copy of the buffer is known
to be current. -/
def resolve (slots : SlotTable) (side : Side) (position : Nat) (host : HostBuffer)
    (vouched : Bool) : BackendM (SlotResolution × SlotTable) := do
  let hostBound := (← Backend.kindOf).isHostBound
  let previous := slots.get? position
  let moved := previous.map (·.host) ≠ some host.storage
  let created := previous.isNone || (hostBound && moved)
  let stale := side = .output || created || moved || !vouched
  let kept := if created then none else previous
  let tensor ← match kept with
    | some slot => pure slot.tensor
    | none => Backend.createTensor host.spec (if hostBound then some host else none)
  Backend.setStale tensor stale
  return (⟨tensor, created, stale⟩, slots.insert position ⟨host.storage, tensor⟩)

end SlotTable

end TensorJit
