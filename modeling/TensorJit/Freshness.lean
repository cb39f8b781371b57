import TensorJit.SortedMap

/-!
# Freshness of device copies

A device input need not be copied again while the copy made for an artifact is current. A
registry records for which pairs of a host buffer and an artifact this is so. It only knows
what it is told: **a pair is fresh from the moment it is marked until its buffer is invalidated
or its artifact forgotten.** Whoever changes a buffer in place has to invalidate it.

A buffer without a current copy has no record at all, so the number of pairs is zero exactly
when the registry is empty.
-/

namespace TensorJit

/-- The identity of a host buffer's storage. -/
abbrev StorageId := Nat

/-- The identity of a compiled artifact. -/
abbrev ArtifactId := Nat

/-- The pairs of a host buffer and an artifact whose copy is current. -/
structure FreshnessRegistry where
  /-- For each buffer, the artifacts that hold a current copy of it. -/
  copies : SortedMap StorageId (List ArtifactId)
  deriving DecidableEq, Inhabited

namespace FreshnessRegistry

/-- The registry without pairs. -/
def empty : FreshnessRegistry := ⟨.empty⟩

/-- The artifacts that hold a current copy of a buffer. -/
def holders (r : FreshnessRegistry) (host : StorageId) : List ArtifactId :=
  (r.copies.get? host).getD []

/-- Whether the copy of a buffer for an artifact is current. -/
def isFresh (r : FreshnessRegistry) (host : StorageId) (artifact : ArtifactId) : Bool :=
  (r.holders host).contains artifact

/-- The copy of the buffer for the artifact has just been made. -/
def mark (r : FreshnessRegistry) (host : StorageId) (artifact : ArtifactId) : FreshnessRegistry :=
  ⟨r.copies.insert host ((r.holders host).insert artifact)⟩

/-- The contents of the buffer have changed. -/
def invalidate (r : FreshnessRegistry) (host : StorageId) : FreshnessRegistry :=
  ⟨r.copies.erase host⟩

/-- The artifact is gone, and with it every record that is left without artifacts. -/
def forget (r : FreshnessRegistry) (artifact : ArtifactId) : FreshnessRegistry :=
  ⟨(r.copies.mapValues fun l => l.erase artifact).filter fun _ l => !l.isEmpty⟩

/-- The number of pairs. -/
def size (r : FreshnessRegistry) : Nat := (r.copies.values.map List.length).foldr (· + ·) 0

/-- Whether there is no pair. -/
def isEmpty (r : FreshnessRegistry) : Bool := r.size = 0

end FreshnessRegistry

/-- Whom a unit asks whether a copy is current. -/
inductive Tracker where
  /-- Nobody: every copy counts as out of date. -/
  | never
  /-- The registry with this number, which may be shared with other units. -/
  | registry (number : Nat)
  deriving DecidableEq, Repr, Inhabited

namespace Tracker

/-- The registry with a number. -/
def registryOf (registries : Array FreshnessRegistry) (number : Nat) : FreshnessRegistry :=
  registries.getD number .empty

/-- Whether the copy of a buffer for an artifact is current. -/
def isFresh (t : Tracker) (registries : Array FreshnessRegistry) (host : StorageId)
    (artifact : ArtifactId) : Bool :=
  match t with
  | .never => false
  | .registry number => (registryOf registries number).isFresh host artifact

/-- The registries after a change to the one that is asked, if one is. -/
def update (t : Tracker) (registries : Array FreshnessRegistry)
    (change : FreshnessRegistry → FreshnessRegistry) : Array FreshnessRegistry :=
  match t with
  | .never => registries
  | .registry number => registries.modify number change

end Tracker

end TensorJit
