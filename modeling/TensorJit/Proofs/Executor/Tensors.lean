import TensorJit.Proofs.Executor.Compile

/-!
# The tensors of an executor

An artifact has tensors in its slots and in the rows of its pipeline, each at one `Place`. No
two places of an executor have the same tensor (`Cache.Owns`), so a step that serves one place
leaves alone the tensors of all others, and all tensors of other executors. That is what
`ExecState.Within` says of two states: **outside some places nothing has changed**.

A tensor fits its place (`Artifact.Fits`) when it has the spec of the position and the right
home. On a backend that keeps tensors in host buffers this is the
storage of the buffer that the slot last served; on the others it is a storage of its own of the
size that the spec asks for.
-/

namespace TensorJit

/-- Where an artifact has a tensor. -/
inductive Place where
  /-- In the slot of a position. -/
  | slot (side : Side) (position : Nat)
  /-- In the row of a position and the column of a group. -/
  | group (side : Side) (position column : Nat)
  deriving DecidableEq

/-- The slots of one side. -/
def Artifact.slots (a : Artifact) : Side → SlotTable
  | .input => a.inputs
  | .output => a.outputs

/-- The rows of one side. -/
def Pipeline.rows {τ : Type} (p : Pipeline τ) : Side → List (List τ)
  | .input => p.inputs
  | .output => p.outputs

/-- The specs that a function declares on one side. -/
def Function.specs (f : Function) : Side → List TensorSpec
  | .input => f.parameters
  | .output => f.results

/-- The tensor at a place. -/
def Artifact.tensorAt (a : Artifact) : Place → Option TensorId
  | .slot side position => (a.slots side).tensor? position
  | .group side position column =>
    a.pipeline.bind fun p => (p.rows side)[position]?.bind (·[column]?)

/-- The tensor at a place of the artifact with an identity. -/
def Cache.tensorAt (c : Cache) (id : ArtifactId) (place : Place) : Option TensorId :=
  (c.get? id).bind (·.tensorAt place)

/-- The tensor of a slot is at its place. -/
theorem Cache.tensorAt_slot {c : Cache} {id : ArtifactId} {a : Artifact} {side : Side}
    {position : Nat} {slot : Slot} (ha : c.get? id = some a)
    (hslot : (a.slots side).get? position = some slot) :
    c.tensorAt id (.slot side position) = some slot.tensor := by
  unfold tensorAt
  rw [ha, Option.bind_some]
  change (a.slots side).tensor? position = _
  unfold SlotTable.tensor?
  rw [hslot, Option.map_some]

/-- The tensors of all artifacts exist, and no two places have the same one. -/
structure Cache.Owns (c : Cache) (m : Memory) : Prop where
  /-- They exist. -/
  live : ∀ i p t, c.tensorAt i p = some t → t < m.tensors.size
  /-- Two places have two tensors. -/
  apart : ∀ i j p q t, c.tensorAt i p = some t → c.tensorAt j q = some t → i = j ∧ p = q

theorem Cache.Owns.of_sub {c d : Cache} {m n : Memory} (h : c.Owns m)
    (hsize : m.tensors.size ≤ n.tensors.size)
    (hsub : ∀ i p t, d.tensorAt i p = some t → c.tensorAt i p = some t) : d.Owns n where
  live i p t ht := Nat.lt_of_lt_of_le (h.live i p t (hsub i p t ht)) hsize
  apart i j p q t hp hq := h.apart i j p q t (hsub i p t hp) (hsub j q t hq)

namespace ExecState

variable {S : ArtifactId → Place → Prop} {s t u : ExecState}

/-- Outside some places of the executor nothing has changed, and none of its tensors has become
that of two places. -/
structure Within (S : ArtifactId → Place → Prop) (s t : ExecState) : Prop where
  /-- The tensors are still those of one place each. -/
  owns : t.cache.Owns t.memory
  /-- Other places have the tensors that they had. -/
  places : ∀ i p, ¬ S i p → t.cache.tensorAt i p = s.cache.tensorAt i p
  /-- Tensors of other places are as they were. -/
  kept : ∀ i p id, ¬ S i p → s.cache.tensorAt i p = some id →
    t.memory.tensor id = s.memory.tensor id
  /-- Tensors of other executors are as they were, and still not of this one. -/
  loose : ∀ id, id < s.memory.tensors.size → (∀ i p, s.cache.tensorAt i p ≠ some id) →
    t.memory.tensor id = s.memory.tensor id ∧ ∀ i p, t.cache.tensorAt i p ≠ some id
  /-- No tensor is taken away. -/
  size : s.memory.tensors.size ≤ t.memory.tensors.size

theorem Within.refl (S : ArtifactId → Place → Prop) (h : s.cache.Owns s.memory) :
    Within S s s :=
  ⟨h, fun _ _ _ => rfl, fun _ _ _ _ _ => rfl, fun _ _ hloose => ⟨rfl, hloose⟩, Nat.le_refl _⟩

theorem Within.trans (h : Within S s t) (h' : Within S t u) : Within S s u where
  owns := h'.owns
  places i p hp := (h'.places i p hp).trans (h.places i p hp)
  kept i p id hp hid :=
    (h'.kept i p id hp ((h.places i p hp).trans hid)).trans (h.kept i p id hp hid)
  loose id hlt hloose := by
    obtain ⟨htensor, hloose'⟩ := h.loose id hlt hloose
    obtain ⟨htensor', hloose''⟩ := h'.loose id (Nat.lt_of_lt_of_le hlt h.size) hloose'
    exact ⟨htensor'.trans htensor, hloose''⟩
  size := Nat.le_trans h.size h'.size

theorem Within.mono {S' : ArtifactId → Place → Prop} (h : Within S s t)
    (hS : ∀ i p, S i p → S' i p) : Within S' s t where
  owns := h.owns
  places i p hp := h.places i p fun hs => hp (hS i p hs)
  kept i p id hp := h.kept i p id fun hs => hp (hS i p hs)
  loose := h.loose
  size := h.size

/-- Some tensors have been touched, each of which has one of the places. -/
theorem Within.of_touched (h : s.cache.Owns s.memory) (hcache : t.cache = s.cache)
    (hsize : s.memory.tensors.size ≤ t.memory.tensors.size) (touched : TensorId → Prop)
    (hplace : ∀ id, touched id → ∃ i p, S i p ∧ s.cache.tensorAt i p = some id)
    (htensors : ∀ id, id < s.memory.tensors.size → ¬ touched id →
      t.memory.tensor id = s.memory.tensor id) : Within S s t where
  owns := h.of_sub hsize fun i p id hid => hcache ▸ hid
  places i p _ := by rw [hcache]
  kept i p id hp hid := by
    refine htensors id (h.live i p id hid) fun htouched => ?_
    obtain ⟨j, q, hq, hat⟩ := hplace id htouched
    obtain ⟨rfl, rfl⟩ := h.apart i j p q id hid hat
    exact hp hq
  loose id hlt hloose := by
    refine ⟨htensors id hlt fun htouched => ?_, fun i p => hcache ▸ hloose i p⟩
    obtain ⟨i, p, -, hat⟩ := hplace id htouched
    exact hloose i p hat
  size := hsize

/-- Nothing but what the executor and its memory have besides tensors. -/
theorem Within.of_eq (S : ArtifactId → Place → Prop) (h : s.cache.Owns s.memory)
    (hcache : t.cache = s.cache) (htensors : t.memory.tensors = s.memory.tensors) :
    Within S s t :=
  .of_touched h hcache (Nat.le_of_eq (by rw [htensors])) (fun _ => False) nofun fun id _ _ => by
    unfold Memory.tensor
    rw [htensors]

/-- **One place is served**, with the tensor it had or a new one, and no other tensor is
touched. -/
theorem Within.of_place {i₀ : ArtifactId} {p₀ : Place} {id : TensorId}
    (h : s.cache.Owns s.memory)
    (hcache : ∀ i p, t.cache.tensorAt i p =
      if i = i₀ ∧ p = p₀ then some id else s.cache.tensorAt i p)
    (hsize : s.memory.tensors.size ≤ t.memory.tensors.size)
    (hid : s.cache.tensorAt i₀ p₀ = some id ∨
      s.memory.tensors.size ≤ id ∧ id < t.memory.tensors.size)
    (htensor : ∀ j, j < s.memory.tensors.size → j ≠ id →
      t.memory.tensor j = s.memory.tensor j) :
    Within (fun i p => i = i₀ ∧ p = p₀) s t := by
  -- Elsewhere the tensor is not to be found.
  have hne : ∀ i p j, ¬ (i = i₀ ∧ p = p₀) → s.cache.tensorAt i p = some j → j ≠ id := by
    rintro i p j hp hj rfl
    rcases hid with hid | ⟨hge, -⟩
    · exact hp (h.apart i i₀ p p₀ j hj hid)
    · exact absurd (h.live i p j hj) (Nat.not_lt_of_le hge)
  have hlive : id < t.memory.tensors.size := by
    rcases hid with hid | ⟨-, hlt⟩
    · exact Nat.lt_of_lt_of_le (h.live i₀ p₀ id hid) hsize
    · exact hlt
  refine ⟨⟨fun i p j hj => ?_, fun i j p q x hp hq => ?_⟩, fun i p hp => ?_,
    fun i p j hp hj => ?_, fun j hlt hloose => ?_, hsize⟩
  · rw [hcache] at hj
    split at hj
    · cases hj
      exact hlive
    · exact Nat.lt_of_lt_of_le (h.live i p j hj) hsize
  · rw [hcache] at hp hq
    split at hp
    · rename_i hi
      cases hp
      split at hq
      · rename_i hj
        exact ⟨hi.1.trans hj.1.symm, hi.2.trans hj.2.symm⟩
      · rename_i hj
        exact absurd rfl (hne j q id hj hq)
    · rename_i hi
      split at hq
      · cases hq
        exact absurd rfl (hne i p id hi hp)
      · exact h.apart i j p q x hp hq
  · rw [hcache, if_neg hp]
  · exact htensor j (h.live i p j hj) (hne i p j hp hj)
  · have hj : j ≠ id := by
      rintro rfl
      rcases hid with hid | ⟨hge, -⟩
      · exact hloose i₀ p₀ hid
      · exact absurd hlt (Nat.not_lt_of_le hge)
    refine ⟨htensor j hlt hj, fun i p => ?_⟩
    rw [hcache]
    split
    · exact fun heq => hj (Option.some.inj heq).symm
    · exact hloose i p

end ExecState

/-! ### Tensors that fit -/

/-- The home of a tensor for a position, on a backend of a kind. -/
def homeFor (κ : BackendKind) (spec : TensorSpec) (host : StorageId) : Home :=
  if κ.isHostBound then .host host else .own spec.byteLength

/-- The tensor of a slot has a spec, and the home that a backend of a kind gives it. -/
structure Slot.Fits (κ : BackendKind) (m : Memory) (spec : TensorSpec) (slot : Slot) : Prop where
  /-- It exists. -/
  live : slot.tensor < m.tensors.size
  /-- It has the spec. -/
  spec_eq : (m.tensor slot.tensor).spec = spec
  /-- It has the home. -/
  home : m.home slot.tensor = homeFor κ spec slot.host

theorem Slot.Fits.extends {κ : BackendKind} {m n : Memory} {spec : TensorSpec} {slot : Slot}
    (h : slot.Fits κ m spec) (hmn : m.Extends n) : slot.Fits κ n spec :=
  ⟨Nat.lt_of_lt_of_le h.live hmn.tensors, (hmn.spec _ h.live).trans h.spec_eq,
    (hmn.home _ h.live).trans h.home⟩

/-- **A tensor is at home in its slot** if it fits the slot with the spec that it was made for,
whichever this is. -/
def Slot.AtHome (κ : BackendKind) (m : Memory) (slot : Slot) : Prop :=
  slot.Fits κ m (m.tensor slot.tensor).spec

namespace Slot

variable {κ : BackendKind} {m n : Memory} {spec : TensorSpec} {slot : Slot}

theorem Fits.atHome (h : slot.Fits κ m spec) : slot.AtHome κ m := by
  unfold AtHome
  rw [h.spec_eq]
  exact h

/-- A tensor at home fits what it was made for. -/
theorem AtHome.fits (h : slot.AtHome κ m) (hspec : (m.tensor slot.tensor).spec = spec) :
    slot.Fits κ m spec := hspec ▸ h

theorem AtHome.extends (h : slot.AtHome κ m) (hmn : m.Extends n) : slot.AtHome κ n :=
  (Fits.extends h hmn).atHome

/-- A tensor at home is bound to no storage of the host but that of the buffer that the slot last
served, and to that only where tensors are kept in host buffers. -/
theorem AtHome.bound (h : slot.AtHome κ m) {storage : StorageId}
    (hhome : m.home slot.tensor = .host storage) :
    κ.isHostBound = true ∧ slot.host = storage := by
  have hfor := h.home.symm.trans hhome
  unfold homeFor at hfor
  split at hfor
  · rename_i hbound
    exact ⟨hbound, Home.host.inj hfor⟩
  · cases hfor

/-- Where tensors have storage of their own, it does not matter which buffer a slot serves. -/
theorem Fits.serving (h : slot.Fits κ m spec) {host : StorageId}
    (hhost : κ.isHostBound = true → slot.host = host) : Slot.Fits κ m spec ⟨host, slot.tensor⟩ := by
  refine ⟨h.live, h.spec_eq, ?_⟩
  change m.home slot.tensor = homeFor κ spec host
  rw [h.home]
  unfold homeFor
  split
  · rename_i hbound
    rw [hhost hbound]
  · rfl

end Slot

namespace SlotTable

variable {slots : SlotTable} {κ : BackendKind} {m n : Memory} {external : List Nat}
  {hosts : List HostBuffer}

/-- The tensor of a slot is used again for a buffer: where tensors are kept in host buffers, only
for the one that the slot last served. -/
structure Reuses (slots : SlotTable) (κ : BackendKind) (position : Nat) (host : HostBuffer)
    (slot : Slot) : Prop where
  /-- The position has this slot. -/
  get? : slots.get? position = some slot
  /-- On such a backend the slot last served this buffer. -/
  bound : κ.isHostBound = true → slot.host = host.storage

/-- **Every tensor that is used again for one of the buffers was made for its spec**, apart from
positions that are bound elsewhere. -/
def MadeFor (slots : SlotTable) (κ : BackendKind) (m : Memory) (external : List Nat)
    (hosts : List HostBuffer) : Prop :=
  ∀ (q : Nat) (host : HostBuffer) (slot : Slot), hosts[q]? = some host →
    external.contains q = false → slots.Reuses κ q host slot →
    (m.tensor slot.tensor).spec = host.spec

/-- Every tensor that is used again for one of the buffers fits it. -/
def FitsFor (slots : SlotTable) (κ : BackendKind) (m : Memory) (external : List Nat)
    (hosts : List HostBuffer) : Prop :=
  ∀ (q : Nat) (host : HostBuffer) (slot : Slot), hosts[q]? = some host →
    external.contains q = false → slots.Reuses κ q host slot → slot.Fits κ m host.spec

theorem FitsFor.extends (h : slots.FitsFor κ m external hosts) (hmn : m.Extends n) :
    slots.FitsFor κ n external hosts := fun q host slot hhost hin hslot =>
  (h q host slot hhost hin hslot).extends hmn

/-- Tensors at home fit what they were made for. -/
theorem MadeFor.fitsFor (h : slots.MadeFor κ m external hosts)
    (hhome : ∀ position slot, slots.get? position = some slot → slot.AtHome κ m) :
    slots.FitsFor κ m external hosts := fun q host slot hhost hin hslot =>
  (hhome q slot hslot.get?).fits (h q host slot hhost hin hslot)

end SlotTable

/-- A pipeline has a tensor for each position and each group, and knows its groups. -/
structure Pipeline.Fits (m : Memory) (f : Function) (p : Pipeline TensorId) : Prop where
  /-- There is a position on each side. -/
  positions : ∀ side, f.specs side ≠ []
  /-- There is a row for each position. -/
  rows : ∀ side, (p.rows side).length = (f.specs side).length
  /-- Each row has a column for each group. -/
  columns : ∀ side, ∀ row ∈ p.rows side, row.length = p.depth
  /-- The tensors have the specs of their positions, and storages of their own. -/
  tensors : ∀ (side : Side) (position : Nat) (row : List TensorId) (id : TensorId),
    (p.rows side)[position]? = some row → id ∈ row →
    ∃ spec, (f.specs side)[position]? = some spec ∧ id < m.tensors.size ∧
      (m.tensor id).spec = spec ∧ m.home id = .own spec.byteLength
  /-- The free groups are groups. -/
  free : ∀ i ∈ p.free, i < p.depth
  /-- There is a flag for each group. -/
  flags : p.flags.length = p.depth

theorem Pipeline.Fits.extends {m n : Memory} {f : Function} {p : Pipeline TensorId}
    (h : p.Fits m f) (hmn : m.Extends n) : p.Fits n f :=
  { h with
    tensors := fun side position row id hrow hid => by
      obtain ⟨spec, hspec, hlive, htensor, hhome⟩ := h.tensors side position row id hrow hid
      exact ⟨spec, hspec, Nat.lt_of_lt_of_le hlive hmn.tensors,
        (hmn.spec id hlive).trans htensor, (hmn.home id hlive).trans hhome⟩ }

/-- The specs of the positions of an artifact, if its inputs have the given ones. -/
def Artifact.specs (a : Artifact) (ins : List TensorSpec) : Side → List TensorSpec
  | .input => ins
  | .output => a.executable.function.results

/-- Every tensor of an artifact fits its place, for inputs of the given specs. -/
structure Artifact.Fits (κ : BackendKind) (m : Memory) (ins : List TensorSpec) (a : Artifact) :
    Prop where
  /-- The tensors of the slots fit. -/
  slots : ∀ side position slot, (a.slots side).get? position = some slot →
    ∃ spec, (a.specs ins side)[position]? = some spec ∧ slot.Fits κ m spec
  /-- The pipeline fits. -/
  pipeline : ∀ p, a.pipeline = some p → p.Fits m a.executable.function

theorem Artifact.Fits.extends {κ : BackendKind} {m n : Memory} {ins : List TensorSpec}
    {a : Artifact} (h : a.Fits κ m ins) (hmn : m.Extends n) : a.Fits κ n ins where
  slots side position slot hslot := by
    obtain ⟨spec, hspec, hfits⟩ := h.slots side position slot hslot
    exact ⟨spec, hspec, hfits.extends hmn⟩
  pipeline p hp := (h.pipeline p hp).extends hmn

/-- Every slot fits the buffer at its position, if the buffers have the specs of the positions. -/
theorem Artifact.Fits.fitsFor {κ : BackendKind} {m : Memory} {ins : List TensorSpec}
    {a : Artifact} (h : a.Fits κ m ins) (side : Side) {buffers : List HostBuffer}
    (hspecs : buffers.map (·.spec) = a.specs ins side) (external : List Nat) :
    (a.slots side).FitsFor κ m external buffers := by
  intro q host slot hhost _ hslot
  obtain ⟨spec, hspec, hfits⟩ := h.slots side q slot hslot.get?
  rw [← hspecs, List.getElem?_map, hhost] at hspec
  obtain rfl := Option.some.inj hspec
  exact hfits

/-- The tensors of an artifact are at home: those of its slots, and those of its pipeline, which
have storage of their own. -/
structure Artifact.AtHome (κ : BackendKind) (m : Memory) (a : Artifact) : Prop where
  /-- Those of the slots. -/
  slots : ∀ side position slot, (a.slots side).get? position = some slot → slot.AtHome κ m
  /-- Those of the pipeline. -/
  pipeline : ∀ p, a.pipeline = some p → p.Fits m a.executable.function

theorem Artifact.Fits.atHome {κ : BackendKind} {m : Memory} {ins : List TensorSpec}
    {a : Artifact} (h : a.Fits κ m ins) : a.AtHome κ m where
  slots side position slot hslot := by
    obtain ⟨_, -, hfits⟩ := h.slots side position slot hslot
    exact hfits.atHome
  pipeline := h.pipeline

/-- A new artifact has no tensors that could not fit. -/
theorem Artifact.fits_new (κ : BackendKind) (m : Memory) (ins : List TensorSpec)
    (id : ArtifactId) (signature : Signature) (e : Executable) (f : Function) :
    (Artifact.new id signature e f).Fits κ m ins where
  slots side position slot h := by
    cases side with
    | input => cases h
    | output => cases h
  pipeline p h := by cases h

/-- The artifact with another table of slots on one side. -/
def Artifact.withSlots (a : Artifact) (side : Side) (slots : SlotTable) : Artifact :=
  match side with
  | .input => { a with inputs := slots }
  | .output => { a with outputs := slots }

theorem Artifact.bare_withSlots (a : Artifact) (side : Side) (slots : SlotTable) :
    (a.withSlots side slots).bare = a.bare := by
  cases side with
  | input => rfl
  | output => rfl

theorem Artifact.slots_withSlots (a : Artifact) (side : Side) (slots : SlotTable)
    (side' : Side) : (a.withSlots side slots).slots side' =
      if side' = side then slots else a.slots side' := by
  cases side with
  | input => cases side' <;> rfl
  | output => cases side' <;> rfl

theorem Artifact.pipeline_withSlots (a : Artifact) (side : Side) (slots : SlotTable) :
    (a.withSlots side slots).pipeline = a.pipeline := by
  cases side with
  | input => rfl
  | output => rfl

theorem Artifact.executable_withSlots (a : Artifact) (side : Side) (slots : SlotTable) :
    (a.withSlots side slots).executable = a.executable := by
  cases side with
  | input => rfl
  | output => rfl

theorem Artifact.withSlots_slots (a : Artifact) (side : Side) :
    a.withSlots side (a.slots side) = a := by
  cases side with
  | input => rfl
  | output => rfl

theorem Artifact.withSlots_withSlots (a : Artifact) (side : Side) (slots slots' : SlotTable) :
    (a.withSlots side slots).withSlots side slots' = a.withSlots side slots' := by
  cases side with
  | input => rfl
  | output => rfl

/-- A slot is filled at one place. -/
theorem Artifact.tensorAt_withSlots_insert (a : Artifact) (side : Side) (position : Nat)
    (slot : Slot) (p : Place) :
    (a.withSlots side ((a.slots side).insert position slot)).tensorAt p =
      if p = .slot side position then some slot.tensor else a.tensorAt p := by
  cases p with
  | slot side' position' =>
    change ((a.withSlots side _).slots side').tensor? position' = _
    unfold SlotTable.tensor?
    rw [slots_withSlots]
    by_cases hside : side' = side
    · subst hside
      rw [if_pos rfl, SortedMap.get?_insert]
      by_cases hposition : position' = position
      · rw [if_pos hposition, if_pos (by rw [hposition])]
        rfl
      · rw [if_neg hposition, if_neg fun h => hposition (Place.slot.inj h).2]
        rfl
    · rw [if_neg hside, if_neg fun h => hside (Place.slot.inj h).1]
      rfl
  | group side' position' column =>
    change (a.withSlots side _).pipeline.bind _ = _
    rw [pipeline_withSlots, if_neg nofun]
    rfl

/-- An artifact is replaced in the cache. -/
theorem Cache.tensorAt_update {c : Cache} {id : ArtifactId} {a : Artifact}
    (ha : c.get? id = some a) (b : Artifact) (i : ArtifactId) (p : Place) :
    (c.update id b).tensorAt i p = if i = id then b.tensorAt p else c.tensorAt i p := by
  unfold tensorAt
  rw [get?_update]
  split
  · rw [ha]
    rfl
  · rfl

end TensorJit
