import TensorJit.Proofs.Executor.Slots
import TensorJit.Proofs.Freshness

/-!
# Serving all positions of a call

The positions of one side are served one after the other, and none of them is disturbed by
those that come later: every slot has the tensor that its position was served with
(`Filled`). Of the inputs more is said (`Loaded`). **An input tensor holds what the buffer
holds, unless the copy is left out** (`Skips`); and a copy is left out exactly when the slot
last served this buffer and the tracker vouches for it, be it from before the call or because
the same buffer has just been copied for an earlier position.

If a tensor cannot be made, all of this holds of the positions before.
-/

namespace TensorJit

open ExecState (Within OnlyMemory)

/-- The first positions of one side of an artifact have got tensors in their slots. -/
structure Placed (s : ExecState) (id : ArtifactId) (a : Artifact) (side : Side)
    (hosts : List HostBuffer) (external : List Nat) (tensors : List (Option TensorId))
    (slots : SlotTable) (t : ExecState) : Prop where
  /-- The executor is the same. -/
  later : s.Later t
  /-- Every other place is as it was. -/
  within : Within (fun i p => i = id ∧ ∃ q, q < tensors.length ∧ p = .slot side q) s t
  /-- The artifact has these slots now. -/
  cache : t.cache = s.cache.update id (a.withSlots side slots)
  /-- The output buffers are equal. -/
  outputs : t.outputs = s.outputs
  /-- The storages of the host are equal. -/
  storages : t.memory.storages = s.memory.storages
  /-- No identity of an artifact has been used up. -/
  nextArtifact : t.platform.nextArtifact = s.platform.nextArtifact
  /-- Positions bound elsewhere have no tensor. -/
  absent : ∀ q : Nat, q < tensors.length → external.contains q = true →
    tensors[q]? = some none
  /-- Every other position has the tensor of its slot. -/
  served : ∀ (q : Nat) (host : HostBuffer), q < tensors.length → hosts[q]? = some host →
    external.contains q = false → ∃ tensor, tensors[q]? = some (some tensor) ∧
      slots.get? q = some ⟨host.storage, tensor⟩
  /-- Slots of other positions are as they were. -/
  rest : ∀ q : Nat, tensors.length ≤ q ∨ external.contains q = true →
    slots.get? q = (a.slots side).get? q

/-- The first positions of one side of an artifact have been served from their slots. -/
structure Filled (s : ExecState) (id : ArtifactId) (a : Artifact) (side : Side)
    (hosts : List HostBuffer) (external : List Nat) (tensors : List (Option TensorId))
    (slots : SlotTable) (t : ExecState) : Prop
    extends Placed s id a side hosts external tensors slots t where
  /-- The tensors fit. -/
  fits : ∀ (q : Nat) (host : HostBuffer) (tensor : TensorId), hosts[q]? = some host →
    tensors[q]? = some (some tensor) → Slot.Fits s.kind t.memory host.spec ⟨host.storage, tensor⟩

/-- A member of a list is one of the earlier ones, or the last. -/
theorem getElem?_concat_cases {α : Type} {l : List α} {x y : α} {q : Nat}
    (h : (l ++ [x])[q]? = some y) : l[q]? = some y ∨ q = l.length ∧ x = y := by
  rcases Nat.lt_or_ge q l.length with hlt | hge
  · rw [List.getElem?_append_left hlt] at h
    exact .inl h
  · rw [List.getElem?_append_right hge, List.getElem?_singleton] at h
    split at h
    · exact .inr ⟨by omega, Option.some.inj h⟩
    · cases h

section Walk

variable {s t u : ExecState} {id : ArtifactId} {a : Artifact} {side : Side}
  {hosts : List HostBuffer} {external : List Nat} {tensors : List (Option TensorId)}
  {slots : SlotTable} {host : HostBuffer} {tensor : TensorId}

namespace Placed

theorem start (howns : s.cache.Owns s.memory) (ha : s.cache.get? id = some a) :
    Placed s id a side hosts external [] (a.slots side) s where
  later := .refl s
  within := .refl _ howns
  cache := by rw [a.withSlots_slots, Cache.update_self ha]
  outputs := rfl
  storages := rfl
  nextArtifact := rfl
  absent _ h := absurd h (Nat.not_lt_zero _)
  served _ _ h := absurd h (Nat.not_lt_zero _)
  rest _ _ := rfl

theorem found (h : Placed s id a side hosts external tensors slots t)
    (ha : s.cache.get? id = some a) : t.cache.get? id = some (a.withSlots side slots) := by
  rw [h.cache, Cache.get?_update, if_pos rfl, ha]
  rfl

/-- Nothing but memory behind other tensors changes. -/
theorem onlyMemory (h : Placed s id a side hosts external tensors slots t)
    (hu : t.OnlyMemory t.memory u) : Placed s id a side hosts external tensors slots u where
  later := h.later.trans hu.later
  within := h.within.trans (.of_eq _ h.within.owns hu.cache (by rw [hu.memory]))
  cache := hu.cache.trans h.cache
  outputs := hu.outputs.trans h.outputs
  storages := by rw [hu.memory, h.storages]
  nextArtifact := hu.nextArtifact.trans h.nextArtifact
  absent := h.absent
  served := h.served
  rest := h.rest

/-- **The next position** is bound elsewhere. -/
theorem skip (h : Placed s id a side hosts external tensors slots t)
    (hposition : external.contains tensors.length = true) :
    Placed s id a side hosts external (tensors ++ [none]) slots t where
  later := h.later
  within := h.within.mono fun i p ⟨hi, q, hq, hp⟩ =>
    ⟨hi, q, by rw [List.length_append]; omega, hp⟩
  cache := h.cache
  outputs := h.outputs
  storages := h.storages
  nextArtifact := h.nextArtifact
  absent q hq hout := by
    rw [List.length_append, List.length_singleton] at hq
    rcases Nat.lt_succ_iff_lt_or_eq.1 hq with hlt | rfl
    · rw [List.getElem?_append_left hlt]
      exact h.absent q hlt hout
    · rw [List.getElem?_append_right (Nat.le_refl _), Nat.sub_self]
      rfl
  served q host hq hhost hinside := by
    rw [List.length_append, List.length_singleton] at hq
    rcases Nat.lt_succ_iff_lt_or_eq.1 hq with hlt | rfl
    · rw [List.getElem?_append_left hlt]
      exact h.served q host hlt hhost hinside
    · rw [hposition] at hinside
      cases hinside
  rest q hq := by
    rcases hq with hq | hq
    · rw [List.length_append] at hq
      exact h.rest q (.inl (by omega))
    · exact h.rest q (.inr hq)

/-- **The next position** gets a tensor. -/
theorem next (h : Placed s id a side hosts external tensors slots t)
    (hhost : hosts[tensors.length]? = some host)
    (hposition : external.contains tensors.length = false)
    (hseated : Seated t id (a.withSlots side slots) side tensors.length host tensor u) :
    Placed s id a side hosts external (tensors ++ [some tensor])
      (slots.insert tensors.length ⟨host.storage, tensor⟩) u where
  later := h.later.trans hseated.later
  within := by
    have hlen : tensors.length < (tensors ++ [some tensor]).length := by
      rw [List.length_append]
      exact Nat.lt_succ_self _
    exact (h.within.mono fun i p ⟨hi, q, hq, hp⟩ => ⟨hi, q, Nat.lt_trans hq hlen, hp⟩).trans
      (hseated.within.mono fun i p ⟨hi, hp⟩ => ⟨hi, _, hlen, hp⟩)
  cache := by
    rw [hseated.cache, h.cache, Cache.update_update, Artifact.withSlots_withSlots,
      Artifact.slots_withSlots, if_pos rfl]
  outputs := hseated.outputs.trans h.outputs
  storages := hseated.storages.trans h.storages
  nextArtifact := hseated.nextArtifact.trans h.nextArtifact
  absent q hq hout := by
    rw [List.length_append, List.length_singleton] at hq
    rcases Nat.lt_succ_iff_lt_or_eq.1 hq with hlt | rfl
    · rw [List.getElem?_append_left hlt]
      exact h.absent q hlt hout
    · rw [hposition] at hout
      cases hout
  served q host' hq hhost' hinside := by
    rw [List.length_append, List.length_singleton] at hq
    -- Positions below the new one are served as before.
    rcases Nat.lt_succ_iff_lt_or_eq.1 hq with hlt | rfl
    · obtain ⟨tensor', htensor', hslot⟩ := h.served q host' hlt hhost' hinside
      refine ⟨tensor', ?_, ?_⟩
      · rw [List.getElem?_append_left hlt, htensor']
      · rw [SortedMap.get?_insert, if_neg (Nat.ne_of_lt hlt), hslot]
    · cases hhost.symm.trans hhost'
      refine ⟨tensor, ?_, ?_⟩
      · rw [List.getElem?_append_right (Nat.le_refl _), Nat.sub_self]
        rfl
      · rw [SortedMap.get?_insert, if_pos rfl]
  rest q hq := by
    rw [SortedMap.get?_insert]
    split
    · rename_i heq
      subst heq
      rcases hq with hq | hq
      · rw [List.length_append, List.length_singleton] at hq
        omega
      · rw [hposition] at hq
        cases hq
    · rcases hq with hq | hq
      · rw [List.length_append] at hq
        exact h.rest q (.inl (by omega))
      · exact h.rest q (.inr hq)

/-- A position that has a tensor has it in its slot. -/
theorem slot (h : Placed s id a side hosts external tensors slots t) {q : Nat}
    (hhost : hosts[q]? = some host) (htensor : tensors[q]? = some (some tensor)) :
    slots.get? q = some ⟨host.storage, tensor⟩ := by
  have hq : q < tensors.length := (List.getElem?_eq_some_iff.1 htensor).1
  have hinside : external.contains q = false := by
    cases hc : external.contains q with
    | false => rfl
    | true =>
      have := h.absent q hq hc
      rw [htensor] at this
      cases this
  obtain ⟨tensor', htensor', hslot⟩ := h.served q host hq hhost hinside
  rw [htensor] at htensor'
  cases htensor'
  exact hslot

/-- This is its place. -/
theorem tensorAt (h : Placed s id a side hosts external tensors slots t)
    (ha : s.cache.get? id = some a) {q : Nat} (hhost : hosts[q]? = some host)
    (htensor : tensors[q]? = some (some tensor)) :
    t.cache.tensorAt id (.slot side q) = some tensor := by
  have hslot : ((a.withSlots side slots).slots side).get? q = some ⟨host.storage, tensor⟩ := by
    rw [Artifact.slots_withSlots, if_pos rfl, h.slot hhost htensor]
  exact Cache.tensorAt_slot (h.found ha) hslot

end Placed

namespace Filled

theorem start (howns : s.cache.Owns s.memory) (ha : s.cache.get? id = some a) :
    Filled s id a side hosts external [] (a.slots side) s :=
  { Placed.start howns ha with fits := nofun }

/-- Nothing but memory behind other tensors changes. -/
theorem onlyMemory (h : Filled s id a side hosts external tensors slots t)
    (hu : t.OnlyMemory t.memory u) : Filled s id a side hosts external tensors slots u :=
  { h.toPlaced.onlyMemory hu with
    fits := by
      rw [hu.memory]
      exact h.fits }

/-- **The next position** is bound elsewhere. -/
theorem skip (h : Filled s id a side hosts external tensors slots t)
    (hposition : external.contains tensors.length = true) :
    Filled s id a side hosts external (tensors ++ [none]) slots t :=
  { h.toPlaced.skip hposition with
    fits := fun q host tensor hhost htensor => by
      rcases getElem?_concat_cases htensor with hold | ⟨-, hlast⟩
      · exact h.fits q host tensor hhost hold
      · cases hlast }

/-- **The next position** is served. -/
theorem next (h : Filled s id a side hosts external tensors slots t)
    (hhost : hosts[tensors.length]? = some host)
    (hposition : external.contains tensors.length = false)
    (hserved : Served t id (a.withSlots side slots) side tensors.length host tensor u) :
    Filled s id a side hosts external (tensors ++ [some tensor])
      (slots.insert tensors.length ⟨host.storage, tensor⟩) u :=
  { h.toPlaced.next hhost hposition hserved.toSeated with
    fits := fun q host' tensor' hhost' htensor' => by
      rcases getElem?_concat_cases htensor' with hold | ⟨rfl, hlast⟩
      · exact (h.fits q host' tensor' hhost' hold).extends hserved.later.platform.memory
      · cases hhost.symm.trans hhost'
        cases hlast
        exact h.later.kind_eq ▸ hserved.fits }

/-- The slots that are still to be served fit, since they are as they were. -/
theorem fits_rest (h : Filled s id a side hosts external tensors slots t)
    (hfits : (a.slots side).FitsFor s.kind s.memory external hosts)
    (hhost : hosts[tensors.length]? = some host)
    (hin : external.contains tensors.length = false) (slot : Slot)
    (hslot : ((a.withSlots side slots).slots side).Reuses t.kind tensors.length host slot) :
    slot.Fits t.kind t.memory host.spec := by
  obtain ⟨hslot, hbound⟩ := hslot
  rw [Artifact.slots_withSlots, if_pos rfl, h.rest _ (.inl (Nat.le_refl _))] at hslot
  rw [h.later.kind_eq] at hbound ⊢
  exact (hfits _ host slot hhost hin ⟨hslot, hbound⟩).extends h.later.platform.memory

/-- A position that has been served has its tensor at its place. -/
theorem tensorAt (h : Filled s id a side hosts external tensors slots t)
    (ha : s.cache.get? id = some a) {q : Nat} (hhost : hosts[q]? = some host)
    (htensor : tensors[q]? = some (some tensor)) :
    t.cache.tensorAt id (.slot side q) = some tensor ∧
      slots.get? q = some ⟨host.storage, tensor⟩ ∧
      Slot.Fits s.kind t.memory host.spec ⟨host.storage, tensor⟩ :=
  ⟨h.toPlaced.tensorAt ha hhost htensor, h.slot hhost htensor, h.fits q host tensor hhost htensor⟩

end Filled

end Walk

/-! ### Inputs -/

/-- One of the first inputs, and not one bound elsewhere, is in a storage. -/
def ExecState.ServedBefore (s : ExecState) (inputs : List HostBuffer) (count : Nat)
    (storage : StorageId) : Prop :=
  ∃ p, p < count ∧ ∃ host : HostBuffer, inputs[p]? = some host ∧
    s.executor.unit.externalInputs.contains p = false ∧ host.storage = storage

/-- **The copy of an input is left out.** The backend keeps tensors in storage of their own, the
slot of the position last served the same buffer, and the tracker vouches for the copy: it did so
before the call, or it does since an earlier position of this call was served. -/
def ExecState.Skips (s : ExecState) (id : ArtifactId) (a : Artifact) (inputs : List HostBuffer)
    (position : Nat) : Prop :=
  s.kind.isHostBound = false ∧ ∃ (host : HostBuffer) (old : TensorId),
    inputs[position]? = some host ∧ a.inputs.get? position = some ⟨host.storage, old⟩ ∧
    (s.platform.isFresh s.executor.tracker host.storage id = true ∨
      s.executor.tracker.Listens s.platform.registries ∧
        s.ServedBefore inputs position host.storage)

/-- Where the copy of an input is left out, the tensor of the slot holds what the buffer holds. -/
def ExecState.SkipsCurrent (s : ExecState) (id : ArtifactId) (a : Artifact)
    (inputs : List HostBuffer) : Prop :=
  ∀ (q : Nat) (host : HostBuffer) (x : TensorId), inputs[q]? = some host →
    a.inputs.get? q = some ⟨host.storage, x⟩ →
    s.executor.unit.externalInputs.contains q = false → s.Skips id a inputs q →
    s.memory.contents x = s.memory.storage host.storage

/-- A position of an artifact's inputs is not bound elsewhere, and has no slot where tensors have
storage of their own. -/
def ExecState.Vacant (s : ExecState) (a : Artifact) (position : Nat) : Prop :=
  s.executor.unit.externalInputs.contains position = false ∧
    (s.kind.isHostBound = false → a.inputs.get? position = none)

/-- The first inputs of an artifact have been served from their slots. -/
structure Loaded (s : ExecState) (id : ArtifactId) (a : Artifact) (inputs : List HostBuffer)
    (tensors : List (Option TensorId)) (slots : SlotTable) (t : ExecState) : Prop extends
    Filled s id a .input inputs s.executor.unit.externalInputs tensors slots t where
  /-- Where the copy is left out, the tensor is the one that the slot had. -/
  reused : ∀ (q : Nat) (host : HostBuffer) (tensor : TensorId), inputs[q]? = some host →
    tensors[q]? = some (some tensor) → s.Skips id a inputs q →
    a.inputs.get? q = some ⟨host.storage, tensor⟩ ∧
      t.memory.contents tensor = s.memory.contents tensor
  /-- Every other tensor holds what the buffer holds. -/
  current : ∀ (q : Nat) (host : HostBuffer) (tensor : TensorId), inputs[q]? = some host →
    tensors[q]? = some (some tensor) → ¬ s.Skips id a inputs q →
    t.memory.contents tensor = s.memory.storage host.storage
  /-- What has been copied is vouched for, and nothing else besides what was. -/
  fresh : ∀ (storage : StorageId) (j : ArtifactId),
    t.platform.isFresh s.executor.tracker storage j = true ↔
      s.platform.isFresh s.executor.tracker storage j = true ∨
        s.executor.tracker.Listens s.platform.registries ∧ s.kind.isHostBound = false ∧
          j = id ∧ s.ServedBefore inputs tensors.length storage

namespace Loaded

variable {s t u : ExecState} {id : ArtifactId} {a : Artifact} {inputs : List HostBuffer}
  {tensors : List (Option TensorId)} {slots : SlotTable} {host : HostBuffer} {tensor : TensorId}

theorem start (howns : s.cache.Owns s.memory) (ha : s.cache.get? id = some a) :
    Loaded s id a inputs [] a.inputs s :=
  { Filled.start howns ha with
    reused := fun q host tensor _ h => by cases h
    current := fun q host tensor _ h => by cases h
    fresh := fun storage j => ⟨.inl, fun h => by
      rcases h with h | ⟨-, -, -, p, hp, -⟩
      · exact h
      · exact absurd hp (Nat.not_lt_zero p)⟩ }

theorem onlyMemory (h : Loaded s id a inputs tensors slots t) (hu : t.OnlyMemory t.memory u) :
    Loaded s id a inputs tensors slots u :=
  { h.toFilled.onlyMemory hu with
    reused := by
      rw [hu.memory]
      exact h.reused
    current := by
      rw [hu.memory]
      exact h.current
    fresh := fun storage j => by
      unfold Platform.isFresh
      rw [hu.registries]
      exact h.fresh storage j }

theorem servedBefore_succ {count : Nat} {storage : StorageId} (hhost : inputs[count]? = some host)
    (hinside : s.executor.unit.externalInputs.contains count = false) :
    s.ServedBefore inputs (count + 1) storage ↔
      s.ServedBefore inputs count storage ∨ host.storage = storage := by
  constructor
  · rintro ⟨p, hp, b, hb, hin, hstorage⟩
    rcases Nat.lt_succ_iff_lt_or_eq.1 hp with hlt | rfl
    · exact .inl ⟨p, hlt, b, hb, hin, hstorage⟩
    · cases hhost.symm.trans hb
      exact .inr hstorage
  · rintro (⟨p, hp, hb⟩ | hstorage)
    · exact ⟨p, Nat.lt_succ_of_lt hp, hb⟩
    · exact ⟨count, Nat.lt_succ_self _, host, hhost, hinside, hstorage⟩

theorem skip (h : Loaded s id a inputs tensors slots t)
    (hposition : s.executor.unit.externalInputs.contains tensors.length = true) :
    Loaded s id a inputs (tensors ++ [none]) slots t := by
  have hold : ∀ (q : Nat) (tensor : TensorId), (tensors ++ [none])[q]? = some (some tensor) →
      tensors[q]? = some (some tensor) := fun q tensor htensor => by
    rcases getElem?_concat_cases htensor with hold | ⟨-, hlast⟩
    · exact hold
    · cases hlast
  exact { h.toFilled.skip hposition with
    reused := fun q host tensor hhost htensor => h.reused q host tensor hhost (hold q tensor htensor)
    current := fun q host tensor hhost htensor =>
      h.current q host tensor hhost (hold q tensor htensor)
    fresh := fun storage j => by
      rw [h.fresh storage j, List.length_append, List.length_singleton]
      have hserved : s.ServedBefore inputs (tensors.length + 1) storage ↔
          s.ServedBefore inputs tensors.length storage := by
        constructor
        · rintro ⟨p, hp, b, hb, hin, hstorage⟩
          rcases Nat.lt_succ_iff_lt_or_eq.1 hp with hlt | rfl
          · exact ⟨p, hlt, b, hb, hin, hstorage⟩
          · rw [hposition] at hin
            cases hin
        · rintro ⟨p, hp, hb⟩
          exact ⟨p, Nat.lt_succ_of_lt hp, hb⟩
      rw [hserved] }

/-- The next input skips its copy exactly when the tracker vouches for it by now. -/
theorem skips_iff (h : Loaded s id a inputs tensors slots t)
    (hhost : inputs[tensors.length]? = some host) (hbound : s.kind.isHostBound = false) :
    s.Skips id a inputs tensors.length ↔
      t.platform.isFresh s.executor.tracker host.storage id = true ∧
        ∃ old, slots.get? tensors.length = some ⟨host.storage, old⟩ := by
  have hslots : slots.get? tensors.length = a.inputs.get? tensors.length :=
    h.rest _ (.inl (Nat.le_refl _))
  rw [h.fresh, hslots]
  constructor
  · rintro ⟨-, b, old, hb, hold, hfresh⟩
    cases hhost.symm.trans hb
    exact ⟨hfresh.imp_right fun hl => ⟨hl.1, hbound, rfl, hl.2⟩, old, hold⟩
  · rintro ⟨hfresh, old, hold⟩
    exact ⟨hbound, host, old, hhost, hold, hfresh.imp_right fun hl => ⟨hl.1, hl.2.2.2⟩⟩

/-- A tensor in a slot that is still to be served holds what it held. -/
theorem contents_rest (h : Loaded s id a inputs tensors slots t) (ha : s.cache.get? id = some a)
    {q : Nat} (hq : tensors.length ≤ q) {slot : Slot} (hslot : a.inputs.get? q = some slot) :
    t.memory.contents slot.tensor = s.memory.contents slot.tensor := by
  have hat : s.cache.tensorAt id (.slot .input q) = some slot.tensor :=
    Cache.tensorAt_slot ha hslot
  refine Memory.contents_eq_of_tensor_eq (h.within.kept id _ slot.tensor (fun hp => ?_) hat) h.storages
  obtain ⟨-, p, hp, heq⟩ := hp
  obtain ⟨-, rfl⟩ := Place.slot.inj heq
  exact Nat.lt_irrefl _ (Nat.lt_of_lt_of_le hp hq)

section Next

variable (h : Loaded s id a inputs tensors slots t) (ha : s.cache.get? id = some a)
  (hhost : inputs[tensors.length]? = some host)
  (hserved : Served t id (a.withSlots .input slots) .input tensors.length host tensor u)
  (hinput : ExecM.InputServed t id (a.withSlots .input slots) tensors.length host tensor u)

include h ha hhost hserved in
/-- When the next input has been served, the last tensor is the one that it was served with, and the
others have not been touched. -/
theorem split_next {q : Nat} {b : HostBuffer} {x : TensorId} (hb : inputs[q]? = some b)
    (hx : (tensors ++ [some tensor])[q]? = some (some x)) :
    (tensors[q]? = some (some x) ∧ u.memory.contents x = t.memory.contents x) ∨
      q = tensors.length ∧ b = host ∧ x = tensor := by
  rcases getElem?_concat_cases hx with hx | ⟨rfl, hlast⟩
  · refine .inl ⟨hx, Memory.contents_eq_of_tensor_eq (hserved.within.kept id (.slot .input q) x
      (fun hp => ?_) (h.toFilled.tensorAt ha hb hx).1) hserved.storages⟩
    exact Nat.ne_of_lt (List.getElem?_eq_some_iff.1 hx).1 (Place.slot.inj hp.2).2
  · cases hhost.symm.trans hb
    exact .inr ⟨rfl, rfl, (Option.some.inj hlast).symm⟩

include h ha hhost hinput in
/-- If its copy is left out, the tensor is the one that the slot had, and holds what it held. -/
theorem reused_next (hskip : s.Skips id a inputs tensors.length) :
    a.inputs.get? tensors.length = some ⟨host.storage, tensor⟩ ∧
      u.memory.contents tensor = s.memory.contents tensor := by
  obtain ⟨hfresh, old, hold⟩ := (h.skips_iff hhost hskip.1).1 hskip
  cases hinput with
  | bound hbound =>
    rw [h.later.kind_eq, hskip.1] at hbound
    cases hbound
  | vouched hbound hf hslot hcontents _ =>
    have hslot' : a.inputs.get? tensors.length = some ⟨host.storage, tensor⟩ :=
      (h.rest _ (.inl (Nat.le_refl _))).symm.trans hslot
    exact ⟨hslot', hcontents.trans (h.contents_rest ha (Nat.le_refl _) hslot')⟩
  | copied _ hreason =>
    rw [h.later.tracker] at hreason
    exact absurd ⟨hfresh, old, hold⟩ hreason

include h hhost hserved hinput in
/-- If it is not, the tensor holds what the buffer holds: it is kept there, or has been copied. -/
theorem current_next (hskip : ¬ s.Skips id a inputs tensors.length) :
    u.memory.contents tensor = s.memory.storage host.storage := by
  cases hinput with
  | bound hbound =>
    have hhome : u.memory.home tensor = .host host.storage := by
      rw [hserved.fits.home]
      unfold homeFor
      rw [if_pos hbound]
    rw [Memory.contents_of_home_host hhome]
    unfold Memory.storage
    rw [hserved.storages, h.storages]
  | vouched hbound hfresh hslot =>
    rw [h.later.tracker] at hfresh
    rw [h.later.kind_eq] at hbound
    exact absurd ((h.skips_iff hhost hbound).2 ⟨hfresh, tensor, hslot⟩) hskip
  | copied _ _ hcontents =>
    rw [hcontents]
    unfold Memory.storage
    rw [h.storages]

include h hhost hinput in
/-- What the tracker vouches for has grown by the copy, if one was made. -/
theorem fresh_next (hposition : s.executor.unit.externalInputs.contains tensors.length = false)
    (storage : StorageId) (j : ArtifactId) :
    u.platform.isFresh s.executor.tracker storage j = true ↔
      s.platform.isFresh s.executor.tracker storage j = true ∨
        s.executor.tracker.Listens s.platform.registries ∧ s.kind.isHostBound = false ∧
          j = id ∧ s.ServedBefore inputs (tensors.length + 1) storage := by
  have hkind := h.later.kind_eq
  have htracker := h.later.tracker
  rw [servedBefore_succ hhost hposition]
  cases hinput with
  | bound hbound hregistries =>
    rw [hkind] at hbound
    unfold Platform.isFresh
    rw [hregistries]
    refine (h.fresh storage j).trans (or_congr_right ?_)
    rw [hbound]
    exact ⟨fun hl => (nomatch hl.2.1), fun hl => (nomatch hl.2.1)⟩
  | vouched hbound hfresh hslot _ hregistries =>
    rw [htracker] at hfresh
    have hu : u.platform.isFresh s.executor.tracker storage j =
        t.platform.isFresh s.executor.tracker storage j := by
      unfold Platform.isFresh
      rw [hregistries]
    rw [hu]
    constructor
    · intro hf
      exact ((h.fresh storage j).1 hf).imp_right fun hl => ⟨hl.1, hl.2.1, hl.2.2.1, .inl hl.2.2.2⟩
    · rintro (hf | ⟨hl, hb, rfl, hs | rfl⟩)
      · exact (h.fresh storage j).2 (.inl hf)
      · exact (h.fresh storage j).2 (.inr ⟨hl, hb, rfl, hs⟩)
      · exact hfresh
  | copied hbound _ _ hregistries =>
    have hu : u.platform.isFresh s.executor.tracker storage j = true ↔
        t.platform.isFresh s.executor.tracker storage j = true ∨
          s.executor.tracker.Listens s.platform.registries ∧ storage = host.storage ∧ j = id := by
      unfold Platform.isFresh
      rw [hregistries, htracker, Tracker.isFresh_update_mark,
        Tracker.listens_congr h.later.platform.registries]
    rw [hu, h.fresh storage j]
    rw [hkind] at hbound
    constructor
    · rintro ((hf | ⟨hl, hb, hj, hs⟩) | ⟨hl, rfl, hj⟩)
      · exact .inl hf
      · exact .inr ⟨hl, hb, hj, .inl hs⟩
      · exact .inr ⟨hl, hbound, hj, .inr rfl⟩
    · rintro (hf | ⟨hl, hb, hj, hs | rfl⟩)
      · exact .inl (.inl hf)
      · exact .inl (.inr ⟨hl, hb, hj, hs⟩)
      · exact .inr ⟨hl, rfl, hj⟩

include h ha hhost hserved hinput in
/-- **The next input** is served. -/
theorem next (hposition : s.executor.unit.externalInputs.contains tensors.length = false) :
    Loaded s id a inputs (tensors ++ [some tensor])
      (slots.insert tensors.length ⟨host.storage, tensor⟩) u :=
  { h.toFilled.next hhost hposition hserved with
    reused := fun q b x hb hx hskip => by
      rcases h.split_next ha hhost hserved hb hx with ⟨hx, hcontents⟩ | ⟨rfl, rfl, rfl⟩
      · obtain ⟨hslot, hheld⟩ := h.reused q b x hb hx hskip
        exact ⟨hslot, hcontents.trans hheld⟩
      · exact h.reused_next ha hhost hinput hskip
    current := fun q b x hb hx hskip => by
      rcases h.split_next ha hhost hserved hb hx with ⟨hx, hcontents⟩ | ⟨rfl, rfl, rfl⟩
      · exact hcontents.trans (h.current q b x hb hx hskip)
      · exact h.current_next hhost hserved hinput hskip
    fresh := fun storage j => by
      rw [List.length_append, List.length_singleton]
      exact h.fresh_next hhost hinput hposition storage j }

end Next

end Loaded

/-! ### The walks -/

namespace ExecM

variable {s : ExecState} {id : ArtifactId} {a : Artifact}

theorem not_quiet_of_later {t : ExecState} (h : s.Later t) (hnot : ¬ t.device.backend.Quiet) :
    ¬ s.device.backend.Quiet := fun hquiet => hnot (by
  unfold ExecState.device Platform.device
  rw [h.backend]
  exact h.platform.quiet _ hquiet)

/-- **Serving the next input**, unless a tensor cannot be made for it. -/
theorem ends_serveNext {inputs : List HostBuffer} {tensors : List (Option TensorId)}
    {slots : SlotTable} {t : ExecState} {host : HostBuffer}
    (ht : Loaded s id a inputs tensors slots t) (ha : s.cache.get? id = some a)
    (hfits : (a.slots .input).FitsFor s.kind s.memory s.executor.unit.externalInputs inputs)
    (hhost : inputs[tensors.length]? = some host) (hsize : (s.memory.read host).WellSized) :
    Ends (serveInput id tensors.length host t)
      (fun v u => ∃ slots', Loaded s id a inputs (tensors ++ [v.tensor]) slots' u)
      fun _ u => s.Vacant a tensors.length ∧ Loaded s id a inputs tensors slots u ∧
        ¬ s.device.backend.Quiet := by
  have hunit : t.executor.unit = s.executor.unit := ht.later.unit
  cases hposition : s.executor.unit.externalInputs.contains tensors.length with
  | true =>
    unfold serveInput
    rw [ends_bind, ends_executor]
    dsimp only
    rw [hunit, if_pos hposition, ends_pure]
    exact ⟨slots, ht.skip hposition⟩
  | false =>
    have hsize' : (t.memory.read host).WellSized := by
      unfold Memory.read Memory.storage at hsize ⊢
      rwa [ht.storages]
    refine (ends_serveInput ht.within.owns (ht.toFilled.found ha) (by rw [hunit, hposition])
      (ht.toFilled.fits_rest hfits hhost hposition) hsize').mono (fun v u hu => ?_) fun _ u hu => ?_
    · obtain ⟨tensor, hv, hserved, hinput⟩ := hu
      rw [hv]
      exact ⟨_, ht.next ha hhost hserved hinput hposition⟩
    · obtain ⟨honly, hnot, hvacant⟩ := hu
      refine ⟨⟨hposition, fun hown => ?_⟩, ht.onlyMemory honly, not_quiet_of_later ht.later hnot⟩
      exact (ht.rest _ (.inl (Nat.le_refl _))).symm.trans (hvacant (ht.later.kind_eq ▸ hown))

/-- **Serving every input**, as far as tensors can be made. -/
theorem ends_allocateInputs {inputs : List HostBuffer} (howns : s.cache.Owns s.memory)
    (ha : s.cache.get? id = some a)
    (hfits : (a.slots .input).FitsFor s.kind s.memory s.executor.unit.externalInputs inputs)
    (hsize : ∀ host ∈ inputs, (s.memory.read host).WellSized) :
    Ends (allocateInputs id inputs s)
      (fun al t => ∃ slots, al.tensors.length = inputs.length ∧
        Loaded s id a inputs al.tensors slots t)
      fun _ t => (∃ tensors slots, tensors.length ≤ inputs.length ∧ s.Vacant a tensors.length ∧
        Loaded s id a inputs tensors slots t) ∧ ¬ s.device.backend.Quiet := by
  unfold allocateInputs
  rw [ends_bind, ends_discard, ends_artifact_of_some ha, ends_bind]
  refine (ends_mapM_zipIdx (I := fun services t => ∃ slots,
    Loaded s id a inputs (services.map (·.tensor)) slots t) (fun services host t hhost ht => ?_)
    ⟨_, .start howns ha⟩).mono (fun services t ht => ?_) fun _ _ h => h
  · obtain ⟨slots, ht⟩ := ht
    have hlen : (services.map (·.tensor)).length = services.length := List.length_map _
    rw [← hlen] at hhost ⊢
    refine (ends_serveNext ht ha hfits hhost (hsize host (List.mem_of_getElem? hhost))).mono
      (fun v u hu => ?_) fun _ u hu => ?_
    · rw [List.map_append, List.map_singleton]
      exact hu
    · obtain ⟨hvacant, hloaded, hnot⟩ := hu
      exact ⟨⟨_, slots, Nat.le_of_lt (List.getElem?_eq_some_iff.1 hhost).1, hvacant, hloaded⟩, hnot⟩
  · obtain ⟨hlen, slots, ht⟩ := ht
    rw [ends_bind, ends_count, ends_pure]
    refine ⟨slots, (List.length_map _).trans hlen, ht.onlyMemory ?_⟩
    exact .of_untouched (ExecState.untouched_stats t _)

/-- **Serving every output**, as far as tensors can be made. -/
theorem ends_allocateOutputs {outputs : List HostBuffer} (howns : s.cache.Owns s.memory)
    (ha : s.cache.get? id = some a)
    (hfits : (a.slots .output).FitsFor s.kind s.memory s.executor.unit.externalOutputs outputs) :
    Ends (allocateOutputs id outputs s)
      (fun al t => ∃ slots, al.tensors.length = outputs.length ∧
        Filled s id a .output outputs s.executor.unit.externalOutputs al.tensors slots t ∧
        t.platform.registries = s.platform.registries)
      fun _ t => (∃ tensors slots, tensors.length ≤ outputs.length ∧
        Filled s id a .output outputs s.executor.unit.externalOutputs tensors slots t ∧
        t.platform.registries = s.platform.registries) ∧ ¬ s.device.backend.Quiet := by
  unfold allocateOutputs
  rw [ends_bind, ends_discard, ends_artifact_of_some ha, ends_bind]
  -- The invariant: the positions up to the number of services have been filled.
  refine (ends_mapM_zipIdx (I := fun services t => ∃ slots,
    Filled s id a .output outputs s.executor.unit.externalOutputs (services.map (·.tensor))
      slots t ∧ t.platform.registries = s.platform.registries)
    (fun services host t hhost ht => ?_) ⟨_, .start howns ha, rfl⟩).mono
    (fun services t ht => ?_) fun _ _ h => h
  · obtain ⟨slots, ht, hregistries⟩ := ht
    have hlen : (services.map (·.tensor)).length = services.length := List.length_map _
    rw [← hlen] at hhost ⊢
    have hunit : t.executor.unit = s.executor.unit := ht.later.unit
    cases hposition : s.executor.unit.externalOutputs.contains
        (services.map (·.tensor)).length with
    | true =>
      unfold serveOutput
      rw [ends_bind, ends_executor]
      dsimp only
      rw [hunit, if_pos hposition, ends_pure]
      rw [List.map_append, List.map_singleton]
      exact ⟨slots, ht.skip hposition, hregistries⟩
    | false =>
      refine (ends_serveOutput ht.within.owns (ht.found ha) (by rw [hunit, hposition])
        (ht.fits_rest hfits hhost hposition)).mono (fun v u hu => ?_) fun _ u hu => ?_
      · obtain ⟨tensor, hv, hserved, hsame⟩ := hu
        rw [List.map_append, List.map_singleton, hv]
        exact ⟨_, ht.next hhost hposition hserved, hsame.trans hregistries⟩
      · exact ⟨⟨_, slots, Nat.le_of_lt (List.getElem?_eq_some_iff.1 hhost).1,
          ht.onlyMemory hu.1, hu.1.registries.trans hregistries⟩,
          not_quiet_of_later ht.later hu.2⟩
  · obtain ⟨hlen, slots, ht, hregistries⟩ := ht
    rw [ends_bind, ends_count, ends_pure]
    exact ⟨slots, (List.length_map _).trans hlen,
      ht.onlyMemory (.of_untouched (ExecState.untouched_stats t _)), hregistries⟩

end ExecM

end TensorJit
