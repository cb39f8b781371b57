import TensorJit.Proofs.Executor.Slots

/-!
# Slots and their history

What a position is served with follows from the last time it was served since the table was last
emptied, and from nothing else that has happened to the table or to its backend:

| the position was last served for | new tensor | out of date |
|---|---|---|
| nothing | yes | yes |
| another buffer, tensors in host buffers | yes | yes |
| another buffer, tensors of their own | no | yes |
| the same buffer | no | an output, or an input that nobody vouches for |

**A table is the record of its history**: the slot of a position has the buffer of that last call
and the tensor it was given (`SlotCache.Records`). While a call is served its slot is out of the
table, but it is put back when no tensor can be made (`SlotCall.ends_serve_iff`), so a call that
fails is as good as none. Positions do not know of each other, because no two of them ever have one
tensor.

Between two calls the backend may be used for anything else, as long as its class and its mode
stay the same and memory only grows.
-/

namespace TensorJit

/-! ### Serving a call in place -/

/-- A call for the tensor of a position. -/
structure SlotCall where
  /-- What the position is one of. -/
  side : Side
  /-- The position. -/
  position : Nat
  /-- The buffer to serve. -/
  host : HostBuffer
  /-- The artifact that the table belongs to. -/
  artifact : ArtifactId
  /-- Whether the copy of a buffer for an artifact is known to be current. -/
  fresh : StorageId → ArtifactId → Bool

/-- Whether the copy of the buffer is known to be current. -/
def SlotCall.vouched (call : SlotCall) : Bool := call.fresh call.host.storage call.artifact

/-- A table of slots beside the backend that it is served by. -/
structure SlotCache where
  /-- The table. -/
  slots : SlotTable
  /-- The backend with the memory. -/
  device : Device

/-- A step on a table and its backend. -/
abbrev SlotM := EStateM BackendError SlotCache

namespace SlotTable

/-- The table with the slot of a position replaced, or gone. -/
def put (slots : SlotTable) (position : Nat) : Option Slot → SlotTable
  | some slot => slots.insert position slot
  | none => slots.erase position

theorem put_put (slots : SlotTable) (position : Nat) (slot : Option Slot) :
    (slots.put position none).put position slot = slots.put position slot := by
  cases slot with
  | some slot => exact SortedMap.insert_erase slots position slot
  | none => exact SortedMap.erase_of_get?_eq_none (by rw [put, SortedMap.get?_erase, if_pos rfl])

theorem put_get? (slots : SlotTable) (position : Nat) :
    slots.put position (slots.get? position) = slots := by
  cases h : slots.get? position with
  | some slot => exact SortedMap.insert_of_get?_eq_some h
  | none => exact SortedMap.erase_of_get?_eq_none h

end SlotTable

namespace SlotM

variable {c : SlotCache}

/-- Replaces the slot of a position. -/
def put (position : Nat) (slot : Option Slot) : SlotM Unit :=
  modify fun c => { c with slots := c.slots.put position slot }

/-- A step of the backend. -/
def onDevice {α : Type} (step : BackendM α) : SlotM α := fun c =>
  match step c.device with
  | .ok a device => .ok a { c with device }
  | .error e device => .error e { c with device }

@[simp] theorem ends_put {position : Nat} {slot : Option Slot} {Q : Unit → SlotCache → Prop}
    {E : BackendError → SlotCache → Prop} :
    Ends (put position slot c) Q E ↔ Q () { c with slots := c.slots.put position slot } := Iff.rfl

theorem ends_onDevice {α : Type} {step : BackendM α} {Q : α → SlotCache → Prop}
    {E : BackendError → SlotCache → Prop} :
    Ends (onDevice step c) Q E ↔ Ends (step c.device) (fun a device => Q a { c with device })
      fun e device => E e { c with device } := by
  unfold onDevice
  cases step c.device with
  | ok a device => exact Iff.rfl
  | error e device => exact Iff.rfl

end SlotM

/-- Serves a call in place: the slot is taken out of the table, and put back as it was if no tensor
can be made. -/
def SlotCall.serve (call : SlotCall) : SlotM SlotResolution := do
  let previous := (← get).slots.get? call.position
  SlotM.put call.position none
  let hostBound := (← SlotM.onDevice Backend.kindOf).isHostBound
  let moved := previous.map (·.host) ≠ some call.host.storage
  let created := previous.isNone || (hostBound && moved)
  let stale := match call.side with
    | .output => true
    | .input => created || moved || !call.vouched
  let kept := if created then none else previous
  let tensor ← match kept with
    | some slot => pure slot.tensor
    | none =>
      let binding := if hostBound then some call.host else none
      try SlotM.onDevice (Backend.createTensor call.host.spec binding)
      catch e =>
        SlotM.put call.position previous
        throw e
  SlotM.onDevice (Backend.setStale tensor stale)
  SlotM.put call.position (some ⟨call.host.storage, tensor⟩)
  return ⟨tensor, created, stale⟩

/-- **Serving in place is resolving the position**, with the table as it was if that fails. -/
theorem SlotCall.ends_serve_iff {call : SlotCall} {c : SlotCache}
    {Q : SlotResolution → SlotCache → Prop} {E : BackendError → SlotCache → Prop} :
    Ends (call.serve c) Q E ↔
      Ends (c.slots.resolve call.side call.position call.host call.vouched c.device)
        (fun r device => Q r.1 ⟨r.2, device⟩) fun e device => E e ⟨c.slots, device⟩ := by
  have hstale : ∀ created moved : Bool, (match call.side with
      | .output => true
      | .input => created || moved || !call.vouched) =
      (decide (call.side = .output) || created || moved || !call.vouched) := fun created moved => by
    cases call.side with
    | input => rfl
    | output => rfl
  unfold serve SlotTable.resolve
  simp only [ends_bind, ends_get, SlotM.ends_put, SlotM.ends_onDevice, Backend.ends_kindOf, hstale]
  generalize ((c.slots.get? call.position).isNone || _) = created
  generalize (decide (call.side = .output) || created || _ || !call.vouched) = stale
  -- The slot that has been taken out is the one that is put back.
  have hback : ∀ slot, (c.slots.put call.position none).put call.position slot =
      c.slots.put call.position slot := SlotTable.put_put c.slots call.position
  generalize (if created = true then none else c.slots.get? call.position) = kept
  cases kept with
  | some slot =>
    simp only [ends_bind, ends_pure, SlotM.ends_onDevice, SlotM.ends_put, Backend.ends_setStale,
      hback]
    rfl
  | none =>
    simp only [ends_bind, ends_pure, ends_throw, ends_tryCatch, SlotM.ends_onDevice,
      SlotM.ends_put, Backend.ends_setStale, hback, SlotTable.put_get?]
    rfl

/-- **Serving a call** resolves its position on the table, and changes nothing if that fails. -/
theorem SlotCall.ends_serve (call : SlotCall) (c : SlotCache) :
    Ends (call.serve c)
      (fun r d => d.slots = c.slots.insert call.position ⟨call.host.storage, r.tensor⟩ ∧
        c.slots.Resolved call.position call.host c.device r d.device ∧
        (r.stale = false ↔ call.side = .input ∧ ¬ c.slots.Moved call.position call.host ∧
          call.vouched = true) ∧
        c.device.Later d.device)
      fun _ d => d.slots = c.slots ∧ d.device.memory = c.device.memory ∧
        c.device.Later d.device := by
  rw [ends_serve_iff]
  exact ((c.slots.ends_resolve call.side call.position call.host call.vouched c.device).and
    (SlotTable.keeps_resolve _ _ _ _ _ c.device)).mono
    (fun r device h => ⟨h.1.1, h.1.2.1, h.1.2.2, h.2.toLater⟩)
    fun _ device h => ⟨rfl, h.1.1, h.2.toLater⟩

/-! ### Histories -/

/-- What can happen to a table. -/
inductive SlotEvent where
  /-- A call has been given a tensor. -/
  | served (call : SlotCall) (tensor : TensorId)
  /-- A call has failed. -/
  | failed (call : SlotCall)
  /-- All tensors have been let go. -/
  | emptied

/-- The buffer and the tensor of the last call for a position that was served since the table was
last emptied. The latest event comes first. -/
def lastServed : List SlotEvent → Nat → Option Slot
  | [], _ => none
  | .emptied :: _, _ => none
  | .failed _ :: past, position => lastServed past position
  | .served call tensor :: past, position =>
    if position = call.position then some ⟨call.host.storage, tensor⟩
    else lastServed past position

/-- The tables and backends that can come of a history, latest event first, on a backend of a
kind. -/
inductive SlotCache.Reached (κ : BackendKind) : List SlotEvent → SlotCache → Prop where
  /-- A new table, on a backend in any state. -/
  | start {device : Device} (hkind : device.backend.kind = κ) : Reached κ [] ⟨.empty, device⟩
  /-- A call is served. -/
  | served {past : List SlotEvent} {c d : SlotCache} {call : SlotCall} {r : SlotResolution}
    (h : Reached κ past c) (hserve : call.serve c = .ok r d) :
    Reached κ (.served call r.tensor :: past) d
  /-- A call fails. -/
  | failed {past : List SlotEvent} {c d : SlotCache} {call : SlotCall} {e : BackendError}
    (h : Reached κ past c) (hserve : call.serve c = .error e d) :
    Reached κ (.failed call :: past) d
  /-- The table is emptied. -/
  | emptied {past : List SlotEvent} {c : SlotCache} (h : Reached κ past c) :
    Reached κ (.emptied :: past) { c with slots := .empty }
  /-- The backend is used for something else. -/
  | elsewhere {past : List SlotEvent} {c : SlotCache} {device : Device} (h : Reached κ past c)
    (hkind : device.backend.kind = κ) (hmemory : c.device.memory.Extends device.memory) :
    Reached κ past { c with device }

/-! ### The table as a record -/

namespace SlotCache

variable {κ : BackendKind} {past : List SlotEvent} {c d : SlotCache}

/-- A position has the same slot afterwards, and its tensor has not been touched. -/
structure SameAt (c d : SlotCache) (position : Nat) : Prop where
  /-- The slot is the same. -/
  slot : d.slots.get? position = c.slots.get? position
  /-- The tensor has not been touched. -/
  tensor : ∀ slot, c.slots.get? position = some slot →
    d.device.memory.tensor slot.tensor = c.device.memory.tensor slot.tensor

/-- The table says of each position what its history says, its tensors fit the buffers they were
last used for, and no two positions have one tensor. -/
structure Records (κ : BackendKind) (past : List SlotEvent) (c : SlotCache) : Prop where
  /-- The backend is of the kind. -/
  kind : c.device.backend.kind = κ
  /-- The slots are what the history says. -/
  slot : ∀ position, c.slots.get? position = lastServed past position
  /-- Every tensor fits. -/
  fits : ∀ position slot, c.slots.get? position = some slot →
    ∃ spec, slot.Fits κ c.device.memory spec
  /-- No two positions have one tensor. -/
  apart : ∀ position position' slot slot', c.slots.get? position = some slot →
    c.slots.get? position' = some slot' → slot.tensor = slot'.tensor → position = position'

theorem records_empty {device : Device} (hkind : device.backend.kind = κ)
    (hpast : ∀ position, lastServed past position = none) : Records κ past ⟨.empty, device⟩ where
  kind := hkind
  slot position := (hpast position).symm
  fits _ _ hslot := by cases hslot
  apart _ _ _ _ hslot := by cases hslot

/-- What else the backend does leaves the record alone. -/
theorem Records.elsewhere (h : Records κ past c) {device : Device}
    (hkind : device.backend.kind = κ) (hmemory : c.device.memory.Extends device.memory) :
    Records κ past { c with device } :=
  { h with
    kind := hkind
    fits := fun position slot hslot =>
      (h.fits position slot hslot).imp fun _ hfits => hfits.extends hmemory }

/-- The tensor that a call is given fits the buffer from then on. -/
theorem Records.fits_resolved {call : SlotCall} {r : SlotResolution} (h : Records κ past c)
    (hresolved : c.slots.Resolved call.position call.host c.device r d.device) :
    ∃ spec, Slot.Fits κ d.device.memory spec ⟨call.host.storage, r.tensor⟩ := by
  obtain rfl := h.kind
  cases hnew : r.created with
  | true => exact ⟨call.host.spec, hresolved.fits_of_created hnew⟩
  | false =>
    obtain ⟨slot, hslot, -⟩ := hresolved.exists_slot_of_kept hnew
    exact (h.fits call.position slot hslot.get?).imp fun _ =>
      hresolved.fits_of_kept hnew hslot.get?

/-- The tensor that a call is given is at no other position. -/
theorem Records.ne_of_resolved {call : SlotCall} {r : SlotResolution} (h : Records κ past c)
    (hresolved : c.slots.Resolved call.position call.host c.device r d.device) {position : Nat}
    {slot : Slot} (hne : position ≠ call.position) (hslot : c.slots.get? position = some slot) :
    slot.tensor ≠ r.tensor := by
  intro heq
  cases hresolved with
  | created _ htensor _ _ _ =>
    obtain ⟨spec, hfits⟩ := h.fits position slot hslot
    exact absurd hfits.live (by rw [heq, htensor]; exact Nat.lt_irrefl _)
  | kept old _ hold htensor _ _ => exact hne (h.apart _ _ _ _ hslot hold (heq.trans htensor))

/-- **A call that is served** leaves the other positions alone. -/
theorem Records.sameAt {call : SlotCall} {r : SlotResolution} (h : Records κ past c)
    (hslots : d.slots = c.slots.insert call.position ⟨call.host.storage, r.tensor⟩)
    (hresolved : c.slots.Resolved call.position call.host c.device r d.device) {position : Nat}
    (hne : position ≠ call.position) : c.SameAt d position where
  slot := by rw [hslots, SortedMap.get?_insert, if_neg hne]
  tensor slot hslot := by
    obtain ⟨spec, hfits⟩ := h.fits position slot hslot
    exact hresolved.tensor_of_ne hfits.live (h.ne_of_resolved hresolved hne hslot)

/-- **A call that is served** is the last one for its position. -/
theorem Records.served {call : SlotCall} {r : SlotResolution} (h : Records κ past c)
    (hslots : d.slots = c.slots.insert call.position ⟨call.host.storage, r.tensor⟩)
    (hresolved : c.slots.Resolved call.position call.host c.device r d.device)
    (hlater : c.device.Later d.device) :
    Records κ (.served call r.tensor :: past) d := by
  have hget : ∀ position, d.slots.get? position = if position = call.position then
      some ⟨call.host.storage, r.tensor⟩ else c.slots.get? position := fun position => by
    rw [hslots, SortedMap.get?_insert]
  refine ⟨hlater.kind.trans h.kind, fun position => ?_, fun position slot hslot => ?_,
    fun p q x y hp hq hxy => ?_⟩
  · rw [hget, h.slot]
    rfl
  · rw [hget] at hslot
    split at hslot
    · cases hslot
      exact h.fits_resolved hresolved
    · exact (h.fits position slot hslot).imp fun _ hfits => hfits.extends hlater.memory
  · rw [hget] at hp hq
    -- Two other positions were apart before; the position of the call has a tensor of its own.
    split at hp <;> split at hq
    · rename_i hp' hq'
      exact hp'.trans hq'.symm
    · rename_i hq'
      cases hp
      exact absurd hxy.symm (h.ne_of_resolved hresolved hq' hq)
    · rename_i hp' _
      cases hq
      exact absurd hxy (h.ne_of_resolved hresolved hp' hp)
    · exact h.apart p q x y hp hq hxy

/-- A call that fails changes no tensor, and is not remembered. -/
theorem Records.failed {call : SlotCall} (h : Records κ past c) (hslots : d.slots = c.slots)
    (hmemory : d.device.memory = c.device.memory)
    (hlater : c.device.Later d.device) :
    Records κ (.failed call :: past) d where
  kind := hlater.kind.trans h.kind
  slot position := by rw [hslots]; exact h.slot position
  fits position slot hslot := by
    rw [hslots] at hslot
    rw [hmemory]
    exact h.fits position slot hslot
  apart p q x y hp hq := by
    rw [hslots] at hp hq
    exact h.apart p q x y hp hq

/-- **Every table is the record of its history**, by induction on what has happened to it. -/
theorem Reached.records (h : Reached κ past c) : Records κ past c := by
  induction h with
  | start hkind => exact records_empty hkind fun _ => rfl
  | @served past c d call r _ hserve ih =>
    obtain ⟨hslots, hresolved, -, hlater⟩ := (call.ends_serve c).ok hserve
    exact ih.served hslots hresolved hlater
  | @failed past c d call e _ hserve ih =>
    obtain ⟨hslots, hmemory, hlater⟩ := (call.ends_serve c).error hserve
    exact ih.failed hslots hmemory hlater
  | emptied _ ih => exact records_empty ih.kind fun _ => rfl
  | elsewhere _ hkind hmemory ih => exact ih.elsewhere hkind hmemory

end SlotCache

/-! ### What a call is given -/

/-- The answer to a call on a backend of a kind, after the last call for its position. -/
structure SlotCall.Answered (κ : BackendKind) (last : Option Slot) (call : SlotCall) (c : SlotCache)
    (r : SlotResolution) (d : SlotCache) : Prop where
  /-- A tensor is made if there is none, or if it is bound to another buffer. -/
  created : r.created = true ↔ last = none ∨
    κ.isHostBound = true ∧ ∃ slot, last = some slot ∧ slot.host ≠ call.host.storage
  /-- It is one that memory has not had. -/
  new : r.created = true → r.tensor = c.device.memory.tensors.size
  /-- Otherwise it is the tensor of the last call. -/
  kept : r.created = false → ∃ slot, last = some slot ∧ r.tensor = slot.tensor
  /-- What is out of date. -/
  stale : r.stale = true ↔ call.side = .output ∨ last = none ∨
    (∃ slot, last = some slot ∧ slot.host ≠ call.host.storage) ∨
    call.fresh call.host.storage call.artifact = false
  /-- The flag of the tensor says so. -/
  flag : (d.device.memory.tensor r.tensor).stale = r.stale
  /-- Where tensors are in host buffers, this one is in the buffer of the call. -/
  aliases : κ.isHostBound = true → d.device.memory.aliases r.tensor call.host = true
  /-- The position has the tensor now. -/
  tensor : d.slots.tensor? call.position = some r.tensor

/-- A call that is served is answered as the record says. -/
theorem SlotCache.Records.answered {κ : BackendKind} {past : List SlotEvent} {c d : SlotCache}
    {call : SlotCall} {r : SlotResolution} (h : SlotCache.Records κ past c)
    (hslots : d.slots = c.slots.insert call.position ⟨call.host.storage, r.tensor⟩)
    (hresolved : c.slots.Resolved call.position call.host c.device r d.device)
    (hstale : r.stale = false ↔ call.side = .input ∧ ¬ c.slots.Moved call.position call.host ∧
      call.vouched = true) :
    call.Answered κ (lastServed past call.position) c r d := by
  obtain ⟨spec, hfits⟩ := h.fits_resolved hresolved
  rw [SlotTable.moved_iff, h.slot] at hstale
  refine ⟨?_, fun hnew => (hresolved.live_of_created hnew).1, fun hold => ?_, ?_,
    hresolved.flag hfits.live, fun hbound => ?_, ?_⟩
  · rw [hresolved.created_iff, SlotTable.moved_iff, h.slot, h.kind]
    constructor
    · rintro (hnone | ⟨hbound, hnone | hmoved⟩)
      · exact .inl hnone
      · exact .inl hnone
      · exact .inr ⟨hbound, hmoved⟩
    · rintro (hnone | ⟨hbound, hmoved⟩)
      · exact .inl hnone
      · exact .inr ⟨hbound, .inr hmoved⟩
  · obtain ⟨slot, hslot, htensor⟩ := hresolved.exists_slot_of_kept hold
    exact ⟨slot, (h.slot _).symm.trans hslot.get?, htensor⟩
  · have houtput : call.side = .output ↔ ¬ call.side = .input := by cases call.side <;> decide
    have hdenied : call.fresh call.host.storage call.artifact = false ↔ ¬ call.vouched = true :=
      (Bool.not_eq_true _).symm.to_iff
    rw [← Bool.not_eq_false, hstale, houtput, hdenied, not_and_or, not_and_or, not_not, or_assoc]
  · refine Memory.aliases_of_home_host (hfits.home.trans ?_)
    unfold homeFor
    rw [if_pos hbound]
  · unfold SlotTable.tensor?
    rw [hslots, SortedMap.get?_insert, if_pos rfl]
    rfl

/-- **What a call is given follows from the last call for its position.** A call that fails leaves
the tensor of every position, their number and their size as they are, and no call touches the
tensor of another position. -/
theorem served_by_history {κ : BackendKind} {past : List SlotEvent} {c : SlotCache}
    (h : SlotCache.Reached κ past c) (call : SlotCall) :
    Ends (call.serve c)
      (fun r d => call.Answered κ (lastServed past call.position) c r d ∧
        ∀ position, position ≠ call.position → c.SameAt d position)
      fun _ d => (∀ position, c.SameAt d position) ∧ d.slots.size = c.slots.size ∧
        d.slots.byteLength d.device.memory = c.slots.byteLength c.device.memory := by
  have hrec := h.records
  refine (call.ends_serve c).mono (fun r d hd => ?_) fun _ d hd => ?_
  · obtain ⟨hslots, hresolved, hstale, -⟩ := hd
    exact ⟨hrec.answered hslots hresolved hstale, fun position hne =>
      hrec.sameAt hslots hresolved hne⟩
  · obtain ⟨hslots, hmemory, -⟩ := hd
    rw [hslots, hmemory]
    exact ⟨fun _ => ⟨by rw [hslots], fun _ _ => by rw [hmemory]⟩, rfl, rfl⟩

/-- The first input is to be served with a buffer of one number, which is vouched for. -/
def inputFrom (storage : StorageId) : SlotCall :=
  ⟨.input, 0, ⟨⟨.f32, [1]⟩, storage⟩, 1, fun _ _ => true⟩

/-- Two buffers of one number, and a backend that keeps tensors in them. -/
def beforeSlots : SlotCache where
  slots := .empty
  device := ⟨Backend.new "recorder" (.recording .host) none,
    ⟨#[[0, 0, 0, 0], [0, 0, 0, 0]], #[]⟩⟩

/-- The first input has a tensor in the first buffer, and the backend has been told things. -/
def inFirstBuffer (injections : Injections) : SlotCache where
  slots := SlotTable.put .empty 0 (some ⟨0, 0⟩)
  device :=
    { backend := { beforeSlots.device.backend with
        injections, counters := ⟨0, 0, 0, 0, 1, 0, 0, 0, 0⟩ }
      memory := { beforeSlots.device.memory with tensors := #[⟨⟨.f32, [1]⟩, .host 0, true⟩] } }

/-- A tensor cannot be made for the second buffer, and that of the first is still there. -/
theorem kept_of_refused :
    SlotCache.Reached (.recording .host) [.failed (inputFrom 1), .served (inputFrom 0) 0]
      (inFirstBuffer ⟨false, false, false⟩) ∧
    Ends ((inputFrom 0).serve (inFirstBuffer ⟨false, false, false⟩))
      (fun r d => r.created = false ∧ r.tensor = 0 ∧ r.stale = false ∧
        d.device.memory.aliases r.tensor (inputFrom 0).host = true) fun _ _ => False := by
  have hserved : SlotCache.Reached (.recording .host) [.served (inputFrom 0) 0]
      (inFirstBuffer ⟨false, false, false⟩) :=
    .served (c := beforeSlots) (r := ⟨0, true, true⟩) (.start rfl) rfl
  have htold : SlotCache.Reached (.recording .host) [.served (inputFrom 0) 0]
      (inFirstBuffer ⟨false, false, true⟩) := hserved.elsewhere rfl (.refl _)
  have hreached : SlotCache.Reached (.recording .host)
      [.failed (inputFrom 1), .served (inputFrom 0) 0] (inFirstBuffer ⟨false, false, false⟩) :=
    htold.failed rfl
  obtain ⟨r, d, hserve⟩ : ∃ r d, (inputFrom 0).serve (inFirstBuffer ⟨false, false, false⟩) =
    .ok r d := ⟨_, _, rfl⟩
  obtain ⟨hanswered, -⟩ := (served_by_history hreached (inputFrom 0)).ok hserve
  have hcreated : r.created = false := by
    rw [← Bool.not_eq_true, hanswered.created]
    rintro (hnone | ⟨-, slot, hslot, hne⟩)
    · cases hnone
    · cases hslot
      exact hne rfl
  have hstale : r.stale = false := by
    rw [← Bool.not_eq_true, hanswered.stale]
    rintro (hside | hnone | ⟨slot, hslot, hne⟩ | hdenied)
    · cases hside
    · cases hnone
    · cases hslot
      exact hne rfl
    · cases hdenied
  obtain ⟨slot, hslot, htensor⟩ := hanswered.kept hcreated
  cases hslot
  rw [hserve]
  exact ⟨hreached, hcreated, htensor, hstale, hanswered.aliases rfl⟩

end TensorJit
