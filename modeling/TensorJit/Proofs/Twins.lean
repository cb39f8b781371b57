import TensorJit.Proofs.Overwriting
import TensorJit.Proofs.SideBySide

/-!
# Devices that cannot be told apart

Two devices are twins if their backends differ in nothing but what they have counted, and their
memories in nothing but flags (`Device.Twin`). **Every step of a backend respects this**: it reads
neither flags nor counters.

A position that is resolved for a copy that may be vouched for on one side, and is not on the other,
comes to the same tensor on both (`SlotTable.abreast_resolve`).
-/

namespace TensorJit

/-! ### Memories that are alike -/

namespace Memory

variable {m n : Memory}

theorem Alike.symm (h : m.Alike n) : n.Alike m :=
  ⟨h.storages.symm, h.tensors.symm, fun j => (h.storage j).symm, fun j => (h.spec j).symm,
    fun j => (h.home j).symm, fun j => (h.contents j).symm⟩

/-- A tensor has its bytes in the same place. -/
theorem Alike.residence (h : m.Alike n) (j : TensorId) :
    (n.tensor j).residence = (m.tensor j).residence := by
  have hhome := h.home j
  have hcontents := h.contents j
  unfold Memory.home at hhome
  unfold Memory.contents at hcontents
  cases hm : (m.tensor j).residence with
  | host a =>
    cases hn : (n.tensor j).residence with
    | host b =>
      rw [hm, hn] at hhome
      cases hhome
      rfl
    | own bytes =>
      rw [hm, hn] at hhome
      cases hhome
  | own bytes =>
    cases hn : (n.tensor j).residence with
    | host b =>
      rw [hm, hn] at hhome
      cases hhome
    | own bytes' =>
      rw [hm, hn] at hcontents
      exact congrArg Residence.own hcontents

theorem Alike.storages_eq (h : m.Alike n) : n.storages = m.storages := by
  refine Array.ext h.storages fun i hi hi' => ?_
  have hstorage := h.storage i
  unfold Memory.storage at hstorage
  rwa [Array.getD_eq_getD_getElem?, Array.getD_eq_getD_getElem?, Array.getElem?_eq_getElem hi,
    Array.getElem?_eq_getElem hi'] at hstorage

theorem alike_of_residence (hstorages : n.storages = m.storages)
    (hsize : n.tensors.size = m.tensors.size) (hspec : ∀ j, (n.tensor j).spec = (m.tensor j).spec)
    (hresidence : ∀ j, (n.tensor j).residence = (m.tensor j).residence) : m.Alike n := by
  have hstorage : ∀ j, n.storage j = m.storage j := fun j => by
    unfold storage
    rw [hstorages]
  refine ⟨congrArg Array.size hstorages, hsize, hstorage, hspec, fun j => ?_, fun j => ?_⟩
  · unfold home
    rw [hresidence]
  · unfold contents
    rw [hresidence]
    split
    · exact hstorage _
    · rfl

/-- Flags do not matter. -/
theorem Alike.setStale (h : m.Alike n) (id : TensorId) (stale stale' : Bool) :
    (m.setStale id stale).Alike (n.setStale id stale') :=
  (m.alike_setStale id stale).symm.trans (h.trans (n.alike_setStale id stale'))

/-- A tensor is made with the same identity on both sides. -/
theorem Alike.createTensor (h : m.Alike n) (spec : TensorSpec) (residence : Residence) :
    (m.createTensor spec residence).2.Alike (n.createTensor spec residence).2 := by
  refine alike_of_residence h.storages_eq ?_ (fun j => ?_) fun j => ?_
  · change (n.tensors.push _).size = (m.tensors.push _).size
    rw [Array.size_push, Array.size_push, h.tensors]
  · rw [tensor_createTensor, tensor_createTensor, h.tensors]
    split
    · rfl
    · exact h.spec j
  · rw [tensor_createTensor, tensor_createTensor, h.tensors]
    split
    · rfl
    · exact h.residence j

theorem Alike.setStorage (h : m.Alike n) (id : StorageId) (bytes : Bytes) :
    (m.setStorage id bytes).Alike (n.setStorage id bytes) := by
  refine alike_of_residence ?_ h.tensors h.spec h.residence
  unfold Memory.setStorage
  rw [h.storages_eq]

/-- The same bytes go to the same place. -/
theorem Alike.setContents (h : m.Alike n) (id : TensorId) (bytes : Bytes) :
    (m.setContents id bytes).Alike (n.setContents id bytes) := by
  cases hm : (m.tensor id).residence with
  | host storage =>
    have hn := (h.residence id).trans hm
    rw [setContents_of_home_host (by rw [Memory.home, hm]; rfl),
      setContents_of_home_host (by rw [Memory.home, hn]; rfl)]
    exact h.setStorage storage bytes
  | own old =>
    have hn := (h.residence id).trans hm
    have hhome : m.home id = .own old.length := by rw [Memory.home, hm]; rfl
    have hhome' : n.home id = .own old.length := by rw [Memory.home, hn]; rfl
    refine alike_of_residence ?_ ?_ (fun j => ?_) fun j => ?_
    · rw [storages_setContents_of_home_own hhome, storages_setContents_of_home_own hhome',
        h.storages_eq]
    · rw [size_tensors_setContents, size_tensors_setContents, h.tensors]
    · rw [spec_setContents, spec_setContents, h.spec]
    · by_cases hj : j = id
      · subst hj
        unfold Memory.setContents
        rw [hm, hn]
        dsimp only
        rcases Nat.lt_or_ge j m.tensors.size with hlt | hge
        · rw [tensor_modify_self m _ hlt, tensor_modify_self n _ (h.tensors.symm ▸ hlt)]
        · rw [tensor_of_size_le, tensor_of_size_le]
          · rwa [Array.size_modify]
          · rwa [Array.size_modify, h.tensors]
      · rw [tensor_setContents_of_ne _ _ hj, tensor_setContents_of_ne _ _ hj]
        exact h.residence j

/-- The same storage is allocated. -/
theorem Alike.allocate (h : m.Alike n) (t : Tensor) :
    (n.allocate t).1 = (m.allocate t).1 ∧ (m.allocate t).2.Alike (n.allocate t).2 := by
  constructor
  · unfold Memory.allocate
    rw [h.storages]
  · refine alike_of_residence ?_ h.tensors h.spec h.residence
    unfold Memory.allocate
    rw [h.storages_eq]

end Memory

/-- Output buffers are made ready alike. By induction on the specs. -/
theorem OutputBuffers.refit_congr {m n : Memory} (h : m.Alike n) (buffers : List HostBuffer)
    (specs : List TensorSpec) : (refit buffers specs n).1 = (refit buffers specs m).1 ∧
      (refit buffers specs m).2.Alike (refit buffers specs n).2 := by
  induction specs generalizing buffers m n with
  | nil => exact ⟨rfl, h⟩
  | cons spec specs ih =>
    unfold refit
    cases buffers.head?.filter (·.spec = spec) with
    | some b =>
      obtain ⟨hrest, halike⟩ := ih h buffers.tail
      exact ⟨congrArg (fun r => (b :: r.1, r.2 + 0)) hrest, halike⟩
    | none =>
      obtain ⟨hnew, halike⟩ := h.allocate (.zeros spec)
      obtain ⟨hrest, halike⟩ := ih halike buffers.tail
      refine ⟨?_, halike⟩
      change ((n.allocate (.zeros spec)).1 :: (refit buffers.tail specs _).1.1,
        (refit buffers.tail specs _).1.2 + 1) = _
      rw [hrest, hnew]
      rfl

/-! ### Twins -/

/-- Two devices have backends that have counted differently at most, and memories that are alike. -/
structure Device.Twin (d e : Device) : Prop where
  /-- The backends differ in nothing but their counters. -/
  backend : e.backend = { d.backend with counters := e.backend.counters }
  /-- The memories are alike. -/
  memory : d.memory.Alike e.memory

namespace Device.Twin

variable {d e : Device}

theorem kind (h : d.Twin e) : e.backend.kind = d.backend.kind := by rw [h.backend]

theorem injections (h : d.Twin e) : e.backend.injections = d.backend.injections := by
  rw [h.backend]

/-- Whatever is counted on either side. -/
theorem counted (h : d.Twin e) (counters counters' : BackendCounters) :
    ({ d with backend.counters := counters } : Device).Twin
      { e with backend.counters := counters' } :=
  ⟨congrArg (fun b : Backend => { b with counters := counters' }) h.backend, h.memory⟩

end Device.Twin

namespace Backend

open Device (Twin)

theorem respects_kindOf : Respects Twin kindOf :=
  respects_get_bind (fun d e h => by rw [h.kind]) fun _ => respects_pure _

theorem respects_count (change : BackendCounters → BackendCounters) :
    Respects Twin (count change) := respects_modify fun _ _ h => h.counted _ _

theorem respects_fail {α : Type} (fault : BackendFault) :
    Respects Twin (fail fault : BackendM α) := respects_throw _

/-- A change of memory is the same on both sides if it keeps memories alike. -/
theorem respects_withMemory {α : Type} {change : Memory → α × Memory}
    (h : ∀ m n : Memory, m.Alike n → (change n).1 = (change m).1 ∧ (change m).2.Alike (change n).2) :
    Respects Twin (withMemory change) := fun d e hd => by
  obtain ⟨hvalue, hmemory⟩ := h d.memory e.memory hd.memory
  exact ⟨hvalue, hd.backend, hmemory⟩

/-- Both sides have been told to fail at the same things. -/
theorem respects_takeInjection (injected : Injections → Bool) (clear : Injections → Injections) :
    Respects Twin (takeInjection injected clear) := fun d e hd => by
  change Abreast ((if injected d.backend.injections then _ else _ : BackendM Bool) d)
    ((if injected e.backend.injections then _ else _ : BackendM Bool) e) _ _
  rw [hd.injections]
  split
  · exact ⟨rfl, congrArg (fun b : Backend => { b with injections := clear d.backend.injections })
      hd.backend, hd.memory⟩
  · exact ⟨rfl, hd⟩

/-! ### Compiling, loading, releasing -/

theorem respects_acceptLive (f : Function) : Respects Twin (acceptLive f) := by
  unfold acceptLive
  split
  · exact respects_throw _
  · exact (respects_count _).bind fun _ => respects_pure _

/-- **Both sides compile, or fail to**, in the same way. -/
theorem respects_compile (f : Function) : Respects Twin (compile f) := by
  refine respects_kindOf.bind fun κ => ?_
  cases κ with
  | reference => exact respects_acceptLive f
  | recording mode =>
    refine (respects_takeInjection _ _).bind fun broken => ?_
    cases broken with
    | true => exact respects_fail _
    | false =>
      refine (respects_takeInjection _ _).bind fun failed => ?_
      cases failed with
      | true => exact respects_fail _
      | false => exact (respects_count _).bind fun _ => respects_pure _

/-- So it is with loading. -/
theorem respects_load (bytes : Bytes) : Respects Twin (load bytes) := by
  refine respects_kindOf.bind fun κ => ?_
  cases κ with
  | reference =>
    cases Function.deserialize? bytes with
    | none => exact respects_fail _
    | some f => exact respects_acceptLive f
  | recording mode =>
    cases Function.deserialize? bytes with
    | none => exact respects_fail _
    | some f => exact (respects_count _).bind fun _ => respects_pure _

/-- Both release, which cannot fail. -/
theorem respects_release : Respects Twin release := by
  refine respects_kindOf.bind fun κ => ?_
  cases κ with
  | reference => exact respects_count _
  | recording mode => exact respects_count _

theorem respects_configure (options : BackendOptions) : Respects Twin (configure options) := by
  refine respects_unit fun d e h => ?_
  have hrefusal : e.backend.refusal? options = d.backend.refusal? options := by
    unfold refusal?
    rw [h.backend]
  unfold configure
  rw [abreast_get_bind, hrefusal]
  cases d.backend.refusal? options with
  | some key => exact (respects_fail _).abreast h
  | none =>
    have hoptions : e.backend.options = d.backend.options := by rw [h.backend]
    rw [hoptions]
    exact ⟨congrArg (fun b : Backend =>
      { b with options := d.backend.options.insertMany options }) h.backend, h.memory⟩

/-! ### Tensors -/

theorem respects_createOwn (spec : TensorSpec) : Respects Twin (createOwn spec) :=
  (respects_count _).bind fun _ => respects_withMemory fun _ _ h =>
    ⟨h.tensors, h.createTensor _ _⟩

theorem respects_createBound (spec : TensorSpec) (host : HostBuffer) :
    Respects Twin (createBound spec host) :=
  (respects_count _).bind fun _ => respects_withMemory fun _ _ h =>
    ⟨h.tensors, h.createTensor _ _⟩

/-- **A tensor is made on both sides**, in the way of their kind, or on neither. -/
theorem respects_createTensor (spec : TensorSpec) (host : Option HostBuffer) :
    Respects Twin (createTensor spec host) := by
  refine respects_kindOf.bind fun κ => ?_
  cases κ with
  | reference =>
    cases host with
    | none => exact respects_createOwn spec
    | some b =>
      dsimp only
      split
      · exact respects_createBound spec b
      · exact respects_fail _
  | recording mode =>
    refine (respects_takeInjection _ _).bind fun failed => ?_
    cases failed with
    | true => exact respects_fail _
    | false =>
      cases mode <;> cases host <;> first
        | exact respects_createBound spec _
        | exact respects_createOwn spec

/-- Whatever the flag is set to on either side. -/
theorem abreast_setStale {d e : Device} (h : d.Twin e) (id : TensorId) (stale stale' : Bool) :
    Abreast (setStale id stale d) (setStale id stale' e) (fun _ d _ e => d.Twin e) Twin :=
  ⟨h.backend, h.memory.setStale id stale stale'⟩

/-- A stretch is overwritten on both sides or lies outside of both tensors. -/
theorem respects_overwrite (id : TensorId) (source : Bytes) (offset : Nat) :
    Respects Twin (overwrite id source offset) := fun d e hd => by
  have hover : ∀ m : Memory, m.overwrite? id source offset =
      ((m.contents id).overwrite? source offset).map (m.setContents id) := fun _ => rfl
  unfold overwrite
  rw [abreast_get_bind, hover, hover, hd.memory.contents, hd.kind]
  cases (d.memory.contents id).overwrite? source offset with
  | some bytes => exact ⟨rfl, hd.backend, hd.memory.setContents id bytes⟩
  | none =>
    cases d.backend.kind with
    | reference => exact respects_fail _ d e hd
    | recording mode => exact respects_fail _ d e hd

/-- **An input is copied on both sides.** What is counted may differ. -/
theorem respects_write (id : TensorId) (source : Bytes) (offset : Nat) :
    Respects Twin (write id source offset) :=
  (respects_overwrite id source offset).bind fun _ => respects_count _

/-- **What is there already is written again**, on one side only. -/
theorem ends_rewrite {d e : Device} (h : d.Twin e) (id : TensorId) :
    Ends (write id (e.memory.contents id) 0 e) (fun _ e' => d.Twin e') fun _ _ => False := by
  have hover : e.memory.overwrite? id (e.memory.contents id) 0 =
      some (e.memory.setContents id (e.memory.contents id)) := by
    rw [Memory.overwrite?_zero, if_pos (Nat.le_refl _), Bytes.onto_eq_self (List.prefix_refl _)]
  unfold write overwrite
  rw [ends_bind, ends_bind, ends_get, hover]
  have hwritten : d.Twin { e with memory := e.memory.setContents id (e.memory.contents id) } :=
    ⟨h.backend, h.memory.trans (e.memory.alike_setContents id)⟩
  exact hwritten.counted d.backend.counters _

/-- **The same bytes are read.** -/
theorem respects_read (id : TensorId) (length offset : Nat) :
    Respects Twin (read id length offset) := by
  refine respects_get_bind (fun d e h => ?_) fun d => ?_
  · rw [h.memory.contents, h.kind]
  · cases (d.memory.contents id).slice? offset length with
    | some bytes => exact (respects_count _).bind fun _ => respects_pure _
    | none =>
      cases d.backend.kind with
      | reference => exact respects_fail _
      | recording mode => exact respects_fail _

/-! ### Calling -/

theorem respects_store (id : TensorId) (v : Value UInt32) : Respects Twin (store id v) := by
  have hstore : Respects Twin (do
      overwrite id (Tensor.bytesOfWords v.data) 0
      setStale id false) := (respects_overwrite _ _ _).bind fun _ => fun d e h =>
    (abreast_setStale h id false false).mono (fun _ _ _ _ hu => ⟨rfl, hu⟩) fun _ _ hu => hu
  refine respects_get_bind (fun d e h => ?_) fun d => ?_
  · dsimp only
    rw [h.memory.spec, h.kind]
  · dsimp only
    split
    · exact (respects_fail _).bind fun _ => hstore
    · exact hstore

/-- Results are stored one after the other, and refused at the same place. By induction on the
tensors. -/
theorem respects_storeAll (outputs : List (Option TensorId)) (results : List (Value UInt32)) :
    Respects Twin (storeAll outputs results) := by
  induction outputs generalizing results with
  | nil => exact respects_pure _
  | cons output outputs ih =>
    cases results with
    | nil => cases output <;> exact respects_pure _
    | cons v results =>
      cases output with
      | none => exact ih results
      | some id => exact (respects_store id v).bind fun _ => ih results

/-- **A call finds the same in its inputs**, so it gives the same. -/
theorem respects_call (x : Executable) (outputs inputs : List (Option TensorId)) :
    Respects Twin (call x outputs inputs) := by
  refine (respects_count _).bind fun _ => respects_get_bind (fun d e h => ?_) fun d => ?_
  · rw [h.kind, parametersOf_congr _ _ fun y _ => ⟨h.memory.spec y, h.memory.contents y⟩]
  · dsimp only
    split
    · exact respects_throw _
    · exact respects_storeAll _ _

end Backend

/-- **A position is resolved** on both sides, and on the second one nobody vouches for the copy. It
comes to the same tensor, which is out of date on the second side. -/
theorem SlotTable.abreast_resolve {d e : Device} (h : d.Twin e) (slots : SlotTable) (side : Side)
    (position : Nat) (host : HostBuffer) (vouched : Bool) :
    Abreast (slots.resolve side position host vouched d) (slots.resolve side position host false e)
      (fun r d r' e => r' = ({ r.1 with stale := true }, r.2) ∧ d.Twin e) Device.Twin := by
  have hrest : ∀ {d e : Device} (x : TensorId) (created stale stale' : Bool), d.Twin e →
      stale' = true → Abreast
        ((do
          Backend.setStale x stale
          return ((⟨x, created, stale⟩ : SlotResolution),
            slots.insert position ⟨host.storage, x⟩)) d)
        ((do
          Backend.setStale x stale'
          return ((⟨x, created, stale'⟩ : SlotResolution),
            slots.insert position ⟨host.storage, x⟩)) e)
        (fun r d r' e => r' = ({ r.1 with stale := true }, r.2) ∧ d.Twin e) Device.Twin := by
    rintro d e x created stale _ h rfl
    refine (Backend.abreast_setStale h x stale true).bind fun _ d _ e hd => ?_
    exact abreast_pure ⟨rfl, hd⟩
  unfold resolve
  refine (Backend.respects_kindOf d e h).bind fun κ d κ' e hd => ?_
  obtain ⟨rfl, hd⟩ := hd
  -- The tensor is made, or it is that of the slot, whatever is vouched for.
  have hmake := Backend.respects_createTensor host.spec
    (if κ'.isHostBound then some host else none) d e hd
  dsimp only
  split
  · refine hmake.bind fun x d x' e hd => ?_
    obtain ⟨rfl, hd⟩ := hd
    exact hrest x' _ _ _ hd (Bool.or_true _)
  · cases slots.get? position with
    | none =>
      refine hmake.bind fun x d x' e hd => ?_
      obtain ⟨rfl, hd⟩ := hd
      exact hrest x' _ _ _ hd (Bool.or_true _)
    | some slot => exact hrest slot.tensor _ _ _ hd (Bool.or_true _)

end TensorJit
