import Mathlib.Data.List.Basic
import TensorJit.Memory

/-!
# What memory keeps

Nothing is ever taken out of memory. A tensor keeps its spec and its **home**, which is the
storage of the host it is bound to, or a storage of its own of a fixed length; only the bytes
behind it change, and its flag (`Memory.Extends`). What an operation does to one tensor it does
to no other.
-/

namespace TensorJit

/-- Where a tensor has its bytes for good. -/
inductive Home where
  /-- In a storage of the host. -/
  | host (storage : StorageId)
  /-- In a storage of its own, of so many bytes. -/
  | own (length : Nat)
  deriving DecidableEq

/-- The home that a residence is in. -/
def Residence.home : Residence → Home
  | .host storage => .host storage
  | .own bytes => .own bytes.length

namespace Memory

variable {m n : Memory} {id j : TensorId}

/-- The home of a tensor. -/
def home (m : Memory) (id : TensorId) : Home := (m.tensor id).residence.home

/-- **A tensor in a host buffer holds what the buffer holds.** -/
theorem contents_of_home_host {storage : StorageId} (h : m.home id = .host storage) :
    m.contents id = m.storage storage := by
  unfold home at h
  unfold contents
  cases hr : (m.tensor id).residence with
  | host t => rw [hr] at h; cases h; rfl
  | own bytes => rw [hr] at h; cases h

/-- It is an alias of this buffer. -/
theorem aliases_of_home_host {b : HostBuffer} (h : m.home id = .host b.storage) :
    m.aliases id b = true := by
  unfold home at h
  unfold aliases
  cases hr : (m.tensor id).residence with
  | host t => rw [hr] at h; cases h; exact decide_eq_true rfl
  | own bytes => rw [hr] at h; cases h

/-- A tensor with storage of its own has as many bytes as its home says. -/
theorem length_contents_of_home_own {length : Nat} (h : m.home id = .own length) :
    (m.contents id).length = length := by
  unfold home at h
  unfold contents
  cases hr : (m.tensor id).residence with
  | host t => rw [hr] at h; cases h
  | own bytes => rw [hr] at h; cases h; rfl

/-- What a tensor holds is told by the tensor and the storages of the host. -/
theorem contents_eq_of_tensor_eq (htensor : n.tensor id = m.tensor id)
    (hstorages : n.storages = m.storages) : n.contents id = m.contents id := by
  unfold contents storage
  rw [htensor, hstorages]

/-- A tensor with storage of its own does not depend on the storages of the host. -/
theorem contents_eq_of_home_own {length : Nat} (h : m.home id = .own length)
    (htensor : n.tensor id = m.tensor id) : n.contents id = m.contents id := by
  unfold home at h
  unfold contents
  rw [htensor]
  cases hr : (m.tensor id).residence with
  | host t => rw [hr] at h; cases h
  | own bytes => rfl

/-! ### Storages -/

/-- A storage is replaced, and no other. -/
theorem storage_setStorage (m : Memory) (id : StorageId) (bytes : Bytes) (j : StorageId)
    (h : id < m.storages.size) :
    (m.setStorage id bytes).storage j = if j = id then bytes else m.storage j := by
  unfold setStorage storage
  rw [Array.getD_eq_getD_getElem?, Array.getD_eq_getD_getElem?, Array.getElem?_setIfInBounds]
  by_cases hj : j = id
  · subst hj
    simp [h]
  · rw [if_neg (Ne.symm hj), if_neg hj]

theorem storage_setStorage_of_ne (m : Memory) {id : StorageId} (bytes : Bytes) {j : StorageId}
    (h : j ≠ id) : (m.setStorage id bytes).storage j = m.storage j := by
  unfold setStorage storage
  rw [Array.getD_eq_getD_getElem?, Array.getD_eq_getD_getElem?, Array.getElem?_setIfInBounds,
    if_neg (Ne.symm h)]

@[simp] theorem tensor_setStorage (m : Memory) (id : StorageId) (bytes : Bytes) (j : TensorId) :
    (m.setStorage id bytes).tensor j = m.tensor j := rfl

@[simp] theorem tensors_setStorage (m : Memory) (id : StorageId) (bytes : Bytes) :
    (m.setStorage id bytes).tensors = m.tensors := rfl

@[simp] theorem size_storages_setStorage (m : Memory) (id : StorageId) (bytes : Bytes) :
    (m.setStorage id bytes).storages.size = m.storages.size := Array.size_setIfInBounds

/-- Allocating leaves the storages as they are. -/
theorem storage_allocate_of_lt (m : Memory) (t : Tensor) {j : StorageId}
    (h : j < m.storages.size) : (m.allocate t).2.storage j = m.storage j := by
  unfold allocate storage
  rw [Array.getD_eq_getD_getElem?, Array.getD_eq_getD_getElem?, Array.getElem?_push_lt h]
  simp [h]

/-- A new storage is the only one that is not as it was. -/
theorem storage_allocate_of_ne (m : Memory) (t : Tensor) {j : StorageId}
    (h : j ≠ m.storages.size) : (m.allocate t).2.storage j = m.storage j := by
  unfold allocate storage
  rw [Array.getD_eq_getD_getElem?, Array.getD_eq_getD_getElem?, Array.getElem?_push, if_neg h]

/-- The new storage is the last one, and has the bytes of the tensor. -/
theorem storage_allocate_size (m : Memory) (t : Tensor) :
    (m.allocate t).2.storage m.storages.size = t.bytes := by
  unfold allocate storage
  rw [Array.getD_eq_getD_getElem?, Array.getElem?_push_size]
  rfl

@[simp] theorem size_storages_allocate (m : Memory) (t : Tensor) :
    (m.allocate t).2.storages.size = m.storages.size + 1 := Array.size_push _

/-! ### Tensors -/

/-- A new tensor is the last one, and flagged. -/
theorem tensor_createTensor (m : Memory) (spec : TensorSpec) (residence : Residence)
    (j : TensorId) : (m.createTensor spec residence).2.tensor j =
      if j = m.tensors.size then ⟨spec, residence, true⟩ else m.tensor j := by
  unfold createTensor tensor
  rw [Array.getD_eq_getD_getElem?, Array.getD_eq_getD_getElem?, Array.getElem?_push]
  split
  · rfl
  · rfl

/-- Only the tensor in question is changed. -/
theorem tensor_modify (m : Memory) (id : TensorId) (f : DeviceTensor → DeviceTensor)
    (j : TensorId) (h : j ≠ id) :
    ({ m with tensors := m.tensors.modify id f } : Memory).tensor j = m.tensor j := by
  unfold tensor
  rw [Array.getD_eq_getD_getElem?, Array.getD_eq_getD_getElem?, Array.getElem?_modify,
    if_neg (Ne.symm h)]

theorem tensor_modify_self (m : Memory) (f : DeviceTensor → DeviceTensor)
    (h : id < m.tensors.size) :
    ({ m with tensors := m.tensors.modify id f } : Memory).tensor id = f (m.tensor id) := by
  unfold tensor
  rw [Array.getD_eq_getD_getElem?, Array.getD_eq_getD_getElem?, Array.getElem?_modify, if_pos rfl,
    Array.getElem?_eq_getElem h]
  rfl

/-- Beyond the last tensor there are none. -/
theorem tensor_of_size_le (m : Memory) (h : m.tensors.size ≤ id) : m.tensor id = default := by
  unfold tensor
  rw [Array.getD_eq_getD_getElem?, Array.getElem?_eq_none h]
  rfl

theorem tensor_setStale_of_ne (m : Memory) (stale : Bool) (h : j ≠ id) :
    (m.setStale id stale).tensor j = m.tensor j := tensor_modify m id _ j h

/-- The flag is what it was set to. -/
theorem stale_setStale (m : Memory) (stale : Bool) (h : id < m.tensors.size) :
    ((m.setStale id stale).tensor id).stale = stale := by
  rw [setStale, tensor_modify_self m _ h]

@[simp] theorem spec_setStale (m : Memory) (id : TensorId) (stale : Bool) (j : TensorId) :
    ((m.setStale id stale).tensor j).spec = (m.tensor j).spec := by
  by_cases hj : j = id
  · subst hj
    rcases Nat.lt_or_ge j m.tensors.size with hlt | hge
    · rw [setStale, tensor_modify_self m _ hlt]
    · rw [tensor_of_size_le m hge, tensor_of_size_le]
      simpa [setStale] using hge
  · rw [tensor_setStale_of_ne m stale hj]

@[simp] theorem residence_setStale (m : Memory) (id : TensorId) (stale : Bool) (j : TensorId) :
    ((m.setStale id stale).tensor j).residence = (m.tensor j).residence := by
  by_cases hj : j = id
  · subst hj
    rcases Nat.lt_or_ge j m.tensors.size with hlt | hge
    · rw [setStale, tensor_modify_self m _ hlt]
    · rw [tensor_of_size_le m hge, tensor_of_size_le]
      simpa [setStale] using hge
  · rw [tensor_setStale_of_ne m stale hj]

@[simp] theorem storages_setStale (m : Memory) (id : TensorId) (stale : Bool) :
    (m.setStale id stale).storages = m.storages := rfl

@[simp] theorem size_tensors_setStale (m : Memory) (id : TensorId) (stale : Bool) :
    (m.setStale id stale).tensors.size = m.tensors.size := Array.size_modify

/-- The flag of a tensor has nothing to do with its contents. -/
@[simp] theorem contents_setStale (m : Memory) (id : TensorId) (stale : Bool) (j : TensorId) :
    (m.setStale id stale).contents j = m.contents j := by
  unfold contents
  rw [residence_setStale]
  rfl

/-! ### Contents -/

theorem tensor_setContents_of_ne (m : Memory) (bytes : Bytes) (h : j ≠ id) :
    (m.setContents id bytes).tensor j = m.tensor j := by
  unfold setContents
  split
  · rfl
  · exact tensor_modify m id _ j h

@[simp] theorem size_tensors_setContents (m : Memory) (id : TensorId) (bytes : Bytes) :
    (m.setContents id bytes).tensors.size = m.tensors.size := by
  unfold setContents
  split
  · rfl
  · exact Array.size_modify

@[simp] theorem size_storages_setContents (m : Memory) (id : TensorId) (bytes : Bytes) :
    (m.setContents id bytes).storages.size = m.storages.size := by
  unfold setContents
  split
  · exact Array.size_setIfInBounds
  · rfl

@[simp] theorem spec_setContents (m : Memory) (id : TensorId) (bytes : Bytes) (j : TensorId) :
    ((m.setContents id bytes).tensor j).spec = (m.tensor j).spec := by
  by_cases hj : j = id
  · subst hj
    rcases Nat.lt_or_ge j m.tensors.size with hlt | hge
    · unfold setContents
      split
      · rfl
      · rw [tensor_modify_self m _ hlt]
    · rw [tensor_of_size_le m hge, tensor_of_size_le]
      simpa using hge
  · rw [tensor_setContents_of_ne m bytes hj]

/-- **To write to a tensor in a host buffer is to write to the buffer.** -/
theorem setContents_of_home_host {storage : StorageId} (h : m.home id = .host storage)
    (bytes : Bytes) : m.setContents id bytes = m.setStorage storage bytes := by
  unfold home at h
  unfold setContents
  cases hr : (m.tensor id).residence with
  | host t => rw [hr] at h; cases h; rfl
  | own bytes => rw [hr] at h; cases h

/-- To write to a tensor with storage of its own leaves the host alone. -/
theorem storages_setContents_of_home_own {length : Nat} (h : m.home id = .own length)
    (bytes : Bytes) : (m.setContents id bytes).storages = m.storages := by
  unfold home at h
  unfold setContents
  cases hr : (m.tensor id).residence with
  | host t => rw [hr] at h; cases h
  | own bytes => rfl

/-- What was written to such a tensor is what it holds. -/
theorem contents_setContents_of_home_own {length : Nat} (h : m.home id = .own length)
    (hid : id < m.tensors.size) (bytes : Bytes) : (m.setContents id bytes).contents id = bytes := by
  unfold home at h
  cases hr : (m.tensor id).residence with
  | host t => rw [hr] at h; cases h
  | own old =>
    unfold contents setContents
    rw [hr]
    simp only
    rw [tensor_modify_self m _ hid]

/-- Bytes of the same number in their place leave every tensor at home. -/
theorem home_setContents (m : Memory) (id : TensorId) {bytes : Bytes}
    (hlen : bytes.length = (m.contents id).length) (j : TensorId) :
    (m.setContents id bytes).home j = m.home j := by
  unfold home
  by_cases hj : j = id
  · subst hj
    cases hr : (m.tensor j).residence with
    | host t => rw [setContents_of_home_host (by rw [home, hr, Residence.home]), tensor_setStorage, hr]
    | own old =>
      rcases Nat.lt_or_ge j m.tensors.size with hlt | hge
      · unfold setContents
        rw [hr]
        simp only
        rw [tensor_modify_self m _ hlt]
        unfold contents at hlen
        rw [hr] at hlen
        simp only [Residence.home, hlen]
      · rw [← hr, tensor_of_size_le m hge, tensor_of_size_le]
        simpa using hge
  · rw [tensor_setContents_of_ne m bytes hj]

/-! ### Growing -/

/-- One memory is another after something has happened: every storage and every tensor is still
there, and every tensor has its spec and its home. -/
structure Extends (m n : Memory) : Prop where
  /-- The storages are still there. -/
  storages : m.storages.size ≤ n.storages.size
  /-- The tensors are still there. -/
  tensors : m.tensors.size ≤ n.tensors.size
  /-- They keep their specs. -/
  spec : ∀ id, id < m.tensors.size → (n.tensor id).spec = (m.tensor id).spec
  /-- They keep their homes. -/
  home : ∀ id, id < m.tensors.size → n.home id = m.home id

theorem Extends.refl (m : Memory) : m.Extends m :=
  ⟨Nat.le_refl _, Nat.le_refl _, fun _ _ => rfl, fun _ _ => rfl⟩

/-- **Memory that has grown twice has grown**: what was there keeps its spec and its home. -/
theorem Extends.trans {k : Memory} (h : k.Extends m) (h' : m.Extends n) : k.Extends n where
  storages := Nat.le_trans h.storages h'.storages
  tensors := Nat.le_trans h.tensors h'.tensors
  spec id hid := (h'.spec id (Nat.lt_of_lt_of_le hid h.tensors)).trans (h.spec id hid)
  home id hid := (h'.home id (Nat.lt_of_lt_of_le hid h.tensors)).trans (h.home id hid)

/-- Other bytes of the host move no tensor. -/
theorem extends_setStorage (m : Memory) (id : StorageId) (bytes : Bytes) :
    m.Extends (m.setStorage id bytes) :=
  ⟨Nat.le_of_eq (size_storages_setStorage m id bytes).symm, Nat.le_refl _, fun _ _ => rfl,
    fun _ _ => rfl⟩

theorem extends_allocate (m : Memory) (t : Tensor) : m.Extends (m.allocate t).2 :=
  ⟨by rw [size_storages_allocate]; exact Nat.le_succ _, Nat.le_refl _, fun _ _ => rfl,
    fun _ _ => rfl⟩

/-- A new tensor is behind all that there were. -/
theorem extends_createTensor (m : Memory) (spec : TensorSpec) (residence : Residence) :
    m.Extends (m.createTensor spec residence).2 := by
  have h : ∀ id, id < m.tensors.size →
      (m.createTensor spec residence).2.tensor id = m.tensor id := fun id hid => by
    rw [tensor_createTensor, if_neg (Nat.ne_of_lt hid)]
  exact ⟨Nat.le_refl _, by simp [createTensor], fun id hid => by rw [h id hid],
    fun id hid => by rw [Memory.home, Memory.home, h id hid]⟩

theorem extends_setStale (m : Memory) (id : TensorId) (stale : Bool) :
    m.Extends (m.setStale id stale) :=
  ⟨Nat.le_refl _, Nat.le_of_eq (size_tensors_setStale m id stale).symm,
    fun j _ => spec_setStale m id stale j,
    fun j _ => by rw [Memory.home, Memory.home, residence_setStale]⟩

/-- Nor do such bytes written to a tensor. -/
theorem extends_setContents (m : Memory) (id : TensorId) {bytes : Bytes}
    (hlen : bytes.length = (m.contents id).length) : m.Extends (m.setContents id bytes) :=
  ⟨Nat.le_of_eq (size_storages_setContents m id bytes).symm,
    Nat.le_of_eq (size_tensors_setContents m id bytes).symm,
    fun j _ => spec_setContents m id bytes j, fun j _ => home_setContents m id hlen j⟩

/-- Overwriting a stretch that lies in the tensor keeps the length of the whole. -/
theorem overwrite?_eq_some {source : Bytes} {offset : Nat}
    (h : m.overwrite? id source offset = some n) :
    ∃ bytes, (m.contents id).overwrite? source offset = some bytes ∧
      bytes.length = (m.contents id).length ∧ n = m.setContents id bytes := by
  obtain ⟨bytes, hbytes, rfl⟩ := Option.map_eq_some_iff.1 h
  exact ⟨bytes, hbytes, Bytes.length_overwrite? hbytes, rfl⟩

theorem extends_overwrite? {source : Bytes} {offset : Nat}
    (h : m.overwrite? id source offset = some n) : m.Extends n := by
  obtain ⟨bytes, -, hlen, rfl⟩ := overwrite?_eq_some h
  exact extends_setContents m id hlen

/-! ### Writing over contents -/

/-- Two tensors that have no bytes in common. -/
def Apart (m : Memory) (i j : TensorId) : Prop :=
  i ≠ j ∧ ∀ storage, m.home i = .host storage → m.home j ≠ .host storage

/-- A tensor whose contents can be written over with bytes. -/
structure Takes (m : Memory) (id : TensorId) (bytes : Bytes) : Prop where
  /-- It exists. -/
  live : id < m.tensors.size
  /-- There are as many bytes. -/
  length : (m.contents id).length = bytes.length
  /-- The storage that it is bound to exists. -/
  bound : ∀ storage, m.home id = .host storage → storage < m.storages.size

/-- Bytes have been written over the contents of some tensors. -/
structure Written (m : Memory) (writes : List (TensorId × Bytes)) (n : Memory) : Prop where
  /-- Memory has only grown. -/
  grown : m.Extends n
  /-- There are as many storages. -/
  size : n.storages.size = m.storages.size
  /-- There are as many tensors. -/
  count : n.tensors.size = m.tensors.size
  /-- The tensors hold the bytes. -/
  contents : ∀ w ∈ writes, n.contents w.1 = w.2
  /-- Storages that none of them is bound to are as they were. -/
  storages : ∀ storage, (∀ w ∈ writes, m.home w.1 ≠ .host storage) →
    n.storage storage = m.storage storage
  /-- Other tensors are as they were. -/
  tensors : ∀ j, (∀ w ∈ writes, j ≠ w.1) → n.tensor j = m.tensor j

theorem Written.nil (m : Memory) : m.Written [] m :=
  ⟨.refl m, rfl, rfl, nofun, fun _ _ => rfl, fun _ _ => rfl⟩

/-- A tensor that has nothing in common with those that were written to holds what it held. -/
theorem Written.contents_of_apart {writes : List (TensorId × Bytes)} (h : m.Written writes n)
    (hlive : id < m.tensors.size) (hapart : ∀ w ∈ writes, m.Apart w.1 id) :
    n.contents id = m.contents id := by
  have htensor : n.tensor id = m.tensor id := h.tensors id fun w hw heq => (hapart w hw).1 heq.symm
  cases hhome : m.home id with
  | own length => exact contents_eq_of_home_own hhome htensor
  | host storage =>
    rw [contents_of_home_host hhome, contents_of_home_host ((h.grown.home id hlive).trans hhome)]
    exact h.storages storage fun w hw hhost => (hapart w hw).2 storage hhost hhome

/-- A tensor can still take its bytes when others were written to, if it has nothing in common with
them. -/
theorem Takes.of_written {writes : List (TensorId × Bytes)} {bytes : Bytes}
    (h : m.Takes id bytes) (hw : m.Written writes n) (hapart : ∀ w ∈ writes, m.Apart w.1 id) :
    n.Takes id bytes where
  live := Nat.lt_of_lt_of_le h.live hw.grown.tensors
  length := by rw [hw.contents_of_apart h.live hapart, h.length]
  bound storage hhome :=
    Nat.lt_of_lt_of_le (h.bound storage ((hw.grown.home id h.live).symm.trans hhome))
      hw.grown.storages

/-- Tensors that have nothing in common have nothing in common later. -/
theorem Apart.of_extends {i j : TensorId} (h : m.Apart i j) (hmn : m.Extends n)
    (hi : i < m.tensors.size) (hj : j < m.tensors.size) : n.Apart i j :=
  ⟨h.1, fun storage => by
    rw [hmn.home i hi, hmn.home j hj]
    exact h.2 storage⟩

theorem Apart.symm {i j : TensorId} (h : m.Apart i j) : m.Apart j i :=
  ⟨h.1.symm, fun storage hj hi => h.2 storage hi hj⟩

/-- **One write**, after which the tensor may be flagged. -/
theorem written_setContents {bytes : Bytes} (h : m.Takes id bytes) (stale : Bool) :
    m.Written [(id, bytes)] ((m.setContents id bytes).setStale id stale) where
  grown := (m.extends_setContents id h.length.symm).trans (extends_setStale _ id stale)
  size := size_storages_setContents m id bytes
  count := (size_tensors_setStale _ id stale).trans (size_tensors_setContents m id bytes)
  contents w hw := by
    obtain rfl := List.mem_singleton.1 hw
    rw [contents_setStale]
    cases hhome : m.home id with
    | own length => exact contents_setContents_of_home_own hhome h.live bytes
    | host storage =>
      have hhome' := (home_setContents m id h.length.symm id).trans hhome
      rw [contents_of_home_host hhome', setContents_of_home_host hhome,
        storage_setStorage _ _ _ _ (h.bound storage hhome), if_pos rfl]
  storages storage hne := by
    have hne' := hne _ List.mem_cons_self
    change (m.setContents id bytes).storage storage = _
    cases hhome : m.home id with
    | own length =>
      unfold Memory.storage
      rw [storages_setContents_of_home_own hhome]
    | host storage' =>
      rw [setContents_of_home_host hhome, storage_setStorage_of_ne]
      rintro rfl
      exact hne' hhome
  tensors j hj := by
    have hne := hj _ List.mem_cons_self
    rw [tensor_setStale_of_ne _ stale hne, tensor_setContents_of_ne m bytes hne]

/-- **A write, and then others** to tensors that have nothing in common with it. -/
theorem Written.cons {k : Memory} {w : TensorId × Bytes} {writes : List (TensorId × Bytes)}
    (h : m.Written [w] n) (h' : n.Written writes k) (hlive : w.1 < m.tensors.size)
    (hlives : ∀ v ∈ writes, v.1 < m.tensors.size)
    (hapart : ∀ v ∈ writes, m.Apart v.1 w.1) : m.Written (w :: writes) k where
  grown := h.grown.trans h'.grown
  size := h'.size.trans h.size
  count := h'.count.trans h.count
  contents v hv := by
    rcases List.mem_cons.1 hv with rfl | hv
    · refine (h'.contents_of_apart (Nat.lt_of_lt_of_le hlive h.grown.tensors) fun x hx => ?_).trans
        (h.contents v List.mem_cons_self)
      exact (hapart x hx).of_extends h.grown (hlives x hx) hlive
    · exact h'.contents v hv
  storages storage hne := by
    refine (h'.storages storage fun v hv => ?_).trans (h.storages storage fun v hv => ?_)
    · rw [h.grown.home v.1 (hlives v hv)]
      exact hne v (List.mem_cons_of_mem _ hv)
    · obtain rfl := List.mem_singleton.1 hv
      exact hne v List.mem_cons_self
  tensors j hj := by
    refine (h'.tensors j fun v hv => hj v (List.mem_cons_of_mem _ hv)).trans
      (h.tensors j fun v hv => ?_)
    obtain rfl := List.mem_singleton.1 hv
    exact hj v List.mem_cons_self

/-! ### Writing something to some tensors -/

/-- Something has been written to some tensors, and nothing to any other. -/
structure Rewritten (m : Memory) (ids : List (Option TensorId)) (n : Memory) : Prop where
  /-- Memory has only grown. -/
  grown : m.Extends n
  /-- Every tensor is at home. -/
  home : ∀ j, n.home j = m.home j
  /-- There are as many storages. -/
  size : n.storages.size = m.storages.size
  /-- Storages that none of them is bound to are as they were. -/
  storages : ∀ storage, (∀ id, some id ∈ ids → m.home id ≠ .host storage) →
    n.storage storage = m.storage storage
  /-- Other tensors are as they were. -/
  tensors : ∀ j, some j ∉ ids → n.tensor j = m.tensor j

theorem Rewritten.refl (m : Memory) (ids : List (Option TensorId)) : m.Rewritten ids m :=
  ⟨.refl m, fun _ => rfl, rfl, fun _ _ => rfl, fun _ _ => rfl⟩

/-- What is written twice to some tensors is written to some tensors. -/
theorem Rewritten.trans {k : Memory} {ids : List (Option TensorId)} (h : m.Rewritten ids n)
    (h' : n.Rewritten ids k) : m.Rewritten ids k where
  grown := h.grown.trans h'.grown
  home j := (h'.home j).trans (h.home j)
  size := h'.size.trans h.size
  storages storage hne := (h'.storages storage fun id hid => by
    rw [h.home]
    exact hne id hid).trans (h.storages storage hne)
  tensors j hj := (h'.tensors j hj).trans (h.tensors j hj)

/-- So it is if more tensors are named. -/
theorem Rewritten.mono {ids ids' : List (Option TensorId)} (h : m.Rewritten ids n)
    (hsub : ∀ id, some id ∈ ids → some id ∈ ids') : m.Rewritten ids' n :=
  { h with
    storages := fun storage hne => h.storages storage fun id hid => hne id (hsub id hid)
    tensors := fun j hj => h.tensors j fun hmem => hj (hsub j hmem) }

/-- Bytes of the same number are written to one tensor. -/
theorem rewritten_setContents (m : Memory) (id : TensorId) {bytes : Bytes}
    (hlen : bytes.length = (m.contents id).length) :
    m.Rewritten [some id] (m.setContents id bytes) where
  grown := m.extends_setContents id hlen
  home := home_setContents m id hlen
  size := size_storages_setContents m id bytes
  storages storage hne := by
    cases hhome : m.home id with
    | own length =>
      unfold Memory.storage
      rw [storages_setContents_of_home_own hhome]
    | host storage' =>
      rw [setContents_of_home_host hhome, storage_setStorage_of_ne]
      rintro rfl
      exact hne id List.mem_cons_self hhome
  tensors j hj := tensor_setContents_of_ne m bytes fun heq => hj (heq ▸ List.mem_cons_self)

theorem rewritten_setStale (m : Memory) (id : TensorId) (stale : Bool) :
    m.Rewritten [some id] (m.setStale id stale) where
  grown := m.extends_setStale id stale
  home j := by unfold Memory.home; rw [residence_setStale]
  size := rfl
  storages _ _ := rfl
  tensors j hj := tensor_setStale_of_ne m stale fun heq => hj (heq ▸ List.mem_cons_self)

end Memory

end TensorJit
