import TensorJit.Proofs.Call
import TensorJit.Proofs.Executor.Slots
import TensorJit.Proofs.Freshness

/-!
# From the inputs of a call to its output buffers

The output buffers of a call are made ready (`OutputBuffers.Refitted`), the executable is
called, and on a backend with storage of its own the results are read back. Output buffers are
**separate**: no two of them share a storage. So each result ends up in its own buffer and
nothing else is overwritten (`Answered`).
-/

namespace TensorJit

open ExecState (OnlyMemory)

/-! ### Output buffers -/

/-- The storages of the output buffers exist, and no two buffers share one. -/
structure OutputBuffers.Separate (o : OutputBuffers) (m : Memory) : Prop where
  /-- The storages exist. -/
  live : ∀ b ∈ o.buffers, b.storage < m.storages.size
  /-- No two buffers share one. -/
  apart : (o.buffers.map (·.storage)).Nodup

namespace OutputBuffers

theorem separate_empty (m : Memory) : empty.Separate m := ⟨nofun, List.nodup_nil⟩

theorem Separate.of_extends {o : OutputBuffers} {m n : Memory} (h : o.Separate m)
    (hmn : m.Extends n) : o.Separate n :=
  ⟨fun b hb => Nat.lt_of_lt_of_le (h.live b hb) hmn.storages, h.apart⟩

theorem Separate.eq_of_storage_eq {o : OutputBuffers} {m : Memory} (h : o.Separate m)
    {p q : Nat} {b c : HostBuffer} (hb : o.buffers[p]? = some b) (hc : o.buffers[q]? = some c)
    (hstorage : b.storage = c.storage) : p = q := by
  have hlt : p < (o.buffers.map (·.storage)).length := by
    rw [List.length_map]
    exact (List.getElem?_eq_some_iff.1 hb).1
  refine (List.getElem?_inj hlt h.apart).1 ?_
  rw [List.getElem?_map, List.getElem?_map, hb, hc, Option.map_some, Option.map_some, hstorage]

/-- What making output buffers ready for results does. -/
structure Refitted (buffers : List HostBuffer) (specs : List TensorSpec) (m : Memory)
    (buffers' : List HostBuffer) (m' : Memory) : Prop where
  /-- There is a buffer for each result, with its spec. -/
  specs_eq : buffers'.map (·.spec) = specs
  /-- No tensor is touched. -/
  tensors : m'.tensors = m.tensors
  /-- No storage is taken away. -/
  size : m.storages.size ≤ m'.storages.size
  /-- Storages that there were are as they were. -/
  storages : ∀ storage, storage < m.storages.size → m'.storage storage = m.storage storage
  /-- A buffer is one that there was, or has a new storage of the right length. -/
  origin : ∀ b ∈ buffers', b ∈ buffers ∨ m.storages.size ≤ b.storage ∧
    b.storage < m'.storages.size ∧ (m'.read b).WellSized
  /-- Buffers that were separate are separate. -/
  separate : (∀ b ∈ buffers, b.storage < m.storages.size) → (buffers.map (·.storage)).Nodup →
    (buffers'.map (·.storage)).Nodup

variable {m m' : Memory} {buffers rest out : List HostBuffer} {specs : List TensorSpec}
  {spec : TensorSpec}

/-- The first buffer has the spec already. -/
theorem Refitted.kept {b : HostBuffer} (h : Refitted rest specs m out m') :
    Refitted (b :: rest) (b.spec :: specs) m (b :: out) m' where
  specs_eq := congrArg _ h.specs_eq
  tensors := h.tensors
  size := h.size
  storages := h.storages
  origin c hc := by
    rcases List.mem_cons.1 hc with rfl | hc
    · exact .inl List.mem_cons_self
    · exact (h.origin c hc).imp_left (List.mem_cons_of_mem _)
  separate hlive hnodup := by
    obtain ⟨hnotMem, hnodup⟩ := List.nodup_cons.1 hnodup
    refine List.nodup_cons.2 ⟨fun hmem => ?_, h.separate
      (fun c hc => hlive c (List.mem_cons_of_mem _ hc)) hnodup⟩
    obtain ⟨c, hc, hstorage⟩ := List.mem_map.1 hmem
    change c.storage = b.storage at hstorage
    rcases h.origin c hc with hold | ⟨hge, -⟩
    · exact hnotMem (List.mem_map.2 ⟨c, hold, hstorage⟩)
    · rw [hstorage] at hge
      exact Nat.not_le_of_lt (hlive b List.mem_cons_self) hge

/-- The first buffer is replaced. -/
theorem Refitted.replaced (h : Refitted buffers.tail specs (m.allocate (.zeros spec)).2 out m') :
    Refitted buffers (spec :: specs) m (⟨spec, m.storages.size⟩ :: out) m' := by
  have hsize : (m.allocate (.zeros spec)).2.storages.size = m.storages.size + 1 :=
    Memory.size_storages_allocate m _
  have hle := h.size
  rw [hsize] at hle
  have htail : ∀ c ∈ buffers.tail, c ∈ buffers := fun c => List.mem_of_mem_tail
  -- No later buffer is in the storage that has just been made.
  have hother : ∀ c ∈ out, (∀ b ∈ buffers, b.storage < m.storages.size) →
      c.storage ≠ m.storages.size := fun c hc hlive => by
    rcases h.origin c hc with hold | ⟨hge, -⟩
    · exact Nat.ne_of_lt (hlive c (htail c hold))
    · rw [hsize] at hge
      exact Nat.ne_of_gt hge
  refine ⟨congrArg _ h.specs_eq, h.tensors, Nat.le_of_succ_le hle, fun storage hlt => ?_,
    fun c hc => ?_, fun hlive hnodup => ?_⟩
  · exact (h.storages storage (by omega)).trans (m.storage_allocate_of_lt _ hlt)
  · rcases List.mem_cons.1 hc with rfl | hc
    · refine .inr ⟨Nat.le_refl _, hle, ?_⟩
      unfold Memory.read Tensor.WellSized
      dsimp only
      rw [h.storages m.storages.size (by omega), m.storage_allocate_size]
      exact Tensor.wellSized_zeros spec
    · rcases h.origin c hc with hold | ⟨hge, hlt, hsized⟩
      · exact .inl (htail c hold)
      · exact .inr ⟨by omega, hlt, hsized⟩
  · refine List.nodup_cons.2 ⟨fun hmem => ?_, h.separate (fun c hc => ?_) ?_⟩
    · obtain ⟨c, hc, hstorage⟩ := List.mem_map.1 hmem
      exact hother c hc hlive hstorage
    · rw [hsize]
      exact Nat.lt_succ_of_lt (hlive c (htail c hc))
    · rw [List.map_tail]
      exact hnodup.sublist (List.tail_sublist _)

/-- **Making output buffers ready**, by induction on the results there are buffers for. -/
theorem refitted (buffers : List HostBuffer) (specs : List TensorSpec) (m : Memory) :
    Refitted buffers specs m (refit buffers specs m).1.1 (refit buffers specs m).2 := by
  induction specs generalizing buffers m with
  | nil =>
    unfold refit
    exact ⟨rfl, rfl, Nat.le_refl _, fun _ _ => rfl, List.forall_mem_nil _,
      fun _ _ => List.nodup_nil⟩
  | cons spec specs ih =>
    unfold refit
    cases hkept : buffers.head?.filter (·.spec = spec) with
    | some b =>
      obtain ⟨hhead, hspec⟩ := Option.filter_eq_some_iff.1 hkept
      obtain ⟨rest, rfl⟩ : ∃ rest, buffers = b :: rest := List.head?_eq_some_iff.1 hhead
      obtain rfl : b.spec = spec := of_decide_eq_true hspec
      exact (ih rest m).kept
    | none => exact (ih buffers.tail (m.allocate (.zeros spec)).2).replaced

end OutputBuffers

/-! ### Tensors for the results -/

/-- Each output tensor fits the buffer of its position, and no two positions have the same. -/
structure Offered (κ : BackendKind) (m : Memory) (buffers : List HostBuffer)
    (tensors : List (Option TensorId)) : Prop where
  /-- It fits. -/
  fits : ∀ (p : Nat) (id : TensorId), tensors[p]? = some (some id) →
    ∃ b : HostBuffer, buffers[p]? = some b ∧ Slot.Fits κ m b.spec ⟨b.storage, id⟩
  /-- Two positions have two tensors. -/
  apart : ∀ (p q : Nat) (id : TensorId), tensors[p]? = some (some id) →
    tensors[q]? = some (some id) → p = q

namespace Offered

variable {κ : BackendKind} {m : Memory} {o : OutputBuffers} {tensors : List (Option TensorId)}

/-- An output tensor has as many bytes as its spec says. -/
theorem length_contents (h : Offered κ m o.buffers tensors)
    (hsized : ∀ b ∈ o.buffers, (m.read b).WellSized) {p : Nat} {id : TensorId}
    (hid : tensors[p]? = some (some id)) :
    (m.contents id).length = (m.tensor id).spec.byteLength := by
  obtain ⟨b, hb, hfits⟩ := h.fits p id hid
  have hhome := hfits.home
  unfold homeFor at hhome
  rw [hfits.spec_eq]
  split at hhome
  · rw [Memory.contents_of_home_host hhome]
    exact hsized b (List.mem_of_getElem? hb)
  · exact Memory.length_contents_of_home_own hhome

/-- **Tensors that are offered for separate buffers of the right length are ready.** -/
theorem ready (h : Offered κ m o.buffers tensors) (hseparate : o.Separate m)
    (hsized : ∀ b ∈ o.buffers, (m.read b).WellSized) :
    Backend.Ready m tensors (o.buffers.map (·.spec)) where
  takes p id hid := by
    obtain ⟨b, hb, hfits⟩ := h.fits p id hid
    refine ⟨?_, fun bytes hbytes => ⟨hfits.live, ?_, fun storage hhome => ?_⟩⟩
    · rw [List.getElem?_map, hb, Option.map_some]
      exact congrArg some hfits.spec_eq.symm
    · rw [hbytes, h.length_contents hsized hid]
    · rw [hfits.home] at hhome
      unfold homeFor at hhome
      split at hhome
      · obtain rfl := Home.host.inj hhome
        exact hseparate.live b (List.mem_of_getElem? hb)
      · cases hhome
  apart p q i j hpq hi hj := by
    obtain ⟨b, hb, hbfits⟩ := h.fits p i hi
    obtain ⟨c, hc, hcfits⟩ := h.fits q j hj
    refine ⟨fun heq => hpq (h.apart p q i hi (heq ▸ hj)), fun storage hihome hjhome => hpq ?_⟩
    rw [hbfits.home] at hihome
    rw [hcfits.home] at hjhome
    unfold homeFor at hihome hjhome
    split at hihome
    · rename_i hbound
      rw [if_pos hbound] at hjhome
      exact hseparate.eq_of_storage_eq hb hc
        ((Home.host.inj hihome).trans (Home.host.inj hjhome).symm)
    · cases hihome

end Offered

/-- The output buffers of a call may have been written to, and its output tensors, and nothing
else. -/
structure Affected (s : ExecState) (ids : List (Option TensorId)) (t : ExecState) : Prop where
  /-- Only memory has changed. -/
  only : s.OnlyMemory t.memory t
  /-- There are as many storages. -/
  size : t.memory.storages.size = s.memory.storages.size
  /-- Every other storage is as it was. -/
  storages : ∀ storage, (∀ (p : Nat) (id : TensorId) (b : HostBuffer),
    ids[p]? = some (some id) → s.outputs.buffers[p]? = some b → b.storage ≠ storage) →
    t.memory.storage storage = s.memory.storage storage
  /-- Every other tensor is as it was. -/
  others : ∀ j, some j ∉ ids → t.memory.tensor j = s.memory.tensor j

/-- The results have been written to the output buffers of a call. -/
structure Answered (s : ExecState) (ids : List (Option TensorId))
    (results : List (Value UInt32)) (t : ExecState) : Prop extends Affected s ids t where
  /-- A buffer whose position has a tensor holds the bytes of its result. -/
  results : ∀ (p : Nat) (id : TensorId) (b : HostBuffer) (v : Value UInt32),
    ids[p]? = some (some id) → s.outputs.buffers[p]? = some b → results[p]? = some v →
    t.memory.storage b.storage = Tensor.bytesOfWords v.data

namespace ExecM

variable {s : ExecState} {f : Function} {ins outs : List (Option TensorId)}

/-- An executable has been called, whether or not that went well. -/
structure Called (s : ExecState) (tensors : List (Option TensorId)) (t : ExecState) : Prop where
  /-- Only memory has changed. -/
  only : s.OnlyMemory t.memory t
  /-- It has changed in the output tensors of the call. -/
  rewritten : s.memory.Rewritten tensors t.memory

/-- The results have been stored in the tensors of a call. -/
structure Stored (s : ExecState) (tensors : List (Option TensorId))
    (results : List (Value UInt32)) (t : ExecState) : Prop extends Called s tensors t where
  /-- A tensor holds the bytes of its result. -/
  contents : ∀ (p : Nat) (id : TensorId) (v : Value UInt32), tensors[p]? = some (some id) →
    results[p]? = some v → t.memory.contents id = Tensor.bytesOfWords v.data

/-- **Calling an executable**, whatever its function. -/
theorem called_callExecutable (x : Executable) (outs ins : List (Option TensorId)) :
    Ends (callExecutable x outs ins s) (fun _ t => Called s outs t) fun _ t => Called s outs t := by
  unfold callExecutable
  rw [ends_bind, ends_executor, ends_onBackend]
  exact ((Backend.rewritten_call x outs ins s.device).and
    (Backend.keeps_call x outs ins s.device)).mono
    (fun _ d hd => ⟨ExecState.onlyMemory_withDevice hd.2.toLater, hd.1⟩)
    fun _ d hd => ⟨ExecState.onlyMemory_withDevice hd.2.toLater, hd.1⟩

/-- **Calling the executable** of a typed function. -/
theorem ends_callExecutable (htyped : f.Typed) (hins : Backend.Supplied f s.memory ins)
    (houts : Backend.Ready s.memory outs f.results) :
    Ends (callExecutable ⟨f⟩ outs ins s)
      (fun _ t => ∃ results, f.evaluate .binary32
          (Backend.parametersOf s.kind s.memory f.parameters ins) = .ok results ∧
        results.map (·.spec) = f.results ∧ (∀ v ∈ results, v.Sized) ∧ Stored s outs results t)
      fun _ t => (∃ fault, f.evaluate .binary32
          (Backend.parametersOf s.kind s.memory f.parameters ins) = .error fault) ∧
        s.OnlyMemory s.memory t := by
  have hends : Ends (callExecutable ⟨f⟩ outs ins s)
      (fun _ t => ∃ results, f.evaluate .binary32
          (Backend.parametersOf s.kind s.memory f.parameters ins) = .ok results ∧
        results.map (·.spec) = f.results ∧ (∀ v ∈ results, v.Sized) ∧
        s.memory.Written (Backend.writesOf outs results) t.memory)
      fun _ t => (∃ fault, f.evaluate .binary32
          (Backend.parametersOf s.kind s.memory f.parameters ins) = .error fault) ∧
        t.memory = s.memory := by
    unfold callExecutable
    rw [ends_bind, ends_executor, ends_onBackend]
    exact (Backend.ends_call htyped hins houts).mono (fun _ _ h => h) fun _ _ h => h
  refine (hends.and (called_callExecutable _ _ _)).mono (fun _ t ht => ?_) fun _ t ht => ?_
  · obtain ⟨⟨results, heval, hspecs, hsized, hwritten⟩, hcalled⟩ := ht
    refine ⟨results, heval, hspecs, hsized, hcalled, fun p id v hid hv => ?_⟩
    exact hwritten.contents (id, Tensor.bytesOfWords v.data)
      (Backend.mem_writesOf.2 ⟨p, v, hid, hv, rfl⟩)
  · obtain ⟨⟨hfault, hmemory⟩, hcalled⟩ := ht
    exact ⟨hfault, { hcalled.only with memory := hmemory }⟩

/-- On a backend with storage of its own, no storage of the host is touched. -/
theorem Called.storages_of_own {t : ExecState} (h : Called s outs t)
    (hoffered : Offered s.kind s.memory s.outputs.buffers outs)
    (hown : s.kind.isHostBound = false) (storage : StorageId) :
    t.memory.storage storage = s.memory.storage storage := by
  refine h.rewritten.storages storage fun id hid hhome => ?_
  obtain ⟨p, hp⟩ := List.getElem?_of_mem hid
  obtain ⟨b, hb, hfits⟩ := hoffered.fits p id hp
  rw [hfits.home] at hhome
  unfold homeFor at hhome
  rw [if_neg (by rw [hown]; exact Bool.false_ne_true)] at hhome
  cases hhome

/-- On a backend that keeps tensors in host buffers, only those of the results are touched. -/
theorem Called.affected {t : ExecState} (h : Called s outs t)
    (hoffered : Offered s.kind s.memory s.outputs.buffers outs)
    (hbound : s.kind.isHostBound = true) : Affected s outs t where
  only := h.only
  size := h.rewritten.size
  storages storage hne := by
    refine h.rewritten.storages storage fun id hid hhome => ?_
    obtain ⟨p, hp⟩ := List.getElem?_of_mem hid
    obtain ⟨b, hb, hfits⟩ := hoffered.fits p id hp
    refine hne p id b hp hb ?_
    rw [hfits.home] at hhome
    unfold homeFor at hhome
    rw [if_pos hbound] at hhome
    exact Home.host.inj hhome
  others := h.rewritten.tensors

/-- On a backend that keeps tensors in host buffers, the results are in the buffers already. -/
theorem Stored.answered {results : List (Value UInt32)} {t : ExecState}
    (h : Stored s outs results t) (hoffered : Offered s.kind s.memory s.outputs.buffers outs)
    (hbound : s.kind.isHostBound = true) : Answered s outs results t :=
  { h.toCalled.affected hoffered hbound with
    results := fun p id b v hid hb hv => by
      obtain ⟨c, hc, hfits⟩ := hoffered.fits p id hid
      cases hb.symm.trans hc
      have hhome := hfits.home
      unfold homeFor at hhome
      rw [if_pos hbound] at hhome
      rw [← Memory.contents_of_home_host ((h.rewritten.home id).trans hhome)]
      exact h.contents p id v hid hv }

/-! ### Reading back -/

/-- The first output buffers hold what the tensors of their positions hold. -/
structure ReadBack (s : ExecState) (ids : List (Option TensorId)) (count : Nat)
    (t : ExecState) : Prop where
  /-- Only memory has changed. -/
  only : s.OnlyMemory t.memory t
  /-- No tensor is touched. -/
  tensors : t.memory.tensors = s.memory.tensors
  /-- There are as many storages. -/
  size : t.memory.storages.size = s.memory.storages.size
  /-- They are as long as they were. -/
  length : ∀ storage, (t.memory.storage storage).length = (s.memory.storage storage).length
  /-- The buffers hold what the tensors hold. -/
  read : ∀ (p : Nat) (id : TensorId) (b : HostBuffer), p < count →
    ids[p]? = some (some id) → s.outputs.buffers[p]? = some b →
    t.memory.storage b.storage = s.memory.contents id
  /-- Every other storage is as it was. -/
  storages : ∀ storage, (∀ (p : Nat) (id : TensorId) (b : HostBuffer),
    ids[p]? = some (some id) → s.outputs.buffers[p]? = some b → b.storage ≠ storage) →
    t.memory.storage storage = s.memory.storage storage

/-- **A storage is filled** with the contents of a tensor of the same length. -/
theorem ends_readOutput (position : Nat) {tensor : TensorId} {host : HostBuffer}
    (hlen : (s.memory.storage host.storage).length = (s.memory.contents tensor).length) :
    Ends (readOutput position tensor host s)
      (fun _ t => s.OnlyMemory
        (s.memory.setStorage host.storage (s.memory.contents tensor)) t) fun _ _ => False := by
  have hread : Ends (Backend.read tensor (s.memory.storage host.storage).length 0 s.device)
      (fun bytes d => bytes = s.memory.contents tensor ∧ d.memory = s.memory)
      fun _ _ => False := by
    have hslice : (s.device.memory.contents tensor).slice? 0
        (s.memory.storage host.storage).length = some (s.memory.contents tensor) := by
      rw [ExecState.device_memory, hlen]
      unfold Bytes.slice?
      rw [if_pos (Nat.le_of_eq (Nat.zero_add _)), List.drop_zero, List.take_length]
    unfold Backend.read
    rw [ends_bind, ends_get, hslice]
    exact ⟨rfl, rfl⟩
  unfold readOutput
  rw [ends_bind, ends_platform, ends_bind, ends_onBackend]
  refine (hread.and (Backend.keeps_read _ _ _ s.device)).mono (fun bytes d hd => ?_)
    fun _ _ h => h.1.elim
  obtain ⟨⟨rfl, hmemory⟩, hlater⟩ := hd
  rw [ends_changePlatform]
  have honly := ExecState.onlyMemory_withDevice hlater.toLater
  refine ⟨honly.later.trans { ExecState.Later.refl _ with
    platform := (Platform.calm_setBytes _ _ _).toLater }, rfl, rfl, ?_, rfl, rfl⟩
  change d.memory.setStorage _ _ = _
  rw [hmemory]

/-- **Reading the results back** into separate buffers of the right length. -/
theorem ends_readOutputs (hoffered : Offered s.kind s.memory s.outputs.buffers outs)
    (hown : s.kind.isHostBound = false) (hseparate : s.outputs.Separate s.memory)
    (hsized : ∀ b ∈ s.outputs.buffers, (s.memory.read b).WellSized) :
    Ends (readOutputs outs s)
      (fun _ t => ReadBack s outs (outs.zip s.outputs.buffers).length t) fun _ _ => False := by
  unfold readOutputs
  rw [ends_bind, ends_get]
  -- The invariant: every buffer before the position has been read back, and no tensor has changed.
  refine ends_forM_zipIdx (I := ReadBack s outs) (fun position w t hw ht => ?_)
    ⟨.of_untouched (.refl s), rfl, rfl, fun _ => rfl, fun p _ _ hp => absurd hp (Nat.not_lt_zero p),
      fun _ _ => rfl⟩
  obtain ⟨tensor, host⟩ := w
  obtain ⟨htensor, hhost⟩ := List.getElem?_zip_eq_some.1 hw
  cases tensor with
  | none =>
    refine { ht with read := fun p id b hp hid hb => ?_ }
    rcases Nat.lt_succ_iff_lt_or_eq.1 hp with hlt | rfl
    · exact ht.read p id b hlt hid hb
    · cases htensor.symm.trans hid
  | some tensor =>
    obtain ⟨c, hc, hfits⟩ := hoffered.fits position tensor htensor
    cases hhost.symm.trans hc
    have hhome : s.memory.home tensor = .own host.spec.byteLength := by
      rw [hfits.home]
      unfold homeFor
      rw [if_neg (by rw [hown]; exact Bool.false_ne_true)]
    -- The tensor has memory of its own, so writing to the earlier buffers has not changed it.
    have hcontents : t.memory.contents tensor = s.memory.contents tensor :=
      Memory.contents_eq_of_home_own hhome (by unfold Memory.tensor; rw [ht.tensors])
    have hlen : (t.memory.storage host.storage).length = (t.memory.contents tensor).length := by
      rw [ht.length, hcontents, Memory.length_contents_of_home_own hhome]
      exact hsized host (List.mem_of_getElem? hhost)
    have hlive : host.storage < t.memory.storages.size := by
      rw [ht.size]
      exact hseparate.live host (List.mem_of_getElem? hhost)
    refine (ends_readOutput position hlen).mono (fun _ u hu => ?_) fun _ _ h => h
    have hmemory : u.memory = t.memory.setStorage host.storage (s.memory.contents tensor) := by
      rw [hu.memory, hcontents]
    refine ⟨?_, ?_, ?_, fun storage => ?_, fun p id b hp hid hb => ?_, fun storage hne => ?_⟩
    · exact (ht.only.trans hu).memory.symm ▸ ht.only.trans hu
    · rw [hmemory, Memory.tensors_setStorage, ht.tensors]
    · rw [hmemory, Memory.size_storages_setStorage, ht.size]
    · rw [hmemory, Memory.storage_setStorage _ _ _ _ hlive]
      split
      · rename_i heq
        rw [heq, ← hcontents, ← hlen, ht.length]
      · exact ht.length storage
    · rw [hmemory, Memory.storage_setStorage _ _ _ _ hlive]
      rcases Nat.lt_succ_iff_lt_or_eq.1 hp with hlt | rfl
      · rw [if_neg fun heq => Nat.ne_of_lt hlt (hseparate.eq_of_storage_eq hb hhost heq)]
        exact ht.read p id b hlt hid hb
      · cases hhost.symm.trans hb
        cases htensor.symm.trans hid
        rw [if_pos rfl]
    · rw [hmemory, Memory.storage_setStorage_of_ne _ _
        (Ne.symm (hne position tensor host htensor hhost))]
      exact ht.storages storage hne

/-- On a backend with storage of its own, only the buffers of the results are touched when they
are read back. -/
theorem Called.affected_of_readBack {t u : ExecState} (h : Called s outs t)
    (hoffered : Offered s.kind s.memory s.outputs.buffers outs)
    (hown : s.kind.isHostBound = false) {count : Nat} (hread : ReadBack t outs count u) :
    Affected s outs u where
  only := hread.only.memory.symm ▸ h.only.trans hread.only
  size := hread.size.trans h.rewritten.size
  storages storage hne :=
    (hread.storages storage fun p id b hid hb => hne p id b hid (h.only.outputs ▸ hb)).trans
      (h.storages_of_own hoffered hown storage)
  others j hj := by
    refine Eq.trans ?_ (h.rewritten.tensors j hj)
    unfold Memory.tensor
    rw [hread.tensors]

/-- On a backend with storage of its own, the results are in the buffers when they have been
read back. -/
theorem Stored.readBack {results : List (Value UInt32)} {t u : ExecState}
    (h : Stored s outs results t) (hoffered : Offered s.kind s.memory s.outputs.buffers outs)
    (hown : s.kind.isHostBound = false)
    (hread : ReadBack t outs (outs.zip t.outputs.buffers).length u) :
    Answered s outs results u :=
  { h.toCalled.affected_of_readBack hoffered hown hread with
    results := fun p id b v hid hb hv => by
      have hb' : t.outputs.buffers[p]? = some b := by rw [h.only.outputs, hb]
      have hp : p < (outs.zip t.outputs.buffers).length :=
        (List.getElem?_eq_some_iff.1 (List.getElem?_zip_eq_some.2 ⟨hid, hb'⟩ :
          (outs.zip t.outputs.buffers)[p]? = some (some id, b))).1
      rw [hread.read p id b hp hid hb']
      exact h.contents p id v hid hv }

/-! ### Telling the tracker -/

/-- **Copies of the output buffers are not vouched for any more**, except at positions bound
elsewhere. -/
theorem ends_invalidateOutputs :
    Ends (invalidateOutputs s)
      (fun _ t => s.Later t ∧ t.cache = s.cache ∧ t.outputs = s.outputs ∧ t.memory = s.memory ∧
        t.platform.nextArtifact = s.platform.nextArtifact ∧ ∀ storage j,
        t.platform.isFresh s.executor.tracker storage j = true ↔
          s.platform.isFresh s.executor.tracker storage j = true ∧
            ∀ (p : Nat) (b : HostBuffer), s.outputs.buffers[p]? = some b →
              s.executor.unit.externalOutputs.contains p = false → b.storage ≠ storage)
      fun _ _ => False := by
  unfold invalidateOutputs
  rw [ends_bind, ends_get]
  -- The invariant: what is still vouched for is what was, less the buffers before the position.
  refine (ends_forM_zipIdx (I := fun count t => s.Later t ∧ t.cache = s.cache ∧
    t.outputs = s.outputs ∧ t.memory = s.memory ∧
    t.platform.nextArtifact = s.platform.nextArtifact ∧ ∀ storage j,
      t.platform.isFresh s.executor.tracker storage j = true ↔
        s.platform.isFresh s.executor.tracker storage j = true ∧
          ∀ (p : Nat) (b : HostBuffer), p < count → s.outputs.buffers[p]? = some b →
            s.executor.unit.externalOutputs.contains p = false → b.storage ≠ storage)
    (fun position b t hb ht => ?_) ⟨.refl s, rfl, rfl, rfl, rfl, fun storage j =>
      ⟨fun h => ⟨h, fun p _ hp => absurd hp (Nat.not_lt_zero p)⟩, And.left⟩⟩).mono
    (fun _ t ht => ?_) fun _ _ h => h
  · obtain ⟨hlater, hcache, houtputs, hmemory, hnext, hfresh⟩ := ht
    dsimp only
    cases hexternal : s.executor.unit.externalOutputs.contains position with
    | true =>
      rw [if_pos rfl, ends_pure]
      refine ⟨hlater, hcache, houtputs, hmemory, hnext, fun storage j => ?_⟩
      rw [hfresh]
      refine and_congr_right fun _ => ⟨fun h p c hp hc hin => ?_,
        fun h p c hp hc hin => h p c (Nat.lt_succ_of_lt hp) hc hin⟩
      rcases Nat.lt_succ_iff_lt_or_eq.1 hp with hlt | rfl
      · exact h p c hlt hc hin
      · rw [hexternal] at hin
        cases hin
    | false =>
      rw [if_neg Bool.false_ne_true, ends_changePlatform]
      refine ⟨hlater.trans { ExecState.Later.refl t with
        platform := (Platform.calm_tell _ _ _).toLater }, hcache, houtputs, hmemory, hnext,
        fun storage j => ?_⟩
      change s.executor.tracker.isFresh (s.executor.tracker.update t.platform.registries _)
        storage j = true ↔ _
      rw [Tracker.isFresh_update_invalidate]
      refine (and_congr_left' (hfresh storage j)).trans ?_
      rw [and_assoc]
      refine and_congr_right fun _ => ⟨fun h p c hp hc hin => ?_, fun h => ⟨?_, ?_⟩⟩
      · rcases Nat.lt_succ_iff_lt_or_eq.1 hp with hlt | rfl
        · exact h.1 p c hlt hc hin
        · cases hb.symm.trans hc
          exact Ne.symm h.2
      · exact fun p c hp hc hin => h p c (Nat.lt_succ_of_lt hp) hc hin
      · exact Ne.symm (h position b (Nat.lt_succ_self _) hb hexternal)
  · obtain ⟨hlater, hcache, houtputs, hmemory, hnext, hfresh⟩ := ht
    refine ⟨hlater, hcache, houtputs, hmemory, hnext, fun storage j => ?_⟩
    rw [hfresh]
    exact and_congr_right fun _ => ⟨fun h p c hc hin =>
      h p c (List.getElem?_eq_some_iff.1 hc).1 hc hin, fun h p c _ hc hin => h p c hc hin⟩

end ExecM

end TensorJit
