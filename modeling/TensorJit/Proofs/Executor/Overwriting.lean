import TensorJit.Proofs.Executor.Call
import TensorJit.Proofs.Function.Outline
import TensorJit.Proofs.Overwriting

/-!
# When the parts of a call go through

Nothing is said here of how inputs and outputs fit their positions. Each part of a call asks for
room, and **it goes through exactly if there is room**:

| | goes through exactly if |
|---|---|
| copying an input | the buffer has the bytes that the tensor takes of it, and the tensor has room for them |
| calling the executable | there are results, and the output tensors have room for them |
| reading the results | no output buffer is longer than its tensor |

What is written replaces the beginning of what was there, so the ends of the tensors matter as well:
a tensor that takes fewer bytes than it has keeps the rest.
-/

namespace TensorJit

open ExecState (OnlyMemory)

/-! ### What is copied of a buffer -/

namespace Memory

variable {m n : Memory} {x : TensorId} {host : HostBuffer}

/-- The number of bytes that a tensor takes of a buffer: as many elements as it has, each of the size
that they have in the buffer. -/
def needed (m : Memory) (x : TensorId) (host : HostBuffer) : Nat :=
  (m.tensor x).spec.elements * host.spec.dtype.size

/-- These bytes. -/
def copy (m : Memory) (x : TensorId) (host : HostBuffer) : Bytes :=
  (m.storage host.storage).take (m.needed x host)

/-- A buffer can be copied to a tensor. -/
structure Copies (m : Memory) (x : TensorId) (host : HostBuffer) : Prop where
  /-- The buffer has the bytes. -/
  source : m.needed x host ≤ (m.storage host.storage).length
  /-- The tensor has room for them. -/
  room : m.needed x host ≤ (m.contents x).length

theorem Copies.length_copy (h : m.Copies x host) : (m.copy x host).length = m.needed x host :=
  List.length_take_of_le h.source

theorem Copies.length_le (h : m.Copies x host) : (m.copy x host).length ≤ (m.contents x).length := by
  rw [h.length_copy]
  exact h.room

/-- A buffer has been copied to a tensor, and neither has changed since. -/
structure Holds (m : Memory) (x : TensorId) (host : HostBuffer) : Prop where
  /-- The buffer has the bytes. -/
  source : m.needed x host ≤ (m.storage host.storage).length
  /-- The tensor begins with them. -/
  start : m.copy x host <+: m.contents x

/-- What has been copied can be copied again. -/
theorem Holds.copies (h : m.Holds x host) : m.Copies x host where
  source := h.source
  room := by
    have hlength := h.start.length_le
    rwa [copy, List.length_take_of_le h.source] at hlength

theorem needed_congr (hspec : (n.tensor x).spec = (m.tensor x).spec) :
    n.needed x host = m.needed x host := by
  unfold needed
  rw [hspec]

theorem copy_congr (hspec : (n.tensor x).spec = (m.tensor x).spec)
    (hstorage : n.storage host.storage = m.storage host.storage) :
    n.copy x host = m.copy x host := by
  unfold copy
  rw [needed_congr hspec, hstorage]

theorem Holds.congr (h : m.Holds x host) (hspec : (n.tensor x).spec = (m.tensor x).spec)
    (hstorage : n.storage host.storage = m.storage host.storage)
    (hcontents : n.contents x = m.contents x) : n.Holds x host where
  source := by
    rw [needed_congr hspec, hstorage]
    exact h.source
  start := by
    rw [copy_congr hspec hstorage, hcontents]
    exact h.start

theorem Copies.congr {y : TensorId} (h : m.Copies x host)
    (hspec : (n.tensor y).spec = (m.tensor x).spec)
    (hstorage : n.storage host.storage = m.storage host.storage)
    (hlength : (n.contents y).length = (m.contents x).length) : n.Copies y host := by
  have hneeded : n.needed y host = m.needed x host := by
    unfold needed
    rw [hspec]
  refine ⟨?_, ?_⟩
  · rw [hneeded, hstorage]
    exact h.source
  · rw [hneeded, hlength]
    exact h.room

end Memory

/-! ### What a function has stored -/

namespace Backend

variable {κ : BackendKind} {m n : Memory} {outs : List (Option TensorId)}
  {results : List (Value UInt32)} {p : Nat} {x : TensorId}

/-- The bytes that are stored for a position; none if there is no result for it. -/
def stored (results : List (Value UInt32)) (p : Nat) : Bytes :=
  (results[p]?.map fun v => Tensor.bytesOfWords v.data).getD []

theorem length_stored (results : List (Value UInt32)) (p : Nat) :
    (stored results p).length = ((results.map Value.outline)[p]?.map (·.data.length)).getD 0 * 4 := by
  unfold stored
  rw [List.getElem?_map]
  cases results[p]? with
  | none => exact (Nat.zero_mul 4).symm
  | some v =>
    rw [Option.map_some, Option.map_some, Option.map_some, Option.getD_some, Option.getD_some,
      Tensor.length_bytesOfWords, Value.length_outline]

/-- There is room for what is stored. -/
theorem Rooms.length_stored (h : Rooms κ m outs results) (hx : outs[p]? = some (some x)) :
    (stored results p).length ≤ (m.contents x).length := by
  unfold stored
  cases hv : results[p]? with
  | none => exact Nat.zero_le _
  | some v => exact (h p x v hx hv).length

/-- **When results have been stored**, an output tensor begins with its result and ends as
before. -/
theorem contents_of_writesOver (hwritten : m.Written (writesOver m outs results) n)
    (hdisjoint : m.Disjoint outs) (hx : outs[p]? = some (some x)) :
    n.contents x = (stored results p).onto (m.contents x) := by
  unfold stored
  cases hv : results[p]? with
  | some v => exact hwritten.contents (x, _) (mem_writesOver.2 ⟨p, v, hx, hv, rfl⟩)
  | none =>
    refine hwritten.contents_of_apart (hdisjoint.held p x hx).live fun w hw => ?_
    obtain ⟨q, v, hq, hqv, -⟩ := mem_writesOver.1 hw
    refine hdisjoint.apart q p w.1 x (fun heq => ?_) hq hx
    rw [heq, hv] at hqv
    cases hqv

/-- A tensor that has nothing in common with the output tensors holds what it held. -/
theorem contents_of_apart (hwritten : m.Written (writesOver m outs results) n)
    (hlive : x < m.tensors.size) (hapart : ∀ y, some y ∈ outs → m.Apart y x) :
    n.contents x = m.contents x :=
  hwritten.contents_of_apart hlive fun w hw => by
    obtain ⟨q, -, hq, -⟩ := mem_writesOver.1 hw
    exact hapart w.1 (List.mem_of_getElem? hq)

end Backend

namespace ExecM

variable {s : ExecState} {outs ins : List (Option TensorId)}

/-- **Copying an input** goes through exactly if there are the bytes and there is room for
them. -/
theorem ends_writeOver (position : Nat) (x : TensorId) (host : HostBuffer) :
    Ends (writeInput position x host s)
      (fun _ t => s.memory.Copies x host ∧ s.OnlyMemory (s.memory.setContents x
        ((s.memory.copy x host).onto (s.memory.contents x))) t)
      fun _ t => ¬ s.memory.Copies x host ∧ s.OnlyMemory s.memory t := by
  unfold writeInput
  rw [ends_bind, ends_platform]
  dsimp only
  split
  · rename_i hshort
    rw [ends_bind, ends_fail]
    exact ⟨fun h => Nat.not_lt_of_le h.source hshort, .of_untouched (.refl s)⟩
  rename_i hsource
  replace hsource : s.memory.needed x host ≤ (s.memory.storage host.storage).length :=
    Nat.le_of_not_lt hsource
  have hlength : (s.memory.copy x host).length = s.memory.needed x host :=
    List.length_take_of_le hsource
  -- The write succeeds if there is room for what is copied, on every kind of backend.
  have hwrite : Ends (Backend.write x (s.memory.copy x host) 0 s.device)
      (fun _ d => s.memory.Copies x host ∧ d.memory = s.memory.setContents x
        ((s.memory.copy x host).onto (s.memory.contents x)))
      fun _ d => ¬ s.memory.Copies x host ∧ d.memory = s.memory := by
    unfold Backend.write Backend.overwrite
    rw [ends_bind, ends_bind, ends_get, Memory.overwrite?_zero]
    split
    · rename_i hroom
      exact ⟨⟨hsource, hlength ▸ hroom⟩, rfl⟩
    · rename_i hroom
      have hnot : ¬ s.memory.Copies x host := fun h => hroom h.length_le
      cases hκ : s.device.backend.kind with
      | reference => exact ⟨hnot, rfl⟩
      | recording mode => exact ⟨hnot, rfl⟩
  rw [ends_bind, ends_onBackend]
  refine (hwrite.and (Backend.keeps_write _ _ _ s.device)).mono (fun _ d hd => ?_) fun _ d hd => ?_
  · obtain ⟨⟨hcopies, hmemory⟩, hlater⟩ := hd
    rw [ends_bind, ends_changePlatform, ends_pure]
    have honly := ExecState.onlyMemory_withDevice hlater.toLater
    exact ⟨hcopies, honly.later.trans { ExecState.Later.refl _ with
      platform := Platform.later_cacheEvent _ _ }, rfl, rfl, hmemory, rfl, rfl⟩
  · obtain ⟨⟨hnot, hmemory⟩, hlater⟩ := hd
    exact ⟨hnot, { ExecState.onlyMemory_withDevice hlater.toLater with memory := hmemory }⟩

/-- **Calling an executable** goes through exactly if there are results and room for them. -/
theorem ends_callOver (x : Executable) (h : s.memory.Disjoint outs) :
    Ends (callExecutable x outs ins s)
      (fun _ t => s.OnlyMemory t.memory t ∧ ∃ results,
        Backend.Answers s.kind s.memory x.function outs ins results ∧
        s.memory.Written (Backend.writesOver s.memory outs results) t.memory)
      fun _ t => s.OnlyMemory t.memory t ∧
        (∀ results, ¬ Backend.Answers s.kind s.memory x.function outs ins results) ∧
        ∃ done, (∀ w ∈ done, ∃ results, x.function.evaluate .binary32 (Backend.parametersOf s.kind
            s.memory x.function.parameters ins) = .ok results ∧
            w ∈ Backend.writesOver s.memory outs results) ∧
          s.memory.Written done t.memory := by
  unfold callExecutable
  rw [ends_bind, ends_executor, ends_onBackend]
  exact ((Backend.ends_callOver (d := s.device) x h).and
    (Backend.keeps_call x outs ins s.device)).mono
    (fun _ d hd => ⟨ExecState.onlyMemory_withDevice hd.2.toLater, hd.1⟩)
    fun _ d hd => ⟨ExecState.onlyMemory_withDevice hd.2.toLater, hd.1⟩

/-- **Reading a result** goes through exactly if the buffer is no longer than the tensor. -/
theorem ends_readOver (position : Nat) (x : TensorId) (host : HostBuffer) :
    Ends (readOutput position x host s)
      (fun _ t => (s.memory.storage host.storage).length ≤ (s.memory.contents x).length ∧
        s.OnlyMemory (s.memory.setStorage host.storage
          ((s.memory.contents x).take (s.memory.storage host.storage).length)) t)
      fun _ t => ¬ (s.memory.storage host.storage).length ≤ (s.memory.contents x).length ∧
        s.OnlyMemory s.memory t := by
  unfold readOutput
  rw [ends_bind, ends_platform, ends_bind, ends_onBackend]
  refine ((Backend.ends_readOver x _ s.device).and (Backend.keeps_read _ _ _ s.device)).mono
    (fun bytes d hd => ?_) fun _ d hd => ?_
  · obtain ⟨⟨hlength, rfl, hmemory⟩, hlater⟩ := hd
    have honly := ExecState.onlyMemory_withDevice hlater.toLater
    rw [ends_changePlatform]
    refine ⟨hlength, honly.later.trans { ExecState.Later.refl _ with
      platform := (Platform.calm_setBytes _ _ _).toLater }, rfl, rfl, ?_, rfl, rfl⟩
    change d.memory.setStorage _ _ = _
    rw [hmemory]
    rfl
  · obtain ⟨⟨hnot, hmemory⟩, hlater⟩ := hd
    exact ⟨hnot, { ExecState.onlyMemory_withDevice hlater.toLater with memory := hmemory }⟩

/-- Output tensors up to a position have been read into their buffers, and nothing else has
happened. -/
structure ReadOver (m : Memory) (buffers : List HostBuffer) (outs : List (Option TensorId))
    (count : Nat) (n : Memory) : Prop where
  /-- No tensor is touched. -/
  tensors : n.tensors = m.tensors
  /-- There are as many storages. -/
  size : n.storages.size = m.storages.size
  /-- No buffer is longer than its tensor. -/
  reach : ∀ (p : Nat) (x : TensorId) (b : HostBuffer), p < count → outs[p]? = some (some x) →
    buffers[p]? = some b → (m.storage b.storage).length ≤ (m.contents x).length
  /-- It holds the beginning of what its tensor holds. -/
  read : ∀ (p : Nat) (x : TensorId) (b : HostBuffer), p < count → outs[p]? = some (some x) →
    buffers[p]? = some b →
    n.storage b.storage = (m.contents x).take (m.storage b.storage).length
  /-- Other storages are as they were. -/
  others : ∀ j, (∀ (p : Nat) (x : TensorId) (b : HostBuffer), p < count →
    outs[p]? = some (some x) → buffers[p]? = some b → b.storage ≠ j) → n.storage j = m.storage j

/-- A tensor with storage of its own holds what it held. -/
theorem ReadOver.contents {m n : Memory} {buffers : List HostBuffer} {count : Nat} {x : TensorId}
    {length : Nat} (h : ReadOver m buffers outs count n) (hhome : m.home x = .own length) :
    n.contents x = m.contents x :=
  Memory.contents_eq_of_home_own hhome (by unfold Memory.tensor; rw [h.tensors])

/-- Where there is no tensor, nothing is read. -/
theorem ReadOver.skip {m n : Memory} {buffers : List HostBuffer} {count : Nat}
    (h : ReadOver m buffers outs count n) (hnone : ∀ x, outs[count]? ≠ some (some x)) :
    ReadOver m buffers outs (count + 1) n := by
  have hbefore : ∀ {p : Nat} {x : TensorId}, p < count + 1 → outs[p]? = some (some x) →
      p < count := fun {p x} hp hx => by
    rcases Nat.lt_succ_iff_lt_or_eq.1 hp with hlt | rfl
    · exact hlt
    · exact absurd hx (hnone x)
  exact ⟨h.tensors, h.size, fun p x b hp hx => h.reach p x b (hbefore hp hx) hx,
    fun p x b hp hx => h.read p x b (hbefore hp hx) hx,
    fun j hj => h.others j fun p x b hp => hj p x b (Nat.lt_succ_of_lt hp)⟩

/-- **Reading the results** goes through exactly if no output buffer is longer than its tensor. -/
theorem ends_readAllOver (hsep : s.outputs.Separate s.memory)
    (hown : ∀ (p : Nat) (x : TensorId), outs[p]? = some (some x) →
      ∃ length, s.memory.home x = .own length) :
    Ends (readOutputs outs s)
      (fun _ t => s.OnlyMemory t.memory t ∧ ReadOver s.memory s.outputs.buffers outs
        (outs.zip s.outputs.buffers).length t.memory)
      fun _ t => s.OnlyMemory t.memory t ∧ t.memory.tensors = s.memory.tensors ∧
        ∃ (p : Nat) (x : TensorId) (b : HostBuffer), outs[p]? = some (some x) ∧
          s.outputs.buffers[p]? = some b ∧
          ¬ (s.memory.storage b.storage).length ≤ (s.memory.contents x).length := by
  unfold readOutputs
  rw [ends_bind, ends_get]
  refine ends_forM_zipIdx (I := fun count t => s.OnlyMemory t.memory t ∧
    ReadOver s.memory s.outputs.buffers outs count t.memory) (fun position w t hw ht => ?_)
    ⟨.of_untouched (.refl s), rfl, rfl, fun _ _ _ hp => absurd hp (Nat.not_lt_zero _),
      fun _ _ _ hp => absurd hp (Nat.not_lt_zero _), fun _ _ => rfl⟩
  obtain ⟨tensor, host⟩ := w
  obtain ⟨htensor, hhost⟩ := List.getElem?_zip_eq_some.1 hw
  obtain ⟨honly, ht⟩ := ht
  cases tensor with
  | none => exact ⟨honly, ht.skip fun x hx => by cases htensor.symm.trans hx⟩
  | some x =>
    obtain ⟨length, hhome⟩ := hown position x htensor
    have hcontents : t.memory.contents x = s.memory.contents x := ht.contents hhome
    have hlive : host.storage < t.memory.storages.size := by
      rw [ht.size]
      exact hsep.live host (List.mem_of_getElem? hhost)
    -- Positions before this one have other buffers.
    have hapart : ∀ (p : Nat) (b : HostBuffer), p < position → s.outputs.buffers[p]? = some b →
        b.storage ≠ host.storage := fun p b hp hb heq =>
      Nat.ne_of_lt hp (hsep.eq_of_storage_eq hb hhost heq)
    have hstorage : t.memory.storage host.storage = s.memory.storage host.storage :=
      ht.others host.storage fun p _ b hp _ hb => hapart p b hp hb
    refine (ends_readOver position x host).mono (fun _ u hu => ?_) fun _ u hu => ?_
    · rw [hcontents, hstorage] at hu
      obtain ⟨hreach, hu⟩ := hu
      have hmemory := hu.memory
      refine ⟨hmemory.symm ▸ honly.trans hu, ?_, ?_, fun p y b hp hy hb => ?_,
        fun p y b hp hy hb => ?_, fun j hj => ?_⟩
      · rw [hmemory, Memory.tensors_setStorage, ht.tensors]
      · rw [hmemory, Memory.size_storages_setStorage, ht.size]
      · rcases Nat.lt_succ_iff_lt_or_eq.1 hp with hlt | rfl
        · exact ht.reach p y b hlt hy hb
        · cases htensor.symm.trans hy
          cases hhost.symm.trans hb
          exact hreach
      · rw [hmemory, Memory.storage_setStorage _ _ _ _ hlive]
        rcases Nat.lt_succ_iff_lt_or_eq.1 hp with hlt | rfl
        · rw [if_neg (hapart p b hlt hb)]
          exact ht.read p y b hlt hy hb
        · cases htensor.symm.trans hy
          cases hhost.symm.trans hb
          rw [if_pos rfl]
      · rw [hmemory, Memory.storage_setStorage_of_ne _ _
          (Ne.symm (hj position x host (Nat.lt_succ_self _) htensor hhost))]
        exact ht.others j fun p y b hp => hj p y b (Nat.lt_succ_of_lt hp)
    · rw [hcontents, hstorage] at hu
      obtain ⟨hnot, hu⟩ := hu
      exact ⟨hu.memory.symm ▸ honly.trans hu, by rw [hu.memory, ht.tensors], position, x, host,
        htensor, hhost, hnot⟩

end ExecM

end TensorJit
