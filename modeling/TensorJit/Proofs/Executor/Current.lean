import TensorJit.Proofs.Executor.Homes
import TensorJit.Proofs.Executor.Overwriting

/-!
# Inputs that need no copy

Serving a position from its slot takes nothing for granted of how buffers fit: the slot has a tensor
for the buffer afterwards, and all other places are as they were (`Placed`), whether or not the
call gets any further. An input has been served when **its tensor needs no copy of the buffer any
more** (`ExecState.Current`): it is bound to the buffer, or the tracker vouches for the copy, or the
buffer has just been copied. What comes later in the same call leaves it so.
-/

namespace TensorJit

open ExecState (Within OnlyMemory Spares)

/-- What a tensor has copied of a buffer it holds. -/
theorem Memory.Copies.holds {m : Memory} {x : TensorId} {host : HostBuffer} {length : Nat}
    (h : m.Copies x host) (hlive : x < m.tensors.size) (hhome : m.home x = .own length) :
    (m.setContents x ((m.copy x host).onto (m.contents x))).Holds x host := by
  have hspec := m.spec_setContents x ((m.copy x host).onto (m.contents x)) x
  have hstorage : (m.setContents x ((m.copy x host).onto (m.contents x))).storage host.storage =
      m.storage host.storage := by
    unfold storage
    rw [storages_setContents_of_home_own hhome]
  refine ⟨?_, ?_⟩
  · rw [needed_congr hspec, hstorage]
    exact h.source
  · rw [copy_congr hspec hstorage, contents_setContents_of_home_own hhome hlive]
    exact Bytes.prefix_onto _ _

namespace ExecState

variable {s t u : ExecState} {id : ArtifactId} {x : TensorId} {host : HostBuffer}

/-- The tracker of the executor still vouches for all copies that it vouched for. -/
def Remembers (s t : ExecState) : Prop := ∀ storage j,
  s.platform.isFresh s.executor.tracker storage j = true →
    t.platform.isFresh s.executor.tracker storage j = true

theorem Remembers.of_eq (h : t.platform.registries = s.platform.registries) : s.Remembers t :=
  fun storage j hfresh => by
    unfold Platform.isFresh
    rw [h]
    exact hfresh

theorem Remembers.trans (h : s.Remembers t) (hlater : s.Later t) (h' : t.Remembers u) : s.Remembers u :=
  fun storage j hfresh => by
    have hnext := h' storage j
    rw [hlater.tracker] at hnext
    exact hnext (h storage j hfresh)

/-- It is told of a copy. -/
theorem Remembers.mark {storage : StorageId} (h : t.platform.registries =
    s.executor.tracker.update s.platform.registries (·.mark storage id)) : s.Remembers t :=
  fun _ _ hfresh => by
    unfold Platform.isFresh
    rw [h]
    exact (Tracker.isFresh_update_mark _ _).2 (.inl hfresh)

/-- The tensor of an input needs no copy of its buffer: it is bound to the buffer, or the tracker
vouches for the copy, or the buffer has been copied and has not changed since. -/
def Current (s : ExecState) (id : ArtifactId) (x : TensorId) (host : HostBuffer) : Prop :=
  s.kind.isHostBound = true ∨ s.platform.isFresh s.executor.tracker host.storage id = true ∨
    s.memory.Holds x host

/-- It needs none as long as the buffer and the tensor hold what they held. -/
theorem Current.of_eq (h : s.Current id x host) (hlater : s.Later t)
    (hspec : (t.memory.tensor x).spec = (s.memory.tensor x).spec)
    (hstorage : t.memory.storage host.storage = s.memory.storage host.storage)
    (hcontents : t.memory.contents x = s.memory.contents x)
    (hfresh : s.platform.isFresh s.executor.tracker host.storage id = true →
      t.platform.isFresh s.executor.tracker host.storage id = true) : t.Current id x host := by
  unfold Current
  rw [hlater.kind_eq, hlater.tracker]
  rcases h with hbound | hvouched | hholds
  · exact .inl hbound
  · exact .inr (.inl (hfresh hvouched))
  · exact .inr (.inr (hholds.congr hspec hstorage hcontents))

/-- The tensor has not been touched, nor any storage of the host. -/
theorem Current.of_tensor_eq (h : s.Current id x host) (hlater : s.Later t)
    (htensor : t.memory.tensor x = s.memory.tensor x)
    (hstorages : t.memory.storages = s.memory.storages) (hremembers : s.Remembers t) :
    t.Current id x host :=
  h.of_eq hlater (by rw [htensor]) (by unfold Memory.storage; rw [hstorages])
    (Memory.contents_eq_of_tensor_eq htensor hstorages) (hremembers _ _)

end ExecState

/-! ### Inputs -/

/-- The first inputs of an artifact have been served, whatever their specs. -/
structure Readied (s : ExecState) (id : ArtifactId) (a : Artifact) (inputs : List HostBuffer)
    (tensors : List (Option TensorId)) (slots : SlotTable) (t : ExecState) : Prop
    extends Placed s id a .input inputs s.executor.unit.externalInputs tensors slots t where
  /-- The tensors are at home. -/
  home : t.AtHome
  /-- They need no copies. -/
  current : ∀ (q : Nat) (host : HostBuffer) (x : TensorId), inputs[q]? = some host →
    tensors[q]? = some (some x) → t.Current id x host
  /-- The tracker vouches for no less. -/
  remembers : s.Remembers t

namespace Readied

variable {s t u : ExecState} {id : ArtifactId} {a : Artifact} {inputs : List HostBuffer}
  {tensors : List (Option TensorId)} {slots : SlotTable} {host : HostBuffer} {x : TensorId}

theorem start (h : s.AtHome) (howns : s.cache.Owns s.memory) (ha : s.cache.get? id = some a) :
    Readied s id a inputs [] a.inputs s :=
  { Placed.start howns ha with
    home := h
    current := nofun
    remembers := .of_eq rfl }

/-- Nothing but statistics change. -/
theorem untouched (h : Readied s id a inputs tensors slots t) (hu : t.Untouched u) :
    Readied s id a inputs tensors slots u :=
  { h.toPlaced.onlyMemory (hu.memory.symm ▸ OnlyMemory.of_untouched hu) with
    home := h.home.of_later hu.later hu.cache
    current := fun q host x hhost hx => (h.current q host x hhost hx).of_tensor_eq hu.later
      (by rw [hu.memory]) (by rw [hu.memory]) (.of_eq hu.registries)
    remembers := h.remembers.trans h.later (.of_eq hu.registries) }

/-- **The next input** is bound elsewhere. -/
theorem skip (h : Readied s id a inputs tensors slots t)
    (hposition : s.executor.unit.externalInputs.contains tensors.length = true) :
    Readied s id a inputs (tensors ++ [none]) slots t :=
  { h.toPlaced.skip hposition with
    home := h.home
    current := fun q host x hhost hx => by
      rcases getElem?_concat_cases hx with hold | ⟨-, hlast⟩
      · exact h.current q host x hhost hold
      · cases hlast
    remembers := h.remembers }

/-- **The next input** is served, which leaves those before it alone. -/
theorem next (h : Readied s id a inputs tensors slots t) (ha : s.cache.get? id = some a)
    (hhost : inputs[tensors.length]? = some host)
    (hposition : s.executor.unit.externalInputs.contains tensors.length = false)
    (hseated : Seated t id (a.withSlots .input slots) .input tensors.length host x u)
    (hhome : u.AtHome) (hcurrent : u.Current id x host) (hremembers : t.Remembers u) :
    Readied s id a inputs (tensors ++ [some x])
      (slots.insert tensors.length ⟨host.storage, x⟩) u :=
  { h.toPlaced.next hhost hposition hseated with
    home := hhome
    current := fun q b y hb hy => by
      rcases getElem?_concat_cases hy with hold | ⟨rfl, hlast⟩
      · refine (h.current q b y hb hold).of_tensor_eq hseated.later (hseated.within.kept id
          (.slot .input q) y (fun hp => ?_) (h.toPlaced.tensorAt ha hb hold)) hseated.storages
          hremembers
        exact Nat.ne_of_lt (List.getElem?_eq_some_iff.1 hold).1 (Place.slot.inj hp.2).2
      · cases hhost.symm.trans hb
        cases hlast
        exact hcurrent
    remembers := h.remembers.trans h.later hremembers }

end Readied

namespace ExecM

variable {s t u : ExecState} {id : ArtifactId} {a : Artifact} {inputs : List HostBuffer}
  {position : Nat} {host : HostBuffer}

/-- **One input** needs no copy when it has been served. If that fails, only its place is
concerned. -/
theorem ends_readyInput (h : s.AtHome) (howns : s.cache.Owns s.memory)
    (ha : s.cache.get? id = some a)
    (hinside : s.executor.unit.externalInputs.contains position = false) :
    Ends (serveInput id position host s)
      (fun v t => ∃ x, v.tensor = some x ∧ Seated s id a .input position host x t ∧
        t.Current id x host ∧ s.Remembers t)
      fun _ t => s.Within (fun i p => i = id ∧ p = .slot .input position) t := by
  unfold serveInput
  rw [ends_bind, ends_executor]
  dsimp only
  rw [if_neg (by rw [hinside]; exact Bool.false_ne_true), ends_bind, ends_artifact_of_some ha,
    ends_bind, ends_platform, ends_bind]
  refine ((@ends_seatSlot s id a .input position host howns ha _ _).and
    (spares_resolve h ha .input position host _ _)).mono (fun ⟨r, slots⟩ t ht => ?_)
    fun _ t ht => .of_eq _ howns ht.1.1.cache (by rw [ht.1.1.memory])
  obtain ⟨⟨hseated, -, hregistries, hstale, -⟩, hspares, hslot⟩ := ht
  dsimp only at hseated hspares hslot hstale hregistries
  rw [ends_bind, ends_setArtifact]
  obtain ⟨u, hu⟩ : ∃ u : ExecState, u = { t with
    executor.cache := t.executor.cache.update id (a.withSlots .input slots) } := ⟨_, rfl⟩
  have hregistries' : u.platform.registries = s.platform.registries := by rw [hu]; exact hregistries
  have hslot' : Slot.AtHome s.kind u.memory ⟨host.storage, r.tensor⟩ := by rw [hu]; exact hslot
  change Ends ((kind >>= _) ({ t with
    executor.cache := t.executor.cache.update id (a.withSlots .input slots) } : ExecState)) _ _
  rw [← hu] at hseated ⊢
  rw [ends_bind, ends_kind, hseated.later.kind_eq]
  split
  · rename_i hcopy
    -- The input is copied, so its tensor is not the buffer itself.
    obtain ⟨-, hnot⟩ := Bool.and_eq_true_iff.1 hcopy
    obtain ⟨length, hhome⟩ : ∃ length, u.memory.home r.tensor = .own length := by
      cases hh : u.memory.home r.tensor with
      | own length => exact ⟨length, rfl⟩
      | host storage =>
        obtain ⟨hbound, -⟩ := hslot'.bound hh
        rw [hbound] at hnot
        cases hnot
    rw [ends_bind]
    refine (ends_writeOver position r.tensor host).mono (fun _ v hv => ?_) fun _ v hv => ?_
    · obtain ⟨hcopies, hv⟩ := hv
      have hlength := Bytes.length_onto hcopies.length_le
      rw [ends_bind, ends_changePlatform, ends_pure]
      have hholds := hcopies.holds hslot'.live hhome
      rw [← hv.memory] at hholds
      refine ⟨r.tensor, rfl, hseated.rewritten ha hhome hlength ?_ hv.cache hv.outputs hv.memory
        hv.nextArtifact, .inr (.inr hholds),
        .mark (?_ : _ = s.executor.tracker.update s.platform.registries (·.mark host.storage id))⟩
      · exact hv.later.trans { ExecState.Later.refl _ with
          platform := (Platform.calm_tell _ _ _).toLater }
      · change s.executor.tracker.update v.platform.registries _ = _
        rw [hv.registries, hregistries']
    · exact hseated.within.trans (.of_eq _ hseated.within.owns hv.2.cache (by rw [hv.2.memory]))
  · rename_i hcopy
    -- The copy is left out: the tensor is the buffer, or holds a copy that is vouched for.
    rw [ends_pure]
    refine ⟨r.tensor, rfl, hseated, ?_, .of_eq hregistries'⟩
    unfold ExecState.Current
    rw [hseated.later.kind_eq, hseated.later.tracker]
    cases hbound : s.kind.isHostBound with
    | true => exact .inl rfl
    | false =>
      refine .inr (.inl ?_)
      rw [hbound, Bool.not_false, Bool.and_true] at hcopy
      obtain ⟨-, -, hfresh⟩ := hstale.1 (Bool.not_eq_true _ ▸ hcopy)
      unfold Platform.isFresh at hfresh ⊢
      rw [hregistries']
      exact hfresh

/-- The places of the slots of an artifact. -/
def slotsOf (id : ArtifactId) (i : ArtifactId) (p : Place) : Prop :=
  i = id ∧ ∃ side q, p = .slot side q

/-- **Every input** needs no copy when all have been served. If that fails, only slots of the
artifact are concerned. -/
theorem ends_readyInputs (h : s.AtHome) (howns : s.cache.Owns s.memory)
    (ha : s.cache.get? id = some a) (inputs : List HostBuffer) :
    Ends (allocateInputs id inputs s)
      (fun al t => ∃ slots, al.tensors.length = inputs.length ∧
        Readied s id a inputs al.tensors slots t)
      fun _ t => s.Within (slotsOf id) t := by
  unfold allocateInputs
  rw [ends_bind, ends_discard, ends_artifact_of_some ha, ends_bind]
  refine (ends_mapM_zipIdx (I := fun services t => ∃ slots,
    Readied s id a inputs (services.map (·.tensor)) slots t) (fun services host t hhost ht => ?_)
    ⟨_, .start h howns ha⟩).mono (fun services t ht => ?_) fun _ _ ht => ht
  · obtain ⟨slots, ht⟩ := ht
    have hlen : (services.map (·.tensor)).length = services.length := List.length_map _
    rw [← hlen] at hhost ⊢
    have hunit : t.executor.unit = s.executor.unit := ht.later.unit
    cases hposition : s.executor.unit.externalInputs.contains
        (services.map (·.tensor)).length with
    | true =>
      unfold serveInput
      rw [ends_bind, ends_executor]
      dsimp only
      rw [hunit, if_pos hposition, ends_pure, List.map_append]
      exact ⟨slots, ht.skip hposition⟩
    | false =>
      refine ((ends_readyInput ht.home ht.within.owns (ht.found ha) (by rw [hunit, hposition])).and
        (spares_serveInput ht.home id _ host)).mono (fun v u hu => ?_) fun _ u hu => ?_
      · obtain ⟨⟨x, hv, hseated, hcurrent, hremembers⟩, hspares⟩ := hu
        rw [List.map_append, List.map_singleton, hv]
        exact ⟨_, ht.next ha hhost hposition hseated hspares.home hcurrent hremembers⟩
      · exact (ht.within.mono fun i p ⟨hi, q, _, hp⟩ => ⟨hi, .input, q, hp⟩).trans
          (hu.1.mono fun i p ⟨hi, hp⟩ => ⟨hi, .input, _, hp⟩)
  · obtain ⟨hlen, slots, ht⟩ := ht
    rw [ends_bind, ends_count, ends_pure]
    exact ⟨slots, (List.length_map _).trans hlen, ht.untouched (ExecState.untouched_stats t _)⟩

/-! ### Outputs -/

/-- **One output** has a tensor in its slot when it has been served. -/
theorem ends_readyOutput (howns : s.cache.Owns s.memory) (ha : s.cache.get? id = some a)
    (hinside : s.executor.unit.externalOutputs.contains position = false) :
    Ends (serveOutput id position host s)
      (fun v t => ∃ x, v.tensor = some x ∧ Seated s id a .output position host x t ∧
        t.platform.registries = s.platform.registries)
      fun _ t => s.OnlyMemory s.memory t := by
  unfold serveOutput
  rw [ends_bind, ends_executor]
  dsimp only
  rw [if_neg (by rw [hinside]; exact Bool.false_ne_true), ends_bind, ends_artifact_of_some ha,
    ends_bind, ends_platform, ends_bind]
  refine (@ends_seatSlot s id a .output position host howns ha _ _).mono (fun ⟨r, slots⟩ t ht => ?_)
    fun _ _ ht => ht.1
  rw [ends_bind, ends_setArtifact, ends_pure]
  exact ⟨r.tensor, rfl, ht.1, ht.2.2.1⟩

/-- **Every output** has a tensor in its slot when all have been served. If that fails, only slots
of the artifact are concerned. -/
theorem ends_readyOutputs (howns : s.cache.Owns s.memory) (ha : s.cache.get? id = some a)
    (buffers : List HostBuffer) :
    Ends (allocateOutputs id buffers s)
      (fun al t => ∃ slots, al.tensors.length = buffers.length ∧
        Placed s id a .output buffers s.executor.unit.externalOutputs al.tensors slots t ∧
        t.platform.registries = s.platform.registries)
      fun _ t => s.Within (slotsOf id) t := by
  unfold allocateOutputs
  rw [ends_bind, ends_discard, ends_artifact_of_some ha, ends_bind]
  -- The invariant: the positions up to the number of services have been placed.
  refine (ends_mapM_zipIdx (I := fun services t => ∃ slots,
    Placed s id a .output buffers s.executor.unit.externalOutputs (services.map (·.tensor))
      slots t ∧ t.platform.registries = s.platform.registries)
    (fun services host t hhost ht => ?_) ⟨_, .start howns ha, rfl⟩).mono
    (fun services t ht => ?_) fun _ _ h => h
  · obtain ⟨slots, ht, hregistries⟩ := ht
    have hlen : (services.map (·.tensor)).length = services.length := List.length_map _
    rw [← hlen] at hhost ⊢
    have hunit : t.executor.unit = s.executor.unit := ht.later.unit
    cases hposition : s.executor.unit.externalOutputs.contains
        (services.map (·.tensor)).length with
    | true =>
      unfold serveOutput
      rw [ends_bind, ends_executor]
      dsimp only
      rw [hunit, if_pos hposition, ends_pure, List.map_append]
      exact ⟨slots, ht.skip hposition, hregistries⟩
    | false =>
      refine (ends_readyOutput ht.within.owns (ht.found ha) (by rw [hunit, hposition])).mono
        (fun v u hu => ?_) fun _ u hu => ?_
      · obtain ⟨x, hv, hseated, hsame⟩ := hu
        rw [List.map_append, List.map_singleton, hv]
        exact ⟨_, ht.next hhost hposition hseated, hsame.trans hregistries⟩
      · exact (ht.within.mono fun i p ⟨hi, q, _, hp⟩ => ⟨hi, .output, q, hp⟩).trans
          (.of_eq _ ht.within.owns hu.cache (by rw [hu.memory]))
  · obtain ⟨hlen, slots, ht, hregistries⟩ := ht
    rw [ends_bind, ends_count, ends_pure]
    exact ⟨slots, (List.length_map _).trans hlen,
      ht.onlyMemory (.of_untouched (ExecState.untouched_stats t _)), hregistries⟩

end ExecM

end TensorJit
