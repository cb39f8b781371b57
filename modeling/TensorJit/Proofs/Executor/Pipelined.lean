import TensorJit.Proofs.Executor.Execute

/-!
# Calls with a group

On a pipelined backend every input is copied to the tensor of the group that was lent, whatever
the tracker says (`Fed`), so **a call with a group evaluates the function on the values of its
inputs**, if the executable can be called with them. The group is given back however the call ends,
and this cannot fail: the group is in flight, and nothing that the call does touches the pipelines
of the executor.
-/

namespace TensorJit

open ExecState (OnlyMemory)

/-- The tensors that a group has for one side. -/
def PipelineGroup.tensors {τ : Type} (g : PipelineGroup τ) : Side → List τ
  | .input => g.inputs
  | .output => g.outputs

/-- Every tensor of a group fits its position, and no two positions have the same. -/
structure PipelineGroup.Fits (m : Memory) (f : Function) (g : PipelineGroup TensorId) : Prop where
  /-- There is a tensor for each position. -/
  length : ∀ side, (g.tensors side).length = (f.specs side).length
  /-- It has the spec of the position, and storage of its own. -/
  tensors : ∀ (side : Side) (position : Nat) (x : TensorId),
    (g.tensors side)[position]? = some x → ∃ spec, (f.specs side)[position]? = some spec ∧
      x < m.tensors.size ∧ (m.tensor x).spec = spec ∧ m.home x = .own spec.byteLength
  /-- Two positions have two tensors. -/
  apart : ∀ (side side' : Side) (p q : Nat) (x : TensorId), (g.tensors side)[p]? = some x →
    (g.tensors side')[q]? = some x → side = side' ∧ p = q

theorem PipelineGroup.Fits.extends {m n : Memory} {f : Function} {g : PipelineGroup TensorId}
    (h : g.Fits m f) (hmn : m.Extends n) : g.Fits n f where
  length := h.length
  tensors side position x hx := by
    obtain ⟨spec, hspec, hlive, htensor, hhome⟩ := h.tensors side position x hx
    exact ⟨spec, hspec, Nat.lt_of_lt_of_le hlive hmn.tensors, (hmn.spec x hlive).trans htensor,
      (hmn.home x hlive).trans hhome⟩
  apart := h.apart

/-- What a group holds, and how it is told where. -/
theorem PipelineGroup.Fits.exists_tensor {m : Memory} {f : Function} {g : PipelineGroup TensorId}
    (h : g.Fits m f) {side : Side} {position : Nat} {spec : TensorSpec}
    (hspec : (f.specs side)[position]? = some spec) : ∃ x, (g.tensors side)[position]? = some x ∧
      x < m.tensors.size ∧ (m.tensor x).spec = spec ∧ m.home x = .own spec.byteLength := by
  have hlt : position < (g.tensors side).length :=
    h.length side ▸ (List.getElem?_eq_some_iff.1 hspec).1
  have hx : (g.tensors side)[position]? = some _ := List.getElem?_eq_getElem hlt
  obtain ⟨spec', hspec', hfits⟩ := h.tensors side position _ hx
  cases hspec.symm.trans hspec'
  exact ⟨_, hx, hfits⟩

/-- The tensors of a group that has been lent are those of its column. -/
theorem ExecM.Acquired.tensors_eq {s t : ExecState} {id : ArtifactId} {a : Artifact}
    {g : PipelineGroup TensorId} {p : Pipeline TensorId} (h : Acquired s id a g p t)
    (side : Side) : g.tensors side = Pipeline.column (p.rows side) g.index := by
  cases side with
  | input => exact h.inputs
  | output => exact h.outs

/-- A tensor of a group that has been lent is at its place, in the column of the group. -/
theorem ExecM.Acquired.tensorAt {s t : ExecState} {id : ArtifactId} {a : Artifact}
    {g : PipelineGroup TensorId} {p : Pipeline TensorId} (h : Acquired s id a g p t)
    (ha : s.cache.get? id = some a) {side : Side} {position : Nat} {x : TensorId}
    (hx : (g.tensors side)[position]? = some x) :
    t.cache.tensorAt id (.group side position g.index) = some x := by
  have hcolumns : ∀ row ∈ p.rows side, g.index < row.length := fun row hrow => by
    rw [h.fits.columns side row hrow]
    exact h.index
  rw [h.tensors_eq, Pipeline.getElem?_column hcolumns] at hx
  rw [Cache.tensorAt_withPipeline ha h.cache]
  exact hx

/-- **A group that has been lent fits.** -/
theorem ExecM.Acquired.fits_group {s t : ExecState} {id : ArtifactId} {a : Artifact}
    {g : PipelineGroup TensorId} {p : Pipeline TensorId} (h : Acquired s id a g p t)
    (ha : s.cache.get? id = some a) (howns : t.cache.Owns t.memory) :
    g.Fits t.memory a.executable.function := by
  have hcolumns : ∀ side, ∀ row ∈ p.rows side, g.index < row.length := fun side row hrow => by
    rw [h.fits.columns side row hrow]
    exact h.index
  refine ⟨fun side => ?_, fun side position x hx => ?_, fun side side' q q' x hx hx' => ?_⟩
  · rw [h.tensors_eq, Pipeline.length_column (hcolumns side), h.fits.rows]
  · have hat := h.tensorAt ha hx
    rw [Cache.tensorAt_withPipeline ha h.cache] at hat
    obtain ⟨row, hrow, hx⟩ := Option.bind_eq_some_iff.1 hat
    exact h.fits.tensors side position row x hrow (List.mem_of_getElem? hx)
  · obtain ⟨-, heq⟩ := howns.apart id id _ _ x (h.tensorAt ha hx) (h.tensorAt ha hx')
    obtain ⟨rfl, rfl, -⟩ := Place.group.inj heq
    exact ⟨rfl, rfl⟩

/-- The first inputs of a call have been copied to the tensors of a group. -/
structure Fed (s : ExecState) (g : PipelineGroup TensorId) (inputs : List HostBuffer)
    (tensors : List (Option TensorId)) (t : ExecState) : Prop where
  /-- Only memory has changed. -/
  only : s.OnlyMemory t.memory t
  /-- The storages of the host are equal. -/
  storages : t.memory.storages = s.memory.storages
  /-- Positions bound elsewhere have no tensor. -/
  absent : ∀ q : Nat, q < tensors.length →
    s.executor.unit.externalInputs.contains q = true → tensors[q]? = some none
  /-- Every other tensor is that of the group, and holds what the buffer holds. -/
  current : ∀ (q : Nat) (host : HostBuffer), q < tensors.length → inputs[q]? = some host →
    s.executor.unit.externalInputs.contains q = false → ∃ x, tensors[q]? = some (some x) ∧
      g.inputs[q]? = some x ∧ t.memory.contents x = s.memory.storage host.storage

namespace ExecM

variable {s t : ExecState} {id : ArtifactId} {a : Artifact} {inputs : List HostBuffer}
  {f : Function} {g : PipelineGroup TensorId} {host : HostBuffer} {position : Nat}

theorem ends_markStale (x : TensorId) :
    Ends (markStale x s) (fun _ t => s.OnlyMemory (s.memory.setStale x true) t)
      fun _ _ => False := by
  unfold markStale
  rw [ends_discard, ends_tryBackend, Backend.ends_setStale]
  exact ExecState.onlyMemory_withDevice (Backend.calm_set (Memory.extends_setStale _ x true)).toLater

/-- **An input is copied** to the tensor of its position, and to no other. -/
theorem ends_feedInput (hfits : g.Fits s.memory f) (hspec : f.parameters[position]? = some host.spec)
    (hsized : (s.memory.read host).WellSized)
    (hinside : s.executor.unit.externalInputs.contains position = false) :
    Ends (feedInput g position host s)
      (fun v t => ∃ x, v.tensor = some x ∧ g.inputs[position]? = some x ∧
        s.OnlyMemory t.memory t ∧ t.memory.storages = s.memory.storages ∧
        t.memory.contents x = s.memory.storage host.storage ∧
        ∀ j, j ≠ x → t.memory.tensor j = s.memory.tensor j)
      fun _ _ => False := by
  obtain ⟨x, hx, hlive, hxspec, hhome⟩ := hfits.exists_tensor
    (show (f.specs .input)[position]? = some host.spec from hspec)
  change g.inputs[position]? = some x at hx
  unfold feedInput
  rw [ends_bind, ends_executor]
  rw [if_neg (by rw [hinside]; exact Bool.false_ne_true), hx]
  dsimp only
  rw [ends_bind]
  refine (ends_markStale x).mono (fun _ t ht => ?_) fun _ _ h => h
  -- Marking the tensor changes neither its spec nor where it lives.
  have hhome' : t.memory.home x = .own host.spec.byteLength := by
    rw [ht.memory]
    unfold Memory.home
    rw [Memory.residence_setStale]
    exact hhome
  rw [ends_bind]
  refine (ends_writeInput position ?_ hhome' ?_).mono (fun _ u hu => ?_) fun _ _ h => h
  · rw [ht.memory, Memory.spec_setStale]
    exact hxspec
  · rw [ht.memory]
    exact hsized
  · rw [ends_pure]
    have honly := ht.trans hu
    refine ⟨x, rfl, rfl, honly.memory.symm ▸ honly, ?_, ?_, fun j hj => ?_⟩
    · rw [hu.memory, Memory.storages_setContents_of_home_own hhome', ht.memory,
        Memory.storages_setStale]
    · rw [hu.memory, Memory.contents_setContents_of_home_own hhome', ht.memory]
      · rfl
      · rw [ht.memory, Memory.size_tensors_setStale]
        exact hlive
    · rw [hu.memory, Memory.tensor_setContents_of_ne _ _ hj, ht.memory,
        Memory.tensor_setStale_of_ne _ _ hj]

/-- **All inputs are copied**, one after the other. -/
theorem ends_feedInputs (hfits : g.Fits s.memory f) (hparameters : f.parameters = inputs.map (·.spec))
    (hfilled : ∀ b ∈ inputs, (s.memory.read b).WellSized) :
    Ends (inputs.zipIdx.mapM (fun b => feedInput g b.2 b.1) s)
      (fun services t => services.length = inputs.length ∧
        Fed s g inputs (services.map (·.tensor)) t) fun _ _ => False := by
  refine ends_mapM_zipIdx (I := fun (services : List Service) t =>
      Fed s g inputs (services.map (·.tensor)) t)
    (fun services host t hhost ht => ?_)
    ⟨.of_untouched (.refl s), rfl, fun q hq => absurd hq (Nat.not_lt_zero q),
      fun q _ hq => absurd hq (Nat.not_lt_zero q)⟩
  have hlen : (services.map (·.tensor)).length = services.length := List.length_map _
  have hunit : t.executor.unit = s.executor.unit := ht.only.later.unit
  -- The position that is served now is the last one.
  have hcases : ∀ {v : Service} {q : Nat}, q < ((services ++ [v]).map (·.tensor)).length →
      q < services.length ∧ ((services ++ [v]).map (·.tensor))[q]? = (services.map (·.tensor))[q]? ∨
      q = services.length ∧ ((services ++ [v]).map (·.tensor))[q]? = some v.tensor :=
    fun {v q} hq => by
      rw [List.map_append, List.length_append, hlen] at hq
      rcases Nat.lt_succ_iff_lt_or_eq.1 hq with hlt | rfl
      · exact .inl ⟨hlt, by rw [List.map_append, List.getElem?_append_left (hlen ▸ hlt)]⟩
      · refine .inr ⟨rfl, ?_⟩
        rw [List.map_append, List.getElem?_append_right (Nat.le_of_eq hlen), hlen, Nat.sub_self]
        rfl
  cases hexternal : s.executor.unit.externalInputs.contains services.length with
  | true =>
    unfold feedInput
    rw [ends_bind, ends_executor]
    dsimp only
    rw [hunit, if_pos hexternal, ends_pure]
    refine ⟨ht.only, ht.storages, fun q hq hq' => ?_, fun q b hq hb hq' => ?_⟩
    · rcases hcases hq with ⟨hlt, heq⟩ | ⟨rfl, heq⟩
      · exact heq.trans (ht.absent q (hlen ▸ hlt) hq')
      · exact heq
    · rcases hcases hq with ⟨hlt, heq⟩ | ⟨rfl, -⟩
      · rw [heq]
        exact ht.current q b (hlen ▸ hlt) hb hq'
      · rw [hexternal] at hq'
        cases hq'
  | false =>
    have hfits' := hfits.extends ht.only.later.platform.memory
    have hstorage : ∀ b, t.memory.storage b = s.memory.storage b := fun b => by
      unfold Memory.storage
      rw [ht.storages]
    refine (ends_feedInput hfits' (by rw [hparameters, List.getElem?_map, hhost]; rfl) ?_
      (hunit ▸ hexternal)).mono (fun v u hu => ?_) fun _ _ h => h
    · have := hfilled host (List.mem_of_getElem? hhost)
      unfold Memory.read at this ⊢
      rwa [hstorage]
    · obtain ⟨x, hv, hx, honly, hstorages, hcontents, hother⟩ := hu
      refine ⟨(ht.only.trans honly), hstorages.trans ht.storages,
        fun q hq hq' => ?_, fun q b hq hb hq' => ?_⟩
      · rcases hcases hq with ⟨hlt, heq⟩ | ⟨rfl, -⟩
        · exact heq.trans (ht.absent q (hlen ▸ hlt) hq')
        · rw [hexternal] at hq'
          cases hq'
      · rcases hcases hq with ⟨hlt, heq⟩ | ⟨rfl, heq⟩
        · obtain ⟨y, hy, hgy, hycontents⟩ := ht.current q b (hlen ▸ hlt) hb hq'
          refine ⟨y, heq.trans hy, hgy, ?_⟩
          have hne : y ≠ x := by
            rintro rfl
            have := (hfits'.apart .input .input q services.length y hgy hx).2
            omega
          exact (Memory.contents_eq_of_tensor_eq (hother y hne) hstorages).trans hycontents
        · cases hhost.symm.trans hb
          exact ⟨x, heq.trans (congrArg some hv), hx, hcontents.trans (hstorage _)⟩

/-- **The output tensors of a group are offered**, and none of its tensors is changed but for
its flag. -/
theorem ends_offerOutputs (g : PipelineGroup TensorId) :
    Ends (g.outputs.zipIdx.mapM (fun b => offerOutput b.2 b.1) s)
      (fun outs t => outs.length = g.outputs.length ∧ s.OnlyMemory t.memory t ∧
        t.memory.storages = s.memory.storages ∧
        (∀ j, t.memory.contents j = s.memory.contents j) ∧
        ∀ (p : Nat) (x : TensorId), g.outputs[p]? = some x → outs[p]? = some
          (if s.executor.unit.externalOutputs.contains p then none else some x))
      fun _ _ => False := by
  -- The invariant: what has been offered so far are the tensors of the group, less the external
  -- positions.
  refine (ends_mapM_zipIdx (I := fun outs t => s.OnlyMemory t.memory t ∧
    t.memory.storages = s.memory.storages ∧ (∀ j, t.memory.contents j = s.memory.contents j) ∧
    ∀ (p : Nat) (x : TensorId), p < outs.length → g.outputs[p]? = some x → outs[p]? = some
      (if s.executor.unit.externalOutputs.contains p then none else some x))
    (fun outs x t hx ht => ?_) ⟨.of_untouched (.refl s), rfl, fun _ => rfl,
      fun p _ hp => absurd hp (Nat.not_lt_zero p)⟩).mono (fun outs t ht => ?_) fun _ _ h => h
  · obtain ⟨honly, hstorages, hcontents, houts⟩ := ht
    have hnext : ∀ (p : Nat) (y : TensorId), p < (outs ++ [if
        s.executor.unit.externalOutputs.contains outs.length then none else some x]).length →
        g.outputs[p]? = some y → (outs ++ [if
          s.executor.unit.externalOutputs.contains outs.length then none else some x])[p]? =
          some (if s.executor.unit.externalOutputs.contains p then none else some y) :=
      fun p y hp hy => by
        rw [List.length_append, List.length_singleton] at hp
        rcases Nat.lt_succ_iff_lt_or_eq.1 hp with hlt | rfl
        · rw [List.getElem?_append_left hlt]
          exact houts p y hlt hy
        · cases hx.symm.trans hy
          rw [List.getElem?_append_right (Nat.le_refl _), Nat.sub_self]
          rfl
    unfold offerOutput
    rw [ends_bind, ends_executor]
    dsimp only
    rw [honly.later.unit]
    cases hexternal : s.executor.unit.externalOutputs.contains outs.length with
    | true =>
      rw [hexternal, if_pos rfl] at hnext
      rw [if_pos rfl, ends_pure]
      exact ⟨honly, hstorages, hcontents, hnext⟩
    | false =>
      rw [hexternal, if_neg Bool.false_ne_true] at hnext
      rw [if_neg Bool.false_ne_true, ends_bind]
      refine (ends_markStale x).mono (fun _ u hu => ?_) fun _ _ h => h
      rw [ends_pure]
      refine ⟨hu.memory.symm ▸ honly.trans hu, ?_, fun j => ?_, hnext⟩
      · rw [hu.memory, Memory.storages_setStale, hstorages]
      · rw [hu.memory, Memory.contents_setStale, hcontents]
  · obtain ⟨hlen, honly, hstorages, hcontents, houts⟩ := ht
    exact ⟨hlen, honly, hstorages, hcontents, fun p x hx =>
      houts p x (hlen ▸ (List.getElem?_eq_some_iff.1 hx).1) hx⟩

/-! ### The whole call -/

/-- A group that has been filled supplies the inputs. -/
theorem supplied_of_fed (hfits : g.Fits s.memory a.executable.function)
    {ins : List (Option TensorId)} {u : ExecState} (hlen : ins.length = inputs.length)
    (hfed : Fed s g inputs ins t) (honly : t.OnlyMemory u.memory u) :
    Backend.Supplied a.executable.function u.memory ins := by
  intro q x hx
  have hfits' := hfits.extends (hfed.only.later.trans honly.later).platform.memory
  have hq := (List.getElem?_eq_some_iff.1 hx).1
  cases hexternal : s.executor.unit.externalInputs.contains q with
  | true =>
    rw [hfed.absent q hq hexternal] at hx
    cases hx
  | false =>
    obtain ⟨y, hy, hgy, -⟩ := hfed.current q _ hq (List.getElem?_eq_getElem (hlen ▸ hq)) hexternal
    rw [hx] at hy
    obtain rfl := Option.some.inj (Option.some.inj hy)
    obtain ⟨spec, hspec, -, hxspec, hhome⟩ := hfits'.tensors .input q x hgy
    rw [hxspec]
    exact ⟨hspec, Memory.length_contents_of_home_own hhome⟩

/-- A group that has been offered has all tensors that the results need. -/
theorem equipped_of_fed (hp : Poised s id a inputs)
    (hfits : g.Fits s.memory a.executable.function) (hpipelined : s.kind.isPipelined = true)
    {ins outs : List (Option TensorId)} {u : ExecState} (hfed : Fed s g inputs ins t)
    (houtsLen : outs.length = g.outputs.length) (honly : t.OnlyMemory u.memory u)
    (hstorages : u.memory.storages = t.memory.storages)
    (houts : ∀ (p : Nat) (x : TensorId), g.outputs[p]? = some x → outs[p]? = some
      (if s.executor.unit.externalOutputs.contains p then none else some x)) :
    Equipped s outs u := by
  have hlater := hfed.only.later.trans honly.later
  have hfits' := hfits.extends hlater.platform.memory
  have houtputs : u.outputs = s.outputs := honly.outputs.trans hfed.only.outputs
  have hnotBound : u.kind.isHostBound = false := by
    have hκ : s.kind = .recording .pipelined := of_decide_eq_true hpipelined
    rw [hlater.kind_eq, hκ]
    rfl
  -- The tensor that the group has for a result, and the buffer of that result.
  have hgroup : ∀ (p : Nat) (b : HostBuffer), s.outputs.buffers[p]? = some b →
      ∃ x, g.outputs[p]? = some x ∧ Slot.Fits u.kind u.memory b.spec ⟨b.storage, x⟩ :=
    fun p b hb => by
      have hspec : (a.executable.function.specs .output)[p]? = some b.spec := by
        change a.executable.function.results[p]? = _
        rw [hp.results, List.getElem?_map, hb]
        rfl
      obtain ⟨x, hx, hlive, hxspec, hhome⟩ := hfits'.exists_tensor hspec
      refine ⟨x, hx, hlive, hxspec, ?_⟩
      unfold homeFor
      rw [if_neg (by rw [hnotBound]; exact Bool.false_ne_true)]
      exact hhome
  have hbuffer : ∀ (p : Nat) (x : TensorId), outs[p]? = some (some x) →
      ∃ b : HostBuffer, s.outputs.buffers[p]? = some b ∧ g.outputs[p]? = some x ∧
        s.executor.unit.externalOutputs.contains p = false := fun p x hx => by
    have hlt : p < s.outputs.buffers.length := by
      have hlength := hfits.length .output
      change g.outputs.length = a.executable.function.results.length at hlength
      have := (List.getElem?_eq_some_iff.1 hx).1
      rw [houtsLen, hlength, hp.results, List.length_map] at this
      exact this
    obtain ⟨y, hy, -⟩ := hgroup p _ (List.getElem?_eq_getElem hlt)
    have := houts p y hy
    rw [hx] at this
    split at this
    · cases this
    · rename_i hexternal
      obtain rfl := Option.some.inj (Option.some.inj this)
      exact ⟨_, List.getElem?_eq_getElem hlt, hy, Bool.not_eq_true _ ▸ hexternal⟩
  refine ⟨hlater, houtputs, hstorages.trans hfed.storages,
    ⟨fun p x hx => ?_, fun p p' x hx hx' => ?_⟩, fun p b hb => ⟨fun ⟨x, hx⟩ => ?_, fun hin => ?_⟩⟩
  · obtain ⟨b, hb, hgx, -⟩ := hbuffer p x hx
    obtain ⟨y, hy, hslot⟩ := hgroup p b hb
    cases hgx.symm.trans hy
    exact ⟨b, by rw [houtputs, hb], hslot⟩
  · obtain ⟨-, -, hgx, -⟩ := hbuffer p x hx
    obtain ⟨-, -, hgx', -⟩ := hbuffer p' x hx'
    exact (hfits.apart .output .output p p' x hgx hgx').2
  · obtain ⟨-, -, -, hin⟩ := hbuffer p x hx
    exact hin
  · obtain ⟨x, hx, -⟩ := hgroup p b hb
    refine ⟨x, ?_⟩
    rw [houts p x hx, if_neg (by rw [hin]; exact Bool.false_ne_true)]

/-- The function is called with the values of the inputs. -/
theorem parametersOf_of_fed (hcall : a.Callable inputs)
    (hfits : g.Fits s.memory a.executable.function) {ins : List (Option TensorId)} {u : ExecState}
    (hlen : ins.length = inputs.length)
    (hfed : Fed s g inputs ins t) (honly : t.OnlyMemory u.memory u)
    (hcontents : ∀ j, u.memory.contents j = t.memory.contents j) :
    Backend.parametersOf u.kind u.memory a.executable.function.parameters ins =
      s.executor.unit.arguments s.memory inputs := by
  have hfits' := hfits.extends (hfed.only.later.trans honly.later).platform.memory
  refine parametersOf_eq_arguments (by rw [hcall.parameters, List.length_map])
    (fun _ => hcall.parameters) fun q host hhost => ?_
  have hq : q < ins.length := hlen ▸ (List.getElem?_eq_some_iff.1 hhost).1
  cases hexternal : s.executor.unit.externalInputs.contains q with
  | true => exact hfed.absent q hq hexternal
  | false =>
    obtain ⟨x, hx, hgx, hcurrent⟩ := hfed.current q host hq hhost hexternal
    obtain ⟨spec, hspec, -, hxspec, -⟩ := hfits'.tensors .input q x hgx
    change a.executable.function.parameters[q]? = some spec at hspec
    rw [hcall.parameters, List.getElem?_map, hhost] at hspec
    exact ⟨x, hx, hxspec.trans (Option.some.inj hspec).symm, (hcontents x).trans hcurrent⟩

/-- **A call with a group** evaluates the function on the values of its inputs, and fails only if
evaluation does. -/
theorem ends_runOnGroup (hp : Poised s id a inputs) (hcall : a.Callable inputs)
    (hfits : g.Fits s.memory a.executable.function) (hpipelined : s.kind.isPipelined = true)
    {found : Lookup} (hexecutable : found.executable = a.executable) :
    Ends (runOnGroup found g inputs s)
      (fun r u => ReportOn found r ∧ s.OnlyMemory u.memory u ∧ ∃ results,
        a.executable.function.Yields (s.executor.unit.arguments s.memory inputs) results ∧
        Delivered s results u)
      fun _ u => s.OnlyMemory u.memory u ∧ u.memory.storages = s.memory.storages ∧
        ∃ fault, a.executable.function.evaluate .binary32 (s.executor.unit.arguments s.memory inputs) =
          .error fault := by
  unfold runOnGroup
  rw [ends_bind]
  refine (ends_feedInputs hfits hcall.parameters hp.filled).mono (fun services t ht => ?_)
    fun _ _ h => h.elim
  obtain ⟨hlen, hfed⟩ := ht
  have hlen' : (services.map (·.tensor)).length = inputs.length := by rw [List.length_map, hlen]
  dsimp only
  rw [ends_bind]
  refine (ends_offerOutputs g).mono (fun outs u hu => ?_) fun _ _ h => h.elim
  obtain ⟨houtsLen, honly, hstorages, hcontents, houts⟩ := hu
  rw [hfed.only.later.unit] at houts
  have he := equipped_of_fed hp hfits hpipelined hfed houtsLen honly hstorages houts
  have hparameters := parametersOf_of_fed hcall hfits hlen' hfed honly hcontents
  have hown : u.kind.isHostBound = false := by
    have hκ : s.kind = .recording .pipelined := of_decide_eq_true hpipelined
    rw [he.later.kind_eq, hκ]
    rfl
  rw [ends_bind, hexecutable]
  -- The executable is called with what was fed, which is what the buffers held at the start.
  refine (ends_callEquipped hp he fun _ => supplied_of_fed hfits hlen' hfed honly).mono
    (fun _ v hv => ?_) fun _ v hv => ?_
  · obtain ⟨results, hyields, hstored⟩ := hv.2 hcall
    rw [hparameters] at hyields
    rw [ends_bind]
    refine (ends_readEquipped hp he hown hv.1).mono (fun _ w hw => ?_) fun _ _ h => h.elim
    have hanswered := hstored.readBack he.offered hown hw
    have hdelivered := he.delivered hanswered
    have hwhole := (hfed.only.trans honly).trans hanswered.only
    exact ⟨⟨rfl, rfl, rfl⟩, { hwhole with later := { hwhole.later with } }, results, hyields,
      { hdelivered with later := { hdelivered.later with } }⟩
  · obtain ⟨hfault, hlast⟩ := hv.2 hcall
    rw [hparameters] at hfault
    exact ⟨{ (hfed.only.trans honly).trans hlast with memory := rfl },
      by rw [hlast.memory, hstorages, hfed.storages], hfault⟩

/-- A group has been lent for a call and given back. -/
def Rotated (s : ExecState) (id : ArtifactId) (u : ExecState) : Prop :=
  ∃ a p, s.cache.get? id = some a ∧ u.cache = s.cache.update id (a.withPipeline p) ∧ p.free ≠ [] ∧
    p.Fits u.memory a.executable.function

/-- The pipeline from which a group was lent has positions on both sides. -/
theorem Rotated.specs_ne_nil {u : ExecState} (h : Rotated s id u) (ha : s.cache.get? id = some a)
    (side : Side) : a.executable.function.specs side ≠ [] := by
  obtain ⟨b, p, hb, -, -, hfits⟩ := h
  obtain rfl := Option.some.inj (ha.symm.trans hb)
  exact hfits.positions side

/-- **A call with a group that is borrowed for it** fails only if no group can be lent or if
evaluation fails. -/
theorem ends_runPipelined (hp : Poised s id a inputs) (hcall : a.Callable inputs)
    (hpipelined : s.kind.isPipelined = true) {found : Lookup} (hartifact : found.artifact = id)
    (hexecutable : found.executable = a.executable) :
    Ends (runPipelined found inputs s)
      (fun r u => ReportOn found r ∧ s.KeepsSound u ∧ Rotated s id u ∧ ∃ results,
        a.executable.function.Yields (s.executor.unit.arguments s.memory inputs) results ∧
        Delivered s results u)
      fun _ u => s.KeepsSound u ∧ u.outputs = s.outputs ∧ u.memory.storages = s.memory.storages ∧
        (CannotLend s id ∨ Rotated s id u ∧ ∃ fault, a.executable.function.evaluate .binary32
          (s.executor.unit.arguments s.memory inputs) = .error fault) := by
  have hpipeline : ∀ b p, s.cache.get? id = some b → b.pipeline = some p →
      p.Fits s.memory b.executable.function := fun b p hb => by
    obtain rfl := Option.some.inj (hp.found.symm.trans hb)
    exact hp.pipeline p
  unfold runPipelined
  rw [ends_bind, hartifact]
  refine (ends_acquireGroup id hp.owns hpipeline).mono (fun g t ht => ?_) fun _ t ht => ?_
  · obtain ⟨howns, hkeeps, b, p, hb, hacquired⟩ := ht
    cases hp.found.symm.trans hb
    have hlater := hacquired.later
    have hfound : t.cache.get? id = some (a.withPipeline p) := by
      rw [hacquired.cache, Cache.get?_update, if_pos rfl, hp.found]
      rfl
    have hread : ∀ b, t.memory.read b = s.memory.read b := fun b => by
      unfold Memory.read Memory.storage
      rw [hacquired.storages]
    have hp' : Poised t id (a.withPipeline p) inputs :=
      ⟨howns, hfound, fun q hq => Option.some.inj hq ▸ hacquired.fits,
        hacquired.outputs.symm ▸ hp.results,
        fun c hc => hread c ▸ hp.filled c hc,
        hacquired.outputs.symm ▸ hp.separate.of_extends hlater.platform.memory,
        fun c hc => hread c ▸ hp.sized c (hacquired.outputs ▸ hc)⟩
    have hfits := hacquired.fits_group hp.found howns
    have harguments : t.executor.unit.arguments t.memory inputs =
        s.executor.unit.arguments s.memory inputs := by
      rw [hlater.unit]
      exact ExecutionUnit.arguments_congr _ hacquired.storages inputs
    -- The group can be given back, since it is in flight.
    have hreturn : ∀ u, t.OnlyMemory u.memory u → Ends (returnGroup id g.index u)
        (fun _ v => s.KeepsSound v ∧ Rotated s id v ∧ u.Later v ∧ v.outputs = u.outputs ∧
          v.memory = u.memory) fun _ _ => False := fun u hu => by
      refine (ends_returnGroup u id g.index).mono (fun _ v hv => ?_) fun _ v hv => ?_
      · obtain ⟨hv, b, q, r, hb, hq, hreturned, hcache, hlater', houtputs, hmemory⟩ := hv
        rw [hu.cache, hfound] at hb
        obtain rfl := Option.some.inj hb
        obtain rfl := Option.some.inj hq
        refine ⟨(hkeeps.trans hu.keepsSound).trans hv, ⟨a, r, hp.found, ?_, ?_, ?_⟩, hlater',
          houtputs, hmemory⟩
        · rw [hcache, hu.cache, hacquired.cache, Cache.update_update]
          rfl
        · rw [hreturned.free]
          exact fun h => List.cons_ne_nil _ _ (List.append_eq_nil_iff.1 h).2
        · rw [hmemory]
          exact (hacquired.fits.extends hu.later.platform.memory).returned hreturned
      · refine absurd hacquired.flag (hv.2 (a.withPipeline p) p ?_ rfl)
        rw [hu.cache]
        exact hfound
    rw [ends_bind, ends_observe]
    refine (ends_runOnGroup hp' ⟨hcall.typed, hcall.parameters⟩ hfits
      (by rw [hlater.kind_eq]; exact hpipelined) hexecutable).mono
      (fun r u hu => ?_) fun e u hu => ?_
    · obtain ⟨hr, honly, results, hyields, hdelivered⟩ := hu
      rw [harguments] at hyields
      rw [ends_bind]
      refine (hreturn u honly).mono (fun _ v hv => ?_) fun _ _ h => h.elim
      obtain ⟨hv, hrotated, hlater', houtputs, hmemory⟩ := hv
      exact ⟨hr, hv, hrotated, results, hyields, hdelivered.between hlater hacquired.outputs
        hacquired.storages hlater' houtputs (by rw [hmemory])⟩
    · obtain ⟨honly, hstorages, hfault⟩ := hu
      rw [harguments] at hfault
      rw [ends_bind]
      refine (hreturn u honly).mono (fun _ v hv => ?_) fun _ _ h => h.elim
      obtain ⟨hv, hrotated, -, houtputs, hmemory⟩ := hv
      exact ⟨hv, houtputs.trans (honly.outputs.trans hacquired.outputs),
        by rw [hmemory, hstorages, hacquired.storages], .inr ⟨hrotated, hfault⟩⟩
  · obtain ⟨hkeeps, hcannot, houtputs, hstorages⟩ := ht
    exact ⟨hkeeps, houtputs, hstorages, .inl hcannot⟩

end ExecM

end TensorJit
