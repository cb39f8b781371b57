import TensorJit.Proofs.Executor.Current
import TensorJit.Proofs.Executor.Rotation

/-!
# What an executor leaves alone

Whatever an executor is asked for and however that ends, it touches no tensor of another executor,
and no two of its places have the same tensor (`ExecState.Tenancy`). Nothing is assumed of the specs
of the inputs.

Of its own tensors it leaves alone the ends of those that a pipeline has for results: a call writes as
far as its results reach, which is told by the function alone, and so **what is behind the results is
what the tensor was made with**, nothing but zeros (`ExecState.Blank`).
-/

namespace TensorJit

open ExecState (Within OnlyMemory)

/-! ### Blank ends -/

/-- A tensor with storage of its own holds nothing but zeros from some byte on. -/
structure Memory.Blank (m : Memory) (x : TensorId) (start : Nat) : Prop where
  /-- It has storage of its own. -/
  own : ∃ length, m.home x = .own length
  /-- There are only zeros. -/
  zeros : ∀ b ∈ (m.contents x).drop start, b = 0

theorem Memory.Blank.of_tensor_eq {m n : Memory} {x : TensorId} {start : Nat} (h : m.Blank x start)
    (htensor : n.tensor x = m.tensor x) : n.Blank x start := by
  obtain ⟨length, hhome⟩ := h.own
  refine ⟨⟨length, ?_⟩, ?_⟩
  · unfold home at hhome ⊢
    rwa [htensor]
  · rw [contents_eq_of_home_own hhome htensor]
    exact h.zeros

/-- A new tensor holds nothing but zeros. -/
theorem Memory.blank_newTensor {m : Memory} {x : TensorId} {spec : TensorSpec}
    (h : m.tensor x = newTensor spec) (start : Nat) : m.Blank x start := by
  refine ⟨⟨(Tensor.zeros spec).bytes.length, ?_⟩, fun b hb => ?_⟩
  · unfold home
    rw [h]
    rfl
  · unfold contents at hb
    rw [h] at hb
    exact List.eq_of_mem_replicate (List.mem_of_mem_drop hb)

namespace ExecState

/-- The tensors that the pipelines have for results are blank behind the results. -/
def Blank (s : ExecState) : Prop :=
  ∀ (i : ArtifactId) (a : Artifact) (q column : Nat) (x : TensorId), s.cache.get? i = some a →
    s.cache.tensorAt i (.group .output q column) = some x →
    s.memory.Blank x (s.executor.unit.span a.executable.function q)

/-- **Between two states an executor has touched no tensor but its own**, and it has left alone what is
behind the results. -/
structure Tenancy (s t : ExecState) : Prop where
  /-- Other tensors are as they were. -/
  within : s.Within (fun _ _ => True) t
  /-- What was blank is blank. -/
  blank : s.Blank → t.Blank

namespace Tenancy

variable {s t u : ExecState} {id : ArtifactId} {a : Artifact}

theorem trans (h : s.Tenancy t) (h' : t.Tenancy u) : s.Tenancy u :=
  ⟨h.within.trans h'.within, h'.blank ∘ h.blank⟩

/-- No tensor of a pipeline is touched. -/
theorem of_within {S : ArtifactId → Place → Prop} (h : s.Within S t)
    (hS : ∀ i q column, ¬ S i (.group .output q column)) (hlater : s.Later t)
    (hsame : s.SameArtifacts t) : s.Tenancy t := by
  refine ⟨h.mono fun _ _ _ => trivial, fun hblank i b q column x hb hx => ?_⟩
  rw [h.places i _ (hS i q column)] at hx
  have hbare := hsame.bare i
  rw [hb, Option.map_some] at hbare
  obtain ⟨a, ha, hab⟩ := Option.map_eq_some_iff.1 hbare.symm
  rw [hlater.unit, (Artifact.bare_eq_iff.1 hab.symm).2.2.1]
  exact (hblank i a q column x ha hx).of_tensor_eq (h.kept i _ x (hS i q column) hx)

/-- Nothing happens to the tensors that there were. -/
theorem of_old (h : s.cache.Owns s.memory) (hlater : s.Later t) (hcache : t.cache = s.cache)
    (hold : ∀ j, j < s.memory.tensors.size → t.memory.tensor j = s.memory.tensor j) :
    s.Tenancy t :=
  of_within (S := fun _ _ => False) (.of_touched h hcache hlater.platform.memory.tensors
    (fun _ => False) nofun fun j hj _ => hold j hj) (fun _ _ _ => not_false) hlater
    (.of_cache_eq hcache)

theorem of_eq (h : s.cache.Owns s.memory) (hlater : s.Later t) (hcache : t.cache = s.cache)
    (htensors : t.memory.tensors = s.memory.tensors) : s.Tenancy t :=
  of_old h hlater hcache fun j _ => by
    unfold Memory.tensor
    rw [htensors]

theorem refl (h : s.cache.Owns s.memory) : s.Tenancy s := of_eq h (.refl s) rfl rfl

theorem counted (h : s.Tenancy t) (x : Stats) : s.Tenancy { t with executor.stats := x } :=
  h.trans (of_eq h.within.owns (ExecState.untouched_stats t x).later rfl rfl)

/-- **Something is found or compiled**, which has no tensors that it did not have. -/
theorem of_found {computed : Signature.Computed} {l : Lookup} (h : s.cache.Owns s.memory)
    (hfound : ExecM.Found s computed l a t) : s.Tenancy t := by
  have hat : ∀ {i : ArtifactId} {p : Place} {x : TensorId}, t.cache.tensorAt i p = some x →
      s.cache.tensorAt i p = some x := hfound.tensorAt_eq_some
  have hmemory := hfound.memory
  refine ⟨⟨?_, fun _ _ hnot => absurd trivial hnot, fun _ _ _ hnot => absurd trivial hnot,
    fun x _ hloose => ⟨by rw [hmemory], fun i p hx => hloose i p (hat hx)⟩,
    Nat.le_of_eq (by rw [hmemory])⟩, fun hblank i b q column x hb hx => ?_⟩
  · rw [hmemory]
    exact h.of_sub (Nat.le_refl _) fun _ _ _ => hat
  · rw [hmemory, hfound.later.unit]
    -- An artifact that has a tensor was there before.
    obtain ⟨c, hc, -⟩ := Option.bind_eq_some_iff.1 (hat hx)
    have hbc : b = c := by
      by_cases hi : i = l.artifact
      · subst hi
        obtain rfl := Option.some.inj (hfound.found.symm.trans hb)
        cases hhit : l.hit with
        | true => exact Option.some.inj ((hfound.before hhit).symm.trans hc)
        | false =>
          obtain ⟨-, -, -, hnew⟩ := hfound.made hhit
          unfold Cache.tensorAt at hx
          rw [hb, Option.bind_some, hnew] at hx
          cases hx
      · exact Option.some.inj ((hfound.old i b hi hb).symm.trans hc)
    exact hbc ▸ hblank i c q column x hc (hat hx)

/-- **An artifact gets a pipeline**, with the tensors that it has there already or new ones. -/
theorem withPipeline (h : s.cache.Owns s.memory) (hlater : s.Later t)
    (ha : s.cache.get? id = some a) {p : Pipeline TensorId}
    (hcache : t.cache = s.cache.update id (a.withPipeline p))
    (hold : ∀ j, j < s.memory.tensors.size → t.memory.tensor j = s.memory.tensor j)
    (hfits : p.Fits t.memory a.executable.function)
    (horigin : ∀ side (q c : Nat) (x : TensorId), ((p.rows side)[q]?).bind (·[c]?) = some x →
      a.tensorAt (.group side q c) = some x ∨
        s.memory.tensors.size ≤ x ∧ ∃ spec, t.memory.tensor x = newTensor spec)
    (hapart : ∀ side side' (q c q' c' : Nat) (x : TensorId),
      ((p.rows side)[q]?).bind (·[c]?) = some x → ((p.rows side')[q']?).bind (·[c']?) = some x →
      side = side' ∧ q = q' ∧ c = c') : s.Tenancy t := by
  have horigin' : ∀ side (q c : Nat) (x : TensorId), ((p.rows side)[q]?).bind (·[c]?) = some x →
      a.tensorAt (.group side q c) = some x ∨ s.memory.tensors.size ≤ x := fun side q c x hx =>
    (horigin side q c x hx).imp_right And.left
  refine ⟨⟨h.withPipeline ha hcache hlater.platform.memory.tensors hfits horigin' hapart,
    fun _ _ hnot => absurd trivial hnot, fun _ _ _ hnot => absurd trivial hnot,
    fun x hlt hloose => ⟨hold x hlt, fun i place hx => ?_⟩, hlater.platform.memory.tensors⟩,
    fun hblank i b q c x hb hx => ?_⟩
  · rcases Cache.tensorAt_withPipeline_cases ha hcache horigin' hx with hx | ⟨hge, -⟩
    · exact hloose i place hx
    · exact absurd hlt (Nat.not_lt_of_le hge)
  · rw [hlater.unit]
    rw [hcache, Cache.get?_update, ha] at hb
    -- A tensor that was there is as it was.
    have hkept : ∀ c', s.cache.get? i = some c' → s.cache.tensorAt i (.group .output q c) = some x →
        t.memory.Blank x (s.executor.unit.span c'.executable.function q) := fun c' hc' hx =>
      (hblank i c' q c x hc' hx).of_tensor_eq (hold x (h.live i _ x hx))
    split at hb
    · rename_i hi
      subst hi
      obtain rfl := Option.some.inj hb
      rw [Cache.tensorAt_withPipeline ha hcache] at hx
      rcases horigin .output q c x hx with hx | ⟨-, spec, hnew⟩
      · exact hkept a ha (Option.bind_eq_some_iff.2 ⟨a, ha, hx⟩)
      · exact Memory.blank_newTensor hnew _
    · rename_i hi
      rw [Cache.tensorAt_withPipeline_of_ne ha hcache fun _ _ _ hand => hi hand.1] at hx
      exact hkept b hb hx

/-- The pipeline of an artifact is replaced by one of the same rows. -/
theorem samePipeline (h : s.cache.Owns s.memory) (hlater : s.Later t)
    (ha : s.cache.get? id = some a) {p q : Pipeline TensorId} (hp : a.pipeline = some p)
    (hrows : ∀ side, q.rows side = p.rows side)
    (hcache : t.cache = s.cache.update id (a.withPipeline q)) (hmemory : t.memory = s.memory)
    (hfits : q.Fits t.memory a.executable.function) : s.Tenancy t := by
  obtain ⟨hat, hapart⟩ := h.rows_apart ha hp hrows
  exact withPipeline h hlater ha hcache (fun j _ => by rw [hmemory]) hfits
    (fun side k c x hx => .inl (hat side k c x hx)) hapart

/-- **A call with a group** has worked with the tensors of its column. -/
theorem of_worn {g : PipelineGroup TensorId} (h : s.cache.Owns s.memory)
    (ha : s.cache.get? id = some a) (hg : g.Fits s.memory a.executable.function)
    (hplace : ∀ (side : Side) (q : Nat) (x : TensorId), (g.tensors side)[q]? = some x →
      s.cache.tensorAt id (.group side q g.index) = some x)
    (hworn : Worn s a.executable.function g t) : s.Tenancy t := by
  have hcache := hworn.only.cache
  have hat : ∀ j, j ∈ g.inputs ++ g.outputs → ∃ side q, (g.tensors side)[q]? = some j := fun j hj => by
    rcases List.mem_append.1 hj with hj | hj
    · obtain ⟨q, hq⟩ := List.getElem?_of_mem hj
      exact ⟨.input, q, hq⟩
    · obtain ⟨q, hq⟩ := List.getElem?_of_mem hj
      exact ⟨.output, q, hq⟩
  refine ⟨.of_touched h hcache (Nat.le_of_eq hworn.size.symm) (· ∈ g.inputs ++ g.outputs)
    (fun j hj => ?_) fun j _ hj => hworn.tensors j hj, fun hblank i b q c x hb hx => ?_⟩
  · obtain ⟨side, q, hq⟩ := hat j hj
    exact ⟨id, _, trivial, hplace side q j hq⟩
  · rw [hcache] at hb hx
    rw [hworn.only.later.unit]
    obtain hx' := hblank i b q c x hb hx
    by_cases hmem : x ∈ g.inputs ++ g.outputs
    · obtain ⟨side, q', hq'⟩ := hat x hmem
      obtain ⟨rfl, hplaces⟩ := h.apart i id _ _ x hx (hplace side q' x hq')
      obtain ⟨rfl, rfl, -⟩ := Place.group.inj hplaces
      obtain rfl := Option.some.inj (ha.symm.trans hb)
      obtain ⟨spec, -, hlive, -, hhome⟩ := hg.tensors .output q x hq'
      refine ⟨⟨_, (hworn.only.later.platform.memory.home x hlive).trans hhome⟩, ?_⟩
      rw [hworn.ends q x hq']
      exact hx'.zeros
    · exact hx'.of_tensor_eq (hworn.tensors x hmem)

end Tenancy

end ExecState

/-! ### Requests -/

namespace ExecM

open ExecState (Tenancy)

variable {P : List Tensor → Prop} {s t : ExecState} {id : ArtifactId} {a : Artifact}
  {inputs : List HostBuffer} {found : Lookup}

/-- **Lending a group.** -/
theorem tenancy_acquireGroup (h : s.AtHome) (howns : s.cache.Owns s.memory) (id : ArtifactId) :
    Ends (acquireGroup id s)
      (fun g t => s.Tenancy t ∧ ∃ a p, s.cache.get? id = some a ∧ Acquired s id a g p t)
      fun _ t => s.Tenancy t := by
  refine (ends_acquireGroup_of id (fun a p ha hp => (h id a ha).pipeline p hp)
    (fun t honly => Tenancy.of_old howns honly.later honly.cache)
    (fun a p q u ha hp hrows hfits hlater hcache hmemory =>
      Tenancy.samePipeline howns hlater ha hp hrows hcache hmemory hfits)
    fun a p q t u ha ht hrows hfits hlater hcache hmemory => ?_).mono (fun _ _ ht => ht)
    fun _ _ ht => ht.1
  refine Tenancy.withPipeline howns hlater ha hcache (fun j hj => hmemory ▸ ht.old j hj) hfits
    (fun side k c x hx => .inr ?_) fun side side' k c k' c' x hx hx' => ?_
  · rw [hrows] at hx
    exact ⟨ht.new side k c x hx, hmemory ▸ ht.blank side k c x hx⟩
  · rw [hrows] at hx hx'
    exact ht.apart side side' k c k' c' x hx hx'

/-- **Taking a group back.** -/
theorem tenancy_returnGroup (h : s.AtHome) (howns : s.cache.Owns s.memory) (id : ArtifactId)
    (index : Nat) : Ends (returnGroup id index s) (fun _ t => s.Tenancy t) fun _ t => s.Tenancy t := by
  refine (returned_returnGroup id index).mono (fun _ t ht => ?_) fun _ t ht => ?_
  · obtain ⟨a, p, q, ha, hp, hq, rfl⟩ := ht
    exact .samePipeline howns { ExecState.Later.refl s with } ha hp hq.rows rfl rfl
      (((h id a ha).pipeline p hp).returned hq)
  · obtain ⟨rfl, -⟩ := ht
    exact .refl howns

/-- **A call with a group that is borrowed for it.** -/
theorem tenancy_runPipelined (h : s.AtHome) (howns : s.cache.Owns s.memory)
    (ha : s.cache.get? id = some a) (hkind : s.kind = .recording .pipelined)
    (hseparate : s.outputs.Separate s.memory) (hartifact : found.artifact = id)
    (hexecutable : found.executable = a.executable)
    (hlength : a.executable.function.parameters.length = inputs.length) :
    Ends (runPipelined found inputs s) (fun _ t => s.Tenancy t) fun _ t => s.Tenancy t := by
  unfold runPipelined
  rw [ends_bind, hartifact]
  refine ((tenancy_acquireGroup h howns id).and (spares_acquireGroup h id)).mono (fun g t ht => ?_)
    fun _ _ ht => ht.1
  obtain ⟨⟨ht, b, p, hb, hacquired⟩, hspares, -⟩ := ht
  obtain rfl := Option.some.inj (ha.symm.trans hb)
  have hfound : t.cache.get? id = some (a.withPipeline p) := by
    rw [hacquired.cache, Cache.get?_update, if_pos rfl, ha]
    rfl
  have hg : g.Fits t.memory a.executable.function := hacquired.fits_group ha ht.within.owns
  -- The group is given back however the call has ended.
  have hback : ∀ (result : Except Error Report) (u : ExecState),
      Worn t a.executable.function g u → Ends ((do
        returnGroup id g.index
        ofExcept result) u) (fun _ v => s.Tenancy v) fun _ v => s.Tenancy v :=
    fun result u hworn => by
      have hu : t.Tenancy u := .of_worn ht.within.owns hfound hg
        (fun side q x hx => hacquired.tensorAt ha hx) hworn
      rw [ends_bind]
      refine (tenancy_returnGroup (hspares.home.of_later hworn.only.later hworn.only.cache)
        hu.within.owns id g.index).mono (fun _ v hv => ?_) fun _ v hv => (ht.trans hu).trans hv
      rw [ends_ofExcept]
      exact ⟨fun _ _ => (ht.trans hu).trans hv, fun _ _ => (ht.trans hu).trans hv⟩
  rw [ends_bind, ends_observe]
  rw [← hexecutable] at hg hlength hback
  exact (ends_runOnGroup_over hg (hspares.later.kind_eq.trans hkind)
    (hspares.outputs.symm ▸ hseparate.of_extends hspares.later.platform.memory) hlength).mono
    (fun r u hu => by
      obtain ⟨-, -, -, results, hran⟩ := hu
      exact hback (.ok r) u hran.toWorn)
    fun e u hu => hback (.error e) u hu.2

/-- Slots are served from, and nothing else happens to the artifacts. -/
theorem tenancy_of_slots {α : Type} {x : ExecM α} (id : ArtifactId) (hlater : Keeps ExecState.Later x)
    (hsame : Keeps ExecState.SameArtifacts x)
    (h : Ends (x s) (fun _ t => s.Within (slotsOf id) t) fun _ t => s.Within (slotsOf id) t) :
    Ends (x s) (fun _ t => s.Tenancy t) fun _ t => s.Tenancy t := by
  have hall : ∀ t, s.Within (slotsOf id) t → s.Later t → s.SameArtifacts t → s.Tenancy t :=
    fun t ht => .of_within ht fun i q c ⟨_, side, k, hk⟩ => by cases hk
  exact (h.and ((hlater s).and (hsame s))).mono (fun _ t ht => hall t ht.1 ht.2.1 ht.2.2)
    fun _ t ht => hall t ht.1 ht.2.1 ht.2.2

/-- The results are read without touching a tensor. -/
theorem tensors_readOutputs (outs : List (Option TensorId)) :
    Ends (readOutputs outs s)
      (fun _ t => t.cache = s.cache ∧ t.memory.tensors = s.memory.tensors)
      fun _ t => t.cache = s.cache ∧ t.memory.tensors = s.memory.tensors := by
  unfold readOutputs
  rw [ends_bind, ends_get]
  refine ends_forM_zipIdx
    (I := fun _ (t : ExecState) => t.cache = s.cache ∧ t.memory.tensors = s.memory.tensors)
    (fun position w t _ ht => ?_) ⟨rfl, rfl⟩
  obtain ⟨tensor, host⟩ := w
  cases tensor with
  | none => exact ht
  | some x =>
    refine (ends_readOver position x host).mono (fun _ u hu => ?_) fun _ u hu => ?_
    · exact ⟨hu.2.cache.trans ht.1, by rw [hu.2.memory, Memory.tensors_setStorage, ht.2]⟩
    · exact ⟨hu.2.cache.trans ht.1, by rw [hu.2.memory, ht.2]⟩

/-- **A call with tensors from slots** touches no others. -/
theorem within_runOnSlots (h : s.AtHome) (howns : s.cache.Owns s.memory)
    (ha : s.cache.get? id = some a) (hartifact : found.artifact = id) :
    Ends (runOnSlots found inputs s) (fun _ t => s.Within (slotsOf id) t)
      fun _ t => s.Within (slotsOf id) t := by
  unfold runOnSlots
  rw [ends_bind, hartifact]
  refine (ends_readyInputs h howns ha inputs).mono (fun ial t ht => ?_) fun _ _ ht => ht
  obtain ⟨slots, -, hready⟩ := ht
  have ht : s.Within (slotsOf id) t :=
    hready.within.mono fun i p ⟨hi, q, _, hp⟩ => ⟨hi, .input, q, hp⟩
  rw [ends_bind, ends_get, ends_bind]
  refine (ends_readyOutputs hready.within.owns (hready.found ha) t.outputs.buffers).mono
    (fun oal u hu => ?_) fun _ _ hu => ht.trans hu
  obtain ⟨slots', hlength, hplaced, -⟩ := hu
  have hu : s.Within (slotsOf id) u :=
    ht.trans (hplaced.within.mono fun i p ⟨hi, q, _, hp⟩ => ⟨hi, .output, q, hp⟩)
  have hcalled : ∀ v, Called u oal.tensors v → s.Within (slotsOf id) v := fun v hv => by
    refine hu.trans (.of_touched hu.owns hv.only.cache hv.only.later.platform.memory.tensors
      (fun j => some j ∈ oal.tensors) (fun j hj => ?_) fun j _ hj => hv.rewritten.tensors j hj)
    obtain ⟨q, hq⟩ := List.getElem?_of_mem hj
    have hhost := List.getElem?_eq_getElem (hlength ▸ (List.getElem?_eq_some_iff.1 hq).1)
    exact ⟨id, .slot .output q, ⟨rfl, .output, q, rfl⟩,
      hplaced.tensorAt (hready.found ha) hhost hq⟩
  rw [ends_bind]
  refine (called_callExecutable found.executable oal.tensors ial.tensors).mono (fun _ v hv => ?_)
    fun _ v hv => hcalled v hv
  replace hv := hcalled v hv
  rw [ends_bind, ends_kind]
  split
  · rw [ends_bind]
    exact (tensors_readOutputs oal.tensors).mono
      (fun _ w hw => hv.trans (.of_eq _ hv.owns hw.1 hw.2))
      fun _ w hw => hv.trans (.of_eq _ hv.owns hw.1 hw.2)
  · exact hv

/-- **What follows when the executable has been found.** -/
theorem tenancy_runFound (h : s.AtHome) (howns : s.cache.Owns s.memory)
    (ha : s.cache.get? id = some a) (hseparate : s.outputs.Separate s.memory)
    (hartifact : found.artifact = id) (hexecutable : found.executable = a.executable) :
    Ends (runFound found inputs s) (fun _ t => s.Tenancy t) fun _ t => s.Tenancy t := by
  unfold runFound
  dsimp only
  split
  · rw [ends_bind, ends_fail]
    exact .refl howns
  rename_i hlength
  rw [not_not, hexecutable] at hlength
  rw [ends_bind, ends_prepareOutputs, hexecutable]
  obtain ⟨p, hp⟩ : ∃ p, p = s.prepared a.executable.function.results := ⟨_, rfl⟩
  have hlater : s.Later p := hp ▸ s.later_prepared _
  have hrefitted := hp ▸ s.refitted_prepared a.executable.function.results
  have hprepared : s.Tenancy p := .of_eq howns hlater (by rw [hp]; rfl) hrefitted.tensors
  have hhome : p.AtHome := h.of_later hlater (by rw [hp]; rfl)
  have hap : p.cache.get? id = some a := by rw [hp]; exact ha
  have hseparate' : p.outputs.Separate p.memory := hp ▸ ExecState.separate_prepared hseparate _
  -- What follows the run touches no tensor.
  have hend : ∀ (r : Report) (t : ExecState), p.Tenancy t → Ends ((do
      invalidateOutputs
      count fun c => { c with executions := c.executions + 1 }
      return r) t) (fun _ u => s.Tenancy u) fun _ u => s.Tenancy u := fun r t ht => by
    rw [ends_bind]
    refine ends_invalidateOutputs.mono (fun _ u hu => ?_) fun _ _ hu => hu.elim
    obtain ⟨hlater', hcache, -, hmemory, -⟩ := hu
    rw [ends_bind, ends_count, ends_pure]
    exact ((hprepared.trans ht).trans (.of_eq ht.within.owns hlater' hcache
      (by rw [hmemory]))).counted _
  rw [← hp, ends_bind, ends_kind]
  split
  · rename_i hpipelined
    rw [ends_bind]
    exact (tenancy_runPipelined hhome hprepared.within.owns hap (of_decide_eq_true hpipelined)
      hseparate' hartifact hexecutable hlength.symm).mono hend fun _ _ ht => hprepared.trans ht
  · rw [ends_bind]
    exact (tenancy_of_slots id (keeps_runOnSlots found inputs)
      (keeps_runOnSlots found inputs)
      (within_runOnSlots hhome hprepared.within.owns hap hartifact)).mono hend
      fun _ t ht => hprepared.trans ht

theorem tenancy_allocateInputs (h : s.AtHome) (howns : s.cache.Owns s.memory) (id : ArtifactId)
    (inputs : List HostBuffer) :
    Ends (allocateInputs id inputs s) (fun _ t => s.Tenancy t) fun _ t => s.Tenancy t := by
  cases ha : s.cache.get? id with
  | none =>
    unfold allocateInputs
    rw [ends_bind, ends_discard, ends_artifact, ha]
    exact ⟨nofun, fun _ => .refl howns⟩
  | some a =>
    refine tenancy_of_slots id (keeps_allocateInputs id inputs)
      (keeps_allocateInputs id inputs) ((ends_readyInputs h howns ha inputs).mono
        (fun _ t ht => ?_) fun _ _ ht => ht)
    obtain ⟨slots, -, hready⟩ := ht
    exact hready.within.mono fun i p ⟨hi, q, _, hp⟩ => ⟨hi, .input, q, hp⟩

theorem tenancy_allocateOutputs (howns : s.cache.Owns s.memory) (id : ArtifactId)
    (buffers : List HostBuffer) :
    Ends (allocateOutputs id buffers s) (fun _ t => s.Tenancy t) fun _ t => s.Tenancy t := by
  cases ha : s.cache.get? id with
  | none =>
    unfold allocateOutputs
    rw [ends_bind, ends_discard, ends_artifact, ha]
    exact ⟨nofun, fun _ => .refl howns⟩
  | some a =>
    refine tenancy_of_slots id (keeps_allocateOutputs id buffers)
      (keeps_allocateOutputs id buffers) ((ends_readyOutputs howns ha buffers).mono
        (fun _ t ht => ?_) fun _ _ ht => ht)
    obtain ⟨slots, -, hplaced, -⟩ := ht
    exact hplaced.within.mono fun i p ⟨hi, q, _, hp⟩ => ⟨hi, .output, q, hp⟩

theorem tenancy_getExecutable (hcompiled : Compiled P s) (howns : s.cache.Owns s.memory)
    (inputs : List HostBuffer) :
    Ends (getExecutable inputs s) (fun _ t => s.Tenancy t) fun _ t => s.Tenancy t := by
  refine (ends_getExecutable hcompiled inputs).mono (fun l t ht => ?_) fun _ t ht => ?_
  · obtain ⟨computed, a, -, hfound⟩ := ht
    exact .of_found howns hfound
  · exact .of_eq howns ht.1.later ht.1.cache (by rw [ht.1.memory])

end ExecM

/-- **Whatever an executor is asked for**, it touches no tensor but its own, and it leaves alone what
is behind the results. -/
theorem Request.ends_tenancy {P : List Tensor → Prop} {s : ExecState} (hcompiled : Compiled P s)
    (h : s.AtHome) (howns : s.cache.Owns s.memory) (hseparate : s.outputs.Separate s.memory)
    (r : Request) : Ends (r.perform s) (fun _ t => s.Tenancy t) fun _ t => s.Tenancy t := by
  have hanswer : ∀ {α : Type} {x : ExecM α} (f : α → Answer),
      Ends (x s) (fun _ t => s.Tenancy t) (fun _ t => s.Tenancy t) →
      Ends ((x >>= fun a => pure (f a)) s) (fun _ t => s.Tenancy t) fun _ t => s.Tenancy t :=
    fun f hx => ends_bind.2 hx
  cases r with
  | execute inputs =>
    unfold perform
    rw [ends_bind, ExecM.execute_eq, ends_bind]
    refine ((ExecM.ends_getExecutable hcompiled inputs).and
      ((ExecM.tenancy_getExecutable hcompiled howns inputs).and
        (ExecM.spares_getExecutable hcompiled h inputs))).mono (fun found t ht => ?_)
      fun _ _ ht => ht.2.1
    obtain ⟨⟨computed, a, -, hfound⟩, ht, hspares⟩ := ht
    have hseparate' : t.outputs.Separate t.memory := by
      rw [hfound.outputs, hfound.memory]
      exact hseparate
    exact (ExecM.tenancy_runFound hspares.home ht.within.owns hfound.found hseparate' rfl
      hfound.executable).mono (fun _ _ hu => ht.trans hu) fun _ _ hu => ht.trans hu
  | getExecutable inputs => exact hanswer _ (ExecM.tenancy_getExecutable hcompiled howns inputs)
  | allocateInputs artifact inputs => exact hanswer _ (ExecM.tenancy_allocateInputs h howns _ _)
  | allocateOutputs artifact outputs => exact hanswer _ (ExecM.tenancy_allocateOutputs howns _ _)
  | acquireGroup artifact =>
    exact hanswer _ ((ExecM.tenancy_acquireGroup h howns _).mono (fun _ _ ht => ht.1)
      fun _ _ ht => ht)
  | returnGroup artifact index => exact hanswer _ (ExecM.tenancy_returnGroup h howns _ _)

end TensorJit
