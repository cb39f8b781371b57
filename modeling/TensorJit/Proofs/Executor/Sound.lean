import TensorJit.Proofs.Executor.Group

/-!
# Sound executors

An executor is sound, for the element types that its inputs are to have, when its artifacts were
made for such inputs, no two of their places have the same tensor, and every tensor fits its
place. Which specs the inputs of an artifact have is said by its signature and the element types
(`Executor.Expects`). Finding and compiling keep an executor sound, and so do the requests that
lend a group and take it back, however they end. A call is treated in its own file.
-/

namespace TensorJit

open ExecState (OnlyMemory Untouched)

/-- The artifact with a pipeline. -/
def Artifact.withPipeline (a : Artifact) (p : Pipeline TensorId) : Artifact :=
  { a with pipeline := some p }

theorem Artifact.bare_withPipeline (a : Artifact) (p : Pipeline TensorId) :
    (a.withPipeline p).bare = a.bare := rfl

/-! ### What inputs an artifact expects -/

/-- Inputs of the signature of an artifact, each of the element type of its position, have these
specs. -/
def Executor.Expects (e : Executor) (δ : Nat → DType) (a : Artifact) (ins : List TensorSpec) :
    Prop :=
  ∃ ts computed, HasDTypes δ ts ∧ Signature.compute e.statics ts = .ok computed ∧
    computed.signature = a.signature ∧ computed.specs = ins

namespace Executor.Expects

variable {e : Executor} {δ : Nat → DType} {a b : Artifact} {ins ins' : List TensorSpec}

theorem unique (h : e.Expects δ a ins) (h' : e.Expects δ a ins') : ins = ins' := by
  obtain ⟨ts, c, hts, hc, hsignature, rfl⟩ := h
  obtain ⟨us, d, hus, hd, hsignature', rfl⟩ := h'
  exact hts.specs_eq hus hc hd (hsignature.trans hsignature'.symm)

theorem of_signature_eq (h : e.Expects δ a ins) (hsignature : b.signature = a.signature) :
    e.Expects δ b ins := by
  obtain ⟨ts, c, hts, hc, hσ, hins⟩ := h
  exact ⟨ts, c, hts, hc, hσ.trans hsignature.symm, hins⟩

theorem of_statics_eq {e' : Executor} (h : e.Expects δ a ins) (hstatics : e'.statics = e.statics) :
    e'.Expects δ a ins := by
  obtain ⟨ts, c, hts, hc, hσ, hins⟩ := h
  exact ⟨ts, c, hts, by rw [hstatics]; exact hc, hσ, hins⟩

theorem of_found {s t : ExecState} {inputs : List HostBuffer} {computed : Signature.Computed}
    {l : Lookup} (hδ : HasDTypes δ (inputs.map s.memory.read))
    (hcompute : Signature.compute s.executor.statics (inputs.map s.memory.read) = .ok computed)
    (hfound : ExecM.Found s computed l a t) : t.executor.Expects δ a (inputs.map (·.spec)) := by
  obtain ⟨-, -, -, hspecs, -⟩ := Signature.compute_eq_ok hcompute
  refine ⟨_, computed, hδ, by rw [hfound.later.statics]; exact hcompute,
    hfound.signature_eq.symm, ?_⟩
  rw [hspecs, List.map_map]
  rfl

end Executor.Expects

theorem Executor.Made.expects {e : Executor} {δ : Nat → DType} {a : Artifact}
    (h : e.Made (HasDTypes δ) a) : ∃ ins, e.Expects δ a ins := by
  obtain ⟨ts, computed, hts, hcompute, hsignature, -⟩ := h
  exact ⟨_, ts, computed, hts, hcompute, hsignature, rfl⟩

namespace ExecM.Found

variable {s t : ExecState} {computed : Signature.Computed} {l : Lookup} {a : Artifact}

/-- When an executable has been found or compiled, an artifact in the cache was there before, or it
is new. -/
theorem get?_cases (h : Found s computed l a t) {i : ArtifactId} {c : Artifact}
    (hc : t.cache.get? i = some c) : s.cache.get? i = some c ∨
      ∃ x f, c = .new l.artifact computed.signature x f := by
  by_cases hi : i = l.artifact
  · subst hi
    obtain rfl := Option.some.inj (h.found.symm.trans hc)
    cases hhit : l.hit with
    | true => exact .inl (h.before hhit)
    | false =>
      obtain ⟨-, -, -, hnew⟩ := h.made hhit
      exact .inr ⟨_, _, hnew⟩
  · exact .inl (h.old i c hi hc)

/-- What is found or compiled has no tensor that it did not have. -/
theorem tensorAt_eq_some (h : Found s computed l a t) {i : ArtifactId} {p : Place} {x : TensorId}
    (hx : t.cache.tensorAt i p = some x) : s.cache.tensorAt i p = some x := by
  obtain ⟨c, hc, hx⟩ := Option.bind_eq_some_iff.1 hx
  refine Option.bind_eq_some_iff.2 ⟨c, ?_, hx⟩
  rcases h.get?_cases hc with hold | ⟨_, _, rfl⟩
  · exact hold
  · cases p with
    | slot side position => cases side <;> cases hx
    | group side position column => cases hx

/-- Still no two places have the same tensor. -/
theorem owns (h : Found s computed l a t) (howns : s.cache.Owns s.memory) :
    t.cache.Owns t.memory := by
  rw [h.memory]
  exact howns.of_sub (Nat.le_refl _) fun _ _ _ => h.tensorAt_eq_some

end ExecM.Found

/-! ### The tensors of a pipeline -/

section Pipelines

variable {s t : ExecState} {id : ArtifactId} {a : Artifact} {p : Pipeline TensorId}

theorem Cache.tensorAt_withPipeline (ha : s.cache.get? id = some a)
    (hcache : t.cache = s.cache.update id (a.withPipeline p)) (side : Side) (q c : Nat) :
    t.cache.tensorAt id (.group side q c) = ((p.rows side)[q]?).bind (·[c]?) := by
  rw [hcache, Cache.tensorAt_update ha, if_pos rfl]
  rfl

/-- No other place is concerned when an artifact gets a pipeline. -/
theorem Cache.tensorAt_withPipeline_of_ne (ha : s.cache.get? id = some a)
    (hcache : t.cache = s.cache.update id (a.withPipeline p)) {i : ArtifactId} {place : Place}
    (hne : ∀ side q c, ¬ (i = id ∧ place = .group side q c)) :
    t.cache.tensorAt i place = s.cache.tensorAt i place := by
  rw [hcache, Cache.tensorAt_update ha]
  split
  · rename_i hi
    subst hi
    unfold Cache.tensorAt
    rw [ha]
    cases place with
    | slot side q => cases side <;> rfl
    | group side q c => exact absurd ⟨rfl, rfl⟩ (hne side q c)
  · rfl

/-- All tensors stay where they are when an artifact gets a pipeline of the same rows. -/
theorem Cache.tensorAt_samePipeline (ha : s.cache.get? id = some a) {q : Pipeline TensorId}
    (hp : a.pipeline = some p) (hrows : ∀ side, q.rows side = p.rows side)
    (hcache : t.cache = s.cache.update id (a.withPipeline q)) (i : ArtifactId) (place : Place) :
    t.cache.tensorAt i place = s.cache.tensorAt i place := by
  by_cases hne : ∀ side k c, ¬ (i = id ∧ place = .group side k c)
  · exact Cache.tensorAt_withPipeline_of_ne ha hcache hne
  · obtain ⟨side, k, c, rfl, rfl⟩ : ∃ side k c, i = id ∧ place = .group side k c := by
      by_contra hcon
      exact hne fun side k c hand => hcon ⟨side, k, c, hand⟩
    rw [Cache.tensorAt_withPipeline ha hcache, hrows]
    unfold Cache.tensorAt Artifact.tensorAt
    rw [ha, Option.bind_some]
    dsimp only
    rw [hp, Option.bind_some]

/-- Every tensor was at its place before, or is new and at a place of a group. -/
theorem Cache.tensorAt_withPipeline_cases (ha : s.cache.get? id = some a)
    (hcache : t.cache = s.cache.update id (a.withPipeline p))
    (horigin : ∀ side (q c : Nat) (x : TensorId), ((p.rows side)[q]?).bind (·[c]?) = some x →
      a.tensorAt (.group side q c) = some x ∨ s.memory.tensors.size ≤ x)
    {i : ArtifactId} {place : Place} {x : TensorId} (hx : t.cache.tensorAt i place = some x) :
    s.cache.tensorAt i place = some x ∨
      s.memory.tensors.size ≤ x ∧ i = id ∧ ∃ side q c, place = .group side q c := by
  by_cases hne : ∀ side q c, ¬ (i = id ∧ place = .group side q c)
  · exact .inl (Cache.tensorAt_withPipeline_of_ne ha hcache hne ▸ hx)
  · obtain ⟨side, q, c, rfl, rfl⟩ : ∃ side q c, i = id ∧ place = .group side q c := by
      by_contra hcon
      exact hne fun side q c hand => hcon ⟨side, q, c, hand⟩
    rw [Cache.tensorAt_withPipeline ha hcache] at hx
    rcases horigin side q c x hx with hold | hge
    · refine .inl ?_
      unfold Cache.tensorAt
      rw [ha]
      exact hold
    · exact .inr ⟨hge, rfl, side, q, c, rfl⟩

/-- **An artifact gets a pipeline**, and still no two places have the same tensor. -/
theorem Cache.Owns.withPipeline (h : s.cache.Owns s.memory) (ha : s.cache.get? id = some a)
    (hcache : t.cache = s.cache.update id (a.withPipeline p))
    (hsize : s.memory.tensors.size ≤ t.memory.tensors.size)
    (hfits : p.Fits t.memory a.executable.function)
    (horigin : ∀ side (q c : Nat) (x : TensorId), ((p.rows side)[q]?).bind (·[c]?) = some x →
      a.tensorAt (.group side q c) = some x ∨ s.memory.tensors.size ≤ x)
    (hapart : ∀ side side' (q c q' c' : Nat) (x : TensorId),
      ((p.rows side)[q]?).bind (·[c]?) = some x → ((p.rows side')[q']?).bind (·[c']?) = some x →
      side = side' ∧ q = q' ∧ c = c') : t.cache.Owns t.memory := by
  have hgroup := Cache.tensorAt_withPipeline ha hcache
  have hwhere := @Cache.tensorAt_withPipeline_cases _ _ _ _ _ ha hcache horigin
  refine ⟨fun i pl x hx => ?_, fun i j pl pl' x hx hx' => ?_⟩
  · rcases hwhere hx with hold | ⟨-, rfl, side, q, c, rfl⟩
    · exact Nat.lt_of_lt_of_le (h.live i pl x hold) hsize
    · rw [hgroup] at hx
      obtain ⟨row, hrow, hx⟩ := Option.bind_eq_some_iff.1 hx
      obtain ⟨-, -, hlive, -⟩ := hfits.tensors side q row x hrow (List.mem_of_getElem? hx)
      exact hlive
  · rcases hwhere hx with hold | ⟨hge, rfl, side, q, c, rfl⟩
    · rcases hwhere hx' with hold' | ⟨hge, -⟩
      · exact h.apart i j pl pl' x hold hold'
      · exact absurd (h.live i pl x hold) (Nat.not_lt_of_le hge)
    · rcases hwhere hx' with hold' | ⟨-, rfl, side', q', c', rfl⟩
      · exact absurd (h.live j pl' x hold') (Nat.not_lt_of_le hge)
      · rw [hgroup] at hx hx'
        obtain ⟨rfl, rfl, rfl⟩ := hapart side side' q c q' c' x hx hx'
        exact ⟨rfl, rfl⟩

/-- A pipeline of the same rows has the tensors where they were, and no two places have the
same. -/
theorem Cache.Owns.rows_apart (h : s.cache.Owns s.memory) (ha : s.cache.get? id = some a)
    {q : Pipeline TensorId} (hp : a.pipeline = some p) (hrows : ∀ side, q.rows side = p.rows side) :
    (∀ side (k c : Nat) (x : TensorId), ((q.rows side)[k]?).bind (·[c]?) = some x →
      a.tensorAt (.group side k c) = some x) ∧
    ∀ side side' (k c k' c' : Nat) (x : TensorId),
      ((q.rows side)[k]?).bind (·[c]?) = some x → ((q.rows side')[k']?).bind (·[c']?) = some x →
      side = side' ∧ k = k' ∧ c = c' := by
  have hat : ∀ side (k c : Nat) (x : TensorId), ((q.rows side)[k]?).bind (·[c]?) = some x →
      a.tensorAt (.group side k c) = some x := fun side k c x hx => by
    unfold Artifact.tensorAt
    dsimp only
    rw [hp, Option.bind_some, ← hrows side]
    exact hx
  refine ⟨hat, fun side side' k c k' c' x hx hx' => ?_⟩
  have hplace : ∀ side (k c : Nat), ((q.rows side)[k]?).bind (·[c]?) = some x →
      s.cache.tensorAt id (.group side k c) = some x := fun side k c hx => by
    unfold Cache.tensorAt
    rw [ha]
    exact hat side k c x hx
  obtain ⟨-, heq⟩ := h.apart id id _ _ x (hplace side k c hx) (hplace side' k' c' hx')
  exact Place.group.inj heq

end Pipelines

/-! ### Soundness -/

/-- Every tensor of the executor is at home. -/
def ExecState.AtHome (s : ExecState) : Prop :=
  ∀ i a, s.cache.get? i = some a → a.AtHome s.kind s.memory

/-- A new artifact has no tensors that could be anywhere else. -/
theorem ExecM.Found.atHome {s t : ExecState} {computed : Signature.Computed} {l : Lookup}
    {a : Artifact} (h : Found s computed l a t) (hhome : s.AtHome) : t.AtHome := fun i c hc => by
  rw [h.later.kind_eq, h.memory]
  rcases h.get?_cases hc with hold | ⟨_, _, rfl⟩
  · exact hhome i c hold
  · exact (Artifact.fits_new _ _ [] _ _ _ _).atHome

/-- Everything that an executor relies on from one request to the next. -/
structure ExecState.Sound (δ : Nat → DType) (s : ExecState) : Prop where
  /-- The artifacts were made for inputs with these element types. -/
  compiled : Compiled (HasDTypes δ) s
  /-- No two places have the same tensor. -/
  owns : s.cache.Owns s.memory
  /-- Every tensor fits its place. -/
  fits : ∀ i a ins, s.cache.get? i = some a → s.executor.Expects δ a ins →
    a.Fits s.kind s.memory ins

namespace ExecState.Sound

variable {δ : Nat → DType} {s t : ExecState} {id : ArtifactId} {a b : Artifact}

/-- Every tensor is at home. -/
theorem atHome (h : Sound δ s) : s.AtHome := fun i a ha => by
  obtain ⟨ins, hins⟩ := (h.compiled.made i a ha).expects
  exact (h.fits i a ins ha hins).atHome

theorem pipelineFits (h : Sound δ s) (ha : s.cache.get? id = some a) {p : Pipeline TensorId}
    (hp : a.pipeline = some p) : p.Fits s.memory a.executable.function :=
  (h.atHome id a ha).pipeline p hp

/-- Whatever else happens, an executor stays sound while its cache stays the same. -/
theorem of_later (h : Sound δ s) (hlater : s.Later t) (hcache : t.cache = s.cache) : Sound δ t where
  compiled := h.compiled.sameArtifacts hlater (.of_cache_eq hcache)
  owns := hcache.symm ▸ h.owns.of_sub hlater.platform.memory.tensors fun _ _ _ h => h
  fits i a ins ha hins := by
    rw [hlater.kind_eq]
    exact (h.fits i a ins (hcache ▸ ha)
      (hins.of_statics_eq hlater.statics.symm)).extends hlater.platform.memory

theorem onlyMemory (h : Sound δ s) (ht : s.OnlyMemory t.memory t) : Sound δ t :=
  h.of_later ht.later ht.cache

theorem untouched (h : Sound δ s) (ht : s.Untouched t) : Sound δ t :=
  h.of_later ht.later ht.cache

/-- An artifact gets other tensors. -/
theorem update (h : Sound δ s) (hlater : s.Later t) (ha : s.cache.get? id = some a)
    (hcache : t.cache = s.cache.update id b) (hbare : b.bare = a.bare)
    (hfits : ∀ ins, s.executor.Expects δ a ins → b.Fits s.kind t.memory ins)
    (howns : t.cache.Owns t.memory) : Sound δ t where
  compiled := by
    refine h.compiled.sameArtifacts hlater ?_
    have hsame := ExecState.sameArtifacts_update (s := s) ha hbare
    exact ⟨by rw [hcache]; exact hsame.depth, by rw [hcache]; exact hsame.index,
      by rw [hcache]; exact hsame.order, by rw [hcache]; exact hsame.size,
      by rw [hcache]; exact hsame.bare⟩
  owns := howns
  fits i c ins hc hins := by
    replace hins := hins.of_statics_eq hlater.statics.symm
    rw [hlater.kind_eq]
    rw [hcache, Cache.get?_update] at hc
    split at hc
    · rw [ha] at hc
      cases hc
      exact hfits ins (hins.of_signature_eq (Artifact.bare_eq_iff.1 hbare).2.1.symm)
    · exact (h.fits i c ins hc hins).extends hlater.platform.memory

/-- **Finding or compiling an executable.** -/
theorem found (h : Sound δ s) {inputs : List HostBuffer} {computed : Signature.Computed}
    {l : Lookup} (hδ : HasDTypes δ (inputs.map s.memory.read))
    (hcompute : Signature.compute s.executor.statics (inputs.map s.memory.read) = .ok computed)
    (hfound : ExecM.Found s computed l a t) : Sound δ t where
  compiled := h.compiled.found hδ hcompute hfound
  owns := hfound.owns h.owns
  fits i c ins hc hins := by
    replace hins := hins.of_statics_eq hfound.later.statics.symm
    rw [hfound.later.kind_eq, hfound.memory]
    rcases hfound.get?_cases hc with hold | ⟨_, _, rfl⟩
    · exact h.fits i c ins hold hins
    · exact Artifact.fits_new ..

/-- **An artifact gets a pipeline**, with the tensors that it has there already or new ones. -/
theorem withPipeline (h : Sound δ s) (hlater : s.Later t) (ha : s.cache.get? id = some a)
    {p : Pipeline TensorId} (hcache : t.cache = s.cache.update id (a.withPipeline p))
    (hfits : p.Fits t.memory a.executable.function)
    (horigin : ∀ side (q c : Nat) (x : TensorId), ((p.rows side)[q]?).bind (·[c]?) = some x →
      a.tensorAt (.group side q c) = some x ∨ s.memory.tensors.size ≤ x)
    (hapart : ∀ side side' (q c q' c' : Nat) (x : TensorId),
      ((p.rows side)[q]?).bind (·[c]?) = some x → ((p.rows side')[q']?).bind (·[c']?) = some x →
      side = side' ∧ q = q' ∧ c = c') : Sound δ t := by
  refine h.update hlater ha hcache (a.bare_withPipeline p) (fun ins hins =>
    ⟨fun side position slot hslot => ?_, fun p' hp' => ?_⟩)
    (h.owns.withPipeline ha hcache hlater.platform.memory.tensors hfits horigin hapart)
  · have hslot' : (a.slots side).get? position = some slot := by
      cases side with
      | input => exact hslot
      | output => exact hslot
    obtain ⟨spec, hspec, hslotFits⟩ := (h.fits id a ins ha hins).slots side position slot hslot'
    exact ⟨spec, hspec, hslotFits.extends hlater.platform.memory⟩
  · obtain rfl := Option.some.inj hp'
    exact hfits

/-- The pipeline of an artifact is replaced by one of the same rows. -/
theorem samePipeline (h : Sound δ s) (hlater : s.Later t) (ha : s.cache.get? id = some a)
    {p q : Pipeline TensorId} (hp : a.pipeline = some p) (hrows : ∀ side, q.rows side = p.rows side)
    (hcache : t.cache = s.cache.update id (a.withPipeline q))
    (hfits : q.Fits t.memory a.executable.function) : Sound δ t := by
  obtain ⟨hat, hapart⟩ := h.owns.rows_apart ha hp hrows
  exact h.withPipeline hlater ha hcache hfits (fun side k c x hx => .inl (hat side k c x hx)) hapart

end ExecState.Sound

/-- An executor that was sound still is, for whatever element types. -/
def ExecState.KeepsSound (s t : ExecState) : Prop := ∀ δ, Sound δ s → Sound δ t

theorem ExecState.KeepsSound.trans {s t u : ExecState} (h : s.KeepsSound t)
    (h' : t.KeepsSound u) : s.KeepsSound u := fun δ hs => h' δ (h δ hs)

theorem ExecState.OnlyMemory.keepsSound {s t : ExecState} (h : s.OnlyMemory t.memory t) :
    s.KeepsSound t := fun _ hs => hs.onlyMemory h

/-! ### Lending a group and taking it back -/

namespace ExecM

open ExecState (Sound)

variable {s t : ExecState} {id : ArtifactId} {a : Artifact}

/-- A group of an artifact has been lent. -/
structure Acquired (s : ExecState) (id : ArtifactId) (a : Artifact)
    (g : PipelineGroup TensorId) (p : Pipeline TensorId) (t : ExecState) : Prop where
  /-- The executor is the same. -/
  later : s.Later t
  /-- The artifact has this pipeline now. -/
  cache : t.cache = s.cache.update id (a.withPipeline p)
  /-- The output buffers are equal. -/
  outputs : t.outputs = s.outputs
  /-- The storages of the host are equal. -/
  storages : t.memory.storages = s.memory.storages
  /-- The pipeline fits. -/
  fits : p.Fits t.memory a.executable.function
  /-- The group is one of its groups. -/
  index : g.index < p.depth
  /-- The group is in flight. -/
  flag : p.flags[g.index]? = some true
  /-- The group has the tensors of its column. -/
  inputs : g.inputs = Pipeline.column p.inputs g.index
  /-- The group has the tensors of its column. -/
  outs : g.outputs = Pipeline.column p.outputs g.index

/-- A reason for which no group of an artifact can be lent. -/
def CannotLend (s : ExecState) (id : ArtifactId) : Prop :=
  s.kind.isPipelined = false ∨ s.cache.get? id = none ∨ ∃ a, s.cache.get? id = some a ∧
    ((a.pipeline = none ∧ (a.executable.function.parameters = [] ∨
      a.executable.function.results = [] ∨ s.executor.config.pipelineDepth = 0)) ∨
      ∃ p, a.pipeline = some p ∧ p.free = [])

section Lending

variable {R : ExecState → Prop}

/-- A group is taken out of a pipeline that the artifact is given. -/
theorem ends_lend {p : Pipeline TensorId} (ht : s.OnlyMemory t.memory t)
    (hstorages : t.memory.storages = s.memory.storages)
    (hfits : p.Fits t.memory a.executable.function)
    (hlent : ∀ (q : Pipeline TensorId) u, (∀ side, q.rows side = p.rows side) →
      q.Fits u.memory a.executable.function → s.Later u →
      u.cache = s.cache.update id (a.withPipeline q) → u.memory = t.memory → R u)
    (e : Executor) :
    Ends ((do
        setArtifact id (a.withPipeline p)
        match p.acquire? with
        | none => throw (Error.resourceExhausted e.unit.name "no free tensor available")
        | some (group, p) =>
          setArtifact id (a.withPipeline p)
          return group) t)
      (fun g u => R u ∧ ∃ q, p.Lent g q ∧ Acquired s id a g q u)
      fun _ u => R u ∧ p.free = [] ∧ u.outputs = s.outputs ∧
        u.memory.storages = s.memory.storages := by
  have hcache : ∀ q : Pipeline TensorId, t.cache.update id (a.withPipeline q) =
      s.cache.update id (a.withPipeline q) := fun q => by rw [ht.cache]
  rw [ends_bind, ends_setArtifact]
  -- Nothing is acquired from a pipeline only if no group of it is free.
  cases hlend : p.acquire? with
  | none =>
    dsimp only
    rw [ends_throw]
    refine ⟨hlent p _ (fun _ => rfl) hfits ?_ (hcache p) rfl, ?_, ht.outputs, hstorages⟩
    · exact { ht.later with }
    · unfold Pipeline.acquire? at hlend
      cases hf : p.free with
      | nil => rfl
      | cons i rest => rw [hf] at hlend; cases hlend
  | some lent =>
    obtain ⟨g, q⟩ := lent
    dsimp only
    rw [ends_bind, ends_setArtifact, ends_pure]
    have hl := Pipeline.lent_of_acquire? hlend
    obtain ⟨hqfits, hindex, hflag⟩ := hfits.lent hl
    have hcache' : (t.cache.update id (a.withPipeline p)).update id (a.withPipeline q) =
        s.cache.update id (a.withPipeline q) := by rw [Cache.update_update, hcache]
    have hinputs : p.inputs = q.inputs := (hl.rows .input).symm
    have houtputs : p.outputs = q.outputs := (hl.rows .output).symm
    refine ⟨hlent q _ hl.rows hqfits { ht.later with } hcache' rfl, q, hl, { ht.later with },
      hcache', ht.outputs, hstorages, hqfits, hl.depth ▸ hindex, hflag, ?_, ?_⟩
    · rw [hl.inputs, hinputs]
    · rw [hl.outputs, houtputs]

/-- **Lending a group** of an artifact that has one to lend. What is to be kept has to be kept when
an artifact gets back its pipeline with other groups in flight, and when it gets one that has just
been made. -/
theorem ends_acquireGroup_of (id : ArtifactId)
    (hfits : ∀ a p, s.cache.get? id = some a → a.pipeline = some p →
      p.Fits s.memory a.executable.function)
    (honly : ∀ t, s.OnlyMemory t.memory t →
      (∀ j, j < s.memory.tensors.size → t.memory.tensor j = s.memory.tensor j) → R t)
    (hsame : ∀ a p (q : Pipeline TensorId) u, s.cache.get? id = some a → a.pipeline = some p →
      (∀ side, q.rows side = p.rows side) → q.Fits u.memory a.executable.function → s.Later u →
      u.cache = s.cache.update id (a.withPipeline q) → u.memory = s.memory → R u)
    (hmade : ∀ a p (q : Pipeline TensorId) t u, s.cache.get? id = some a →
      PipelineMade s a.executable.function p t → (∀ side, q.rows side = p.rows side) →
      q.Fits u.memory a.executable.function → s.Later u →
      u.cache = s.cache.update id (a.withPipeline q) → u.memory = t.memory → R u) :
    Ends (acquireGroup id s)
      (fun g t => R t ∧ ∃ a p, s.cache.get? id = some a ∧ Acquired s id a g p t)
      fun _ t => R t ∧ CannotLend s id ∧ t.outputs = s.outputs ∧
        t.memory.storages = s.memory.storages := by
  have hrefl : R s := honly s (.of_untouched (.refl s)) fun _ _ => rfl
  unfold acquireGroup
  rw [ends_bind, ends_executor, ends_bind, ends_kind]
  dsimp only
  cases hkind : s.kind.isPipelined with
  | false =>
    rw [Bool.not_false, if_pos rfl]
    exact ⟨hrefl, .inl hkind, rfl, rfl⟩
  | true =>
    rw [Bool.not_true, if_neg Bool.false_ne_true, ends_bind]
    refine ends_artifact.2 ⟨fun a ha => ?_, fun hnone => ⟨hrefl, .inr (.inl hnone), rfl, rfl⟩⟩
    cases hp : a.pipeline with
    | some p =>
      refine (ends_lend (.of_untouched (.refl s)) rfl (hfits a p ha hp)
        (fun q u => hsame a p q u ha hp) s.executor).mono (fun g t ht => ?_) fun _ t ht => ?_
      · obtain ⟨hR, q, -, hacquired⟩ := ht
        exact ⟨hR, a, q, ha, hacquired⟩
      · obtain ⟨hR, hfree, hhost⟩ := ht
        exact ⟨hR, .inr (.inr ⟨a, ha, .inr ⟨p, hp, hfree⟩⟩), hhost⟩
    | none =>
      have hpipelined : s.kind = .recording .pipelined := of_decide_eq_true hkind
      dsimp only
      rw [ends_bind]
      refine (ends_makePipeline a.executable.function hpipelined).mono (fun p t ht => ?_)
        fun _ t ht => ?_
      · refine (ends_lend ht.only ht.storages ht.fits (fun q u => hmade a p q t u ha ht)
          s.executor).mono (fun g u hu => ?_) fun _ u hu => ?_
        · obtain ⟨hR, q, -, hacquired⟩ := hu
          exact ⟨hR, a, q, ha, hacquired⟩
        · -- A pipeline that has just been made has a free group.
          have hpos := ht.pos
          have hfree := hu.2.1
          rw [ht.free, List.range_eq_nil] at hfree
          omega
      · obtain ⟨hthis, hstorages, hold, hreason⟩ := ht
        exact ⟨honly t hthis hold, .inr (.inr ⟨a, ha, .inl ⟨hp, hreason⟩⟩), hthis.outputs, hstorages⟩

end Lending

/-- **Lending a group** of an artifact whose pipeline fits its function: no two places have the same
tensor afterwards, and an executor that was sound still is. -/
theorem ends_acquireGroup (id : ArtifactId) (howns : s.cache.Owns s.memory)
    (hfits : ∀ a p, s.cache.get? id = some a → a.pipeline = some p →
      p.Fits s.memory a.executable.function) :
    Ends (acquireGroup id s)
      (fun g t => t.cache.Owns t.memory ∧ s.KeepsSound t ∧
        ∃ a p, s.cache.get? id = some a ∧ Acquired s id a g p t)
      fun _ t => s.KeepsSound t ∧ CannotLend s id ∧ t.outputs = s.outputs ∧
        t.memory.storages = s.memory.storages := by
  have hends := ends_acquireGroup_of (s := s)
    (R := fun t => t.cache.Owns t.memory ∧ s.KeepsSound t) id hfits
    (fun t ht _ => ⟨ht.cache.symm ▸ howns.of_sub ht.later.platform.memory.tensors
      fun _ _ _ h => h, ht.keepsSound⟩)
    (fun a p q u ha hp hrows hqfits hlater hcache _ => ⟨?_, fun _ h =>
      h.samePipeline hlater ha hp hrows hcache hqfits⟩)
    fun a p q t u ha ht hrows hqfits hlater hcache _ => ?_
  · exact hends.mono (fun _ _ ht => ⟨ht.1.1, ht.1.2, ht.2⟩) fun _ _ ht => ⟨ht.1.2, ht.2⟩
  · obtain ⟨hat, hapart⟩ := howns.rows_apart ha hp hrows
    exact howns.withPipeline ha hcache hlater.platform.memory.tensors hqfits
      (fun side k c x hx => .inl (hat side k c x hx)) hapart
  · have hnew : ∀ side (k c : Nat) (x : TensorId), ((q.rows side)[k]?).bind (·[c]?) = some x →
        a.tensorAt (.group side k c) = some x ∨ s.memory.tensors.size ≤ x :=
      fun side k c x hx => .inr (ht.new side k c x (hrows side ▸ hx))
    have hapart : ∀ side side' (k c k' c' : Nat) (x : TensorId),
        ((q.rows side)[k]?).bind (·[c]?) = some x → ((q.rows side')[k']?).bind (·[c']?) = some x →
        side = side' ∧ k = k' ∧ c = c' := fun side side' k c k' c' x hx hx' =>
      ht.apart side side' k c k' c' x (hrows side ▸ hx) (hrows side' ▸ hx')
    exact ⟨howns.withPipeline ha hcache hlater.platform.memory.tensors hqfits hnew hapart,
      fun _ h => h.withPipeline hlater ha hcache hqfits hnew hapart⟩

/-- **Taking a group back.** -/
theorem ends_returnGroup (s : ExecState) (id : ArtifactId) (index : Nat) :
    Ends (returnGroup id index s)
      (fun _ t => s.KeepsSound t ∧ ∃ a p q, s.cache.get? id = some a ∧ a.pipeline = some p ∧
        p.Returned index q ∧ t.cache = s.cache.update id (a.withPipeline q) ∧
        s.Later t ∧ t.outputs = s.outputs ∧ t.memory = s.memory)
      fun _ t => t = s ∧ ∀ a p, s.cache.get? id = some a → a.pipeline = some p →
        p.flags[index]? ≠ some true := by
  refine (returned_returnGroup id index).mono (fun _ t ht => ?_) fun _ t ht => ht
  obtain ⟨a, p, q, ha, hp, hr, rfl⟩ := ht
  have hlater : s.Later { s with executor.cache := s.cache.update id (a.withPipeline q) } :=
    { ExecState.Later.refl s with }
  exact ⟨fun _ h => h.samePipeline hlater ha hp hr.rows rfl ((h.pipelineFits ha hp).returned hr),
    a, p, q, ha, hp, hr, rfl, hlater, rfl, rfl⟩

end ExecM

end TensorJit
