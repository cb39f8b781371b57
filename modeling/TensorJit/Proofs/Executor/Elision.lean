import TensorJit.Proofs.Executor.Run

/-!
# Copies that are left out

On a backend with storage of its own, the copy of an input is left out when the slot of its position
last served the same buffer and the tracker vouches for the copy (`ExecState.Skips`). That is right
as long as **what the tracker vouches for is what the tensors hold** (`ExecState.Faithful`). The
tracker only knows the buffer and the artifact, though, and not the position: when a buffer is
copied for one position, copies at all other positions are vouched for with it. So a call keeps an
executor faithful only if **no buffer is given at two positions** (`ExecState.TellsApart`): the
second one would not be copied, however old its tensor is.

A call that is cut short has served the first positions only, and vouches for what it has copied
there. None of the other positions has a slot with one of these buffers, for the simple reason that
**slots are made in order** (`ExecState.Faithful.prior`): where a tensor cannot be made, there is no
slot further on.

What a call does to the artifacts of other executors is little (`ExecState.Discreet`): none of their
tensors is touched, and a buffer that changes is not vouched for any more.
-/

namespace TensorJit

open ExecState (OnlyMemory Sound Within)

/-- The tensor of an input's slot holds what the buffer holds if the tracker says so, unless the
buffer has been changed without notice. -/
structure ExecState.Faithful (D : StorageId → Prop) (s : ExecState) : Prop where
  /-- The storages of the buffers exist. -/
  live : ∀ (id : ArtifactId) (a : Artifact) (q : Nat) (slot : Slot), s.cache.get? id = some a →
    a.inputs.get? q = some slot → slot.host < s.memory.storages.size
  /-- What is vouched for is current. -/
  current : ∀ (id : ArtifactId) (a : Artifact) (q : Nat) (slot : Slot), s.cache.get? id = some a →
    a.inputs.get? q = some slot → s.executor.unit.externalInputs.contains q = false →
    ¬ D slot.host → s.platform.isFresh s.executor.tracker slot.host id = true →
    s.memory.contents slot.tensor = s.memory.storage slot.host
  /-- Slots are made in order. -/
  prior : ∀ (id : ArtifactId) (a : Artifact) (p q : Nat), s.cache.get? id = some a →
    s.executor.unit.externalInputs.contains p = false → a.inputs.get? p = none → p < q →
    a.inputs.get? q = none

/-- An artifact is not one of this executor, and will not be. -/
def ExecState.Foreign (s : ExecState) (id : ArtifactId) : Prop :=
  s.cache.get? id = none ∧ id < s.platform.nextArtifact

/-- A step leaves alone what belongs to other executors. -/
structure ExecState.Discreet (s t : ExecState) : Prop where
  /-- The executor is the same. -/
  later : s.Later t
  /-- It takes no artifact of others. -/
  foreign : ∀ id, s.Foreign id → t.cache.get? id = none
  /-- It neither touches a tensor of others nor takes it. -/
  loose : ∀ x, x < s.memory.tensors.size → (∀ i p, s.cache.tensorAt i p ≠ some x) →
    t.memory.tensor x = s.memory.tensor x ∧ ∀ i p, t.cache.tensorAt i p ≠ some x
  /-- Copies for artifacts of others are vouched for only if they were, and if the buffer has not
  changed. -/
  vouched : ∀ storage id, s.Foreign id →
    t.platform.isFresh s.executor.tracker storage id = true →
    s.platform.isFresh s.executor.tracker storage id = true ∧
      (storage < s.memory.storages.size → t.memory.storage storage = s.memory.storage storage)

/-- No buffer is given at two positions. -/
def ExecState.TellsApart (s : ExecState) (inputs : List HostBuffer) : Prop :=
  ∀ (p q : Nat) (b c : HostBuffer), inputs[p]? = some b → inputs[q]? = some c →
    s.executor.unit.externalInputs.contains p = false →
    s.executor.unit.externalInputs.contains q = false → b.storage = c.storage → p = q

namespace ExecState

variable {D : StorageId → Prop} {s t u : ExecState} {id : ArtifactId} {a : Artifact}
  {inputs : List HostBuffer} {computed : Signature.Computed} {l : Lookup}

theorem Foreign.ne (h : s.Foreign id) {i : ArtifactId} (ha : s.cache.get? i = some a) :
    id ≠ i := by
  rintro rfl
  exact absurd (h.1.symm.trans ha) nofun

theorem Foreign.of_discreet (h : s.Foreign id) (ht : s.Discreet t) : t.Foreign id :=
  ⟨ht.foreign id h, Nat.lt_of_lt_of_le h.2 ht.later.platform.nextArtifact⟩

theorem Discreet.trans (h : s.Discreet t) (h' : t.Discreet u) : s.Discreet u where
  later := h.later.trans h'.later
  foreign id hid := h'.foreign id (hid.of_discreet h)
  loose x hx hloose := by
    obtain ⟨htensor, hloose'⟩ := h.loose x hx hloose
    obtain ⟨htensor', hloose''⟩ := h'.loose x
      (Nat.lt_of_lt_of_le hx h.later.platform.memory.tensors) hloose'
    exact ⟨htensor'.trans htensor, hloose''⟩
  vouched storage id hid hfresh := by
    rw [← h.later.tracker] at hfresh
    obtain ⟨hfresh', hstorage'⟩ := h'.vouched storage id (hid.of_discreet h) hfresh
    rw [h.later.tracker] at hfresh'
    obtain ⟨hfresh'', hstorage⟩ := h.vouched storage id hid hfresh'
    refine ⟨hfresh'', fun hlt => (hstorage' ?_).trans (hstorage hlt)⟩
    exact Nat.lt_of_lt_of_le hlt h.later.platform.memory.storages

/-- A step that leaves caches and memory alone, and vouches for nothing new. -/
theorem discreet_of_eq (hlater : s.Later t) (hcache : t.cache = s.cache)
    (hmemory : t.memory = s.memory)
    (hfresh : ∀ storage id, t.platform.isFresh s.executor.tracker storage id = true →
      s.platform.isFresh s.executor.tracker storage id = true) : s.Discreet t where
  later := hlater
  foreign id hid := by
    rw [hcache]
    exact hid.1
  loose x _ hloose := ⟨by rw [hmemory], fun i p => hcache ▸ hloose i p⟩
  vouched storage id _ h := ⟨hfresh storage id h, fun _ => by rw [hmemory]⟩

theorem Faithful.of_eq (h : s.Faithful D) (hlater : s.Later t) (hcache : t.cache = s.cache)
    (hmemory : t.memory = s.memory)
    (hfresh : ∀ storage id, t.platform.isFresh s.executor.tracker storage id = true →
      s.platform.isFresh s.executor.tracker storage id = true) : t.Faithful D where
  live id a q slot ha hslot := by
    rw [hmemory]
    exact h.live id a q slot (hcache ▸ ha) hslot
  current id a q slot ha hslot hin hD hf := by
    rw [hmemory]
    rw [hlater.unit] at hin
    rw [hlater.tracker] at hf
    exact h.current id a q slot (hcache ▸ ha) hslot hin hD (hfresh _ _ hf)
  prior id a p q ha hp := by
    rw [hlater.unit] at hp
    exact h.prior id a p q (hcache ▸ ha) hp

theorem isFresh_of_registries_eq (h : t.platform.registries = s.platform.registries)
    {τ : Tracker} {storage : StorageId} (hf : t.platform.isFresh τ storage id = true) :
    s.platform.isFresh τ storage id = true := by
  unfold Platform.isFresh at hf ⊢
  rwa [h] at hf

theorem Untouched.discreet (h : s.Untouched t) : s.Discreet t :=
  discreet_of_eq h.later h.cache h.memory fun _ _ => isFresh_of_registries_eq h.registries

theorem Faithful.untouched (h : s.Faithful D) (ht : s.Untouched t) : t.Faithful D :=
  h.of_eq ht.later ht.cache ht.memory fun _ _ => isFresh_of_registries_eq ht.registries

/-! ### Finding -/

/-- Finding an executable vouches for nothing new. -/
theorem isFresh_of_found (h : ExecM.Found s computed l a t) {τ : Tracker} {storage : StorageId}
    (hf : t.platform.isFresh τ storage id = true) : s.platform.isFresh τ storage id = true := by
  rcases h.registries with heq | ⟨b, -, -, heq⟩
  · exact isFresh_of_registries_eq heq hf
  · unfold Platform.isFresh at hf ⊢
    rw [heq] at hf
    exact Tracker.isFresh_of_update_forget hf

theorem listens_of_found (h : ExecM.Found s computed l a t) :
    s.executor.tracker.Listens t.platform.registries ↔
      s.executor.tracker.Listens s.platform.registries :=
  Tracker.listens_congr h.later.platform.registries

theorem discreet_of_found (h : ExecM.Found s computed l a t) : s.Discreet t where
  later := h.later
  foreign id hid := by
    obtain ⟨hnone, hlt⟩ := hid
    refine Option.eq_none_iff_forall_ne_some.2 fun b hb => ?_
    by_cases hl : id = l.artifact
    · cases hhit : l.hit with
      | true =>
        rw [hl, h.before hhit] at hnone
        cases hnone
      | false =>
        rw [hl, (h.made hhit).1] at hlt
        exact Nat.lt_irrefl _ hlt
    · rw [h.old id b hl hb] at hnone
      cases hnone
  loose x _ hloose := ⟨by rw [h.memory], fun i p hx => hloose i p (h.tensorAt_eq_some hx)⟩
  vouched storage id _ hf := ⟨isFresh_of_found h hf, fun _ => by rw [h.memory]⟩

/-- An artifact that has just been found has no slots that it did not have. -/
theorem get?_of_found (h : ExecM.Found s computed l a t) {b : Artifact} {q : Nat} {slot : Slot}
    (hb : t.cache.get? id = some b) (hslot : b.inputs.get? q = some slot) :
    s.cache.get? id = some b := by
  by_cases hl : id = l.artifact
  · subst hl
    obtain rfl := Option.some.inj (h.found.symm.trans hb)
    cases hhit : l.hit with
    | true => exact h.before hhit
    | false =>
      obtain ⟨-, -, -, hnew⟩ := h.made hhit
      rw [hnew] at hslot
      cases hslot
  · exact h.old id b hl hb

theorem Faithful.found (hs : s.Faithful D) (h : ExecM.Found s computed l a t) : t.Faithful D := by
  refine ⟨fun id b q slot hb hslot => ?_, fun id b q slot hb hslot hin hD hf => ?_,
    fun id b p q hb hp hnone hlt => Option.eq_none_iff_forall_ne_some.2 fun slot hslot => ?_⟩
  · rw [h.memory]
    exact hs.live id b q slot (get?_of_found h hb hslot) hslot
  · rw [h.later.unit] at hin
    rw [h.later.tracker] at hf
    rw [h.memory]
    exact hs.current id b q slot (get?_of_found h hb hslot) hslot hin hD (isFresh_of_found h hf)
  · rw [h.later.unit] at hp
    exact absurd (hslot.symm.trans
      (hs.prior id b p q (get?_of_found h hb hslot) hp hnone hlt)) nofun

/-! ### Output buffers -/

/-- Storages are made for the output buffers, and no other has changed. -/
theorem discreet_prepared (s : ExecState) (specs : List TensorSpec) : s.Discreet (s.prepared specs) :=
  have hrefitted := s.refitted_prepared specs
  { later := s.later_prepared specs
    foreign := fun _ hid => hid.1
    loose := fun x _ hloose => ⟨by unfold Memory.tensor; rw [hrefitted.tensors], hloose⟩
    vouched := fun storage _ _ hf => ⟨hf, hrefitted.storages storage⟩ }

/-- On a backend with storage of its own, what the tensor of a slot holds depends on the tensor
only. -/
theorem AtHome.contents_eq (h : s.AtHome) (hown : s.kind.isHostBound = false)
    (ha : s.cache.get? id = some a) {q : Nat} {slot : Slot} (hslot : a.inputs.get? q = some slot)
    {m : Memory} (hm : m.tensor slot.tensor = s.memory.tensor slot.tensor) :
    m.contents slot.tensor = s.memory.contents slot.tensor := by
  have hhome := ((h id a ha).slots .input q slot hslot).home
  unfold homeFor at hhome
  rw [if_neg (by rw [hown]; exact Bool.false_ne_true)] at hhome
  exact Memory.contents_eq_of_home_own hhome hm

theorem Faithful.prepared (h : s.Faithful D) (hhome : s.AtHome)
    (hown : s.kind.isHostBound = false) (specs : List TensorSpec) :
    (s.prepared specs).Faithful D := by
  have hrefitted := s.refitted_prepared specs
  refine ⟨fun id b q slot hb hslot => ?_, fun id b q slot hb hslot hin hD hf => ?_, h.prior⟩
  · exact Nat.lt_of_lt_of_le (h.live id b q slot hb hslot) hrefitted.size
  · rw [hhome.contents_eq hown hb hslot (by unfold Memory.tensor; rw [hrefitted.tensors]),
      hrefitted.storages _ (h.live id b q slot hb hslot)]
    exact h.current id b q slot hb hslot hin hD hf

end ExecState

/-- **What a faithful executor leaves out is current**, if no buffer is given at two positions. -/
theorem ExecState.Faithful.skipsCurrent {s : ExecState} {id : ArtifactId} {a : Artifact}
    {inputs : List HostBuffer} (hs : s.Faithful fun _ => False) (ha : s.cache.get? id = some a)
    (htells : s.TellsApart inputs) : s.SkipsCurrent id a inputs := by
  rintro q host x hhost hslot hin ⟨-, b, old, hb, -, hfresh | ⟨-, p, hp, c, hc, hin', hstorage⟩⟩
  · obtain rfl := Option.some.inj (hhost.symm.trans hb)
    exact hs.current id a q _ ha hslot hin nofun hfresh
  · -- The buffer would have been given at an earlier position as well.
    obtain rfl := Option.some.inj (hhost.symm.trans hb)
    exact absurd (htells p q c host hc hhost hin' hin hstorage) (Nat.ne_of_lt hp)

/-! ### Serving -/

section Staged

variable {δ : Nat → DType} {s t : ExecState} {id : ArtifactId} {a : Artifact}
  {inputs : List HostBuffer} {ins outs : List (Option TensorId)} {slots slots' : SlotTable}

/-- A slot after serving is one of another artifact, as it was, or one of the artifact served. -/
theorem Staged.slot_cases (h : Staged s id a inputs ins slots outs slots' t)
    (ha : s.cache.get? id = some a) {i : ArtifactId} {b : Artifact} {q : Nat} {slot : Slot}
    (hb : t.cache.get? i = some b) (hslot : b.inputs.get? q = some slot) :
    i ≠ id ∧ s.cache.get? i = some b ∨ i = id ∧ slots.get? q = some slot := by
  rw [h.cache_eq, Cache.get?_update, ha] at hb
  split at hb
  · rename_i hi
    obtain rfl := Option.some.inj hb
    exact .inr ⟨hi, hslot⟩
  · rename_i hi
    exact .inl ⟨hi, hb⟩

/-- A position that has been served has a slot with the tensor that the call gets. -/
theorem Staged.served (h : Staged s id a inputs ins slots outs slots' t)
    (hle : ins.length ≤ inputs.length) {q : Nat} (hq : q < ins.length)
    (hin : s.executor.unit.externalInputs.contains q = false) :
    ∃ host slot, inputs[q]? = some host ∧ ins[q]? = some (some slot.tensor) ∧
      slots.get? q = some slot ∧ slot.host = host.storage := by
  have hhost : inputs[q]? = some _ := List.getElem?_eq_getElem (Nat.lt_of_lt_of_le hq hle)
  obtain ⟨r, hr, -, -⟩ := h
  obtain ⟨x, hx, hxslot⟩ := hr.served q _ hq hhost hin
  exact ⟨_, _, hhost, hx, hxslot, rfl⟩

/-- A slot of the artifact has been served in this call, or is as it was. -/
theorem Staged.served_or_rest (h : Staged s id a inputs ins slots outs slots' t)
    (hle : ins.length ≤ inputs.length) {q : Nat} {slot : Slot}
    (hin : s.executor.unit.externalInputs.contains q = false) (hslot : slots.get? q = some slot) :
    (∃ host, inputs[q]? = some host ∧ ins[q]? = some (some slot.tensor) ∧
      slot.host = host.storage) ∨ ins.length ≤ q ∧ a.inputs.get? q = some slot := by
  rcases Nat.lt_or_ge q ins.length with hlt | hge
  · obtain ⟨host, slot', hhost, hx, hslot', heq⟩ := h.served hle hlt hin
    obtain rfl := Option.some.inj (hslot.symm.trans hslot')
    exact .inl ⟨host, hhost, hx, heq⟩
  · rw [h.rest (.inl hge)] at hslot
    exact .inr ⟨hge, hslot⟩

/-- A slot that has not been served is at no position of the call: there is no input for it, or
there are no slots from the one on for which a tensor has to be made. -/
theorem slot_rest_eq_none (hs : s.Faithful fun _ => False) (hsound : Sound δ s)
    (hexpects : s.executor.Expects δ a (inputs.map (·.spec))) (hown : s.kind.isHostBound = false)
    (ha : s.cache.get? id = some a) {n q : Nat}
    (hall : n = inputs.length ∨ s.Vacant a n) (hge : n ≤ q) : a.inputs.get? q = none := by
  refine Option.eq_none_iff_forall_ne_some.2 fun slot hslot => ?_
  rcases hall with hall | ⟨hvacant, hnone⟩
  · obtain ⟨spec, hspec, -⟩ := (hsound.fits _ a _ ha hexpects).slots .input q slot hslot
    have hlt := (List.getElem?_eq_some_iff.1 hspec).1
    change q < (inputs.map (·.spec)).length at hlt
    rw [List.length_map] at hlt
    omega
  · rcases Nat.eq_or_lt_of_le hge with heq | hlt
    · subst heq
      exact absurd (hslot.symm.trans (hnone hown)) nofun
    · exact absurd (hslot.symm.trans (hs.prior id a n q ha hvacant (hnone hown) hlt)) nofun

/-- After serving, every slot remembers a buffer that exists. -/
theorem Staged.slots_live (h : Staged s id a inputs ins slots outs slots' t)
    (ha : s.cache.get? id = some a) (hs : s.Faithful fun _ => False)
    (hlive : ∀ b ∈ inputs, b.storage < s.memory.storages.size) (hle : ins.length ≤ inputs.length)
    {i : ArtifactId} {b : Artifact} {q : Nat} {slot : Slot} (hb : t.cache.get? i = some b)
    (hslot : b.inputs.get? q = some slot) : slot.host < t.memory.storages.size := by
  rw [h.storages_eq]
  rcases h.slot_cases ha hb hslot with ⟨-, hb⟩ | ⟨rfl, hslot⟩
  · exact hs.live i b q slot hb hslot
  cases hin : s.executor.unit.externalInputs.contains q with
  | true =>
    rw [h.rest (.inr hin)] at hslot
    exact hs.live i a q slot ha hslot
  | false =>
    rcases h.served_or_rest hle hin hslot with ⟨host, hhost, -, heq⟩ | ⟨-, hold⟩
    · rw [heq]
      exact hlive host (List.mem_of_getElem? hhost)
    · exact hs.live i a q slot ha hold

/-- **After serving, every copy that counts as fresh is current.** -/
theorem Staged.slots_current (h : Staged s id a inputs ins slots outs slots' t)
    (ha : s.cache.get? id = some a) (hsound : Sound δ s)
    (hexpects : s.executor.Expects δ a (inputs.map (·.spec))) (hown : s.kind.isHostBound = false)
    (hs : s.Faithful fun _ => False) (htells : s.TellsApart inputs)
    (hle : ins.length ≤ inputs.length) (hall : ins.length = inputs.length ∨ s.Vacant a ins.length)
    {i : ArtifactId} {b : Artifact} {q : Nat} {slot : Slot} (hb : t.cache.get? i = some b)
    (hslot : b.inputs.get? q = some slot)
    (hin : t.executor.unit.externalInputs.contains q = false)
    (hf : t.platform.isFresh t.executor.tracker slot.host i = true) :
    t.memory.contents slot.tensor = t.memory.storage slot.host := by
  have hstorage : t.memory.storage slot.host = s.memory.storage slot.host := by
    unfold Memory.storage
    rw [h.storages_eq]
  rw [h.later.unit] at hin
  rw [h.later.tracker, h.fresh_iff] at hf
  rw [hstorage]
  rcases h.slot_cases ha hb hslot with ⟨hi, hb⟩ | ⟨rfl, hslot⟩
  · have hbefore : s.platform.isFresh s.executor.tracker slot.host i = true :=
      hf.resolve_right fun hmarked => hi hmarked.2.2.1
    have hat : s.cache.tensorAt i (.slot .input q) = some slot.tensor :=
      Cache.tensorAt_slot hb hslot
    rw [hsound.atHome.contents_eq hown hb hslot
      (h.within.kept i (.slot .input q) slot.tensor (fun hmem => hi hmem.1) hat)]
    exact hs.current i b q slot hb hslot hin nofun hbefore
  rcases h.served_or_rest hle hin hslot with ⟨host, hhost, hx, heq⟩ | ⟨hge, hold⟩
  · rw [heq]
    exact h.contents_eq_storage ha (hs.skipsCurrent ha htells) hhost hx
  · exact absurd (hold.symm.trans (slot_rest_eq_none hs hsound hexpects hown ha hall hge)) nofun

/-- After serving, no slot comes after one that is missing. -/
theorem Staged.slots_prior (h : Staged s id a inputs ins slots outs slots' t)
    (ha : s.cache.get? id = some a) (hs : s.Faithful fun _ => False)
    (hle : ins.length ≤ inputs.length) {i : ArtifactId} {b : Artifact} {p q : Nat}
    (hb : t.cache.get? i = some b) (hp : t.executor.unit.externalInputs.contains p = false)
    (hnone : b.inputs.get? p = none) (hlt : p < q) : b.inputs.get? q = none := by
  refine Option.eq_none_iff_forall_ne_some.2 fun slot hslot => ?_
  rw [h.later.unit] at hp
  rw [h.cache_eq, Cache.get?_update, ha] at hb
  split at hb
  · rename_i hi
    subst hi
    obtain rfl := Option.some.inj hb
    change slots.get? p = none at hnone
    change slots.get? q = some slot at hslot
    rcases Nat.lt_or_ge p ins.length with hserved | hrest
    · obtain ⟨_, _, -, -, hslot', -⟩ := h.served hle hserved hp
      exact absurd (hslot'.symm.trans hnone) nofun
    · rw [h.rest (.inl hrest)] at hnone
      rw [h.rest (.inl (by omega))] at hslot
      exact absurd (hslot.symm.trans (hs.prior i a p q ha hp hnone hlt)) nofun
  · exact absurd (hslot.symm.trans (hs.prior i b p q hb hp hnone hlt)) nofun

/-- **Serving keeps an executor faithful**, if all inputs are served, or all up to one for which a
tensor has to be made. -/
theorem Staged.faithful (h : Staged s id a inputs ins slots outs slots' t)
    (hp : Poised s id a inputs) (hsound : Sound δ s)
    (hexpects : s.executor.Expects δ a (inputs.map (·.spec))) (hown : s.kind.isHostBound = false)
    (hs : s.Faithful fun _ => False) (htells : s.TellsApart inputs)
    (hlive : ∀ b ∈ inputs, b.storage < s.memory.storages.size) (hle : ins.length ≤ inputs.length)
    (hall : ins.length = inputs.length ∨ s.Vacant a ins.length) :
    t.Faithful fun _ => False where
  live _ _ _ _ hb hslot := h.slots_live hp.found hs hlive hle hb hslot
  current _ _ _ _ hb hslot hin _ hf :=
    h.slots_current hp.found hsound hexpects hown hs htells hle hall hb hslot hin hf
  prior _ _ _ _ hb hpos hnone hlt := h.slots_prior hp.found hs hle hb hpos hnone hlt

/-- Serving is discreet. -/
theorem Staged.discreet (h : Staged s id a inputs ins slots outs slots' t)
    (ha : s.cache.get? id = some a) : s.Discreet t where
  later := h.later
  foreign i hi := by
    rw [h.cache_eq, Cache.get?_update, if_neg (hi.ne ha)]
    exact hi.1
  loose := h.within.loose
  vouched storage i hi hf := by
    rw [h.fresh_iff] at hf
    refine ⟨hf.resolve_right ?_, fun _ => by unfold Memory.storage; rw [h.storages_eq]⟩
    rintro ⟨-, -, heq, -⟩
    exact hi.ne ha heq

end Staged

/-! ### Calling -/

section Called

variable {δ : Nat → DType} {s t u v : ExecState} {id : ArtifactId} {a : Artifact}
  {inputs : List HostBuffer} {ins outs : List (Option TensorId)} {slots slots' : SlotTable}

/-- **What happens to the tensors of the results** concerns no input, and no other executor, if what
is vouched for afterwards has not changed. -/
theorem Staged.faithful_of_call (h : Staged s id a inputs ins slots outs slots' t)
    (hp : Poised s id a inputs) (hsound : Sound δ s)
    (hexpects : s.executor.Expects δ a (inputs.map (·.spec))) (hown : s.kind.isHostBound = false)
    (hins : ins.length ≤ inputs.length) (houts : outs.length ≤ s.outputs.buffers.length)
    (ht : t.Faithful fun _ => False) (hlater : t.Later u) (hcache : u.cache = t.cache)
    (htensors : ∀ x, some x ∉ outs → u.memory.tensor x = t.memory.tensor x)
    (hvouched : ∀ storage i, u.platform.isFresh t.executor.tracker storage i = true →
      t.platform.isFresh t.executor.tracker storage i = true ∧
        u.memory.storage storage = t.memory.storage storage) :
    (u.Faithful fun _ => False) ∧ t.Discreet u := by
  have hat : ∀ x, some x ∈ outs → ∃ p, t.cache.tensorAt id (.slot .output p) = some x := by
    intro x hx
    obtain ⟨p, hp'⟩ := List.getElem?_of_mem hx
    obtain ⟨-, -, hat, -⟩ := h.output hp.found houts hp'
    exact ⟨p, hat⟩
  have hsound' : Sound δ t := h.sound hp hsound hexpects hins houts
  refine ⟨⟨fun i b q slot hb hslot => ?_, fun i b q slot hb hslot hin _ hf => ?_,
    fun i b p q hb hp' => ?_⟩, hlater, fun i hi => ?_,
    fun x _ hloose => ⟨htensors x fun hx => ?_, fun i p => ?_⟩,
    fun storage i _ hf => ?_⟩
  · exact Nat.lt_of_lt_of_le (ht.live i b q slot (hcache ▸ hb) hslot)
      hlater.platform.memory.storages
  · rw [hcache] at hb
    rw [hlater.unit] at hin
    rw [hlater.tracker] at hf
    obtain ⟨hf, hstorage⟩ := hvouched _ _ hf
    have hplace : t.cache.tensorAt i (.slot .input q) = some slot.tensor :=
      Cache.tensorAt_slot hb hslot
    -- No tensor is at two places, so that of an input is not written by the call.
    have hnot : some slot.tensor ∉ outs := fun hmem => by
      obtain ⟨p, hout⟩ := hat _ hmem
      exact nomatch (Place.slot.inj (hsound'.owns.apart _ _ _ _ _ hplace hout).2).1
    rw [hstorage, hsound'.atHome.contents_eq (h.later.kind_eq ▸ hown) hb hslot (htensors _ hnot)]
    exact ht.current i b q slot hb hslot hin nofun hf
  · rw [hlater.unit] at hp'
    exact ht.prior i b p q (hcache ▸ hb) hp'
  · rw [hcache]
    exact hi.1
  · obtain ⟨p, hout⟩ := hat x hx
    exact hloose _ _ hout
  · rw [hcache]
    exact hloose i p
  · obtain ⟨hf, hstorage⟩ := hvouched storage i hf
    exact ⟨hf, fun _ => hstorage⟩

/-- **After a call**, what has been written is not vouched for. -/
theorem ExecM.RanOnSlots.faithful (h : RanOnSlots s id a inputs ins outs t v)
    (hp : Poised s id a inputs) (hsound : Sound δ s)
    (hexpects : s.executor.Expects δ a (inputs.map (·.spec))) (hown : s.kind.isHostBound = false)
    (ht : t.Faithful fun _ => False) (hu : Concluded v u) :
    (u.Faithful fun _ => False) ∧ t.Discreet u := by
  obtain ⟨slots, slots', hins, houts, hstaged⟩ := h.staged
  have hequipped := hstaged.equipped hp houts
  have haffected := h.affected
  refine hstaged.faithful_of_call hp hsound hexpects hown (Nat.le_of_eq hins)
    (Nat.le_of_eq houts) ht
    (haffected.only.later.trans hu.later) (hu.cache.trans haffected.only.cache) (fun x hx => ?_)
    fun storage i hf => ?_
  · rw [hu.memory]
    exact haffected.others x hx
  · rw [← haffected.only.later.tracker, hu.fresh] at hf
    obtain ⟨hf, hne⟩ := hf
    rw [haffected.only.later.tracker] at hf
    refine ⟨ExecState.isFresh_of_registries_eq haffected.only.registries hf, ?_⟩
    rw [hu.memory]
    refine haffected.storages storage fun p x b hx hb => hne p b ?_ ?_
    · rw [haffected.only.outputs]
      exact hb
    · rw [haffected.only.later.unit, hequipped.later.unit]
      exact (hequipped.wanted p b (hequipped.outputs ▸ hb)).1 ⟨x, hx⟩

/-- **After a call that has failed**, nothing has been written to the host. -/
theorem ExecM.FailedOnSlots.faithful (h : FailedOnSlots s id a inputs u)
    (hp : Poised s id a inputs) (hsound : Sound δ s)
    (hexpects : s.executor.Expects δ a (inputs.map (·.spec))) (hown : s.kind.isHostBound = false)
    (hs : s.Faithful fun _ => False) (htells : s.TellsApart inputs)
    (hlive : ∀ b ∈ inputs, b.storage < s.memory.storages.size) :
    (u.Faithful fun _ => False) ∧ s.Discreet u := by
  obtain ⟨ins, slots, outs, slots', t, hins, houts, hstaged, hcalled, -⟩ := h
  have ht := hstaged.faithful hp hsound hexpects hown hs htells hlive (Nat.le_of_eq hins)
    (.inl hins)
  have hequipped := hstaged.equipped hp houts
  have hcall := hstaged.faithful_of_call hp hsound hexpects hown (Nat.le_of_eq hins)
    (Nat.le_of_eq houts) ht hcalled.only.later hcalled.only.cache hcalled.rewritten.tensors
    fun storage i hf =>
      ⟨ExecState.isFresh_of_registries_eq hcalled.only.registries hf,
        hcalled.storages_of_own hequipped.offered (hstaged.later.kind_eq ▸ hown) storage⟩
  exact ⟨hcall.1, (hstaged.discreet hp.found).trans hcall.2⟩

end Called

/-! ### The whole call -/

namespace ExecM

variable {δ : Nat → DType} {s t : ExecState} {inputs : List HostBuffer}
  {computed : Signature.Computed} {l : Lookup} {a : Artifact}

/-- An executor tells buffers apart by its unit. -/
theorem tellsApart_of_later (h : s.TellsApart inputs) (hlater : s.Later t) : t.TellsApart inputs := by
  unfold ExecState.TellsApart
  rw [hlater.unit]
  exact h

/-- When the executable has been found and the output buffers are ready, the executor is still
faithful. -/
theorem FoundFor.faithful (hfor : FoundFor s inputs l a t) (hhome : s.AtHome)
    (hown : s.kind.isHostBound = false) (hs : s.Faithful fun _ => False) :
    ((t.prepared a.executable.function.results).Faithful fun _ => False) ∧
      s.Discreet (t.prepared a.executable.function.results) := by
  obtain ⟨computed, -, hfound⟩ := hfor
  have hown' : t.kind.isHostBound = false := by rw [hfound.later.kind_eq, hown]
  constructor
  · exact (hs.found hfound).prepared (hfound.atHome hhome) hown' _
  · exact (ExecState.discreet_of_found hfound).trans (t.discreet_prepared _)

/-- When the executable has been found and the output buffers are ready, no more copies are left out
than would have been before, and they are as current. -/
theorem FoundFor.skipsCurrent (hfor : FoundFor s inputs l a t) (hhome : s.AtHome)
    (hbuffers : InOrder s inputs)
    (hcurrent : l.hit = true → s.SkipsCurrent l.artifact a inputs) :
    (t.prepared a.executable.function.results).SkipsCurrent l.artifact a inputs := by
  obtain ⟨computed, hcompute, hfound⟩ := hfor
  have hlater := hfound.later.trans (t.later_prepared a.executable.function.results)
  have hrefitted := t.refitted_prepared a.executable.function.results
  rintro q host x hhost hslot hin ⟨hown, b, old, hb, hold, hvouched⟩
  cases hhit : l.hit with
  | false =>
    -- An artifact that has just been made has no slots.
    obtain ⟨-, -, -, hnew⟩ := hfound.made hhit
    rw [hnew] at hslot
    cases hslot
  | true =>
    rw [hlater.kind_eq] at hown
    rw [hlater.unit] at hin
    rw [hlater.tracker] at hvouched
    have hcontents : (t.prepared a.executable.function.results).memory.contents x =
        s.memory.contents x := by
      refine hhome.contents_eq hown (hfound.before hhit) hslot ?_
      unfold Memory.tensor
      rw [hrefitted.tensors, hfound.memory]
    have hstorage : (t.prepared a.executable.function.results).memory.storage host.storage =
        s.memory.storage host.storage := by
      rw [hrefitted.storages _ (hfound.memory ▸ hbuffers.live host (List.mem_of_getElem? hhost)),
        hfound.memory]
    rw [hcontents, hstorage]
    refine hcurrent hhit q host x hhost hslot hin ⟨hown, b, old, hb, hold, hvouched.imp
      (ExecState.isFresh_of_found hfound) fun ⟨hlistens, hserved⟩ =>
        ⟨(ExecState.listens_of_found hfound).1 hlistens, ?_⟩⟩
    unfold ExecState.ServedBefore at hserved ⊢
    rwa [hlater.unit] at hserved

/-- **A call keeps an executor faithful**, and leaves alone what belongs to others. -/
theorem ends_execute_faithful (h : Sound δ s) (hpresented : Presented δ s inputs)
    (hdevice : s.kind = .recording .device) (hs : s.Faithful fun _ => False)
    (htells : s.TellsApart inputs) :
    Ends (execute inputs s) (fun _ u => (u.Faithful fun _ => False) ∧ s.Discreet u)
      fun _ u => (u.Faithful fun _ => False) ∧ s.Discreet u := by
  have hpipelined : s.kind.isPipelined = false := by
    rw [hdevice]
    rfl
  have hbound : s.kind.isHostBound = false := by
    rw [hdevice]
    rfl
  -- What is known when the executable has been found and the output buffers are ready.
  have hready : ∀ {l a t}, FoundFor s inputs l a t →
      Poised (t.prepared a.executable.function.results) l.artifact a inputs ∧
      Sound δ (t.prepared a.executable.function.results) ∧
      (t.prepared a.executable.function.results).executor.Expects δ a (inputs.map (·.spec)) ∧
      (t.prepared a.executable.function.results).kind.isHostBound = false ∧
      ((t.prepared a.executable.function.results).Faithful fun _ => False) ∧
      (t.prepared a.executable.function.results).TellsApart inputs ∧
      (∀ b ∈ inputs, b.storage <
        (t.prepared a.executable.function.results).memory.storages.size) ∧
      s.Discreet (t.prepared a.executable.function.results) := by
    intro l a t hfor
    obtain ⟨hf, hdiscreet⟩ := hfor.faithful h.atHome hbound hs
    obtain ⟨computed, hcompute, hfound⟩ := hfor
    obtain ⟨hsound, hexpects, -⟩ := hpresented.prepared h hcompute hfound
    refine ⟨hpresented.poised h.owns h.atHome hfound, hsound, hexpects, ?_, hf,
      tellsApart_of_later htells hdiscreet.later, fun b hb => ?_, hdiscreet⟩
    · rw [hdiscreet.later.kind_eq, hbound]
    · exact Nat.lt_of_lt_of_le (hpresented.live b hb) hdiscreet.later.platform.memory.storages
  refine (ends_execute h hpresented fun hkind => ?_).mono (fun r u hu => ?_) fun e u hu => ?_
  · rw [hpipelined] at hkind
    cases hkind
  · obtain ⟨l, a, t, v, hfor, -, -, hperformed, hconcluded⟩ := hu
    obtain ⟨hp, hsound, hexpects, hown, hf, ha, hlive, hdiscreet⟩ := hready hfor
    cases hperformed with
    | slots hkind ins outs t' hran =>
      obtain ⟨slots, slots', hins, houts, hstaged⟩ := hran.staged
      have ht := hstaged.faithful hp hsound hexpects hown hf ha hlive (Nat.le_of_eq hins)
        (.inl hins)
      obtain ⟨hu, hcall⟩ := hran.faithful hp hsound hexpects hown ht hconcluded
      exact ⟨hu, (hdiscreet.trans (hstaged.discreet hp.found)).trans hcall⟩
    | group hkind =>
      rw [hdiscreet.later.kind_eq, hpipelined] at hkind
      cases hkind
  · rcases hu with ⟨huntouched, -⟩ | ⟨l, a, t, hfor, ⟨-, rfl⟩ | hnot⟩
    · exact ⟨hs.untouched huntouched, huntouched.discreet⟩
    · obtain ⟨computed, -, hfound⟩ := hfor
      exact ⟨hs.found hfound, ExecState.discreet_of_found hfound⟩
    · obtain ⟨hp, hsound, hexpects, hown, hf, ha, hlive, hdiscreet⟩ := hready hfor
      cases hnot with
      | interrupted hkind hstopped =>
        obtain ⟨ins, slots, outs, slots', hle, -, hall, hstaged⟩ := hstopped
        exact ⟨hstaged.faithful hp hsound hexpects hown hf ha hlive hle hall,
          hdiscreet.trans (hstaged.discreet hp.found)⟩
      | slots hkind hfailed =>
        obtain ⟨hu, hcall⟩ := hfailed.faithful hp hsound hexpects hown hf ha hlive
        exact ⟨hu, hdiscreet.trans hcall⟩
      | notLent hkind =>
        rw [hdiscreet.later.kind_eq, hpipelined] at hkind
        cases hkind
      | group hkind =>
        rw [hdiscreet.later.kind_eq, hpipelined] at hkind
        cases hkind

/-! ### What is passed to the executable -/

/-- What a call with tensors from slots does before it calls its executable: it finds the
executable, makes the output buffers ready, and serves every position. -/
def present (inputs : List HostBuffer) : ExecM (Lookup × Allocation × Allocation) := do
  let found ← getExecutable inputs
  let expected := found.executable.function.parameters.length
  if inputs.length ≠ expected then fail (.inputCount expected inputs.length)
  prepareOutputs found.executable.function.results
  let tensors ← stage found.artifact inputs
  return (found, tensors)

/-- What it does from then on. -/
def conclude (found : Lookup) (ins outs : Allocation) : ExecM Report := do
  let report ← finish found ins outs
  invalidateOutputs
  count fun c => { c with executions := c.executions + 1 }
  return report

/-- **A call with tensors from slots is in these two parts.** -/
theorem execute_eq_present (hkind : s.kind.isPipelined = false) :
    execute inputs s = (present inputs >>= fun p => conclude p.1 p.2.1 p.2.2) s := by
  have hfind := (keeps_getExecutable inputs : Keeps ExecState.Later _) s
  unfold execute present conclude
  simp only [runOnSlots_eq, bind_assoc]
  change EStateM.bind (getExecutable inputs) _ s = EStateM.bind (getExecutable inputs) _ s
  unfold EStateM.bind
  cases hget : getExecutable inputs s with
  | error e t => rfl
  | ok l t =>
    have hlater : s.Later t := hfind.ok hget
    have hprepared : (t.prepared l.executable.function.results).kind.isPipelined = false := by
      rw [(t.later_prepared _).kind_eq, hlater.kind_eq, hkind]
    dsimp only
    by_cases hcount : inputs.length ≠ l.executable.function.parameters.length
    · rw [if_pos hcount, if_pos hcount]
      rfl
    · rw [if_neg hcount, if_neg hcount]
      simp only [bind_assoc, pure_bind]
      change (if (t.prepared l.executable.function.results).kind.isPipelined = true then _ else _ :
        ExecM Report) (t.prepared l.executable.function.results) = _
      rw [hprepared, if_neg Bool.false_ne_true]
      rfl

/-- What a call has when it calls its executable. -/
theorem ends_present {δ : Nat → DType} (h : Sound δ s) (hpresented : Presented δ s inputs) :
    Ends (present inputs s)
      (fun p u => ∃ a t, FoundFor s inputs p.1 a t ∧ p.2.1.tensors.length = inputs.length ∧
        ∃ slots slots', Staged (t.prepared a.executable.function.results) p.1.artifact a inputs
          p.2.1.tensors slots p.2.2.tensors slots' u) fun _ _ => True := by
  unfold present
  rw [ends_bind]
  refine (ends_getExecutable h.compiled inputs).mono (fun l t ht => ?_) fun _ _ _ => trivial
  obtain ⟨computed, a, hcompute, hfound⟩ := ht
  have hrest : Ends ((do
      prepareOutputs l.executable.function.results
      let tensors ← stage l.artifact inputs
      return (l, tensors)) t)
      (fun p u => ∃ a t, FoundFor s inputs p.1 a t ∧ p.2.1.tensors.length = inputs.length ∧
        ∃ slots slots', Staged (t.prepared a.executable.function.results) p.1.artifact a inputs
          p.2.1.tensors slots p.2.2.tensors slots' u) fun _ _ => True := by
    rw [ends_bind, ends_prepareOutputs, ends_bind, hfound.executable]
    obtain ⟨-, -, hslots⟩ := hpresented.prepared h hcompute hfound
    refine (ends_stage (hpresented.poised h.owns h.atHome hfound) hslots).mono (fun w u hu => ?_)
      fun _ _ _ => trivial
    obtain ⟨slots, slots', hins, -, hstaged⟩ := hu
    exact ⟨a, t, ⟨computed, hcompute, hfound⟩, hins, slots, slots', hstaged⟩
  dsimp only
  split
  · rw [ends_bind, ends_fail]
    exact trivial
  · exact hrest

end ExecM

end TensorJit
