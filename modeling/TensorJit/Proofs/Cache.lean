import TensorJit.Cache.Basic
import TensorJit.Proofs.SortedMap

/-!
# The cache stays consistent

The three parts of a cache say the same thing three times (`Cache.Agrees`): every artifact
is kept under its own identity, the index leads to it from its signature and to nothing else,
and the order lists the signatures of the index once each. What is done to a cache keeps this up,
whether or not there is room, and whether or not a signature is there already:

| | the order afterwards |
|---|---|
| `Cache.lookup` that finds something | the signature in front |
| `Cache.update` that keeps identity and signature | as before |
| `Cache.insert` of a new identity | the signature in front, and not where it was |
| `Cache.evict` | the last signature gone |

An executor evicts before it inserts into a full cache, so its cache has besides not more artifacts
than are allowed (`Cache.Consistent`).
-/

namespace TensorJit.Cache

variable {c d : Cache} {a : Artifact} {id : ArtifactId} {σ τ : Signature}

/-- Artifacts, index and order agree, and there are not more artifacts than allowed. -/
structure Consistent (c : Cache) : Prop where
  /-- At least one artifact is allowed. -/
  depth_pos : 1 ≤ c.depth
  /-- The index leads to an artifact of the signature. -/
  indexed : ∀ σ id, c.index.get? σ = some id → ∃ a, c.get? id = some a ∧ a.signature = σ
  /-- An artifact is kept under its identity, and the index leads to it. -/
  kept : ∀ id a, c.get? id = some a → a.id = id ∧ c.index.get? a.signature = some id
  /-- No signature is listed twice. -/
  nodup : c.order.Nodup
  /-- The order lists the signatures of the index. -/
  listed : ∀ σ, σ ∈ c.order ↔ (c.index.get? σ).isSome
  /-- There are as many artifacts as signatures. -/
  size_eq : c.size = c.order.length
  /-- There are not more artifacts than allowed. -/
  size_le : c.size ≤ c.depth

/-- Artifacts, index and order agree, however many artifacts are allowed. -/
structure Agrees (c : Cache) : Prop where
  /-- The index leads to an artifact of the signature. -/
  indexed : ∀ σ id, c.index.get? σ = some id → ∃ a, c.get? id = some a ∧ a.signature = σ
  /-- An artifact is kept under its identity, and the index leads to it. -/
  kept : ∀ id a, c.get? id = some a → a.id = id ∧ c.index.get? a.signature = some id
  /-- No signature is listed twice. -/
  nodup : c.order.Nodup
  /-- The order lists the signatures of the index. -/
  listed : ∀ σ, σ ∈ c.order ↔ (c.index.get? σ).isSome
  /-- There are as many artifacts as signatures. -/
  size_eq : c.size = c.order.length

/-- **Consistent** is that the parts agree, and that there are not more artifacts than allowed. -/
theorem consistent_iff : c.Consistent ↔ c.Agrees ∧ 1 ≤ c.depth ∧ c.size ≤ c.depth := by
  constructor
  · exact fun h => ⟨⟨h.indexed, h.kept, h.nodup, h.listed, h.size_eq⟩, h.depth_pos, h.size_le⟩
  · rintro ⟨h, hpos, hle⟩
    exact ⟨hpos, h.indexed, h.kept, h.nodup, h.listed, h.size_eq, hle⟩

theorem Consistent.agrees (h : c.Consistent) : c.Agrees := (consistent_iff.1 h).1

theorem agrees_new (depth : Nat) : (new depth).Agrees where
  indexed _ _ h := by cases h
  kept _ _ h := by cases h
  nodup := List.nodup_nil
  listed _ := ⟨nofun, nofun⟩
  size_eq := rfl

theorem consistent_new (depth : Nat) : (new depth).Consistent :=
  consistent_iff.2 ⟨agrees_new depth, Nat.le_max_right depth 1, Nat.zero_le _⟩

/-- Two signatures do not lead to one artifact. -/
theorem Agrees.index_injective (h : c.Agrees) (hσ : c.index.get? σ = some id)
    (hτ : c.index.get? τ = some id) : σ = τ := by
  obtain ⟨a, ha, rfl⟩ := h.indexed σ id hσ
  obtain ⟨b, hb, rfl⟩ := h.indexed τ id hτ
  rw [Option.some.inj (ha.symm.trans hb)]

/-- A full cache lists something. -/
theorem Consistent.order_ne_nil (h : c.Consistent) (hfull : c.isFull = true) : c.order ≠ [] := by
  intro hnil
  have hle : c.depth ≤ c.size := by simpa [isFull] using hfull
  have hzero : c.size = 0 := by rw [h.size_eq, hnil, List.length_nil]
  have := h.depth_pos
  omega

/-! ### Looking up -/

theorem mem_touch {order : List Signature} (h : σ ∈ order) : τ ∈ touch σ order ↔ τ ∈ order := by
  unfold touch
  split
  · rfl
  · by_cases hτ : τ = σ
    · subst hτ
      exact ⟨fun _ => h, fun _ => List.mem_cons_self⟩
    · rw [List.mem_cons, List.mem_erase_of_ne hτ]
      exact ⟨fun hm => hm.resolve_left hτ, .inr⟩

/-- What is used comes to the front. -/
theorem head?_touch (σ : Signature) (order : List Signature) :
    (touch σ order).head? = some σ := by
  unfold touch
  split
  · assumption
  · rfl

theorem nodup_touch {order : List Signature} (h : order.Nodup) : (touch σ order).Nodup := by
  unfold touch
  split
  · exact h
  · exact List.nodup_cons.2 ⟨h.not_mem_erase, h.erase σ⟩

theorem length_touch {order : List Signature} (h : σ ∈ order) :
    (touch σ order).length = order.length := by
  unfold touch
  split
  · rfl
  · rw [List.length_cons, List.length_erase_of_mem h]
    have := List.length_pos_of_mem h
    omega

/-- What is found is what the index leads to, and it is noted as used. -/
theorem lookup_eq_some (hl : c.lookup σ = (some id, d)) :
    c.peek? σ = some id ∧ d = { c with order := touch σ c.order } := by
  unfold Cache.lookup at hl
  cases hp : c.peek? σ with
  | none => rw [hp] at hl; cases hl
  | some found =>
    rw [hp] at hl
    cases hl
    exact ⟨rfl, rfl⟩

/-- **Looking up a signature** that is there only moves it to the front. -/
theorem Agrees.lookup (h : c.Agrees) (hl : c.lookup σ = (some id, d)) :
    d.Agrees ∧ c.index.get? σ = some id ∧ d = { c with order := touch σ c.order } := by
  obtain ⟨hindex, rfl⟩ := lookup_eq_some hl
  have hmem : σ ∈ c.order :=
    (h.listed σ).2 (by rw [show c.index.get? σ = some id from hindex]; rfl)
  exact ⟨{ h with
    nodup := nodup_touch h.nodup
    listed := fun τ => (mem_touch hmem).trans (h.listed τ)
    size_eq := h.size_eq.trans (length_touch hmem).symm }, hindex, rfl⟩

theorem Consistent.lookup (h : c.Consistent) (hl : c.lookup σ = (some id, d)) :
    d.Consistent ∧ c.index.get? σ = some id ∧ d = { c with order := touch σ c.order } := by
  obtain ⟨hd, hindex, rfl⟩ := h.agrees.lookup hl
  exact ⟨consistent_iff.2 ⟨hd, h.depth_pos, h.size_le⟩, hindex, rfl⟩

/-- Looking up a signature that is not there changes nothing. -/
theorem lookup_eq_none (hl : c.lookup σ = (none, d)) : c.index.get? σ = none ∧ d = c := by
  unfold Cache.lookup at hl
  cases hp : c.peek? σ with
  | none => rw [hp] at hl; cases hl; exact ⟨hp, rfl⟩
  | some found => rw [hp] at hl; cases hl

/-! ### Updating -/

theorem get?_update (c : Cache) (id : ArtifactId) (a : Artifact) (j : ArtifactId) :
    (c.update id a).get? j = if j = id then (c.get? id).map fun _ => a else c.get? j :=
  SortedMap.get?_modify c.artifacts id _ j

theorem update_self (h : c.get? id = some a) : c.update id a = c := by
  have hartifacts : (c.artifacts.modify id fun _ => a) = c.artifacts :=
    SortedMap.ext_get? fun j => by
      rw [SortedMap.get?_modify]
      split
      · rename_i hj
        rw [hj, show c.artifacts.get? id = some a from h]
        rfl
      · rfl
  unfold update
  rw [hartifacts]

theorem update_update (c : Cache) (id : ArtifactId) (a b : Artifact) :
    (c.update id a).update id b = c.update id b := by
  have hartifacts : ((c.artifacts.modify id fun _ => a).modify id fun _ => b) =
      c.artifacts.modify id fun _ => b :=
    SortedMap.ext_get? fun j => by
      rw [SortedMap.get?_modify, SortedMap.get?_modify, SortedMap.get?_modify c.artifacts id,
        if_pos rfl, SortedMap.get?_modify]
      split
      · cases c.artifacts.get? id with
        | none => rfl
        | some x => rfl
      · rfl
  unfold update
  rw [hartifacts]

/-! ### Inserting -/

/-- What is there after an insertion: the new artifact, and not the one whose place it takes. -/
theorem get?_insert (c : Cache) (a : Artifact) (j : ArtifactId) :
    (c.insert a).get? j = if j = a.id then some a else
      if c.index.get? a.signature = some j then none else c.get? j := by
  unfold Cache.insert peek?
  cases hσ : c.index.get? a.signature with
  | none =>
    refine (SortedMap.get?_insert c.artifacts a.id a j).trans ?_
    simp only [reduceCtorEq, if_false]
    rfl
  | some previous =>
    refine (SortedMap.get?_insert (c.artifacts.erase previous) a.id a j).trans ?_
    simp only [SortedMap.get?_erase, Option.some.injEq, eq_comm]
    rfl

theorem index_insert (c : Cache) (a : Artifact) (τ : Signature) :
    (c.insert a).index.get? τ = if τ = a.signature then some a.id else c.index.get? τ :=
  SortedMap.get?_insert c.index a.signature a.id τ

/-- The signature is put in front, wherever it was before. -/
theorem Agrees.order_insert (h : c.Agrees) (a : Artifact) :
    (c.insert a).order = a.signature :: c.order.erase a.signature := by
  unfold Cache.insert peek?
  cases hσ : c.index.get? a.signature with
  | none =>
    have hnotMem : a.signature ∉ c.order := by
      rw [h.listed, hσ]
      exact nofun
    rw [List.erase_of_not_mem hnotMem]
  | some previous => rfl

/-- An artifact is there more, unless it takes the place of another. -/
theorem Agrees.size_insert (h : c.Agrees) (hid : c.get? a.id = none) :
    (c.insert a).size = (c.insert a).order.length := by
  rw [h.order_insert a, List.length_cons]
  unfold Cache.insert peek?
  cases hσ : c.index.get? a.signature with
  | none =>
    have hnotMem : a.signature ∉ c.order := by
      rw [h.listed, hσ]
      exact nofun
    rw [List.erase_of_not_mem hnotMem, ← h.size_eq]
    exact SortedMap.size_insert_of_none a hid
  | some previous =>
    have hmem : a.signature ∈ c.order := (h.listed _).2 (by rw [hσ]; rfl)
    obtain ⟨x, hx, -⟩ := h.indexed _ _ hσ
    have hnone : (c.artifacts.erase previous).get? a.id = none := by
      rw [SortedMap.get?_erase]
      split
      · rfl
      · exact hid
    refine (SortedMap.size_insert_of_none a hnone).trans ?_
    have hsize : (c.artifacts.erase previous).size + 1 = c.size := SortedMap.size_erase_of_some hx
    have hpos := List.length_pos_of_mem hmem
    rw [hsize, h.size_eq, List.length_erase_of_mem hmem]
    omega

/-- **Inserting an artifact** whose identity is new, in place of another with its signature if there
is one. -/
theorem Agrees.insert (h : c.Agrees) (hid : c.get? a.id = none) : (c.insert a).Agrees := by
  -- The index leads to what is kept, what is kept is indexed, and the order lists what is indexed,
  -- each once.
  refine ⟨?_, ?_, ?_, ?_, h.size_insert hid⟩
  · intro τ j hj
    rw [index_insert] at hj
    rw [get?_insert]
    split at hj
    · rename_i hτ
      cases hj
      exact ⟨a, if_pos rfl, hτ.symm⟩
    · rename_i hτ
      obtain ⟨x, hx, hxτ⟩ := h.indexed τ j hj
      refine ⟨x, ?_, hxτ⟩
      rw [if_neg, if_neg, hx]
      · exact fun hσ => hτ (h.index_injective hj hσ)
      · rintro rfl
        rw [hid] at hx
        cases hx
  · intro j x hx
    rw [get?_insert] at hx
    rw [index_insert]
    split at hx
    · rename_i hj
      cases hx
      exact ⟨hj.symm, by rw [if_pos rfl, hj]⟩
    · split at hx
      · cases hx
      · rename_i hσ
        obtain ⟨hxid, hxindex⟩ := h.kept j x hx
        refine ⟨hxid, ?_⟩
        rw [if_neg, hxindex]
        exact fun hxσ => hσ (hxσ ▸ hxindex)
  · rw [h.order_insert]
    exact List.nodup_cons.2 ⟨h.nodup.not_mem_erase, h.nodup.erase _⟩
  · intro τ
    rw [h.order_insert, index_insert, List.mem_cons]
    split
    · rename_i hτ
      exact ⟨fun _ => rfl, fun _ => .inl hτ⟩
    · rename_i hτ
      rw [List.mem_erase_of_ne hτ, h.listed]
      exact ⟨fun hm => hm.resolve_left hτ, .inr⟩

theorem get?_insert_new (hσ : c.index.get? a.signature = none) (j : ArtifactId) :
    (c.insert a).get? j = if j = a.id then some a else c.get? j := by
  rw [get?_insert, hσ]
  simp only [reduceCtorEq, if_false]

theorem order_insert_new (hσ : c.index.get? a.signature = none) :
    (c.insert a).order = a.signature :: c.order := by
  unfold Cache.insert peek?
  rw [hσ]

/-- **Inserting an artifact** whose identity and signature are new, with room for it. -/
theorem Consistent.insert (h : c.Consistent) (hroom : c.isFull = false)
    (hid : c.get? a.id = none) (hσ : c.index.get? a.signature = none) :
    (c.insert a).Consistent := by
  have hlt : c.size < c.depth := by
    simpa [isFull] using hroom
  refine consistent_iff.2 ⟨h.agrees.insert hid, h.depth_pos, ?_⟩
  rw [h.agrees.size_insert hid, order_insert_new hσ, List.length_cons, ← h.size_eq]
  exact hlt

/-! ### Evicting -/

/-- What an eviction takes out and what it leaves. -/
structure Evicted (c : Cache) (a : Artifact) (d : Cache) : Prop where
  /-- The artifact was there. -/
  found : c.get? a.id = some a
  /-- It is gone, and everything else is as before. -/
  get? : ∀ j, d.get? j = if j = a.id then none else c.get? j
  /-- Its signature leads nowhere. -/
  index : ∀ τ, d.index.get? τ = if τ = a.signature then none else c.index.get? τ
  /-- Its signature was the last. -/
  order : d.order = c.order.dropLast
  /-- As many artifacts are allowed as before. -/
  depth : d.depth = c.depth
  /-- There is one less. -/
  size : d.size + 1 = c.size

/-- The parts still agree without the signature that was used least recently and its artifact. -/
theorem Agrees.erase (h : c.Agrees) {rest : List Signature} {σ : Signature} {id : ArtifactId}
    {a : Artifact} (horder : c.order = rest ++ [σ]) (hid : c.index.get? σ = some id)
    (ha : c.get? id = some a) (haσ : a.signature = σ) :
    Agrees { c with
      order := rest
      index := c.index.erase σ
      artifacts := c.artifacts.erase id } := by
  have hnodup : (rest ++ [σ]).Nodup := horder ▸ h.nodup
  -- It was listed once, so it is no longer listed.
  have hnotMem : σ ∉ rest := fun hm =>
    (List.nodup_append.1 hnodup).2.2 σ hm σ (List.mem_singleton.2 rfl) rfl
  refine ⟨fun τ j hj => ?_, fun j x hx => ?_, (List.nodup_append.1 hnodup).1, fun τ => ?_, ?_⟩
  · rw [SortedMap.get?_erase] at hj
    split at hj
    · cases hj
    · rename_i hτ
      obtain ⟨x, hx, hxτ⟩ := h.indexed τ j hj
      refine ⟨x, ?_, hxτ⟩
      change (c.artifacts.erase id).get? j = some x
      rw [SortedMap.get?_erase, if_neg, show c.artifacts.get? j = some x from hx]
      rintro rfl
      rw [ha] at hx
      cases hx
      exact hτ (hxτ.symm.trans haσ)
  · change (c.artifacts.erase id).get? j = some x at hx
    rw [SortedMap.get?_erase] at hx
    split at hx
    · cases hx
    · rename_i hj
      obtain ⟨hxid, hxindex⟩ := h.kept j x hx
      refine ⟨hxid, ?_⟩
      rw [SortedMap.get?_erase, if_neg, hxindex]
      intro hxσ
      rw [hxσ, hid] at hxindex
      exact hj (Option.some.inj hxindex).symm
  · rw [SortedMap.get?_erase]
    split
    · rename_i hτ
      rw [hτ]
      exact ⟨fun hm => absurd hm hnotMem, nofun⟩
    · rename_i hτ
      rw [← h.listed, horder, List.mem_append, List.mem_singleton]
      exact ⟨.inl, fun hm => hm.resolve_right hτ⟩
  · have hsize : (c.artifacts.erase id).size + 1 = c.size := SortedMap.size_erase_of_some ha
    have hlen := h.size_eq
    rw [horder, List.length_append, List.length_singleton] at hlen
    change (c.artifacts.erase id).size = rest.length
    omega

/-- **Evicting** takes out the least recently used artifact, if there is any. -/
theorem Agrees.evict (h : c.Agrees) (hne : c.order ≠ []) :
    ∃ a, c.evict = (some a, c.evict.2) ∧ c.Evicted a c.evict.2 ∧ c.evict.2.Agrees := by
  have hlast : c.order.getLast? = some (c.order.getLast hne) := List.getLast?_eq_some_getLast hne
  obtain ⟨σ, hσ⟩ : ∃ σ, c.order.getLast hne = σ := ⟨_, rfl⟩
  have hmem : σ ∈ c.order := hσ ▸ List.getLast_mem hne
  obtain ⟨id, hid⟩ := Option.isSome_iff_exists.1 ((h.listed σ).1 hmem)
  obtain ⟨a, ha, haσ⟩ := h.indexed σ id hid
  obtain ⟨haid, -⟩ := h.kept id a ha
  -- The signature used least recently is indexed, and its artifact is the one to go.
  have hevict : c.evict = (some a, { c with
      order := c.order.dropLast
      index := c.index.erase σ
      artifacts := c.artifacts.erase id }) := by
    unfold Cache.evict
    rw [hlast, hσ]
    dsimp only
    rw [show peek? { c with order := c.order.dropLast } σ = some id from hid]
    exact congrArg₂ Prod.mk ha rfl
  have hsplit : c.order = c.order.dropLast ++ [σ] := by
    rw [← hσ]
    exact (List.dropLast_append_getLast hne).symm
  refine ⟨a, by rw [hevict], ?_, by rw [hevict]; exact h.erase hsplit hid ha haσ⟩
  rw [hevict]
  subst haσ haid
  exact ⟨ha, fun j => SortedMap.get?_erase c.artifacts a.id j,
    fun τ => SortedMap.get?_erase c.index a.signature τ, rfl, rfl, SortedMap.size_erase_of_some ha⟩

theorem Consistent.evict (h : c.Consistent) (hne : c.order ≠ []) :
    ∃ a, c.evict = (some a, c.evict.2) ∧ c.Evicted a c.evict.2 ∧ c.evict.2.Consistent := by
  obtain ⟨a, hevict, hevicted, hagrees⟩ := h.agrees.evict hne
  refine ⟨a, hevict, hevicted, consistent_iff.2 ⟨hagrees, ?_, ?_⟩⟩
  · rw [hevicted.depth]
    exact h.depth_pos
  · rw [hevicted.depth]
    have := hevicted.size
    have := h.size_le
    omega

/-- Nothing is taken out of a cache that lists nothing. -/
theorem evict_of_order_eq_nil (h : c.order = []) : c.evict = (none, c) := by
  unfold Cache.evict
  rw [h]
  rfl

/-- **Evicting keeps the parts in agreement**, and takes something out exactly if there is
something. -/
theorem Agrees.evict_iff (h : c.Agrees) :
    c.evict.2.Agrees ∧ (c.evict.1.isSome = true ↔ c.size ≠ 0) := by
  rw [h.size_eq]
  by_cases hne : c.order = []
  · rw [evict_of_order_eq_nil hne, hne]
    exact ⟨h, nofun, fun hpos => absurd rfl hpos⟩
  · obtain ⟨a, hevict, -, hagrees⟩ := h.evict hne
    refine ⟨hagrees, fun _ => ?_, fun _ => ?_⟩
    · exact fun hzero => hne (List.length_eq_zero_iff.1 hzero)
    · rw [hevict]
      rfl

end TensorJit.Cache
