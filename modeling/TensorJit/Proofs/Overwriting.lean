import TensorJit.Proofs.Call

/-!
# Writing over what is there

A write replaces the beginning of what a tensor holds and leaves the rest (`Bytes.onto`). It asks for
no more than room, so nothing is said here of how specs and contents fit together: **a call goes
through exactly if evaluation does and every output tensor has room for its result**
(`Backend.ends_callOver`), and then each of these begins with its result and ends as before.

What is written where it already stands changes nothing: the memories before and after are alike but
for the flags that say whether contents are out of date (`Memory.Written.alike`).
-/

namespace TensorJit

namespace Bytes

/-- Bytes with others written over their beginning. -/
def onto (source bytes : Bytes) : Bytes := source ++ bytes.drop source.length

variable {source bytes bytes' : Bytes}

theorem overwrite?_zero (bytes source : Bytes) : bytes.overwrite? source 0 =
    if source.length ≤ bytes.length then some (source.onto bytes) else none := by
  unfold overwrite? onto
  rw [Nat.zero_add, List.take_zero, List.nil_append]

theorem length_onto (h : source.length ≤ bytes.length) :
    (source.onto bytes).length = bytes.length := by
  unfold onto
  rw [List.length_append, List.length_drop]
  omega

theorem prefix_onto (source bytes : Bytes) : source <+: source.onto bytes :=
  List.prefix_append _ _

theorem drop_onto (source bytes : Bytes) :
    (source.onto bytes).drop source.length = bytes.drop source.length := List.drop_left

/-- What is there already can be written again. -/
theorem onto_eq_self (h : source <+: bytes) : source.onto bytes = bytes := by
  obtain ⟨rest, rfl⟩ := h
  unfold onto
  rw [List.drop_left]

/-- Bytes that reach to the end leave nothing of what was there. -/
theorem onto_eq_left (h : bytes.length ≤ source.length) : source.onto bytes = source := by
  unfold onto
  rw [List.drop_of_length_le h, List.append_nil]

/-- Only the end of what was there matters. -/
theorem onto_congr (h : bytes.drop source.length = bytes'.drop source.length) :
    source.onto bytes = source.onto bytes' := congrArg (source ++ ·) h

end Bytes

namespace Memory

variable {m n k : Memory} {id j : TensorId} {bytes : Bytes}

theorem overwrite?_zero (m : Memory) (id : TensorId) (source : Bytes) : m.overwrite? id source 0 =
    if source.length ≤ (m.contents id).length then
      some (m.setContents id (source.onto (m.contents id))) else none := by
  unfold overwrite?
  rw [Bytes.overwrite?_zero]
  split
  · rfl
  · rfl

/-- A tensor exists, and so does the storage that it is bound to. -/
structure Held (m : Memory) (id : TensorId) : Prop where
  /-- It exists. -/
  live : id < m.tensors.size
  /-- The storage that it is bound to exists. -/
  bound : ∀ storage, m.home id = .host storage → storage < m.storages.size

theorem Held.extends (h : m.Held id) (hmn : m.Extends n) : n.Held id :=
  ⟨Nat.lt_of_lt_of_le h.live hmn.tensors, fun storage hhome => Nat.lt_of_lt_of_le
    (h.bound storage ((hmn.home id h.live).symm.trans hhome)) hmn.storages⟩

theorem Held.takes (h : m.Held id) (hlength : bytes.length = (m.contents id).length) :
    m.Takes id bytes := ⟨h.live, hlength.symm, h.bound⟩

/-- Tensors by position that can be written to, no two of which have bytes in common. -/
structure Disjoint (m : Memory) (ids : List (Option TensorId)) : Prop where
  /-- They can be written to. -/
  held : ∀ (p : Nat) (x : TensorId), ids[p]? = some (some x) → m.Held x
  /-- No two of them have bytes in common. -/
  apart : ∀ (p q : Nat) (x y : TensorId), p ≠ q → ids[p]? = some (some x) →
    ids[q]? = some (some y) → m.Apart x y

theorem Disjoint.extends {ids : List (Option TensorId)} (h : m.Disjoint ids) (hmn : m.Extends n) :
    n.Disjoint ids :=
  ⟨fun p x hx => (h.held p x hx).extends hmn, fun p q x y hpq hx hy =>
    (h.apart p q x y hpq hx hy).of_extends hmn (h.held p x hx).live (h.held q y hy).live⟩

theorem Disjoint.tail {x : Option TensorId} {ids : List (Option TensorId)}
    (h : m.Disjoint (x :: ids)) : m.Disjoint ids :=
  ⟨fun p y hy => h.held (p + 1) y hy, fun p q y z hpq hy hz =>
    h.apart (p + 1) (q + 1) y z (fun heq => hpq (Nat.succ.inj heq)) hy hz⟩

/-! ### Memories that are alike -/

/-- Two memories differ in nothing but the flags of tensors. -/
structure Alike (m n : Memory) : Prop where
  /-- There are as many storages. -/
  storages : n.storages.size = m.storages.size
  /-- There are as many tensors. -/
  tensors : n.tensors.size = m.tensors.size
  /-- The storages hold the same. -/
  storage : ∀ j, n.storage j = m.storage j
  /-- The tensors have the same specs. -/
  spec : ∀ j, (n.tensor j).spec = (m.tensor j).spec
  /-- They have the same homes. -/
  home : ∀ j, n.home j = m.home j
  /-- They hold the same. -/
  contents : ∀ j, n.contents j = m.contents j

theorem Alike.refl (m : Memory) : m.Alike m :=
  ⟨rfl, rfl, fun _ => rfl, fun _ => rfl, fun _ => rfl, fun _ => rfl⟩

theorem Alike.trans (h : m.Alike n) (h' : n.Alike k) : m.Alike k :=
  ⟨h'.storages.trans h.storages, h'.tensors.trans h.tensors,
    fun j => (h'.storage j).trans (h.storage j), fun j => (h'.spec j).trans (h.spec j),
    fun j => (h'.home j).trans (h.home j), fun j => (h'.contents j).trans (h.contents j)⟩

theorem alike_setStale (m : Memory) (id : TensorId) (stale : Bool) :
    m.Alike (m.setStale id stale) where
  storages := rfl
  tensors := m.size_tensors_setStale id stale
  storage _ := rfl
  spec := m.spec_setStale id stale
  home j := by
    unfold home
    rw [residence_setStale]
  contents := m.contents_setStale id stale

/-- **What is written where it already stands changes nothing.** -/
theorem Written.alike {writes : List (TensorId × Bytes)} (h : m.Written writes n)
    (hlive : ∀ w ∈ writes, w.1 < m.tensors.size)
    (hsame : ∀ w ∈ writes, w.2 = m.contents w.1) : m.Alike n := by
  have hstorage : ∀ j, n.storage j = m.storage j := fun j => by
    by_cases hbound : ∃ w ∈ writes, m.home w.1 = .host j
    · obtain ⟨w, hw, hhome⟩ := hbound
      rw [← contents_of_home_host hhome, ← hsame w hw, ← h.contents w hw]
      exact (contents_of_home_host ((h.grown.home w.1 (hlive w hw)).trans hhome)).symm
    · exact h.storages j fun w hw hhome => hbound ⟨w, hw, hhome⟩
  -- A tensor is one of those that were written to, or it is as it was.
  have hcases : ∀ j, (∃ w ∈ writes, w.1 = j) ∨ n.tensor j = m.tensor j := fun j => by
    by_cases hmem : ∃ w ∈ writes, w.1 = j
    · exact .inl hmem
    · exact .inr (h.tensors j fun w hw heq => hmem ⟨w, hw, heq.symm⟩)
  have hhome : ∀ j, n.home j = m.home j := fun j => by
    rcases hcases j with ⟨w, hw, rfl⟩ | htensor
    · exact h.grown.home w.1 (hlive w hw)
    · unfold home
      rw [htensor]
  refine ⟨h.size, h.count, hstorage, fun j => ?_, hhome, fun j => ?_⟩
  · rcases hcases j with ⟨w, hw, rfl⟩ | htensor
    · exact h.grown.spec w.1 (hlive w hw)
    · rw [htensor]
  · rcases hcases j with ⟨w, hw, rfl⟩ | htensor
    · rw [h.contents w hw, hsame w hw]
    · cases hown : m.home j with
      | own length => exact contents_eq_of_home_own hown htensor
      | host storage =>
        rw [contents_of_home_host hown, contents_of_home_host ((hhome j).trans hown), hstorage]

/-- A storage that is given the bytes it has. -/
theorem alike_setStorage (m : Memory) (j : StorageId) : m.Alike (m.setStorage j (m.storage j)) := by
  have hstorage : ∀ i, (m.setStorage j (m.storage j)).storage i = m.storage i := fun i => by
    by_cases hi : i = j
    · subst hi
      rcases Nat.lt_or_ge i m.storages.size with hlt | hge
      · rw [storage_setStorage _ _ _ _ hlt, if_pos rfl]
      · unfold setStorage
        rw [Array.setIfInBounds, dif_neg (Nat.not_lt_of_le hge)]
    · exact storage_setStorage_of_ne m _ hi
  refine ⟨size_storages_setStorage m j _, rfl, hstorage, fun _ => rfl, fun _ => rfl, fun i => ?_⟩
  have hhome : (m.setStorage j (m.storage j)).home i = m.home i := rfl
  cases hown : m.home i with
  | own length => exact contents_eq_of_home_own hown rfl
  | host storage =>
    rw [contents_of_home_host hown, contents_of_home_host (hhome.trans hown), hstorage]

/-- A tensor that is given the bytes it has. -/
theorem alike_setContents (m : Memory) (id : TensorId) :
    m.Alike (m.setContents id (m.contents id)) := by
  cases hown : m.home id with
  | host storage =>
    rw [setContents_of_home_host hown, contents_of_home_host hown]
    exact m.alike_setStorage storage
  | own length =>
    have hstorages := storages_setContents_of_home_own hown (m.contents id)
    have hstorage : ∀ j, (m.setContents id (m.contents id)).storage j = m.storage j := fun j => by
      unfold storage
      rw [hstorages]
    have hhome : ∀ j, (m.setContents id (m.contents id)).home j = m.home j :=
      m.home_setContents id rfl
    refine ⟨size_storages_setContents m id _, size_tensors_setContents m id _, hstorage,
      spec_setContents m id _, hhome, fun j => ?_⟩
    by_cases hj : j = id
    · subst hj
      rcases Nat.lt_or_ge j m.tensors.size with hlt | hge
      · exact contents_setContents_of_home_own hown hlt _
      · unfold contents
        rw [tensor_of_size_le m hge, tensor_of_size_le _ (by simpa using hge)]
        rfl
    · exact contents_eq_of_tensor_eq (tensor_setContents_of_ne m _ hj) hstorages

end Memory

namespace Backend

variable {κ : BackendKind} {m n : Memory} {d : Device} {id : TensorId} {v : Value UInt32}
  {outs ins : List (Option TensorId)} {results : List (Value UInt32)}

/-! ### Parameters -/

/-- Only what the input tensors hold matters. -/
theorem parametersOf_congr (κ : BackendKind) (declared : List TensorSpec)
    (h : ∀ x, some x ∈ ins → (n.tensor x).spec = (m.tensor x).spec ∧
      n.contents x = m.contents x) :
    parametersOf κ n declared ins = parametersOf κ m declared ins := by
  refine List.ext_getElem? fun q => ?_
  rw [parametersOf_getElem?, parametersOf_getElem?]
  refine congrArg (Option.map · declared[q]?) (funext fun spec => ?_)
  cases hx : (ins[q]?).join with
  | none => rfl
  | some x =>
    obtain ⟨hspec, hcontents⟩ := h x (List.mem_of_getElem? (Option.join_eq_some_iff.1 hx))
    rw [Option.bind_some, Option.bind_some]
    unfold parameterOf valueOf
    rw [hspec, hcontents]

/-! ### Storing results -/

/-- A tensor has room for a value, of which the reference backend wants exactly as many elements as
the tensor has. -/
structure Room (κ : BackendKind) (m : Memory) (id : TensorId) (v : Value UInt32) : Prop where
  /-- There is room for its bytes. -/
  length : (Tensor.bytesOfWords v.data).length ≤ (m.contents id).length
  /-- On the reference backend there are as many elements. -/
  elements : κ = .reference → v.data.length = (m.tensor id).spec.elements

/-- **Storing one result** goes through exactly if there is room for it. -/
theorem ends_storeOver (hheld : d.memory.Held id) :
    Ends (store id v d)
      (fun _ e => Room d.backend.kind d.memory id v ∧ e.backend = d.backend ∧
        d.memory.Written [(id, (Tensor.bytesOfWords v.data).onto (d.memory.contents id))] e.memory)
      fun _ e => ¬ Room d.backend.kind d.memory id v ∧ e.memory = d.memory := by
  unfold store
  rw [ends_bind, ends_get]
  dsimp only
  split
  · rename_i hsize
    exact ⟨fun hroom => hsize.2 (hroom.elements hsize.1), rfl⟩
  rename_i hsize
  unfold overwrite
  rw [ends_bind, ends_bind, ends_get, Memory.overwrite?_zero]
  split
  · rename_i hlength
    refine ⟨⟨hlength, fun hκ => ?_⟩, rfl,
      Memory.written_setContents (hheld.takes (Bytes.length_onto hlength)) false⟩
    by_contra hne
    exact hsize ⟨hκ, hne⟩
  · rename_i hlength
    have hnot : ¬ Room d.backend.kind d.memory id v := fun hroom => hlength hroom.length
    cases hκ : d.backend.kind with
    | reference => exact ⟨hκ ▸ hnot, rfl⟩
    | recording mode => exact ⟨hκ ▸ hnot, rfl⟩

/-- What is written where when results are stored over what is there. -/
def writesOver (m : Memory) (outs : List (Option TensorId)) (results : List (Value UInt32)) :
    List (TensorId × Bytes) :=
  (outs.zip results).filterMap fun w =>
    w.1.map fun x => (x, (Tensor.bytesOfWords w.2.data).onto (m.contents x))

theorem mem_writesOver {w : TensorId × Bytes} :
    w ∈ writesOver m outs results ↔ ∃ (p : Nat) (v : Value UInt32), outs[p]? = some (some w.1) ∧
      results[p]? = some v ∧ w.2 = (Tensor.bytesOfWords v.data).onto (m.contents w.1) := by
  unfold writesOver
  rw [List.mem_filterMap]
  constructor
  · rintro ⟨⟨o, v⟩, hmem, hw⟩
    obtain ⟨p, hp⟩ := List.getElem?_of_mem hmem
    obtain ⟨ho, hv⟩ := List.getElem?_zip_eq_some.1 hp
    obtain ⟨x, rfl, rfl⟩ := Option.map_eq_some_iff.1 hw
    exact ⟨p, v, ho, hv, rfl⟩
  · rintro ⟨p, v, ho, hv, hw⟩
    refine ⟨(some w.1, v), List.mem_of_getElem? (List.getElem?_zip_eq_some.2 ⟨ho, hv⟩), ?_⟩
    rw [Option.map_some, ← hw]

theorem writesOver_congr (h : ∀ x, some x ∈ outs → n.contents x = m.contents x) :
    writesOver n outs results = writesOver m outs results := by
  unfold writesOver
  refine List.filterMap_congr fun w hw => ?_
  obtain ⟨o, v⟩ := w
  cases o with
  | none => rfl
  | some x =>
    rw [Option.map_some, Option.map_some, h x (List.of_mem_zip hw).1]

/-- Every output tensor has room for its result. -/
def Rooms (κ : BackendKind) (m : Memory) (outs : List (Option TensorId))
    (results : List (Value UInt32)) : Prop :=
  ∀ (p : Nat) (x : TensorId) (v : Value UInt32), outs[p]? = some (some x) → results[p]? = some v →
    Room κ m x v

theorem rooms_cons {x : Option TensorId} : Rooms κ m (x :: outs) (v :: results) ↔
    (∀ y, x = some y → Room κ m y v) ∧ Rooms κ m outs results := by
  constructor
  · exact fun h => ⟨fun y hy => h 0 y v (congrArg some hy) rfl,
      fun p y w hy hw => h (p + 1) y w hy hw⟩
  · rintro ⟨hhead, htail⟩ p y w hy hw
    cases p with
    | zero =>
      obtain rfl := Option.some.inj hw
      exact hhead y (Option.some.inj hy)
    | succ p => exact htail p y w hy hw

/-- **Storing all results** goes through exactly if there is room for each. By induction on the
tensors: what has been stored leaves the room that the others have. -/
theorem ends_storeAllOver (h : d.memory.Disjoint outs) :
    Ends (storeAll outs results d)
      (fun _ e => Rooms d.backend.kind d.memory outs results ∧
        d.memory.Written (writesOver d.memory outs results) e.memory)
      fun _ e => ¬ Rooms d.backend.kind d.memory outs results ∧
        ∃ done, (∀ w ∈ done, w ∈ writesOver d.memory outs results) ∧
          d.memory.Written done e.memory := by
  induction outs generalizing results d with
  | nil => exact ⟨fun p x v hx => (by cases hx), .nil d.memory⟩
  | cons output outs ih =>
    cases results with
    | nil =>
      have hnone : Rooms d.backend.kind d.memory (output :: outs) [] := fun p x v _ hv => by cases hv
      cases output with
      | none => exact ⟨hnone, .nil d.memory⟩
      | some x => exact ⟨hnone, .nil d.memory⟩
    | cons v results =>
      cases output with
      | none =>
        refine (ih h.tail).mono (fun _ e he => ?_) fun _ e he => ?_
        · exact ⟨rooms_cons.2 ⟨fun y hy => (by cases hy), he.1⟩, he.2⟩
        · exact ⟨fun hrooms => he.1 (rooms_cons.1 hrooms).2, he.2⟩
      | some x =>
        have hheld : d.memory.Held x := h.held 0 x rfl
        have hapart : ∀ y, some y ∈ outs → d.memory.Apart x y ∧ y < d.memory.tensors.size :=
          fun y hy => by
            obtain ⟨q, hq⟩ := List.getElem?_of_mem hy
            exact ⟨h.apart 0 (q + 1) x y (Nat.zero_ne_add_one q) rfl hq, (h.tail.held q y hq).live⟩
        unfold storeAll
        rw [ends_bind]
        refine (ends_storeOver hheld).mono (fun _ e he => ?_) fun _ e he => ?_
        · obtain ⟨hroom, hbackend, hwritten⟩ := he
          -- The tensors are apart, so writing to this one changes nothing in the others.
          have hsame : ∀ y, some y ∈ outs → e.memory.contents y = d.memory.contents y := fun y hy =>
            hwritten.contents_of_apart (hapart y hy).2 fun w hw => by
              obtain rfl := List.mem_singleton.1 hw
              exact (hapart y hy).1
          have hrooms : Rooms e.backend.kind e.memory outs results ↔
              Rooms d.backend.kind d.memory outs results := by
            have heach : ∀ (y : TensorId) (w : Value UInt32), some y ∈ outs →
                (Room e.backend.kind e.memory y w ↔ Room d.backend.kind d.memory y w) :=
              fun y w hy => by
                rw [hbackend]
                have hspec := hwritten.grown.spec y (hapart y hy).2
                exact ⟨fun hr => ⟨hsame y hy ▸ hr.length, fun hκ => hspec ▸ hr.elements hκ⟩,
                  fun hr => ⟨by rw [hsame y hy]; exact hr.length,
                    fun hκ => by rw [hspec]; exact hr.elements hκ⟩⟩
            exact ⟨fun hr p y w hy hw => (heach y w (List.mem_of_getElem? hy)).1 (hr p y w hy hw),
              fun hr p y w hy hw => (heach y w (List.mem_of_getElem? hy)).2 (hr p y w hy hw)⟩
          have hcons : ∀ {done : List (TensorId × Bytes)} {k : Memory},
              (∀ w ∈ done, w ∈ writesOver d.memory outs results) → e.memory.Written done k →
              d.memory.Written ((x, (Tensor.bytesOfWords v.data).onto (d.memory.contents x)) :: done)
                k := fun hdone hk => by
            refine hwritten.cons hk hheld.live (fun w hw => ?_) fun w hw => ?_
            · obtain ⟨q, -, hq, -⟩ := mem_writesOver.1 (hdone w hw)
              exact (hapart w.1 (List.mem_of_getElem? hq)).2
            · obtain ⟨q, -, hq, -⟩ := mem_writesOver.1 (hdone w hw)
              exact (hapart w.1 (List.mem_of_getElem? hq)).1.symm
          refine (ih (h.tail.extends hwritten.grown)).mono (fun _ f hf => ?_) fun _ f hf => ?_
          · rw [writesOver_congr hsame, hrooms] at hf
            refine ⟨rooms_cons.2 ⟨fun y hy => ?_, hf.1⟩, hcons (fun _ hw => hw) hf.2⟩
            obtain rfl := Option.some.inj hy
            exact hroom
          · rw [writesOver_congr hsame, hrooms] at hf
            obtain ⟨hnot, done, hdone, hk⟩ := hf
            refine ⟨fun hr => hnot (rooms_cons.1 hr).2, _ :: done, fun w hw => ?_, hcons hdone hk⟩
            rcases List.mem_cons.1 hw with rfl | hw
            · exact List.mem_cons_self
            · exact List.mem_cons_of_mem _ (hdone w hw)
        · -- There is no room for the first, and nothing has been written.
          exact ⟨fun hr => he.1 ((rooms_cons.1 hr).1 x rfl), [], fun w hw => (List.not_mem_nil hw).elim,
            he.2 ▸ .nil d.memory⟩

/-! ### Calling -/

/-- A function has results on what the input tensors hold, and the output tensors have room for
them. -/
structure Answers (κ : BackendKind) (m : Memory) (f : Function) (outs ins : List (Option TensorId))
    (results : List (Value UInt32)) : Prop where
  /-- These are the results. -/
  evaluate : f.evaluate .binary32 (parametersOf κ m f.parameters ins) = .ok results
  /-- There is room for them. -/
  rooms : Rooms κ m outs results

/-- It has them as long as the input tensors hold what they held and the output tensors have the room
that they had. -/
theorem Answers.congr {f : Function} (h : Answers κ m f outs ins results)
    (hins : ∀ x, some x ∈ ins → (n.tensor x).spec = (m.tensor x).spec ∧
      n.contents x = m.contents x)
    (houts : ∀ x, some x ∈ outs → (n.tensor x).spec = (m.tensor x).spec ∧
      (n.contents x).length = (m.contents x).length) : Answers κ n f outs ins results where
  evaluate := by
    rw [parametersOf_congr κ f.parameters hins]
    exact h.evaluate
  rooms p x v hx hv := by
    obtain ⟨hspec, hlength⟩ := houts x (List.mem_of_getElem? hx)
    have hroom := h.rooms p x v hx hv
    refine ⟨?_, fun hκ => ?_⟩
    · rw [hlength]
      exact hroom.length
    · rw [hspec]
      exact hroom.elements hκ

/-- **A call goes through exactly if there are results and room for them.** -/
theorem ends_callOver (x : Executable) (h : d.memory.Disjoint outs) :
    Ends (call x outs ins d)
      (fun _ e => ∃ results, Answers d.backend.kind d.memory x.function outs ins results ∧
        d.memory.Written (writesOver d.memory outs results) e.memory)
      fun _ e => (∀ results, ¬ Answers d.backend.kind d.memory x.function outs ins results) ∧
        ∃ done, (∀ w ∈ done, ∃ results, x.function.evaluate .binary32 (parametersOf d.backend.kind
            d.memory x.function.parameters ins) = .ok results ∧
            w ∈ writesOver d.memory outs results) ∧
          d.memory.Written done e.memory := by
  unfold call
  rw [ends_bind]
  change Ends ((get >>= _ : BackendM Unit) { d with backend.counters := _ }) _ _
  rw [ends_bind, ends_get]
  dsimp only
  cases heval : x.function.evaluate .binary32
      (parametersOf d.backend.kind d.memory x.function.parameters ins) with
  | error fault =>
    refine ⟨fun results hr => ?_, [], nofun, .nil d.memory⟩
    have hok := hr.evaluate
    rw [heval] at hok
    cases hok
  | ok results =>
    have hstore : Ends (storeAll outs results ⟨{ d.backend with counters := { d.backend.counters with
        calls := d.backend.counters.calls + 1 } }, d.memory⟩) _ _ := ends_storeAllOver h
    refine hstore.mono (fun _ e he => ?_) fun _ e he => ?_
    · exact ⟨results, ⟨heval, he.1⟩, he.2⟩
    · obtain ⟨hnot, done, hdone, hwritten⟩ := he
      refine ⟨fun results' hr => ?_, done, fun w hw => ⟨results, rfl, hdone w hw⟩, hwritten⟩
      obtain rfl := Except.ok.inj (heval.symm.trans hr.evaluate)
      exact hnot hr.rooms

/-- **A read goes through exactly if there are as many bytes.** -/
theorem ends_readOver (id : TensorId) (length : Nat) (d : Device) :
    Ends (read id length 0 d)
      (fun bytes e => length ≤ (d.memory.contents id).length ∧
        bytes = (d.memory.contents id).take length ∧ e.memory = d.memory)
      fun _ e => ¬ length ≤ (d.memory.contents id).length ∧ e.memory = d.memory := by
  unfold read Bytes.slice?
  rw [ends_bind, ends_get, Nat.zero_add, List.drop_zero]
  by_cases hlength : length ≤ (d.memory.contents id).length
  · rw [if_pos hlength]
    exact ⟨hlength, rfl, rfl⟩
  · rw [if_neg hlength]
    dsimp only
    cases d.backend.kind with
    | reference => exact ⟨hlength, rfl⟩
    | recording mode => exact ⟨hlength, rfl⟩

end Backend

end TensorJit
