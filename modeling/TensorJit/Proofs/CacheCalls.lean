import TensorJit.Proofs.CacheHit
import TensorJit.Proofs.Executor.Failure

/-!
# The parts of a cache always agree

The caches of a process share one counter that gives artifacts their identities, and each of them
can be asked to look a signature up, to evict, and to take a new artifact in, in any order: into a
full cache, or under a signature that it has already (`Caches.Call`). **Every call keeps the three
parts of every cache in agreement** (`Caches.Agree.step`), because the identities that a cache has
are below the counter, and so the one that is given out next is new to all caches.

Hence nothing that an executor has found in its cache is missing when it goes on to use it
(`caches_agree`): the cache of an executor agrees in every process, and the call keeps the artifact
that it works on.
-/

namespace TensorJit

/-- The caches of a process, and the identity for the next artifact. -/
structure Caches where
  /-- The caches, in the order in which they were made. -/
  caches : List Cache
  /-- The identity for the next artifact, which is above all that were given out. -/
  next : ArtifactId

namespace Caches

/-- What can be asked of the caches of a process. -/
inductive Call where
  /-- A new cache. -/
  | new (depth : Nat)
  /-- To look a signature up in a cache. -/
  | lookup (cache : Nat) (signature : Signature)
  /-- To evict the least recently used artifact of a cache. -/
  | evict (cache : Nat)
  /-- To take a new artifact into a cache. -/
  | insert (cache : Nat) (signature : Signature) (executable : Executable) (function : Function)

/-- Before anything is asked. -/
def empty : Caches := ⟨[], 0⟩

/-- The caches after a call. -/
def step (w : Caches) : Call → Caches
  | .new depth => { w with caches := w.caches ++ [.new depth] }
  | .lookup k σ => { w with caches := w.caches.modify k fun c => (c.lookup σ).2 }
  | .evict k => { w with caches := w.caches.modify k fun c => c.evict.2 }
  | .insert k σ x f =>
    { caches := w.caches.modify k fun c => c.insert (.new w.next σ x f)
      next := w.next + 1 }

/-- The caches after calls. -/
def run (w : Caches) (calls : List Call) : Caches := calls.foldl step w

/-- The parts of each cache agree, and the identities that are in use have been given out. -/
structure Agree (w : Caches) : Prop where
  /-- The parts of each cache agree. -/
  agrees : ∀ c ∈ w.caches, c.Agrees
  /-- The identities that are in use are below the next. -/
  issued : ∀ c ∈ w.caches, ∀ id a, c.get? id = some a → id < w.next

theorem agree_empty : empty.Agree := ⟨nofun, nofun⟩

variable {w : Caches} {c d : Cache} {σ : Signature} {k : Nat} {f : Cache → Cache}

/-- A member of a list of which one member has been changed. -/
theorem mem_modify {α : Type} {l : List α} {f : α → α} {k : Nat} {b : α} (h : b ∈ l.modify k f) :
    b ∈ l ∨ ∃ a ∈ l, b = f a := by
  obtain ⟨i, hi⟩ := List.mem_iff_getElem?.1 h
  rw [List.getElem?_modify] at hi
  obtain ⟨a, ha, hb⟩ := Option.map_eq_some_iff.1 hi
  split at hb
  · exact .inr ⟨a, List.mem_of_getElem? ha, hb.symm⟩
  · exact .inl (hb ▸ List.mem_of_getElem? ha)

/-- A change of one cache that brings in no other identity than the next one. -/
theorem Agree.modify {n : ArtifactId} (h : w.Agree) (k : Nat) (hn : w.next ≤ n)
    (hagrees : ∀ c ∈ w.caches, (f c).Agrees)
    (hissued : ∀ c ∈ w.caches, ∀ id a, (f c).get? id = some a →
      (∃ b, c.get? id = some b) ∨ id < n) :
    Agree ⟨w.caches.modify k f, n⟩ where
  agrees d hd := by
    rcases mem_modify hd with hd | ⟨c, hc, rfl⟩
    · exact h.agrees d hd
    · exact hagrees c hc
  issued d hd id a ha := by
    rcases mem_modify hd with hd | ⟨c, hc, rfl⟩
    · exact Nat.lt_of_lt_of_le (h.issued d hd id a ha) hn
    · rcases hissued c hc id a ha with ⟨b, hb⟩ | hlt
      · exact Nat.lt_of_lt_of_le (h.issued c hc id b hb) hn
      · exact hlt

/-- A look-up changes the order at most. -/
theorem agrees_lookup (h : c.Agrees) (σ : Signature) :
    (c.lookup σ).2.Agrees ∧ (c.lookup σ).2.artifacts = c.artifacts := by
  rcases hl : c.lookup σ with ⟨_ | id, d⟩
  · obtain ⟨-, rfl⟩ := Cache.lookup_eq_none hl
    exact ⟨h, rfl⟩
  · obtain ⟨hd, -, rfl⟩ := h.lookup hl
    exact ⟨hd, rfl⟩

/-- An eviction leaves nothing that was not there. -/
theorem get?_of_get?_evict {id : ArtifactId} {a : Artifact} (h : c.Agrees)
    (ha : c.evict.2.get? id = some a) : c.get? id = some a := by
  by_cases hne : c.order = []
  · rwa [Cache.evict_of_order_eq_nil hne] at ha
  · obtain ⟨b, -, hevicted, -⟩ := h.evict hne
    rw [hevicted.get?] at ha
    split at ha
    · cases ha
    · exact ha

/-- **Every call keeps the parts of every cache in agreement.** -/
theorem Agree.step (h : w.Agree) (call : Call) : (w.step call).Agree := by
  cases call with
  | new depth =>
    constructor
    · intro c hc
      rcases List.mem_append.1 hc with hc | hc
      · exact h.agrees c hc
      · obtain rfl := List.mem_singleton.1 hc
        exact Cache.agrees_new depth
    · intro c hc id a ha
      rcases List.mem_append.1 hc with hc | hc
      · exact h.issued c hc id a ha
      · obtain rfl := List.mem_singleton.1 hc
        cases ha
  | lookup k σ =>
    refine h.modify k (Nat.le_refl _) (fun c hc => (agrees_lookup (h.agrees c hc) σ).1)
      fun c hc id a ha => .inl ⟨a, ?_⟩
    rwa [Cache.get?, (agrees_lookup (h.agrees c hc) σ).2] at ha
  | evict k =>
    exact h.modify k (Nat.le_refl _) (fun c hc => (h.agrees c hc).evict_iff.1)
      fun c hc id a ha => .inl ⟨a, get?_of_get?_evict (h.agrees c hc) ha⟩
  | insert k σ x f =>
    -- The next identity is not in use, whatever the signature is.
    have hnew : ∀ c ∈ w.caches, c.get? w.next = none := fun c hc =>
      Option.eq_none_iff_forall_ne_some.2 fun a ha => Nat.lt_irrefl _ (h.issued c hc _ a ha)
    refine h.modify k (Nat.le_succ _) (fun c hc => (h.agrees c hc).insert (hnew c hc))
      fun c hc id a ha => ?_
    rw [Cache.get?_insert] at ha
    split at ha
    · rename_i hid
      exact .inr (hid ▸ Nat.lt_succ_self _)
    · split at ha
      · cases ha
      · exact .inl ⟨a, ha⟩

/-- **Whatever is asked**, the parts of every cache agree. -/
theorem agree_run (calls : List Call) : (empty.run calls).Agree := by
  suffices ∀ w : Caches, w.Agree → (w.run calls).Agree from this empty agree_empty
  intro w hw
  induction calls generalizing w with
  | nil => exact hw
  | cons call rest ih => exact ih (w.step call) (hw.step call)

end Caches

/-- The maker of functions of an executor does not say of itself that an artifact is missing. -/
def Executor.TranslatesApart (e : Executor) : Prop :=
  ∀ translate, e.translator = some translate → ∀ g specs statics unit id,
    translate g specs statics ≠ .error (.internal unit (.notCached id))

/-- Lowering does not. -/
theorem Executor.translatesApart_of_lowering {e : Executor}
    (h : e.translator = some .lowering) : e.TranslatesApart := by
  rintro translate htranslator g specs statics unit id herror
  obtain rfl := Option.some.inj (h.symm.trans htranslator)
  obtain ⟨fault, -, hfault⟩ := mapError_eq_error.1 herror
  cases fault <;> cases hfault

/-- **The three parts of a cache say the same.** After any calls on caches of one process, in any
order, the order of each cache lists the signatures of its index without repetition, the index is
injective and its values are the identities of the artifacts, every artifact is kept under its own
identity and signature, there are as many artifacts as signatures listed, and evicting gives an
artifact exactly if there is one. So in every process, neither looking up an executable nor
executing ends with an artifact missing from the cache, if the maker of functions does not say
so. -/
theorem caches_agree :
    (∀ (calls : List Caches.Call) (c : Cache), c ∈ (Caches.empty.run calls).caches →
      c.order.Nodup ∧ (∀ σ, σ ∈ c.order ↔ (c.index.get? σ).isSome = true) ∧
      (∀ σ τ id, c.index.get? σ = some id → c.index.get? τ = some id → σ = τ) ∧
      (∀ id, (∃ σ, c.index.get? σ = some id) ↔ (c.get? id).isSome = true) ∧
      (∀ id a, c.get? id = some a → a.id = id ∧ c.index.get? a.signature = some id) ∧
      c.size = c.order.length ∧ (c.evict.1.isSome = true ↔ c.size ≠ 0)) ∧
    ∀ (commands : List Command) (k o : Nat) (e : Executor) (inputs : List HostBuffer) unit id,
      (Process.empty.run commands).executors[k]? = some e → e.TranslatesApart →
      ((Process.empty.run commands).ask k o (.getExecutable inputs)).1 ≠
        some (.error (.internal unit (.notCached id))) ∧
      ((Process.empty.run commands).ask k o (.execute inputs)).1 ≠
        some (.error (.internal unit (.notCached id))) := by
  refine ⟨fun calls c hc => ?_, fun commands k o e inputs unit id he hapart => ?_⟩
  · have h := (Caches.agree_run calls).agrees c hc
    refine ⟨h.nodup, h.listed, fun σ τ id => h.index_injective, fun id => ⟨?_, fun hid => ?_⟩,
      h.kept, h.size_eq, h.evict_iff.2⟩
    · rintro ⟨σ, hσ⟩
      obtain ⟨a, ha, -⟩ := h.indexed σ id hσ
      rw [ha]
      rfl
    · obtain ⟨a, ha⟩ := Option.isSome_iff_exists.1 hid
      exact ⟨a.signature, (h.kept id a ha).2⟩
  · have hcompiled := compiled_run commands o he
    -- In an agreeing cache every index leads to an artifact, so only a translator reports this.
    have hno : ∀ error, ExecM.LookupFault ((Process.empty.run commands).stateOf e o) inputs error →
        error ≠ .internal unit (.notCached id) := by
      rintro error hfault rfl
      obtain ⟨computed, translate, -, htranslator, herror⟩ :=
        hfault.translation_of_missing hcompiled.consistent.agrees rfl
      exact hapart translate htranslator _ _ _ _ _ herror
    have hask : ∀ {r : Request}, Ends (r.perform ((Process.empty.run commands).stateOf e o))
        (fun _ _ => True) (fun error _ => error ≠ .internal unit (.notCached id)) →
        ((Process.empty.run commands).ask k o r).1 ≠
          some (.error (.internal unit (.notCached id))) := by
      intro r hends heq
      obtain ⟨s, -, ⟨a, ha, -⟩ | ⟨error, herror, hne⟩⟩ := Process.ask_of_ends he hends
      · rw [ha] at heq
        cases heq
      · exact hne (Except.error.inj (Option.some.inj (herror.symm.trans heq)))
    constructor
    · refine hask ?_
      unfold Request.perform
      rw [ends_bind]
      exact (ExecM.fault_getExecutable inputs).mono (fun _ _ _ => trivial) fun error _ => hno error
    · refine hask ?_
      unfold Request.perform
      rw [ends_bind]
      refine (ExecM.missing_execute hcompiled inputs).mono (fun _ _ _ => trivial) ?_
      rintro error t hmissing rfl
      exact hno _ (hmissing rfl) rfl

/-- Two caches for one artifact each. Into the first goes one more than it is deep, and then another
for a signature that it has; what is used last is evicted last. The second is evicted from while
there is nothing in it. -/
def overfull : List Caches.Call :=
  [.new 1, .new 0, .insert 0 "1;/" ⟨sumFunction .f32⟩ (sumFunction .f32),
    .insert 0 "2;/" ⟨sumFunction .f32⟩ (sumFunction .f32),
    .insert 1 "2;/" ⟨sumFunction .i32⟩ (sumFunction .i32),
    .insert 0 "1;/" ⟨sumFunction .i32⟩ (sumFunction .i32), .lookup 0 "2;/", .evict 1, .evict 1]

/-- The parts of the first cache agree: the artifact that was put in place of another is the one
that goes next. And the executor that has compiled a sum for floating point does not miss its
artifact. -/
theorem agree_of_overfull :
    (∃ c ∈ (Caches.empty.run overfull).caches, c.order = ["2;/", "1;/"] ∧ c.order.Nodup ∧
      c.index.get? "1;/" = some 3 ∧ (c.get? 3).isSome = true ∧ c.size = 2 ∧
      c.evict.1.map (·.id) = some 3 ∧ (c.evict.1.isSome = true ↔ c.size ≠ 0)) ∧
    ∃ e, (Process.empty.run twoDtypes).executors[0]? = some e ∧ e.TranslatesApart ∧
      ((Process.empty.run twoDtypes).ask 0 0
        (.execute [⟨⟨.i32, [1]⟩, 1⟩, ⟨⟨.i32, [1]⟩, 1⟩])).1 ≠
        some (.error (.internal "cluster_0" (.notCached 0))) := by
  obtain ⟨e, he, -, hlowers, -⟩ := executor_of_twoDtypes
  have hapart : e.TranslatesApart := Executor.translatesApart_of_lowering hlowers.translator
  refine ⟨?_, e, he, hapart,
    (caches_agree.2 twoDtypes 0 0 e [⟨⟨.i32, [1]⟩, 1⟩, ⟨⟨.i32, [1]⟩, 1⟩] "cluster_0" 0 he hapart).2⟩
  have hfirst : ((Caches.empty.run overfull).caches[0]?.map fun c =>
      (c.order, c.index.get? "1;/", c.size, c.evict.1.map (·.id))) =
      some (["2;/", "1;/"], some 3, 2, some 3) := by decide +kernel
  obtain ⟨c, hc, hparts⟩ := Option.map_eq_some_iff.1 hfirst
  obtain ⟨horder, hrest⟩ := Prod.mk.inj hparts
  obtain ⟨hindex, hrest⟩ := Prod.mk.inj hrest
  obtain ⟨hsize, hevict⟩ := Prod.mk.inj hrest
  obtain ⟨hnodup, -, -, hvalues, -, -, hiff⟩ := caches_agree.1 overfull c (List.mem_of_getElem? hc)
  exact ⟨c, List.mem_of_getElem? hc, horder, hnodup, hindex, (hvalues 3).1 ⟨_, hindex⟩, hsize,
    hevict, hiff⟩

end TensorJit
