import Mathlib.Data.Finset.Card
import TensorJit.Proofs.Freshness

/-!
# A registry of fresh copies as the record of its calls

Whoever copies a buffer, changes one or drops an artifact tells the registry, and the registry
keeps one record for each buffer. What it answers is a matter of the calls alone: **a copy is
current exactly if it has been marked since its buffer was last invalidated and since its artifact
was last forgotten** (`FreshnessCall.MarkedSince`). The records are neither more nor larger than
that: a registry that has been told anything whatever counts every current copy once, and has no
record without one.
-/

namespace TensorJit

/-! ### Calls -/

/-- What a registry can be told. -/
inductive FreshnessCall where
  /-- A copy of a buffer has been made for an artifact. -/
  | mark (host : StorageId) (artifact : ArtifactId)
  /-- A buffer has changed. -/
  | invalidate (host : StorageId)
  /-- An artifact is gone. -/
  | forget (artifact : ArtifactId)
  deriving DecidableEq, Repr

namespace FreshnessCall

/-- The registry after a call. -/
def apply (r : FreshnessRegistry) : FreshnessCall → FreshnessRegistry
  | mark host artifact => r.mark host artifact
  | invalidate host => r.invalidate host
  | forget artifact => r.forget artifact

/-- The registry after calls, first call first. -/
def registryAfter (calls : List FreshnessCall) : FreshnessRegistry :=
  calls.foldl apply .empty

/-- A copy has been marked, and neither has its buffer been invalidated nor its artifact been
forgotten after that. -/
def MarkedSince (calls : List FreshnessCall) (host : StorageId) (artifact : ArtifactId) : Prop :=
  ∃ before after, calls = before ++ mark host artifact :: after ∧
    invalidate host ∉ after ∧ forget artifact ∉ after

variable {calls : List FreshnessCall} {host h : StorageId} {artifact a : ArtifactId}

theorem not_markedSince_nil : ¬ MarkedSince [] h a := by
  rintro ⟨before, after, hcalls, -⟩
  cases before <;> cases hcalls

/-- **What one more call changes.** -/
theorem markedSince_concat {call : FreshnessCall} :
    MarkedSince (calls ++ [call]) h a ↔
      call = mark h a ∨ MarkedSince calls h a ∧ call ≠ invalidate h ∧ call ≠ forget a := by
  constructor
  · rintro ⟨before, after, hcalls, hinvalidate, hforget⟩
    rcases List.eq_nil_or_concat after with rfl | ⟨after, last, rfl⟩
    · rw [List.append_singleton_inj] at hcalls
      exact .inl hcalls.2
    · rw [List.concat_eq_append, ← List.cons_append, ← List.append_assoc,
        List.append_singleton_inj] at hcalls
      obtain ⟨rfl, rfl⟩ := hcalls
      rw [List.concat_eq_append, List.mem_append, List.mem_singleton, not_or] at hinvalidate hforget
      exact .inr ⟨⟨before, after, rfl, hinvalidate.1, hforget.1⟩, Ne.symm hinvalidate.2,
        Ne.symm hforget.2⟩
  · rintro (rfl | ⟨⟨before, after, rfl, hinvalidate, hforget⟩, hcall, hcall'⟩)
    · exact ⟨calls, [], rfl, List.not_mem_nil, List.not_mem_nil⟩
    · refine ⟨before, after ++ [call], List.append_assoc .., ?_, ?_⟩
      · rw [List.mem_append, List.mem_singleton, not_or]
        exact ⟨hinvalidate, Ne.symm hcall⟩
      · rw [List.mem_append, List.mem_singleton, not_or]
        exact ⟨hforget, Ne.symm hcall'⟩

theorem registryAfter_concat (calls : List FreshnessCall) (call : FreshnessCall) :
    registryAfter (calls ++ [call]) = call.apply (registryAfter calls) :=
  List.foldl_concat ..

end FreshnessCall

/-! ### The pairs of a registry -/

namespace FreshnessRegistry

variable {r : FreshnessRegistry} {host h : StorageId} {artifact a : ArtifactId}

/-- The pairs of a buffer and an artifact that the records list. -/
def pairs (r : FreshnessRegistry) : List (StorageId × ArtifactId) :=
  r.copies.entries.flatMap fun e => e.2.map (e.1, ·)

theorem size_eq_length_pairs (r : FreshnessRegistry) : r.size = r.pairs.length := by
  unfold size pairs SortedMap.values
  rw [List.length_flatMap, List.map_map, List.sum_eq_foldr]
  simp only [List.length_map]
  rfl

/-- Whoever holds a copy is in a record. -/
theorem mem_holders_iff : a ∈ r.holders h ↔ ∃ l, (h, l) ∈ r.copies.entries ∧ a ∈ l := by
  unfold holders
  constructor
  · intro hmem
    cases hget : r.copies.get? h with
    | none => rw [hget] at hmem; cases hmem
    | some l =>
      rw [hget] at hmem
      exact ⟨l, SortedMap.get?_eq_some_iff.1 hget, hmem⟩
  · rintro ⟨l, hl, hmem⟩
    rw [SortedMap.get?_eq_some_iff.2 hl]
    exact hmem

theorem mem_pairs : (h, a) ∈ r.pairs ↔ r.isFresh h a = true := by
  unfold pairs
  rw [isFresh_iff, mem_holders_iff, List.mem_flatMap]
  constructor
  · rintro ⟨⟨host, l⟩, hl, hmem⟩
    obtain ⟨artifact, hartifact, heq⟩ := List.mem_map.1 hmem
    cases heq
    exact ⟨l, hl, hartifact⟩
  · rintro ⟨l, hl, hmem⟩
    exact ⟨(h, l), hl, List.mem_map.2 ⟨a, hmem, rfl⟩⟩

/-- If no record lists an artifact twice, no pair is listed twice. -/
theorem Single.nodup_pairs (hr : r.Single) : r.pairs.Nodup := by
  refine List.nodup_flatMap.2 ⟨fun e he => ?_, r.copies.sorted.imp fun {e f} hlt => ?_⟩
  · have hholders : r.holders e.1 = e.2 := by
      unfold holders
      rw [SortedMap.get?_eq_some_iff.2 he]
      rfl
    exact (hholders ▸ hr e.1).map fun _ _ heq => congrArg Prod.snd heq
  · -- The records are of different buffers.
    intro p hp hp'
    obtain ⟨_, -, rfl⟩ := List.mem_map.1 hp
    obtain ⟨_, -, heq⟩ := List.mem_map.1 hp'
    rw [(Prod.mk.inj heq).1, show compare e.1 e.1 = .eq from Std.ReflCmp.compare_self] at hlt
    cases hlt

/-- Every record lists an artifact. -/
def Compact (r : FreshnessRegistry) : Prop := ∀ h, r.copies.get? h ≠ some []

theorem compact_empty : empty.Compact := fun _ => nofun

theorem Compact.mark (hr : r.Compact) (host : StorageId) (artifact : ArtifactId) :
    (r.mark host artifact).Compact := by
  intro h
  unfold FreshnessRegistry.mark
  rw [SortedMap.get?_insert]
  split
  · intro heq
    exact List.ne_nil_of_mem (List.mem_insert_self) (Option.some.inj heq)
  · exact hr h

theorem Compact.invalidate (hr : r.Compact) (host : StorageId) : (r.invalidate host).Compact := by
  intro h
  unfold FreshnessRegistry.invalidate
  rw [SortedMap.get?_erase]
  split
  · exact nofun
  · exact hr h

/-- Forgetting leaves no record without artifacts, whether or not there was one. -/
theorem compact_forget (r : FreshnessRegistry) (artifact : ArtifactId) :
    (r.forget artifact).Compact := by
  intro h heq
  have hmem := (List.mem_filter.1 (SortedMap.get?_eq_some_iff.1 heq)).2
  cases hmem

theorem isEmpty_iff : r.isEmpty = true ↔ ∀ h a, r.isFresh h a = false := by
  unfold isEmpty
  rw [decide_eq_true_iff, size_eq_length_pairs, List.length_eq_zero_iff,
    List.eq_nil_iff_forall_not_mem]
  refine ⟨fun hnone h a => ?_, fun hnone p hp => ?_⟩
  · exact Bool.eq_false_iff.2 fun hfresh => hnone _ (mem_pairs.2 hfresh)
  · exact Bool.eq_false_iff.1 (hnone p.1 p.2) (mem_pairs.1 hp)

end FreshnessRegistry

/-! ### The registry after calls -/

namespace FreshnessCall

variable {calls : List FreshnessCall} {r : FreshnessRegistry} {h : StorageId} {a : ArtifactId}

/-- The registry says of each copy what the calls say, lists it once, and has no other record. -/
structure Records (calls : List FreshnessCall) (r : FreshnessRegistry) : Prop where
  /-- The current copies are what the calls say. -/
  fresh : ∀ h a, r.isFresh h a = true ↔ MarkedSince calls h a
  /-- Every copy is listed once. -/
  single : r.Single
  /-- Every record lists a copy. -/
  compact : r.Compact

theorem records_nil : Records [] .empty where
  fresh _ _ := ⟨nofun, fun h => absurd h not_markedSince_nil⟩
  single := FreshnessRegistry.single_empty
  compact := FreshnessRegistry.compact_empty

/-- **One call**, by its kind. -/
theorem Records.apply (hr : Records calls r) (call : FreshnessCall) :
    Records (calls ++ [call]) (call.apply r) := by
  cases call with
  | mark host artifact =>
    refine ⟨fun h a => ?_, hr.single.mark host artifact, hr.compact.mark host artifact⟩
    rw [markedSince_concat, ← hr.fresh, mark.injEq, eq_comm (a := host), eq_comm (a := artifact)]
    refine FreshnessRegistry.isFresh_mark.trans (or_comm.trans (or_congr_right ?_))
    exact ⟨fun hfresh => ⟨hfresh, nofun, nofun⟩, And.left⟩
  | invalidate host =>
    refine ⟨fun h a => ?_, hr.single.invalidate host, hr.compact.invalidate host⟩
    rw [markedSince_concat, ← hr.fresh, ne_eq, invalidate.injEq]
    refine FreshnessRegistry.isFresh_invalidate.trans ⟨fun hfresh => ?_, fun hfresh => ?_⟩
    · exact .inr ⟨hfresh.1, hfresh.2.symm, nofun⟩
    · rcases hfresh with hfresh | hfresh
      · cases hfresh
      · exact ⟨hfresh.1, fun heq => hfresh.2.1 heq.symm⟩
  | forget artifact =>
    refine ⟨fun h a => ?_, hr.single.forget artifact, FreshnessRegistry.compact_forget r artifact⟩
    rw [markedSince_concat, ← hr.fresh, ne_eq (forget artifact) (forget a), forget.injEq]
    refine hr.single.isFresh_forget.trans ⟨fun hfresh => ?_, fun hfresh => ?_⟩
    · exact .inr ⟨hfresh.1, nofun, hfresh.2.symm⟩
    · rcases hfresh with hfresh | hfresh
      · cases hfresh
      · exact ⟨hfresh.1, fun heq => hfresh.2.2 heq.symm⟩

/-- **Every registry is the record of its calls**, by induction on them. -/
theorem records_registryAfter (calls : List FreshnessCall) :
    Records calls (registryAfter calls) := by
  induction calls using List.reverseRecOn with
  | nil => exact records_nil
  | append_singleton calls call ih =>
    rw [registryAfter_concat]
    exact ih.apply call

/-- The pairs that are current after calls, as a finite set. -/
theorem Records.exists_finset (hr : Records calls r) :
    ∃ pairs : Finset (StorageId × ArtifactId),
      (∀ h a, (h, a) ∈ pairs ↔ MarkedSince calls h a) ∧ r.size = pairs.card := by
  refine ⟨r.pairs.toFinset, fun h a => ?_, ?_⟩
  · rw [List.mem_toFinset, FreshnessRegistry.mem_pairs, hr.fresh]
  · rw [List.toFinset_card_of_nodup hr.single.nodup_pairs, FreshnessRegistry.size_eq_length_pairs]

/-- **A registry is the set of the copies marked since.** After any calls, it calls a copy current
exactly if the copy has been marked since its buffer was last invalidated and its artifact last
forgotten; its size is the number of these copies, it is empty if there are none, and no buffer has
a record without one. -/
theorem fresh_iff_markedSince (calls : List FreshnessCall) :
    (∀ host artifact, (registryAfter calls).isFresh host artifact = true ↔
      MarkedSince calls host artifact) ∧
    (∃ pairs : Finset (StorageId × ArtifactId),
      (∀ host artifact, (host, artifact) ∈ pairs ↔ MarkedSince calls host artifact) ∧
      (registryAfter calls).size = pairs.card) ∧
    ((registryAfter calls).isEmpty = true ↔
      ∀ host artifact, ¬ MarkedSince calls host artifact) ∧
    ∀ host, (registryAfter calls).copies.get? host ≠ some [] := by
  have hr := records_registryAfter calls
  refine ⟨hr.fresh, hr.exists_finset, ?_, hr.compact⟩
  rw [FreshnessRegistry.isEmpty_iff]
  exact forall₂_congr fun h a => by rw [← hr.fresh, Bool.not_eq_true]

end FreshnessCall

end TensorJit
