import TensorJit.Proofs.AotTable
import TensorJit.Proofs.Executor.Compile
import TensorJit.Proofs.Function.Serialized
import TensorJit.Proofs.Function.Stored

/-!
# Tables of executors

The table of an executor has executable and function of each artifact in the cache, under the
signature of the artifact (`Executor.aotTable`). An executor that runs on this table finds in it
what the artifacts hold, **the executable and the function, read back from what they are written
as** (`Executor.product?_of_artifact`), and for a signature that is not in the cache it finds
nothing (`Executor.product?_of_not_listed`).
-/

namespace TensorJit

namespace Executor

/-- The table with the executables and the functions of all artifacts. -/
def aotTable (e : Executor) : AotTable :=
  e.cache.artifacts.values.foldl (fun table a =>
    (table.insertExecutable a.signature a.executable.serialize).insertFunction a.signature
      a.function) .empty

/-- Its executables and its functions are entered side by side. -/
theorem aotTable_eq (e : Executor) : e.aotTable =
    ⟨e.cache.artifacts.values.foldl (fun m a => m.insert a.signature a.executable.serialize) .empty,
      e.cache.artifacts.values.foldl (fun m a => m.insert a.signature a.function.toText)
        .empty⟩ := by
  unfold aotTable
  suffices ∀ (l : List Artifact) (table : AotTable), l.foldl (fun table a =>
      (table.insertExecutable a.signature a.executable.serialize).insertFunction a.signature
        a.function) table =
      ⟨l.foldl (fun m a => m.insert a.signature a.executable.serialize) table.executables,
        l.foldl (fun m a => m.insert a.signature a.function.toText) table.functions⟩ from
    this _ .empty
  intro l
  induction l with
  | nil => exact fun _ => rfl
  | cons a l ih => exact fun table => ih _

variable {e f : Executor} {id : ArtifactId} {a : Artifact} {σ : Signature}

theorem mem_artifacts_iff : a ∈ e.cache.artifacts.values ↔ ∃ id, e.cache.get? id = some a := by
  unfold Cache.get? SortedMap.values
  simp only [SortedMap.get?_eq_some_iff, List.mem_map]
  constructor
  · rintro ⟨⟨id, b⟩, hb, rfl⟩
    exact ⟨id, hb⟩
  · rintro ⟨id, ha⟩
    exact ⟨(id, a), ha, rfl⟩

/-- Artifacts of one signature are the same. -/
theorem eq_of_signature_eq (h : e.cache.Consistent) (ha : a ∈ e.cache.artifacts.values)
    {b : Artifact} (hb : b ∈ e.cache.artifacts.values) (hsignature : b.signature = a.signature) :
    b = a := by
  obtain ⟨i, hi⟩ := mem_artifacts_iff.1 ha
  obtain ⟨j, hj⟩ := mem_artifacts_iff.1 hb
  have hindex := (h.kept j b hj).2
  rw [hsignature, (h.kept i a hi).2] at hindex
  obtain rfl := Option.some.inj hindex
  exact Option.some.inj (hj.symm.trans hi)

/-- **The executable of an artifact** is in the table. -/
theorem executable?_aotTable (h : e.cache.Consistent) (ha : e.cache.get? id = some a) :
    e.aotTable.executable? a.signature = some a.executable.serialize := by
  have hmem := mem_artifacts_iff.2 ⟨id, ha⟩
  unfold AotTable.executable?
  rw [aotTable_eq]
  exact SortedMap.get?_foldl_insert_of_mem .empty hmem fun b hb hsignature => by
    rw [eq_of_signature_eq h hmem hb hsignature]

/-- **So is its function.** -/
theorem function?_aotTable (h : e.cache.Consistent) (ha : e.cache.get? id = some a) :
    e.aotTable.function? a.signature = some (Function.ofText? a.function.toText) := by
  have hmem := mem_artifacts_iff.2 ⟨id, ha⟩
  unfold AotTable.function?
  rw [aotTable_eq, SortedMap.get?_foldl_insert_of_mem .empty hmem fun b hb hsignature => by
    rw [eq_of_signature_eq h hmem hb hsignature]]
  rfl

/-- There is nothing else in the table. -/
theorem function?_aotTable_of_not_listed (h : e.cache.Consistent) (hσ : σ ∉ e.cache.order) :
    e.aotTable.function? σ = none := by
  unfold AotTable.function?
  rw [aotTable_eq, SortedMap.get?_foldl_insert_of_forall_ne _ fun a ha heq => ?_]
  · rfl
  · obtain ⟨id, ha⟩ := mem_artifacts_iff.1 ha
    refine hσ ((h.listed σ).2 ?_)
    rw [← heq, (h.kept id a ha).2]
    rfl

/-- A signature that the cache lists has an artifact. -/
theorem exists_artifact (h : e.cache.Consistent) (hσ : σ ∈ e.cache.order) :
    ∃ id a, e.cache.get? id = some a ∧ a.signature = σ := by
  obtain ⟨id, hid⟩ := Option.isSome_iff_exists.1 ((h.listed σ).1 hσ)
  obtain ⟨a, ha, hsignature⟩ := h.indexed σ id hid
  exact ⟨id, a, ha, hsignature⟩

/-- **The signatures of the table** are those that the cache lists. -/
theorem function?_aotTable_isSome_iff (h : e.cache.Consistent) :
    (e.aotTable.function? σ).isSome = true ↔ σ ∈ e.cache.order := by
  constructor
  · intro hsome
    by_contra hσ
    rw [function?_aotTable_of_not_listed h hσ] at hsome
    cases hsome
  · intro hσ
    obtain ⟨id, a, ha, rfl⟩ := exists_artifact h hσ
    rw [function?_aotTable h ha]
    rfl

/-! ### Running on a table -/

variable {computed : Signature.Computed}

/-- **What an executor on the table makes for a signature** is what the artifact of the signature
holds. -/
theorem product?_of_artifact (htable : f.config.aot = some e.aotTable) (h : e.cache.Consistent)
    (ha : e.cache.get? id = some a) (hwords : a.function.Words)
    (hexecutable : a.executable.function.FitsWords)
    (hsignature : computed.signature = a.signature) :
    f.product? computed = some (a.function, a.executable) := by
  refine product?_eq_some_iff.2 ⟨?_, ?_⟩
  · unfold function?
    rw [htable]
    dsimp only
    rw [hsignature, function?_aotTable h ha, Function.ofText?_toText hwords]
    rfl
  · unfold executable?
    rw [htable]
    dsimp only
    rw [hsignature, executable?_aotTable h ha]
    unfold Executable.serialize
    rw [Option.bind_some, Function.deserialize?_serialize hexecutable]
    rfl

/-- For other signatures it makes nothing. -/
theorem product?_of_not_listed (htable : f.config.aot = some e.aotTable) (h : e.cache.Consistent)
    (hσ : computed.signature ∉ e.cache.order) : f.product? computed = none := by
  refine product?_of_function?_eq_none ?_
  unfold function?
  rw [htable]
  dsimp only
  rw [function?_aotTable_of_not_listed h hσ]
  rfl

end Executor

end TensorJit
