import Mathlib.Data.List.Nodup
import TensorJit.Json.Record
import TensorJit.Proofs.Json.Reader

/-!
# Reading records back

A record that is written with its fields is read with these fields (`Json.record?_record`), if no two
have the same name, and a list of values with these values (`Json.list?_array`).
-/

namespace TensorJit.Json

/-- Items that are all read, each as what `g` makes of it. -/
theorem option_mapM_eq_some {α β : Type} {f : α → Option β} {g : α → β} {l : List α}
    (h : ∀ a ∈ l, f a = some (g a)) : l.mapM f = some (l.map g) := by
  induction l with
  | nil => rfl
  | cons a l ih =>
    rw [List.mapM_cons, h a List.mem_cons_self, ih fun b hb => h b (List.mem_cons_of_mem _ hb)]
    rfl

theorem fields?_record (fields : List (String × Json)) : fields? (record fields) = some fields := by
  unfold record fields?
  dsimp only
  rw [List.mapM_map]
  exact (option_mapM_eq_some (g := id) fun f _ => rfl).trans (by rw [List.map_id])

/-- A field whose name no other has is the only one of its name. -/
theorem valuesOf_eq_singleton {fields : List (String × Json)} (h : (fields.map (·.1)).Nodup)
    {f : String × Json} (hf : f ∈ fields) : valuesOf f.1 fields = [f.2] := by
  unfold valuesOf
  induction fields with
  | nil => cases hf
  | cons g fields ih =>
    rw [List.map_cons, List.nodup_cons] at h
    rcases List.mem_cons.1 hf with rfl | hf
    · have hnone : fields.filter (·.1 = f.1) = [] := List.filter_eq_nil_iff.2 fun e he heq =>
        h.1 (List.mem_map.2 ⟨e, he, of_decide_eq_true heq⟩)
      have hself : decide (f.1 = f.1) = true := decide_eq_true rfl
      rw [List.filter_cons, hself, hnone]
      rfl
    · have hne : g.1 ≠ f.1 := fun heq => h.1 (heq ▸ List.mem_map_of_mem hf)
      rw [List.filter_cons_of_neg (by rw [decide_eq_false hne]; exact Bool.false_ne_true)]
      exact ih h.2 hf

/-- **A record** is read back with all its fields, in order. -/
theorem record?_record {fields : List (String × Json)} (h : (fields.map (·.1)).Nodup) :
    record? (fields.map (·.1)) (record fields) = some (fields.map fun f => some f.2) := by
  change (fields? (record fields)).bind _ = _
  rw [fields?_record, Option.bind_some, List.mapM_map]
  refine option_mapM_eq_some fun f hf => ?_
  rw [Function.comp_apply, valuesOf_eq_singleton h hf]

/-- **A list** is read back if its items are. -/
theorem list?_array {α : Type} {item : Json → Option α} {write : α → Json} {l : List α}
    (h : ∀ a ∈ l, item (write a) = some a) : list? item (.array (l.map write)) = some l := by
  unfold list?
  dsimp only
  rw [List.mapM_map]
  exact (option_mapM_eq_some (g := id) h).trans (by rw [List.map_id])

/-- A number below `2 ^ 64` is read back. -/
theorem word?_nat {n : Nat} (h : n < 2 ^ 64) : word? (.nat n) = some n := by
  unfold word? nat
  dsimp only
  rw [if_pos ⟨Int.natCast_nonneg n, by exact_mod_cast h⟩, Int.toNat_natCast]

theorem readable_array_map {α : Type} {write : α → Json} (h : ∀ a, (write a).Readable)
    (l : List α) : (array (l.map write)).Readable := by
  refine readableItems_iff.2 fun v hv => ?_
  obtain ⟨a, -, rfl⟩ := List.mem_map.1 hv
  exact h a

end TensorJit.Json
