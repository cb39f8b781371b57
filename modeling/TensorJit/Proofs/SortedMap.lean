import Mathlib.Data.List.Basic
import TensorJit.SortedMap

/-!
# Sizes of finite maps

How many entries a map has after each operation, and what a look-up says after `modify`. A key
is never entered twice, so **an insertion makes the map larger exactly when the key is new**. After
many insertions a key is found with the value that it was entered with last; and a map that is
entered into another under new names is there as it was (`SortedMap.mem_foldl_insert_toList`).
-/

namespace TensorJit.SortedMap

universe u v

variable {κ : Type u} {α : Type v} [Ord κ]

theorem length_insertEntry_of_none {k : κ} {a : α} {l : List (κ × α)}
    (h : lookupEntry k l = none) : (insertEntry k a l).length = l.length + 1 := by
  induction l with
  | nil => rfl
  | cons e l ih =>
    unfold lookupEntry at h
    split at h
    · cases h
    · rename_i hne
      unfold insertEntry
      split
      · rfl
      · rename_i heq
        exact absurd heq hne
      · rw [List.length_cons, ih h, List.length_cons]

theorem lookupEntry_eq_none_of_lt {k : κ} {l : List (κ × α)}
    (h : ∀ e ∈ l, compare k e.1 = .lt) : lookupEntry k l = none := by
  induction l with
  | nil => rfl
  | cons e l ih =>
    unfold lookupEntry
    rw [h e List.mem_cons_self, if_neg (by decide)]
    exact ih fun f hf => h f (List.mem_cons_of_mem _ hf)

variable [Std.TransOrd κ]

theorem length_insertEntry_of_some {k : κ} {a b : α} {l : List (κ × α)}
    (hl : l.Pairwise fun a b => compare a.1 b.1 = .lt) (h : lookupEntry k l = some b) :
    (insertEntry k a l).length = l.length := by
  induction l with
  | nil => cases h
  | cons e l ih =>
    have hhd : ∀ f ∈ l, compare e.1 f.1 = .lt := fun f hf => List.rel_of_pairwise_cons hl hf
    unfold insertEntry
    split
    · -- A key below the first one is below all of them.
      rename_i hlt
      have hnone : lookupEntry k (e :: l) = none := lookupEntry_eq_none_of_lt fun f hf => by
        rcases List.mem_cons.1 hf with rfl | hf
        · exact hlt
        · exact Std.TransCmp.lt_trans hlt (hhd f hf)
      rw [hnone] at h
      cases h
    · rfl
    · rename_i hgt
      unfold lookupEntry at h
      rw [hgt, if_neg (by decide)] at h
      rw [List.length_cons, ih hl.of_cons h, List.length_cons]

/-- A new key makes the map larger by one. -/
theorem size_insert_of_none {m : SortedMap κ α} {k : κ} (a : α) (h : m.get? k = none) :
    (m.insert k a).size = m.size + 1 := length_insertEntry_of_none h

/-- A key that is there already leaves the size as it is. -/
theorem size_insert_of_some {m : SortedMap κ α} {k : κ} {b : α} (a : α) (h : m.get? k = some b) :
    (m.insert k a).size = m.size := length_insertEntry_of_some m.sorted h

@[simp]
theorem size_modify (m : SortedMap κ α) (k : κ) (f : α → α) : (m.modify k f).size = m.size := by
  unfold modify
  split
  · rename_i a ha
    exact size_insert_of_some _ ha
  · rfl

variable [Std.LawfulEqOrd κ] [DecidableEq κ]

/-- It does not matter for a key that is set whether it was erased before. -/
theorem insert_erase (m : SortedMap κ α) (k : κ) (a : α) :
    (m.erase k).insert k a = m.insert k a := by
  refine ext_get? fun j => ?_
  rw [get?_insert, get?_erase, get?_insert]
  split
  · rfl
  · rfl

theorem insert_of_get?_eq_some {m : SortedMap κ α} {k : κ} {a : α} (h : m.get? k = some a) :
    m.insert k a = m := by
  refine ext_get? fun j => ?_
  rw [get?_insert]
  split
  · rename_i hj
    rw [hj, h]
  · rfl

theorem erase_of_get?_eq_none {m : SortedMap κ α} {k : κ} (h : m.get? k = none) :
    m.erase k = m := by
  refine ext_get? fun j => ?_
  rw [get?_erase]
  split
  · rename_i hj
    rw [hj, h]
  · rfl

/-- Erasing a key that is there makes the map smaller by one. -/
theorem size_erase_of_some {m : SortedMap κ α} {k : κ} {b : α} (h : m.get? k = some b) :
    (m.erase k).size + 1 = m.size := by
  have hnone : (m.erase k).get? k = none := by rw [get?_erase, if_pos rfl]
  rw [← size_insert_of_none b hnone, insert_erase, insert_of_get?_eq_some h]

/-- Modifying a key changes the look-up of that key alone. -/
@[simp]
theorem get?_modify (m : SortedMap κ α) (k : κ) (f : α → α) (j : κ) :
    (m.modify k f).get? j = if j = k then (m.get? k).map f else m.get? j := by
  unfold modify
  split
  · rename_i a ha
    rw [get?_insert, ha]
    rfl
  · rename_i hnone
    split
    · rename_i hj
      rw [hj, hnone]
      rfl
    · rfl

omit [DecidableEq κ] in
/-- Maps with the same entries are equal. -/
theorem ext_toList {m n : SortedMap κ α} (h : ∀ e, e ∈ m.toList ↔ e ∈ n.toList) : m = n :=
  eq_of_entries_eq (eq_of_sorted_of_mem_iff m.sorted n.sorted h)

omit [Std.TransOrd κ] [Std.LawfulEqOrd κ] [DecidableEq κ] in
/-- An entry of a part of a map is an entry of the map that is accepted. -/
theorem mem_filter {m : SortedMap κ α} {p : κ → α → Bool} {e : κ × α} :
    e ∈ (m.filter p).toList ↔ e ∈ m.toList ∧ p e.1 e.2 = true := List.mem_filter

omit [Std.TransOrd κ] [DecidableEq κ] in
/-- A map without entries is one in which nothing is found. -/
theorem isEmpty_iff {m : SortedMap κ α} : m.isEmpty = true ↔ ∀ k, m.get? k = none := by
  constructor
  · intro h k
    rw [get?, List.isEmpty_iff.1 h]
    rfl
  · intro h
    refine List.isEmpty_iff.2 (List.eq_nil_iff_forall_not_mem.2 fun e he => ?_)
    have hfound := get?_eq_some_iff.2 he
    rw [h] at hfound
    cases hfound

/-! ### Many insertions -/

section Fold

variable {β : Type*} {l : List β} {key : β → κ} {value : β → α}

omit [Std.LawfulEqOrd κ] [DecidableEq κ] in
/-- An entry was there before, or has been entered. -/
theorem mem_of_mem_foldl_insert {m : SortedMap κ α} {e : κ × α}
    (h : e ∈ (l.foldl (fun m b => m.insert (key b) (value b)) m).toList) :
    e ∈ m.toList ∨ ∃ b ∈ l, e = (key b, value b) := by
  induction l generalizing m with
  | nil => exact .inl h
  | cons c l ih =>
    rcases ih h with h | ⟨b, hb, rfl⟩
    · rcases mem_insertEntry h with rfl | h
      · exact .inr ⟨c, List.mem_cons_self, rfl⟩
      · exact .inl h
    · exact .inr ⟨b, List.mem_cons_of_mem _ hb, rfl⟩

theorem get?_foldl_insert_of_forall_ne (m : SortedMap κ α) {j : κ} (h : ∀ b ∈ l, key b ≠ j) :
    (l.foldl (fun m b => m.insert (key b) (value b)) m).get? j = m.get? j := by
  induction l generalizing m with
  | nil => rfl
  | cons b l ih =>
    rw [List.foldl_cons, ih _ fun c hc => h c (List.mem_cons_of_mem _ hc), get?_insert,
      if_neg (h b List.mem_cons_self).symm]

/-- A key that is entered only with one value is found with it. -/
theorem get?_foldl_insert_of_mem (m : SortedMap κ α) {b : β} (hb : b ∈ l)
    (h : ∀ c ∈ l, key c = key b → value c = value b) :
    (l.foldl (fun m b => m.insert (key b) (value b)) m).get? (key b) = some (value b) := by
  induction l generalizing m b with
  | nil => cases hb
  | cons c l ih =>
    rw [List.foldl_cons]
    by_cases hlast : ∃ d ∈ l, key d = key b
    · obtain ⟨d, hd, hkey⟩ := hlast
      have hvalue : value d = value b := h d (List.mem_cons_of_mem _ hd) hkey
      rw [← hkey, ← hvalue]
      exact ih _ hd fun e he heq =>
        (h e (List.mem_cons_of_mem _ he) (heq.trans hkey)).trans hvalue.symm
    · have hne : ∀ d ∈ l, key d ≠ key b := fun d hd heq => hlast ⟨d, hd, heq⟩
      obtain rfl : b = c := by
        rcases List.mem_cons.1 hb with rfl | hb
        · rfl
        · exact absurd rfl (hne b hb)
      rw [get?_foldl_insert_of_forall_ne _ hne, get?_insert, if_pos rfl]

end Fold

section Renamed

variable {ι : Type u} [Ord ι] [Std.TransOrd ι] [Std.LawfulEqOrd ι] [DecidableEq ι] {β : Type v}

omit [Std.TransOrd κ] [DecidableEq κ] in
/-- **A map entered into another under new names**: its entries win. -/
theorem mem_foldl_insert_toList (m : SortedMap κ α) (n : SortedMap ι β) {name : κ → ι}
    (value : α → β) (hname : name.Injective) {e : ι × β} :
    e ∈ (m.toList.foldl (fun n e => n.insert (name e.1) (value e.2)) n).toList ↔
      (∃ k a, m.get? k = some a ∧ e = (name k, value a)) ∨
        (e ∈ n.toList ∧ ∀ k a, m.get? k = some a → name k ≠ e.1) := by
  have hmem : ∀ {k a}, m.get? k = some a →
      (m.toList.foldl (fun n e => n.insert (name e.1) (value e.2)) n).get? (name k) =
        some (value a) := by
    intro k a ha
    refine get?_foldl_insert_of_mem n (get?_eq_some_iff.1 ha) ?_
    rintro ⟨j, b⟩ hb hj
    obtain rfl : j = k := hname hj
    exact congrArg value (Option.some.inj ((get?_eq_some_iff.2 hb).symm.trans ha))
  constructor
  · intro h
    by_cases hnew : ∀ k a, m.get? k = some a → name k ≠ e.1
    · rcases mem_of_mem_foldl_insert h with h | ⟨⟨k, a⟩, ha, rfl⟩
      · exact .inr ⟨h, hnew⟩
      · exact absurd rfl (hnew k a (get?_eq_some_iff.2 ha))
    · obtain ⟨k, a, ha, hk⟩ : ∃ k a, m.get? k = some a ∧ name k = e.1 := by
        push Not at hnew
        exact hnew
      have hvalue : some e.2 = some (value a) := (get?_eq_some_iff.2 h).symm.trans (hk ▸ hmem ha)
      exact .inl ⟨k, a, ha, Prod.ext hk.symm (Option.some.inj hvalue)⟩
  · rintro (⟨k, a, ha, rfl⟩ | ⟨h, hnew⟩)
    · exact get?_eq_some_iff.1 (hmem ha)
    · refine get?_eq_some_iff.1 ?_
      rw [get?_foldl_insert_of_forall_ne n fun b hb => hnew b.1 b.2 (get?_eq_some_iff.2 hb)]
      exact get?_eq_some_iff.2 h

end Renamed

end TensorJit.SortedMap
