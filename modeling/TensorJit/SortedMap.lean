/-!
# Finite maps with one representation each

A unit's attributes, its options, its precompiled table and the indices of its cache are all
finite maps, and most of them are printed in the order of their keys. `SortedMap` keeps the
entries in a list that is strictly increasing in the key, and carries the proof of it. So
**two maps that answer every look-up alike are equal** (`SortedMap.ext_get?`), which is what
lets a round trip through text be stated as an equality.

| operation | what it does to look-ups |
|---|---|
| `SortedMap.empty` | `get?_empty` |
| `SortedMap.insert` | `get?_insert` |
| `SortedMap.erase` | `get?_erase` |
-/

namespace TensorJit

universe u v w

/-- A finite map from `κ` to `α`, its entries strictly increasing in the key. -/
structure SortedMap (κ : Type u) (α : Type v) [Ord κ] where
  /-- The entries, least key first. -/
  entries : List (κ × α)
  /-- Every key is below all the keys after it. -/
  sorted : entries.Pairwise fun a b => compare a.1 b.1 = .lt

namespace SortedMap

variable {κ : Type u} {α : Type v} {β : Type w} [Ord κ]

instance [DecidableEq κ] [DecidableEq α] : DecidableEq (SortedMap κ α) := fun m n =>
  decidable_of_iff (m.entries = n.entries) (by cases m; cases n; simp)

/-- The map without entries. -/
def empty : SortedMap κ α := ⟨[], .nil⟩

instance : Inhabited (SortedMap κ α) := ⟨empty⟩

instance : EmptyCollection (SortedMap κ α) := ⟨empty⟩

/-- The value of the first entry under `k`. -/
def lookupEntry (k : κ) : List (κ × α) → Option α
  | [] => none
  | (l, b) :: rest => if compare k l = .eq then some b else lookupEntry k rest

/-- The entries with `k` set to `a`, every other key as before. -/
def insertEntry (k : κ) (a : α) : List (κ × α) → List (κ × α)
  | [] => [(k, a)]
  | (l, b) :: rest =>
    match compare k l with
    | .lt => (k, a) :: (l, b) :: rest
    | .eq => (k, a) :: rest
    | .gt => (l, b) :: insertEntry k a rest

/-- The value under `k`, if there is one. -/
def get? (m : SortedMap κ α) (k : κ) : Option α := lookupEntry k m.entries

/-- Whether `k` has a value. -/
def contains (m : SortedMap κ α) (k : κ) : Bool := (m.get? k).isSome

/-- The entries, least key first. -/
def toList (m : SortedMap κ α) : List (κ × α) := m.entries

/-- The keys, least first. -/
def keys (m : SortedMap κ α) : List κ := m.entries.map (·.1)

/-- The values, in the order of their keys. -/
def values (m : SortedMap κ α) : List α := m.entries.map (·.2)

/-- The number of entries. -/
def size (m : SortedMap κ α) : Nat := m.entries.length

/-- Whether there is no entry. -/
def isEmpty (m : SortedMap κ α) : Bool := m.entries.isEmpty

/-! ### Keeping the order -/

section Order

/-- What is there after an entry was set is this entry or was there before. -/
theorem mem_insertEntry {k : κ} {a : α} {e : κ × α} {l : List (κ × α)}
    (h : e ∈ insertEntry k a l) : e = (k, a) ∨ e ∈ l := by
  induction l with
  | nil => simpa [insertEntry] using h
  | cons hd tl ih =>
    simp only [insertEntry] at h
    split at h
    · simpa using h
    · simp only [List.mem_cons] at h ⊢
      exact h.imp_right .inr
    · simp only [List.mem_cons] at h ⊢
      rcases h with h | h
      · exact .inr (.inl h)
      · exact (ih h).imp_right .inr

variable [Std.TransOrd κ]

/-- **Setting an entry keeps the order.** -/
theorem pairwise_insertEntry (k : κ) (a : α) {l : List (κ × α)}
    (h : l.Pairwise fun a b => compare a.1 b.1 = .lt) :
    (insertEntry k a l).Pairwise fun a b => compare a.1 b.1 = .lt := by
  induction l with
  | nil => simp [insertEntry]
  | cons hd tl ih =>
    have hhd : ∀ {e}, e ∈ tl → compare hd.1 e.1 = .lt := List.rel_of_pairwise_cons h
    simp only [insertEntry]
    split
    · rename_i hlt
      refine .cons (fun e he => ?_) h
      rcases List.mem_cons.1 he with rfl | he
      · exact hlt
      · exact Std.TransCmp.lt_trans hlt (hhd he)
    · rename_i heq
      exact h.of_cons.cons fun e he => Std.TransCmp.lt_of_eq_of_lt heq (hhd he)
    · rename_i hgt
      refine (ih h.of_cons).cons fun e he => ?_
      rcases mem_insertEntry he with rfl | he
      · exact Std.OrientedCmp.gt_iff_lt.1 hgt
      · exact hhd he

/-- The map with `k` set to `a`. -/
def insert (m : SortedMap κ α) (k : κ) (a : α) : SortedMap κ α :=
  ⟨insertEntry k a m.entries, pairwise_insertEntry k a m.sorted⟩

/-- The entries in the order given; of two with one key the later counts. -/
def ofList (l : List (κ × α)) : SortedMap κ α :=
  l.foldl (fun m e => m.insert e.1 e.2) empty

/-- The map overlaid with `n`, whose values win. -/
def insertMany (m n : SortedMap κ α) : SortedMap κ α :=
  n.entries.foldl (fun m e => m.insert e.1 e.2) m

/-- The map with the value under `k`, if any, replaced by `f` of it. -/
def modify (m : SortedMap κ α) (k : κ) (f : α → α) : SortedMap κ α :=
  match m.get? k with
  | some a => m.insert k (f a)
  | none => m

end Order

/-- The entries that `p` accepts. -/
def filter (m : SortedMap κ α) (p : κ → α → Bool) : SortedMap κ α :=
  ⟨m.entries.filter fun e => p e.1 e.2, m.sorted.filter _⟩

/-- The map without `k`. -/
def erase (m : SortedMap κ α) (k : κ) : SortedMap κ α :=
  m.filter fun l _ => compare k l != .eq

/-- The map with every value replaced by `f` of it. -/
def mapValues (m : SortedMap κ α) (f : α → β) : SortedMap κ β :=
  ⟨m.entries.map fun e => (e.1, f e.2), m.sorted.map _ fun _ _ h => h⟩

/-! ### Look-ups after each operation -/

@[simp]
theorem get?_empty (k : κ) : (empty : SortedMap κ α).get? k = none := rfl

section Lookup

variable [Std.LawfulEqOrd κ]

theorem lookupEntry_insertEntry [DecidableEq κ] (k : κ) (a : α) (l : List (κ × α)) (j : κ) :
    lookupEntry j (insertEntry k a l) = if j = k then some a else lookupEntry j l := by
  induction l with
  | nil => simp [insertEntry, lookupEntry]
  | cons hd tl ih =>
    simp only [insertEntry]
    split
    · simp [lookupEntry]
    · rename_i heq
      have := Std.LawfulEqCmp.eq_of_compare heq
      by_cases hj : j = k <;> simp_all [lookupEntry]
    · rename_i hgt
      have hne : k ≠ hd.1 := fun h => by simp [← h] at hgt
      by_cases hj : j = k
      · subst hj
        simp [lookupEntry, ih, hne]
      · simp [lookupEntry, ih, hj]

/-- Setting a key changes the look-up of that key alone. -/
@[simp]
theorem get?_insert [Std.TransOrd κ] [DecidableEq κ] (m : SortedMap κ α) (k : κ) (a : α) (j : κ) :
    (m.insert k a).get? j = if j = k then some a else m.get? j :=
  lookupEntry_insertEntry k a m.entries j

theorem lookupEntry_filter_ne [DecidableEq κ] (k : κ) (l : List (κ × α)) (j : κ) :
    lookupEntry j (l.filter fun e => compare k e.1 != .eq) =
      if j = k then none else lookupEntry j l := by
  induction l with
  | nil => simp [lookupEntry]
  | cons hd tl ih =>
    by_cases hk : k = hd.1
    · by_cases hj : j = k <;> simp_all [lookupEntry]
    · by_cases hj : j = k <;> simp_all [lookupEntry]

/-- Erasing a key changes the look-up of that key alone. -/
@[simp]
theorem get?_erase [DecidableEq κ] (m : SortedMap κ α) (k j : κ) :
    (m.erase k).get? j = if j = k then none else m.get? j :=
  lookupEntry_filter_ne k m.entries j

theorem lookupEntry_eq_some_iff {k : κ} {a : α} {l : List (κ × α)}
    (h : l.Pairwise fun a b => compare a.1 b.1 = .lt) :
    lookupEntry k l = some a ↔ (k, a) ∈ l := by
  induction l with
  | nil => simp [lookupEntry]
  | cons hd tl ih =>
    have hhd : ∀ {e}, e ∈ tl → compare hd.1 e.1 = .lt := List.rel_of_pairwise_cons h
    obtain ⟨l, b⟩ := hd
    by_cases hk : k = l
    · subst hk
      constructor
      · intro hl
        simp only [lookupEntry, Std.ReflCmp.compare_self, if_true, Option.some.injEq] at hl
        subst hl
        exact List.mem_cons_self
      · intro hm
        rcases List.mem_cons.1 hm with hm | hm
        · cases hm
          simp [lookupEntry]
        · have := hhd hm
          simp at this
    · simp [lookupEntry, hk, ih h.of_cons]

/-- An entry is a look-up that succeeds. -/
theorem get?_eq_some_iff {m : SortedMap κ α} {k : κ} {a : α} :
    m.get? k = some a ↔ (k, a) ∈ m.toList :=
  lookupEntry_eq_some_iff m.sorted

omit [Std.LawfulEqOrd κ] in
theorem eq_of_entries_eq {m n : SortedMap κ α} (h : m.entries = n.entries) : m = n := by
  cases m; cases n; simp_all

variable [Std.TransOrd κ]

/-- Lists in order with the same entries are equal. -/
theorem eq_of_sorted_of_mem_iff {l r : List (κ × α)}
    (hl : l.Pairwise fun a b => compare a.1 b.1 = .lt)
    (hr : r.Pairwise fun a b => compare a.1 b.1 = .lt)
    (h : ∀ e, e ∈ l ↔ e ∈ r) : l = r := by
  induction l generalizing r with
  | nil =>
    cases r with
    | nil => rfl
    | cons e r => exact absurd ((h e).2 List.mem_cons_self) List.not_mem_nil
  | cons a l ih =>
    cases r with
    | nil => exact absurd ((h a).1 List.mem_cons_self) List.not_mem_nil
    | cons b r =>
      have hla : ∀ {e}, e ∈ l → compare a.1 e.1 = .lt := List.rel_of_pairwise_cons hl
      have hrb : ∀ {e}, e ∈ r → compare b.1 e.1 = .lt := List.rel_of_pairwise_cons hr
      have hab : a = b := by
        rcases List.mem_cons.1 ((h a).1 List.mem_cons_self) with hab | hab
        · exact hab
        · rcases List.mem_cons.1 ((h b).2 List.mem_cons_self) with hba | hba
          · exact hba.symm
          · have := Std.TransCmp.lt_trans (hrb hab) (hla hba)
            simp at this
      subst hab
      congr 1
      refine ih hl.of_cons hr.of_cons fun e => ?_
      constructor
      · intro he
        rcases List.mem_cons.1 ((h e).1 (List.mem_cons_of_mem _ he)) with rfl | he'
        · have := hla he
          simp at this
        · exact he'
      · intro he
        rcases List.mem_cons.1 ((h e).2 (List.mem_cons_of_mem _ he)) with rfl | he'
        · have := hrb he
          simp at this
        · exact he'

/-- **Maps that answer every look-up alike are equal.** -/
theorem ext_get? {m n : SortedMap κ α} (h : ∀ k, m.get? k = n.get? k) : m = n :=
  eq_of_entries_eq <| eq_of_sorted_of_mem_iff m.sorted n.sorted fun e => by
    have hm := get?_eq_some_iff (m := m) (k := e.1) (a := e.2)
    have hn := get?_eq_some_iff (m := n) (k := e.1) (a := e.2)
    rw [h e.1] at hm
    exact hm.symm.trans hn

end Lookup

end SortedMap

end TensorJit
