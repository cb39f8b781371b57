import Mathlib.Data.List.Nodup
import TensorJit.Freshness

/-!
# What a registry of fresh copies answers

One equation for each operation, through the question whether a copy is current. A tracker that
names no registry, or one that does not exist, never vouches for anything: only one that
**listens** can be told that a copy has been made.

Forgetting an artifact takes it out of every record once, which is enough because no operation
enters it twice (`FreshnessRegistry.Single`).
-/

namespace TensorJit

namespace FreshnessRegistry

variable {r : FreshnessRegistry} {host h : StorageId} {artifact a : ArtifactId}

theorem isFresh_iff : r.isFresh h a = true ↔ a ∈ r.holders h := by
  unfold isFresh
  rw [List.contains_iff_mem]

theorem holders_mark (r : FreshnessRegistry) (host : StorageId) (artifact : ArtifactId)
    (h : StorageId) : (r.mark host artifact).holders h =
      if h = host then (r.holders host).insert artifact else r.holders h := by
  unfold mark holders
  rw [SortedMap.get?_insert]
  split
  · rfl
  · rfl

/-- A copy that has just been made is current. -/
theorem isFresh_mark : (r.mark host artifact).isFresh h a = true ↔
    r.isFresh h a = true ∨ h = host ∧ a = artifact := by
  rw [isFresh_iff, isFresh_iff, holders_mark]
  split
  · rename_i hh
    rw [List.mem_insert_iff, hh]
    exact ⟨fun h => h.elim (fun h => .inr ⟨rfl, h⟩) .inl,
      fun h => h.elim .inr fun h => .inl h.2⟩
  · rename_i hh
    exact ⟨.inl, fun h => h.resolve_right fun h => hh h.1⟩

theorem holders_invalidate (r : FreshnessRegistry) (host h : StorageId) :
    (r.invalidate host).holders h = if h = host then [] else r.holders h := by
  unfold invalidate holders
  rw [SortedMap.get?_erase]
  split
  · rfl
  · rfl

/-- No copy of a buffer that has changed is current. -/
theorem isFresh_invalidate : (r.invalidate host).isFresh h a = true ↔
    r.isFresh h a = true ∧ h ≠ host := by
  rw [isFresh_iff, isFresh_iff, holders_invalidate]
  split
  · rename_i hh
    exact ⟨nofun, fun h => absurd hh h.2⟩
  · rename_i hh
    exact ⟨fun h => ⟨h, hh⟩, And.left⟩

theorem lookupEntry_map {κ α β : Type} [Ord κ] (f : α → β) (k : κ) (l : List (κ × α)) :
    SortedMap.lookupEntry k (l.map fun e => (e.1, f e.2)) =
      (SortedMap.lookupEntry k l).map f := by
  induction l with
  | nil => rfl
  | cons e l ih =>
    rw [List.map_cons]
    unfold SortedMap.lookupEntry
    split
    · rfl
    · exact ih

theorem lookupEntry_filter_isEmpty {κ α : Type} [Ord κ] [Std.TransOrd κ] [Std.LawfulEqOrd κ]
    (k : κ) {l : List (κ × List α)} (hl : l.Pairwise fun a b => compare a.1 b.1 = .lt) :
    (SortedMap.lookupEntry k (l.filter fun e => !e.2.isEmpty)).getD [] =
      (SortedMap.lookupEntry k l).getD [] := by
  induction l with
  | nil => rfl
  | cons e l ih =>
    rw [List.filter_cons]
    by_cases hk : compare k e.1 = .eq
    · cases hempty : e.2.isEmpty with
      | false =>
        rw [Bool.not_false, if_pos rfl]
        unfold SortedMap.lookupEntry
        rw [if_pos hk, if_pos hk]
      | true =>
        -- The record is left out, and no later one has its key.
        rw [Bool.not_true, if_neg Bool.false_ne_true, ih hl.of_cons]
        have hnone : SortedMap.lookupEntry k l = none := by
          refine Option.eq_none_iff_forall_ne_some.2 fun x hx => ?_
          have hmem := (SortedMap.lookupEntry_eq_some_iff hl.of_cons).1 hx
          have hlt := List.rel_of_pairwise_cons hl hmem
          have hself : compare k k = .lt := by
            have hkey : k = e.1 := Std.LawfulEqCmp.eq_of_compare hk
            rw [← hkey] at hlt
            exact hlt
          rw [show compare k k = .eq from Std.ReflCmp.compare_self] at hself
          cases hself
        rw [hnone]
        conv_rhs => unfold SortedMap.lookupEntry
        rw [if_pos hk, List.isEmpty_iff.1 hempty]
        rfl
    · have hskip : SortedMap.lookupEntry k (e :: l) = SortedMap.lookupEntry k l := by
        conv_lhs => unfold SortedMap.lookupEntry
        rw [if_neg hk]
      rw [hskip]
      split
      · conv_lhs => unfold SortedMap.lookupEntry
        rw [if_neg hk]
        exact ih hl.of_cons
      · exact ih hl.of_cons

/-- What holds a copy after an artifact has been forgotten. -/
theorem holders_forget (r : FreshnessRegistry) (artifact : ArtifactId) (h : StorageId) :
    (r.forget artifact).holders h = (r.holders h).erase artifact := by
  unfold forget holders
  refine (lookupEntry_filter_isEmpty h ?_).trans ?_
  · exact (r.copies.mapValues fun l => l.erase artifact).sorted
  · refine (congrArg (·.getD []) (lookupEntry_map (fun l : List ArtifactId => l.erase artifact) h
      r.copies.entries)).trans ?_
    change ((r.copies.get? h).map fun l => l.erase artifact).getD [] = _
    cases r.copies.get? h with
    | none => rfl
    | some l => rfl

/-- Forgetting an artifact makes no copy current. -/
theorem isFresh_of_forget (h' : (r.forget artifact).isFresh h a = true) : r.isFresh h a = true := by
  rw [isFresh_iff, holders_forget] at h'
  exact isFresh_iff.2 (List.mem_of_mem_erase h')

/-! ### No artifact is entered twice -/

/-- Every record lists an artifact once at most. -/
def Single (r : FreshnessRegistry) : Prop := ∀ h, (r.holders h).Nodup

theorem single_empty : empty.Single := fun _ => List.nodup_nil

theorem Single.mark (hr : r.Single) (host : StorageId) (artifact : ArtifactId) :
    (r.mark host artifact).Single := by
  intro h
  rw [holders_mark]
  split
  · exact List.Nodup.insert (hr host)
  · exact hr h

theorem Single.invalidate (hr : r.Single) (host : StorageId) : (r.invalidate host).Single := by
  intro h
  rw [holders_invalidate]
  split
  · exact List.nodup_nil
  · exact hr h

theorem Single.forget (hr : r.Single) (artifact : ArtifactId) : (r.forget artifact).Single := by
  intro h
  rw [holders_forget]
  exact List.Nodup.erase artifact (hr h)

/-- **No copy for an artifact that has been forgotten is current.** -/
theorem Single.isFresh_forget (hr : r.Single) :
    (r.forget artifact).isFresh h a = true ↔ r.isFresh h a = true ∧ a ≠ artifact := by
  rw [isFresh_iff, isFresh_iff, holders_forget, List.Nodup.mem_erase_iff (hr h), and_comm]

end FreshnessRegistry

namespace Tracker

variable {t : Tracker} {registries : Array FreshnessRegistry} {h : StorageId} {a : ArtifactId}

/-- The tracker names a registry that exists. -/
def Listens (t : Tracker) (registries : Array FreshnessRegistry) : Prop :=
  ∃ number, t = .registry number ∧ number < registries.size

theorem not_listens_never : ¬ never.Listens registries := fun ⟨_, h, _⟩ => nomatch h

/-- Whether a tracker listens is told by the number of registries. -/
theorem listens_congr {registries' : Array FreshnessRegistry}
    (hsize : registries'.size = registries.size) :
    t.Listens registries' ↔ t.Listens registries :=
  ⟨fun ⟨n, hn, hlt⟩ => ⟨n, hn, hsize ▸ hlt⟩, fun ⟨n, hn, hlt⟩ => ⟨n, hn, hsize.symm ▸ hlt⟩⟩

/-- Only a tracker that listens vouches for anything. -/
theorem listens_of_isFresh (hfresh : t.isFresh registries h a = true) : t.Listens registries := by
  cases t with
  | never => cases hfresh
  | registry number =>
    refine ⟨number, rfl, ?_⟩
    by_contra hge
    change (registryOf registries number).isFresh h a = true at hfresh
    unfold registryOf at hfresh
    rw [Array.getD_eq_getD_getElem?, Array.getElem?_eq_none (Nat.le_of_not_lt hge)] at hfresh
    cases hfresh

theorem registryOf_modify {number : Nat} (hlt : number < registries.size)
    (change : FreshnessRegistry → FreshnessRegistry) :
    registryOf (registries.modify number change) number =
      change (registryOf registries number) := by
  unfold registryOf
  rw [Array.getD_eq_getD_getElem?, Array.getD_eq_getD_getElem?, Array.getElem?_modify,
    if_pos rfl, Array.getElem?_eq_getElem hlt]
  rfl

theorem registryOf_modify_of_ne {number j : Nat} (hj : j ≠ number)
    (change : FreshnessRegistry → FreshnessRegistry) :
    registryOf (registries.modify number change) j = registryOf registries j := by
  unfold registryOf
  rw [Array.getD_eq_getD_getElem?, Array.getD_eq_getD_getElem?, Array.getElem?_modify,
    if_neg hj.symm]

/-- What a tracker that has been told something says afterwards. -/
theorem isFresh_update (hlistens : t.Listens registries)
    (change : FreshnessRegistry → FreshnessRegistry) :
    ∃ number, t = .registry number ∧ t.isFresh (t.update registries change) h a =
      (change (registryOf registries number)).isFresh h a ∧
      t.isFresh registries h a = (registryOf registries number).isFresh h a := by
  obtain ⟨number, rfl, hlt⟩ := hlistens
  refine ⟨number, rfl, ?_, rfl⟩
  change (registryOf (registries.modify number change) number).isFresh h a = _
  rw [registryOf_modify hlt]

theorem listens_update (change : FreshnessRegistry → FreshnessRegistry) :
    t.Listens (t.update registries change) ↔ t.Listens registries := by
  cases t with
  | never => exact Iff.rfl
  | registry number => exact listens_congr Array.size_modify

/-- **Telling a tracker that a copy has been made.** -/
theorem isFresh_update_mark (host : StorageId) (artifact : ArtifactId) :
    t.isFresh (t.update registries (·.mark host artifact)) h a = true ↔
      t.isFresh registries h a = true ∨ t.Listens registries ∧ h = host ∧ a = artifact := by
  by_cases hlistens : t.Listens registries
  · obtain ⟨number, -, hafter, hbefore⟩ := isFresh_update (h := h) (a := a) hlistens
      (·.mark host artifact)
    rw [hafter, hbefore, FreshnessRegistry.isFresh_mark]
    exact or_congr_right ⟨fun h => ⟨hlistens, h⟩, And.right⟩
  · refine ⟨fun hfresh => ?_, fun hor => ?_⟩
    · exact absurd ((listens_update _).1 (listens_of_isFresh hfresh)) hlistens
    · rcases hor with hor | hor
      · exact absurd (listens_of_isFresh hor) hlistens
      · exact absurd hor.1 hlistens

/-- **Telling a tracker that a buffer has changed.** -/
theorem isFresh_update_invalidate (host : StorageId) :
    t.isFresh (t.update registries (·.invalidate host)) h a = true ↔
      t.isFresh registries h a = true ∧ h ≠ host := by
  by_cases hlistens : t.Listens registries
  · obtain ⟨number, -, hafter, hbefore⟩ := isFresh_update (h := h) (a := a) hlistens
      (·.invalidate host)
    rw [hafter, hbefore, FreshnessRegistry.isFresh_invalidate]
  · refine ⟨fun hfresh => ?_, fun hand => ?_⟩
    · exact absurd ((listens_update _).1 (listens_of_isFresh hfresh)) hlistens
    · exact absurd (listens_of_isFresh hand.1) hlistens

/-- What another tracker is told does not matter. -/
theorem isFresh_update_of_ne {t' : Tracker} (hne : t' ≠ t)
    (change : FreshnessRegistry → FreshnessRegistry) :
    t.isFresh (t'.update registries change) h a = t.isFresh registries h a := by
  cases t with
  | never => rfl
  | registry n =>
    cases t' with
    | never => rfl
    | registry m =>
      change (registryOf (registries.modify m change) n).isFresh h a = _
      rw [registryOf_modify_of_ne fun heq => hne (congrArg Tracker.registry heq.symm)]
      rfl

/-- Whichever tracker is told that a copy has been made, no other copy becomes current. -/
theorem isFresh_of_update_mark {t' : Tracker} {host : StorageId} {artifact : ArtifactId}
    (hfresh : t.isFresh (t'.update registries (·.mark host artifact)) h a = true) :
    t.isFresh registries h a = true ∨ t' = t ∧ h = host ∧ a = artifact := by
  by_cases hsame : t' = t
  · subst hsame
    exact ((isFresh_update_mark host artifact).1 hfresh).imp_right fun hor => ⟨rfl, hor.2⟩
  · rw [isFresh_update_of_ne hsame] at hfresh
    exact .inl hfresh

/-- Another tracker may be told it as well. -/
theorem isFresh_of_update_invalidate {t' : Tracker} {host : StorageId}
    (hfresh : t.isFresh (t'.update registries (·.invalidate host)) h a = true) :
    t.isFresh registries h a = true ∧ (t' = t → h ≠ host) := by
  by_cases hsame : t' = t
  · subst hsame
    obtain ⟨hfresh, hne⟩ := (isFresh_update_invalidate host).1 hfresh
    exact ⟨hfresh, fun _ => hne⟩
  · rw [isFresh_update_of_ne hsame] at hfresh
    exact ⟨hfresh, fun heq => absurd heq hsame⟩

/-- A new registry vouches for nothing. -/
theorem isFresh_of_push (hfresh : t.isFresh (registries.push .empty) h a = true) :
    t.isFresh registries h a = true := by
  cases t with
  | never => cases hfresh
  | registry n =>
    change (registryOf (registries.push .empty) n).isFresh h a = true at hfresh
    change (registryOf registries n).isFresh h a = true
    unfold registryOf at hfresh ⊢
    rw [Array.getD_eq_getD_getElem?] at hfresh ⊢
    rcases Nat.lt_trichotomy n registries.size with hlt | rfl | hgt
    · rwa [Array.getElem?_push_lt hlt, ← Array.getElem?_eq_getElem hlt] at hfresh
    · rw [Array.getElem?_push_size] at hfresh
      cases hfresh
    · rw [Array.getElem?_eq_none (by rw [Array.size_push]; omega)] at hfresh
      cases hfresh

/-- Whichever tracker is told that an artifact is gone, nothing is vouched for that was not. -/
theorem isFresh_of_update_forget {t' : Tracker} {artifact : ArtifactId}
    (hfresh : t.isFresh (t'.update registries (·.forget artifact)) h a = true) :
    t.isFresh registries h a = true := by
  by_cases hsame : t' = t
  · subst hsame
    obtain ⟨number, -, hafter, hbefore⟩ := isFresh_update (h := h) (a := a)
      ((listens_update _).1 (listens_of_isFresh hfresh)) (·.forget artifact)
    rw [hbefore]
    rw [hafter] at hfresh
    exact FreshnessRegistry.isFresh_of_forget hfresh
  · rwa [isFresh_update_of_ne hsame] at hfresh

/-- No registry enters an artifact twice. -/
def Single (registries : Array FreshnessRegistry) : Prop :=
  ∀ number, (registryOf registries number).Single

theorem single_push (hr : Single registries) : Single (registries.push .empty) := by
  intro n
  unfold registryOf
  rw [Array.getD_eq_getD_getElem?, Array.getElem?_push]
  split
  · exact FreshnessRegistry.single_empty
  · rw [← Array.getD_eq_getD_getElem?]
    exact hr n

theorem Single.update (hr : Single registries) (t : Tracker)
    {change : FreshnessRegistry → FreshnessRegistry}
    (hchange : ∀ r : FreshnessRegistry, r.Single → (change r).Single) :
    Single (t.update registries change) := by
  cases t with
  | never => exact hr
  | registry m =>
    intro n
    change (registryOf (registries.modify m change) n).Single
    by_cases hn : n = m
    · subst hn
      by_cases hlt : n < registries.size
      · rw [registryOf_modify hlt]
        exact hchange _ (hr n)
      · unfold registryOf
        rw [Array.getD_eq_getD_getElem?, Array.getElem?_eq_none (by simpa using hlt)]
        exact FreshnessRegistry.single_empty
    · rw [registryOf_modify_of_ne hn]
      exact hr n

/-- **A tracker that has been told that an artifact is gone** vouches for no copy for it. -/
theorem Single.ne_of_update_forget (hr : Single registries) {artifact : ArtifactId}
    (hfresh : t.isFresh (t.update registries (·.forget artifact)) h a = true) : a ≠ artifact := by
  obtain ⟨number, -, hafter, -⟩ := isFresh_update (h := h) (a := a)
    ((listens_update _).1 (listens_of_isFresh hfresh)) (·.forget artifact)
  rw [hafter] at hfresh
  exact ((hr number).isFresh_forget.1 hfresh).2

end Tracker

end TensorJit
