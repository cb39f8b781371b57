import TensorJit.Proofs.Executor.Elision
import TensorJit.Proofs.Executor.Failure

/-!
# For which artifacts a tracker vouches

An executor tells its tracker of copies for artifacts that it has, and for no others, and it tells
no other tracker (`ExecState.Vouches`). When it drops an artifact, its tracker forgets all copies
for it. So whatever an executor is asked for, what a tracker vouches for afterwards is **a copy for
an artifact that the executor has, or a copy that was vouched for before and whose artifact the
executor has not dropped** (`Request.attributes_perform`).

The artifacts that an executor has afterwards are some of those before, and possibly a new one.
-/

namespace TensorJit

namespace ExecState

/-- What the steps of an executor other than finding and compiling do to trackers: the executor has
the same artifacts, and only its tracker vouches for new copies, for these. -/
structure Vouches (s t : ExecState) : Prop where
  /-- The same tracker is asked. -/
  tracker : t.executor.tracker = s.executor.tracker
  /-- There are the same artifacts. -/
  has : ∀ id, t.Has id ↔ s.Has id
  /-- No registry enters an artifact twice. -/
  single : Tracker.Single s.platform.registries → Tracker.Single t.platform.registries
  /-- What is vouched for is not new, or is for an artifact of the executor. -/
  fresh : ∀ τ storage id, t.platform.isFresh τ storage id = true →
    s.platform.isFresh τ storage id = true ∨ τ = s.executor.tracker ∧ s.Has id

variable {s t u : ExecState} {id : ArtifactId}

theorem vouches_of_registries_eq (htracker : t.executor.tracker = s.executor.tracker)
    (hhas : ∀ id, t.Has id ↔ s.Has id) (h : t.platform.registries = s.platform.registries) :
    s.Vouches t := by
  refine ⟨htracker, hhas, fun hs => ?_, fun τ storage id hf => ?_⟩
  · rw [h]
    exact hs
  · exact .inl (isFresh_of_registries_eq h hf)

instance : TensorMoves Vouches where
  refl _ := vouches_of_registries_eq rfl (fun _ => Iff.rfl) rfl
  trans h h' := by
    refine ⟨h'.tracker.trans h.tracker, fun id => (h'.has id).trans (h.has id),
      fun hs => h'.single (h.single hs), fun τ storage id hf => ?_⟩
    rcases h'.fresh τ storage id hf with hf | ⟨hτ, hhas⟩
    · exact h.fresh τ storage id hf
    · exact .inr ⟨hτ.trans h.tracker, (h.has id).1 hhas⟩
  calm _ _ _ h := vouches_of_registries_eq rfl (fun _ => Iff.rfl) h
  counted _ _ _ _ := vouches_of_registries_eq rfl (fun _ => Iff.rfl) rfl
  prepared _ _ := vouches_of_registries_eq rfl (fun _ => Iff.rfl) rfl
  tensors _ _ _ _ ha hb :=
    vouches_of_registries_eq rfl (fun _ => (sameArtifacts_update ha hb).has_iff) rfl

instance : CopyMoves Vouches where
  steady _ _ _ h := vouches_of_registries_eq rfl (fun _ => Iff.rfl) h
  recounted _ _ _ := vouches_of_registries_eq rfl (fun _ => Iff.rfl) rfl

instance : TellMoves Vouches where
  marked s id a storage ha := by
    refine ⟨rfl, fun _ => Iff.rfl, fun hs => hs.update _ fun r hr => hr.mark storage id,
      fun τ storage' id' hf => ?_⟩
    rcases Tracker.isFresh_of_update_mark hf with hf | ⟨hτ, -, rfl⟩
    · exact .inl hf
    · exact .inr ⟨hτ.symm, .of_some ha⟩
  invalidated s storage := by
    refine ⟨rfl, fun _ => Iff.rfl, fun hs => hs.update _ fun r hr => hr.invalidate storage,
      fun τ storage' id' hf => ?_⟩
    exact .inl (Tracker.isFresh_of_update_invalidate hf).1

/-- How a request leaves the artifacts of an executor, and what trackers vouch for. -/
structure Attributes (s t : ExecState) : Prop where
  /-- The same tracker is asked. -/
  tracker : t.executor.tracker = s.executor.tracker
  /-- An artifact was there before, or is new. -/
  old : ∀ id, t.Has id → s.Has id ∨ s.platform.nextArtifact ≤ id
  /-- No registry enters an artifact twice. -/
  single : Tracker.Single t.platform.registries
  /-- What is vouched for is for an artifact of the executor, or it is not new, and not for an
  artifact that the executor has dropped. -/
  fresh : ∀ τ storage id, t.platform.isFresh τ storage id = true →
    τ = s.executor.tracker ∧ t.Has id ∨
      s.platform.isFresh τ storage id = true ∧ (τ = s.executor.tracker → s.Has id → t.Has id)

theorem attributes_refl (h : Tracker.Single s.platform.registries) : s.Attributes s :=
  ⟨rfl, fun _ => .inl, h, fun _ _ _ hf => .inr ⟨hf, fun _ hid => hid⟩⟩

theorem Attributes.vouches (h : s.Attributes t) (h' : t.Vouches u) : s.Attributes u := by
  refine ⟨h'.tracker.trans h.tracker, fun id hid => h.old id ((h'.has id).1 hid),
    h'.single h.single, fun τ storage id hf => ?_⟩
  rw [h'.has id]
  rcases h'.fresh τ storage id hf with hf | ⟨hτ, hhas⟩
  · exact h.fresh τ storage id hf
  · exact .inl ⟨hτ.trans h.tracker, hhas⟩

/-- **Finding and compiling.** An artifact that is dropped is forgotten. -/
theorem attributes_of_found {computed : Signature.Computed} {l : Lookup} {a : Artifact}
    (hs : Tracker.Single s.platform.registries) (h : ExecM.Found s computed l a t) :
    s.Attributes t where
  tracker := h.later.tracker
  old id hid := by
    obtain ⟨b, hb⟩ := Option.isSome_iff_exists.1 hid
    by_cases hl : id = l.artifact
    · cases hhit : l.hit with
      | true => exact .inl (.of_some (hl ▸ h.before hhit))
      | false => exact .inr (Nat.le_of_eq ((h.made hhit).1.symm.trans hl.symm))
    · exact .inl (.of_some (h.old id b hl hb))
  single := by
    rcases h.registries with heq | ⟨b, -, -, heq⟩
    · rw [heq]
      exact hs
    · rw [heq]
      exact hs.update _ fun r hr => hr.forget b.id
  fresh τ storage id hf := by
    refine .inr ⟨isFresh_of_found h hf, ?_⟩
    rintro rfl hid
    obtain ⟨b, hb⟩ := Option.isSome_iff_exists.1 hid
    by_contra hgone
    unfold Platform.isFresh at hf
    rw [h.forgotten id b hb (by simpa [Has] using hgone)] at hf
    exact hs.ne_of_update_forget hf rfl

end ExecState

variable {P : List Tensor → Prop} {s : ExecState}

/-- An executable is found, and something follows that does neither find nor compile. -/
theorem ExecM.attributes_lookup {α : Type} (h : Compiled P s)
    (hs : Tracker.Single s.platform.registries) (inputs : List HostBuffer)
    {next : Lookup → ExecM α} (hnext : ∀ l, Keeps ExecState.Vouches (next l)) :
    Ends ((getExecutable inputs >>= next) s) (fun _ t => s.Attributes t)
      fun _ t => s.Attributes t := by
  rw [ends_bind]
  refine (ends_getExecutable h inputs).mono (fun l u hu => ?_) fun _ u hu => ?_
  · obtain ⟨computed, a, -, hfound⟩ := hu
    have hattributes := ExecState.attributes_of_found hs hfound
    exact (hnext l u).mono (fun _ _ ht => hattributes.vouches ht) fun _ _ ht => hattributes.vouches ht
  · refine (ExecState.attributes_refl hs).vouches ?_
    exact ExecState.vouches_of_registries_eq hu.1.later.tracker
      (fun id => by rw [ExecState.Has, ExecState.Has, hu.1.cache]) hu.1.registries

/-- **Whatever an executor is asked for**, what a tracker vouches for afterwards is for one of its
artifacts, or was vouched for before and is for none that it has dropped. -/
theorem Request.attributes_perform (h : Compiled P s) (hs : Tracker.Single s.platform.registries)
    (r : Request) :
    Ends (r.perform s) (fun _ t => s.Attributes t) fun _ t => s.Attributes t := by
  have hother : r.inputs? = none →
      Ends (r.perform s) (fun _ t => s.Attributes t) fun _ t => s.Attributes t := fun hr =>
    (keeps_perform_of_inputs?_eq_none (T := ExecState.Vouches) hr s).mono
      (fun _ _ ht => (ExecState.attributes_refl hs).vouches ht)
      fun _ _ ht => (ExecState.attributes_refl hs).vouches ht
  cases r with
  | execute inputs =>
    exact ends_bind.2 ((ExecM.attributes_lookup h hs inputs
      fun l => ExecM.keeps_runFound l inputs).mono (fun _ _ ht => ht) fun _ _ ht => ht)
  | getExecutable inputs => exact ExecM.attributes_lookup h hs inputs fun _ => keeps_pure _
  | allocateInputs artifact inputs => exact hother rfl
  | allocateOutputs artifact outputs => exact hother rfl
  | acquireGroup artifact => exact hother rfl
  | returnGroup artifact index => exact hother rfl

end TensorJit
