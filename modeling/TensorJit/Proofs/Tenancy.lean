import TensorJit.Proofs.Executor.Tenancy
import TensorJit.Proofs.Staleness

/-!
# Every tensor belongs to one place

All executors of a process make their tensors in one memory, and nothing in a tensor says whose it
is. Still **no two places of any artifacts of any executors have the same tensor**
(`Process.tenanted_run`), since an executor that is asked for something touches no tensor but its own
and takes none that another has. What the pipelines have behind their results therefore stays as it
was made, whatever the other executors do.
-/

namespace TensorJit.Process

/-- Every tensor belongs to one place of one executor, and those that pipelines have for results are
blank behind the results. -/
structure Tenanted (w : Process) : Prop where
  /-- No two places of an executor have the same tensor. -/
  owns : ∀ (k : Nat) (e : Executor), w.executors[k]? = some e → e.cache.Owns w.platform.memory
  /-- No two executors have the same tensor. -/
  apart : ∀ (j k : Nat) (e f : Executor) (i i' : ArtifactId) (p p' : Place) (x : TensorId),
    w.executors[j]? = some e → w.executors[k]? = some f → e.cache.tensorAt i p = some x →
    f.cache.tensorAt i' p' = some x → j = k
  /-- What is behind the results is blank. -/
  blank : ∀ (k o : Nat) (e : Executor), w.executors[k]? = some e → (w.stateOf e o).Blank

namespace Tenanted

variable {w w' : Process}

theorem empty : Tenanted empty where
  owns _ _ h := by cases h
  apart _ _ _ _ _ _ _ _ _ h := by cases h
  blank _ _ _ h := by cases h

/-- Whether the tensors of an executor are blank depends on them alone. -/
theorem blank_of_tensor_eq {s t : ExecState} (h : s.Blank) (hexecutor : t.executor = s.executor)
    (htensor : ∀ i p x, s.cache.tensorAt i p = some x → t.memory.tensor x = s.memory.tensor x) :
    t.Blank := by
  intro i a q c x ha hx
  unfold ExecState.cache at ha hx
  rw [hexecutor] at ha hx ⊢
  exact (h i a q c x ha hx).of_tensor_eq (htensor i _ x hx)

/-- Nothing happens to the executors or to the tensors. -/
theorem of_tensors_eq (h : w.Tenanted) (hexecutors : w'.executors = w.executors)
    (htensors : w'.platform.memory.tensors = w.platform.memory.tensors) : w'.Tenanted where
  owns k e he := (h.owns k e (hexecutors ▸ he)).of_sub (Nat.le_of_eq (by rw [htensors]))
    fun _ _ _ hx => hx
  apart j k e f i i' p p' x he hf := h.apart j k e f i i' p p' x (hexecutors ▸ he) (hexecutors ▸ hf)
  blank k o e he := blank_of_tensor_eq (h.blank k o e (hexecutors ▸ he)) rfl fun _ _ x _ => by
    change w'.platform.memory.tensor x = w.platform.memory.tensor x
    unfold Memory.tensor
    rw [htensors]

/-- An executor is built, which has no tensors. -/
theorem append (h : w.Tenanted) {e : Executor} (hcache : ∀ i, e.cache.get? i = none) :
    Tenanted { w with executors := w.executors ++ [e] } := by
  have hnone : ∀ i p, e.cache.tensorAt i p = none := fun i p => by
    unfold Cache.tensorAt
    rw [hcache]
    rfl
  have hcases : ∀ {k : Nat} {f : Executor}, (w.executors ++ [e])[k]? = some f →
      w.executors[k]? = some f ∨ ∀ i p, f.cache.tensorAt i p = none := fun {k f} hf => by
    rcases executor_append hf with hold | ⟨-, rfl⟩
    · exact .inl hold
    · exact .inr hnone
  refine ⟨fun k f hf => ?_, fun j k f g i i' p p' x hf hg hx hx' => ?_, fun k o f hf => ?_⟩
  · rcases hcases hf with hold | hempty
    · exact h.owns k f hold
    · refine ⟨fun i p x hx => ?_, fun i j p q x hx => ?_⟩
      · rw [hempty] at hx
        cases hx
      · rw [hempty] at hx
        cases hx
  · rcases hcases hf with hold | hempty
    · rcases hcases hg with hold' | hempty
      · exact h.apart j k f g i i' p p' x hold hold' hx hx'
      · rw [hempty] at hx'
        cases hx'
    · rw [hempty] at hx
      cases hx
  · rcases hcases hf with hold | hempty
    · exact h.blank k o f hold
    · intro i a q c x _ hx
      rw [show ExecState.cache _ = f.cache from rfl, hempty] at hx
      cases hx

/-- **An executor has been asked for something.** -/
theorem put (h : w.Tenanted) {k o : Nat} {e : Executor} (he : w.executors[k]? = some e)
    {s : ExecState} (hs : (w.stateOf e o).Tenancy s) : (w.put k o s).Tenanted := by
  -- The tensors of the others are as they were, and still not those of this one.
  have hother : ∀ {j : Nat} {f : Executor}, j ≠ k → w.executors[j]? = some f →
      ∀ i p x, f.cache.tensorAt i p = some x → s.memory.tensor x = w.platform.memory.tensor x ∧
        ∀ i' p', s.cache.tensorAt i' p' ≠ some x := fun {j f} hj hf i p x hx =>
    hs.within.loose x ((h.owns j f hf).live i p x hx) fun i' p' hx' =>
      hj (h.apart j k f e i i' p p' x hf he hx hx')
  refine ⟨fun j f hf => ?_, fun j l f g i i' p p' x hf hg hx hx' => ?_, fun j o' f hf => ?_⟩
  · rcases executor_put he hf with ⟨-, rfl⟩ | ⟨-, hold⟩
    · exact hs.within.owns
    · exact (h.owns j f hold).of_sub hs.within.size fun _ _ _ hx => hx
  · rcases executor_put he hf with ⟨rfl, rfl⟩ | ⟨hj, hold⟩
    · rcases executor_put he hg with ⟨rfl, -⟩ | ⟨hl, hold'⟩
      · rfl
      · exact absurd hx ((hother hl hold' i' p' x hx').2 i p)
    · rcases executor_put he hg with ⟨rfl, rfl⟩ | ⟨-, hold'⟩
      · exact absurd hx' ((hother hj hold i p x hx).2 i' p')
      · exact h.apart j l f g i i' p p' x hold hold' hx hx'
  · rcases executor_put he hf with ⟨-, rfl⟩ | ⟨hj, hold⟩
    · exact blank_of_tensor_eq (hs.blank (h.blank k o e he)) rfl fun _ _ _ _ => rfl
    · exact blank_of_tensor_eq (h.blank j o' f hold) rfl fun i p x hx =>
        (hother hj hold i p x hx).1

end Tenanted

/-- **In every process** each tensor belongs to one place of one executor. -/
theorem tenanted_run (commands : List Command) : (Process.empty.run commands).Tenanted := by
  induction commands using List.reverseRecOn with
  | nil => exact .empty
  | append_singleton rest c ih =>
    rw [run_concat]
    cases c with
    | ask k o r =>
      cases he : (Process.empty.run rest).executors[k]? with
      | none =>
        change Tenanted ((Process.empty.run rest).ask k o r).2
        rw [ask_of_none he]
        exact ih
      | some e =>
        obtain ⟨s, hput, hs⟩ := put_of_ends (o := o) he (r.ends_tenancy (compiled_run rest o he)
          (atHome_run rest k o e he) (ih.owns k e he) ((wellFormed_run rest).separate o))
        rw [hput]
        exact ih.put he hs
    | build r =>
      obtain ⟨q, hq, ⟨e, hbuilt, hstep⟩ | hstep⟩ := (Process.empty.run rest).build_cases r
      · rw [hstep]
        have hsame : Tenanted { Process.empty.run rest with platform := q } :=
          ih.of_tensors_eq rfl (by rw [hq.memory])
        exact hsame.append fun i => by
          rw [hbuilt.cache]
          rfl
      · rw [hstep]
        exact ih.of_tensors_eq rfl (by rw [hq.memory])
    | _ => exact ih.of_tensors_eq rfl rfl

end TensorJit.Process
