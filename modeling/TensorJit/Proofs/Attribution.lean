import TensorJit.Proofs.CacheHit
import TensorJit.Proofs.Executor.Attribution

/-!
# Whose copies are vouched for

Any number of executors may ask one registry of fresh copies. It has to be told when an artifact is
dropped, or its records outlive the artifact, and what an executor drops is decided by a request
that has nothing to do with the copies. Nevertheless **every copy that is vouched for is for an
artifact in the cache of exactly one executor, and this executor asks the tracker that vouches for
it** (`vouched_for_cached`).

| what keeps it | why |
|---|---|
| no artifact is in two caches | identities are used once in a process (`Process.caches_step`) |
| a copy is vouched for only with its artifact | `Request.attributes_perform` |
| an artifact is forgotten altogether | no registry enters it twice (`Tracker.Single`) |

So nothing that has been dropped is ever vouched for again, since its identity is not used again.
-/

namespace TensorJit

namespace Process

/-- An executor has an artifact in its cache. -/
def Caches (w : Process) (k : Nat) (id : ArtifactId) : Prop :=
  ∃ e a, w.executors[k]? = some e ∧ e.cache.get? id = some a

/-- Whatever is vouched for is for an artifact of one of the executors that ask this tracker. -/
structure Attributed (w : Process) : Prop where
  /-- No artifact is in two caches. -/
  apart : ∀ j k id, w.Caches j id → w.Caches k id → j = k
  /-- No registry enters an artifact twice. -/
  single : Tracker.Single w.platform.registries
  /-- What is vouched for is for an artifact that is there. -/
  vouched : ∀ τ storage id, w.platform.isFresh τ storage id = true →
    ∃ (k : Nat) (e : Executor) (a : Artifact), w.executors[k]? = some e ∧ e.tracker = τ ∧
      e.cache.get? id = some a

variable {w : Process} {k o : Nat} {e : Executor} {c : Command} {id : ArtifactId}

theorem attributed_empty : empty.Attributed where
  apart _ _ _ h := by
    obtain ⟨e, a, he, -⟩ := h
    cases he
  single _ := FreshnessRegistry.single_empty
  vouched τ storage id h := by
    cases τ with
    | never => cases h
    | registry n => cases h

/-! ### One command -/

/-- **An artifact in a cache** was there before, or has a new identity, and then the executor has
been asked for something. -/
theorem caches_step (hs : Tracker.Single w.platform.registries)
    (hcompiled : ∀ (k : Nat) e o, w.executors[k]? = some e →
      Compiled (fun _ => True) (w.stateOf e o)) (h : (w.step c).Caches k id) :
    w.Caches k id ∨ w.platform.nextArtifact ≤ id ∧ ∃ o r, c = .ask k o r := by
  obtain ⟨e', a, he', ha⟩ := h
  rcases executor_step (fun o r e _ he => r.attributes_perform (hcompiled k e o he) hs) he' with
    ⟨hold, -⟩ | ⟨o, r, e, s, rfl, he, -, rfl, hattributes⟩ | ⟨r, -, -, hbuilt⟩
  · exact .inl ⟨e', a, hold, ha⟩
  · rcases hattributes.old id (.of_some ha) with hbefore | hnew
    · obtain ⟨b, hb⟩ := Option.isSome_iff_exists.1 hbefore
      exact .inl ⟨e, b, he, hb⟩
    · exact .inr ⟨hnew, o, r, rfl⟩
  · rw [hbuilt.cache] at ha
    cases ha

/-- What is not asked of an executor leaves all executors as they are. -/
theorem executor_step_of_ne_ask (hc : ∀ j o r, c ≠ .ask j o r)
    (he : w.executors[k]? = some e) : (w.step c).executors[k]? = some e := by
  cases c with
  | ask j o r => exact absurd rfl (hc j o r)
  | build r =>
    obtain ⟨q, -, ⟨f, -, hstep⟩ | hstep⟩ := w.build_cases r
    · rw [hstep]
      exact List.getElem?_append_left (List.getElem?_eq_some_iff.1 he).1 ▸ he
    · rw [hstep]
      exact he
  | _ => exact he

/-- What is not asked of an executor makes no tracker vouch for anything new. -/
theorem registries_step_of_ne_ask (hs : Tracker.Single w.platform.registries)
    (hc : ∀ j o r, c ≠ .ask j o r) : Tracker.Single (w.step c).platform.registries ∧
      ∀ τ storage id, (w.step c).platform.isFresh τ storage id = true →
        w.platform.isFresh τ storage id = true := by
  cases c with
  | ask j o r => exact absurd rfl (hc j o r)
  | build r =>
    have hsame : (w.step (.build r)).platform.registries = w.platform.registries := by
      obtain ⟨q, hq, ⟨f, -, hstep⟩ | hstep⟩ := w.build_cases r
      · rw [hstep]
        exact hq.registries
      · rw [hstep]
        exact hq.registries
    unfold Platform.isFresh
    rw [hsame]
    exact ⟨hs, fun _ _ _ h => h⟩
  | newRegistry => exact ⟨Tracker.single_push hs, fun _ _ _ => Tracker.isFresh_of_push⟩
  | invalidate tracker storage =>
    exact ⟨hs.update _ fun r hr => hr.invalidate storage,
      fun _ _ _ h => (Tracker.isFresh_of_update_invalidate h).1⟩
  | _ => exact ⟨hs, fun _ _ _ h => h⟩

/-- **An executor is asked for something.** -/
theorem Attributed.ask (h : w.Attributed) (he : w.executors[k]? = some e) {s : ExecState}
    (hs : (w.stateOf e o).Attributes s) : Tracker.Single (w.put k o s).platform.registries ∧
      ∀ τ storage id, (w.put k o s).platform.isFresh τ storage id = true →
        ∃ (j : Nat) (f : Executor) (a : Artifact), (w.put k o s).executors[j]? = some f ∧
          f.tracker = τ ∧ f.cache.get? id = some a := by
  have hself : (w.put k o s).executors[k]? = some s.executor :=
    List.getElem?_set_self (List.getElem?_eq_some_iff.1 he).1
  have htracker : s.executor.tracker = e.tracker := hs.tracker
  refine ⟨hs.single, fun τ storage id hf => ?_⟩
  rcases hs.fresh τ storage id hf with ⟨rfl, hhas⟩ | ⟨hf, hkept⟩
  · obtain ⟨a, ha⟩ := Option.isSome_iff_exists.1 hhas
    exact ⟨k, s.executor, a, hself, htracker, ha⟩
  · obtain ⟨j, f, a, hj, hτ, ha⟩ := h.vouched τ storage id hf
    by_cases hjk : j = k
    · -- It was for an artifact of this executor, which has not dropped it.
      subst hjk
      obtain rfl := Option.some.inj (hj.symm.trans he)
      obtain ⟨b, hb⟩ := Option.isSome_iff_exists.1 (hkept hτ.symm (.of_some ha))
      exact ⟨j, s.executor, b, hself, htracker.trans hτ, hb⟩
    · exact ⟨j, f, a, (List.getElem?_set_ne (Ne.symm hjk)).trans hj, hτ, ha⟩

/-- **One command.** -/
theorem Attributed.step (h : w.Attributed) (hcompiled : ∀ (k : Nat) e o,
    w.executors[k]? = some e → Compiled (fun _ => True) (w.stateOf e o)) (c : Command) :
    (w.step c).Attributed := by
  have hissued : ∀ k id, w.Caches k id → id < w.platform.nextArtifact := by
    rintro k id ⟨e, a, he, ha⟩
    exact (hcompiled k e 0 he).issued id a ha
  have hregistries : Tracker.Single (w.step c).platform.registries ∧
      ∀ τ storage id, (w.step c).platform.isFresh τ storage id = true →
        ∃ (j : Nat) (f : Executor) (a : Artifact), (w.step c).executors[j]? = some f ∧
          f.tracker = τ ∧ f.cache.get? id = some a := by
    by_cases hc : ∃ k o r, c = .ask k o r
    · obtain ⟨k, o, r, rfl⟩ := hc
      cases he : w.executors[k]? with
      | none =>
        change Tracker.Single (w.ask k o r).2.platform.registries ∧ ∀ τ storage id,
          (w.ask k o r).2.platform.isFresh τ storage id = true → _
        rw [show w.step (.ask k o r) = (w.ask k o r).2 from rfl, ask_of_none he]
        exact ⟨h.single, h.vouched⟩
      | some e =>
        obtain ⟨s, hput, hs⟩ := put_of_ends he
          (r.attributes_perform (hcompiled k e o he) h.single)
        rw [hput]
        exact h.ask he hs
    · have hc : ∀ k o r, c ≠ .ask k o r := fun k o r heq => hc ⟨k, o, r, heq⟩
      obtain ⟨hsingle, hfresh⟩ := registries_step_of_ne_ask h.single hc
      refine ⟨hsingle, fun τ storage id hf => ?_⟩
      obtain ⟨k, e, a, he, hτ, ha⟩ := h.vouched τ storage id (hfresh τ storage id hf)
      exact ⟨k, e, a, executor_step_of_ne_ask hc he, hτ, ha⟩
  refine ⟨fun j k id hj hk => ?_, hregistries.1, hregistries.2⟩
  rcases caches_step h.single hcompiled hj with hj | ⟨hnew, o, r, rfl⟩
  · rcases caches_step h.single hcompiled hk with hk | ⟨hnew, -⟩
    · exact h.apart j k id hj hk
    · exact absurd (hissued j id hj) (Nat.not_lt.2 hnew)
  · rcases caches_step h.single hcompiled hk with hk | ⟨-, o', r', heq⟩
    · exact absurd (hissued k id hk) (Nat.not_lt.2 hnew)
    · exact (Command.ask.inj heq).1

/-! ### Every run -/

/-- **Every process**: what is vouched for is for artifacts that are there. -/
theorem attributed_run (commands : List Command) : (empty.run commands).Attributed := by
  induction commands using List.reverseRecOn with
  | nil => exact attributed_empty
  | append_singleton rest c ih =>
    rw [run_concat]
    exact ih.step (fun _ _ o he => compiled_run rest o he) c

/-- The artifacts of all executors have identities that are used up. -/
theorem lt_of_caches (commands : List Command) (h : (empty.run commands).Caches k id) :
    id < (empty.run commands).platform.nextArtifact := by
  obtain ⟨e, a, he, ha⟩ := h
  exact (compiled_run commands 0 he).issued id a ha

/-- An artifact in a cache has been there ever since, or is new. -/
theorem caches_of_run (commands : List Command) {more : List Command}
    (h : ((empty.run commands).run more).Caches k id) :
    (empty.run commands).Caches k id ∨ (empty.run commands).platform.nextArtifact ≤ id := by
  induction more using List.reverseRecOn with
  | nil => exact .inl h
  | append_singleton rest c ih =>
    have hrun := run_append empty commands rest
    rw [run_concat] at h
    rcases caches_step (hrun ▸ (attributed_run (commands ++ rest)).single)
      (fun _ _ o he => hrun ▸ compiled_run (commands ++ rest) o (hrun ▸ he)) h with h | ⟨hnew, -⟩
    · exact ih h
    · exact .inr (Nat.le_trans ((empty.run commands).grows_run rest).nextArtifact hnew)

/-- **What is gone stays gone**, and nothing is vouched for any more that is for it. -/
theorem gone_of_run (commands : List Command) (hlt : id < (empty.run commands).platform.nextArtifact)
    (hgone : ∀ k, ¬ (empty.run commands).Caches k id) (more : List Command) :
    (∀ k, ¬ ((empty.run commands).run more).Caches k id) ∧
      ∀ τ storage, ((empty.run commands).run more).platform.isFresh τ storage id = false := by
  have hnone : ∀ k, ¬ ((empty.run commands).run more).Caches k id := fun k hk =>
    (caches_of_run commands hk).elim (hgone k) (Nat.not_le.2 hlt)
  refine ⟨hnone, fun τ storage => Bool.eq_false_iff.2 fun hf => ?_⟩
  rw [← run_append] at hf hnone
  obtain ⟨k, e, a, he, -, ha⟩ := (attributed_run (commands ++ more)).vouched τ storage id hf
  exact hnone k ⟨e, a, he, ha⟩

end Process

/-- **Copies are vouched for as long as there is an artifact.** In every process, whatever a tracker
vouches for is for an artifact in the cache of exactly one executor, which asks this tracker. An
artifact that an executor has dropped is never in a cache again, and no tracker ever vouches for it
again; and when an executable has been compiled, no copy for its artifact is vouched for. -/
theorem vouched_for_cached (commands : List Command) :
    (∀ τ storage id, (Process.empty.run commands).platform.isFresh τ storage id = true →
      ∃ k e a, (Process.empty.run commands).executors[k]? = some e ∧ e.tracker = τ ∧
        e.cache.get? id = some a ∧ ∀ j, (Process.empty.run commands).Caches j id → j = k) ∧
    (∀ k id more, (Process.empty.run commands).Caches k id →
      ¬ ((Process.empty.run commands).run more).Caches k id →
      ∀ later, (∀ j, ¬ (((Process.empty.run commands).run more).run later).Caches j id) ∧
        ∀ τ storage, (((Process.empty.run commands).run more).run later).platform.isFresh
          τ storage id = false) ∧
    ∀ (k o : Nat) e inputs l t, (Process.empty.run commands).executors[k]? = some e →
      ExecM.getExecutable inputs ((Process.empty.run commands).stateOf e o) = .ok l t →
      l.hit = false → ∀ τ storage, t.platform.isFresh τ storage l.artifact = false := by
  have h := Process.attributed_run commands
  refine ⟨fun τ storage id hf => ?_, fun k id more hk hgone later => ?_,
    fun k o e inputs l t he hget hmiss τ storage => Bool.eq_false_iff.2 fun hf => ?_⟩
  · obtain ⟨k, e, a, he, hτ, ha⟩ := h.vouched τ storage id hf
    exact ⟨k, e, a, he, hτ, ha, fun j hj => h.apart j k id hj ⟨e, a, he, ha⟩⟩
  · have hlt := Process.lt_of_caches commands hk
    have hnone : ∀ j, ¬ ((Process.empty.run commands).run more).Caches j id := fun j hj => by
      rcases Process.caches_of_run commands hj with hbefore | hnew
      · exact hgone (h.apart j k id hbefore hk ▸ hj)
      · exact Nat.not_lt.2 hnew hlt
    have hlt' := Nat.lt_of_lt_of_le hlt
      ((Process.empty.run commands).grows_run more).nextArtifact
    rw [← Process.run_append .empty commands more] at hlt' hnone ⊢
    exact Process.gone_of_run (commands ++ more) hlt' hnone later
  · obtain ⟨computed, a, -, hfound⟩ :=
      (ExecM.ends_getExecutable (compiled_run commands o he) inputs).ok hget
    obtain ⟨hid, -⟩ := hfound.made hmiss
    obtain ⟨j, f, b, hf', -, hb⟩ := h.vouched τ storage _ (ExecState.isFresh_of_found hfound hf)
    have hlt := Process.lt_of_caches commands ⟨f, b, hf', hb⟩
    rw [hid] at hlt
    exact Nat.lt_irrefl _ hlt

/-- An executor on a device, with a cache for one artifact, has added a number to itself. -/
def sumOnce : List Command :=
  [.newRegistry, .register "device" (.recording .device) none,
    .allocate ⟨⟨.f32, [1]⟩, [0, 0, 128, 63]⟩,
    .build { BuildRequest.plain Graph.sampleAdd "device" .recording (.registry 0) with
      config := some { Config.standard with cacheDepth := 1 } },
    .ask 0 0 (.execute [⟨⟨.f32, [1]⟩, 0⟩, ⟨⟨.f32, [1]⟩, 0⟩])]

/-- Then it has been asked for the sum of two pairs of numbers. -/
def sumThenWider : List Command := sumOnce ++ [.ask 0 0 (.getExecutable (pairOf 2))]

/-- The copy of the number is vouched for until the first sum is dropped, and not when that sum is
compiled again. -/
theorem gone_of_sumThenWider :
    (Process.empty.run sumOnce).platform.isFresh (.registry 0) 0 0 = true ∧
    (Process.empty.run sumOnce).Caches 0 0 ∧
    ¬ (Process.empty.run sumThenWider).Caches 0 0 ∧
    (Process.empty.run sumThenWider).platform.isFresh (.registry 0) 0 0 = false ∧
    ∃ e l t, (Process.empty.run sumThenWider).executors[0]? = some e ∧
      ExecM.getExecutable [⟨⟨.f32, [1]⟩, 0⟩, ⟨⟨.f32, [1]⟩, 0⟩]
        ((Process.empty.run sumThenWider).stateOf e 0) = .ok l t ∧
      l.hit = false ∧ ∀ storage, t.platform.isFresh (.registry 0) storage l.artifact = false := by
  have hfresh : (Process.empty.run sumOnce).platform.isFresh (.registry 0) 0 0 = true := by
    decide +kernel
  have hlength : (Process.empty.run sumOnce).executors.length = 1 := by decide +kernel
  have hnone : (Process.empty.run sumThenWider).executors[0]?.bind (·.cache.get? 0) = none := by
    decide +kernel
  have hmiss : (Process.empty.run sumThenWider).executors[0]?.map (fun e =>
      ((Request.getExecutable [⟨⟨.f32, [1]⟩, 0⟩, ⟨⟨.f32, [1]⟩, 0⟩]).lookup?
        ((Process.empty.run sumThenWider).stateOf e 0)).map (·.hit)) = some (some false) := by
    decide +kernel
  have hrun : Process.empty.run sumThenWider =
      (Process.empty.run sumOnce).run [.ask 0 0 (.getExecutable (pairOf 2))] :=
    Process.run_append ..
  obtain ⟨hvouched, hdropped, -⟩ := vouched_for_cached sumOnce
  obtain ⟨k, e, a, he, -, ha, -⟩ := hvouched _ _ _ hfresh
  have hlt := (List.getElem?_eq_some_iff.1 he).1
  obtain rfl : k = 0 := by omega
  have hgone : ¬ (Process.empty.run sumThenWider).Caches 0 0 := by
    rintro ⟨f, b, hf, hb⟩
    rw [hf, Option.bind_some, hb] at hnone
    cases hnone
  -- The artifact was in the cache and no longer is, so nothing is vouched for on its account.
  obtain ⟨-, hnot⟩ := hdropped 0 0 [.ask 0 0 (.getExecutable (pairOf 2))] ⟨e, a, he, ha⟩
    (hrun ▸ hgone) []
  rw [← hrun, Process.run_nil] at hnot
  obtain ⟨f, hf, hmiss⟩ := Option.map_eq_some_iff.1 hmiss
  obtain ⟨l, hl, hhit⟩ := Option.map_eq_some_iff.1 hmiss
  unfold Request.lookup? Request.inputs? at hl
  rw [Option.bind_some] at hl
  cases hget : ExecM.getExecutable [⟨⟨.f32, [1]⟩, 0⟩, ⟨⟨.f32, [1]⟩, 0⟩]
      ((Process.empty.run sumThenWider).stateOf f 0) with
  | error error t =>
    rw [hget] at hl
    cases hl
  | ok l' t =>
    rw [hget] at hl
    obtain rfl := Option.some.inj hl
    exact ⟨hfresh, ⟨e, a, he, ha⟩, hgone, hnot _ _, f, l', t, hf, hget, hhit, fun storage =>
      (vouched_for_cached sumThenWider).2.2 0 0 f _ l' t hf hget hhit _ storage⟩

end TensorJit
