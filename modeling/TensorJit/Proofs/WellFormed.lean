import TensorJit.Proofs.Executor.Run
import TensorJit.Proofs.Process

/-!
# What is so in every process

Whatever the commands: names stand for backends that there are, so do executors, and the buffers
of a set of output buffers are separate (`Process.WellFormed`). An executor keeps its backend, so
the class and mode that it runs on never change.
-/

namespace TensorJit

/-! ### Output buffers stay separate -/

namespace ExecState

/-- Output buffers that are separate before are separate after. -/
def KeepsSeparate (s t : ExecState) : Prop :=
  s.outputs.Separate s.memory → t.outputs.Separate t.memory

instance : CacheMoves KeepsSeparate where
  refl _ := id
  trans h h' := h' ∘ h
  shared _ _ hp h := h.of_extends hp.memory
  stats _ _ _ := id
  prepared _ specs h := separate_prepared h specs
  tensors _ _ _ _ _ _ := id
  cache _ _ _ := id

instance : CopyMoves KeepsSeparate where
  steady _ _ hp _ h := h.of_extends hp.memory
  recounted _ _ _ := id

end ExecState

/-! ### Names, backends and output buffers -/

namespace Process

/-- Everything that is referred to exists, and no two output buffers of a set share a
storage. -/
structure WellFormed (w : Process) : Prop where
  /-- Names stand for backends. -/
  registered : ∀ name id, w.platform.registered.get? name = some id →
    id < w.platform.backends.size
  /-- Executors run on backends. -/
  backends : ∀ (k : Nat) e, w.executors[k]? = some e → e.backend < w.platform.backends.size
  /-- Output buffers are separate. -/
  separate : ∀ o, (w.outputsOf o).Separate w.platform.memory

namespace WellFormed

variable {w : Process}

theorem empty : WellFormed empty where
  registered _ _ h := by cases h
  backends _ _ h := by cases h
  separate _ := OutputBuffers.separate_empty _

theorem registered_of_build (h : WellFormed w) {r : BuildRequest} {e : Executor}
    (hbuilt : r.Built w.platform e) : e.backend < w.platform.backends.size := by
  have hbackend := hbuilt.backend
  unfold Platform.findBackend at hbackend
  cases hget : w.platform.registered.get? r.unit.backendName with
  | none =>
    rw [hget] at hbackend
    cases hbackend
  | some id =>
    rw [hget] at hbackend
    dsimp only at hbackend
    split at hbackend
    · cases hbackend
      exact h.registered _ _ hget
    · cases hbackend

/-- The state of an executor that is asked for something, before and after. -/
theorem step_ask (h : WellFormed w) (k o : Nat) (r : Request) :
    WellFormed (w.step (.ask k o r)) := by
  cases hk : w.executors[k]? with
  | none =>
    change WellFormed (w.ask k o r).2
    rw [ask_of_none hk]
    exact h
  | some e =>
    have hends := (r.later_perform (w.stateOf e o)).and
      (r.keeps_perform (T := ExecState.KeepsSeparate) (w.stateOf e o))
    obtain ⟨s, hput, hlater, hseparate⟩ := put_of_ends hk hends
    have hsize : s.platform.backends.size = w.platform.backends.size := hlater.platform.backends
    rw [hput]
    refine ⟨fun name id hid => ?_, fun j e' he' => ?_, fun o' => ?_⟩
    · change id < s.platform.backends.size
      rw [hsize]
      refine h.registered name id ?_
      rw [← show s.platform.registered = w.platform.registered from hlater.platform.registered]
      exact hid
    · change e'.backend < s.platform.backends.size
      rw [hsize]
      rcases executor_put hk he' with ⟨-, rfl⟩ | ⟨-, hold⟩
      · rw [show s.executor.backend = e.backend from hlater.backend]
        exact h.backends k e hk
      · exact h.backends j e' hold
    · rw [outputsOf_put]
      split
      · exact hseparate (h.separate o)
      · exact (h.separate o').of_extends hlater.platform.memory

theorem step_build (h : WellFormed w) (r : BuildRequest) : WellFormed (w.step (.build r)) := by
  obtain ⟨q, hq, hbuild⟩ := w.build_cases r
  have hsame : WellFormed { w with platform := q } := by
    refine ⟨fun name id hid => ?_, fun k e he => ?_, fun o => ?_⟩
    · change id < q.backends.size
      rw [hq.later.backends]
      exact h.registered name id (hq.later.registered ▸ hid)
    · change e.backend < q.backends.size
      rw [hq.later.backends]
      exact h.backends k e he
    · change (w.outputsOf o).Separate q.memory
      rw [hq.memory]
      exact h.separate o
  rcases hbuild with ⟨e, hbuilt, hstep⟩ | hstep
  · rw [hstep]
    refine ⟨hsame.registered, fun k e' he' => ?_, hsame.separate⟩
    rcases executor_append he' with hold | ⟨-, rfl⟩
    · exact hsame.backends k e' hold
    · change e'.backend < q.backends.size
      rw [hq.later.backends]
      exact h.registered_of_build hbuilt
  · rw [hstep]
    exact hsame

/-- **Every command keeps a process well formed.** -/
theorem step (h : WellFormed w) (c : Command) : WellFormed (w.step c) := by
  have hgrows := w.grows_step c
  have hbackends : ∀ {q : Platform}, q.backends.size = w.platform.backends.size →
      ∀ (k : Nat) e, w.executors[k]? = some e → e.backend < q.backends.size :=
    fun hq k e he => hq.symm ▸ h.backends k e he
  -- The memory only grows, so outputs that were separate stay so.
  have hseparate : ∀ o, (w.outputsOf o).Separate (w.step c).platform.memory := fun o =>
    (h.separate o).of_extends hgrows.memory
  cases c with
  | register name kind rejected =>
    have hsize : (w.step (.register name kind rejected)).platform.backends.size =
        w.platform.backends.size + 1 := Array.size_push _
    refine ⟨fun name' id hid => ?_, fun k e he => ?_, hseparate⟩
    · rw [hsize]
      change (w.platform.registered.insert _ w.platform.backends.size).get? name' = some id at hid
      rw [SortedMap.get?_insert] at hid
      split at hid
      · obtain rfl := Option.some.inj hid
        exact Nat.lt_succ_self _
      · exact Nat.lt_succ_of_lt (h.registered name' id hid)
    · rw [hsize]
      exact Nat.lt_succ_of_lt (h.backends k e he)
  | unregister name =>
    refine ⟨fun name' id hid => ?_, h.backends, hseparate⟩
    change (w.platform.registered.erase name).get? name' = some id at hid
    rw [SortedMap.get?_erase] at hid
    split at hid
    · cases hid
    · exact h.registered name' id hid
  | inject id injections =>
    have hsize : (w.step (.inject id injections)).platform.backends.size =
        w.platform.backends.size := Array.size_modify
    exact ⟨fun name' j hj => hsize.symm ▸ h.registered name' j hj, hbackends hsize, hseparate⟩
  | allocate t => exact ⟨h.registered, h.backends, hseparate⟩
  | write storage bytes => exact ⟨h.registered, h.backends, hseparate⟩
  | newRegistry => exact ⟨h.registered, h.backends, hseparate⟩
  | invalidate tracker storage => exact ⟨h.registered, h.backends, hseparate⟩
  | take number =>
    refine ⟨h.registered, h.backends, fun o => ?_⟩
    unfold outputsOf
    change ((w.outputs.insert number .empty).get? o).getD .empty |>.Separate _
    rw [SortedMap.get?_insert]
    split
    · exact OutputBuffers.separate_empty _
    · exact h.separate o
  | build r => exact h.step_build r
  | ask k o r => exact h.step_ask k o r

end WellFormed

/-- **Every process is well formed.** -/
theorem wellFormed_run (commands : List Command) : (Process.empty.run commands).WellFormed :=
  empty_run_induction .empty (fun _ c h => h.step c) commands

end Process

end TensorJit
