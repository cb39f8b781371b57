import TensorJit.Proofs.CacheHit
import TensorJit.Proofs.Executor.Changes
import TensorJit.Proofs.Lending
import TensorJit.Proofs.WellFormed

/-!
# Changed outputs are not vouched for, unless a call fails with them half written

A unit skips a copy when a registry says that the copy it has made is current, so whoever changes a
buffer in place has to invalidate it. In every process the tensors of all executors are at home
(`Process.atHome_run`), so a call changes no storages but those of its output buffers, and a call
that succeeds has all of these invalidated; a call that fails does not get that far. **The only
errors that leave changed outputs vouched for are those of the call itself, where tensors are in
host buffers, and those of reading, where they are not** (`changed_outputs_not_fresh`).
-/

namespace TensorJit

/-- **Whatever an executor is asked for**, the tracker is told of everything on the host that has
changed, unless the request fails with an error that says otherwise. -/
theorem Request.ends_changes {P : List Tensor → Prop} {s : ExecState} (hcompiled : Compiled P s)
    (h : s.AtHome) (hcoherent : s.cache.Coherent s.executor.config.pipelineDepth) (r : Request) :
    Ends (r.perform s) (fun _ t => s.Announces t) fun e t => s.Withholds e t := by
  have hspares : ∀ {α : Type} {x : ExecM α} (f : α → Answer),
      Ends (x s) (fun _ t => s.Spares t) (fun _ t => s.Spares t) →
      Ends ((x >>= fun a => pure (f a)) s) (fun _ t => s.Announces t)
        fun e t => s.Withholds e t := fun f hx =>
    ends_bind.2 (hx.mono (fun _ _ ht => ht.announces) fun _ _ ht => ht.withholds)
  cases r with
  | execute inputs =>
    unfold perform
    rw [ends_bind, ExecM.execute_eq, ends_bind]
    refine ((ExecM.ends_getExecutable hcompiled inputs).and
      (ExecM.spares_getExecutable hcompiled h inputs)).mono (fun found t ht => ?_)
      fun _ _ ht => ht.2.withholds
    obtain ⟨⟨computed, a, -, hfound⟩, ht⟩ := ht
    exact (ExecM.changes_runFound ht.home (hfound.keepsLent.coherent hcoherent)
      (congrArg _ hfound.later.config) found inputs).mono (fun _ _ hu => hu.prepend ht)
      fun _ _ hu => hu.prepend ht
  | getExecutable inputs => exact hspares _ (ExecM.spares_getExecutable hcompiled h inputs)
  | allocateInputs artifact inputs => exact hspares _ (ExecM.spares_allocateInputs h _ _)
  | allocateOutputs artifact outputs =>
    exact hspares _
      ((ExecM.spares_allocateOutputs h _ _).mono (fun _ _ ht => ht.1) fun _ _ ht => ht)
  | acquireGroup artifact =>
    exact hspares _ ((ExecM.spares_acquireGroup h _).mono (fun _ _ ht => ht.1) fun _ _ ht => ht)
  | returnGroup artifact index => exact hspares _ (ExecM.spares_returnGroup h _ _)

namespace Process

/-- The tensors of the executors are at home. -/
def AtHome (w : Process) : Prop :=
  ∀ (k o : Nat) (e : Executor), w.executors[k]? = some e → (w.stateOf e o).AtHome

/-- A process without new tensors in its executors. -/
theorem AtHome.of_grows {w w' : Process} (h : w.AtHome) (hgrows : w.platform.Grows w'.platform)
    {k : Nat} {e : Executor} (he : w.executors[k]? = some e)
    (hb : e.backend < w.platform.backends.size) (o : Nat) : (w'.stateOf e o).AtHome := by
  intro i a ha
  have hkind : (w'.stateOf e o).kind = (w.stateOf e o).kind := hgrows.kind e.backend hb
  rw [hkind]
  exact (h k o e he i a ha).extends hgrows.memory

/-- **In every process** the tensors of the executors are at home. -/
theorem atHome_run (commands : List Command) : (empty.run commands).AtHome := by
  induction commands using List.reverseRecOn with
  | nil => exact fun _ _ _ he => by cases he
  | append_singleton rest c ih =>
    rw [run_concat]
    intro k o e' he'
    have hends : ∀ o r e, c = .ask k o r → (empty.run rest).executors[k]? = some e →
        Ends (r.perform ((empty.run rest).stateOf e o)) (fun _ t => t.AtHome)
          fun _ t => t.AtHome := fun o r e _ he =>
      (r.ends_changes (compiled_run rest o he) (ih k o e he)
        ((lends_run rest).coherent k e he)).mono (fun _ _ ht => ht.home) fun _ _ ht => ht.home
    rcases executor_step hends he' with
      ⟨hold, -⟩ | ⟨o', r, e, s, -, he, hput, rfl, hs⟩ | ⟨r, -, -, hbuilt⟩
    · exact ih.of_grows (grows_step _ c) hold ((wellFormed_run rest).backends k e' hold) o
    · rw [hput]
      exact hs
    · intro i a ha
      rw [ExecState.cache, stateOf_executor, hbuilt.cache] at ha
      cases ha

end Process

/-- **Changed outputs are not vouched for, unless a call fails with them half written.** If a
storage of the host has other bytes after an executor has been asked for something, then it is that
of an output buffer whose position is not bound elsewhere, and the tracker of the executor vouches
for no copy of it. The exceptions are errors in calling the executable, where tensors are in host buffers,
and errors in reading its results, where they are not. -/
theorem changed_outputs_not_fresh (commands : List Command) (k o : Nat) (e : Executor)
    (r : Request) (he : (Process.empty.run commands).executors[k]? = some e) (storage : StorageId)
    (hlive : storage < (Process.empty.run commands).platform.memory.storages.size)
    (hchanged : ((Process.empty.run commands).ask k o r).2.platform.memory.storage storage ≠
      (Process.empty.run commands).platform.memory.storage storage) :
    (((Process.empty.run commands).ask k o r).2.outputsOf o).Receives e.unit storage ∧
      ((∀ id, ((Process.empty.run commands).ask k o r).2.platform.isFresh e.tracker storage id =
          false) ∨
        ∃ error, ((Process.empty.run commands).ask k o r).1 = some (.error error) ∧
          error.changesOutputs
            ((Process.empty.run commands).platform.backend e.backend).kind = true) := by
  obtain ⟨s, hput, hs⟩ := Process.ask_of_ends he ((r.ends_changes (compiled_run commands o he)
    (Process.atHome_run commands k o e he) ((Process.lends_run commands).coherent k e he)).and
    (r.later_perform _))
  rw [hput] at hchanged ⊢
  have houtputs : ((Process.empty.run commands).put k o s).outputsOf o = s.outputs := by
    rw [Process.outputsOf_put, if_pos rfl]
  rw [houtputs]
  rcases hs with ⟨-, -, hannounces, hlater⟩ | ⟨error, herror, hwithholds, hlater⟩
  · have hreceives := hannounces.receives storage ⟨hlive, hchanged⟩
    unfold ExecState.Receives at hreceives
    rw [hlater.unit] at hreceives
    refine ⟨hreceives, .inl fun id => ?_⟩
    have hstale := hannounces.stale storage ⟨hlive, hchanged⟩ id
    rw [hlater.tracker] at hstale
    exact hstale
  · obtain ⟨hchanges, hreceives⟩ := hwithholds.leaves storage ⟨hlive, hchanged⟩
    unfold ExecState.Receives at hreceives
    rw [hlater.unit] at hreceives
    rw [hlater.kind_eq] at hchanges
    exact ⟨hreceives, .inr ⟨error, herror, hchanges⟩⟩

/-- The output of a sum in host buffers is an input of a sum on a device, which has copied it. Then
the input of the first sum is changed in place. -/
def sumOfSum : List Command :=
  [.newRegistry, .register "host" (.recording .host) none,
    .register "device" (.recording .device) none, .allocate ⟨⟨.f32, [1]⟩, [0, 0, 128, 63]⟩,
    .build (.plain Graph.sampleAdd "host" .recording (.registry 0)),
    .build (.plain Graph.sampleAdd "device" .recording (.registry 0)),
    .ask 0 0 (.execute [⟨⟨.f32, [1]⟩, 0⟩, ⟨⟨.f32, [1]⟩, 0⟩]),
    .ask 1 1 (.execute [⟨⟨.f32, [1]⟩, 1⟩, ⟨⟨.f32, [1]⟩, 1⟩]), .write 0 [0, 0, 160, 64]]

/-- When the first sum is called again its output changes, and the registry does not vouch for the
copy on the device any more. -/
theorem not_fresh_of_sumOfSum : ∃ e, (Process.empty.run sumOfSum).executors[0]? = some e ∧
    1 < (Process.empty.run sumOfSum).platform.memory.storages.size ∧
    ((Process.empty.run sumOfSum).ask 0 0
        (.execute [⟨⟨.f32, [1]⟩, 0⟩, ⟨⟨.f32, [1]⟩, 0⟩])).2.platform.memory.storage 1 ≠
      (Process.empty.run sumOfSum).platform.memory.storage 1 ∧
    (Process.empty.run sumOfSum).platform.isFresh (.registry 0) 1 1 = true ∧
    ((Process.empty.run sumOfSum).ask 0 0
      (.execute [⟨⟨.f32, [1]⟩, 0⟩, ⟨⟨.f32, [1]⟩, 0⟩])).2.platform.isFresh (.registry 0) 1 1 =
        false := by
  obtain ⟨e, he⟩ := Option.isSome_iff_exists.1
    (show ((Process.empty.run sumOfSum).executors[0]?).isSome = true by decide +kernel)
  have htracker : (Process.empty.run sumOfSum).executors[0]?.map (·.tracker) =
      some (.registry 0) := by decide +kernel
  rw [he, Option.map_some] at htracker
  have hlive : 1 < (Process.empty.run sumOfSum).platform.memory.storages.size := by decide +kernel
  have hchanged : ((Process.empty.run sumOfSum).ask 0 0
        (.execute [⟨⟨.f32, [1]⟩, 0⟩, ⟨⟨.f32, [1]⟩, 0⟩])).2.platform.memory.storage 1 ≠
      (Process.empty.run sumOfSum).platform.memory.storage 1 := by decide +kernel
  have hok : ((Process.empty.run sumOfSum).ask 0 0
      (.execute [⟨⟨.f32, [1]⟩, 0⟩, ⟨⟨.f32, [1]⟩, 0⟩])).1.map Except.isOk = some true := by
    decide +kernel
  obtain ⟨-, hstale | ⟨error, herror, -⟩⟩ :=
    changed_outputs_not_fresh sumOfSum 0 0 e _ he 1 hlive hchanged
  · rw [Option.some.inj htracker] at hstale
    exact ⟨e, he, hlive, hchanged, by decide +kernel, hstale 1⟩
  · rw [herror] at hok
    cases hok

/-- The negation of one input, and another input as it is. -/
def Graph.negAndPass : Graph :=
  .ofSample
    [("a", "_Arg", some 0), ("b", "_Arg", some 1), ("neg", "Neg", none),
      ("neg_out", "_Retval", some 0), ("b_out", "_Retval", some 1)]
    [(0, 2, 0), (2, 3, 0), (1, 4, 0)]

/-- A negation beside an input that is passed on has been compiled for floating point and for bytes,
in host buffers. It is called with floating point for both, and fails when it comes to the second
output. Then a sum on a device copies the first output, and the input is changed in place. -/
def failAtSecond : List Command :=
  [.newRegistry, .register "host" (.recording .host) none,
    .register "device" (.recording .device) none, .allocate ⟨⟨.f32, [1]⟩, [0, 0, 128, 63]⟩,
    .allocate ⟨⟨.u8, [1]⟩, [1]⟩,
    .build (.plain Graph.negAndPass "host" .recording (.registry 0)),
    .build (.plain Graph.sampleAdd "device" .recording (.registry 0)),
    .ask 0 0 (.getExecutable [⟨⟨.f32, [1]⟩, 0⟩, ⟨⟨.u8, [1]⟩, 1⟩]),
    .ask 0 0 (.execute [⟨⟨.f32, [1]⟩, 0⟩, ⟨⟨.f32, [1]⟩, 0⟩]),
    .ask 1 1 (.execute [⟨⟨.f32, [1]⟩, 2⟩, ⟨⟨.f32, [1]⟩, 2⟩]), .write 0 [0, 0, 160, 64]]

/-- **A call that fails leaves a changed output vouched for.** The first output goes from minus one
to minus five, the call fails, and the registry still says that the copy on the device is
current. -/
theorem fresh_after_failure :
    ((Process.empty.run failAtSecond).ask 0 0
      (.execute [⟨⟨.f32, [1]⟩, 0⟩, ⟨⟨.f32, [1]⟩, 0⟩])).1.map Except.isOk = some false ∧
    (Process.empty.run failAtSecond).platform.memory.storage 2 = [0, 0, 128, 191] ∧
    ((Process.empty.run failAtSecond).ask 0 0
      (.execute [⟨⟨.f32, [1]⟩, 0⟩, ⟨⟨.f32, [1]⟩, 0⟩])).2.platform.memory.storage 2 =
        [0, 0, 160, 192] ∧
    (((Process.empty.run failAtSecond).ask 0 0
      (.execute [⟨⟨.f32, [1]⟩, 0⟩, ⟨⟨.f32, [1]⟩, 0⟩])).2.outputsOf 0).buffers.map (·.storage) =
        [2, 3] ∧
    ((Process.empty.run failAtSecond).ask 0 0
      (.execute [⟨⟨.f32, [1]⟩, 0⟩, ⟨⟨.f32, [1]⟩, 0⟩])).2.platform.isFresh (.registry 0) 2 1 =
        true := by
  refine ⟨?_, ?_, ?_, ?_, ?_⟩
  · decide +kernel
  · decide +kernel
  · decide +kernel
  · decide +kernel
  · decide +kernel

end TensorJit
