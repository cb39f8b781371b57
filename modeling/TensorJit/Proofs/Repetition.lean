import TensorJit.Proofs.Executor.Repetition
import TensorJit.Proofs.Tenancy

/-!
# A call made again is free

Whatever has happened to a process, a call that succeeds leaves the executor with all that the same
call needs (`Process.primed_ask`), and a call that finds this changes nothing (`Process.again_ask`).
**So the second of two calls in a row is a hit, makes no tensor, and leaves the signatures in the
cache, the output buffers and their bytes as they were** (`repeated_call_free`), unless an output
buffer is one of the inputs.

There is one exception, about bytes and where there is a pipeline. How much of a tensor an input is
written over is counted in the elements of the input and not of the tensor, so one with smaller
elements ends before the tensor does. What is behind it is what a call before has left in the group,
**and the next call gets the next group** (`bytes_differ_of_short_input`).
-/

namespace TensorJit

namespace Process

/-- A call has been made again, and what can be seen is as it was. -/
structure Repeats (w w' : Process) (k o : Nat) (e : Executor) (inputs : List HostBuffer)
    (r r' : Report) : Prop where
  /-- It was a hit. -/
  hit : r'.hit = true
  /-- The artifact is the same. -/
  artifact : r'.artifact = r.artifact
  /-- The signature is the same. -/
  signature : r'.signature = r.signature
  /-- No tensor was made for a slot. -/
  created : r'.tensorsCreated = 0
  /-- No tensor was made at all. -/
  tensors : w'.platform.memory.tensors.size = w.platform.memory.tensors.size
  /-- The signatures in the cache are the same, in the same order. -/
  order : w'.executors[k]?.map (·.cache.order) = some e.cache.order
  /-- The output buffers are the same. -/
  outputs : w'.outputsOf o = w.outputsOf o
  /-- All host buffers hold the same. With a pipeline, this is said if the group is the same, or if
  the inputs fill their tensors. -/
  storages : ((w.platform.backend e.backend).kind.isPipelined = true → r'.group = r.group ∨
      ∀ a, e.cache.get? r.artifact = some a → a.executable.function.FilledBy e.unit inputs) →
    ∀ j, w'.platform.memory.storage j = w.platform.memory.storage j

variable {k o : Nat} {inputs : List HostBuffer} {r : Report} {w : Process} {e : Executor}
  {computed : Signature.Computed} {id : ArtifactId} {x : Executable} {group : Option Nat}

/-- What is said of calls is said of the answers to requests for them. -/
theorem ends_perform_execute {s : ExecState} {Q : Report → ExecState → Prop}
    {E : Error → ExecState → Prop} (h : Ends (ExecM.execute inputs s) Q E) :
    Ends ((Request.execute inputs).perform s) (fun a t => ∃ r, a = .report r ∧ Q r t) E := by
  unfold Request.perform
  rw [ends_bind]
  exact h.mono (fun r t ht => ends_pure.2 ⟨r, rfl, ht⟩) fun _ _ ht => ht

/-- **A call that succeeds** leaves everything settled, unless an output buffer is one of the
inputs. -/
theorem primed_ask (commands : List Command)
    (hask : (empty.run commands).ask k o (.execute inputs) = (some (.ok (.report r)), w))
    (haside : (w.outputsOf o).Aside inputs) :
    ∃ e computed x, w.executors[k]? = some e ∧ r.signature = computed.signature ∧
      Settled (w.stateOf e o) inputs computed r.artifact x ∧
      Primed (w.stateOf e o) r.artifact x inputs r.group := by
  cases he : (empty.run commands).executors[k]? with
  | none =>
    rw [ask_of_none he] at hask
    cases congrArg Prod.fst hask
  | some e =>
    have hends := ExecM.ends_execute_primed (compiled_run commands o he)
      (atHome_run commands k o e he) ((tenanted_run commands).owns k e he)
      ((wellFormed_run commands).separate o) ((lends_run commands).coherent k e he) rfl inputs
    obtain ⟨t, hput, ⟨a, hanswer, r', rfl, ht⟩ | ⟨error, herror, -⟩⟩ :=
      ask_of_ends he (ends_perform_execute hends)
    · rw [hask] at hput hanswer
      obtain rfl : w = _ := hput
      obtain rfl : r = r' := by injection hanswer with h; injection h with h; injection h
      rw [outputsOf_put, if_pos rfl] at haside
      obtain ⟨computed, x, hsignature, hsettled, hprimed⟩ := ht haside
      refine ⟨t.executor, computed, x, ?_, hsignature, ?_, ?_⟩
      · exact List.getElem?_set_self (List.getElem?_eq_some_iff.1 he).1
      · rw [stateOf_put]
        exact hsettled
      · rw [stateOf_put]
        exact hprimed
    · rw [hask] at herror
      cases herror

/-- **A call that finds everything settled** succeeds, and changes nothing that can be seen. -/
theorem again_ask (commands : List Command) (he : (empty.run commands).executors[k]? = some e)
    (hsettled : Settled ((empty.run commands).stateOf e o) inputs computed id x)
    (hprimed : Primed ((empty.run commands).stateOf e o) id x inputs group) :
    ∃ r t, (empty.run commands).ask k o (.execute inputs) =
        (some (.ok (.report r)), (empty.run commands).put k o t) ∧
      Again ((empty.run commands).stateOf e o) computed id x inputs group r t := by
  have hends := ExecM.ends_execute_again (atHome_run commands k o e he)
    ((tenanted_run commands).owns k e he) ((tenanted_run commands).blank k o e he)
    ((wellFormed_run commands).separate o) hsettled hprimed
  obtain ⟨t, hput, ⟨a, hanswer, r, rfl, ht⟩ | ⟨-, -, hfalse⟩⟩ :=
    ask_of_ends he (ends_perform_execute hends)
  · exact ⟨r, t, Prod.ext hanswer hput, ht⟩
  · exact hfalse.elim

end Process

/-- **A call made again is free.** Whatever has happened to a process, let a call succeed with no
output buffer among its inputs. Then the same call succeeds at once, and is a hit for the same
artifact that makes no tensor and leaves the signatures in the cache and the output buffers as they
are. The bytes stay the same too, at least where there is no pipeline, if the same group is lent, or
if the inputs fill their tensors. -/
theorem repeated_call_free (commands : List Command) (k o : Nat) (inputs : List HostBuffer)
    (r : Report) (w : Process)
    (hask : (Process.empty.run commands).ask k o (.execute inputs) = (some (.ok (.report r)), w))
    (haside : (w.outputsOf o).Aside inputs) :
    ∃ e r' w', w.executors[k]? = some e ∧
      w.ask k o (.execute inputs) = (some (.ok (.report r')), w') ∧
      w.Repeats w' k o e inputs r r' := by
  obtain ⟨e, computed, x, he, hsignature, hsettled, hprimed⟩ :=
    Process.primed_ask commands hask haside
  have hw : w = Process.empty.run (commands ++ [.ask k o (.execute inputs)]) := by
    rw [Process.run_concat]
    exact (congrArg Prod.snd hask).symm
  rw [hw] at he hsettled hprimed
  obtain ⟨r', t, hanswer, ht⟩ := Process.again_ask _ he hsettled hprimed
  rw [← hw] at he hsettled hanswer ht
  obtain ⟨hartifact, hsignature', hhit⟩ := ht.report
  refine ⟨e, r', w.put k o t, he, hanswer, hhit, hartifact, hsignature'.trans hsignature.symm,
    ht.created, ht.tensors, ?_, ?_, fun hshows => ht.storages fun hpipelined => ?_⟩
  · change ((w.executors.set k t.executor)[k]?).map (·.cache.order) = _
    rw [List.getElem?_set_self (List.getElem?_eq_some_iff.1 he).1]
    exact congrArg some ht.order
  · rw [Process.outputsOf_put, if_pos rfl]
    exact ht.outputs
  · refine (hshows hpipelined).imp_right fun hfilled => ?_
    obtain ⟨a, ha, rfl⟩ := hsettled.found
    exact hfilled a ha

/-- The negation of one input. -/
def Graph.negOnly : Graph :=
  .ofSample [("x", "_Arg", some 0), ("neg", "Neg", none), ("out", "_Retval", some 0)]
    [(0, 1, 0), (1, 2, 0)]

/-- A negation with a pipeline of two groups has been called with one. There is another buffer. -/
def afterNegOfOne (other : Tensor) : List Command :=
  [.register "d" (.recording .pipelined) none, .allocate ⟨⟨.f32, [1]⟩, [0, 0, 128, 63]⟩,
    .allocate other, .build (.plain Graph.negOnly "d" .recording .never),
    .ask 0 0 (.execute [⟨⟨.f32, [1]⟩, 0⟩])]

/-- Two is negated twice. The second call gets the group that had one, and the result is the
same. -/
theorem same_bytes_in_next_group : ∃ r w r' w',
    (Process.empty.run (afterNegOfOne ⟨⟨.f32, [1]⟩, [0, 0, 0, 64]⟩)).ask 0 0
      (.execute [⟨⟨.f32, [1]⟩, 1⟩]) = (some (.ok (.report r)), w) ∧
    (w.outputsOf 0).Aside [⟨⟨.f32, [1]⟩, 1⟩] ∧ r.group = some 1 ∧
    w.ask 0 0 (.execute [⟨⟨.f32, [1]⟩, 1⟩]) = (some (.ok (.report r')), w') ∧
    r'.group = some 0 ∧ r'.hit = true ∧ r'.tensorsCreated = 0 ∧ w'.outputsOf 0 = w.outputsOf 0 ∧
    ∀ j, w'.platform.memory.storage j = w.platform.memory.storage j := by
  have hanswer : ((Process.empty.run (afterNegOfOne ⟨⟨.f32, [1]⟩, [0, 0, 0, 64]⟩)).ask 0 0
      (.execute [⟨⟨.f32, [1]⟩, 1⟩])).1 =
        some (.ok (.report ⟨0, "1,;/", true, 0, 1, 4, some 1⟩)) := by decide +kernel
  have haside : (((Process.empty.run (afterNegOfOne ⟨⟨.f32, [1]⟩, [0, 0, 0, 64]⟩)).ask 0 0
      (.execute [⟨⟨.f32, [1]⟩, 1⟩])).2.outputsOf 0).Aside [⟨⟨.f32, [1]⟩, 1⟩] := by
    unfold OutputBuffers.Aside
    decide +kernel
  have hanswer' : (((Process.empty.run (afterNegOfOne ⟨⟨.f32, [1]⟩, [0, 0, 0, 64]⟩)).ask 0 0
      (.execute [⟨⟨.f32, [1]⟩, 1⟩])).2.ask 0 0 (.execute [⟨⟨.f32, [1]⟩, 1⟩])).1 =
        some (.ok (.report ⟨0, "1,;/", true, 0, 1, 4, some 0⟩)) := by decide +kernel
  have hparameters : ((Process.empty.run (afterNegOfOne ⟨⟨.f32, [1]⟩, [0, 0, 0, 64]⟩)).ask 0 0
      (.execute [⟨⟨.f32, [1]⟩, 1⟩])).2.executors[0]?.bind (fun e => (e.cache.get? 0).map
        (·.executable.function.parameters)) = some [⟨.f32, [1]⟩] := by decide +kernel
  obtain ⟨e, r', w', he, hagain, h⟩ :=
    repeated_call_free _ 0 0 _ _ _ (Prod.fst_eq_iff.1 hanswer) haside
  rw [he, Option.bind_some] at hparameters
  have hr' := Option.some.inj ((congrArg Prod.fst hagain).symm.trans hanswer')
  refine ⟨_, _, _, w', Prod.fst_eq_iff.1 hanswer, haside, rfl, hagain, ?_, h.hit, h.created,
    h.outputs, h.storages fun _ => .inr fun a ha => Function.filledBy_of_specs ?_⟩
  · cases hr'
    rfl
  · rw [ha] at hparameters
    exact (Option.some.inj hparameters).symm

/-- **What is seen depends on the group if an input is short.** One byte is negated twice, where
four are expected. At first zeros are behind it, and then what is left of one. -/
theorem bytes_differ_of_short_input : ∃ r w r' w',
    (Process.empty.run (afterNegOfOne ⟨⟨.u8, [1]⟩, [7]⟩)).ask 0 0
      (.execute [⟨⟨.u8, [1]⟩, 1⟩]) = (some (.ok (.report r)), w) ∧
    (w.outputsOf 0).Aside [⟨⟨.u8, [1]⟩, 1⟩] ∧
    w.ask 0 0 (.execute [⟨⟨.u8, [1]⟩, 1⟩]) = (some (.ok (.report r')), w') ∧
    w.outputsOf 0 = ⟨[⟨⟨.f32, [1]⟩, 2⟩]⟩ ∧ w'.outputsOf 0 = ⟨[⟨⟨.f32, [1]⟩, 2⟩]⟩ ∧
    w.platform.memory.storage 2 = [7, 0, 0, 128] ∧
    w'.platform.memory.storage 2 = [7, 0, 128, 191] := by
  have hanswer : ((Process.empty.run (afterNegOfOne ⟨⟨.u8, [1]⟩, [7]⟩)).ask 0 0
      (.execute [⟨⟨.u8, [1]⟩, 1⟩])).1 =
        some (.ok (.report ⟨0, "1,;/", true, 0, 1, 1, some 1⟩)) := by decide +kernel
  have hanswer' : (((Process.empty.run (afterNegOfOne ⟨⟨.u8, [1]⟩, [7]⟩)).ask 0 0
      (.execute [⟨⟨.u8, [1]⟩, 1⟩])).2.ask 0 0 (.execute [⟨⟨.u8, [1]⟩, 1⟩])).1 =
        some (.ok (.report ⟨0, "1,;/", true, 0, 1, 1, some 0⟩)) := by decide +kernel
  refine ⟨_, _, _, _, Prod.fst_eq_iff.1 hanswer, ?_, Prod.fst_eq_iff.1 hanswer', ?_, ?_, ?_, ?_⟩
  · unfold OutputBuffers.Aside
    decide +kernel
  · decide +kernel
  · decide +kernel
  · decide +kernel
  · decide +kernel

end TensorJit
