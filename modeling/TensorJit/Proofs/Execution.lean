import TensorJit.Proofs.CacheHit
import TensorJit.Proofs.WellFormed

/-!
# What a call computes

An executor stays sound through every run in which the inputs it is given keep their element
types and are as long as their specs say (`Process.Orderly`), whatever else happens to the
process, and whatever the other executors are asked for; only on a pipelined backend what it makes
has to suit the element types (`Executor.Suits`). So, where they are made so, **a call of an
executor that nobody vouches for copies to leaves, in every output buffer that is not bound
elsewhere, the bytes that evaluation gives for the inputs as they were when the call began**
(`execute_eq_evaluate`). That a buffer is an input and an output at the same time makes no
difference.
-/

namespace TensorJit

open ExecState (Sound)

/-! ### Runs in which the inputs of an executor are in order -/

namespace Process

/-- The inputs of a call and the output buffers that it is given are in order. -/
structure Presents (w : Process) (δ : Nat → DType) (o : Nat) (inputs : List HostBuffer) :
    Prop where
  /-- Each input has the element type that its position is to have. -/
  dtypes : ∀ (q : Nat) (b : HostBuffer), inputs[q]? = some b → b.spec.dtype = δ q
  /-- The storages of the inputs exist. -/
  live : ∀ b ∈ inputs, b.storage < w.platform.memory.storages.size
  /-- They are as long as their specs say. -/
  filled : ∀ b ∈ inputs, (w.platform.memory.read b).WellSized
  /-- So are those of the output buffers. -/
  sized : ∀ b ∈ (w.outputsOf o).buffers, (w.platform.memory.read b).WellSized

/-- A command that gives an executor inputs only in order. It runs the unit, finds executables,
borrows groups and gives them back; what the other executors are asked for does not matter. -/
def Orderly (δ : Nat → DType) (k : Nat) (w : Process) : Command → Prop
  | .ask j o (.execute inputs) => j = k → w.Presents δ o inputs
  | .ask j _ (.getExecutable inputs) =>
    j = k → ∀ (q : Nat) (b : HostBuffer), inputs[q]? = some b → b.spec.dtype = δ q
  | .ask j _ (.allocateInputs _ _) | .ask j _ (.allocateOutputs _ _) => j ≠ k
  | _ => True

end Process

theorem hasDTypes_read {δ : Nat → DType} {m : Memory} {inputs : List HostBuffer}
    (h : ∀ (q : Nat) (b : HostBuffer), inputs[q]? = some b → b.spec.dtype = δ q) :
    HasDTypes δ (inputs.map m.read) := by
  intro q t ht
  rw [List.getElem?_map] at ht
  obtain ⟨b, hb, rfl⟩ := Option.map_eq_some_iff.1 ht
  exact h q b hb

theorem Process.Presents.presented {w : Process} {δ : Nat → DType} {o : Nat}
    {inputs : List HostBuffer} (h : w.Presents δ o inputs) (hw : w.WellFormed) (e : Executor) :
    Presented δ (w.stateOf e o) inputs :=
  ⟨⟨h.live, h.filled, hw.separate o, h.sized⟩, hasDTypes_read h.dtypes⟩

/-- An executor stays sound while the platform grows. -/
theorem ExecState.Sound.of_grows {δ : Nat → DType} {s t : ExecState} (h : Sound δ s)
    (hexecutor : t.executor = s.executor) (hgrows : s.platform.Grows t.platform)
    (hbackend : s.executor.backend < s.platform.backends.size) : Sound δ t where
  compiled := h.compiled.of_executor_eq hexecutor hgrows.nextArtifact
  owns := by
    unfold ExecState.cache
    rw [hexecutor]
    exact h.owns.of_sub hgrows.memory.tensors fun _ _ _ h => h
  fits i a ins ha hins := by
    have hkind : t.kind = s.kind := by
      unfold ExecState.kind ExecState.device Platform.device
      rw [hexecutor]
      exact hgrows.kind _ hbackend
    rw [hkind]
    unfold ExecState.cache at ha
    rw [hexecutor] at ha hins
    exact (h.fits i a ins ha hins).extends hgrows.memory

/-- An executor that has just been built is sound. -/
theorem sound_of_built {δ : Nat → DType} {r : BuildRequest} {p : Platform} {s : ExecState}
    (h : r.Built p s.executor) : Sound δ s := by
  have hcache : s.cache = .new s.executor.config.cacheDepth := h.cache
  have hat : ∀ i pl x, s.cache.tensorAt i pl ≠ some x := fun i pl x hx => by
    rw [hcache] at hx
    cases hx
  exact ⟨compiled_of_built h, ⟨fun i pl x hx => absurd hx (hat i pl x),
    fun i j pl pl' x hx => absurd hx (hat i pl x)⟩,
    fun i a ins ha => by rw [hcache] at ha; cases ha⟩

/-- **One request**: an executor stays sound if its inputs are in order. -/
theorem ExecState.Sound.perform {δ : Nat → DType} {w : Process} {k o : Nat} {e : Executor}
    (h : Sound δ (w.stateOf e o)) (hw : w.WellFormed)
    (hgroup : (w.stateOf e o).kind.isPipelined = true → e.Suits δ) {r : Request}
    (hr : w.Orderly δ k (.ask k o r)) :
    Ends (r.perform (w.stateOf e o)) (fun _ t => Sound δ t) fun _ t => Sound δ t := by
  cases r with
  | execute inputs =>
    unfold Request.perform
    rw [ends_bind]
    exact ExecM.sound_execute h ((hr rfl).presented hw e) hgroup
  | getExecutable inputs =>
    unfold Request.perform
    rw [ends_bind]
    refine (ExecM.ends_getExecutable h.compiled inputs).mono (fun l t ht => ?_) fun _ t ht => ?_
    · obtain ⟨computed, a, hcompute, hfound⟩ := ht
      exact h.found (hasDTypes_read (hr rfl)) hcompute hfound
    · exact h.untouched ht.1
  | allocateInputs artifact inputs => exact absurd rfl hr
  | allocateOutputs artifact outputs => exact absurd rfl hr
  | acquireGroup artifact =>
    unfold Request.perform
    rw [ends_bind]
    exact (ExecM.ends_acquireGroup artifact h.owns fun a p ha hp => h.pipelineFits ha hp).mono
      (fun _ _ ht => ht.2.1 δ h) fun _ _ ht => ht.1 δ h
  | returnGroup artifact index =>
    unfold Request.perform
    rw [ends_bind]
    exact (ExecM.ends_returnGroup _ artifact index).mono (fun _ _ ht => ht.1 δ h)
      fun _ _ ht => ht.1 ▸ h

namespace Process

/-- If the executor runs on a pipelined backend, what it makes suits the element types. -/
def SuitsIfPipelined (w : Process) (δ : Nat → DType) (e : Executor) : Prop :=
  (w.platform.backend e.backend).kind.isPipelined = true → e.Suits δ

/-- The executor of a number is sound. -/
def SoundAt (δ : Nat → DType) (k : Nat) (w : Process) : Prop :=
  ∀ e o, w.executors[k]? = some e → w.SuitsIfPipelined δ e → Sound δ (w.stateOf e o)

/-- A command leaves the executor sound if what it asks of it does. -/
theorem SoundAt.step_of_asks {δ : Nat → DType} {k : Nat} {w : Process} {c : Command}
    (h : w.SoundAt δ k) (hw : w.WellFormed)
    (hasks : ∀ o r e, c = .ask k o r → w.executors[k]? = some e → w.SuitsIfPipelined δ e →
      Ends (r.perform (w.stateOf e o)) (fun _ s => Sound δ s) fun _ s => Sound δ s) :
    (w.step c).SoundAt δ k := by
  intro e' o' he' hsuits
  have hkind : ∀ id, id < w.platform.backends.size →
      ((w.step c).platform.backend id).kind = (w.platform.backend id).kind :=
    (w.grows_step c).kind
  have hends : ∀ o r e, c = .ask k o r → w.executors[k]? = some e →
      Ends (r.perform (w.stateOf e o))
        (fun _ s => (w.stateOf e o).Later s ∧ (w.SuitsIfPipelined δ e → Sound δ s))
        fun _ s => (w.stateOf e o).Later s ∧ (w.SuitsIfPipelined δ e → Sound δ s) := by
    exact fun o r e hc he => (r.later_perform (w.stateOf e o)).and
      (.of_imp fun hl => hasks o r e hc he hl)
  rcases executor_step hends he' with
    ⟨hold, -⟩ | ⟨o, r, e, s, rfl, hold, hstep, rfl, hlater, hsound⟩ | ⟨r, rfl, -, hbuilt⟩
  · have hbackend := hw.backends k e' hold
    exact (h e' o' hold fun hp => hsuits (by rw [hkind _ hbackend]; exact hp)).of_grows rfl
      (w.grows_step c) hbackend
  · have hbefore : w.SuitsIfPipelined δ e := by
      intro hp
      refine (hsuits ?_).congr hlater.statics.symm
        (Executor.product?_congr hlater.unit hlater.translator hlater.config).symm
      rw [show s.executor.backend = e.backend from hlater.backend, hkind _ (hw.backends k e hold)]
      exact hp
    rw [hstep]
    exact (hsound hbefore).of_later { ExecState.Later.refl s with } rfl
  · exact sound_of_built hbuilt

/-- **One command.** -/
theorem SoundAt.step {δ : Nat → DType} {k : Nat} {w : Process} {c : Command}
    (h : w.SoundAt δ k) (hw : w.WellFormed) (hc : w.Orderly δ k c) :
    (w.step c).SoundAt δ k := by
  refine h.step_of_asks hw ?_
  rintro o r e rfl he hl
  exact (h e o he hl).perform hw hl hc

/-- In every process that such a run leads to, the executor is sound. -/
theorem soundAt_run {δ : Nat → DType} {k : Nat} {commands : List Command}
    (h : Admits (Orderly δ k) empty commands) : (empty.run commands).SoundAt δ k := by
  have hrun : (empty.run commands).WellFormed ∧ (empty.run commands).SoundAt δ k :=
    run_induction (P := fun w => w.WellFormed ∧ w.SoundAt δ k)
      (fun w c hw hc => ⟨hw.1.step c, hw.2.step hw.1 hc⟩)
      ⟨.empty, fun e o he => by cases he⟩ h
  exact hrun.2

end Process

/-! ### The results of a call -/

/-- Output buffers hold the results that a function gives for some arguments, except at positions
bound elsewhere. -/
structure ExecutionUnit.Holds (u : ExecutionUnit) (o : OutputBuffers) (m : Memory)
    (f : Function) (results : List (Value UInt32)) : Prop where
  /-- There is a buffer for each result, with its spec. -/
  specs : o.buffers.map (·.spec) = f.results
  /-- There are as many results. -/
  length : results.length = o.buffers.length
  /-- A buffer holds the bytes of its result. -/
  bytes : ∀ (p : Nat) (b : HostBuffer) (v : Value UInt32), u.externalOutputs.contains p = false →
    o.buffers[p]? = some b → results[p]? = some v →
    m.storage b.storage = Tensor.bytesOfWords v.data

/-- What a call is to compute: the results of the function that lowering makes for the inputs, on
the values that the inputs have in a memory, in the output buffers of another. -/
def Executor.Computes (e : Executor) (inputs : List HostBuffer) (m : Memory)
    (signature : Signature) (o : OutputBuffers) (m' : Memory) : Prop :=
  ∃ computed f results, Signature.compute e.statics (inputs.map m.read) = .ok computed ∧
    computed.signature = signature ∧ e.unit.lowered computed = .ok f ∧
    f.evaluate .binary32 (e.unit.arguments m inputs) = .ok results ∧
    e.unit.Holds o m' f results

/-- What a call that has delivered its results leaves in the output buffers. -/
theorem ExecM.FoundFor.holds {s t u v : ExecState} {inputs : List HostBuffer}
    {l : Lookup} {a : Artifact} {arguments : List (Option (Value UInt32))}
    {results : List (Value UInt32)} (hfor : FoundFor s inputs l a t)
    (hp : Poised (t.prepared a.executable.function.results) l.artifact a inputs)
    (hyields : a.executable.function.Yields arguments results)
    (hdelivered : Delivered (t.prepared a.executable.function.results) results v)
    (hconcluded : Concluded v u) :
    s.executor.unit.Holds u.outputs u.memory a.executable.function results := by
  obtain ⟨computed, -, hfound⟩ := hfor
  have houtputs : u.outputs = (t.prepared a.executable.function.results).outputs :=
    hconcluded.outputs.trans hdelivered.outputs
  refine ⟨?_, ?_, fun p b w hin hb hw => ?_⟩
  · rw [houtputs]
    exact hp.results.symm
  · have hlength := congrArg List.length (hyields.specs.trans hp.results)
    rwa [List.length_map, List.length_map, ← houtputs] at hlength
  · rw [hconcluded.memory]
    refine hdelivered.results p b w (houtputs ▸ hb) ?_ hw
    change t.executor.unit.externalOutputs.contains p = false
    rw [hfound.later.unit]
    exact hin

/-- What a call that has delivered its results has computed. -/
theorem ExecM.FoundFor.computes {δ : Nat → DType} {s t u v : ExecState}
    {inputs : List HostBuffer} {l : Lookup} {a : Artifact} {results : List (Value UInt32)}
    (hfor : FoundFor s inputs l a t) (h : Sound δ s) (hlowers : s.executor.Lowers)
    (hpresented : Presented δ s inputs)
    (hyields : a.executable.function.Yields
      ((t.prepared a.executable.function.results).executor.unit.arguments
        (t.prepared a.executable.function.results).memory inputs) results)
    (hdelivered : Delivered (t.prepared a.executable.function.results) results v)
    (hconcluded : Concluded v u) :
    s.executor.Computes inputs s.memory l.signature u.outputs u.memory := by
  obtain ⟨computed, hcompute, hfound⟩ := hfor
  have hholds := FoundFor.holds ⟨computed, hcompute, hfound⟩
    (hpresented.poised h.owns h.atHome hfound) hyields hdelivered hconcluded
  obtain ⟨hlowered, hexecutable⟩ :=
    h.compiled.lowered_of_found hlowers hpresented.dtypes hcompute hfound
  rw [hpresented.arguments_prepared hfound] at hyields
  have hfunction : a.executable.function = a.function := by rw [hexecutable]
  exact ⟨computed, a.executable.function, results, hcompute, hfound.signature.symm,
    hfunction ▸ hlowered, hyields.evaluate, hholds⟩

/-- **A call that nobody vouches for copies to.** -/
theorem ExecM.ends_execute_of_never {δ : Nat → DType} {s : ExecState} {inputs : List HostBuffer}
    (h : Sound δ s) (hlowers : s.executor.Lowers) (hpresented : Presented δ s inputs)
    (hnever : s.executor.tracker = .never) :
    Ends (execute inputs s)
      (fun r u => s.executor.Computes inputs s.memory r.signature u.outputs u.memory)
      fun _ _ => True := by
  refine (ends_execute h hpresented fun _ => hlowers.suits δ).mono (fun r u hu => ?_)
    fun _ _ _ => trivial
  obtain ⟨l, a, t, v, hfor, hr, -, hperformed, hconcluded⟩ := hu
  obtain ⟨computed, hcompute, hfound⟩ := hfor
  have hnever' : (t.prepared a.executable.function.results).executor.tracker = .never :=
    hfound.later.tracker.trans hnever
  obtain ⟨results, hyields, hdelivered⟩ :=
    hperformed.yields (hpresented.poised h.owns h.atHome hfound)
      (h.callable (hlowers.suits δ) hpresented.dtypes hcompute hfound) fun _ =>
        skipsCurrent_of_never hnever'
  rw [hr.signature]
  exact FoundFor.computes ⟨computed, hcompute, hfound⟩ h hlowers hpresented hyields hdelivered
    hconcluded

/-- **What a call computes.** After any run in which the inputs of an executor are in order, a
call of it that succeeds leaves in its output buffers the bytes of what the lowered function
evaluates to on the inputs as they were before the call; whatever was compiled, evicted, lent,
called or changed before, and whatever kind of backend it runs on. -/
theorem execute_eq_evaluate (δ : Nat → DType) (commands : List Command) (k o : Nat)
    (e : Executor) (inputs : List HostBuffer) (r : Report)
    (hrun : Process.Admits (Process.Orderly δ k) .empty commands)
    (he : (Process.empty.run commands).executors[k]? = some e) (hlowers : e.Lowers)
    (hnever : e.tracker = .never) (hpresents : (Process.empty.run commands).Presents δ o inputs)
    (hask : ((Process.empty.run commands).ask k o (.execute inputs)).1 = some (.ok (.report r))) :
    e.Computes inputs (Process.empty.run commands).platform.memory r.signature
      (((Process.empty.run commands).ask k o (.execute inputs)).2.outputsOf o)
      ((Process.empty.run commands).ask k o (.execute inputs)).2.platform.memory := by
  have hsound := Process.soundAt_run hrun e o he fun _ => hlowers.suits δ
  have hpresented := hpresents.presented (Process.wellFormed_run commands) e
  have hends : Ends ((Request.execute inputs).perform
      ((Process.empty.run commands).stateOf e o))
      (fun answer u => ∃ r, answer = .report r ∧ e.Computes inputs
        (Process.empty.run commands).platform.memory r.signature u.outputs u.memory)
      fun _ _ => True := by
    unfold Request.perform
    rw [ends_bind]
    exact (ExecM.ends_execute_of_never hsound hlowers hpresented hnever).mono
      (fun r u hu => ⟨r, rfl, hu⟩) fun _ _ h => h
  obtain ⟨u, hput, ⟨answer, hanswer, r', rfl, hcomputes⟩ | ⟨error, herror, -⟩⟩ :=
    Process.ask_of_ends he hends
  · rw [hanswer] at hask
    cases hask
    rw [hput, Process.outputsOf_put, if_pos rfl]
    exact hcomputes
  · rw [herror] at hask
    cases hask

/-- The sum of a buffer with itself on a device, and then other bytes in the buffer. -/
def sumThenWrite : List Command :=
  [.register "host" (.recording .device) none, .allocate ⟨⟨.f32, [1]⟩, [0, 0, 128, 63]⟩,
    .build .sampleSum, .ask 0 0 (.execute [⟨⟨.f32, [1]⟩, 0⟩, ⟨⟨.f32, [1]⟩, 0⟩]),
    .write 0 [0, 0, 160, 64]]

/-- The second call gets the output buffer of the first as an input: five and two make seven. -/
theorem seven_of_sumThenWrite : ∃ e r, (Process.empty.run sumThenWrite).executors[0]? = some e ∧
    ((Process.empty.run sumThenWrite).ask 0 0
      (.execute [⟨⟨.f32, [1]⟩, 0⟩, ⟨⟨.f32, [1]⟩, 1⟩])).1 = some (.ok (.report r)) ∧
    ((Process.empty.run sumThenWrite).ask 0 0
      (.execute [⟨⟨.f32, [1]⟩, 0⟩, ⟨⟨.f32, [1]⟩, 1⟩])).2.platform.memory.storage 1 =
        [0, 0, 224, 64] ∧
    e.Computes [⟨⟨.f32, [1]⟩, 0⟩, ⟨⟨.f32, [1]⟩, 1⟩]
      (Process.empty.run sumThenWrite).platform.memory r.signature
      (((Process.empty.run sumThenWrite).ask 0 0
        (.execute [⟨⟨.f32, [1]⟩, 0⟩, ⟨⟨.f32, [1]⟩, 1⟩])).2.outputsOf 0)
      ((Process.empty.run sumThenWrite).ask 0 0
        (.execute [⟨⟨.f32, [1]⟩, 0⟩, ⟨⟨.f32, [1]⟩, 1⟩])).2.platform.memory := by
  have hdtypes : ∀ (b c : HostBuffer), b.spec.dtype = .f32 → c.spec.dtype = .f32 →
      ∀ (q : Nat) (d : HostBuffer), [b, c][q]? = some d → d.spec.dtype = .f32 := by
    rintro b c hb hc (_ | _ | q) d hd
    · cases hd; exact hb
    · cases hd; exact hc
    · cases hd
  obtain ⟨e, he⟩ := Option.isSome_iff_exists.1
    (show ((Process.empty.run sumThenWrite).executors[0]?).isSome = true from by decide +kernel)
  obtain ⟨-, hlowers, hnever⟩ := Process.executor_of_plain he
    (show ∀ r, Command.build r ∈ sumThenWrite → r = .plain Graph.sampleAdd "host" .recording .never
      from fun r hr => by simpa [sumThenWrite, BuildRequest.sampleSum] using hr)
  have hask : ((Process.empty.run sumThenWrite).ask 0 0
      (.execute [⟨⟨.f32, [1]⟩, 0⟩, ⟨⟨.f32, [1]⟩, 1⟩])).1 =
      some (.ok (.report ⟨0, "1,;1,;/", true, 0, 2, 8, none⟩)) := by decide +kernel
  refine ⟨e, _, he, hask, by decide +kernel, execute_eq_evaluate (fun _ => .f32) sumThenWrite 0 0 e _ _
    ⟨trivial, trivial, trivial, fun _ => ⟨hdtypes _ _ rfl rfl, by decide +kernel,
      by decide +kernel, by decide +kernel⟩, trivial, trivial⟩ he hlowers hnever
    ⟨hdtypes _ _ rfl rfl, by decide +kernel, by decide +kernel, by decide +kernel⟩ hask⟩

end TensorJit
