import TensorJit.Proofs.CacheHit
import TensorJit.Proofs.Executor.Ledger
import TensorJit.Proofs.WellFormed

/-!
# A look-up that fails leaves no trace

Looking up the executable for some inputs can fail at many points: the inputs have no signature,
there is no function or none can be made, the backend is no longer registered, it refuses the
function, or it breaks down. Wherever it fails, **the artifacts, the registries of fresh copies and
the executables of the backends are as before, and of the statistics only the misses may have
changed** (`failed_lookup_atomic`).

So it makes no difference to a later call of the same executor for the same inputs. Function and
executable depend on nothing but the executor and the inputs (`Executor.product?`), and the cache
afterwards depends on nothing else but the cache before and the identity of the new artifact
(`Process.keep_of_ask`).
-/

namespace TensorJit

/-! ### A failure and what follows -/

/-- The executor with misses counted in addition. -/
def Executor.missed (e : Executor) (n : Nat) : Executor :=
  { e with stats := { e.stats with misses := e.stats.misses + n } }

/-- An executor that has not been touched, and has counted nothing but misses. -/
theorem ExecState.Untouched.executor_eq_missed {s t : ExecState} (h : s.Untouched t) {n : Nat}
    (hstats : t.executor.stats = { s.executor.stats with
      misses := s.executor.stats.misses + n }) : t.executor = s.executor.missed n := by
  have hcache := h.cache
  obtain ⟨hunit, hid, htranslator, htracker, hstatics, hconfig, -, -⟩ := h.later
  unfold ExecState.cache at hcache
  unfold Executor.missed
  cases hs : s.executor
  cases ht : t.executor
  rw [hs, ht] at hunit hid htranslator htracker hstatics hconfig hcache
  rw [hs, ht] at hstats
  dsimp only at hunit hid htranslator htracker hstatics hconfig hcache hstats
  subst hunit hid htranslator htracker hstatics hconfig hcache hstats
  rfl

/-- An entry that neither makes nor drops an executable leaves the use of every backend alone. -/
theorem ExecState.Booked.use_eq {s t : ExecState} {x : Entry} (h : s.Booked x t)
    (hbackend : t.executor.backend = s.executor.backend) (hcompiles : x.compiles = 0)
    (hloads : x.loads = 0) (hevictions : x.evictions = 0) (id : BackendId) :
    (t.platform.backend id).counters.use = (s.platform.backend id).counters.use := by
  by_cases hid : id = s.executor.backend
  · have hused := h.used
    have hnothing : Entry.nothing.Used s.kind s.device.backend.counters
        t.device.backend.counters := by
      cases hκ : s.kind with
      | reference =>
        rw [hκ] at hused
        simpa [Entry.Used, Entry.nothing, hcompiles, hloads, hevictions] using hused
      | recording mode =>
        rw [hκ] at hused
        simpa [Entry.Used, Entry.nothing, hcompiles, hloads, hevictions] using hused
    have hown := Entry.used_nothing_iff.1 hnothing
    unfold ExecState.device Platform.device at hown
    rw [hbackend] at hown
    rw [hid]
    exact hown
  · exact h.others id hid

/-- **A look-up that fails** leaves the executor as it was, but for a miss if the inputs have a
signature. -/
theorem ExecM.ends_getExecutable_failed {P : List Tensor → Prop} {s : ExecState} (h : Compiled P s)
    (hbackend : s.executor.backend < s.platform.backends.size) (inputs : List HostBuffer) :
    Ends (getExecutable inputs s) (fun _ _ => True) fun _ t => s.Untouched t ∧
      t.executor = s.executor.missed
        ((Request.getExecutable inputs).computed? s).toList.length ∧
      (∀ id, (t.platform.backend id).counters.use = (s.platform.backend id).counters.use) ∧
      ∀ computed, Signature.compute s.executor.statics (inputs.map s.memory.read) = .ok computed →
        computed.signature ∉ s.cache.order := by
  have hcomputed : ∀ x, Signature.compute s.executor.statics (inputs.map s.memory.read) = x →
      (Request.getExecutable inputs).computed? s = x.toOption := fun x hx => by
    rw [← hx]
    rfl
  refine ((ends_getExecutable h inputs).and
    (ends_getExecutable_booked hbackend h.consistent inputs)).mono (fun _ _ _ => trivial)
    fun _ t ht => ?_
  obtain ⟨⟨huntouched, hwhy⟩, hcounted⟩ := ht
  refine ⟨huntouched, ?_⟩
  -- If there is no signature, nothing is counted; if there is one, a miss.
  rcases hcounted with ⟨⟨e, he⟩, hbooked⟩ | ⟨⟨computed, hcompute⟩, hbooked⟩
  · refine ⟨?_, hbooked.use_eq huntouched.later.backend rfl rfl rfl, fun computed hcompute => ?_⟩
    · rw [hcomputed _ he]
      exact huntouched.executor_eq_missed hbooked.stats
    · rw [he] at hcompute
      cases hcompute
  · refine ⟨?_, hbooked.use_eq huntouched.later.backend rfl rfl rfl, fun computed' hcompute' => ?_⟩
    · rw [hcomputed _ hcompute]
      exact huntouched.executor_eq_missed hbooked.stats
    · rcases hwhy with ⟨e, he⟩ | ⟨c, hc, hnot, -⟩
      · rw [he] at hcompute'
        cases hcompute'
      · obtain rfl : c = computed' := Except.ok.inj (hc.symm.trans hcompute')
        exact hnot

namespace Process

/-- The processes that commands lead to. -/
def Reachable (w : Process) : Prop := ∃ commands, empty.run commands = w

theorem Reachable.compiled {w : Process} (hw : w.Reachable) {k : Nat} {e : Executor} (o : Nat)
    (he : w.executors[k]? = some e) : Compiled (fun _ => True) (w.stateOf e o) := by
  obtain ⟨commands, rfl⟩ := hw
  exact compiled_run commands o he

/-- Between two processes, an executor has counted so many misses, and nothing else has changed that
a call works with. -/
structure Missed (w : Process) (k : Nat) (e : Executor) (n : Nat) (w' : Process) : Prop where
  /-- The executors are equal but for the misses. -/
  executors : w'.executors = w.executors.set k (e.missed n)
  /-- The memories are equal. -/
  memory : w'.platform.memory = w.platform.memory
  /-- So are the output buffers. -/
  outputs : ∀ o, w'.outputsOf o = w.outputsOf o
  /-- So are the registries of fresh copies. -/
  registries : w'.platform.registries = w.platform.registries
  /-- No identity of an artifact has been used up. -/
  nextArtifact : w'.platform.nextArtifact = w.platform.nextArtifact
  /-- Nothing has been compiled, loaded or released on any backend. -/
  use : ∀ id, (w'.platform.backend id).counters.use = (w.platform.backend id).counters.use

/-- What an executor finds for some inputs in one process is what it finds in another, if it finds
something in both, and it keeps the same artifact in the same cache; only its identity may be
another. -/
def FindAlike (k : Nat) (inputs : List HostBuffer) (c : Cache) (w w' : Process) : Prop :=
  ∀ o o' l l', (w.ask k o (.getExecutable inputs)).1 = some (.ok (.found l)) →
    (w'.ask k o' (.getExecutable inputs)).1 = some (.ok (.found l')) →
    l = { l' with artifact := l.artifact } ∧ l.hit = false ∧
    ∃ f, ((w.ask k o (.getExecutable inputs)).2.executors[k]?.map (·.cache)) =
        some (c.keep (.new l.artifact l.signature l.executable f)) ∧
      ((w'.ask k o' (.getExecutable inputs)).2.executors[k]?.map (·.cache)) =
        some (c.keep (.new l'.artifact l.signature l.executable f))

variable {w : Process} {k o : Nat} {e : Executor} {inputs : List HostBuffer} {l : Lookup}
  {computed : Signature.Computed}

/-- What a look-up that succeeds makes of an executor that does not have the signature. -/
theorem keep_of_ask (hw : w.Reachable) (he : w.executors[k]? = some e)
    (hcompute : ∀ c, Signature.compute e.statics (inputs.map w.platform.memory.read) = .ok c →
      c.signature ∉ e.cache.order)
    (hask : (w.ask k o (.getExecutable inputs)).1 = some (.ok (.found l))) :
    ∃ computed f, Signature.compute e.statics (inputs.map w.platform.memory.read) = .ok computed ∧
      e.product? computed = some (f, l.executable) ∧ l.signature = computed.signature ∧
      l.hit = false ∧ ((w.ask k o (.getExecutable inputs)).2.executors[k]?.map (·.cache)) =
        some (e.cache.keep (.new l.artifact l.signature l.executable f)) := by
  have hends : Ends ((Request.getExecutable inputs).perform (w.stateOf e o))
      (fun answer t => ∃ l computed a, answer = .found l ∧
        Signature.compute e.statics (inputs.map w.platform.memory.read) = .ok computed ∧
        ExecM.Found (w.stateOf e o) computed l a t) fun _ _ => True := by
    unfold Request.perform
    rw [ends_bind]
    refine (ExecM.ends_getExecutable (hw.compiled o he) inputs).mono (fun l t ht => ?_)
      fun _ _ _ => trivial
    obtain ⟨computed, a, hcompute, hfound⟩ := ht
    exact ⟨l, computed, a, rfl, hcompute, hfound⟩
  obtain ⟨t, hput, ⟨answer, hanswer, l', computed, a, rfl, hc, hfound⟩ | ⟨error, herror, -⟩⟩ :=
    ask_of_ends he hends
  · rw [hanswer] at hask
    cases hask
    have hmiss : l.hit = false :=
      Bool.eq_false_iff.2 fun hhit => hcompute computed hc (hfound.hit.1 hhit)
    obtain ⟨-, -, hproduct, hnew⟩ := hfound.made hmiss
    refine ⟨computed, a.function, hc, hfound.executable ▸ hproduct, hfound.signature, hmiss, ?_⟩
    rw [hput]
    change (w.executors.set k t.executor)[k]?.map _ = _
    rw [List.getElem?_set_self (List.getElem?_eq_some_iff.1 he).1, hfound.signature,
      hfound.executable, ← hnew]
    exact congrArg some (hfound.kept hmiss)
  · rw [herror] at hask
    cases hask

end Process

/-- **A look-up that fails leaves no trace.** In every process: if the executable for some inputs is
not found, whatever the reason, then the executor that was asked has one miss more if the inputs
have a signature, and nothing else has changed. Whenever it is asked for the same inputs again and
finds the executable, it finds what it would have found without the failure. -/
theorem failed_lookup_atomic (w : Process) (k o : Nat) (e : Executor) (inputs : List HostBuffer)
    (error : Error) (hw : w.Reachable) (he : w.executors[k]? = some e)
    (hask : (w.ask k o (.getExecutable inputs)).1 = some (.error error)) :
    w.Missed k e (Signature.compute e.statics
      (inputs.map w.platform.memory.read)).toOption.toList.length
      (w.step (.ask k o (.getExecutable inputs))) ∧
    ∀ w₁ w₂ : Process, w₁.Reachable → w₂.Reachable →
      w₁.executors[k]? = (w.step (.ask k o (.getExecutable inputs))).executors[k]? →
      w₂.executors[k]? = some e →
      inputs.map w₁.platform.memory.read = inputs.map w.platform.memory.read →
      inputs.map w₂.platform.memory.read = inputs.map w.platform.memory.read →
      Process.FindAlike k inputs e.cache w₁ w₂ := by
  have hbackend : e.backend < w.platform.backends.size := by
    obtain ⟨commands, rfl⟩ := hw
    exact (Process.wellFormed_run commands).backends k e he
  have hlt := (List.getElem?_eq_some_iff.1 he).1
  have hfailed : Ends ((Request.getExecutable inputs).perform (w.stateOf e o)) (fun _ _ => True)
      fun _ t => (w.stateOf e o).Untouched t ∧ t.executor = e.missed (Signature.compute e.statics
          (inputs.map w.platform.memory.read)).toOption.toList.length ∧
        (∀ id, (t.platform.backend id).counters.use = (w.platform.backend id).counters.use) ∧
        ∀ computed, Signature.compute e.statics (inputs.map w.platform.memory.read) =
          .ok computed → computed.signature ∉ e.cache.order := by
    unfold Request.perform
    rw [ends_bind]
    exact ExecM.ends_getExecutable_failed (hw.compiled o he) hbackend inputs
  obtain ⟨t, hput, ⟨answer, hanswer, -⟩ | ⟨error', -, huntouched, hexecutor, huse, hnot⟩⟩ :=
    Process.ask_of_ends he hfailed
  · rw [hanswer] at hask
    cases hask
  have hstep : w.step (.ask k o (.getExecutable inputs)) = w.put k o t := hput
  rw [hstep]
  refine ⟨⟨?_, huntouched.memory, fun j => ?_, huntouched.registries, huntouched.nextArtifact,
    huse⟩, fun w₁ w₂ hw₁ hw₂ he₁ he₂ hread₁ hread₂ o₁ o₂ l₁ l₂ hask₁ hask₂ => ?_⟩
  · exact congrArg (w.executors.set k) hexecutor
  · rw [Process.outputsOf_put]
    split
    · rename_i hj
      rw [hj]
      exact huntouched.outputs
    · rfl
  · -- Both lookups miss, and what they make depends on nothing that a miss counts.
    change w₁.executors[k]? = (w.executors.set k t.executor)[k]? at he₁
    rw [List.getElem?_set_self hlt, hexecutor] at he₁
    obtain ⟨c₁, f₁, hc₁, hf₁, hsignature₁, hmiss₁, hkeep₁⟩ := Process.keep_of_ask hw₁ he₁
      (by rw [hread₁]; exact hnot) hask₁
    obtain ⟨c₂, f₂, hc₂, hf₂, hsignature₂, hmiss₂, hkeep₂⟩ := Process.keep_of_ask hw₂ he₂
      (by rw [hread₂]; exact hnot) hask₂
    rw [hread₁] at hc₁
    rw [hread₂] at hc₂
    obtain rfl : c₁ = c₂ := Except.ok.inj (hc₁.symm.trans hc₂)
    have hproduct : ∀ missed, (e.missed missed).product? = e.product? := fun _ =>
      Executor.product?_congr rfl rfl rfl
    rw [hproduct, hf₂] at hf₁
    obtain ⟨rfl, hx⟩ := Prod.mk.inj (Option.some.inj hf₁)
    have hsame : l₁ = { l₂ with artifact := l₁.artifact } := by
      cases l₁
      cases l₂
      dsimp only at hx hsignature₁ hsignature₂ hmiss₁ hmiss₂
      subst hx hsignature₁ hsignature₂ hmiss₁ hmiss₂
      rfl
    refine ⟨hsame, hmiss₁, f₂, hkeep₁, ?_⟩
    rw [hkeep₂, ← hx, hsignature₁, hsignature₂]

/-- An executor with a cache for one artifact, which is full; the backend is to break down when it
is asked to compile another. -/
def aboutToFail : List Command :=
  [.register "host" (.recording .host) none,
    .build { BuildRequest.sampleSum with config := some { Config.standard with cacheDepth := 1 } },
    .ask 0 0 (.getExecutable (pairOf 1)), .inject 0 ⟨false, true, false⟩]

/-- The sum of one number is still there after the sum of two has failed. -/
theorem kept_of_aboutToFail : ∃ e error,
    (Process.empty.run aboutToFail).executors[0]? = some e ∧
    ((Process.empty.run aboutToFail).ask 0 0 (.getExecutable (pairOf 2))).1 =
      some (.error error) ∧
    ((Process.empty.run aboutToFail).step
      (.ask 0 0 (.getExecutable (pairOf 2)))).executors = [e.missed 1] ∧
    e.cache.order = ["1,;1,;/"] := by
  obtain ⟨e, he⟩ := Option.isSome_iff_exists.1
    (show ((Process.empty.run aboutToFail).executors[0]?).isSome = true from by decide +kernel)
  obtain ⟨error, herror⟩ : ∃ error, ((Process.empty.run aboutToFail).ask 0 0
      (.getExecutable (pairOf 2))).1 = some (.error error) := by
    have hfails : (((Process.empty.run aboutToFail).ask 0 0
      (.getExecutable (pairOf 2))).1.map Except.isOk) = some false := by decide +kernel
    obtain ⟨x, hx, hok⟩ := Option.map_eq_some_iff.1 hfails
    cases x with
    | ok a => cases hok
    | error error => exact ⟨error, hx⟩
  have hcount : ((Process.empty.run aboutToFail).executors.map fun e => (Signature.compute e.statics
      ((pairOf 2).map (Process.empty.run aboutToFail).platform.memory.read)).toOption.toList.length) =
      [1] := by decide +kernel
  have horder : ((Process.empty.run aboutToFail).executors[0]?.map (·.cache.order)) =
    some ["1,;1,;/"] := by decide +kernel
  have hone : (Process.empty.run aboutToFail).executors.length = 1 := by decide +kernel
  obtain ⟨d, hd⟩ := List.length_eq_one_iff.1 hone
  obtain rfl : d = e := by
    rw [hd] at he
    exact Option.some.inj he
  rw [hd] at hcount
  rw [he] at horder
  obtain ⟨hmissed, -⟩ := failed_lookup_atomic _ 0 0 d (pairOf 2) error ⟨_, rfl⟩ he herror
  refine ⟨d, error, he, herror, ?_, Option.some.inj horder⟩
  rw [hmissed.executors, hd]
  exact congrArg (fun n => [d.missed n]) (List.cons.inj hcount).1

end TensorJit
