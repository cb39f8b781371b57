import TensorJit.Proofs.Executor.Elision
import TensorJit.Proofs.Function.Accepted
import TensorJit.Proofs.Outcome
import TensorJit.Proofs.Tenancy

/-!
# Whether a call goes well

If nothing stands in the way of a call but its inputs, then whether the call goes well, and what it
leaves in its output buffers, depends on three things only: the function that is called, the kind of
the backend, and the values of the inputs (`Function.Runs`). Where an executor has its functions from
does not matter, nor what it has been asked for before: **for inputs for which an executor calls one
function, a call goes well exactly if this function runs on them** (`Process.called_of_calls`).

What it remembers matters in one place. A call uses tensors again that the slots of its artifact
have, and leaves copies out; they must have been made for the specs of the buffers that they are used
for, and be current (`ExecState.Usable`). No other artifact is concerned.
-/

namespace TensorJit

/-- A function gives results when it is called on a backend of some kind. -/
structure Function.Runs (f : Function) (κ : BackendKind) (arguments : List (Option (Value UInt32)))
    (results : List (Value UInt32)) : Prop where
  /-- Evaluation gives the results. -/
  evaluate : f.evaluate .binary32 arguments = .ok results
  /-- A group has tensors on both sides. -/
  positions : κ.isPipelined = true → ∀ side, f.specs side ≠ []

theorem Function.Runs.unique {f : Function} {κ : BackendKind}
    {arguments : List (Option (Value UInt32))} {results results' : List (Value UInt32)}
    (h : f.Runs κ arguments results) (h' : f.Runs κ arguments results') : results' = results :=
  Except.ok.inj (h'.evaluate.symm.trans h.evaluate)

/-- What a unit passes to a function depends on what the inputs hold, and on which of them are bound
elsewhere. -/
theorem ExecutionUnit.arguments_eq_of_read {u u' : ExecutionUnit} {m m' : Memory}
    {inputs inputs' : List HostBuffer} (hread : inputs'.map m'.read = inputs.map m.read)
    (hexternal : u'.externalInputs = u.externalInputs) :
    u'.arguments m' inputs' = u.arguments m inputs := by
  have hlength : inputs'.length = inputs.length := by simpa using congrArg List.length hread
  refine List.ext_getElem? fun q => ?_
  have hq := congrArg (·[q]?) hread
  simp only [List.getElem?_map] at hq
  rw [arguments_getElem?, arguments_getElem?, hexternal]
  rcases hhost : inputs[q]? with _ | host
  · rw [List.getElem?_eq_none_iff, ← hlength, ← List.getElem?_eq_none_iff] at hhost
    rw [hhost]
    rfl
  · rw [hhost] at hq
    obtain ⟨host', hhost', heq⟩ := Option.map_eq_some_iff.1 hq
    have hspec : host'.spec = host.spec := congrArg Tensor.spec heq
    have hbytes : m'.storage host'.storage = m.storage host.storage := congrArg Tensor.bytes heq
    rw [hhost', Option.map_some, Option.map_some, hspec, hbytes]

/-! ### What an executor calls for a signature -/

/-- An executor calls one function for inputs of a signature: it makes an executable of this function
for them, and whatever it has in its cache for the signature is an executable of this function. The
function is typed, and declares the specs of the inputs. -/
structure Executor.Calls (e : Executor) (computed : Signature.Computed) (f : Function) : Prop where
  /-- It makes an executable of the function. -/
  makes : ∃ g, e.product? computed = some (g, ⟨f⟩)
  /-- So it has before. -/
  cached : ∀ id a, e.cache.get? id = some a → a.signature = computed.signature →
    a.executable = ⟨f⟩
  /-- The function is typed. -/
  typed : f.Typed
  /-- It declares the specs. -/
  parameters : f.parameters = computed.specs

/-- **What a call finds in the slots of an artifact can be used as it is**: every tensor that is used
again was made for the spec of its buffer, and every copy that is left out is current. -/
structure ExecState.Usable (s : ExecState) (id : ArtifactId) (a : Artifact)
    (inputs : List HostBuffer) : Prop where
  /-- Tensors of inputs were made for these specs. -/
  ins : a.inputs.MadeFor s.kind s.memory s.executor.unit.externalInputs inputs
  /-- So were tensors of outputs. -/
  outs : a.outputs.MadeFor s.kind s.memory s.executor.unit.externalOutputs
    (s.prepared a.executable.function.results).outputs.buffers
  /-- If a copy is left out, it is current. -/
  current : s.SkipsCurrent id a inputs

namespace ExecM

variable {s t v : ExecState} {id : ArtifactId} {a : Artifact} {inputs : List HostBuffer}
  {computed : Signature.Computed} {l : Lookup} {f : Function}

/-- What is found for inputs is an executable of the function. -/
theorem Found.executable_of_calls (hfound : Found s computed l a t)
    (hcalls : s.executor.Calls computed f) : a.executable = ⟨f⟩ := by
  cases hhit : l.hit with
  | false =>
    obtain ⟨g, hg⟩ := hcalls.makes
    have hproduct := (hfound.made hhit).2.2.1.symm.trans hg
    exact congrArg Prod.snd (Option.some.inj hproduct)
  | true => exact hcalls.cached _ a (hfound.before hhit) hfound.signature_eq

/-- It can be called with them. -/
theorem Found.callable_of_calls (hfound : Found s computed l a t)
    (hcompute : Signature.compute s.executor.statics (inputs.map s.memory.read) = .ok computed)
    (hcalls : s.executor.Calls computed f) : a.Callable inputs := by
  obtain ⟨-, -, -, hspecs, -⟩ := Signature.compute_eq_ok hcompute
  rw [List.map_map] at hspecs
  constructor
  · rw [hfound.executable_of_calls hcalls]
    exact hcalls.typed
  · rw [hfound.executable_of_calls hcalls]
    exact hcalls.parameters.trans hspecs

/-- When the output buffers are ready, the tensors that are used again fit: those of an artifact that
was there before were made for their buffers, and a new artifact has none. -/
theorem Found.slotsFit (hfound : Found s computed l a t) (hhome : s.AtHome)
    (husable : l.hit = true → s.Usable l.artifact a inputs) :
    (t.prepared a.executable.function.results).SlotsFit a inputs := by
  have hlater := hfound.later.trans (t.later_prepared a.executable.function.results)
  have hextends := hlater.platform.memory
  have houtputs : (t.prepared a.executable.function.results).outputs =
      (s.prepared a.executable.function.results).outputs := by
    unfold ExecState.prepared
    rw [hfound.outputs, hfound.memory]
  cases hhit : l.hit with
  | true =>
    have husable := husable hhit
    have hslots := (hhome _ a (hfound.before hhit)).slots
    constructor
    · rw [hlater.kind_eq, hlater.unit]
      exact (husable.ins.fitsFor (hslots .input)).extends hextends
    · rw [hlater.kind_eq, hlater.unit, houtputs]
      exact (husable.outs.fitsFor (hslots .output)).extends hextends
  | false =>
    obtain ⟨-, -, -, hnew⟩ := hfound.made hhit
    rw [hnew]
    exact ⟨fun _ _ _ _ _ hslot => (nomatch hslot.get?), fun _ _ _ _ _ hslot => (nomatch hslot.get?)⟩

/-! ### Calls -/

/-- **A function that has been called runs.** -/
theorem Performed.runs (h : Performed s id a inputs v) (hp : Poised s id a inputs)
    (hcall : a.Callable inputs)
    (hcurrent : s.kind.isPipelined = false → s.SkipsCurrent id a inputs) :
    ∃ results,
      a.executable.function.Runs s.kind (s.executor.unit.arguments s.memory inputs) results ∧
      a.executable.function.Yields (s.executor.unit.arguments s.memory inputs) results ∧
      Delivered s results v := by
  obtain ⟨results, hyields, hdelivered⟩ := h.yields hp hcall hcurrent
  refine ⟨results, ⟨hyields.evaluate, fun hkind => ?_⟩, hyields, hdelivered⟩
  cases h with
  | slots hnot =>
    rw [hkind] at hnot
    cases hnot
  | group _ _ _ hrotated => exact hrotated.specs_ne_nil hp.found

/-- **A function that could not be called, or has failed, does not run.** -/
theorem NotPerformed.not_runs (h : NotPerformed s id a inputs v) (hp : Poised s id a inputs)
    (hcall : a.Callable inputs)
    (hcurrent : s.kind.isPipelined = false → s.SkipsCurrent id a inputs)
    (hunhindered : s.Unhindered)
    (results : List (Value UInt32)) :
    ¬ a.executable.function.Runs s.kind (s.executor.unit.arguments s.memory inputs) results := by
  intro hruns
  obtain ⟨-, fault, hfault⟩ := h.fault hp hcall hcurrent hunhindered.quiet fun hkind =>
    hunhindered.canLend hkind hp.found (hruns.positions hkind .input)
      (hruns.positions hkind .output)
  rw [hruns.evaluate] at hfault
  cases hfault

/-- If there is no executable for the inputs, the function does not run either. -/
theorem NotFound.not_runs (h : NotFound s computed) (hcalls : s.executor.Calls computed f)
    (hquiet : s.device.backend.Quiet)
    (hserved : s.platform.isRegistered s.executor.unit.backendName = true ∨
      computed.signature ∈ s.cache.order) (κ : BackendKind)
    (arguments : List (Option (Value UInt32))) (results : List (Value UInt32)) :
    ¬ f.Runs κ arguments results := by
  obtain ⟨hunlisted, hwhy⟩ := h
  obtain ⟨g, hg⟩ := hcalls.makes
  intro hruns
  rcases hwhy g ⟨f⟩ hg with hnot | hnot | ⟨-, error, herror⟩
  · exact hserved.elim (fun hregistered => by rw [hregistered] at hnot; cases hnot) hunlisted
  · exact hnot hquiet
  · -- The backend accepts what can be evaluated.
    have hcount := congrArg List.length hcalls.typed.outputs
    rw [List.length_map, List.length_map] at hcount
    rw [Backend.accept_of_evaluate hruns.evaluate hcount] at herror
    cases herror

/-- **A call for inputs for which one function is called** goes well exactly if this function runs on
the values of the inputs. Of the executor nothing is asked but that its tensors are at home, and what
is asked of slots concerns the artifact of the signature only. -/
theorem ends_execute_of_calls {P : List Tensor → Prop} (hcompiled : Compiled P s)
    (howns : s.cache.Owns s.memory) (hhome : s.AtHome) (hbuffers : InOrder s inputs)
    (hunhindered : s.Unhindered)
    (hcompute : Signature.compute s.executor.statics (inputs.map s.memory.read) = .ok computed)
    (husable : s.kind.isPipelined = false → ∀ id a, s.cache.get? id = some a →
      a.signature = computed.signature → s.Usable id a inputs)
    (hcalls : s.executor.Calls computed f)
    (hserved : s.platform.isRegistered s.executor.unit.backendName = true ∨
      computed.signature ∈ s.cache.order) :
    Ends (execute inputs s)
      (fun r u => r.signature = computed.signature ∧ ∃ results,
        f.Runs s.kind (s.executor.unit.arguments s.memory inputs) results ∧
        s.executor.unit.Holds u.outputs u.memory f results)
      fun _ _ => ∀ results,
        ¬ f.Runs s.kind (s.executor.unit.arguments s.memory inputs) results := by
  have hhit : ∀ {l a t}, Found s computed l a t → s.kind.isPipelined = false → l.hit = true →
      s.Usable l.artifact a inputs := fun hfound hkind hhit =>
    husable hkind _ _ (hfound.before hhit) hfound.signature_eq
  -- What is known when the executable has been found and the output buffers are ready.
  have hready : ∀ {l a t}, Found s computed l a t →
      a.executable.function = f ∧
      Poised (t.prepared a.executable.function.results) l.artifact a inputs ∧
      a.Callable inputs ∧
      ((t.prepared a.executable.function.results).kind.isPipelined = false →
        (t.prepared a.executable.function.results).SkipsCurrent l.artifact a inputs) ∧
      (t.prepared a.executable.function.results).Unhindered ∧
      (t.prepared a.executable.function.results).kind = s.kind := fun {l a t} hfound => by
    have hlater := hfound.later.trans (t.later_prepared a.executable.function.results)
    refine ⟨by rw [hfound.executable_of_calls hcalls], hbuffers.poised howns hhome hfound,
      hfound.callable_of_calls hcompute hcalls, fun hkind => ?_, ?_, hlater.kind_eq⟩
    · exact FoundFor.skipsCurrent ⟨computed, hcompute, hfound⟩ hhome hbuffers fun hh =>
        (hhit hfound (hlater.kind_eq ▸ hkind) hh).current
    · exact hunhindered.of_later hlater
        (hfound.keepsLent.trans (.of_cache_eq rfl (Nat.le_refl _)))
  refine (ends_execute_of hcompiled howns hhome hbuffers (fun hkind l a t hfor => ?_)
    fun _ l a t hfor => ?_).mono (fun r u hu => ?_) fun _ u hu => ?_
  · obtain ⟨computed', hcompute', hfound⟩ := hfor
    obtain rfl := Except.ok.inj (hcompute.symm.trans hcompute')
    exact hfound.slotsFit hhome (hhit hfound hkind)
  · obtain ⟨computed', hcompute', hfound⟩ := hfor
    obtain rfl := Except.ok.inj (hcompute.symm.trans hcompute')
    exact hfound.callable_of_calls hcompute hcalls
  · obtain ⟨l, a, t, v, hfor, hr, -, hperformed, hconcluded⟩ := hu
    have ⟨computed', hcompute', hfound⟩ := hfor
    obtain rfl := Except.ok.inj (hcompute.symm.trans hcompute')
    obtain ⟨rfl, hp, hcall, hcurrent, -, hkind⟩ := hready hfound
    obtain ⟨results, hruns, hyields, hdelivered⟩ := hperformed.runs hp hcall hcurrent
    rw [hkind, hbuffers.arguments_prepared hfound] at hruns
    exact ⟨hr.signature.trans hfound.signature, results, hruns,
      hfor.holds hp hyields hdelivered hconcluded⟩
  · rcases hu with ⟨-, hnone⟩ | ⟨l, a, t, ⟨computed', hcompute', hfound⟩, hu⟩
    · rcases hnone with ⟨error, herror⟩ | ⟨computed', hcompute', hnot⟩
      · rw [hcompute] at herror
        cases herror
      · obtain rfl := Except.ok.inj (hcompute.symm.trans hcompute')
        exact hnot.not_runs hcalls hunhindered.quiet hserved _ _
    · obtain rfl := Except.ok.inj (hcompute.symm.trans hcompute')
      obtain ⟨rfl, hp, hcall, hcurrent, hunhindered', hkind⟩ := hready hfound
      rcases hu with ⟨hcount, -⟩ | hnot
      · refine absurd ?_ hcount
        rw [hcall.parameters, List.length_map]
      · intro results
        have hnot := hnot.not_runs hp hcall hcurrent hunhindered' results
        rwa [hkind, hbuffers.arguments_prepared hfound] at hnot

end ExecM

/-! ### What is seen of a call -/

/-- What is seen of output buffers: at each position the spec, and the bytes if the position is not
bound elsewhere. -/
def ExecutionUnit.seen (u : ExecutionUnit) (o : OutputBuffers) (m : Memory) :
    List (TensorSpec × Option Bytes) :=
  o.buffers.zipIdx.map fun b =>
    (b.1.spec, if u.externalOutputs.contains b.2 then none else some (m.storage b.1.storage))

/-- The same of results. -/
def Function.seen (f : Function) (external : List Nat) (results : List (Value UInt32)) :
    List (TensorSpec × Option Bytes) :=
  (f.results.zip results).zipIdx.map fun b =>
    (b.1.1, if external.contains b.2 then none else some (Tensor.bytesOfWords b.1.2.data))

/-- In output buffers that hold results, the results are seen. -/
theorem ExecutionUnit.Holds.seen_eq {u : ExecutionUnit} {o : OutputBuffers} {m : Memory}
    {f : Function} {results : List (Value UInt32)} (h : u.Holds o m f results) :
    u.seen o m = f.seen u.externalOutputs results := by
  unfold ExecutionUnit.seen Function.seen
  rw [← h.specs]
  have hlength := h.length
  refine List.ext_getElem (by simp [hlength]) fun p hp hp' => ?_
  have hlt : p < o.buffers.length := by simpa using hp
  simp only [List.getElem_map, List.getElem_zipIdx, List.getElem_zip, Nat.zero_add, Prod.mk.injEq,
    true_and]
  cases hin : u.externalOutputs.contains p with
  | true => rfl
  | false => exact congrArg some (h.bytes p _ _ hin (List.getElem?_eq_getElem hlt)
      (List.getElem?_eq_getElem (hlength ▸ hlt)))

namespace Process

/-- What is seen of a call that goes well: the signature, and the output buffers. -/
def called (w : Process) (k o : Nat) (inputs : List HostBuffer) :
    Option (Signature × List (TensorSpec × Option Bytes)) :=
  w.executors[k]?.bind fun e =>
    match ExecM.execute inputs (w.stateOf e o) with
    | .ok r s => some (r.signature, e.unit.seen s.outputs s.memory)
    | .error _ _ => none

/-- **A call of an executor has what it needs.** Inputs and output buffers are in order, the backend
has not been told to fail, and no group of an artifact is lent. An executable is at hand, or the
backend is there to make one; and what is used again of the artifact of the signature can be used as
it is, unless the inputs are given to a group, where nothing is used again. How the executor came to
be in this state does not matter. -/
structure Admissible (w : Process) (e : Executor) (o : Nat) (inputs : List HostBuffer) :
    Prop where
  /-- The storages of the inputs exist. -/
  live : ∀ b ∈ inputs, b.storage < w.platform.memory.storages.size
  /-- They are as long as their specs say. -/
  filled : ∀ b ∈ inputs, (w.platform.memory.read b).WellSized
  /-- So are those of the output buffers. -/
  sized : ∀ b ∈ (w.outputsOf o).buffers, (w.platform.memory.read b).WellSized
  /-- The backend has not been told to fail. -/
  quiet : (w.platform.backend e.backend).Quiet
  /-- No group is lent. -/
  idle : ∀ id a, e.cache.get? id = some a → a.lent = []
  /-- The backend is registered, or the signature is in the cache. -/
  served : w.platform.isRegistered e.unit.backendName = true ∨ ∃ computed,
    Signature.compute e.statics (inputs.map w.platform.memory.read) = .ok computed ∧
      computed.signature ∈ e.cache.order
  /-- What is used again of the artifact of the signature can be used as it is. -/
  usable : (w.platform.backend e.backend).kind.isPipelined = false → ∀ computed id a,
    Signature.compute e.statics (inputs.map w.platform.memory.read) = .ok computed →
    e.cache.get? id = some a → a.signature = computed.signature →
    (w.stateOf e o).Usable id a inputs

variable {commands : List Command} {k o : Nat} {e : Executor} {inputs : List HostBuffer}
  {computed : Signature.Computed} {f : Function}

/-- **What is seen of a call**, after any run, if one function is called for the inputs: the results
of this function, if it runs. -/
theorem called_of_calls (he : (empty.run commands).executors[k]? = some e)
    (h : (empty.run commands).Admissible e o inputs)
    (hcompute : Signature.compute e.statics
      (inputs.map (empty.run commands).platform.memory.read) = .ok computed)
    (hcalls : e.Calls computed f) :
    (∃ results, f.Runs ((empty.run commands).platform.backend e.backend).kind
        (e.unit.arguments (empty.run commands).platform.memory inputs) results ∧
      (empty.run commands).called k o inputs =
        some (computed.signature, f.seen e.unit.externalOutputs results)) ∨
    (∀ results, ¬ f.Runs ((empty.run commands).platform.backend e.backend).kind
        (e.unit.arguments (empty.run commands).platform.memory inputs) results) ∧
      (empty.run commands).called k o inputs = none := by
  have hbuffers : InOrder ((empty.run commands).stateOf e o) inputs :=
    ⟨h.live, h.filled, (wellFormed_run commands).separate o, h.sized⟩
  have hunhindered : ((empty.run commands).stateOf e o).Unhindered :=
    ⟨h.quiet, (depth_of_run commands he).2.2, (lends_run commands).coherent k e he, h.idle⟩
  have hserved : (empty.run commands).platform.isRegistered e.unit.backendName = true ∨
      computed.signature ∈ e.cache.order := by
    refine h.served.imp_right fun ⟨computed', hcompute', hlisted⟩ => ?_
    obtain rfl := Except.ok.inj (hcompute.symm.trans hcompute')
    exact hlisted
  have hends := ExecM.ends_execute_of_calls (compiled_run commands o he)
    ((tenanted_run commands).owns k e he) (atHome_run commands k o e he) hbuffers hunhindered
    hcompute (fun hkind id a => h.usable hkind computed id a hcompute) hcalls hserved
  unfold called
  rw [he, Option.bind_some]
  cases hcall : ExecM.execute inputs ((empty.run commands).stateOf e o) with
  | ok r u =>
    obtain ⟨hsignature, results, hruns, hholds⟩ := hends.ok hcall
    refine .inl ⟨results, hruns, ?_⟩
    dsimp only
    rw [hsignature]
    exact congrArg (fun x => some (computed.signature, x)) hholds.seen_eq
  | error error u => exact .inr ⟨hends.error hcall, rfl⟩

end Process

end TensorJit
