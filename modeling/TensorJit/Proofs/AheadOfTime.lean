import TensorJit.Proofs.Executor.Precompiled
import TensorJit.Proofs.Executor.Tabled
import TensorJit.Proofs.Verdict

/-!
# Running on what was compiled ahead of time

The artifacts of an executor that makes its functions by lowering are written to a table, the table
to the attributes of a unit, and an executor is built for this unit that makes no functions at all
(`Executor.TakesOver`). **It takes over**: for inputs of a signature in the table, of the element
types that the artifacts were made for, its calls come to what those of the first executor come to,
and for inputs of another signature they are refused; it never compiles anything (`taken_over`). Both
executors may have been through any run, calls for other element types included. The first one may
have gone on after the table was written, and no longer have the artifacts.

What is asked for is asked of the two calls that are compared (`Process.Admissible`), and of no
earlier one. Without it one of the calls can fail where the other does not (`not_taken_over`). There
is a slot that a call or an allocation for other element types has given a tensor, a copy that is
vouched for and is not current, a storage that is not as long as its spec says, and a backend that
has been there when the first executor compiled and is gone when the second one loads.
-/

namespace TensorJit

/-- An executor is built to run on the table of another: for the same graph, query and positions
bound elsewhere, with the table as its attributes, and with nothing to make functions. -/
structure Executor.TakesOver (f e : Executor) : Prop where
  /-- The graph is the same. -/
  graph : f.unit.graph = e.unit.graph
  /-- So is the query for static inputs. -/
  query : ∃ query, StaticInputs.analyze e.unit.graph query = .ok e.statics ∧
    StaticInputs.analyze f.unit.graph query = .ok f.statics
  /-- So are the inputs that are bound elsewhere. -/
  externalInputs : f.unit.externalInputs = e.unit.externalInputs
  /-- So are the outputs. -/
  externalOutputs : f.unit.externalOutputs = e.unit.externalOutputs
  /-- The attributes are the table. -/
  attributes : f.unit.attributes = e.aotTable.toAttributes
  /-- Nothing makes functions. -/
  translator : f.translator = none

/-- The table in the attributes of a unit is what the executor runs on. -/
theorem BuildRequest.aot_of_settings {r : BuildRequest} {config : Config}
    {options : BackendOptions} (h : r.settings = .ok (config, options)) {table : AotTable}
    {attributes : UnitAttributes}
    (hattributes : UnitAttributes.ofAttributes r.unit.name r.unit.attributes = .ok attributes)
    (htable : attributes.aot = some table) : config.aot = some table := by
  unfold settings at h
  obtain ⟨c, -, h⟩ := except_bind_eq_ok.1 h
  rw [hattributes] at h
  obtain ⟨attrs, hattrs, h⟩ := except_bind_eq_ok.1 h
  cases hattrs
  dsimp only at h
  split at h
  · cases h
  · cases h
    change attributes.aot.or c.aot = some table
    rw [htable]
    rfl

namespace Executor

variable {P : List Tensor → Prop} {e f : Executor} {id : ArtifactId} {a : Artifact}
  {ts : List Tensor} {computed : Signature.Computed}

/-- The static inputs are the same. -/
theorem TakesOver.statics (h : f.TakesOver e) : f.statics = e.statics := by
  obtain ⟨query, he, hf⟩ := h.query
  rw [h.graph, he] at hf
  exact (Except.ok.inj hf).symm

/-- **The executor runs on the table.** -/
theorem TakesOver.table (h : f.TakesOver e) {commands : List Command} {j : Nat}
    (hf : (Process.empty.run commands).executors[j]? = some f) :
    f.config.aot = some e.aotTable := by
  obtain ⟨r, -, hunit, -, -, -, options, hsettings⟩ := Process.built_of_run commands hf
  have hread := UnitAttributes.ofAttributes_toAttributes r.unit.name e.aotTable
  rw [← h.attributes, hunit] at hread
  exact BuildRequest.aot_of_settings hsettings hread rfl

/-- Artifacts that lowering has made can be written to a table and read back. -/
structure Written (e : Executor) : Prop where
  /-- Functions are made by lowering. -/
  lowers : e.Lowers
  /-- The parts of the cache agree. -/
  consistent : e.cache.Consistent
  /-- Artifacts were made for some inputs. -/
  made : ∀ id a, e.cache.get? id = some a → e.Made (fun _ => True) a
  /-- The numbers in their functions are machine words. -/
  words : ∀ id a, e.cache.get? id = some a → a.function.FitsWords

/-- On the table there is the function of an artifact for its signature. -/
theorem Written.product?_eq (h : e.Written) (htable : f.config.aot = some e.aotTable)
    (ha : e.cache.get? id = some a) (hsignature : computed.signature = a.signature) :
    f.product? computed = some (a.function, ⟨a.function⟩) := by
  have hexecutable := h.lowers.executable_of_made (h.made id a ha)
  have hwords := h.words id a ha
  rw [product?_of_artifact htable h.consistent ha hwords.words (hexecutable ▸ hwords) hsignature,
    hexecutable]

/-- **An executor that makes its functions by lowering** calls what lowering makes for some inputs, if
what it has in its cache for their signature was made for their element types. -/
theorem Lowers.calls (h : e.Lowers) (hmade : ∀ id a, e.cache.get? id = some a → e.Made P a)
    (hcompute : Signature.compute e.statics ts = .ok computed) {g : Function}
    (hlowered : e.unit.lowered computed = .ok g)
    (hdtypes : ∀ id a, e.cache.get? id = some a → a.signature = computed.signature →
      a.function.parameters.map (·.dtype) = ts.map (·.spec.dtype)) : e.Calls computed g where
  makes := ⟨g, h.product?_eq_some_iff.2 ⟨hlowered, rfl⟩⟩
  cached id a ha hsignature := by
    have hsame := (h.lowered_iff_of_made (hmade id a ha) hcompute hsignature).2
      (hdtypes id a ha hsignature)
    rw [h.executable_of_made (hmade id a ha)]
    exact congrArg Executable.mk (Except.ok.inj (hsame.symm.trans hlowered))
  typed := (ExecutionUnit.lowered_eq_ok hlowered).2
  parameters := (ExecutionUnit.lowered_eq_ok hlowered).1

/-- **An executor on the table** calls the function of an artifact for its signature, if this is what
lowering makes for the inputs. What it has in its cache it has read from the table. -/
theorem Written.calls (h : e.Written) (htable : f.config.aot = some e.aotTable)
    (hmade : ∀ id a, f.cache.get? id = some a → f.Made P a) (ha : e.cache.get? id = some a)
    (hsignature : a.signature = computed.signature)
    (hlowered : e.unit.lowered computed = .ok a.function) : f.Calls computed a.function where
  makes := ⟨a.function, h.product?_eq htable ha hsignature.symm⟩
  cached i b hb hother := by
    obtain ⟨_, made, -, -, hsame, hproduct⟩ := hmade i b hb
    rw [h.product?_eq htable ha ((hsame.trans hother).trans hsignature.symm)] at hproduct
    exact (congrArg Prod.snd (Option.some.inj hproduct)).symm
  typed := (ExecutionUnit.lowered_eq_ok hlowered).2
  parameters := (ExecutionUnit.lowered_eq_ok hlowered).1

end Executor

/-! ### Building on a table -/

/-- The request for an executor on a table, where nobody vouches for copies. -/
def BuildRequest.onTable (r : BuildRequest) (table : AotTable) : BuildRequest :=
  { r with unit.attributes := table.toAttributes, translator := none, tracker := .never }

/-- The executor that is built for it. -/
def BuildRequest.executorOn (r : BuildRequest) (table : AotTable) (backend : BackendId)
    (config : Config) (statics : StaticInputs) : Executor where
  unit := (r.onTable table).unit
  backend
  config := { config with aot := some table }
  statics
  translator := none
  tracker := .never
  cache := .new config.cacheDepth
  stats := .zero

section OnTable

variable {r : BuildRequest} {config : Config} {backend : BackendId} {statics : StaticInputs}
  {table : AotTable}

/-- **An executor can be built on every table**, if configuration, backend and graph allow it. -/
theorem Executor.build_onTable {p : Platform} (hconfig : r.chosenConfig = .ok config)
    (hbackend : p.findBackend r.unit.backendName r.backendClass = .ok backend)
    (hstatics : StaticInputs.analyze r.unit.graph r.query = .ok statics) :
    build (r.onTable table) p = .ok (r.executorOn table backend config statics) p := by
  have hattributes := UnitAttributes.ofAttributes_toAttributes (r.onTable table).unit.name table
  have hsettings : (r.onTable table).settings =
      .ok ({ config with aot := some table }, .empty) := by
    unfold BuildRequest.settings
    rw [show (r.onTable table).chosenConfig = r.chosenConfig from rfl, hconfig,
      show (r.onTable table).unit.attributes = table.toAttributes from rfl, hattributes]
    rfl
  have hends : Ends (build (r.onTable table) p)
      (fun e q => e = r.executorOn table backend config statics ∧ q = p) fun _ _ => False := by
    unfold build
    rw [hsettings]
    dsimp only
    rw [ends_bind, ends_pure, ends_bind, ends_get,
      show p.findBackend (r.onTable table).unit.backendName (r.onTable table).backendClass =
        .ok backend from hbackend]
    dsimp only
    rw [ends_bind, ends_pure, ends_bind, show StaticInputs.analyze (r.onTable table).unit.graph
      (r.onTable table).query = .ok statics from hstatics]
    exact ⟨rfl, rfl⟩
  cases hbuild : build (r.onTable table) p with
  | ok e q =>
    obtain ⟨rfl, rfl⟩ := hends.ok hbuild
    rfl
  | error error q => exact (hends.error hbuild).elim

theorem Process.step_build_onTable {w : Process} (hconfig : r.chosenConfig = .ok config)
    (hbackend : w.platform.findBackend r.unit.backendName r.backendClass = .ok backend)
    (hstatics : StaticInputs.analyze r.unit.graph r.query = .ok statics) :
    w.step (.build (r.onTable table)) =
      { w with executors := w.executors ++ [r.executorOn table backend config statics] } := by
  change w.build (r.onTable table) = _
  unfold Process.build
  rw [Executor.build_onTable hconfig hbackend hstatics]

/-- Built on the table of an executor of the same unit and static inputs, it takes over. -/
theorem BuildRequest.takesOver_executorOn {e : Executor} (hunit : e.unit = r.unit)
    (he : StaticInputs.analyze r.unit.graph r.query = .ok e.statics) :
    (r.executorOn e.aotTable backend config e.statics).TakesOver e where
  graph := (congrArg ExecutionUnit.graph hunit).symm
  query := ⟨r.query, hunit ▸ he, he⟩
  externalInputs := (congrArg ExecutionUnit.externalInputs hunit).symm
  externalOutputs := (congrArg ExecutionUnit.externalOutputs hunit).symm
  attributes := rfl
  translator := rfl

end OnTable

/-! ### Two executors -/

theorem Platform.isRegistered_unregister (p : Platform) (name : String) :
    (p.unregister name).isRegistered name = false := by
  change ((p.registered.erase name).get? name).isSome = false
  rw [SortedMap.get?_erase, if_pos rfl]
  rfl

namespace Process

/-- The table of an executor. -/
def table (w : Process) (k : Nat) : AotTable := (w.executors[k]?.map (·.aotTable)).getD .empty

theorem table_eq {w : Process} {k : Nat} {e : Executor} (he : w.executors[k]? = some e) :
    w.table k = e.aotTable := by
  unfold table
  rw [he]
  rfl

/-- The second executor runs on the table of the first, on the same backend, with nothing in the
way; and the table has an artifact that was compiled for the specs of some inputs. -/
structure Paired (w : Process) (e f : Executor) (inputs : List HostBuffer) : Prop where
  /-- The first executor. -/
  first : w.executors[0]? = some e
  /-- The second executor. -/
  second : w.executors[1]? = some f
  /-- The first makes its functions by lowering. -/
  lowers : e.Lowers
  /-- The second takes over. -/
  takesOver : f.TakesOver e
  /-- They have the same backend. -/
  backend : f.backend = e.backend
  /-- It has not been told to fail. -/
  quiet : (w.platform.backend e.backend).Quiet
  /-- No group is lent. -/
  idle : ∀ id a, e.cache.get? id = some a ∨ f.cache.get? id = some a → a.lent = []
  /-- There is an artifact for the inputs. -/
  listed : ∃ computed id a,
    Signature.compute e.statics (inputs.map w.platform.memory.read) = .ok computed ∧
    e.cache.get? id = some a ∧ a.signature = computed.signature ∧
    a.function.parameters = computed.specs

/-- So it is when the backend is not registered any more. -/
theorem Paired.unregister {w : Process} {e f : Executor} {inputs : List HostBuffer}
    (h : w.Paired e f inputs) (name : String) : (w.step (.unregister name)).Paired e f inputs :=
  ⟨h.first, h.second, h.lowers, h.takesOver, h.backend, h.quiet, h.idle, h.listed⟩

/-- A call of the second executor comes to something else than a call of the first. -/
def Disagree (w : Process) (inputs : List HostBuffer) : Prop :=
  ∃ e f, w.Paired e f inputs ∧ w.called 1 1 inputs ≠ w.called 0 0 inputs

/-- Calls of an executor are the same when there are more executors. -/
theorem called_append {w : Process} {k o : Nat} {inputs : List HostBuffer} {more : List Executor}
    (hk : k < w.executors.length) :
    ({ w with executors := w.executors ++ more } : Process).called k o inputs =
      w.called k o inputs := by
  unfold called
  rw [List.getElem?_append_left hk]
  rfl

/-- Nothing is seen of a call without an artifact if the backend is not registered. -/
theorem called_eq_none {commands : List Command} {k o : Nat} {inputs : List HostBuffer}
    {e : Executor} (he : (empty.run commands).executors[k]? = some e) (hnone : e.cache.order = [])
    (hnot : (empty.run commands).platform.isRegistered e.unit.backendName = false) :
    (empty.run commands).called k o inputs = none := by
  have hends : Ends (ExecM.execute inputs ((empty.run commands).stateOf e o)) (fun _ _ => False)
      fun _ _ => True := by
    rw [ExecM.execute_eq, ends_bind]
    refine (ExecM.ends_getExecutable (compiled_run commands o he) inputs).mono (fun l t ht => ?_)
      fun _ _ _ => trivial
    obtain ⟨computed, a, -, hfound⟩ := ht
    cases hhit : l.hit with
    | true =>
      have hlisted := hfound.hit.1 hhit
      change computed.signature ∈ e.cache.order at hlisted
      rw [hnone] at hlisted
      cases hlisted
    | false =>
      have hregistered := hfound.registered hhit
      change (empty.run commands).platform.isRegistered e.unit.backendName = true at hregistered
      rw [hnot] at hregistered
      cases hregistered
  unfold called
  rw [he, Option.bind_some]
  cases hcall : ExecM.execute inputs ((empty.run commands).stateOf e o) with
  | ok r u => exact (hends.ok hcall).elim
  | error error u => rfl

section Refused

variable {others : List Command} {j : Nat} {e f : Executor}

/-- An executor on a table has no artifacts of other signatures: they would have been made of
nothing. -/
theorem index_eq_none_of_not_listed (hf : (empty.run others).executors[j]? = some f)
    (htable : f.config.aot = some e.aotTable) (hconsistent : e.cache.Consistent) {σ : Signature}
    (hσ : σ ∉ e.cache.order) : f.cache.index.get? σ = none := by
  have hcompiled := compiled_run others 0 hf
  by_contra hsome
  obtain ⟨id, hid⟩ := Option.ne_none_iff_exists'.1 hsome
  obtain ⟨a, ha, rfl⟩ := hcompiled.consistent.indexed σ id hid
  obtain ⟨-, made, -, -, hsame, hproduct⟩ := hcompiled.made id a ha
  change f.product? made = _ at hproduct
  rw [Executor.product?_of_not_listed htable hconsistent (hsame ▸ hσ)] at hproduct
  cases hproduct

/-- **For other signatures a call of an executor on a table is refused**, and its cache stays. -/
theorem ask_of_not_listed (hf : (empty.run others).executors[j]? = some f)
    (htable : f.config.aot = some e.aotTable) (hconsistent : e.cache.Consistent)
    {inputs : List HostBuffer} {computed : Signature.Computed}
    (hcompute : Signature.compute f.statics
      (inputs.map (empty.run others).platform.memory.read) = .ok computed)
    (hσ : computed.signature ∉ e.cache.order) (o : Nat) :
    ((empty.run others).ask j o (.execute inputs)).1 = some (.error (.configInvalid
      (.noFunction f.unit.name f.unit.backendName computed.signature))) ∧
    ((empty.run others).ask j o (.execute inputs)).2.executors[j]?.map (·.cache) =
      some f.cache := by
  have hends : Ends ((Request.execute inputs).perform ((empty.run others).stateOf f o))
      (fun _ _ => False) fun error t => error = .configInvalid
        (.noFunction f.unit.name f.unit.backendName computed.signature) ∧ t.cache = f.cache := by
    unfold Request.perform
    rw [ends_bind, ExecM.execute_eq, ends_bind]
    exact (ExecM.ends_getExecutable_unlisted htable hcompute
      (index_eq_none_of_not_listed hf htable hconsistent hσ)
      (Executor.function?_aotTable_of_not_listed hconsistent hσ)).mono
      (fun _ _ h => h.elim) fun _ _ h => h
  obtain ⟨t, hput, ⟨-, -, hfalse⟩ | ⟨error, herror, rfl, hcache⟩⟩ := ask_of_ends hf hends
  · exact hfalse.elim
  · refine ⟨herror, ?_⟩
    rw [hput]
    change ((empty.run others).executors.set j t.executor)[j]?.map _ = _
    rw [List.getElem?_set_self (List.getElem?_eq_some_iff.1 hf).1]
    exact congrArg some hcache

end Refused

end Process

/-! ### The sum of a scalar with itself -/

/-- The request for the sum of two inputs. -/
def BuildRequest.sumWith (tracker : Tracker) : BuildRequest :=
  .plain Graph.sampleAdd "host" .recording tracker

/-- A scalar with itself, as integers. -/
def integers : List HostBuffer := [⟨⟨.i32, [1]⟩, 0⟩, ⟨⟨.i32, [1]⟩, 0⟩]

/-- An executor on a device compiles the sum for a scalar with itself, and then there is something
more. -/
def oneSum (tracker : Tracker) (more : List Command) : List Command :=
  [.register "host" (.recording .device) none, .allocate ⟨⟨.i32, [1]⟩, [1, 0, 0, 0]⟩,
    .allocate ⟨⟨.f32, [1]⟩, [0, 0, 128, 63]⟩, .newRegistry, .build (.sumWith tracker),
    .ask 0 0 (.getExecutable (pairOf 1))] ++ more

/-- No other executor is built. -/
theorem eq_of_build_mem {tracker : Tracker} {more : List Command}
    (hmore : ∀ r, Command.build r ∉ more) (r : BuildRequest)
    (hr : Command.build r ∈ oneSum tracker more) : r = .sumWith tracker := by
  simpa [oneSum, hmore] using hr

/-- And one is added to one. -/
def oneCall : List Command := [.ask 0 0 (.execute (pairOf 1))]

/-- Then a second executor is built on the table of the first. -/
def withSecond (tracker : Tracker) (commands : List Command) : List Command :=
  commands ++
    [.build ((BuildRequest.sumWith tracker).onTable ((Process.empty.run commands).table 0))]

/-- The executor for the sum of two inputs on a table. -/
def sumOn (table : AotTable) : Executor :=
  BuildRequest.sampleSum.executorOn table 0 .standard ⟨[false, false]⟩

/-- There is one executor, which has the sum of two scalars, and there is a scalar whose sum with
itself is a word. -/
structure Process.HasSum (w : Process) (word : UInt32) : Prop where
  /-- The executor has the sum. -/
  executors : w.executors.map
      (fun e => (e.statics.flags, e.backend, e.cache.artifacts.values.map (·.bare))) =
    [([false, false], 0, [.new 0 "1,;1,;/" ⟨sumFunction .f32⟩ (sumFunction .f32)])]
  /-- No group is lent. -/
  idle : ∀ e ∈ w.executors, ∀ a ∈ e.cache.artifacts.values, a.lent = []
  /-- Its backend is there. -/
  registered : w.platform.registered.get? "host" = some 0
  /-- It is a device. -/
  kind : (w.platform.backend 0).kind = .recording .device
  /-- It has not been told to fail. -/
  quiet : (w.platform.backend 0).injections = ⟨false, false, false⟩
  /-- The scalar is there. -/
  live : 1 < w.platform.memory.storages.size
  /-- It is as long as its spec says. -/
  filled : (w.platform.memory.storage 1).length = 4
  /-- The second set of output buffers is new. -/
  fresh : (w.outputsOf 1).buffers = []
  /-- The sum. -/
  sum : ((sumFunction .f32).evaluate .binary32
    (BuildRequest.sampleSum.unit.arguments w.platform.memory (pairOf 1))).toOption =
    some [⟨⟨.f32, [1]⟩, [word]⟩]

instance (w : Process) (word : UInt32) : Decidable (w.HasSum word) :=
  decidable_of_iff (_ ∧ _ ∧ _ ∧ _ ∧ _ ∧ _ ∧ _ ∧ _ ∧ _)
    ⟨fun ⟨h₁, h₂, h₃, h₄, h₅, h₆, h₇, h₈, h₉⟩ => ⟨h₁, h₂, h₃, h₄, h₅, h₆, h₇, h₈, h₉⟩,
      fun ⟨h₁, h₂, h₃, h₄, h₅, h₆, h₇, h₈, h₉⟩ => ⟨h₁, h₂, h₃, h₄, h₅, h₆, h₇, h₈, h₉⟩⟩

/-- The tensors in the slots of all artifacts were made for one spec. -/
def Process.HasSlotsFor (w : Process) (spec : TensorSpec) : Prop :=
  ∀ e ∈ w.executors, ∀ a ∈ e.cache.artifacts.values,
    ∀ slot ∈ a.inputs.values ++ a.outputs.values,
      (w.platform.memory.tensor slot.tensor).spec = spec

instance (w : Process) (spec : TensorSpec) : Decidable (w.HasSlotsFor spec) :=
  inferInstanceAs (Decidable (∀ e ∈ w.executors, _))

/-- They can be used again for inputs and results of this spec, if nobody vouches for copies. -/
theorem Process.HasSlotsFor.usable {w : Process} {spec : TensorSpec} (h : w.HasSlotsFor spec)
    {k o : Nat} {e : Executor} (he : w.executors[k]? = some e) (hnever : e.tracker = .never)
    {id : ArtifactId} {a : Artifact} (ha : e.cache.get? id = some a) {inputs : List HostBuffer}
    (hinputs : ∀ b ∈ inputs, b.spec = spec)
    (hresults : ∀ r ∈ a.executable.function.results, r = spec) :
    (w.stateOf e o).Usable id a inputs := by
  have hslots := h e (List.mem_of_getElem? he) a (Executor.mem_artifacts_iff.2 ⟨id, ha⟩)
  have hmem : ∀ {slots : SlotTable} {q : Nat} {slot : Slot}, slots.get? q = some slot →
      slot ∈ slots.values := fun hslot =>
    List.mem_map_of_mem (f := (·.2)) (SortedMap.get?_eq_some_iff.1 hslot)
  refine ⟨fun q host slot hhost _ hslot => ?_, fun q host slot hhost _ hslot => ?_,
    ExecM.skipsCurrent_of_never hnever⟩
  · rw [hinputs host (List.mem_of_getElem? hhost)]
    exact hslots slot (List.mem_append_left _ (hmem hslot.get?))
  · have hspec : host.spec ∈ a.executable.function.results := by
      rw [← ((w.stateOf e o).refitted_prepared a.executable.function.results).specs_eq]
      exact List.mem_map_of_mem (List.mem_of_getElem? hhost)
    rw [hresults _ hspec]
    exact hslots slot (List.mem_append_right _ (hmem hslot.get?))

theorem fitsWords_sumFunction : (sumFunction .f32).FitsWords := by decide +kernel

/-- The signature of two scalars. -/
theorem compute_pairOf (m : Memory) :
    Signature.compute ⟨[false, false]⟩ ((pairOf 1).map m.read) =
      .ok ⟨"1,;1,;/", [⟨.f32, [1]⟩, ⟨.f32, [1]⟩], [none, none]⟩ := rfl

theorem mem_pairOf {b : HostBuffer} (hb : b ∈ pairOf 1) : b = ⟨⟨.f32, [1]⟩, 1⟩ := by
  simpa [pairOf] using hb

section HasSum

variable {tracker : Tracker} {commands : List Command} {word : UInt32}

/-- The artifacts of the executor can be written to a table. -/
theorem Process.HasSum.exists_written (h : (Process.empty.run commands).HasSum word)
    (hbuilds : ∀ r, Command.build r ∈ commands → r = .sumWith tracker) :
    ∃ e a, (Process.empty.run commands).executors = [e] ∧ e.Written ∧
      e.unit = (BuildRequest.sumWith tracker).unit ∧
      StaticInputs.analyze Graph.sampleAdd StaticQuery.byAttribute = .ok ⟨[false, false]⟩ ∧
      e.statics = ⟨[false, false]⟩ ∧ e.backend = 0 ∧ (∃ id, e.cache.get? id = some a) ∧
      a.signature = "1,;1,;/" ∧ a.function = sumFunction .f32 ∧
      ∀ id b, e.cache.get? id = some b → b = a ∧ b.lent = [] := by
  obtain ⟨e, hexecutors, he⟩ := List.map_eq_singleton_iff.1 h.executors
  obtain ⟨hflags, he⟩ := Prod.mk.inj he
  have hstatics : e.statics = ⟨[false, false]⟩ := congrArg StaticInputs.mk hflags
  obtain ⟨hbackend, hartifacts⟩ := Prod.mk.inj he
  obtain ⟨a, hvalues, ha⟩ := List.map_eq_singleton_iff.1 hartifacts
  obtain ⟨-, hsignature, hexecutable, hfunction⟩ := Artifact.bare_eq_iff.1
    (show a.bare = (Artifact.new 0 "1,;1,;/" ⟨sumFunction .f32⟩ (sumFunction .f32)).bare from ha)
  replace hsignature : a.signature = "1,;1,;/" := hsignature
  replace hexecutable : a.executable = ⟨sumFunction .f32⟩ := hexecutable
  replace hfunction : a.function = sumFunction .f32 := hfunction
  -- The cache holds one artifact, so what is said of every artifact is said of this one.
  have hmem : ∀ b, b ∈ e.cache.artifacts.values ↔ b = a := fun b => by
    rw [hvalues, List.mem_singleton]
  have hfirst : (Process.empty.run commands).executors[0]? = some e := by
    rw [hexecutors]
    rfl
  obtain ⟨hunit, hlowers, -⟩ := Process.executor_of_plain hfirst hbuilds
  obtain ⟨r, hr, -, -, -, hanalyze, -⟩ := Process.built_of_run commands hfirst
  obtain rfl := hbuilds r hr
  have hcompiled := compiled_run commands 0 hfirst
  refine ⟨e, a, hexecutors, ⟨hlowers, hcompiled.consistent, hcompiled.made, fun id b hb => ?_⟩,
    hunit, hstatics ▸ hanalyze, hstatics, hbackend, Executor.mem_artifacts_iff.1 ((hmem a).2 rfl),
    hsignature, hfunction, fun id b hb => ?_⟩
  · obtain rfl := (hmem b).1 (Executor.mem_artifacts_iff.2 ⟨id, hb⟩)
    rw [hfunction]
    exact fitsWords_sumFunction
  · obtain rfl := (hmem b).1 (Executor.mem_artifacts_iff.2 ⟨id, hb⟩)
    exact ⟨rfl, h.idle e (List.mem_of_getElem? hfirst) b (Executor.mem_artifacts_iff.2 ⟨id, hb⟩)⟩

theorem Process.HasSum.length_pos {w : Process} (h : w.HasSum word) : 0 < w.executors.length := by
  have hlength := congrArg List.length h.executors
  rw [List.length_map, List.length_singleton] at hlength
  omega

theorem Process.HasSum.isRegistered {w : Process} (h : w.HasSum word) :
    w.platform.isRegistered "host" = true :=
  Option.isSome_iff_exists.2 ⟨0, h.registered⟩

/-- The second executor is there. -/
theorem Process.HasSum.run_withSecond (h : (Process.empty.run commands).HasSum word)
    (hbuilds : ∀ r, Command.build r ∈ commands → r = .sumWith tracker) :
    Process.empty.run (withSecond tracker commands) =
      { Process.empty.run commands with
        executors := (Process.empty.run commands).executors ++
          [sumOn ((Process.empty.run commands).table 0)] } := by
  obtain ⟨e, a, -, -, -, hanalyze, -⟩ := h.exists_written hbuilds
  have hfind : (Process.empty.run commands).platform.findBackend "host" .recording = .ok 0 := by
    unfold Platform.findBackend
    rw [h.registered]
    dsimp only
    rw [h.kind]
    rfl
  unfold withSecond
  rw [Process.run_concat]
  exact Process.step_build_onTable rfl hfind hanalyze

/-- **It is meant to take over.** -/
theorem Process.HasSum.paired (h : (Process.empty.run commands).HasSum word)
    (hbuilds : ∀ r, Command.build r ∈ commands → r = .sumWith tracker) : ∃ e,
    (Process.empty.run (withSecond tracker commands)).Paired e
      (sumOn ((Process.empty.run commands).table 0)) (pairOf 1) := by
  obtain ⟨e, a, hexecutors, hwritten, hunit, hanalyze, hstatics, hbackend, ⟨id, ha⟩, hsignature,
    hfunction, honly⟩ := h.exists_written hbuilds
  have htable : (Process.empty.run commands).table 0 = e.aotTable := Process.table_eq (by
    rw [hexecutors]
    rfl)
  refine ⟨e, ?_⟩
  rw [h.run_withSecond hbuilds, hexecutors, htable]
  refine ⟨rfl, rfl, hwritten.lowers, ?_, hbackend.symm, hbackend ▸ h.quiet, ?_, ?_⟩
  · have hover := @BuildRequest.takesOver_executorOn BuildRequest.sampleSum .standard 0 e hunit
      (hstatics ▸ hanalyze)
    rw [hstatics] at hover
    exact hover
  · rintro i b (hb | hb)
    · exact (honly i b hb).2
    · cases hb
  · refine ⟨_, id, a, hstatics ▸ compute_pairOf _, ha, hsignature, ?_⟩
    rw [hfunction]
    rfl

/-- It can be called. -/
theorem Process.HasSum.admissible (h : (Process.empty.run commands).HasSum word)
    (hbuilds : ∀ r, Command.build r ∈ commands → r = .sumWith tracker) :
    (Process.empty.run (withSecond tracker commands)).Admissible
      (sumOn ((Process.empty.run commands).table 0)) 1 (pairOf 1) := by
  rw [h.run_withSecond hbuilds]
  refine ⟨fun b hb => ?_, fun b hb => ?_, fun b hb => ?_, h.quiet, nofun, .inl h.isRegistered, ?_⟩
  · obtain rfl := mem_pairOf hb
    exact h.live
  · obtain rfl := mem_pairOf hb
    exact h.filled
  · change b ∈ ((Process.empty.run commands).outputsOf 1).buffers at hb
    rw [h.fresh] at hb
    cases hb
  · -- The cache of the second executor is empty.
    rintro - computed id a - ha
    cases ha

/-- **It adds the scalars.** -/
theorem Process.HasSum.called_second (h : (Process.empty.run commands).HasSum word)
    (hbuilds : ∀ r, Command.build r ∈ commands → r = .sumWith tracker) :
    (Process.empty.run (withSecond tracker commands)).called 1 1 (pairOf 1) =
      some ("1,;1,;/", [(⟨.f32, [1]⟩, some (Tensor.bytesOfWords [word]))]) := by
  obtain ⟨e, a, hexecutors, hwritten, -, -, hstatics, -, ⟨id, ha⟩, hsignature, hfunction, -⟩ :=
    h.exists_written hbuilds
  obtain ⟨e', hpaired⟩ := h.paired hbuilds
  obtain rfl : e' = e := by
    have hfirst := hpaired.first
    rw [h.run_withSecond hbuilds, hexecutors] at hfirst
    exact (Option.some.inj hfirst).symm
  have htable := hpaired.takesOver.table hpaired.second
  have hlowered : e'.unit.lowered ⟨"1,;1,;/", [⟨.f32, [1]⟩, ⟨.f32, [1]⟩], [none, none]⟩ =
      .ok a.function :=
    (hwritten.lowers.lowered_iff_of_made (hwritten.made id a ha)
      (hstatics ▸ compute_pairOf .empty) hsignature).2 (by rw [hfunction]; rfl)
  have hcalls := hwritten.calls htable (compiled_run _ 0 hpaired.second).made ha hsignature hlowered
  have hruns : (sumFunction .f32).Runs (.recording .device) (BuildRequest.sampleSum.unit.arguments
      (Process.empty.run commands).platform.memory (pairOf 1)) [⟨⟨.f32, [1]⟩, [word]⟩] :=
    ⟨toOption_eq_some.1 h.sum, nofun⟩
  have hcalled := Process.called_of_calls hpaired.second (h.admissible hbuilds) (compute_pairOf _)
    (hfunction ▸ hcalls)
  rw [h.run_withSecond hbuilds] at hcalled ⊢
  rw [← h.kind] at hruns
  rcases hcalled with ⟨results, hruns', hcalled⟩ | ⟨hnot, -⟩
  · obtain rfl := hruns.unique hruns'
    exact hcalled
  · exact absurd hruns (hnot _)

/-- If the first executor does not add them, the two do not agree. -/
theorem Process.HasSum.disagree (h : (Process.empty.run commands).HasSum word)
    (hbuilds : ∀ r, Command.build r ∈ commands → r = .sumWith tracker)
    (hfirst : (Process.empty.run commands).called 0 0 (pairOf 1) ≠
      some ("1,;1,;/", [(⟨.f32, [1]⟩, some (Tensor.bytesOfWords [word]))])) :
    (Process.empty.run (withSecond tracker commands)).Disagree (pairOf 1) := by
  obtain ⟨e, hpaired⟩ := h.paired hbuilds
  refine ⟨e, _, hpaired, ?_⟩
  rw [h.called_second hbuilds, h.run_withSecond hbuilds,
    Process.called_append h.length_pos]
  exact hfirst.symm

/-- So it is if the first executor has the sum when the backend is not registered any more: the
second one cannot load it. -/
theorem Process.HasSum.disagree_unregister (h : (Process.empty.run commands).HasSum word)
    (hbuilds : ∀ r, Command.build r ∈ commands → r = .sumWith tracker)
    (hfirst : ((Process.empty.run commands).step (.unregister "host")).called 0 0 (pairOf 1) ≠
      none) :
    (Process.empty.run (withSecond tracker commands ++ [.unregister "host"])).Disagree
      (pairOf 1) := by
  obtain ⟨e, hpaired⟩ := h.paired hbuilds
  replace hpaired := hpaired.unregister "host"
  rw [← Process.run_concat] at hpaired
  refine ⟨e, _, hpaired, ?_⟩
  have hcalled : (Process.empty.run (withSecond tracker commands ++ [.unregister "host"])).called
      0 0 (pairOf 1) ≠ none := by
    rw [Process.run_concat, h.run_withSecond hbuilds]
    exact (Process.called_append (w := (Process.empty.run commands).step (.unregister "host"))
      h.length_pos).trans_ne hfirst
  rw [Process.called_eq_none hpaired.second rfl]
  · exact hcalled.symm
  · rw [Process.run_concat]
    exact Platform.isRegistered_unregister _ "host"

end HasSum

/-! ### Taking over -/

/-- **An executor takes over.** Let an executor make its functions by lowering, let its artifacts be
written to a table at some time of any run, and let another executor be built on this table and have
been through any run of its own. Then

* for inputs of a signature in the table, of the element types that the artifact was made for, the
  same is seen of calls of both, at any later time, if both calls have what they need,
* for other signatures the second executor has no function, and its cache stays as it is,
* it never asks its backend to compile. -/
theorem taken_over (commands more others : List Command) (k j : Nat)
    (e e' f : Executor) (he : (Process.empty.run commands).executors[k]? = some e)
    (he' : (Process.empty.run (commands ++ more)).executors[k]? = some e')
    (hf : (Process.empty.run others).executors[j]? = some f) (hlowers : e.Lowers)
    (hwords : ∀ id a, e.cache.get? id = some a → a.function.FitsWords) (hover : f.TakesOver e)
    (hkind : ((Process.empty.run others).platform.backend f.backend).kind =
      ((Process.empty.run (commands ++ more)).platform.backend e'.backend).kind) :
    (∀ o o' inputs inputs' computed,
      (Process.empty.run (commands ++ more)).Admissible e' o inputs →
      (Process.empty.run others).Admissible f o' inputs' →
      inputs'.map (Process.empty.run others).platform.memory.read =
        inputs.map (Process.empty.run (commands ++ more)).platform.memory.read →
      Signature.compute f.statics (inputs'.map (Process.empty.run others).platform.memory.read) =
        .ok computed →
      (e.aotTable.function? computed.signature).isSome = true →
      (∀ id a, e.cache.get? id = some a ∨ e'.cache.get? id = some a →
        a.signature = computed.signature →
        a.function.parameters.map (·.dtype) = inputs.map (·.spec.dtype)) →
      (Process.empty.run others).called j o' inputs' =
        (Process.empty.run (commands ++ more)).called k o inputs) ∧
    (∀ o inputs computed, Signature.compute f.statics
        (inputs.map (Process.empty.run others).platform.memory.read) = .ok computed →
      e.aotTable.function? computed.signature = none →
      ((Process.empty.run others).ask j o (.execute inputs)).1 = some (.error (.configInvalid
        (.noFunction f.unit.name f.unit.backendName computed.signature))) ∧
      ((Process.empty.run others).ask j o (.execute inputs)).2.executors[j]?.map (·.cache) =
        some f.cache) ∧
    (∀ compiler o (r : Request), r.performBy compiler ((Process.empty.run others).stateOf f o) =
      r.perform ((Process.empty.run others).stateOf f o)) ∧
    f.stats.compiles = 0 := by
  have htable := hover.table hf
  have hsome : f.config.aot.isSome = true := by
    rw [htable]
    rfl
  have hcompiled := compiled_run commands 0 he
  have hconsistent : e.cache.Consistent := hcompiled.consistent
  refine ⟨fun o o' inputs inputs' computed hadmissible hadmissible' hread hcompute hlisted
      hdtypes => ?_, fun o inputs computed hcompute hnone => ?_,
    fun compiler o r => Request.performBy_eq hsome compiler r,
    Process.compiles_eq_zero others hf hsome⟩
  · have hwritten : e.Written := ⟨hlowers, hconsistent, hcompiled.made, hwords⟩
    obtain ⟨e'', he'', hremains⟩ := Process.executor_of_run he more
    obtain rfl : e'' = e' := by
      unfold Process.run at he' he''
      rw [List.foldl_append] at he'
      exact Option.some.inj (he''.symm.trans he')
    have hlowers' : e''.Lowers :=
      ⟨hremains.translator.trans hlowers.translator, hremains.config ▸ hlowers.table⟩
    have hdtypes' : ∀ id a, e.cache.get? id = some a ∨ e''.cache.get? id = some a →
        a.signature = computed.signature → a.function.parameters.map (·.dtype) =
          (inputs.map (Process.empty.run (commands ++ more)).platform.memory.read).map
            (·.spec.dtype) := fun id a ha hsignature => by
      rw [hdtypes id a ha hsignature, List.map_map]
      rfl
    have hcompute' : Signature.compute e.statics
        (inputs.map (Process.empty.run (commands ++ more)).platform.memory.read) =
          .ok computed := by
      rw [← hread, ← hover.statics]
      exact hcompute
    -- The artifact of the signature holds what lowering makes for these inputs.
    obtain ⟨id, a, ha, hsignature⟩ := Executor.exists_artifact hconsistent
      ((Executor.function?_aotTable_isSome_iff hconsistent).1 hlisted)
    have hlowered : e.unit.lowered computed = .ok a.function :=
      (hlowers.lowered_iff_of_made (hcompiled.made id a ha) hcompute' hsignature).2
        (hdtypes' id a (.inl ha) hsignature)
    have hlive := Process.called_of_calls he' hadmissible (hremains.statics ▸ hcompute')
      (hlowers'.calls (compiled_run _ 0 he').made (hremains.statics ▸ hcompute')
        (hremains.unit ▸ hlowered) fun i b hb => hdtypes' i b (.inr hb))
    have hsecond := Process.called_of_calls hf hadmissible' hcompute
      (hwritten.calls htable (compiled_run others 0 hf).made ha hsignature hlowered)
    -- The same function is called for the same values, on backends of the same kind.
    rw [hkind, ExecutionUnit.arguments_eq_of_read hread
      (hover.externalInputs.trans (congrArg _ hremains.unit).symm),
      hover.externalOutputs.trans (congrArg _ hremains.unit).symm] at hsecond
    rcases hlive with ⟨results, hruns, hcalled⟩ | ⟨hnot, hcalled⟩
    · rcases hsecond with ⟨results', hruns', hcalled'⟩ | ⟨hnot', -⟩
      · rw [hcalled, hcalled', hruns.unique hruns']
      · exact absurd hruns (hnot' results)
    · rcases hsecond with ⟨results', hruns', -⟩ | ⟨-, hcalled'⟩
      · exact absurd hruns' (hnot results')
      · rw [hcalled, hcalled']
  · have hnot : computed.signature ∉ e.cache.order := fun hσ => by
      have hsome := (Executor.function?_aotTable_isSome_iff hconsistent).2 hσ
      rw [hnone] at hsome
      cases hsome
    exact Process.ask_of_not_listed hf htable hconsistent hcompute hnot o

/-- The second executor takes over: one and one is two, as for the first one, which has been called
in the meantime; and a vector is refused. -/
theorem two_of_oneSum : ∃ e e', (Process.empty.run (oneSum .never [])).executors[0]? = some e ∧
    (Process.empty.run (oneSum .never [] ++ oneCall)).executors[0]? = some e' ∧
    (Process.empty.run (withSecond .never (oneSum .never []))).executors[1]? =
      some (sumOn e.aotTable) ∧
    (sumOn e.aotTable).TakesOver e ∧
    (Process.empty.run (withSecond .never (oneSum .never []))).called 1 1 (pairOf 1) =
      (Process.empty.run (oneSum .never [] ++ oneCall)).called 0 0 (pairOf 1) ∧
    (Process.empty.run (oneSum .never [] ++ oneCall)).called 0 0 (pairOf 1) =
      some ("1,;1,;/", [(⟨.f32, [1]⟩, some [0, 0, 0, 64])]) ∧
    ((Process.empty.run (withSecond .never (oneSum .never []))).ask 1 1 (.execute (pairOf 2))).1 =
      some (.error (.configInvalid (.noFunction "cluster_0" "host" "2,;2,;/"))) := by
  have hbuilds : ∀ r, Command.build r ∈ oneSum .never [] → r = .sumWith .never :=
    eq_of_build_mem (by simp)
  have hbuilds' : ∀ r, Command.build r ∈ oneSum .never [] ++ oneCall → r = .sumWith .never :=
    eq_of_build_mem (show ∀ r, Command.build r ∉ oneCall by simp [oneCall])
  have h : (Process.empty.run (oneSum .never [])).HasSum 0x40000000 := by decide +kernel
  have h' : (Process.empty.run (oneSum .never [] ++ oneCall)).HasSum
      0x40000000 := by decide +kernel
  have hslots : (Process.empty.run (oneSum .never [] ++ oneCall)).HasSlotsFor ⟨.f32, [1]⟩ := by
    decide +kernel
  obtain ⟨e, a, hexecutors, hwritten, -, -, -, -, ⟨id, ha⟩, hsignature, hfunction, honly⟩ :=
    h.exists_written hbuilds
  obtain ⟨e', a', hexecutors', hwritten', hunit', -, -, hbackend', -, -, hfunction', honly'⟩ :=
    h'.exists_written hbuilds'
  have he : (Process.empty.run (oneSum .never [])).executors[0]? = some e := by
    rw [hexecutors]
    rfl
  have he' : (Process.empty.run (oneSum .never [] ++ oneCall)).executors[0]? =
      some e' := by
    rw [hexecutors']
    rfl
  obtain ⟨-, -, hnever'⟩ := Process.executor_of_plain he' hbuilds'
  obtain ⟨e₀, hpaired⟩ := h.paired hbuilds
  obtain rfl : e₀ = e := by
    have hfirst := hpaired.first
    rw [h.run_withSecond hbuilds, hexecutors] at hfirst
    exact (Option.some.inj hfirst).symm
  have hadmissible' := h.admissible hbuilds
  have hrun' := h.run_withSecond hbuilds
  rw [Process.table_eq he] at hpaired hadmissible' hrun'
  -- Neither building the second executor nor calling the first one changes an input.
  have hread : (pairOf 1).map
      (Process.empty.run (withSecond .never (oneSum .never []))).platform.memory.read =
      (pairOf 1).map (Process.empty.run
        (oneSum .never [] ++ oneCall)).platform.memory.read := by
    rw [hrun']
    change (pairOf 1).map (Process.empty.run (oneSum .never [])).platform.memory.read = _
    decide +kernel
  have hkind : ((Process.empty.run (withSecond .never (oneSum .never []))).platform.backend
      (sumOn e₀.aotTable).backend).kind = ((Process.empty.run
        (oneSum .never [] ++ oneCall)).platform.backend e'.backend).kind := by
    rw [hrun', hbackend', h'.kind]
    exact h.kind
  obtain ⟨hagree, hrefuse, -⟩ := taken_over (oneSum .never []) oneCall
    (withSecond .never (oneSum .never [])) 0 1 e₀ e' (sumOn e₀.aotTable) he he' hpaired.second
    hwritten.lowers hwritten.words hpaired.takesOver hkind
  have hlisted : (e₀.aotTable.function? "1,;1,;/").isSome = true := by
    rw [← hsignature, Executor.function?_aotTable hwritten.consistent ha]
    rfl
  -- The first executor has never seen inputs of two elements, so nothing is listed for them.
  have hnone : e₀.aotTable.function? "2,;2,;/" = none := by
    refine Executor.function?_aotTable_of_not_listed hwritten.consistent fun hσ => ?_
    obtain ⟨i, b, hb, hother⟩ := Executor.exists_artifact hwritten.consistent hσ
    rw [(honly i b hb).1, hsignature] at hother
    exact absurd hother (by decide)
  refine ⟨e₀, e', he, he', hpaired.second, hpaired.takesOver, ?_, by decide +kernel, ?_⟩
  · refine hagree 0 1 (pairOf 1) (pairOf 1) _
      ⟨by decide +kernel, by decide +kernel, by decide +kernel,
        by rw [hbackend']; exact h'.quiet, fun i b hb => (honly' i b hb).2, .inl ?_,
        fun _ _ i b _ hb _ => hslots.usable he' hnever' hb (fun x hx => by rw [mem_pairOf hx]) ?_⟩
      hadmissible' hread (compute_pairOf _) hlisted fun i b hb _ => ?_
    · rw [hunit']
      exact h'.isRegistered
    · rw [hwritten'.lowers.executable_of_made (hwritten'.made i b hb), (honly' i b hb).1, hfunction']
      decide
    · rw [show b.function = sumFunction .f32 from hb.elim
        (fun hb => (honly i b hb).1 ▸ hfunction) fun hb => (honly' i b hb).1 ▸ hfunction']
      rfl
  · have hname : (sumOn e₀.aotTable).unit.name = "cluster_0" :=
      show BuildRequest.sampleSum.unit.name = "cluster_0" by decide +kernel
    obtain ⟨hrefused, -⟩ := hrefuse 1 (pairOf 2)
      ⟨"2,;2,;/", [⟨.f32, [2]⟩, ⟨.f32, [2]⟩], [none, none]⟩ rfl hnone
    rw [hrefused, hname]
    rfl

/-- Then the executor is called for integers, and the slots of the inputs get tensors for them. -/
def thenIntegers : List Command := oneSum .never [.ask 0 0 (.execute integers)]

/-- Then the slots of the inputs get tensors for integers without a call. -/
def thenAllocated : List Command := oneSum .never [.ask 0 0 (.allocateInputs 0 integers)]

/-- Somebody vouches for copies, and then the scalar becomes five. -/
def thenFive : List Command := oneSum (.registry 0)
  [.ask 0 0 (.execute (pairOf 1)), .write 1 [0, 0, 160, 64]]

/-- Then the output buffer becomes empty. -/
def thenEmptied : List Command := oneSum .never [.ask 0 0 (.execute (pairOf 1)), .write 2 []]

/-- **What is asked of the executors and the inputs of the calls does not suffice.** There are runs
after which a second executor runs on the table of the first, and a call of it comes to something
else than a call of the first: after a call or an allocation for other element types, where a copy
that is not current is vouched for, where an output buffer is not as long as its spec says, and
where the backend is not registered any more. -/
theorem not_taken_over :
    (Process.empty.run (withSecond .never thenIntegers)).Disagree (pairOf 1) ∧
    (Process.empty.run (withSecond .never thenAllocated)).Disagree (pairOf 1) ∧
    (Process.empty.run (withSecond (.registry 0) thenFive)).Disagree (pairOf 1) ∧
    (Process.empty.run (withSecond .never thenEmptied)).Disagree (pairOf 1) ∧
    (Process.empty.run (withSecond .never (oneSum .never []) ++ [.unregister "host"])).Disagree
      (pairOf 1) := by
  refine ⟨?_, ?_, ?_, ?_, ?_⟩
  · have h : (Process.empty.run thenIntegers).HasSum 0x40000000 := by decide +kernel
    exact h.disagree (eq_of_build_mem (by simp)) (by decide +kernel)
  · have h : (Process.empty.run thenAllocated).HasSum 0x40000000 := by decide +kernel
    exact h.disagree (eq_of_build_mem (by simp)) (by decide +kernel)
  · have h : (Process.empty.run thenFive).HasSum 0x41200000 := by decide +kernel
    exact h.disagree (eq_of_build_mem (by simp)) (by decide +kernel)
  · have h : (Process.empty.run thenEmptied).HasSum 0x40000000 := by decide +kernel
    exact h.disagree (eq_of_build_mem (by simp)) (by decide +kernel)
  · have h : (Process.empty.run (oneSum .never [])).HasSum 0x40000000 := by decide +kernel
    exact h.disagree_unregister (eq_of_build_mem (by simp)) (by decide +kernel)

end TensorJit
