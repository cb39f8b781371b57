import TensorJit.Proofs.BufferReuse
import TensorJit.Proofs.Executor.Rest
import TensorJit.Proofs.Executor.Tenancy
import TensorJit.Proofs.Lending

/-!
# What a call leaves for the next one

A call with the same inputs finds the signature in front, the output buffers ready, and the tensors
as they have to be (`Settled`, `Primed`), unless an output buffer is one of the inputs. **So it
succeeds, makes no tensor, and leaves everything that can be seen as it was** (`Again`): with tensors
from slots because its state is at rest, and with a group because **what one group can carry any
other can**.

| | what another call finds | what it changes |
|---|---|---|
| the cache | the signature in front | nothing |
| the output buffers | one of the right spec for each result | nothing |
| tensors from slots | bound to the same buffers, every input current | flags |
| a group | at rest, in a pipeline that has one to lend | another group may be lent |

The groups of a pipeline take turns, so the second call may get one that held something else. **This
can be seen only through an input that does not fill its tensor** (`Function.FilledBy`): what is
behind the results is blank in every group.
-/

namespace TensorJit

open ExecState (Untouched Touches Tenancy)

/-- Every input that is given for a floating-point parameter has as many bytes as the parameter has,
except at positions bound elsewhere. -/
def Function.FilledBy (f : Function) (u : ExecutionUnit) (inputs : List HostBuffer) : Prop :=
  ∀ (q : Nat) (spec : TensorSpec) (host : HostBuffer), f.parameters[q]? = some spec →
    spec.dtype = .f32 → inputs[q]? = some host → u.externalInputs.contains q = false →
    spec.byteLength ≤ spec.elements * host.spec.dtype.size

/-- Inputs with the specs of the parameters do. -/
theorem Function.filledBy_of_specs {f : Function} {u : ExecutionUnit} {inputs : List HostBuffer}
    (h : inputs.map (·.spec) = f.parameters) : f.FilledBy u inputs := by
  intro q spec host hspec _ hhost _
  rw [← h, List.getElem?_map, hhost] at hspec
  obtain rfl : host.spec = spec := Option.some.inj hspec
  exact Nat.le_refl _

/-- None of the output buffers is one of the inputs. -/
def OutputBuffers.Aside (o : OutputBuffers) (inputs : List HostBuffer) : Prop :=
  ∀ host ∈ inputs, ∀ b ∈ o.buffers, b.storage ≠ host.storage

/-- What was found for the inputs is what would be found for them again, and the output buffers are
ready for its results. -/
structure Settled (s : ExecState) (inputs : List HostBuffer) (computed : Signature.Computed)
    (id : ArtifactId) (x : Executable) : Prop where
  /-- The inputs have this signature. -/
  compute : Signature.compute s.executor.statics (inputs.map s.memory.read) = .ok computed
  /-- It is the one that was used last. -/
  front : s.cache.order.head? = some computed.signature
  /-- The artifact is that of the signature. -/
  listed : s.cache.peek? computed.signature = some id
  /-- It has this executable. -/
  found : ∃ a, s.cache.get? id = some a ∧ a.executable = x
  /-- There are as many inputs as parameters. -/
  counted : inputs.length = x.function.parameters.length
  /-- There is a buffer for each result, with its spec. -/
  fitted : s.outputs.buffers.map (·.spec) = x.function.results

/-- **The group of a call is back and at rest.** -/
structure Toured (s : ExecState) (id : ArtifactId) (x : Executable) (inputs : List HostBuffer)
    (g : PipelineGroup TensorId) : Prop where
  /-- The artifact has a group to lend. -/
  lends : ∃ a p, s.cache.get? id = some a ∧ a.pipeline = some p ∧ p.free ≠ []
  /-- The tensors of the group are at their places. -/
  places : ∀ (side : Side) (q : Nat) (y : TensorId), (g.tensors side)[q]? = some y →
    s.cache.tensorAt id (.group side q g.index) = some y
  /-- It is at rest. -/
  rests : ∃ results, g.Rests s x.function inputs results

/-- The tensors of a call that reports this group are ready for another one. -/
inductive Primed (s : ExecState) (id : ArtifactId) (x : Executable) (inputs : List HostBuffer)
    (group : Option Nat) : Prop where
  /-- Tensors from slots, at rest. -/
  | slots (hkind : s.kind.isPipelined = false) (a : Artifact) (ins outs : List (Option TensorId))
    (results : List (Value UInt32)) (hrest : AtRest s id a inputs ins outs results)
  /-- A group that is back. -/
  | group (hkind : s.kind.isPipelined = true) (g : PipelineGroup TensorId)
    (hgroup : group = some g.index) (htoured : Toured s id x inputs g)

/-- A call has been run again, and nothing that can be seen has changed. -/
structure Rerun (s : ExecState) (x : Executable) (inputs : List HostBuffer) (group : Option Nat)
    (r : Report) (t : ExecState) : Prop where
  /-- No tensor was made for a slot. -/
  created : r.tensorsCreated = 0
  /-- The output buffers are equal. -/
  outputs : t.outputs = s.outputs
  /-- There are as many tensors. -/
  tensors : t.memory.tensors.size = s.memory.tensors.size
  /-- The storages of the host hold the same, unless another group has been lent that shows what it
  held. -/
  storages : (s.kind.isPipelined = true →
      r.group = group ∨ x.function.FilledBy s.executor.unit inputs) →
    ∀ j, t.memory.storage j = s.memory.storage j

/-- **A call has been made again**, and it was a hit. -/
structure Again (s : ExecState) (computed : Signature.Computed) (id : ArtifactId) (x : Executable)
    (inputs : List HostBuffer) (group : Option Nat) (r : Report) (t : ExecState) : Prop
    extends Rerun s x inputs group r t where
  /-- It was a hit for the artifact. -/
  report : r.artifact = id ∧ r.signature = computed.signature ∧ r.hit = true
  /-- The signatures in the cache are the same, in the same order. -/
  order : t.cache.order = s.cache.order

section Settled

variable {s t : ExecState} {inputs : List HostBuffer} {computed : Signature.Computed}
  {id : ArtifactId} {x : Executable} {group : Option Nat}

/-- It stays so while the artifacts and the inputs are the same. -/
theorem Settled.of_same (h : Settled s inputs computed id x) (hlater : s.Later t)
    (hsame : s.SameArtifacts t) (houtputs : t.outputs = s.outputs)
    (hstorage : ∀ host ∈ inputs,
      t.memory.storage host.storage = s.memory.storage host.storage) :
    Settled t inputs computed id x := by
  refine ⟨?_, ?_, ?_, ?_, h.counted, houtputs.symm ▸ h.fitted⟩
  · rw [hlater.statics, List.map_congr_left fun host hhost => ?_]
    · exact h.compute
    · exact congrArg (Tensor.mk host.spec) (hstorage host hhost)
  · rw [hsame.order]
    exact h.front
  · unfold Cache.peek?
    rw [hsame.index]
    exact h.listed
  · obtain ⟨a, ha, hx⟩ := h.found
    have hbare := hsame.bare id
    rw [ha, Option.map_some] at hbare
    obtain ⟨b, hb, hba⟩ := Option.map_eq_some_iff.1 hbare
    exact ⟨b, hb, (Artifact.bare_eq_iff.1 hba).2.2.1.trans hx⟩

/-- There is nothing to make ready. -/
theorem Settled.prepared_eq (h : Settled s inputs computed id x) :
    s.prepared x.function.results = s := by
  have hself := OutputBuffers.refit_self s.outputs.buffers s.memory
  rw [h.fitted] at hself
  have hprepare : s.outputs.prepare x.function.results s.memory = ((0, s.outputs), s.memory) := by
    rw [OutputBuffers.prepare_eq, hself]
  unfold ExecState.prepared
  rw [hprepare]

/-- There is a buffer for each result. -/
theorem Settled.length_buffers (h : Settled s inputs computed id x) :
    s.outputs.buffers.length = x.function.results.length := by
  rw [← h.fitted, List.length_map]

/-- The artifact has the executable. -/
theorem Settled.executable_eq (h : Settled s inputs computed id x) {a : Artifact}
    (ha : s.cache.get? id = some a) : a.executable = x := by
  obtain ⟨b, hb, hx⟩ := h.found
  obtain rfl := Option.some.inj (ha.symm.trans hb)
  exact hx

/-- The tensors stay ready while memory is as it was and no less is vouched for. -/
theorem Primed.after (h : Primed s id x inputs group) (hlater : s.Later t)
    (hcache : t.cache = s.cache) (houtputs : t.outputs = s.outputs) (hmemory : t.memory = s.memory)
    (hfresh : ∀ host ∈ inputs, s.platform.isFresh s.executor.tracker host.storage id = true →
      t.platform.isFresh s.executor.tracker host.storage id = true) :
    Primed t id x inputs group := by
  cases h with
  | slots hkind a ins outs results hrest =>
    exact .slots (hlater.kind_eq.symm ▸ hkind) a ins outs results
      (hrest.after hlater hcache houtputs (hmemory.symm ▸ .refl _) hfresh)
  | group hkind g hgroup htoured =>
    obtain ⟨results, hrests⟩ := htoured.rests
    exact .group (hlater.kind_eq.symm ▸ hkind) g hgroup ⟨hcache.symm ▸ htoured.lends,
      hcache.symm ▸ htoured.places, results, hrests.of_later hlater houtputs hmemory⟩

end Settled

namespace ExecM

variable {P : List Tensor → Prop} {s t : ExecState} {inputs : List HostBuffer}
  {computed : Signature.Computed} {id : ArtifactId} {a : Artifact} {x : Executable}
  {group : Option Nat} {found : Lookup} {g : PipelineGroup TensorId} {depth : Nat}

/-! ### What a call leaves -/

/-- **A call with a group that succeeds** leaves the group at rest in its pipeline, unless an output
buffer is one of the inputs. -/
theorem ends_runPipelined_toured (h : s.AtHome) (howns : s.cache.Owns s.memory)
    (ha : s.cache.get? id = some a) (hkind : s.kind = .recording .pipelined)
    (hseparate : s.outputs.Separate s.memory) (haside : s.outputs.Aside inputs)
    (hbuffers : s.outputs.buffers.length = a.executable.function.results.length)
    (hcount : a.executable.function.parameters.length = inputs.length)
    (hartifact : found.artifact = id) (hexecutable : found.executable = a.executable) :
    Ends (runPipelined found inputs s)
      (fun r t => ∃ g, r.group = some g.index ∧ Toured t id a.executable inputs g)
      fun _ _ => True := by
  unfold runPipelined
  rw [ends_bind, hartifact]
  refine ((tenancy_acquireGroup h howns id).and (spares_acquireGroup h id)).mono (fun g t ht => ?_)
    fun _ _ _ => trivial
  obtain ⟨⟨ht, b, p, hb, hacquired⟩, hspares, -⟩ := ht
  obtain rfl := Option.some.inj (ha.symm.trans hb)
  have hg := hacquired.fits_group ha ht.within.owns
  rw [ends_bind, ends_observe]
  refine (ends_runOnGroup_over (hexecutable.symm ▸ hg) (hspares.later.kind_eq.trans hkind)
    (hspares.outputs.symm ▸ hseparate.of_extends hspares.later.platform.memory)
    (hexecutable.symm ▸ hcount)).mono (fun r u hu => ?_) fun e u _ => ?_
  · rw [hexecutable] at hu
    obtain ⟨-, hgroup, hcarries, results, hran⟩ := hu
    -- The group is left as the run needs it, and returning it changes none of its tensors.
    have hrests : g.Rests u a.executable.function inputs results :=
      Ran.rests hran hg hcarries (by rw [hspares.outputs, hbuffers]) fun host hhost hreceives => by
        obtain ⟨q, c, hc, -, hstorage⟩ := hreceives
        exact haside host hhost c (List.mem_of_getElem? (hspares.outputs ▸ hc)) hstorage
    have hcache : u.cache = t.cache := hran.only.cache
    rw [ends_bind]
    refine (returned_returnGroup id g.index).mono (fun _ v hv => ?_) fun _ _ _ => trivial
    obtain ⟨c, p', q, hc, hp', hreturned, rfl⟩ := hv
    rw [ends_ofExcept]
    refine ⟨fun r' hr' => ?_, fun e he => by cases he⟩
    obtain rfl := Except.ok.inj hr'
    refine ⟨g, hgroup, ⟨c.withPipeline q, q, ?_, rfl, ?_⟩, fun side k y hy => ?_, results,
      hrests.of_later { ExecState.Later.refl u with } rfl rfl⟩
    · change (u.cache.update id (c.withPipeline q)).get? id = _
      rw [Cache.get?_update, if_pos rfl, hc]
      rfl
    · rw [hreturned.free]
      exact List.concat_ne_nil _ _
    · rw [Cache.tensorAt_samePipeline hc hp' hreturned.rows rfl, hcache]
      exact hacquired.tensorAt ha hy
  · exact ends_bind_of_forall fun _ _ =>
      ends_ofExcept.2 ⟨fun _ he => (by cases he), fun _ _ => trivial⟩

/-- **Running** leaves tensors that are ready for another call. -/
theorem ends_runOnSlots_primed (h : s.AtHome) (howns : s.cache.Owns s.memory)
    (ha : s.cache.get? id = some a) (hkind : s.kind.isPipelined = false)
    (hseparate : s.outputs.Separate s.memory) (haside : s.outputs.Aside inputs)
    (hartifact : found.artifact = id) (hexecutable : found.executable = a.executable) :
    Ends (runOnSlots found inputs s) (fun r t => Primed t id a.executable inputs r.group)
      fun _ _ => True :=
  ((ends_runOnSlots_atRest h howns ha hseparate haside hartifact hexecutable).and
    (keeps_runOnSlots (T := ExecState.Later) found inputs s)).mono (fun r t ht => by
      obtain ⟨⟨b, ins, outs, results, hrest⟩, hlater⟩ := ht
      exact .slots (hlater.kind_eq.symm ▸ hkind) b ins outs results hrest) fun _ _ _ => trivial

/-- When the output buffers are ready and none of them is an input, all is settled for the call. -/
theorem settled_prepared (ha : s.cache.get? id = some a)
    (hcompute : Signature.compute s.executor.statics (inputs.map s.memory.read) = .ok computed)
    (hfront : s.cache.order.head? = some computed.signature)
    (hlisted : s.cache.peek? computed.signature = some id)
    (hlength : inputs.length = a.executable.function.parameters.length)
    (haside : (s.prepared a.executable.function.results).outputs.Aside inputs) :
    Settled (s.prepared a.executable.function.results) inputs computed id a.executable := by
  refine ⟨?_, hfront, hlisted, ⟨a, ha, rfl⟩, hlength,
    (s.refitted_prepared a.executable.function.results).specs_eq⟩
  -- The inputs are as they were, since only buffers of the results have been made.
  refine (congrArg (Signature.compute s.executor.statics) ?_).trans hcompute
  exact List.map_congr_left fun host hhost =>
    congrArg (Tensor.mk host.spec) (OutputBuffers.storage_refit _ (haside host hhost))

/-- **Running with a group** changes what receives a result and nothing else of the host, and leaves
the group ready. -/
theorem ends_runPipelined_ready (h : s.AtHome) (howns : s.cache.Owns s.memory)
    (ha : s.cache.get? id = some a) (hkind : s.kind.isPipelined = true)
    (hseparate : s.outputs.Separate s.memory) (hcoherent : s.cache.Coherent depth)
    (hdepth : s.executor.config.pipelineDepth = depth)
    (hsettled : s.outputs.Aside inputs → Settled s inputs computed id a.executable)
    (hartifact : found.artifact = id) (hexecutable : found.executable = a.executable) :
    Ends (runPipelined found inputs s)
      (fun r t => s.Touches s.Receives t ∧ s.SameArtifacts t ∧
        (s.outputs.Aside inputs → Primed t id a.executable inputs r.group)) fun _ _ => True := by
  have hprimed : s.outputs.Aside inputs → Ends (runPipelined found inputs s)
      (fun r t => Primed t id a.executable inputs r.group) fun _ _ => True := fun haside => by
    refine ((ends_runPipelined_toured h howns ha (of_decide_eq_true hkind) hseparate haside
      (hsettled haside).length_buffers (hsettled haside).counted.symm hartifact hexecutable).and
      (keeps_runPipelined (T := ExecState.Later) found inputs s)).mono (fun r t ht => ?_)
      fun _ _ _ => trivial
    obtain ⟨⟨g, hgroup, htoured⟩, hlater⟩ := ht
    exact .group (hlater.kind_eq.symm ▸ hkind) g hgroup htoured
  exact ((touches_runPipelined h hkind hcoherent hdepth found inputs).and
    ((keeps_runPipelined found inputs s).and (Ends.of_imp hprimed))).mono (fun _ _ ht => ht)
    fun _ _ _ => trivial

/-- **Running with tensors from slots** does so too. -/
theorem ends_runOnSlots_ready (h : s.AtHome) (howns : s.cache.Owns s.memory)
    (ha : s.cache.get? id = some a) (hkind : s.kind.isPipelined = false)
    (hseparate : s.outputs.Separate s.memory) (hartifact : found.artifact = id)
    (hexecutable : found.executable = a.executable) :
    Ends (runOnSlots found inputs s)
      (fun r t => s.Touches s.Receives t ∧ s.SameArtifacts t ∧
        (s.outputs.Aside inputs → Primed t id a.executable inputs r.group)) fun _ _ => True :=
  ((touches_runOnSlots h found inputs).and ((keeps_runOnSlots found inputs s).and
    (Ends.of_imp fun haside => ends_runOnSlots_primed h howns ha hkind hseparate haside hartifact
      hexecutable))).mono (fun _ _ ht => ht) fun _ _ _ => trivial

/-- **Telling the tracker of the outputs and counting the call** unsettles nothing, unless an output
buffer is one of the inputs. -/
theorem ends_conclude_primed {r : Report}
    (hsettled : s.outputs.Aside inputs → Settled s inputs computed id x)
    (ht : s.Touches s.Receives t) (hsame : s.SameArtifacts t)
    (hprimed : s.outputs.Aside inputs → Primed t id x inputs r.group) :
    Ends ((do
        invalidateOutputs
        count fun c => { c with executions := c.executions + 1 }
        return r) t)
      (fun r u => u.outputs.Aside inputs → Settled u inputs computed id x ∧
        Primed u id x inputs r.group) fun _ _ => True := by
  rw [ends_bind]
  refine ends_invalidateOutputs.mono (fun _ u hu => ?_) fun _ _ _ => trivial
  obtain ⟨hlater, hcache, houtputs, hmemory, -, hfresh⟩ := hu
  rw [ends_bind, ends_count, ends_pure]
  intro haside
  replace haside : s.outputs.Aside inputs := by
    rw [← ht.outputs, ← houtputs]
    exact haside
  have hcounted := ExecState.untouched_stats u
    { u.executor.stats with executions := u.executor.stats.executions + 1 }
  refine ⟨(((hsettled haside).of_same ht.later hsame ht.outputs fun host hhost => ?_).of_same
    hlater (.of_cache_eq hcache) houtputs fun _ _ => by rw [hmemory]).of_same hcounted.later
    (.of_cache_eq rfl) rfl fun _ _ => rfl, ?_⟩
  · refine ht.storages _ fun hreceives => ?_
    obtain ⟨q, c, hc, -, heq⟩ := hreceives
    exact haside host hhost c (List.mem_of_getElem? hc) heq
  · refine ((hprimed haside).after hlater hcache houtputs hmemory fun host hhost hvouched =>
      ?_).after hcounted.later rfl rfl rfl fun _ _ hvouched => hvouched
    refine (hfresh _ _).2 ⟨hvouched, fun q c hc _ => ?_⟩
    exact haside host hhost c (List.mem_of_getElem? (ht.outputs ▸ hc))

/-- **What has been found is left settled**, and the tensors ready. -/
theorem ends_runFound_primed (h : s.AtHome) (howns : s.cache.Owns s.memory)
    (hseparate : s.outputs.Separate s.memory) (hcoherent : s.cache.Coherent depth)
    (hdepth : s.executor.config.pipelineDepth = depth) (ha : s.cache.get? id = some a)
    (hcompute : Signature.compute s.executor.statics (inputs.map s.memory.read) = .ok computed)
    (hfront : s.cache.order.head? = some computed.signature)
    (hlisted : s.cache.peek? computed.signature = some id) (hartifact : found.artifact = id)
    (hexecutable : found.executable = a.executable) :
    Ends (runFound found inputs s)
      (fun r t => t.outputs.Aside inputs → Settled t inputs computed id a.executable ∧
        Primed t id a.executable inputs r.group) fun _ _ => True := by
  unfold runFound
  dsimp only
  split
  · rw [ends_bind, ends_fail]
    trivial
  rename_i hlength
  rw [not_not, hexecutable] at hlength
  rw [ends_bind, ends_prepareOutputs, hexecutable]
  have hsettled := settled_prepared ha hcompute hfront hlisted hlength
  have hlater := s.later_prepared a.executable.function.results
  have hhome : (s.prepared a.executable.function.results).AtHome := h.of_later hlater rfl
  have howns' := (Tenancy.of_eq howns hlater rfl
    (s.refitted_prepared a.executable.function.results).tensors).within.owns
  have hseparate' := ExecState.separate_prepared hseparate a.executable.function.results
  rw [ends_bind, ends_kind]
  split
  · rename_i hpipelined
    rw [ends_bind]
    exact (ends_runPipelined_ready hhome howns' ha hpipelined hseparate'
      hcoherent hdepth hsettled hartifact hexecutable).mono
      (fun _ _ ht => ends_conclude_primed hsettled ht.1 ht.2.1 ht.2.2) fun _ _ _ => trivial
  · rename_i hpipelined
    rw [ends_bind]
    exact (ends_runOnSlots_ready hhome howns' ha (Bool.eq_false_iff.2 hpipelined) hseparate'
      hartifact hexecutable).mono
      (fun _ _ ht => ends_conclude_primed hsettled ht.1 ht.2.1 ht.2.2) fun _ _ _ => trivial

/-- **A call that succeeds** leaves everything settled, unless an output buffer is one of the
inputs. -/
theorem ends_execute_primed (hcompiled : Compiled P s) (h : s.AtHome)
    (howns : s.cache.Owns s.memory) (hseparate : s.outputs.Separate s.memory)
    (hcoherent : s.cache.Coherent depth) (hdepth : s.executor.config.pipelineDepth = depth)
    (inputs : List HostBuffer) :
    Ends (execute inputs s)
      (fun r t => t.outputs.Aside inputs → ∃ computed x, r.signature = computed.signature ∧
        Settled t inputs computed r.artifact x ∧ Primed t r.artifact x inputs r.group)
      fun _ _ => True := by
  rw [execute_eq, ends_bind]
  refine ((ends_getExecutable hcompiled inputs).and ((tenancy_getExecutable hcompiled howns inputs).and
    (spares_getExecutable hcompiled h inputs))).mono (fun found t ht => ?_) fun _ _ _ => trivial
  obtain ⟨⟨computed, a, hcompute, hfound⟩, ht, hspares⟩ := ht
  have hmemory : t.memory = s.memory := hfound.memory
  have hlisted : t.cache.peek? computed.signature = some found.artifact := by
    rw [← hfound.signature_eq]
    exact (hfound.consistent.kept _ _ hfound.found).2
  have hfront : t.cache.order.head? = some computed.signature := by
    rw [hfound.order]
    split
    · exact Cache.head?_touch _ _
    · rfl
  refine ((ends_runFound_primed hspares.home ht.within.owns
    (by rw [hfound.outputs, hmemory]; exact hseparate) (hfound.keepsLent.coherent hcoherent)
    (by rw [hfound.later.config, hdepth]) hfound.found
    (by rw [hfound.later.statics, hmemory, hcompute]) hfront hlisted rfl hfound.executable).and
    (ends_runFound_summary found inputs t)).mono (fun r u hu haside => ?_) fun _ _ _ => trivial
  obtain ⟨hu, hsummary⟩ := hu
  have hreport := Option.some.inj hsummary
  have hartifact : r.artifact = found.artifact := congrArg Prod.fst hreport
  obtain ⟨hsettled, hprimed⟩ := hu haside
  rw [hartifact]
  exact ⟨computed, a.executable, (congrArg (·.2.1) hreport).trans hfound.signature, hsettled, hprimed⟩


/-! ### The call made again -/

/-- **The executable is found again**, and nothing happens. -/
theorem ends_getExecutable_again (h : Settled s inputs computed id x) :
    Ends (getExecutable inputs s)
      (fun l t => l = ⟨id, x, computed.signature, true⟩ ∧ s.Untouched t) fun _ _ => False := by
  obtain ⟨a, ha, hx⟩ := h.found
  have hlookup : s.executor.cache.lookup computed.signature = (some id, s.executor.cache) := by
    unfold Cache.lookup Cache.touch
    rw [show s.executor.cache.peek? computed.signature = some id from h.listed]
    dsimp only
    rw [if_pos h.front]
  unfold getExecutable computeSignature
  rw [ends_bind, ends_bind, ends_get, ends_ofExcept]
  refine ⟨fun c hc => ?_, fun e he => ?_⟩
  · obtain rfl := Except.ok.inj ((mapError_eq_ok.1 hc).symm.trans h.compute)
    rw [ends_bind, ends_get, hlookup]
    dsimp only
    rw [ends_bind, ends_set]
    unfold useCached
    rw [ends_bind, ends_artifact_of_some (s := { s with executor.cache := s.executor.cache }) ha,
      ends_bind, ends_count, ends_bind, ends_changePlatform, ends_pure, hx]
    exact ⟨rfl, (ExecState.untouched_stats s _).trans
      (ExecState.untouched_platform (s.platform.later_cacheEvent _) rfl rfl rfl)⟩
  · rw [show s.platform.memory.read = s.memory.read from rfl, h.compute] at he
    cases he

/-- **A group is lent** by a pipeline that has one to lend, and memory stays as it is. -/
theorem ends_acquireGroup_free (h : s.AtHome) (ha : s.cache.get? id = some a)
    (hkind : s.kind.isPipelined = true) {p : Pipeline TensorId} (hp : a.pipeline = some p)
    (hfree : p.free ≠ []) :
    Ends (acquireGroup id s)
      (fun g t => t.memory = s.memory ∧ (∀ i place, t.cache.tensorAt i place =
        s.cache.tensorAt i place) ∧ ∃ q, Acquired s id a g q t) fun _ _ => False := by
  unfold acquireGroup
  rw [ends_bind, ends_executor, ends_bind, ends_kind, hkind, Bool.not_true,
    if_neg Bool.false_ne_true, ends_bind, ends_artifact_of_some ha, hp]
  refine (ends_lend (R := fun u => u.memory = s.memory) (.of_untouched (.refl s)) rfl
    ((h id a ha).pipeline p hp) (fun _ _ _ _ _ _ hmemory => hmemory) s.executor).mono
    (fun g t ht => ?_) fun _ _ ht => hfree ht.2.1
  obtain ⟨hmemory, q, hlent, hacquired⟩ := ht
  exact ⟨hmemory, Cache.tensorAt_samePipeline ha hp hlent.rows hacquired.cache, q, hacquired⟩

/-- **Another group shows nothing else** than the group at rest, if it is the same one or the inputs
fill their tensors. -/
theorem storage_eq_of_ran {f : Function} {g' : PipelineGroup TensorId}
    {results results' : List (Value UInt32)} (h : g.Rests s f inputs results)
    (hran : Ran s f g' inputs results' t) (hg' : g'.Fits s.memory f)
    (ha : s.cache.get? id = some a) (hf : a.executable.function = f) (hblank : s.Blank)
    (hplaces : ∀ (side : Side) (q : Nat) (y : TensorId), (g.tensors side)[q]? = some y →
      s.cache.tensorAt id (.group side q g.index) = some y)
    (hplaces' : ∀ (side : Side) (q : Nat) (y : TensorId), (g'.tensors side)[q]? = some y →
      s.cache.tensorAt id (.group side q g'.index) = some y)
    (hkind : s.kind = .recording .pipelined) (hcount : f.parameters.length = inputs.length)
    (hbuffers : s.outputs.buffers.length = f.results.length)
    (hsame : g'.index = g.index ∨ f.FilledBy s.executor.unit inputs) (j : StorageId) :
    t.memory.storage j = s.memory.storage j := by
  refine Ran.storage_eq h hran hg' hkind hcount hbuffers
    (fun q spec host y z hspec hdtype hhost hy hz => ?_) (fun p y z hy hz => ?_) j
  · obtain ⟨hy', hposition⟩ := visible_eq_some.1 hy
    obtain ⟨hz', -⟩ := visible_eq_some.1 hz
    have hstart := h.fed q host y hhost hy
    rcases hsame with hindex | hfilled
    · -- The two tensors are at the same place.
      have hat := hplaces' .input q z hz'
      rw [hindex, hplaces .input q y hy'] at hat
      obtain rfl := Option.some.inj hat
      exact Bytes.onto_eq_self hstart
    · -- The copy fills the whole tensor, so it does not matter what either tensor held before.
      have hfull := hfilled q spec host hspec hdtype hhost hposition
      have hneeded : ∀ {g : PipelineGroup TensorId} {y : TensorId}, g.Fits s.memory f →
          g.inputs[q]? = some y → (s.memory.tensor y).spec = spec := fun hg hy => by
        obtain ⟨spec', hspec', -, hyspec, -⟩ := hg.tensors .input q _ hy
        exact hyspec.trans (Option.some.inj (hspec'.symm.trans hspec))
      have hcopy : s.memory.copy z host = s.memory.copy y host := by
        unfold Memory.copy Memory.needed
        rw [hneeded hg' hz', hneeded h.fits hy']
      have hlength : spec.byteLength ≤ (s.memory.copy y host).length := by
        rw [(h.carries.copies q host y hhost hy).length_copy]
        unfold Memory.needed
        rwa [hneeded h.fits hy']
      rw [hcopy, Bytes.onto_eq_left (by
        rwa [hg'.length_contents (show (g'.tensors .input)[q]? = some z from hz') hspec])]
      exact hstart.eq_of_length_le (by
        rwa [h.fits.length_contents (show (g.tensors .input)[q]? = some y from hy') hspec])
  · -- Both tensors are blank there, and they are as long.
    have hzeros : ∀ {g : PipelineGroup TensorId} {y : TensorId}, g.outputs[p]? = some y →
        s.cache.tensorAt id (.group .output p g.index) = some y →
        ∀ b ∈ (s.memory.contents y).drop (s.executor.unit.span f p), b = 0 := fun _ hat => by
      rw [← hf]
      exact (hblank id a p _ _ ha hat).zeros
    obtain ⟨spec, hspec, -⟩ := hg'.tensors .output p z hz
    rw [List.eq_replicate_of_mem (hzeros hz (hplaces' .output p z hz)),
      List.eq_replicate_of_mem (hzeros hy (hplaces .output p y hy)), List.length_drop,
      List.length_drop, hg'.length_contents hz hspec, h.fits.length_contents hy hspec]

/-- **A call with a group is made again**, perhaps with another group. -/
theorem ends_runPipelined_again (h : s.AtHome) (howns : s.cache.Owns s.memory)
    (hblank : s.Blank) (hseparate : s.outputs.Separate s.memory)
    (hkind : s.kind = .recording .pipelined) (hsettled : Settled s inputs computed id x)
    (htoured : Toured s id x inputs g) (hartifact : found.artifact = id)
    (hexecutable : found.executable = x) :
    Ends (runPipelined found inputs s)
      (fun r t => Rerun s x inputs (some g.index) r t) fun _ _ => False := by
  obtain ⟨a, p, ha, hp, hfree⟩ := htoured.lends
  obtain ⟨results, hrests⟩ := htoured.rests
  have hx := hsettled.executable_eq ha
  unfold runPipelined
  rw [ends_bind, hartifact]
  refine ((ends_acquireGroup_free h ha (by rw [hkind]; rfl) hp hfree).and
    (tenancy_acquireGroup h howns id)).mono (fun g' t ht => ?_) fun _ _ ht => ht.1
  obtain ⟨⟨hmemory, hplaces, q, hacquired⟩, ht, -⟩ := ht
  have hg' := hacquired.fits_group ha ht.within.owns
  have hlater := hacquired.later
  have hfound : t.cache.get? id = some (a.withPipeline q) := by
    rw [hacquired.cache, Cache.get?_update, if_pos rfl, ha]
    rfl
  -- Acquiring the group again changes no tensor, so it still holds what the first run left.
  have hrests' := hrests.of_later hlater hacquired.outputs hmemory
  rw [hx] at hg'
  have hcarries : g'.Carries t x.function inputs :=
    hrests'.carries.of_fits hrests'.fits hg' rfl rfl fun _ _ => rfl
  rw [ends_bind, ends_observe]
  refine (ends_runOnGroup_over (hexecutable.symm ▸ hg') (hlater.kind_eq.trans hkind)
    (by rw [hacquired.outputs, hmemory]; exact hseparate)
    (hexecutable.symm ▸ hsettled.counted.symm)).mono (fun r u hu => ?_)
    fun _ u hu => (hu.1 (hexecutable.symm ▸ hcarries)).elim
  rw [hexecutable] at hu
  obtain ⟨hcreated, hgroup, -, results', hran⟩ := hu
  have hcache : u.cache = t.cache := hran.only.cache
  rw [ends_bind]
  refine (returned_returnGroup id g'.index).mono (fun _ v hv => ?_) fun _ v hv => ?_
  · obtain ⟨-, -, -, -, -, -, rfl⟩ := hv
    rw [ends_ofExcept]
    refine ⟨fun r' hr' => ?_, fun e he => by cases he⟩
    obtain rfl := Except.ok.inj hr'
    refine ⟨hcreated, hran.only.outputs.trans hacquired.outputs, ?_, fun hsame j => ?_⟩
    · change u.memory.tensors.size = _
      rw [hran.size, hmemory]
    · refine (storage_eq_of_ran hrests' hran hg' hfound (congrArg Executable.function hx)
        (ht.blank hblank) (fun side k y hy => (hplaces _ _).trans (htoured.places side k y hy))
        (fun side k y hy => hacquired.tensorAt ha hy) (hlater.kind_eq.trans hkind)
        hsettled.counted.symm (by rw [hacquired.outputs, hsettled.length_buffers]) ?_ j).trans ?_
      · rw [hlater.unit]
        exact (hsame (by rw [hkind]; rfl)).imp_left fun hindex =>
          Option.some.inj (hgroup.symm.trans hindex)
      · rw [hmemory]
  · exact hv.2 (a.withPipeline q) q (hcache ▸ hfound) rfl hacquired.flag

/-- **What follows when the executable has been found again.** -/
theorem ends_runFound_again (h : s.AtHome) (howns : s.cache.Owns s.memory) (hblank : s.Blank)
    (hseparate : s.outputs.Separate s.memory) (hsettled : Settled s inputs computed id x)
    (hprimed : Primed s id x inputs group) (hartifact : found.artifact = id)
    (hexecutable : found.executable = x) :
    Ends (runFound found inputs s) (fun r t => Rerun s x inputs group r t) fun _ _ => False := by
  have hend : ∀ (r : Report) (t : ExecState), Rerun s x inputs group r t → Ends ((do
      invalidateOutputs
      count fun c => { c with executions := c.executions + 1 }
      return r) t) (fun r u => Rerun s x inputs group r u) fun _ _ => False := fun r t ht => by
    rw [ends_bind]
    refine ends_invalidateOutputs.mono (fun _ u hu => ?_) fun _ _ hu => hu
    obtain ⟨-, -, houtputs, hmemory, -⟩ := hu
    rw [ends_bind, ends_count, ends_pure]
    refine ⟨ht.created, houtputs.trans ht.outputs, ?_, fun hsame j => ?_⟩
    · exact (congrArg (·.tensors.size) hmemory).trans ht.tensors
    · exact (congrArg (·.storage j) hmemory).trans (ht.storages hsame j)
  unfold runFound
  dsimp only
  rw [hexecutable, if_neg (not_not.2 hsettled.counted), ends_bind, ends_prepareOutputs,
    hsettled.prepared_eq, ends_bind, ends_kind]
  cases hprimed with
  | slots hkind a ins outs results hrest =>
    rw [if_neg (by rw [hkind]; exact Bool.false_ne_true), ends_bind]
    refine (ends_runOnSlots_idle hrest hartifact
      (hexecutable.trans (hsettled.executable_eq hrest.found).symm)).mono (fun r t ht => ?_)
      fun _ _ ht => ht
    obtain ⟨hcreated, -, hidle⟩ := ht
    exact hend r t ⟨hcreated, hidle.outputs, hidle.memory.tensors, fun _ => hidle.memory.storage⟩
  | group hkind g hgroup htoured =>
    subst hgroup
    rw [if_pos hkind, ends_bind]
    exact (ends_runPipelined_again h howns hblank hseparate (of_decide_eq_true hkind) hsettled
      htoured hartifact hexecutable).mono hend fun _ _ ht => ht

/-- **A call that finds everything settled** is a hit, and nothing that can be seen changes. -/
theorem ends_execute_again (h : s.AtHome) (howns : s.cache.Owns s.memory) (hblank : s.Blank)
    (hseparate : s.outputs.Separate s.memory) (hsettled : Settled s inputs computed id x)
    (hprimed : Primed s id x inputs group) :
    Ends (execute inputs s) (fun r t => Again s computed id x inputs group r t)
      fun _ _ => False := by
  rw [execute_eq, ends_bind]
  refine (ends_getExecutable_again hsettled).mono (fun found t ht => ?_) fun _ _ ht => ht
  obtain ⟨hfound, ht⟩ := ht
  have hmemory : t.memory = s.memory := ht.memory
  have hprimed' := hprimed.after ht.later ht.cache ht.outputs hmemory fun host _ hfresh => by
    unfold Platform.isFresh
    rw [ht.registries]
    exact hfresh
  have hsettled' := hsettled.of_same ht.later (.of_cache_eq ht.cache) ht.outputs
    fun _ _ => by rw [hmemory]
  have hblank' : t.Blank := (Tenancy.of_eq howns ht.later ht.cache (by rw [hmemory])).blank hblank
  refine ((ends_runFound_again (h.of_later ht.later ht.cache)
    (by rw [ht.cache, hmemory]; exact howns) hblank' (by rw [ht.outputs, hmemory]; exact hseparate)
    hsettled' hprimed' (by rw [hfound]) (by rw [hfound])).and
    ((ends_runFound_summary found inputs t).and
      (keeps_runFound (T := ExecState.SameArtifacts) found inputs t))).mono (fun r u hu => ?_)
    fun _ _ hu => hu.1
  obtain ⟨hu, hsummary, hsame⟩ := hu
  have hreport := Option.some.inj hsummary
  rw [hfound] at hreport
  refine ⟨⟨hu.created, hu.outputs.trans ht.outputs, hu.tensors.trans (by rw [hmemory]),
    fun hcond j => ?_⟩, ⟨?_, ?_, ?_⟩, hsame.order.trans (by rw [ht.cache])⟩
  · rw [← hmemory]
    refine hu.storages (fun hkind => ?_) j
    rw [ht.later.unit]
    exact hcond (ht.later.kind_eq ▸ hkind)
  · exact congrArg Prod.fst hreport
  · exact congrArg (·.2.1) hreport
  · exact congrArg (·.2.2) hreport

end ExecM

end TensorJit
