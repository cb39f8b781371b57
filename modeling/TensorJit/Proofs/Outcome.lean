import TensorJit.Proofs.Execution
import TensorJit.Proofs.Lending
import TensorJit.Proofs.Recency

/-!
# What a call comes to

If nothing stands in the way of a call but the inputs themselves (`ExecState.Willing`), it comes to
one of three things (`Outcome`), and which one it is has nothing to do with where tensors are:

| | why | cache afterwards |
|---|---|---|
| refused | no signature, or lowering fails | as before |
| failed | evaluation fails | the signature in front |
| done | | the signature in front |

So the outcome is **a function of the unit and of what the inputs hold** (`ExecutionUnit.outcome`).
On the host a call changes its output buffers and nothing else, and they stay as long as their specs
say (`ExecState.HostKept`), which is what the next call asks for.
-/

namespace TensorJit

open ExecState (Sound)

/-- What a call comes to. -/
inductive Outcome where
  /-- There is no executable for the inputs. -/
  | refused
  /-- There is one, but calling it fails. -/
  | failed (signature : Signature)
  /-- It gives results. -/
  | done (signature : Signature) (results : List (Value UInt32))

/-- What a call of a unit comes to, for what the inputs hold in a memory. -/
def ExecutionUnit.outcome (u : ExecutionUnit) (flags : StaticInputs) (m : Memory)
    (inputs : List HostBuffer) : Outcome :=
  match Signature.compute flags (inputs.map m.read) with
  | .error _ => .refused
  | .ok computed =>
    match u.lowered computed with
    | .error _ => .refused
    | .ok f =>
      match f.evaluate .binary32 (u.arguments m inputs) with
      | .error _ => .failed computed.signature
      | .ok results => .done computed.signature results

/-- The signatures that a cache of some depth lists afterwards, if it lists these before. -/
def Outcome.order (depth : Nat) (before : List Signature) : Outcome → List Signature
  | refused => before
  | failed signature | done signature _ => recent depth (signature :: before)

section Outcome

variable {u : ExecutionUnit} {flags : StaticInputs} {m : Memory} {inputs : List HostBuffer}
  {computed : Signature.Computed} {f : Function}

theorem ExecutionUnit.outcome_eq_refused
    (h : ∀ computed f, Signature.compute flags (inputs.map m.read) = .ok computed →
      u.lowered computed ≠ .ok f) : u.outcome flags m inputs = .refused := by
  unfold ExecutionUnit.outcome
  cases hcompute : Signature.compute flags (inputs.map m.read) with
  | error _ => rfl
  | ok computed =>
    dsimp only
    cases hlowered : u.lowered computed with
    | error _ => rfl
    | ok f => exact absurd hlowered (h computed f hcompute)

theorem ExecutionUnit.outcome_eq_failed {fault : EvalFault}
    (hcompute : Signature.compute flags (inputs.map m.read) = .ok computed)
    (hlowered : u.lowered computed = .ok f)
    (hevaluate : f.evaluate .binary32 (u.arguments m inputs) = .error fault) :
    u.outcome flags m inputs = .failed computed.signature := by
  simp only [ExecutionUnit.outcome, hcompute, hlowered, hevaluate]

/-- Buffers without positions bound elsewhere hold all results. -/
theorem ExecutionUnit.Holds.bytes_eq {o : OutputBuffers} {results : List (Value UInt32)}
    (h : u.Holds o m f results) (hexternal : u.externalOutputs = []) :
    o.buffers.map (fun b => m.storage b.storage) =
      results.map fun v => Tensor.bytesOfWords v.data := by
  refine List.ext_getElem (by simp [h.length]) fun p hp hp' => ?_
  rw [List.length_map] at hp hp'
  rw [List.getElem_map, List.getElem_map]
  exact h.bytes p _ _ (by rw [hexternal]; rfl) (List.getElem?_eq_getElem hp)
    (List.getElem?_eq_getElem hp')

/-- A call that has computed what it is to compute was done. -/
theorem Executor.Computes.outcome {e : Executor} {σ : Signature} {o : OutputBuffers} {n : Memory}
    (h : e.Computes inputs m σ o n) : ∃ results,
      e.unit.outcome e.statics m inputs = .done σ results ∧ (e.unit.externalOutputs = [] →
        o.buffers.map (fun b => n.storage b.storage) =
          results.map fun v => Tensor.bytesOfWords v.data) := by
  obtain ⟨computed, f, results, hcompute, rfl, hlowered, hevaluate, hholds⟩ := h
  refine ⟨results, ?_, hholds.bytes_eq⟩
  simp only [ExecutionUnit.outcome, hcompute, hlowered, hevaluate]

end Outcome

namespace ExecState

variable {s t : ExecState} {id : ArtifactId} {a : Artifact}

/-- Nothing stands in the way of a call of what the cache has: the backend has not been told to fail,
and no group of an artifact is lent. -/
structure Unhindered (s : ExecState) : Prop where
  /-- The backend has not been told to fail. -/
  quiet : s.device.backend.Quiet
  /-- There are groups. -/
  depth_pos : 1 ≤ s.executor.config.pipelineDepth
  /-- The pipelines are coherent. -/
  coherent : s.cache.Coherent s.executor.config.pipelineDepth
  /-- No group is lent. -/
  idle : ∀ id a, s.cache.get? id = some a → a.lent = []

theorem Unhindered.of_later (h : s.Unhindered) (hlater : s.Later t)
    (hkept : s.KeepsLent s.executor.config.pipelineDepth t) : t.Unhindered where
  quiet := by
    unfold device Platform.device
    rw [hlater.backend]
    exact hlater.platform.quiet _ h.quiet
  depth_pos := hlater.config ▸ h.depth_pos
  coherent := hlater.config ▸ hkept.coherent h.coherent
  idle id b hb := by
    rcases hkept.lent id b hb with ⟨a, ha, hlent⟩ | ⟨-, hlent⟩
    · rw [hlent, h.idle id a ha]
    · exact hlent

/-- Nothing but the inputs stands in the way of a call: in addition, the backend is registered. -/
structure Willing (s : ExecState) : Prop extends s.Unhindered where
  /-- It is registered. -/
  registered : s.platform.isRegistered s.executor.unit.backendName = true

theorem Willing.of_later (h : s.Willing) (hlater : s.Later t)
    (hkept : s.KeepsLent s.executor.config.pipelineDepth t) : t.Willing where
  toUnhindered := h.toUnhindered.of_later hlater hkept
  registered := by
    unfold Platform.isRegistered
    rw [hlater.platform.registered, hlater.unit]
    exact h.registered

/-- There is a group to lend if there are positions on both sides. -/
theorem Unhindered.canLend (h : s.Unhindered) (hkind : s.kind.isPipelined = true)
    (ha : s.cache.get? id = some a) (hparameters : a.executable.function.parameters ≠ [])
    (hresults : a.executable.function.results ≠ []) : ¬ ExecM.CannotLend s id := by
  rintro (hnot | hnone | ⟨b, hb, ⟨-, hnil | hnil | hzero⟩ | ⟨p, hp, hfree⟩⟩)
  · rw [hkind] at hnot
    cases hnot
  · exact absurd (ha.symm.trans hnone) nofun
  · obtain rfl := Option.some.inj (ha.symm.trans hb)
    exact hparameters hnil
  · obtain rfl := Option.some.inj (ha.symm.trans hb)
    exact hresults hnil
  · have := h.depth_pos
    omega
  · have hlent : p.lent.length = s.executor.config.pipelineDepth :=
      (h.coherent id b hb p hp).inFlight.2.1 hfree
    rw [← Artifact.lent_of_pipeline hp, h.idle id b hb, List.length_nil] at hlent
    have := h.depth_pos
    omega

/-- On the host only output buffers have changed, and they are as long as their specs say. -/
structure HostKept (s t : ExecState) : Prop where
  /-- An output buffer was one before, or has a new storage. -/
  origin : ∀ b ∈ t.outputs.buffers,
    b ∈ s.outputs.buffers ∨ s.memory.storages.size ≤ b.storage
  /-- Its storage is as long as its spec says. -/
  sized : ∀ b ∈ t.outputs.buffers, (t.memory.read b).WellSized
  /-- Every other storage is as it was. -/
  storages : ∀ storage, storage < s.memory.storages.size →
    (∀ b ∈ s.outputs.buffers, b.storage ≠ storage) →
    t.memory.storage storage = s.memory.storage storage

theorem HostKept.of_host_eq (h : s.HostKept t) {u : ExecState} (houtputs : u.outputs = t.outputs)
    (hstorages : u.memory.storages = t.memory.storages) : s.HostKept u := by
  have hstorage : ∀ storage, u.memory.storage storage = t.memory.storage storage := fun storage => by
    unfold Memory.storage
    rw [hstorages]
  refine ⟨houtputs ▸ h.origin, fun b hb => ?_, fun storage hlt hne => ?_⟩
  · have := h.sized b (houtputs ▸ hb)
    unfold Memory.read at this ⊢
    rwa [hstorage]
  · rw [hstorage]
    exact h.storages storage hlt hne

end ExecState

namespace ExecM

variable {δ : Nat → DType} {s t u v : ExecState} {id : ArtifactId} {a : Artifact}
  {inputs : List HostBuffer} {l : Lookup} {results : List (Value UInt32)}

/-! ### Cache and faults -/

theorem Performed.order_eq (h : Performed s id a inputs v) : v.cache.order = s.cache.order := by
  cases h with
  | slots hkind ins outs t hran =>
    obtain ⟨slots, slots', -, -, hstaged⟩ := hran.staged
    rw [hran.affected.only.cache, hstaged.cache_eq]
    rfl
  | group hkind hcall hkeeps hrotated =>
    obtain ⟨b, p, -, hcache, -⟩ := hrotated
    rw [hcache]
    rfl

/-- **A call that could run has failed because evaluation fails.** -/
theorem NotPerformed.fault (h : NotPerformed s id a inputs v) (hp : Poised s id a inputs)
    (hcall : a.Callable inputs)
    (hcurrent : s.kind.isPipelined = false → s.SkipsCurrent id a inputs)
    (hquiet : s.device.backend.Quiet) (hlend : s.kind.isPipelined = true → ¬ CannotLend s id) :
    v.cache.order = s.cache.order ∧ ∃ fault, a.executable.function.evaluate .binary32
      (s.executor.unit.arguments s.memory inputs) = .error fault := by
  cases h with
  | interrupted hkind h hnot => exact absurd hquiet hnot
  | slots hkind h =>
    obtain ⟨ins, slots, outs, slots', t, hlen, -, hstaged, hcalled, hfault⟩ := h
    obtain ⟨⟨fault, hfault⟩, -⟩ := hfault hcall
    constructor
    · rw [hcalled.only.cache, hstaged.cache_eq]
      rfl
    · refine ⟨fault, ?_⟩
      rw [← parametersOf_of_staged hp (by rw [hcall.parameters, List.length_map]) (fun _ => hcall)
        hlen hstaged fun q host x hhost hx =>
          hstaged.contents_eq_storage hp.found (hcurrent hkind) hhost hx]
      exact hfault
  | notLent hkind hkeeps houtputs hstorages hcannot => exact absurd hcannot (hlend hkind)
  | group hkind hkeeps houtputs hstorages hrotated hfault =>
    obtain ⟨b, p, -, hcache, -⟩ := hrotated
    constructor
    · rw [hcache]
      rfl
    · exact hfault

/-! ### The host -/

/-- When the output buffers are ready, only they have changed. -/
theorem hostKept_prepared
    (hp : Poised (t.prepared a.executable.function.results) l.artifact a inputs)
    (houtputs : t.outputs = s.outputs) (hmemory : t.memory = s.memory) :
    s.HostKept (t.prepared a.executable.function.results) := by
  have hrefitted := t.refitted_prepared a.executable.function.results
  rw [houtputs, hmemory] at hrefitted
  refine ⟨fun b hb => ?_, hp.sized, fun storage hlt _ => hrefitted.storages storage hlt⟩
  exact (hrefitted.origin b hb).imp_right And.left

/-- Results that have been delivered are as long as the specs of their buffers say. -/
theorem hostKept_of_delivered (h : s.HostKept t) (hp : Poised t id a inputs)
    {arguments : List (Option (Value UInt32))}
    (hyields : a.executable.function.Yields arguments results)
    (hdelivered : Delivered t results v) : s.HostKept v := by
  have hspecs : results.map (·.spec) = t.outputs.buffers.map (·.spec) :=
    hyields.specs.trans hp.results
  refine ⟨fun b hb => h.origin b (hdelivered.outputs ▸ hb), fun b hb => ?_,
    fun storage hlt hne => ?_⟩
  · rw [hdelivered.outputs] at hb
    obtain ⟨p, hb'⟩ := List.getElem?_of_mem hb
    cases hin : t.executor.unit.externalOutputs.contains p with
    | true =>
      -- Its position is bound elsewhere, and no other position has its storage.
      have hstorage : v.memory.storage b.storage = t.memory.storage b.storage := by
        refine hdelivered.storages b.storage fun q c hc hin' heq => ?_
        obtain rfl := hp.separate.eq_of_storage_eq hc hb' heq
        rw [hin] at hin'
        cases hin'
      have := hp.sized b hb
      unfold Memory.read at this ⊢
      rwa [hstorage]
    | false =>
      have hlt : p < results.length := by
        have hlength := congrArg List.length hspecs
        rw [List.length_map, List.length_map] at hlength
        rw [hlength]
        exact (List.getElem?_eq_some_iff.1 hb').1
      have hv : results[p]? = some results[p] := List.getElem?_eq_getElem hlt
      have hspec : results[p].spec = b.spec := by
        have := congrArg (·[p]?) hspecs
        simp only [List.getElem?_map, hv, hb', Option.map_some] at this
        exact Option.some.inj this
      change (v.memory.storage b.storage).length = b.spec.byteLength
      rw [hdelivered.results p b _ hb' hin hv, ← hspec]
      exact (hyields.sized _ (List.getElem_mem hlt)).length_bytes
  · rw [hdelivered.storages storage fun p b hb _ heq => ?_, h.storages storage hlt hne]
    rcases h.origin b (List.mem_of_getElem? hb) with hmem | hge
    · exact hne b hmem heq
    · exact absurd (heq ▸ hge) (Nat.not_le.2 hlt)

/-! ### The whole call -/

/-- A willing executor that asks nobody about copies has its executable at hand, and the output
buffers are ready. -/
structure AtHand (s : ExecState) (inputs : List HostBuffer) (l : Lookup) (a : Artifact)
    (t : ExecState) : Prop where
  /-- All is there for running the executable. -/
  poised : Poised (t.prepared a.executable.function.results) l.artifact a inputs
  /-- It can be called with the inputs. -/
  callable : a.Callable inputs
  /-- Only the output buffers have changed. -/
  kept : s.HostKept (t.prepared a.executable.function.results)
  /-- Nobody is asked about copies. -/
  never : (t.prepared a.executable.function.results).executor.tracker = .never
  /-- Nothing stands in the way of the call. -/
  willing : (t.prepared a.executable.function.results).Willing
  /-- The signature is the most recent one. -/
  order : t.cache.order = recent s.cache.depth (l.signature :: s.cache.order)

theorem FoundFor.atHand (hfor : FoundFor s inputs l a t) (h : Sound δ s)
    (hlowers : s.executor.Lowers) (hpresented : Presented δ s inputs)
    (hnever : s.executor.tracker = .never) (hwilling : s.Willing) : AtHand s inputs l a t := by
  have hconsistent := h.compiled.consistent
  have hself : s.cache.order = recent s.cache.depth s.cache.order := by
    rw [recent, eraseDups_of_nodup hconsistent.nodup, List.take_of_length_le]
    rw [← hconsistent.size_eq]
    exact hconsistent.size_le
  obtain ⟨computed, hcompute, hfound⟩ := hfor
  have hp := hpresented.poised h.owns h.atHome hfound
  exact {
    poised := hp
    callable := h.callable (hlowers.suits δ) hpresented.dtypes hcompute hfound
    kept := hostKept_prepared hp hfound.outputs hfound.memory
    never := hfound.later.tracker.trans hnever
    willing := hwilling.of_later (hfound.later.trans (t.later_prepared _))
      (hfound.keepsLent.trans (.of_cache_eq rfl (Nat.le_refl _)))
    order := hfound.order_eq_recent hconsistent hself }

/-- **If no executable is found, the inputs are refused**: a willing executor can compile what
lowering makes, unless the backend does not accept it. -/
theorem NoneFor.outcome_eq_refused (hnone : NoneFor s inputs) (hlowers : s.executor.Lowers)
    (hwilling : s.Willing)
    (haccepts : s.kind = .reference → ∀ computed f,
      Signature.compute s.executor.statics (inputs.map s.memory.read) = .ok computed →
      s.executor.unit.lowered computed = .ok f → ∃ x, Backend.accept f = .ok x) :
    s.executor.unit.outcome s.executor.statics s.memory inputs = .refused := by
  refine ExecutionUnit.outcome_eq_refused fun computed f hcompute hlowered => ?_
  rcases hnone with ⟨error, herror⟩ | ⟨computed', hcompute', hwhy⟩
  · rw [hcompute] at herror
    cases herror
  obtain rfl := Except.ok.inj (hcompute.symm.trans hcompute')
  rcases hwhy.of_lowers hlowers with ⟨error, herror⟩ | ⟨f', hf', hrefuses⟩
  · rw [hlowered] at herror
    cases herror
  obtain rfl := Except.ok.inj (hlowered.symm.trans hf')
  rcases hrefuses with hnot | hnot | ⟨hreference, error, herror⟩
  · rw [hwilling.registered] at hnot
    cases hnot
  · exact hnot hwilling.quiet
  · obtain ⟨x, hx⟩ := haccepts hreference computed f hcompute hlowered
    rw [hx] at herror
    cases herror

/-- **If the executable is at hand and does not give results, then the function fails** on the
inputs. -/
theorem NotPerformed.outcome_eq_failed
    (hnot : NotPerformed (t.prepared a.executable.function.results) l.artifact a inputs u)
    (hat : AtHand s inputs l a t) (hfor : FoundFor s inputs l a t) (h : Sound δ s)
    (hlowers : s.executor.Lowers) (hpresented : Presented δ s inputs) (hinputs : inputs ≠ [])
    (hresults : ∀ computed f, s.executor.unit.lowered computed = .ok f → f.results ≠ []) :
    u.cache.order = t.cache.order ∧
      s.executor.unit.outcome s.executor.statics s.memory inputs = .failed l.signature := by
  obtain ⟨computed, hcompute, hfound⟩ := hfor
  obtain ⟨hlowered, hexecutable⟩ :=
    h.compiled.lowered_of_found hlowers hpresented.dtypes hcompute hfound
  have hparameters : a.executable.function.parameters ≠ [] := fun hnil => by
    have hlength := congrArg List.length hat.callable.parameters
    rw [hnil, List.length_nil, List.length_map] at hlength
    exact hinputs (List.length_eq_zero_iff.1 hlength.symm)
  have hne : a.executable.function.results ≠ [] := by
    rw [hexecutable]
    exact hresults computed _ hlowered
  obtain ⟨horder, fault, hfault⟩ := hnot.fault hat.poised hat.callable
    (fun _ => skipsCurrent_of_never hat.never) hat.willing.quiet fun hkind =>
      hat.willing.canLend hkind hat.poised.found hparameters hne
  rw [hpresented.arguments_prepared hfound, hexecutable] at hfault
  rw [hfound.signature]
  exact ⟨horder, ExecutionUnit.outcome_eq_failed hcompute hlowered hfault⟩

/-- **A call of a willing executor** comes to what its inputs come to. -/
theorem ends_execute_outcome (h : Sound δ s) (hlowers : s.executor.Lowers)
    (hpresented : Presented δ s inputs) (hnever : s.executor.tracker = .never)
    (hwilling : s.Willing) (hinputs : inputs ≠ [])
    (hresults : ∀ computed f, s.executor.unit.lowered computed = .ok f → f.results ≠ [])
    (haccepts : s.kind = .reference → ∀ computed f,
      Signature.compute s.executor.statics (inputs.map s.memory.read) = .ok computed →
      s.executor.unit.lowered computed = .ok f → ∃ x, Backend.accept f = .ok x) :
    Ends (execute inputs s)
      (fun r u => s.HostKept u ∧
        s.executor.Computes inputs s.memory r.signature u.outputs u.memory ∧
        (r.hit = true ↔ r.signature ∈ s.cache.order) ∧
        u.cache.order = recent s.cache.depth (r.signature :: s.cache.order))
      fun _ u => s.HostKept u ∧
        ((s.executor.unit.outcome s.executor.statics s.memory inputs = .refused ∧
          u.cache.order = s.cache.order) ∨
        ∃ signature, s.executor.unit.outcome s.executor.statics s.memory inputs =
            .failed signature ∧
          u.cache.order = recent s.cache.depth (signature :: s.cache.order)) := by
  refine (ends_execute h hpresented fun _ => hlowers.suits δ).mono (fun r u hu => ?_)
    fun e u hu => ?_
  · obtain ⟨l, a, t, v, hfor, hr, -, hperformed, hconcluded⟩ := hu
    have hat := hfor.atHand h hlowers hpresented hnever hwilling
    obtain ⟨results, hyields, hdelivered⟩ :=
      hperformed.yields hat.poised hat.callable fun _ => skipsCurrent_of_never hat.never
    have hkept := hostKept_of_delivered hat.kept hat.poised hyields hdelivered
    refine ⟨hkept.of_host_eq hconcluded.outputs (by rw [hconcluded.memory]), ?_, ?_, ?_⟩
    · rw [hr.signature]
      exact hfor.computes h hlowers hpresented hyields hdelivered hconcluded
    · obtain ⟨computed, -, hfound⟩ := hfor
      rw [hr.hit, hr.signature, hfound.signature]
      exact hfound.hit
    · rw [hconcluded.cache, hperformed.order_eq, hr.signature]
      exact hat.order
  · rcases hu with ⟨huntouched, hnone⟩ | ⟨l, a, t, hfor, hu⟩
    · have hkept : s.HostKept s := ⟨fun _ hb => .inl hb, hpresented.sized, fun _ _ _ => rfl⟩
      exact ⟨hkept.of_host_eq huntouched.outputs (by rw [huntouched.memory]),
        .inl ⟨hnone.outcome_eq_refused hlowers hwilling haccepts, by rw [huntouched.cache]⟩⟩
    · have hat := hfor.atHand h hlowers hpresented hnever hwilling
      rcases hu with ⟨hcount, -⟩ | hnot
      · refine absurd ?_ hcount
        rw [hat.callable.parameters, List.length_map]
      · obtain ⟨houtputs, hstorages⟩ := hnot.host hat.callable
        obtain ⟨horder, hfailed⟩ :=
          hnot.outcome_eq_failed hat hfor h hlowers hpresented hinputs hresults
        exact ⟨hat.kept.of_host_eq houtputs hstorages, .inr ⟨l.signature, hfailed, by
          rw [horder]
          exact hat.order⟩⟩

end ExecM

end TensorJit
