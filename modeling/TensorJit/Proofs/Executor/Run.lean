import TensorJit.Proofs.Executor.Pipelined

/-!
# What a call comes to

A call finds its executable, makes the output buffers ready, and runs with tensors from slots or
with a group (`Performed`). When all has gone well, the tracker is told that the output buffers
have changed (`Concluded`). All of this rests on three things: the executor is sound, every
input has the element type that its position is to have, and the buffers that are presented are
as long as their specs say (`Presented`). A call with a group asks in addition that what the executor
makes can be called with the inputs, since a group has the specs that the function declares.

**If only copies that are current are left out, the results are those of evaluating the function on
the values of the inputs**, on a backend of any kind (`Performed.yields`). So it is if nobody vouches
for copies.
-/

namespace TensorJit

open ExecState (OnlyMemory Sound Untouched)

/-- The buffers that are given for a call are in order. -/
structure InOrder (s : ExecState) (inputs : List HostBuffer) : Prop where
  /-- The storages of the inputs exist. -/
  live : ∀ b ∈ inputs, b.storage < s.memory.storages.size
  /-- They are as long as their specs say. -/
  filled : ∀ b ∈ inputs, (s.memory.read b).WellSized
  /-- The output buffers are separate. -/
  separate : s.outputs.Separate s.memory
  /-- Their storages are as long as their specs say. -/
  sized : ∀ b ∈ s.outputs.buffers, (s.memory.read b).WellSized

/-- What is presented to an executor for a call is in order: in addition, each input has the element
type that its position is to have. -/
structure Presented (δ : Nat → DType) (s : ExecState) (inputs : List HostBuffer) : Prop
    extends InOrder s inputs where
  /-- It has this element type. -/
  dtypes : HasDTypes δ (inputs.map s.memory.read)

section Prepared

variable {δ : Nat → DType} {s t : ExecState} {inputs : List HostBuffer}
  {computed : Signature.Computed} {l : Lookup} {a : Artifact}

theorem ExecState.later_prepared (s : ExecState) (specs : List TensorSpec) :
    s.Later (s.prepared specs) := Moves.prepared (T := ExecState.Later) s specs

theorem ExecState.refitted_prepared (s : ExecState) (specs : List TensorSpec) :
    OutputBuffers.Refitted s.outputs.buffers specs s.memory (s.prepared specs).outputs.buffers
      (s.prepared specs).memory := OutputBuffers.refitted _ _ _

/-- Output buffers that are separate are still so when they have been made ready. -/
theorem ExecState.separate_prepared (h : s.outputs.Separate s.memory) (specs : List TensorSpec) :
    (s.prepared specs).outputs.Separate (s.prepared specs).memory := by
  have hrefitted := s.refitted_prepared specs
  refine ⟨fun b hb => ?_, hrefitted.separate h.live h.apart⟩
  rcases hrefitted.origin b hb with hb | ⟨-, hlt, -⟩
  · exact Nat.lt_of_lt_of_le (h.live b hb) hrefitted.size
  · exact hlt

/-- What is found for some inputs can be called with them, if what the executor makes can. -/
theorem ExecState.Sound.callable (h : Sound δ s) (hsuits : s.executor.Suits δ)
    (hδ : HasDTypes δ (inputs.map s.memory.read))
    (hcompute : Signature.compute s.executor.statics (inputs.map s.memory.read) = .ok computed)
    (hfound : ExecM.Found s computed l a t) : a.Callable inputs := by
  obtain ⟨-, -, -, hspecs, -⟩ := Signature.compute_eq_ok hcompute
  obtain ⟨htyped, hparameters⟩ := h.compiled.suits_of_found hsuits hδ hcompute hfound
  refine ⟨htyped, ?_⟩
  rw [hparameters, hspecs, List.map_map]
  rfl

/-- **When the executable has been found and the output buffers are ready, the call can run.** -/
theorem InOrder.poised (h : InOrder s inputs) (howns : s.cache.Owns s.memory) (hhome : s.AtHome)
    (hfound : ExecM.Found s computed l a t) :
    Poised (t.prepared a.executable.function.results) l.artifact a inputs := by
  have hrefitted := t.refitted_prepared a.executable.function.results
  rw [hfound.outputs, hfound.memory] at hrefitted
  have hold : ∀ b : HostBuffer, b.storage < s.memory.storages.size →
      (t.prepared a.executable.function.results).memory.read b = s.memory.read b := fun b hb => by
    unfold Memory.read
    rw [hrefitted.storages b.storage hb]
  have hextends := (t.later_prepared a.executable.function.results).platform.memory
  refine ⟨(hfound.owns howns).of_sub hextends.tensors fun _ _ _ h => h, hfound.found,
    fun p hp => ((hfound.atHome hhome _ a hfound.found).pipeline p hp).extends hextends,
    hrefitted.specs_eq.symm, fun b hb => ?_,
    ExecState.separate_prepared (by rw [hfound.outputs, hfound.memory]; exact h.separate) _,
    fun b hb => ?_⟩
  · rw [hold b (h.live b hb)]
    exact h.filled b hb
  · rcases hrefitted.origin b hb with hb | ⟨-, -, hsized⟩
    · rw [hold b (h.separate.live b hb)]
      exact h.sized b hb
    · exact hsized

/-- Then the executor is sound, what has been found expects the inputs, and the tensors that are used
again fit. -/
theorem Presented.prepared (h : Presented δ s inputs) (hsound : Sound δ s)
    (hcompute : Signature.compute s.executor.statics (inputs.map s.memory.read) = .ok computed)
    (hfound : ExecM.Found s computed l a t) :
    Sound δ (t.prepared a.executable.function.results) ∧
      (t.prepared a.executable.function.results).executor.Expects δ a (inputs.map (·.spec)) ∧
      (t.prepared a.executable.function.results).SlotsFit a inputs := by
  have hprepared := (hsound.found h.dtypes hcompute hfound).of_later
    (t.later_prepared a.executable.function.results) rfl
  have hexpects : t.executor.Expects δ a (inputs.map (·.spec)) :=
    .of_found h.dtypes hcompute hfound
  have hfits := hprepared.fits l.artifact a _ hfound.found hexpects
  exact ⟨hprepared, hexpects, hfits.fitsFor .input rfl _,
    hfits.fitsFor .output (t.refitted_prepared _).specs_eq _⟩

/-- Making the output buffers ready leaves the values of the inputs as they are. -/
theorem InOrder.arguments_prepared (h : InOrder s inputs)
    (hfound : ExecM.Found s computed l a t) (specs : List TensorSpec) :
    (t.prepared specs).executor.unit.arguments (t.prepared specs).memory inputs =
      s.executor.unit.arguments s.memory inputs := by
  have hrefitted := t.refitted_prepared specs
  rw [hfound.outputs, hfound.memory] at hrefitted
  change t.executor.unit.arguments _ _ = _
  rw [hfound.later.unit]
  refine List.ext_getElem? fun q => ?_
  rw [ExecutionUnit.arguments_getElem?, ExecutionUnit.arguments_getElem?]
  cases hhost : inputs[q]? with
  | none => rfl
  | some host =>
    rw [Option.map_some, Option.map_some,
      hrefitted.storages host.storage (h.live host (List.mem_of_getElem? hhost))]

end Prepared

namespace ExecM

variable {δ : Nat → DType} {s t u v : ExecState} {id : ArtifactId} {a : Artifact}
  {inputs : List HostBuffer} {found : Lookup}

/-- The executable has been called, and its results are in the output buffers. -/
inductive Performed (s : ExecState) (id : ArtifactId) (a : Artifact)
    (inputs : List HostBuffer) (v : ExecState) : Prop where
  /-- With tensors from slots. -/
  | slots (hkind : s.kind.isPipelined = false) (ins outs : List (Option TensorId))
    (t : ExecState) (hran : RanOnSlots s id a inputs ins outs t v)
  /-- With a group. -/
  | group (hkind : s.kind.isPipelined = true) (hcall : a.Callable inputs) (hkeeps : s.KeepsSound v)
    (hrotated : Rotated s id v) (results : List (Value UInt32))
    (hyields : a.executable.function.Yields (s.executor.unit.arguments s.memory inputs) results)
    (hdelivered : Delivered s results v)

/-- The executable has not been called, or it has failed. -/
inductive NotPerformed (s : ExecState) (id : ArtifactId) (a : Artifact)
    (inputs : List HostBuffer) (v : ExecState) : Prop where
  /-- A tensor for a slot could not be made. -/
  | interrupted (hkind : s.kind.isPipelined = false) (h : Interrupted s id a inputs v)
    (hnot : ¬ s.device.backend.Quiet)
  /-- The call has failed, with tensors from slots. -/
  | slots (hkind : s.kind.isPipelined = false) (h : FailedOnSlots s id a inputs v)
  /-- No group could be lent. -/
  | notLent (hkind : s.kind.isPipelined = true) (hkeeps : s.KeepsSound v)
    (houtputs : v.outputs = s.outputs) (hstorages : v.memory.storages = s.memory.storages)
    (hcannot : CannotLend s id)
  /-- The call has failed, with a group. -/
  | group (hkind : s.kind.isPipelined = true) (hkeeps : s.KeepsSound v)
    (houtputs : v.outputs = s.outputs) (hstorages : v.memory.storages = s.memory.storages)
    (hrotated : Rotated s id v) (hfault : ∃ fault, a.executable.function.evaluate .binary32
      (s.executor.unit.arguments s.memory inputs) = .error fault)

theorem Performed.sound (h : Performed s id a inputs v) (hp : Poised s id a inputs)
    (hsound : Sound δ s) (hexpects : s.executor.Expects δ a (inputs.map (·.spec))) :
    Sound δ v := by
  cases h with
  | slots hkind ins outs t hran => exact hran.sound hp hsound hexpects
  | group hkind hcall hkeeps => exact hkeeps δ hsound

/-- **The function is called with the values of the inputs** if every input tensor holds what its
buffer holds. -/
theorem parametersOf_of_staged (hp : Poised s id a inputs)
    (hlength : a.executable.function.parameters.length = inputs.length)
    (hcall : s.kind = .reference → a.Callable inputs) {ins outs : List (Option TensorId)}
    {slots slots' : SlotTable} (hlen : ins.length = inputs.length)
    (hstaged : Staged s id a inputs ins slots outs slots' t)
    (hcurrent : ∀ (q : Nat) (host : HostBuffer) (x : TensorId), inputs[q]? = some host →
      ins[q]? = some (some x) → t.memory.contents x = s.memory.storage host.storage) :
    Backend.parametersOf t.kind t.memory a.executable.function.parameters ins =
      s.executor.unit.arguments s.memory inputs := by
  refine parametersOf_eq_arguments hlength (fun hκ => (hcall ?_).parameters)
    fun q host hhost => ?_
  · rw [← hstaged.later.kind_eq, hκ]
  have hserved := hstaged.ins_getElem? hhost hlen
  split at hserved
  · rename_i hexternal
    rw [if_pos hexternal]
    exact hserved
  · rename_i hexternal
    rw [if_neg hexternal]
    obtain ⟨x, hx⟩ := hserved
    obtain ⟨-, -, hfits⟩ := hstaged.input hp.found hhost hx
    exact ⟨x, hx, hfits.spec_eq, hcurrent q host x hhost hx⟩

/-- No copy is left out if nobody vouches for copies. -/
theorem not_skips_of_never (hnever : s.executor.tracker = .never) (q : Nat) :
    ¬ s.Skips id a inputs q := by
  rintro ⟨-, host, old, -, -, hfresh | ⟨hlistens, -⟩⟩
  · unfold Platform.isFresh at hfresh
    rw [hnever] at hfresh
    cases hfresh
  · rw [hnever] at hlistens
    exact Tracker.not_listens_never hlistens

theorem skipsCurrent_of_never (hnever : s.executor.tracker = .never) :
    s.SkipsCurrent id a inputs :=
  fun q _ _ _ _ _ hskips => absurd hskips (not_skips_of_never hnever q)

/-- **The results are those of evaluating the function on the values of the inputs**, if only copies
that are current are left out. A group is given all inputs in every call. -/
theorem Performed.yields (h : Performed s id a inputs v) (hp : Poised s id a inputs)
    (hcall : a.Callable inputs)
    (hcurrent : s.kind.isPipelined = false → s.SkipsCurrent id a inputs) :
    ∃ results, a.executable.function.Yields (s.executor.unit.arguments s.memory inputs) results ∧
      Delivered s results v := by
  cases h with
  | slots hkind ins outs t hran =>
    obtain ⟨slots, slots', hlen, -, hstaged⟩ := hran.staged
    obtain ⟨results, hyields, hdelivered⟩ := hran.delivered hp hcall
    refine ⟨results, ?_, hdelivered⟩
    rw [← parametersOf_of_staged hp (by rw [hcall.parameters, List.length_map]) (fun _ => hcall)
      hlen hstaged fun q host x hhost hx =>
        hstaged.contents_eq_storage hp.found (hcurrent hkind) hhost hx]
    exact hyields
  | group hkind hcall hkeeps hrotated results hyields hdelivered =>
    exact ⟨results, hyields, hdelivered⟩

theorem NotPerformed.sound (h : NotPerformed s id a inputs v) (hp : Poised s id a inputs)
    (hsound : Sound δ s) (hexpects : s.executor.Expects δ a (inputs.map (·.spec))) :
    Sound δ v := by
  cases h with
  | interrupted hkind h =>
    obtain ⟨ins, slots, outs, slots', hle, hle', -, hstaged⟩ := h
    exact hstaged.sound hp hsound hexpects hle hle'
  | slots hkind h => exact h.sound hp hsound hexpects
  | notLent hkind hkeeps => exact hkeeps δ hsound
  | group hkind hkeeps => exact hkeeps δ hsound

/-- **A call that fails leaves the output buffers and the storages of the host alone**, if the
executable can be called. -/
theorem NotPerformed.host (h : NotPerformed s id a inputs v) (hcall : a.Callable inputs) :
    v.outputs = s.outputs ∧ v.memory.storages = s.memory.storages := by
  cases h with
  | interrupted hkind h =>
    obtain ⟨ins, slots, outs, slots', -, -, -, hstaged⟩ := h
    exact ⟨hstaged.outputs_eq, hstaged.storages_eq⟩
  | slots hkind h =>
    obtain ⟨ins, slots, outs, slots', t, -, -, hstaged, -, hfault⟩ := h
    obtain ⟨-, honly⟩ := hfault hcall
    exact ⟨honly.outputs.trans hstaged.outputs_eq, by rw [honly.memory, hstaged.storages_eq]⟩
  | notLent hkind hkeeps houtputs hstorages => exact ⟨houtputs, hstorages⟩
  | group hkind hkeeps houtputs hstorages => exact ⟨houtputs, hstorages⟩

/-- The tracker has been told that the output buffers have changed. -/
structure Concluded (v u : ExecState) : Prop where
  /-- The executor is the same. -/
  later : v.Later u
  /-- The caches are equal. -/
  cache : u.cache = v.cache
  /-- The output buffers are equal. -/
  outputs : u.outputs = v.outputs
  /-- The memories are equal. -/
  memory : u.memory = v.memory
  /-- Copies of output buffers are not vouched for any more. -/
  fresh : ∀ storage j, u.platform.isFresh v.executor.tracker storage j = true ↔
    v.platform.isFresh v.executor.tracker storage j = true ∧
      ∀ (p : Nat) (b : HostBuffer), v.outputs.buffers[p]? = some b →
        v.executor.unit.externalOutputs.contains p = false → b.storage ≠ storage

theorem ends_prepareOutputs (specs : List TensorSpec) {Q : Unit → ExecState → Prop}
    {E : Error → ExecState → Prop} :
    Ends (prepareOutputs specs s) Q E ↔ Q () (s.prepared specs) := Iff.rfl

/-- **What follows when the executable has been found.** -/
theorem ends_runFound (hp : Poised (s.prepared a.executable.function.results) id a inputs)
    (hslots : s.kind.isPipelined = false →
      (s.prepared a.executable.function.results).SlotsFit a inputs)
    (hgroup : s.kind.isPipelined = true → a.Callable inputs)
    (hartifact : found.artifact = id) (hexecutable : found.executable = a.executable) :
    Ends (runFound found inputs s)
      (fun r u => ReportOn found r ∧ a.executable.function.parameters.length = inputs.length ∧
        ∃ v, Performed (s.prepared a.executable.function.results) id a inputs v ∧
          Concluded v u)
      fun _ u => (a.executable.function.parameters.length ≠ inputs.length ∧ u = s) ∨
        NotPerformed (s.prepared a.executable.function.results) id a inputs u := by
  have hkindEq : (s.prepared a.executable.function.results).kind = s.kind :=
    (s.later_prepared _).kind_eq
  by_cases hcount : a.executable.function.parameters.length = inputs.length
  swap
  · unfold runFound
    rw [hexecutable]
    dsimp only
    rw [if_pos (Ne.symm hcount), ends_bind, ends_fail]
    exact .inl ⟨hcount, rfl⟩
  -- Once the executable has run, what follows only tells the registries and counts.
  have hend : ∀ (r : Report) (v : ExecState), ReportOn found r →
      Performed (s.prepared a.executable.function.results) id a inputs v →
      Ends ((do
        invalidateOutputs
        count fun c => { c with executions := c.executions + 1 }
        return r) v)
        (fun r u => ReportOn found r ∧ a.executable.function.parameters.length = inputs.length ∧
          ∃ v, Performed (s.prepared a.executable.function.results) id a inputs v ∧
            Concluded v u)
        fun _ u => (a.executable.function.parameters.length ≠ inputs.length ∧ u = s) ∨
          NotPerformed (s.prepared a.executable.function.results) id a inputs u :=
    fun r v hr hv => by
      rw [ends_bind]
      refine ends_invalidateOutputs.mono (fun _ u hu => ?_) fun _ _ h => h.elim
      obtain ⟨hlater, hcache, houtputs, hmemory, -, hfresh⟩ := hu
      rw [ends_bind, ends_count, ends_pure]
      exact ⟨hr, hcount, v, hv, { hlater with }, hcache, houtputs, hmemory, hfresh⟩
  unfold runFound
  rw [hexecutable]
  dsimp only
  rw [if_neg (fun h => h hcount.symm), ends_bind, ends_prepareOutputs, ends_bind, ends_kind]
  cases hkind : (s.prepared a.executable.function.results).kind.isPipelined with
  | true =>
    rw [if_pos rfl, ends_bind]
    have hcall := hgroup (hkindEq ▸ hkind)
    refine (ends_runPipelined hp hcall hkind hartifact hexecutable).mono (fun r v hv => ?_)
      fun _ v hv => .inr ?_
    · obtain ⟨hr, hkeeps, hrotated, results, hyields, hdelivered⟩ := hv
      exact hend r v hr (.group hkind hcall hkeeps hrotated results hyields hdelivered)
    · obtain ⟨hkeeps, houtputs, hstorages, hcannot | ⟨hrotated, hfault⟩⟩ := hv
      · exact .notLent hkind hkeeps houtputs hstorages hcannot
      · exact .group hkind hkeeps houtputs hstorages hrotated hfault
  | false =>
    rw [if_neg Bool.false_ne_true, ends_bind]
    refine (ends_runOnSlots hp (hslots (hkindEq ▸ hkind)) hartifact hexecutable).mono (fun r v hv => ?_)
      fun _ v hv => .inr ?_
    · obtain ⟨hr, ins, outs, t, hran⟩ := hv
      exact hend r v hr (.slots hkind ins outs t hran)
    · rcases hv with ⟨hinterrupted, hnot⟩ | hfailed
      · exact .interrupted hkind hinterrupted hnot
      · exact .slots hkind hfailed

/-- The executable for the inputs has been found. -/
def FoundFor (s : ExecState) (inputs : List HostBuffer) (l : Lookup) (a : Artifact)
    (t : ExecState) : Prop :=
  ∃ computed, Signature.compute s.executor.statics (inputs.map s.memory.read) = .ok computed ∧
    Found s computed l a t

/-- There is no executable for the inputs. -/
def NoneFor (s : ExecState) (inputs : List HostBuffer) : Prop :=
  (∃ e, Signature.compute s.executor.statics (inputs.map s.memory.read) = .error e) ∨
    ∃ computed, Signature.compute s.executor.statics (inputs.map s.memory.read) = .ok computed ∧
      NotFound s computed

/-- **A call**, if the tensors of slots that are used again fit, and what is called with a group can
be called with the inputs. -/
theorem ends_execute_of {P : List Tensor → Prop} (hcompiled : Compiled P s)
    (howns : s.cache.Owns s.memory) (hhome : s.AtHome) (hbuffers : InOrder s inputs)
    (hslots : s.kind.isPipelined = false → ∀ l a t, FoundFor s inputs l a t →
      (t.prepared a.executable.function.results).SlotsFit a inputs)
    (hgroup : s.kind.isPipelined = true → ∀ l a t, FoundFor s inputs l a t → a.Callable inputs) :
    Ends (execute inputs s)
      (fun r u => ∃ l a t v, FoundFor s inputs l a t ∧ ReportOn l r ∧
        a.executable.function.parameters.length = inputs.length ∧
        Performed (t.prepared a.executable.function.results) l.artifact a inputs v ∧
        Concluded v u)
      fun _ u => s.Untouched u ∧ NoneFor s inputs ∨ ∃ l a t, FoundFor s inputs l a t ∧
        ((a.executable.function.parameters.length ≠ inputs.length ∧ u = t) ∨
          NotPerformed (t.prepared a.executable.function.results) l.artifact a inputs u) := by
  rw [execute_eq, ends_bind]
  refine (ends_getExecutable hcompiled inputs).mono (fun l t ht => ?_) fun _ u hu => .inl hu
  obtain ⟨computed, a, hcompute, hfound⟩ := ht
  have hfor : FoundFor s inputs l a t := ⟨computed, hcompute, hfound⟩
  refine (ends_runFound (hbuffers.poised howns hhome hfound)
    (fun hkind => hslots (hfound.later.kind_eq ▸ hkind) l a t hfor)
    (fun hkind => hgroup (hfound.later.kind_eq ▸ hkind) l a t hfor) rfl
    hfound.executable).mono (fun r u hu => ?_) fun _ u hu => ?_
  · obtain ⟨hr, hcount, v, hv, hconcluded⟩ := hu
    exact ⟨l, a, t, v, hfor, hr, hcount, hv, hconcluded⟩
  · exact .inr ⟨l, a, t, hfor, hu⟩

/-- **A call of a sound executor.** -/
theorem ends_execute (h : Sound δ s) (hpresented : Presented δ s inputs)
    (hgroup : s.kind.isPipelined = true → s.executor.Suits δ) :
    Ends (execute inputs s)
      (fun r u => ∃ l a t v, FoundFor s inputs l a t ∧ ReportOn l r ∧
        a.executable.function.parameters.length = inputs.length ∧
        Performed (t.prepared a.executable.function.results) l.artifact a inputs v ∧
        Concluded v u)
      fun _ u => s.Untouched u ∧ NoneFor s inputs ∨ ∃ l a t, FoundFor s inputs l a t ∧
        ((a.executable.function.parameters.length ≠ inputs.length ∧ u = t) ∨
          NotPerformed (t.prepared a.executable.function.results) l.artifact a inputs u) :=
  ends_execute_of h.compiled h.owns h.atHome hpresented.toInOrder
    (fun _ _ _ _ ⟨_, hcompute, hfound⟩ => (hpresented.prepared h hcompute hfound).2.2)
    fun hkind _ _ _ ⟨_, hcompute, hfound⟩ =>
      h.callable (hgroup hkind) hpresented.dtypes hcompute hfound

/-- **A call keeps the executor sound**, however it ends. -/
theorem sound_execute (h : Sound δ s) (hpresented : Presented δ s inputs)
    (hgroup : s.kind.isPipelined = true → s.executor.Suits δ) :
    Ends (execute inputs s) (fun _ t => Sound δ t) fun _ t => Sound δ t := by
  refine (ends_execute h hpresented hgroup).mono (fun _ u hu => ?_) fun _ u hu => ?_
  · obtain ⟨l, a, t, v, ⟨computed, hcompute, hfound⟩, -, -, hv, hconcluded⟩ := hu
    obtain ⟨hsound, hexpects, -⟩ := hpresented.prepared h hcompute hfound
    exact (hv.sound (hpresented.poised h.owns h.atHome hfound) hsound hexpects).of_later
      hconcluded.later hconcluded.cache
  · rcases hu with ⟨huntouched, -⟩ | ⟨l, a, t, ⟨computed, hcompute, hfound⟩, ⟨-, rfl⟩ | hu⟩
    · exact h.untouched huntouched
    · exact h.found hpresented.dtypes hcompute hfound
    · obtain ⟨hsound, hexpects, -⟩ := hpresented.prepared h hcompute hfound
      exact hu.sound (hpresented.poised h.owns h.atHome hfound) hsound hexpects

end ExecM

end TensorJit
