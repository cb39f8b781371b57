import TensorJit.Proofs.Outcome

/-!
# Wherever the tensors are

The same calls are put to units that were built alike on backends of different kinds
(`Process.placed`), with changes of the inputs in between. Each time the caller sees whether the call
went well, the signature and whether it was a hit, the signatures that are in the cache afterwards,
and the bytes of the outputs (`Process.observations`). All of this follows from the unit and from
what the inputs hold (`ExecutionUnit.expected`), so **the caller cannot tell the kinds apart**, as
long as the reference backend takes the functions (`observations_eq`).

What is preserved from call to call is `ExecState.Stands`: the executor is sound and willing, its
cache lists what the calls so far have left there, and the host buffers hold what the caller has put
there, since output buffers have storages of their own.
-/

namespace TensorJit

open ExecState (Sound)

/-! ### What is done and what is seen -/

/-- What a caller does. -/
inductive Turn where
  /-- The bytes of a host buffer are changed in place. -/
  | write (storage : StorageId) (bytes : Bytes)
  /-- The executor is called. -/
  | call (inputs : List HostBuffer)
  deriving DecidableEq, Repr

/-- What a caller sees of a call. -/
structure Observation where
  /-- The signature and whether it was a hit, if the call went well. -/
  answer : Option (Signature × Bool)
  /-- The signatures in the cache afterwards, the most recently used first. -/
  order : List Signature
  /-- The bytes of the outputs, if the call went well. -/
  outputs : List Bytes
  deriving DecidableEq, Repr

/-- What is to be seen of a call with some outcome, if these signatures were in the cache before. -/
def Outcome.observation (depth : Nat) (before : List Signature) (o : Outcome) : Observation :=
  match o with
  | done signature results =>
    ⟨some (signature, decide (signature ∈ before)), o.order depth before,
      results.map fun v => Tensor.bytesOfWords v.data⟩
  | _ => ⟨none, o.order depth before, []⟩

namespace ExecutionUnit

/-- What is to be seen of the calls of a unit, for host buffers as in a memory. -/
def expected (u : ExecutionUnit) (flags : StaticInputs) (depth : Nat) :
    Memory → List Signature → List Turn → List (Option Observation)
  | _, _, [] => []
  | m, before, .write storage bytes :: rest =>
    u.expected flags depth (m.setStorage storage bytes) before rest
  | m, before, .call inputs :: rest =>
    some ((u.outcome flags m inputs).observation depth before) ::
      u.expected flags depth m ((u.outcome flags m inputs).order depth before) rest

/-- The function for some inputs, if there is one. -/
def function? (u : ExecutionUnit) (flags : StaticInputs) (m : Memory) (inputs : List HostBuffer) :
    Option Function :=
  (Signature.compute flags (inputs.map m.read)).toOption.bind fun computed =>
    (u.lowered computed).toOption

/-- The functions that are needed for the calls of a unit. -/
def functions (u : ExecutionUnit) (flags : StaticInputs) : Memory → List Turn → List Function
  | _, [] => []
  | m, .write storage bytes :: rest => u.functions flags (m.setStorage storage bytes) rest
  | m, .call inputs :: rest => (u.function? flags m inputs).toList ++ u.functions flags m rest

end ExecutionUnit

namespace Memory

/-- A memory with some more host buffers. -/
def holding (m : Memory) (tensors : List Tensor) : Memory :=
  tensors.foldl (fun m t => (m.allocate t).2) m

/-- The inputs of a call are in order. -/
structure Serves (m : Memory) (δ : Nat → DType) (inputs : List HostBuffer) : Prop where
  /-- There is an input. -/
  ne_nil : inputs ≠ []
  /-- Each has the element type that its position is to have. -/
  dtypes : ∀ (q : Nat) (b : HostBuffer), inputs[q]? = some b → b.spec.dtype = δ q
  /-- Their storages exist. -/
  live : ∀ b ∈ inputs, b.storage < m.storages.size
  /-- They are as long as their specs say. -/
  filled : ∀ b ∈ inputs, (m.read b).WellSized

/-- What a caller does with the host buffers of a memory is in order: no others are changed, and
the inputs of every call are in order. -/
def ServesAll (δ : Nat → DType) : Memory → List Turn → Prop
  | _, [] => True
  | m, .write storage bytes :: rest =>
    storage < m.storages.size ∧ ServesAll δ (m.setStorage storage bytes) rest
  | m, .call inputs :: rest => m.Serves δ inputs ∧ ServesAll δ m rest

end Memory

namespace Process

/-- What is seen of a call of the first executor. -/
def observe (w : Process) (inputs : List HostBuffer) : Option Observation :=
  (w.ask 0 0 (.execute inputs)).2.executors[0]?.map fun e =>
    match (w.ask 0 0 (.execute inputs)).1 with
    | some (.ok (.report r)) =>
      ⟨some (r.signature, r.hit), e.cache.order,
        ((w.ask 0 0 (.execute inputs)).2.outputsOf 0).buffers.map fun b =>
          (w.ask 0 0 (.execute inputs)).2.platform.memory.storage b.storage⟩
    | _ => ⟨none, e.cache.order, []⟩

/-- What is seen of all calls of the first executor. -/
def observations (w : Process) : List Turn → List (Option Observation)
  | [] => []
  | .write storage bytes :: rest => (w.step (.write storage bytes)).observations rest
  | .call inputs :: rest => w.observe inputs :: (w.step (.ask 0 0 (.execute inputs))).observations rest

/-- A process with some host buffers and an executor that was built on a new backend of some
kind. -/
def placed (κ : BackendKind) (r : BuildRequest) (tensors : List Tensor) : Process :=
  empty.run (.register r.unit.backendName κ none ::
    (tensors.map .allocate ++ [.build { r with backendClass := κ.toClass }]))

end Process

/-- An outcome depends on the storages of the inputs only. -/
theorem ExecutionUnit.outcome_congr {u : ExecutionUnit} {flags : StaticInputs} {m n : Memory}
    {inputs : List HostBuffer} (h : ∀ b ∈ inputs, n.storage b.storage = m.storage b.storage) :
    u.outcome flags n inputs = u.outcome flags m inputs := by
  have hread : inputs.map n.read = inputs.map m.read :=
    List.map_congr_left fun b hb => by
      unfold Memory.read
      rw [h b hb]
  have harguments : u.arguments n inputs = u.arguments m inputs := by
    refine List.ext_getElem? fun q => ?_
    rw [arguments_getElem?, arguments_getElem?]
    cases hhost : inputs[q]? with
    | none => rfl
    | some b => rw [Option.map_some, Option.map_some, h b (List.mem_of_getElem? hhost)]
  unfold ExecutionUnit.outcome
  rw [hread, harguments]

/-! ### From call to call -/

/-- An executor after some calls, which have left these signatures in its cache, with host buffers
as in a memory. -/
structure ExecState.Stands (δ : Nat → DType) (u : ExecutionUnit) (flags : StaticInputs)
    (depth : Nat) (m : Memory) (before : List Signature) (s : ExecState) : Prop where
  /-- It is sound. -/
  sound : Sound δ s
  /-- It makes functions by lowering. -/
  lowers : s.executor.Lowers
  /-- Nobody vouches for copies. -/
  never : s.executor.tracker = .never
  /-- It is willing. -/
  willing : s.Willing
  /-- It runs the unit. -/
  unit : s.executor.unit = u
  /-- These inputs are static. -/
  statics : s.executor.statics = flags
  /-- There is room for so many artifacts. -/
  depth : s.cache.depth = depth
  /-- These signatures are listed. -/
  order : s.cache.order = before
  /-- Output buffers are separate. -/
  separate : s.outputs.Separate s.memory
  /-- They are as long as their specs say. -/
  sized : ∀ b ∈ s.outputs.buffers, (s.memory.read b).WellSized
  /-- They are not among the host buffers. -/
  apart : ∀ b ∈ s.outputs.buffers, m.storages.size ≤ b.storage
  /-- The host buffers are still there. -/
  size : m.storages.size ≤ s.memory.storages.size
  /-- They hold what they hold in the memory. -/
  storages : ∀ storage, storage < m.storages.size →
    s.memory.storage storage = m.storage storage

namespace ExecState.Stands

variable {δ : Nat → DType} {u : ExecutionUnit} {flags : StaticInputs} {depth : Nat} {m : Memory}
  {before listed : List Signature} {s t : ExecState} {inputs : List HostBuffer}

theorem presented (h : s.Stands δ u flags depth m before) (hc : m.Serves δ inputs) :
    Presented δ s inputs where
  dtypes := hasDTypes_read hc.dtypes
  live b hb := Nat.lt_of_lt_of_le (hc.live b hb) h.size
  filled b hb := by
    have := hc.filled b hb
    unfold Memory.read at this ⊢
    rwa [h.storages _ (hc.live b hb)]
  separate := h.separate
  sized := h.sized

theorem read_eq (h : s.Stands δ u flags depth m before) (hc : m.Serves δ inputs) :
    inputs.map s.memory.read = inputs.map m.read := by
  refine List.map_congr_left fun b hb => ?_
  unfold Memory.read
  rw [h.storages _ (hc.live b hb)]

theorem outcome_eq (h : s.Stands δ u flags depth m before) (hc : m.Serves δ inputs) :
    s.executor.unit.outcome s.executor.statics s.memory inputs = u.outcome flags m inputs := by
  rw [h.unit, h.statics]
  exact ExecutionUnit.outcome_congr fun b hb => h.storages _ (hc.live b hb)

/-- Only output buffers and the cache have changed. -/
theorem of_hostKept (h : s.Stands δ u flags depth m before) (hsound : Sound δ t)
    (hlater : s.Later t) (hlent : s.KeepsLent s.executor.config.pipelineDepth t)
    (hseparate : t.outputs.Separate t.memory) (hkept : s.HostKept t)
    (horder : t.cache.order = listed) : t.Stands δ u flags depth m listed where
  sound := hsound
  lowers := hlater.lowers_iff.2 h.lowers
  never := hlater.tracker.trans h.never
  willing := h.willing.of_later hlater hlent
  unit := hlater.unit.trans h.unit
  statics := hlater.statics.trans h.statics
  depth := hlater.depth.trans h.depth
  order := horder
  separate := hseparate
  sized := hkept.sized
  apart b hb := by
    rcases hkept.origin b hb with hold | hnew
    · exact h.apart b hold
    · exact Nat.le_trans h.size hnew
  size := Nat.le_trans h.size hlater.platform.memory.storages
  storages storage hlt := by
    rw [hkept.storages storage (Nat.lt_of_lt_of_le hlt h.size) fun b hb heq => ?_,
      h.storages storage hlt]
    exact absurd (heq ▸ h.apart b hb) (Nat.not_le.2 hlt)

/-- **One change** of a host buffer. -/
theorem write (h : s.Stands δ u flags depth m before) {storage : StorageId}
    (hlt : storage < m.storages.size) (bytes : Bytes) :
    ({ s with platform.memory := s.memory.setStorage storage bytes } : ExecState).Stands δ u flags
      depth (m.setStorage storage bytes) before := by
  have hextends := s.memory.extends_setStorage storage bytes
  have hlater : s.Later { s with platform.memory := s.memory.setStorage storage bytes } :=
    { ExecState.Later.refl s with platform := { Platform.Later.refl s.platform with memory := hextends } }
  -- No output buffer is changed.
  have hne : ∀ b ∈ s.outputs.buffers, b.storage ≠ storage := fun b hb heq =>
    absurd (heq ▸ h.apart b hb) (Nat.not_le.2 hlt)
  exact {
    h with
    sound := h.sound.of_later hlater rfl
    willing := h.willing.of_later hlater (.of_cache_eq rfl (Nat.le_refl _))
    separate := h.separate.of_extends hextends
    sized := fun b hb => by
      have := h.sized b hb
      unfold Memory.read at this ⊢
      rwa [Memory.storage_setStorage_of_ne _ _ (hne b hb)]
    apart := fun b hb => by
      rw [Memory.size_storages_setStorage]
      exact h.apart b hb
    size := by
      rw [Memory.size_storages_setStorage, Memory.size_storages_setStorage]
      exact h.size
    storages := fun j hj => by
      rw [Memory.size_storages_setStorage] at hj
      rw [Memory.storage_setStorage _ _ _ _ (Nat.lt_of_lt_of_le hlt h.size),
        Memory.storage_setStorage _ _ _ _ hlt, h.storages j hj] }

/-- **One call.** -/
theorem ends_perform (h : s.Stands δ u flags depth m before) (hc : m.Serves δ inputs)
    (hresults : ∀ computed f, u.lowered computed = .ok f → f.results ≠ [])
    (haccepts : ∀ f, u.function? flags m inputs = some f → ∃ x, Backend.accept f = .ok x) :
    Ends ((Request.execute inputs).perform s)
      (fun answer t => t.Stands δ u flags depth m ((u.outcome flags m inputs).order depth before) ∧
        ∃ r results, answer = .report r ∧ u.outcome flags m inputs = .done r.signature results ∧
          (r.hit = true ↔ r.signature ∈ before) ∧ (u.externalOutputs = [] →
            t.outputs.buffers.map (fun b => t.memory.storage b.storage) =
              results.map fun v => Tensor.bytesOfWords v.data))
      fun _ t => t.Stands δ u flags depth m ((u.outcome flags m inputs).order depth before) ∧
        ∀ signature results, u.outcome flags m inputs ≠ .done signature results := by
  have hpresented := h.presented hc
  have houtcome := h.outcome_eq hc
  -- The inputs hold what they hold in `m`, so the function to be compiled is the same.
  have haccepts' : ∀ computed f,
      Signature.compute s.executor.statics (inputs.map s.memory.read) = .ok computed →
      s.executor.unit.lowered computed = .ok f → ∃ x, Backend.accept f = .ok x := by
    intro computed f hcompute hlowered
    rw [h.statics, h.read_eq hc] at hcompute
    rw [h.unit] at hlowered
    refine haccepts f ?_
    unfold ExecutionUnit.function?
    rw [hcompute]
    exact congrArg Except.toOption hlowered
  have hperform := ((Request.execute inputs).later_perform s).and
    ((Request.execute inputs).keeps_perform (T := ExecState.KeepsSeparate) s)
  have hexecute := (ExecM.ends_execute_outcome h.sound h.lowers hpresented h.never h.willing
    hc.ne_nil (by rw [h.unit]; exact hresults) fun _ => haccepts').and
    ((ExecM.sound_execute h.sound hpresented fun _ => h.lowers.suits _).and
      (ExecM.ends_execute_lent h.sound.compiled inputs h.willing.coherent rfl))
  unfold Request.perform at hperform ⊢
  rw [ends_bind] at hperform ⊢
  refine (hperform.and hexecute).mono (fun r t ht => ?_) fun e t ht => ?_
  · obtain ⟨⟨hlater, hseparate⟩, ⟨hkept, hcomputes, hhit, horder⟩, hsound, hlent⟩ := ht
    obtain ⟨results, hdone, hbytes⟩ := hcomputes.outcome
    rw [houtcome] at hdone
    rw [h.order] at hhit
    refine ⟨h.of_hostKept hsound hlater hlent (hseparate h.separate) hkept ?_, r, results, rfl, hdone,
      hhit, fun hexternal => hbytes (by rw [h.unit]; exact hexternal)⟩
    rw [horder, hdone, h.depth, h.order]
    rfl
  · obtain ⟨⟨hlater, hseparate⟩, ⟨hkept, hwhy⟩, hsound, hlent⟩ := ht
    rw [houtcome] at hwhy
    rcases hwhy with ⟨hrefused, horder⟩ | ⟨signature, hfailed, horder⟩
    · rw [hrefused]
      exact ⟨h.of_hostKept hsound hlater hlent (hseparate h.separate) hkept (horder.trans h.order),
        nofun⟩
    · rw [hfailed]
      refine ⟨h.of_hostKept hsound hlater hlent (hseparate h.separate) hkept ?_, nofun⟩
      rw [horder, h.depth, h.order]
      rfl

end ExecState.Stands

namespace Process

variable {δ : Nat → DType} {u : ExecutionUnit} {flags : StaticInputs} {depth : Nat} {m : Memory}
  {before : List Signature} {w w' : Process} {e : Executor} {inputs : List HostBuffer}
  {turns : List Turn}

@[simp] theorem put_platform (w : Process) (k o : Nat) (s : ExecState) :
    (w.put k o s).platform = s.platform := rfl

/-- **One call of the first executor.** -/
theorem observe_of_stands (he : w.executors[0]? = some e)
    (h : (w.stateOf e 0).Stands δ u flags depth m before) (hc : m.Serves δ inputs)
    (hexternal : u.externalOutputs = [])
    (hresults : ∀ computed f, u.lowered computed = .ok f → f.results ≠ [])
    (haccepts : ∀ f, u.function? flags m inputs = some f → ∃ x, Backend.accept f = .ok x) :
    w.observe inputs = some ((u.outcome flags m inputs).observation depth before) ∧
      ∃ e', (w.step (.ask 0 0 (.execute inputs))).executors[0]? = some e' ∧
        ((w.step (.ask 0 0 (.execute inputs))).stateOf e' 0).Stands δ u flags depth m
          ((u.outcome flags m inputs).order depth before) := by
  obtain ⟨t, hput, hanswer⟩ := ask_of_ends he (h.ends_perform hc hresults haccepts)
  have hstep : w.step (.ask 0 0 (.execute inputs)) = w.put 0 0 t := hput
  have hexecutor : (w.put 0 0 t).executors[0]? = some t.executor :=
    List.getElem?_set_self (List.getElem?_eq_some_iff.1 he).1
  have hstands : t.Stands δ u flags depth m ((u.outcome flags m inputs).order depth before) := by
    rcases hanswer with ⟨-, -, ht, -⟩ | ⟨-, -, ht, -⟩
    · exact ht
    · exact ht
  refine ⟨?_, t.executor, hstep ▸ hexecutor, ?_⟩
  · unfold observe
    rw [hput, hexecutor, Option.map_some]
    rcases hanswer with ⟨a, ha, -, r, results, rfl, hdone, hhit, hbytes⟩ | ⟨error, herror, -, hnot⟩
    · have hhit' : r.hit = decide (r.signature ∈ before) := by
        rw [Bool.eq_iff_iff, hhit, decide_eq_true_iff]
      rw [ha]
      simp only [outputsOf_put, put_platform, if_pos]
      rw [hbytes hexternal, hstands.order, hdone, hhit']
      rfl
    · rw [herror]
      dsimp only
      rw [hstands.order]
      cases ho : u.outcome flags m inputs with
      | refused => rfl
      | failed signature => rfl
      | done signature results => exact absurd ho (hnot signature results)
  · rw [hstep, stateOf_put]
    exact hstands

/-- **All calls of the first executor.** -/
theorem observations_of_stands (he : w.executors[0]? = some e)
    (h : (w.stateOf e 0).Stands δ u flags depth m before) (hserves : m.ServesAll δ turns)
    (hexternal : u.externalOutputs = [])
    (hresults : ∀ computed f, u.lowered computed = .ok f → f.results ≠ [])
    (haccepts : ∀ f ∈ u.functions flags m turns, ∃ x, Backend.accept f = .ok x) :
    w.observations turns = u.expected flags depth m before turns := by
  induction turns generalizing w e m before with
  | nil => rfl
  | cons turn rest ih =>
    cases turn with
    | write storage bytes =>
      exact ih (w := w.step (.write storage bytes)) he (h.write hserves.1 bytes) hserves.2 haccepts
    | call inputs =>
      obtain ⟨hobserve, e', he', h'⟩ := observe_of_stands he h hserves.1 hexternal hresults
        fun f hf => haccepts f (List.mem_append_left _ (Option.mem_toList.2 hf))
      refine congrArg₂ List.cons hobserve (ih he' h' hserves.2 fun f hf => ?_)
      exact haccepts f (List.mem_append_right _ hf)

/-- Without an executor nothing is to be seen. -/
theorem observations_eq_of_nil (h : w.executors = []) (h' : w'.executors = []) :
    w.observations turns = w'.observations turns := by
  induction turns generalizing w w' with
  | nil => rfl
  | cons turn rest ih =>
    cases turn with
    | write storage bytes => exact ih h h'
    | call inputs =>
      have hask : ∀ {v : Process}, v.executors = [] → v.observe inputs = none ∧
          v.step (.ask 0 0 (.execute inputs)) = v := by
        intro v hv
        have hnone : v.executors[0]? = none := by rw [hv]; rfl
        refine ⟨?_, congrArg Prod.snd (ask_of_none hnone)⟩
        unfold observe
        rw [ask_of_none hnone, hnone]
        rfl
      unfold observations
      rw [(hask h).1, (hask h).2, (hask h').1, (hask h').2, ih h h']

/-! ### From the beginning -/

theorem run_allocate (w : Process) (tensors : List Tensor) :
    w.run (tensors.map .allocate) =
      w.change fun p => { p with memory := p.memory.holding tensors } := by
  induction tensors generalizing w with
  | nil => rfl
  | cons t rest ih =>
    change (w.step (.allocate t)).run (rest.map .allocate) = _
    rw [ih]
    rfl

/-- The platform that an executor is built on. -/
def furnished (κ : BackendKind) (name : String) (tensors : List Tensor) : Platform :=
  { (Platform.empty.register (.new name κ none)).2 with memory := Memory.empty.holding tensors }

theorem placed_eq (κ : BackendKind) (r : BuildRequest) (tensors : List Tensor) :
    placed κ r tensors = (Process.mk (furnished κ r.unit.backendName tensors) [] .empty).build
      { r with backendClass := κ.toClass } := by
  have hrun : placed κ r tensors =
      ((empty.step (.register r.unit.backendName κ none)).run (tensors.map .allocate)).step
        (.build { r with backendClass := κ.toClass }) := run_concat _ _ _
  rw [hrun, run_allocate]
  rfl

theorem registered_furnished (κ : BackendKind) (name : String) (tensors : List Tensor) :
    (furnished κ name tensors).registered.get? name = some 0 :=
  (SortedMap.get?_insert _ _ _ _).trans (if_pos rfl)

theorem findBackend_furnished (κ : BackendKind) (name : String) (tensors : List Tensor) :
    (furnished κ name tensors).findBackend name κ.toClass = .ok 0 := by
  unfold Platform.findBackend
  rw [registered_furnished]
  exact if_pos rfl

/-- **The first state.** An executor that has just been built stands before the first call. -/
theorem stands_of_built {κ : BackendKind} {r : BuildRequest} {tensors : List Tensor}
    {config : Config} {options : BackendOptions} {q : Platform}
    (hbuilt : { r with backendClass := κ.toClass }.Built (furnished κ r.unit.backendName tensors) e)
    (hsame : (furnished κ r.unit.backendName tensors).SameButOptions q)
    (htranslator : r.translator = some .lowering) (hnever : r.tracker = .never)
    (hsettings : r.settings = .ok (config, options)) (htable : config.aot = none)
    (hstatics : StaticInputs.analyze r.unit.graph r.query = .ok flags) :
    (⟨e, .empty, q⟩ : ExecState).Stands δ r.unit flags config.cacheDepth
      (Memory.empty.holding tensors) [] := by
  obtain ⟨options', hsettings'⟩ := hbuilt.settings
  have hconfig : e.config = config :=
    (congrArg Prod.fst (Except.ok.inj (hsettings.symm.trans hsettings'))).symm
  obtain ⟨hcache, hpipeline⟩ := BuildRequest.depth_pos hsettings
  have hbackend : e.backend = 0 :=
    (Except.ok.inj ((findBackend_furnished κ r.unit.backendName tensors).symm.trans
      hbuilt.backend)).symm
  -- Nothing has been called, so there is nothing in the cache.
  have hnone : ∀ id, e.cache.get? id = none := fun id => by
    rw [hbuilt.cache]
    rfl
  have hmemory : q.memory = Memory.empty.holding tensors := hsame.memory
  have hlater := hsame.later
  exact {
    sound := sound_of_built hbuilt
    lowers := ⟨hbuilt.translator.trans htranslator, hconfig ▸ htable⟩
    never := hbuilt.tracker.trans hnever
    willing := {
      quiet := by
        change (q.backend e.backend).Quiet
        rw [hbackend]
        exact hlater.quiet 0 rfl
      registered := by
        change q.isRegistered e.unit.backendName = true
        rw [hbuilt.unit]
        unfold Platform.isRegistered SortedMap.contains
        rw [hlater.registered, registered_furnished]
        rfl
      depth_pos := hconfig ▸ hpipeline
      coherent := fun id a ha => by
        change e.cache.get? id = some a at ha
        rw [hnone] at ha
        cases ha
      idle := fun id a ha => by
        change e.cache.get? id = some a at ha
        rw [hnone] at ha
        cases ha }
    unit := hbuilt.unit
    statics := Except.ok.inj (hbuilt.statics.symm.trans hstatics)
    depth := by
      change e.cache.depth = _
      rw [hbuilt.cache, hconfig]
      exact Nat.max_eq_left hcache
    order := by
      change e.cache.order = _
      rw [hbuilt.cache]
      rfl
    separate := OutputBuffers.separate_empty _
    sized := nofun
    apart := nofun
    size := Nat.le_of_eq (congrArg (·.storages.size) hmemory).symm
    storages := fun storage _ => by
      change q.memory.storage storage = _
      rw [hmemory] }

/-- **What is seen from the beginning** is what is to be seen. -/
theorem observations_placed {κ : BackendKind} {r : BuildRequest} {tensors : List Tensor}
    {config : Config} {options : BackendOptions}
    (htranslator : r.translator = some .lowering) (hnever : r.tracker = .never)
    (hexternal : r.unit.externalOutputs = [])
    (hretval : ∃ node ∈ r.unit.graph.nodes, node.isRetval = true)
    (hsettings : r.settings = .ok (config, options)) (htable : config.aot = none)
    (hstatics : StaticInputs.analyze r.unit.graph r.query = .ok flags)
    (hserves : (Memory.empty.holding tensors).ServesAll δ turns)
    (haccepts : ∀ f ∈ r.unit.functions flags (Memory.empty.holding tensors) turns,
      ∃ x, Backend.accept f = .ok x) :
    (placed κ r tensors).observations turns =
      r.unit.expected flags config.cacheDepth (Memory.empty.holding tensors) [] turns := by
  have hbuild := (Executor.ends_build { r with backendClass := κ.toClass }
    (furnished κ r.unit.backendName tensors)).and
    (Executor.ends_build_of_found (findBackend_furnished κ r.unit.backendName tensors) rfl)
  have hresults : ∀ computed f, r.unit.lowered computed = .ok f → f.results ≠ [] :=
    fun _ _ hlowered => ExecutionUnit.results_ne_nil_of_lowered hlowered hretval
  rw [placed_eq]
  unfold build
  cases hr : Executor.build { r with backendClass := κ.toClass }
      (furnished κ r.unit.backendName tensors) with
  | error error q => exact absurd hstatics ((hbuild.error hr).2 _ _ hsettings)
  | ok e q =>
    obtain ⟨⟨hbuilt, hsame⟩, -⟩ := hbuild.ok hr
    exact observations_of_stands rfl
      (stands_of_built hbuilt hsame htranslator hnever hsettings htable hstatics) hserves hexternal
      hresults haccepts

/-- If nothing can be built on one kind of backend, nothing can be built on any. -/
theorem executors_placed_eq_nil {κ : BackendKind} {r : BuildRequest} {tensors : List Tensor}
    (h : ∀ settings statics, r.settings = .ok settings →
      StaticInputs.analyze r.unit.graph r.query ≠ .ok statics) :
    (placed κ r tensors).executors = [] := by
  have hbuild := Executor.ends_build { r with backendClass := κ.toClass }
    (furnished κ r.unit.backendName tensors)
  rw [placed_eq]
  unfold build
  cases hr : Executor.build { r with backendClass := κ.toClass }
      (furnished κ r.unit.backendName tensors) with
  | error error q => rfl
  | ok e q =>
    obtain ⟨hbuilt, -⟩ := hbuild.ok hr
    obtain ⟨options, hsettings⟩ := hbuilt.settings
    exact absurd hbuilt.statics (h _ _ hsettings)

end Process

/-- **The kinds of backends cannot be told apart.** Whatever the graph, the configuration and the
static inputs, whatever is called and whatever is changed between the calls: what is seen of a unit
is the same on the reference backend and on a recording backend of any mode, if only the graph has an
output, no output is bound elsewhere, nobody vouches for copies, and the reference backend takes the
functions that lowering makes for the calls. -/
theorem observations_eq (δ : Nat → DType) (r : BuildRequest) (tensors : List Tensor)
    (turns : List Turn) (κ κ' : BackendKind) (htranslator : r.translator = some .lowering)
    (htable : ∀ config options, r.settings = .ok (config, options) → config.aot = none)
    (hnever : r.tracker = .never) (hexternal : r.unit.externalOutputs = [])
    (hretval : ∃ node ∈ r.unit.graph.nodes, node.isRetval = true)
    (hserves : (Memory.empty.holding tensors).ServesAll δ turns)
    (haccepts : ∀ flags, StaticInputs.analyze r.unit.graph r.query = .ok flags →
      ∀ f ∈ r.unit.functions flags (Memory.empty.holding tensors) turns,
        ∃ x, Backend.accept f = .ok x) :
    (Process.placed κ r tensors).observations turns =
      (Process.placed κ' r tensors).observations turns := by
  by_cases h : ∃ settings flags, r.settings = .ok settings ∧
      StaticInputs.analyze r.unit.graph r.query = .ok flags
  · obtain ⟨⟨config, options⟩, flags, hsettings, hstatics⟩ := h
    have hseen : ∀ κ, (Process.placed κ r tensors).observations turns =
        r.unit.expected flags config.cacheDepth (Memory.empty.holding tensors) [] turns := fun κ =>
      Process.observations_placed htranslator hnever hexternal hretval hsettings
        (htable _ _ hsettings) hstatics hserves (haccepts flags hstatics)
    rw [hseen κ, hseen κ']
  · have hnone : ∀ settings statics, r.settings = .ok settings →
        StaticInputs.analyze r.unit.graph r.query ≠ .ok statics :=
      fun settings statics hsettings hstatics => h ⟨settings, statics, hsettings, hstatics⟩
    exact Process.observations_eq_of_nil (Process.executors_placed_eq_nil hnone)
      (Process.executors_placed_eq_nil hnone)

/-- Two scalars. -/
def twoScalars : List Tensor := [⟨⟨.f32, [1]⟩, [0, 0, 128, 63]⟩, ⟨⟨.f32, [1]⟩, [0, 0, 0, 64]⟩]

/-- Their sum, and the sum when the first one is another. -/
def twoSums : List Turn :=
  [.call [⟨⟨.f32, [1]⟩, 0⟩, ⟨⟨.f32, [1]⟩, 1⟩], .write 0 [0, 0, 160, 64],
    .call [⟨⟨.f32, [1]⟩, 0⟩, ⟨⟨.f32, [1]⟩, 1⟩]]

/-- One and two make three, and five and two make seven, in a pipeline as well. -/
theorem seven_of_twoSums :
    (Process.placed (.recording .pipelined) .sampleSum twoScalars).observations twoSums =
      (Process.placed .reference .sampleSum twoScalars).observations twoSums ∧
    (Process.placed .reference .sampleSum twoScalars).observations twoSums =
      [some ⟨some ("1,;1,;/", false), ["1,;1,;/"], [[0, 0, 64, 64]]⟩,
        some ⟨some ("1,;1,;/", true), ["1,;1,;/"], [[0, 0, 224, 64]]⟩] := by
  have hserves : ∀ m : Memory, m.storages.size = 2 → (m.storage 0).length = 4 →
      (m.storage 1).length = 4 →
      m.Serves (fun _ => .f32) [⟨⟨.f32, [1]⟩, 0⟩, ⟨⟨.f32, [1]⟩, 1⟩] := by
    intro m hsize hzero hone
    refine ⟨nofun, ?_, ?_, ?_⟩
    · rintro (_ | _ | q) d hd
      · cases hd; rfl
      · cases hd; rfl
      · cases hd
    · simp [hsize]
    · simp [Memory.read, Tensor.WellSized, hzero, hone]
      decide
  have haccepts : ∀ flags, StaticInputs.analyze BuildRequest.sampleSum.unit.graph
      BuildRequest.sampleSum.query = .ok flags →
      ∀ f ∈ BuildRequest.sampleSum.unit.functions flags (Memory.empty.holding twoScalars) twoSums,
        ∃ x, Backend.accept f = .ok x := by
    intro flags hflags
    have hstatics : (StaticInputs.analyze BuildRequest.sampleSum.unit.graph
        BuildRequest.sampleSum.query).toOption = some ⟨[false, false]⟩ := by decide +kernel
    rw [hflags] at hstatics
    obtain rfl := Option.some.inj hstatics
    have hfunctions : BuildRequest.sampleSum.unit.functions ⟨[false, false]⟩
        (Memory.empty.holding twoScalars) twoSums = [sumFunction .f32, sumFunction .f32] := by
      decide +kernel
    rw [hfunctions]
    intro f hf
    obtain rfl : f = sumFunction .f32 := by simpa using hf
    have haccept : (Backend.accept (sumFunction .f32)).toOption.isSome = true := by decide +kernel
    cases ha : Backend.accept (sumFunction .f32) with
    | ok x => exact ⟨x, rfl⟩
    | error e =>
      rw [ha] at haccept
      cases haccept
  refine ⟨observations_eq (fun _ => .f32) .sampleSum twoScalars twoSums _ _ rfl ?_ rfl rfl ?_ ?_
    haccepts, by decide +kernel⟩
  · intro config options hsettings
    have hstandard : BuildRequest.sampleSum.settings = .ok (.standard, .empty) := rfl
    rw [hstandard] at hsettings
    exact congrArg (fun settings => settings.1.aot) (Except.ok.inj hsettings).symm
  · decide +kernel
  · refine ⟨hserves _ ?_ ?_ ?_, ?_, hserves _ ?_ ?_ ?_, trivial⟩
    all_goals decide +kernel

end TensorJit
