import TensorJit.Proofs.Executor.Compile

/-!
# Where a call fails

A call goes through stages, and an error says in which of them it stopped (`Error.stage?`): an
artifact is missing, an input is fed, a tensor for an output is made, the executable is called, an
output is read. A look-up has errors of its own, which belong to no stage (`ExecM.LookupFault`).

A step that works on an artifact keeps it in the cache, whatever else it does, so **an artifact that
is there when a call sets out is there throughout it** (`ExecM.Raises`), and none of the stages that
follow the look-up finds it missing.
-/

namespace TensorJit

/-- The stages of a call in which it can fail. -/
inductive Stage where
  /-- An artifact is not in the cache. -/
  | missing
  /-- An input is served or fed. -/
  | feeding
  /-- A tensor is made for an output. -/
  | offering
  /-- The executable is called. -/
  | calling
  /-- An output is read. -/
  | reading
  deriving DecidableEq

/-- The stage that a fault belongs to, if any. -/
def InternalFault.stage? : InternalFault → Option Stage
  | .notCached _ => some .missing
  | .creation .input _ _ | .shortInput .. | .transfer .. | .noPipelineInput _ => some .feeding
  | .creation .output _ _ => some .offering
  | .call .. => some .calling
  | .reading .. => some .reading
  | _ => none

/-- The stage that an error belongs to, if any. -/
def Error.stage? : Error → Option Stage
  | .internal _ fault => fault.stage?
  | _ => none

/-- The artifact with an identity is in the cache. -/
def ExecState.Has (s : ExecState) (id : ArtifactId) : Prop := (s.cache.get? id).isSome = true

theorem ExecState.Has.of_some {s : ExecState} {id : ArtifactId} {a : Artifact}
    (h : s.cache.get? id = some a) : s.Has id := by
  rw [Has, h]
  rfl

/-- The artifacts that are there stay so when they get other tensors. -/
theorem ExecState.SameArtifacts.has_iff {s t : ExecState} (h : s.SameArtifacts t)
    {id : ArtifactId} : t.Has id ↔ s.Has id := by
  have hbare := congrArg Option.isSome (h.bare id)
  rw [Option.isSome_map, Option.isSome_map] at hbare
  rw [Has, Has, hbare]

namespace ExecM

variable {α β : Type} {s : ExecState}

/-! ### Looking up -/

/-- **How a look-up can fail**: the values of its inputs cannot be written, the unit is
misconfigured, the backend is not registered, the function does not compile, the index leads
nowhere, or the maker of functions fails for these inputs. -/
inductive LookupFault (s : ExecState) (inputs : List HostBuffer) : Error → Prop where
  /-- Values of inputs, or a stored function. -/
  | serialization (fault : SerializationFault) : LookupFault s inputs (.serialization fault)
  /-- The unit. -/
  | config (cause : Misconfiguration) : LookupFault s inputs (.configInvalid cause)
  /-- The backend. -/
  | unavailable (name : String) : LookupFault s inputs (.backendUnavailable name)
  /-- The function. -/
  | compile (unit backend : String) (signature : Signature) (fault : CompileFault)
      (dump : Option FilePath) :
    LookupFault s inputs (.compileFailed unit backend signature fault dump)
  /-- The index. -/
  | missing (signature : Signature) (id : ArtifactId) (hindex : s.cache.peek? signature = some id)
      (hnone : s.cache.get? id = none) :
    LookupFault s inputs (.internal s.executor.unit.name (.notCached id))
  /-- The maker of functions. -/
  | translation (computed : Signature.Computed) (translate : Translator) (error : Error)
      (hcompute : Signature.compute s.executor.statics (inputs.map s.memory.read) = .ok computed)
      (htranslator : s.executor.translator = some translate)
      (herror : translate s.executor.unit.graph computed.specs computed.statics = .error error) :
    LookupFault s inputs error

/-- No function is found on the table, or none can be made. -/
theorem fault_obtainFunction {u : ExecState} {inputs : List HostBuffer}
    {computed : Signature.Computed} (hexecutor : u.executor.translator = s.executor.translator ∧
      u.executor.unit = s.executor.unit)
    (hcompute : Signature.compute s.executor.statics (inputs.map s.memory.read) = .ok computed) :
    Ends (obtainFunction computed u) (fun _ _ => True) fun e _ => LookupFault s inputs e := by
  unfold obtainFunction
  rw [ends_bind, ends_executor]
  cases u.executor.config.aot with
  | some table =>
    dsimp only
    rcases table.function? computed.signature with _ | _ | f
    · exact .config _
    · exact .serialization _
    · exact trivial
  | none =>
    cases htranslator : u.executor.translator with
    | none => exact .config _
    | some translate =>
      dsimp only
      rw [ends_bind, ends_changePlatform, ends_bind, ends_ofExcept]
      refine ⟨fun _ _ => trivial, fun e he => ?_⟩
      rw [hexecutor.2] at he
      exact .translation computed translate e hcompute (hexecutor.1 ▸ htranslator) he

/-- Once it is known what the backend is asked for, there are two ways to fail. -/
theorem fault_request (u : ExecState) (inputs : List HostBuffer) (signature : Signature)
    (f : Function) (step : BackendM Executable) (loaded : Bool) :
    Ends ((do
      changePlatform (·.compileStep "compile")
      ofExcept ((← platform).lock u.executor.unit.backendName)
      let result ← tryBackend step
      match result with
      | .ok executable =>
        count fun c =>
          if loaded then { c with loads := c.loads + 1 }
          else { c with compiles := c.compiles + 1 }
        return executable
      | .error error =>
        let path ← dump (errorDumpPath u.executor.config.dumpDirectory u.executor.unit.name) f
        changePlatform (·.note (.compileFailed signature))
        throw (.compileFailed u.executor.unit.name u.executor.unit.backendName signature
          (.backend error) path) : ExecM Executable) u)
      (fun _ _ => True) fun e _ => LookupFault s inputs e := by
  rw [ends_bind, ends_changePlatform, ends_bind, ends_platform, ends_bind, ends_ofExcept]
  refine ⟨fun _ _ => ?_, fun e he => ?_⟩
  · rw [ends_bind, ends_tryBackend]
    refine (ends_trivial _).mono (fun _ _ _ => trivial) fun e d _ => ?_
    dsimp only
    -- The path has to be opaque, or elaboration tries to compute it.
    generalize errorDumpPath u.executor.config.dumpDirectory u.executor.unit.name = path
    rw [ends_bind]
    refine (aside_dump path f _).mono (fun _ _ _ => ?_) fun _ _ h => h.elim
    rw [ends_bind, ends_changePlatform, ends_throw]
    exact .compile _ _ _ _ _
  · unfold Platform.lock at he
    split at he
    · cases he
    · cases he
      exact .unavailable _

/-- Compiling fails because of the unit or because of the backend. -/
theorem fault_compile (u : ExecState) (inputs : List HostBuffer) (signature : Signature)
    (f : Function) :
    Ends (compile signature f u) (fun _ _ => True) fun e _ => LookupFault s inputs e := by
  unfold compile serializedFor
  rw [ends_bind, ends_executor, ends_bind, ends_bind, ends_executor]
  cases u.executor.config.aot with
  | none => exact fault_request u inputs signature f (Backend.compile f) false
  | some table =>
    dsimp only
    cases table.executable? signature with
    | none => exact .config _
    | some bytes => exact fault_request u inputs signature f (Backend.load bytes) true

/-- **Every error of a look-up** is one of these. -/
theorem fault_getExecutable (inputs : List HostBuffer) :
    Ends (getExecutable inputs s) (fun _ _ => True) fun e _ => LookupFault s inputs e := by
  -- Once there is a function, only its compilation can fail.
  have hrest : ∀ (signature : Signature) (f : Function) (u : ExecState), Ends ((do
      let executable ← compile signature f
      let id ← keep signature executable f
      return (⟨id, executable, signature, false⟩ : Lookup)) u) (fun _ _ => True)
      fun e _ => LookupFault s inputs e := by
    intro signature f u
    rw [ends_bind]
    refine (fault_compile u inputs signature f).mono (fun x v _ => ?_) fun _ _ h => h
    rw [ends_bind]
    exact (ends_keep_cache signature x f).mono (fun _ _ _ => trivial) fun _ _ h => h.elim
  unfold getExecutable computeSignature
  rw [ends_bind, ends_bind, ends_get, ends_ofExcept]
  refine ⟨fun computed hcomputed => ?_, fun e he => ?_⟩
  · have hcompute := mapError_eq_ok.1 hcomputed
    rw [ends_bind, ends_get]
    rcases hl : s.executor.cache.lookup computed.signature with ⟨_ | id, c⟩
    · dsimp only
      rw [ends_bind, ends_set]
      unfold compileNew
      rw [ends_bind, ends_count, ends_bind, ends_changePlatform, ends_bind]
      refine (fault_obtainFunction (by exact ⟨rfl, rfl⟩) hcompute).mono (fun f t _ => ?_)
        fun _ _ h => h
      rw [ends_bind, ends_executor]
      dsimp only
      split
      · rw [ends_bind, ends_discard]
        generalize dumpPath t.executor.config.dumpDirectory t.executor.unit.name = path
        exact (aside_dump path f t).mono (fun _ v _ => hrest _ f v) fun _ _ h => h.elim
      · exact hrest _ f t
    · dsimp only
      rw [ends_bind, ends_set]
      unfold useCached
      rw [ends_bind]
      refine ends_artifact.2 ⟨fun _ _ => trivial, fun hnone => ?_⟩
      obtain ⟨hindex, rfl⟩ := Cache.lookup_eq_some hl
      exact .missing computed.signature id hindex hnone
  · obtain ⟨fault, -, rfl⟩ := mapError_eq_error.1 he
    exact .serialization _

/-! ### Working on an artifact -/

/-- An artifact that is in the cache stays there, and the errors of the step are of one kind. -/
def Raises (id : ArtifactId) (F : Error → Prop) (x : ExecM α) : Prop :=
  ∀ s : ExecState, s.Has id → Ends (x s) (fun _ t => t.Has id) fun e t => t.Has id ∧ F e

section Raises

variable {id : ArtifactId} {F : Error → Prop} {x : ExecM α} {f : α → ExecM β}

/-- What is said of the errors may be said less exactly. -/
theorem Raises.mono {F' : Error → Prop} (h : Raises id F x) (hF : ∀ e, F e → F' e) :
    Raises id F' x :=
  fun s hs => (h s hs).mono (fun _ _ ht => ht) fun e _ ht => ⟨ht.1, hF e ht.2⟩

/-- **One step after another** raises what either does, since the artifact is still there in
between. -/
theorem Raises.bind (hx : Raises id F x) (hf : ∀ a, Raises id F (f a)) : Raises id F (x >>= f) :=
  fun s hs => ends_bind.2 ((hx s hs).mono (fun a t ht => hf a t ht) fun _ _ ht => ht)

theorem Raises.discard (hx : Raises id F x) : Raises id F (discard x) :=
  fun s hs => ends_discard.2 (hx s hs)

/-- So do many. -/
theorem Raises.mapM {g : β → ExecM α} (hg : ∀ b, Raises id F (g b)) (l : List β) :
    Raises id F (l.mapM g) := fun _ hs =>
  ends_mapM (I := fun _ _ t => t.Has id)
    (fun _ b _ _ t _ ht => (hg b t ht).mono (fun _ _ hu => hu) fun _ _ hu => hu) hs

theorem Raises.forM {g : β → ExecM PUnit} (hg : ∀ b, Raises id F (g b)) (l : List β) :
    Raises id F (l.forM g) := fun _ hs =>
  ends_forM (I := fun _ t => t.Has id)
    (fun _ b _ t _ ht => (hg b t ht).mono (fun _ _ hu => hu) fun _ _ hu => hu) hs

theorem raises_pure (a : α) : Raises id F (pure a : ExecM α) := fun _ hs => hs

theorem raises_get : Raises id F (get : ExecM ExecState) := fun _ hs => hs

/-- What is thrown is raised. -/
theorem raises_throw {e : Error} (h : F e) : Raises id F (throw e : ExecM α) :=
  fun _ hs => ⟨hs, h⟩

theorem raises_executor : Raises id F executor := fun _ hs => hs

theorem raises_platform : Raises id F platform := fun _ hs => hs

theorem raises_kind : Raises id F kind := fun _ hs => hs

theorem raises_changePlatform (change : Platform → Platform) :
    Raises id F (changePlatform change) := fun _ hs => hs

theorem raises_count (change : Stats → Stats) : Raises id F (count change) := fun _ hs => hs

/-- An internal error of the executor names its unit, and is otherwise the given one. -/
theorem raises_fail {fault : InternalFault} (h : ∀ unit, F (.internal unit fault)) :
    Raises id F (fail fault : ExecM α) := fun _ hs => ⟨hs, h _⟩

/-- A step of the backend raises nothing as long as its errors are only looked at. -/
theorem raises_tryBackend (step : BackendM α) : Raises id F (tryBackend step) := fun s hs =>
  ends_tryBackend.2 ((ends_trivial (step s.device)).mono (fun _ _ _ => hs) fun _ _ _ => hs)

/-- **An error of the backend** becomes the internal error that says in which step it happened. -/
theorem raises_onBackend {step : BackendM α} {fault : BackendError → InternalFault}
    (h : ∀ unit e, F (.internal unit (fault e))) : Raises id F (onBackend fault step) :=
  fun s hs => ends_onBackend.2
    ((ends_trivial (step s.device)).mono (fun _ _ _ => hs) fun _ _ _ => ⟨hs, h _ _⟩)

/-- **The artifact is found.** -/
theorem raises_artifact : Raises id F (artifact id) := fun s hs =>
  ends_artifact.2 ⟨fun _ _ => hs, fun hnone => by rw [ExecState.Has, hnone] at hs; cases hs⟩

/-- The artifact stays when it gets other tensors. -/
theorem raises_setArtifact (a : Artifact) : Raises id F (setArtifact id a) := fun s hs => by
  rw [ends_setArtifact]
  unfold ExecState.Has at hs ⊢
  change ((s.cache.update id a).get? id).isSome = true
  rw [Cache.get?_update, if_pos rfl, Option.isSome_map]
  exact hs

/-! ### Serving and feeding -/

/-- **Copying an input** fails while inputs are fed: the bytes are too few, or the backend refuses
them. -/
theorem raises_writeInput (position : Nat) (tensor : TensorId) (host : HostBuffer) :
    Raises id (·.stage? = some .feeding) (writeInput position tensor host) := by
  have hcopy : ∀ (needed : Nat) (bytes : Bytes), Raises id (·.stage? = some .feeding) (do
      onBackend (.transfer position) (Backend.write tensor bytes 0)
      changePlatform (·.cacheEvent "input_copy")
      return needed) := fun needed bytes =>
    (raises_onBackend fun _ _ => rfl).bind fun _ => (raises_changePlatform _).bind fun _ =>
      raises_pure needed
  refine raises_platform.bind fun p => ?_
  dsimp only
  split
  · exact (raises_fail fun _ => rfl).bind fun _ => hcopy _ _
  · exact hcopy _ _

/-- An input is served from a slot of the artifact: its tensor cannot be made, or it cannot be
copied. -/
theorem raises_serveInput (position : Nat) (host : HostBuffer) :
    Raises id (·.stage? = some .feeding) (serveInput id position host) := by
  refine raises_executor.bind fun e => ?_
  dsimp only
  split
  · exact raises_pure _
  · refine raises_artifact.bind fun a => raises_platform.bind fun p =>
      (raises_onBackend fun _ _ => rfl).bind fun ⟨r, slots⟩ => (raises_setArtifact _).bind fun _ =>
      raises_kind.bind fun κ => ?_
    dsimp only
    split
    · exact (raises_writeInput position _ host).bind fun _ =>
        (raises_changePlatform _).bind fun _ => raises_pure _
    · exact raises_pure _

/-- An output is served from a slot: its tensor cannot be made. -/
theorem raises_serveOutput (position : Nat) (host : HostBuffer) :
    Raises id (·.stage? = some .offering) (serveOutput id position host) := by
  refine raises_executor.bind fun e => ?_
  dsimp only
  split
  · exact raises_pure _
  · exact raises_artifact.bind fun a => raises_platform.bind fun p =>
      (raises_onBackend fun _ _ => rfl).bind fun ⟨r, slots⟩ => (raises_setArtifact _).bind fun _ =>
      raises_pure _

/-- So it is for all inputs. -/
theorem raises_allocateInputs (inputs : List HostBuffer) :
    Raises id (·.stage? = some .feeding) (allocateInputs id inputs) :=
  raises_artifact.discard.bind fun _ =>
    (Raises.mapM (fun b : HostBuffer × Nat => raises_serveInput b.2 b.1) _).bind fun _ =>
    (raises_count _).bind fun _ => raises_pure _

/-- So it is for all outputs. -/
theorem raises_allocateOutputs (outputs : List HostBuffer) :
    Raises id (·.stage? = some .offering) (allocateOutputs id outputs) :=
  raises_artifact.discard.bind fun _ =>
    (Raises.mapM (fun b : HostBuffer × Nat => raises_serveOutput b.2 b.1) _).bind fun _ =>
    (raises_count _).bind fun _ => raises_pure _

theorem raises_markStale (tensor : TensorId) : Raises id F (markStale tensor) :=
  (raises_tryBackend _).discard

/-- An input of a group has no tensor there, or cannot be copied. -/
theorem raises_feedInput (group : PipelineGroup TensorId) (position : Nat) (host : HostBuffer) :
    Raises id (·.stage? = some .feeding) (feedInput group position host) := by
  refine raises_executor.bind fun e => ?_
  split
  · exact raises_pure _
  · split
    · exact raises_fail fun _ => rfl
    · exact (raises_markStale _).bind fun _ => (raises_writeInput position _ host).bind fun _ =>
        raises_pure _

/-- The tensor of an output of a group is there already, so that nothing can fail. -/
theorem raises_offerOutput (position : Nat) (tensor : TensorId) :
    Raises id F (offerOutput position tensor) := by
  refine raises_executor.bind fun e => ?_
  split
  · exact raises_pure _
  · exact (raises_markStale _).bind fun _ => raises_pure _

/-! ### Calling and reading -/

/-- **Calling** fails in one way for the executor, whatever it was that failed in the backend. -/
theorem raises_callExecutable (e : Executable) (outputs inputs : List (Option TensorId)) :
    Raises id (·.stage? = some .calling) (callExecutable e outputs inputs) :=
  raises_executor.bind fun _ => raises_onBackend fun _ _ => rfl

/-- **Reading back** fails at the position that is read. -/
theorem raises_readOutput (position : Nat) (tensor : TensorId) (host : HostBuffer) :
    Raises id (·.stage? = some .reading) (readOutput position tensor host) :=
  raises_platform.bind fun _ => (raises_onBackend fun _ _ => rfl).bind fun _ =>
    raises_changePlatform _

/-- So it is for all positions. -/
theorem raises_readOutputs (tensors : List (Option TensorId)) :
    Raises id (·.stage? = some .reading) (readOutputs tensors) :=
  raises_get.bind fun _ => Raises.forM (fun ⟨⟨tensor, host⟩, position⟩ => by
    cases tensor with
    | some tensor => exact raises_readOutput position tensor host
    | none => exact raises_pure _) _

theorem raises_invalidateOutputs : Raises id F invalidateOutputs :=
  raises_get.bind fun _ => Raises.forM (fun ⟨buffer, position⟩ => by
    dsimp only
    split
    · exact raises_pure _
    · exact raises_changePlatform _) _

theorem raises_prepareOutputs (specs : List TensorSpec) : Raises id F (prepareOutputs specs) :=
  fun _ hs => hs

/-! ### Groups -/

/-- The tensors of a row cannot be made. -/
theorem raises_makeRow (e : Executable) (side : Side) (position : Nat) :
    Raises id (·.stage? = none) (makeRow e side position) :=
  raises_executor.bind fun _ => raises_onBackend fun _ _ => rfl

/-- **Making a pipeline** belongs to no stage of a call: its tensors cannot be made, or it has no
positions or no groups. -/
theorem raises_makePipeline (e : Executable) : Raises id (·.stage? = none) (makePipeline e) := by
  refine (Raises.mapM (raises_makeRow e .input) _).bind fun ins =>
    (Raises.mapM (raises_makeRow e .output) _).bind fun outs => raises_executor.bind fun x => ?_
  cases Pipeline.ofRows ins outs x.config.pipelineDepth with
  | ok p => exact raises_pure p
  | error fault => exact raises_fail fun _ => rfl

/-- To lend a group of a pipeline fails when all are in flight, which belongs to no stage. -/
theorem raises_lend (e : Executor) (a : Artifact) (p : Pipeline TensorId) :
    Raises id (·.stage? = none) (do
      setArtifact id { a with pipeline := some p }
      match p.acquire? with
      | none => throw (Error.resourceExhausted e.unit.name "no free tensor available")
      | some (group, p) =>
        setArtifact id { a with pipeline := some p }
        return group) := by
  refine (raises_setArtifact _).bind fun _ => ?_
  cases p.acquire? with
  | none => exact raises_throw rfl
  | some found => exact (raises_setArtifact _).bind fun _ => raises_pure _

/-- **Borrowing a group** belongs to no stage either. -/
theorem raises_acquireGroup : Raises id (·.stage? = none) (acquireGroup id) := by
  refine raises_executor.bind fun e => raises_kind.bind fun κ => ?_
  dsimp only
  split
  · exact fun _ hs => ⟨hs, rfl⟩
  · refine raises_artifact.bind fun a => ?_
    cases a.pipeline with
    | some p => exact raises_lend e a p
    | none => exact (raises_makePipeline _).bind fun p => raises_lend e a p

/-- Nor does giving one back. -/
theorem raises_returnGroup (index : Nat) : Raises id (·.stage? = none) (returnGroup id index) := by
  refine raises_artifact.bind fun a => ?_
  cases a.pipeline with
  | none => exact raises_fail fun _ => rfl
  | some p =>
    dsimp only
    cases p.giveBack index with
    | ok p => exact raises_setArtifact _
    | error fault => exact raises_fail fun _ => rfl

end Raises

/-! ### Nothing is missing after a look-up -/

/-- An error of a stage other than the one where something is missing. -/
theorem ne_missing {o : Option Stage} {stage : Stage} (hstage : stage ≠ .missing)
    (h : o = some stage) : o ≠ some .missing := by
  rw [h]
  exact fun heq => hstage (Option.some.inj heq)

/-- **On slots** every error is one of serving, of calling or of reading, so nothing is missing. -/
theorem raises_runOnSlots (found : Lookup) (inputs : List HostBuffer) :
    Raises found.artifact (·.stage? ≠ some .missing) (runOnSlots found inputs) := by
  refine ((raises_allocateInputs _).mono fun _ => ne_missing nofun).bind fun ins =>
    raises_get.bind fun s => ((raises_allocateOutputs _).mono fun _ => ne_missing nofun).bind
      fun outs => ((raises_callExecutable _ _ _).mono fun _ => ne_missing nofun).bind fun _ =>
      raises_kind.bind fun κ => ?_
  dsimp only
  split
  · exact ((raises_readOutputs _).mono fun _ => ne_missing nofun).bind fun _ => raises_pure _
  · exact raises_pure _

/-- **On a group** it is one of feeding, of calling or of reading. -/
theorem raises_runOnGroup (found : Lookup) (group : PipelineGroup TensorId)
    (inputs : List HostBuffer) :
    Raises found.artifact (·.stage? ≠ some .missing) (runOnGroup found group inputs) :=
  (Raises.mapM (fun b : HostBuffer × Nat =>
      (raises_feedInput group b.2 b.1).mono fun _ => ne_missing nofun) _).bind fun _ =>
    (Raises.mapM (fun b : TensorId × Nat => raises_offerOutput b.2 b.1) _).bind fun _ =>
    ((raises_callExecutable _ _ _).mono fun _ => ne_missing nofun).bind fun _ =>
    ((raises_readOutputs _).mono fun _ => ne_missing nofun).bind fun _ =>
    (raises_count _).bind fun _ => raises_pure _

/-- Nothing is missing when a group is borrowed before and given back afterwards. -/
theorem raises_runPipelined (found : Lookup) (inputs : List HostBuffer) :
    Raises found.artifact (·.stage? ≠ some .missing) (runPipelined found inputs) := by
  have hnone : ∀ e : Error, e.stage? = none → e.stage? ≠ some .missing := fun e h => by
    rw [h]
    exact nofun
  refine (raises_acquireGroup.mono hnone).bind fun group => ?_
  -- The error of the run is a value until the group has been given back.
  intro s hs
  rw [ends_bind, ends_observe]
  refine (raises_runOnGroup found group inputs s hs).mono (fun report t ht => ?_)
    fun e t ht => ?_
  · exact ((raises_returnGroup _).mono hnone).bind (fun _ => raises_pure report) t ht
  · exact ((raises_returnGroup _).mono hnone).bind (fun _ => raises_throw ht.2) t ht.1

/-- **What a call does after its look-up** never finds the artifact missing. -/
theorem raises_runFound (found : Lookup) (inputs : List HostBuffer) :
    Raises found.artifact (·.stage? ≠ some .missing) (runFound found inputs) := by
  have hend : ∀ report : Report, Raises found.artifact (·.stage? ≠ some .missing) (do
      invalidateOutputs
      count fun c => { c with executions := c.executions + 1 }
      return report) := fun report =>
    raises_invalidateOutputs.bind fun _ => (raises_count _).bind fun _ => raises_pure report
  have hrest : Raises found.artifact (·.stage? ≠ some .missing) (do
      prepareOutputs found.executable.function.results
      let report ← if (← kind).isPipelined then runPipelined found inputs
        else runOnSlots found inputs
      invalidateOutputs
      count fun c => { c with executions := c.executions + 1 }
      return report) := by
    refine (raises_prepareOutputs _).bind fun _ => raises_kind.bind fun κ => ?_
    split
    · exact (raises_runPipelined found inputs).bind hend
    · exact (raises_runOnSlots found inputs).bind hend
  unfold runFound
  dsimp only
  split
  · exact (raises_fail fun _ => nofun).bind fun _ => hrest
  · exact hrest

/-- A look-up in a cache whose parts agree finds an artifact missing only if the maker of functions
says so. -/
theorem LookupFault.translation_of_missing {inputs : List HostBuffer} {e : Error}
    (h : LookupFault s inputs e) (hcache : s.cache.Agrees) (he : e.stage? = some .missing) :
    ∃ computed translate, Signature.compute s.executor.statics (inputs.map s.memory.read) =
        .ok computed ∧ s.executor.translator = some translate ∧
      translate s.executor.unit.graph computed.specs computed.statics = .error e := by
  cases h with
  | serialization fault => cases he
  | config cause => cases he
  | unavailable name => cases he
  | compile unit backend signature fault dump => cases he
  | missing signature id hindex hnone =>
    obtain ⟨a, ha, -⟩ := hcache.indexed signature id hindex
    rw [hnone] at ha
    cases ha
  | translation computed translate _ hcompute htranslator herror =>
    exact ⟨computed, translate, hcompute, htranslator, herror⟩

/-- **A call finds an artifact missing only if the maker of functions says so.** -/
theorem missing_execute {P : List Tensor → Prop} (h : Compiled P s) (inputs : List HostBuffer) :
    Ends (execute inputs s) (fun _ _ => True) fun e _ => e.stage? = some .missing →
      LookupFault s inputs e := by
  rw [execute_eq, ends_bind]
  refine ((ends_getExecutable h inputs).and (fault_getExecutable inputs)).mono
    (fun found t ht => ?_) fun e _ he _ => he.2
  obtain ⟨⟨computed, a, -, hfound⟩, -⟩ := ht
  exact (raises_runFound found inputs t (.of_some hfound.found)).mono (fun _ _ _ => trivial)
    fun e _ he hmissing => absurd hmissing he.2

end ExecM

end TensorJit
