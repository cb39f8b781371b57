import TensorJit.Proofs.Conservation

/-!
# Executors with a table

An executor with a table reads the function for a signature from the table and loads its executable
from there. **It never asks its backend to compile anything**: if compiling were done by any other
means, or not at all, every request would end the same, with the same answer and in the same state
(`Request.performBy_eq`), and its statistics never count a function as compiled
(`Process.compiles_eq_zero`). If there is no function in the table for a signature that the cache
does not list, there is a request that is refused, and the cache is as before
(`ExecM.ends_getExecutable_unlisted`).
-/

namespace TensorJit

/-! ### Compiling by other means -/

namespace ExecM

/-- Compiles a function by some means, or loads the executable for its signature. -/
def compileBy (compiler : Function → BackendM Executable) (signature : Signature) (f : Function) :
    ExecM Executable := do
  let e ← executor
  let serialized ← serializedFor signature
  changePlatform (·.compileStep "compile")
  ofExcept ((← platform).lock e.unit.backendName)
  let result ← tryBackend <| match serialized with
    | some serialized => Backend.load serialized
    | none => compiler f
  match result with
  | .ok executable =>
    count fun c =>
      if serialized.isSome then { c with loads := c.loads + 1 }
      else { c with compiles := c.compiles + 1 }
    return executable
  | .error error =>
    let path ← dump (errorDumpPath e.config.dumpDirectory e.unit.name) f
    changePlatform (·.note (.compileFailed signature))
    throw (.compileFailed e.unit.name e.unit.backendName signature (.backend error) path)

/-- A new artifact for a signature that the cache does not have, compiled by some means. -/
def compileNewBy (compiler : Function → BackendM Executable) (computed : Signature.Computed) :
    ExecM Lookup := do
  count fun c => { c with misses := c.misses + 1 }
  changePlatform (·.cacheEvent "executable_cache_miss")
  let f ← obtainFunction computed
  let e ← executor
  if e.config.dumpOnCompile then
    discard <| dump (dumpPath e.config.dumpDirectory e.unit.name) f
  let executable ← compileBy compiler computed.signature f
  let id ← keep computed.signature executable f
  return ⟨id, executable, computed.signature, false⟩

/-- The artifact for the inputs, compiled by some means if the cache does not have it. -/
def getExecutableBy (compiler : Function → BackendM Executable) (inputs : List HostBuffer) :
    ExecM Lookup := do
  let computed ← computeSignature inputs
  let s ← get
  let (found, cache) := s.executor.cache.lookup computed.signature
  set { s with executor.cache := cache }
  match found with
  | some id => useCached id computed.signature
  | none => compileNewBy compiler computed

variable {s : ExecState} (compiler : Function → BackendM Executable)

theorem compileBy_eq (hs : s.executor.config.aot.isSome = true) (signature : Signature)
    (f : Function) : compileBy compiler signature f s = compile signature f s := by
  unfold compileBy compile
  refine bind_congr_of_ends (bind_congr_of_ends ((ends_serializedFor signature).mono
    (fun serialized t ht => ?_) fun _ _ _ => trivial))
  obtain ⟨-, hsome, -⟩ := ht
  cases serialized with
  | some bytes => rfl
  | none =>
    rw [hs] at hsome
    cases hsome

theorem compileNewBy_eq (hs : s.executor.config.aot.isSome = true) (computed : Signature.Computed) :
    compileNewBy compiler computed s = compileNew computed s := by
  have hrest : ∀ (f : Function) (t : ExecState), t.executor.config = s.executor.config → (do
      let executable ← compileBy compiler computed.signature f
      let id ← keep computed.signature executable f
      return (⟨id, executable, computed.signature, false⟩ : Lookup)) t = (do
      let executable ← compile computed.signature f
      let id ← keep computed.signature executable f
      return (⟨id, executable, computed.signature, false⟩ : Lookup)) t := fun f t ht => by
    change EStateM.bind (compileBy compiler computed.signature f) _ t =
      EStateM.bind (compile computed.signature f) _ t
    unfold EStateM.bind
    rw [compileBy_eq compiler (ht ▸ hs)]
  unfold compileNewBy compileNew
  refine bind_congr_of_ends (bind_congr_of_ends (bind_congr_of_ends
    ((ends_obtainFunction computed).mono (fun f t ht => ?_) fun _ _ _ => trivial)))
  have hconfig : t.executor.config = s.executor.config := by rw [ht.1.executor]
  refine bind_congr_of_ends ?_
  rw [ends_executor]
  dsimp only
  split
  · generalize dumpPath t.executor.config.dumpDirectory t.executor.unit.name = path
    apply bind_congr_of_ends
    rw [ends_discard]
    refine (aside_dump path f t).mono (fun _ u hu => ?_) fun _ _ _ => trivial
    exact hrest f u (by rw [hu.executor, hconfig])
  · exact hrest f t hconfig

theorem getExecutableBy_eq (hs : s.executor.config.aot.isSome = true) (inputs : List HostBuffer) :
    getExecutableBy compiler inputs s = getExecutable inputs s := by
  unfold getExecutableBy getExecutable computeSignature
  refine bind_congr_of_ends ?_
  rw [ends_bind, ends_get, ends_ofExcept]
  refine ⟨fun computed _ => bind_congr_of_ends ?_, fun _ _ => trivial⟩
  rw [ends_get]
  rcases s.executor.cache.lookup computed.signature with ⟨_ | id, c⟩
  · refine bind_congr_of_ends ?_
    rw [ends_set]
    refine compileNewBy_eq compiler ?_ computed
    exact hs
  · rfl

end ExecM

/-- What a request makes an executor do, where functions are compiled by some means. -/
def Request.performBy (compiler : Function → BackendM Executable) : Request → ExecM Answer
  | execute inputs => do
    let found ← ExecM.getExecutableBy compiler inputs
    return .report (← ExecM.runFound found inputs)
  | getExecutable inputs => return .found (← ExecM.getExecutableBy compiler inputs)
  | r => r.perform

/-- The means that there are are those of the backend. -/
theorem Request.performBy_compile (r : Request) : r.performBy Backend.compile = r.perform := by
  cases r with
  | execute inputs =>
    dsimp only [performBy, perform]
    rw [ExecM.execute_eq, bind_assoc]
    rfl
  | _ => rfl

/-- **An executor with a table never asks its backend to compile**: by whatever means functions were
compiled, every request ends the same. -/
theorem Request.performBy_eq {s : ExecState} (hs : s.executor.config.aot.isSome = true)
    (compiler : Function → BackendM Executable) (r : Request) :
    r.performBy compiler s = r.perform s := by
  have hlook : ∀ (inputs : List HostBuffer) (next : Lookup → ExecM Answer),
      (ExecM.getExecutableBy compiler inputs >>= next) s =
        (ExecM.getExecutableBy Backend.compile inputs >>= next) s := fun inputs next => by
    change EStateM.bind _ next s = EStateM.bind _ next s
    unfold EStateM.bind
    rw [ExecM.getExecutableBy_eq compiler hs, ExecM.getExecutableBy_eq Backend.compile hs]
  rw [← r.performBy_compile]
  cases r with
  | execute inputs => exact hlook inputs _
  | getExecutable inputs => exact hlook inputs _
  | _ => rfl

/-- Nothing is counted as compiled. -/
theorem Process.compiles_eq_zero (commands : List Command) {k : Nat} {e : Executor}
    (he : (empty.run commands).executors[k]? = some e) (htable : e.config.aot.isSome = true) :
    e.stats.compiles = 0 := by
  induction commands using List.reverseRecOn generalizing e with
  | nil => cases he
  | append_singleton rest c ih =>
    rw [run_concat] at he
    rcases executor_step (fun o r e _ he => r.ends_posts (compiled_run rest o he)
        ((wellFormed_run rest).backends k e he)) he with
      ⟨hold, -⟩ | ⟨o, r, e₀, s, -, hold, -, rfl, x, hposted, -, -, hzero⟩ | ⟨r, -, -, hbuilt⟩
    · exact ih hold htable
    · have hconfig : s.executor.config = e₀.config := hposted.later.config
      rw [hconfig] at htable
      have hbefore := ih hold htable
      have hzero := hzero htable
      have htally := hposted.tally
      simp only [Stats.tally, Entry.post, Prod.mk.injEq, stateOf_executor] at htally
      omega
    · rw [hbuilt.stats]
      rfl

/-! ### Signatures that are not in the table -/

/-- **A signature that neither cache nor table has** is refused, and the cache is as before. -/
theorem ExecM.ends_getExecutable_unlisted {s : ExecState} {table : AotTable}
    {inputs : List HostBuffer} {computed : Signature.Computed}
    (htable : s.executor.config.aot = some table)
    (hcompute : Signature.compute s.executor.statics (inputs.map s.memory.read) = .ok computed)
    (hindex : s.cache.index.get? computed.signature = none)
    (hnone : table.function? computed.signature = none) :
    Ends (getExecutable inputs s) (fun _ _ => False) fun error t =>
      error = .configInvalid (.noFunction s.executor.unit.name s.executor.unit.backendName
        computed.signature) ∧ t.cache = s.cache := by
  have hlookup : s.executor.cache.lookup computed.signature = (none, s.executor.cache) := by
    unfold Cache.lookup Cache.peek?
    rw [hindex]
  unfold getExecutable computeSignature
  rw [ends_bind, ends_bind, ends_get, ends_ofExcept,
    show s.platform.memory.read = s.memory.read from rfl, hcompute]
  refine ⟨fun c hc => ?_, fun error he => by cases he⟩
  obtain rfl : computed = c := Except.ok.inj hc
  rw [ends_bind, ends_get, hlookup]
  dsimp only
  rw [ends_bind, ends_set]
  unfold compileNew obtainFunction
  rw [ends_bind, ends_count, ends_bind, ends_changePlatform, ends_bind, ends_bind, ends_executor]
  dsimp only
  rw [htable]
  dsimp only
  rw [hnone]
  exact ⟨rfl, rfl⟩

end TensorJit
