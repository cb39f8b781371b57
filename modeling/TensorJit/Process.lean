import TensorJit.Executor.Build
import TensorJit.Executor.Execute

/-!
# Processes

A process has one platform, the executors that were built on it, and the sets of output buffers
that calls write to. What can happen to it is a command: something is done to the platform, an
executor is built, or a request is put to one of the executors.

A run is a list of commands. Statements about what may happen restrict the commands of a run by
a condition on each command **in the state in which it is given** (`Process.Admits`), and are
proved command by command (`Process.run_induction`).
-/

namespace TensorJit

/-- What an executor can be asked for. -/
inductive Request where
  /-- To run the unit. -/
  | execute (inputs : List HostBuffer)
  /-- To find or compile the artifact for some inputs. -/
  | getExecutable (inputs : List HostBuffer)
  /-- To serve the inputs of an artifact from its slots. -/
  | allocateInputs (artifact : ArtifactId) (inputs : List HostBuffer)
  /-- To serve the outputs of an artifact from its slots. -/
  | allocateOutputs (artifact : ArtifactId) (outputs : List HostBuffer)
  /-- To lend a group of an artifact. -/
  | acquireGroup (artifact : ArtifactId)
  /-- To take a group of an artifact back. -/
  | returnGroup (artifact : ArtifactId) (index : Nat)
  deriving DecidableEq, Repr

/-- What an executor answers. -/
inductive Answer where
  /-- The unit ran. -/
  | report (r : Report)
  /-- The artifact. -/
  | found (l : Lookup)
  /-- The tensors. -/
  | allocation (a : Allocation)
  /-- The group. -/
  | group (g : PipelineGroup TensorId)
  /-- Nothing to report. -/
  | done
  deriving DecidableEq, Repr

/-- What a request makes an executor do. -/
def Request.perform : Request → ExecM Answer
  | execute inputs => return .report (← ExecM.execute inputs)
  | getExecutable inputs => return .found (← ExecM.getExecutable inputs)
  | allocateInputs artifact inputs => return .allocation (← ExecM.allocateInputs artifact inputs)
  | allocateOutputs artifact outputs =>
    return .allocation (← ExecM.allocateOutputs artifact outputs)
  | acquireGroup artifact => return .group (← ExecM.acquireGroup artifact)
  | returnGroup artifact index => do
    ExecM.returnGroup artifact index
    return .done

/-- The inputs that a request names a signature by. -/
def Request.inputs? : Request → Option (List HostBuffer)
  | execute inputs | getExecutable inputs => some inputs
  | _ => none

/-- What can happen to a process. -/
inductive Command where
  /-- A new backend is registered under a name. -/
  | register (name : String) (kind : BackendKind) (rejected : Option String)
  /-- Nothing is registered under a name any more. -/
  | unregister (name : String)
  /-- A backend is told what to fail at. -/
  | inject (backend : BackendId) (injections : Injections)
  /-- A host buffer is made. -/
  | allocate (t : Tensor)
  /-- The bytes of a storage are changed in place. -/
  | write (storage : StorageId) (bytes : Bytes)
  /-- A registry of fresh copies is made. -/
  | newRegistry
  /-- A tracker is told that the contents of a storage have changed. -/
  | invalidate (tracker : Tracker) (storage : StorageId)
  /-- A set of output buffers is handed over. -/
  | take (outputs : Nat)
  /-- An executor is built. -/
  | build (request : BuildRequest)
  /-- An executor is asked for something, and given a set of output buffers to do it with. -/
  | ask (executor outputs : Nat) (request : Request)

/-- A platform with executors and output buffers. -/
structure Process where
  /-- What all executors share. -/
  platform : Platform
  /-- The executors, in the order in which they were built. -/
  executors : List Executor
  /-- The sets of output buffers, by number. -/
  outputs : SortedMap Nat OutputBuffers

namespace Process

/-- The process before anything happens. -/
def empty : Process := ⟨.empty, [], .empty⟩

/-- A set of output buffers, which has no buffers before it is first used. -/
def outputsOf (w : Process) (number : Nat) : OutputBuffers :=
  (w.outputs.get? number).getD .empty

/-- What an executor works on when it is given a set of output buffers. -/
def stateOf (w : Process) (e : Executor) (outputs : Nat) : ExecState :=
  ⟨e, w.outputsOf outputs, w.platform⟩

/-- The process after an executor has worked. -/
def put (w : Process) (executor outputs : Nat) (s : ExecState) : Process where
  platform := s.platform
  executors := w.executors.set executor s.executor
  outputs := w.outputs.insert outputs s.outputs

/-- What an executor answers to a request, if there is such an executor, and the process
afterwards. -/
def ask (w : Process) (executor outputs : Nat) (r : Request) :
    Option (Except Error Answer) × Process :=
  match w.executors[executor]? with
  | none => (none, w)
  | some e =>
    match r.perform (w.stateOf e outputs) with
    | .ok a s => (some (.ok a), w.put executor outputs s)
    | .error error s => (some (.error error), w.put executor outputs s)

/-- The process after an executor has been built, or after the attempt. -/
def build (w : Process) (r : BuildRequest) : Process :=
  match Executor.build r w.platform with
  | .ok e platform => { w with platform, executors := w.executors ++ [e] }
  | .error _ platform => { w with platform }

/-- The process with its platform changed. -/
def change (w : Process) (f : Platform → Platform) : Process :=
  { w with platform := f w.platform }

/-- The process after a command. -/
def step (w : Process) : Command → Process
  | .register name kind rejected => w.change fun p => (p.register (.new name kind rejected)).2
  | .unregister name => w.change (·.unregister name)
  | .inject id injections => w.change fun p =>
    { p with backends := p.backends.modify id fun b => { b with injections } }
  | .allocate t => w.change fun p => (p.allocate t).2
  | .write storage bytes => w.change fun p =>
    { p with memory := p.memory.setStorage storage bytes }
  | .newRegistry => w.change fun p => p.newRegistry.2
  | .invalidate tracker storage => w.change (·.tell tracker (·.invalidate storage))
  | .take number => { w with outputs := w.outputs.insert number .empty }
  | .build r => w.build r
  | .ask executor outputs r => (w.ask executor outputs r).2

/-- The process after a run. -/
def run (w : Process) (commands : List Command) : Process := commands.foldl step w

/-- Whether every command of a run satisfies a condition in the state in which it is given. -/
def Admits (ok : Process → Command → Prop) : Process → List Command → Prop
  | _, [] => True
  | w, c :: rest => ok w c ∧ Admits ok (w.step c) rest

/-- What holds before a run, and is kept by every command that may occur in it, holds after
it. -/
theorem run_induction {ok : Process → Command → Prop} {P : Process → Prop}
    (hstep : ∀ w c, P w → ok w c → P (w.step c)) {w : Process} (hw : P w)
    {commands : List Command} (h : Admits ok w commands) : P (w.run commands) := by
  induction commands generalizing w with
  | nil => exact hw
  | cons c rest ih => exact ih (hstep w c hw h.1) h.2

end Process

end TensorJit
