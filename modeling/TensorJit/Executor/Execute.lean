import TensorJit.Executor.Compile
import TensorJit.Executor.Pipelined

/-!
# Executing a unit

A call finds the executable for its inputs, makes the output buffers ready, gets tensors for
all positions, calls the executable, and copies the results to the host where tensors have
storage of their own. When all of this has succeeded, no copy of an output buffer is current
any more, since its contents have changed.

A group that was borrowed from a pipeline is given back whether or not the call succeeded.
-/

namespace TensorJit

/-- What a call that succeeded reports. -/
structure Report where
  /-- The artifact that ran. -/
  artifact : ArtifactId
  /-- The signature of the inputs. -/
  signature : Signature
  /-- Whether the artifact was in the cache. -/
  hit : Bool
  /-- Tensors made for slots. -/
  tensorsCreated : Nat
  /-- Inputs copied to the backend. -/
  inputCopies : Nat
  /-- Bytes copied to the backend. -/
  bytesCopied : Nat
  /-- The group that was borrowed, on a pipelined backend. -/
  group : Option Nat
  deriving DecidableEq, Repr

namespace ExecM

/-- Makes one output buffer ready for each result. -/
def prepareOutputs (specs : List TensorSpec) : ExecM Unit :=
  modify fun s =>
    let ((_, outputs), memory) := s.outputs.prepare specs s.platform.memory
    { s with outputs, platform.memory := memory }

/-- Calls an executable. -/
def callExecutable (e : Executable) (outputs inputs : List (Option TensorId)) : ExecM Unit := do
  let name := (← executor).unit.backendName
  onBackend (.call name) (Backend.call e outputs inputs)

/-- Copies the results that have a tensor to the output buffers. -/
def readOutputs (tensors : List (Option TensorId)) : ExecM Unit := do
  let buffers := (← get).outputs.buffers
  (tensors.zip buffers).zipIdx.forM fun ((tensor, host), position) =>
    match tensor with
    | some tensor => readOutput position tensor host
    | none => pure ()

/-- A call with tensors from slots. -/
def runOnSlots (found : Lookup) (inputs : List HostBuffer) : ExecM Report := do
  let ins ← allocateInputs found.artifact inputs
  let outs ← allocateOutputs found.artifact (← get).outputs.buffers
  callExecutable found.executable outs.tensors ins.tensors
  if !(← kind).isHostBound then readOutputs outs.tensors
  return {
    artifact := found.artifact
    signature := found.signature
    hit := found.hit
    tensorsCreated := ins.created + outs.created
    inputCopies := ins.copies
    bytesCopied := ins.bytesCopied
    group := none }

/-- A call with the tensors of a group. -/
def runOnGroup (found : Lookup) (group : PipelineGroup TensorId) (inputs : List HostBuffer) :
    ExecM Report := do
  let services ← inputs.zipIdx.mapM fun (host, position) => feedInput group position host
  let ins := Allocation.ofServices services
  let outs ← group.outputs.zipIdx.mapM fun (tensor, position) => offerOutput position tensor
  callExecutable found.executable outs ins.tensors
  readOutputs outs
  count fun c => { c with
    inputCopies := c.inputCopies + ins.copies
    bytesCopied := c.bytesCopied + ins.bytesCopied }
  return {
    artifact := found.artifact
    signature := found.signature
    hit := found.hit
    tensorsCreated := 0
    inputCopies := ins.copies
    bytesCopied := ins.bytesCopied
    group := some group.index }

/-- A call with a group that is borrowed for it. -/
def runPipelined (found : Lookup) (inputs : List HostBuffer) : ExecM Report := do
  let group ← acquireGroup found.artifact
  let result ← observe (runOnGroup found group inputs)
  returnGroup found.artifact group.index
  ofExcept result

/-- No copy of an output buffer is current any more, except at positions bound elsewhere. -/
def invalidateOutputs : ExecM Unit := do
  let s ← get
  s.outputs.buffers.zipIdx.forM fun (buffer, position) =>
    if s.executor.unit.externalOutputs.contains position then pure ()
    else changePlatform (·.tell s.executor.tracker (·.invalidate buffer.storage))

/-- Runs the unit on the inputs, leaving the results in the output buffers. -/
def execute (inputs : List HostBuffer) : ExecM Report := do
  let found ← getExecutable inputs
  let expected := found.executable.function.parameters.length
  if inputs.length ≠ expected then fail (.inputCount expected inputs.length)
  prepareOutputs found.executable.function.results
  let report ← if (← kind).isPipelined then runPipelined found inputs else runOnSlots found inputs
  invalidateOutputs
  count fun c => { c with executions := c.executions + 1 }
  return report

end ExecM

end TensorJit
