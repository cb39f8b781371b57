import TensorJit.Backend.Call
import TensorJit.Executor.Allocate

/-!
# Borrowing tensors from a pipeline

On a pipelined backend an artifact makes all its tensors when they are first needed, and a call
borrows a group of them. Groups rotate between calls, so the contents of an input tensor are
never taken to be current: every input is copied, whatever a tracker says.
-/

namespace TensorJit.ExecM

/-- Makes the tensors of one position for all groups. -/
def makeRow (e : Executable) (side : Side) (position : Nat) : ExecM (List TensorId) := do
  let unit ← executor
  onBackend (.pipelineCreation unit.unit.backendName side position)
    (Backend.createPipelined e side position unit.config.pipelineDepth)

/-- Makes the tensors of all positions for all groups. -/
def makePipeline (e : Executable) : ExecM (Pipeline TensorId) := do
  let inputs ← (List.range e.function.parameters.length).mapM (makeRow e .input)
  let outputs ← (List.range e.function.results.length).mapM (makeRow e .output)
  match Pipeline.ofRows inputs outputs (← executor).config.pipelineDepth with
  | .ok p => return p
  | .error fault => fail (.pipeline fault)

/-- Borrows the group of an artifact that has been free the longest. -/
def acquireGroup (id : ArtifactId) : ExecM (PipelineGroup TensorId) := do
  let e ← executor
  if !(← kind).isPipelined then fail (.notPipelined e.unit.backendName)
  let a ← artifact id
  let p ← match a.pipeline with
    | some p => pure p
    | none => makePipeline a.executable
  setArtifact id { a with pipeline := some p }
  match p.acquire? with
  | none => throw (.resourceExhausted e.unit.name "no free tensor available")
  | some (group, p) =>
    setArtifact id { a with pipeline := some p }
    return group

/-- Gives a group of an artifact back. -/
def returnGroup (id : ArtifactId) (index : Nat) : ExecM Unit := do
  let a ← artifact id
  match a.pipeline with
  | none => fail (.noPipeline id)
  | some p =>
    match p.giveBack index with
    | .ok p => setArtifact id { a with pipeline := some p }
    | .error fault => fail (.pipeline fault)

/-- Says that the contents of a tensor are out of date. -/
def markStale (tensor : TensorId) : ExecM Unit := do
  discard <| tryBackend (Backend.setStale tensor true)

/-- Copies an input to the tensor of its position in a group. -/
def feedInput (group : PipelineGroup TensorId) (position : Nat) (host : HostBuffer) :
    ExecM Service := do
  if (← executor).unit.externalInputs.contains position then return .elsewhere
  match group.inputs[position]? with
  | none => fail (.noPipelineInput position)
  | some tensor =>
    markStale tensor
    let copied ← writeInput position tensor host
    return ⟨some tensor, false, some copied⟩

/-- The tensor for a result, out of date; none if the position is bound elsewhere. -/
def offerOutput (position : Nat) (tensor : TensorId) : ExecM (Option TensorId) := do
  if (← executor).unit.externalOutputs.contains position then return none
  markStale tensor
  return some tensor

end TensorJit.ExecM
