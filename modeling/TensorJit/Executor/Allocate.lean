import TensorJit.Executor.Basic

/-!
# Tensors for a call

On a backend that is not pipelined, every position of a call is served from its slot. Inputs
whose tensor has storage of its own are copied there when the slot says that they are out of
date, and from then on the tracker vouches for them. Positions bound elsewhere get no tensor.

The statistics of an allocation are added when all of it has succeeded; tensors that were made
and bytes that were copied before a failure stay where they are.
-/

namespace TensorJit

/-- What one position of a call was served with. -/
structure Service where
  /-- The tensor; none if the position is bound elsewhere. -/
  tensor : Option TensorId
  /-- Whether the tensor was made for this call. -/
  created : Bool
  /-- The bytes copied to it, if it was copied to. -/
  copied : Option Nat
  deriving DecidableEq, Repr

/-- A position bound elsewhere. -/
def Service.elsewhere : Service := ⟨none, false, none⟩

/-- The tensors of one side of a call. -/
structure Allocation where
  /-- The tensors, by position. -/
  tensors : List (Option TensorId)
  /-- How many were made for this call. -/
  created : Nat
  /-- How many were copied to. -/
  copies : Nat
  /-- How many bytes were copied. -/
  bytesCopied : Nat
  deriving DecidableEq, Repr

/-- What the services of all positions come to. -/
def Allocation.ofServices (services : List Service) : Allocation where
  tensors := services.map (·.tensor)
  created := services.countP (·.created)
  copies := (services.filterMap (·.copied)).length
  bytesCopied := (services.filterMap (·.copied)).foldr (· + ·) 0

namespace ExecM

/-- Copies as many bytes of an input to a tensor as the tensor has elements of the input's
type. -/
def writeInput (position : Nat) (tensor : TensorId) (host : HostBuffer) : ExecM Nat := do
  let m := (← platform).memory
  let needed := (m.tensor tensor).spec.elements * host.spec.dtype.size
  let bytes := m.storage host.storage
  if bytes.length < needed then fail (.shortInput position bytes.length needed)
  onBackend (.transfer position) (Backend.write tensor (bytes.take needed) 0)
  changePlatform (·.cacheEvent "input_copy")
  return needed

/-- Fills the storage of an output with the contents of a tensor. -/
def readOutput (position : Nat) (tensor : TensorId) (host : HostBuffer) : ExecM Unit := do
  let length := ((← platform).memory.storage host.storage).length
  let bytes ← onBackend (.reading position) (Backend.read tensor length 0)
  changePlatform (·.setBytes host bytes)

/-- Serves an input from its slot, and copies it if need be. -/
def serveInput (id : ArtifactId) (position : Nat) (host : HostBuffer) : ExecM Service := do
  let e ← executor
  if e.unit.externalInputs.contains position then return .elsewhere
  let a ← artifact id
  let vouched := (← platform).isFresh e.tracker host.storage id
  let (r, slots) ← onBackend (.creation .input position)
    (a.inputs.resolve .input position host vouched)
  setArtifact id { a with inputs := slots }
  if r.stale && !(← kind).isHostBound then
    let copied ← writeInput position r.tensor host
    changePlatform (·.tell e.tracker (·.mark host.storage id))
    return ⟨some r.tensor, r.created, some copied⟩
  else return ⟨some r.tensor, r.created, none⟩

/-- Serves an output from its slot. -/
def serveOutput (id : ArtifactId) (position : Nat) (host : HostBuffer) : ExecM Service := do
  let e ← executor
  if e.unit.externalOutputs.contains position then return .elsewhere
  let a ← artifact id
  let vouched := (← platform).isFresh e.tracker host.storage id
  let (r, slots) ← onBackend (.creation .output position)
    (a.outputs.resolve .output position host vouched)
  setArtifact id { a with outputs := slots }
  return ⟨some r.tensor, r.created, none⟩

/-- Serves every input of an artifact. -/
def allocateInputs (id : ArtifactId) (inputs : List HostBuffer) : ExecM Allocation := do
  discard <| artifact id
  let services ← inputs.zipIdx.mapM fun (host, position) => serveInput id position host
  let allocation := Allocation.ofServices services
  count fun c => { c with
    tensorsCreated := c.tensorsCreated + allocation.created
    inputCopies := c.inputCopies + allocation.copies
    bytesCopied := c.bytesCopied + allocation.bytesCopied }
  return allocation

/-- Serves every output of an artifact. -/
def allocateOutputs (id : ArtifactId) (outputs : List HostBuffer) : ExecM Allocation := do
  discard <| artifact id
  let services ← outputs.zipIdx.mapM fun (host, position) => serveOutput id position host
  let allocation := Allocation.ofServices services
  count fun c => { c with tensorsCreated := c.tensorsCreated + allocation.created }
  return allocation

end ExecM

end TensorJit
