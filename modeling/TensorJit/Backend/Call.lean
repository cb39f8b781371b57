import TensorJit.Backend.Basic

/-!
# Calling executables

A call evaluates the function of an executable on the contents of its input tensors and stores
the results in its output tensors. Positions without a tensor are bound elsewhere: an absent
input is an absent parameter, and a result without a tensor is dropped. Inputs that are not
floating point are absent parameters too. All inputs are read before any result is stored, so
an output may share its buffer with an input.

The two classes of backends differ in two checks: the reference backend goes by the element
type that the function declares and insists on the size of every result, where the recording
backend goes by the element type of the tensor and lets the bounds of its storage decide.
-/

namespace TensorJit

namespace Backend

/-- The value of a tensor's contents. -/
def valueOf (m : Memory) (id : TensorId) : Value UInt32 :=
  ⟨(m.tensor id).spec, Tensor.wordsOfBytes (m.contents id)⟩

/-- The parameter that an input tensor gives to a function. -/
def parameterOf (kind : BackendKind) (m : Memory) (declared : TensorSpec)
    (id : TensorId) : Option (Value UInt32) :=
  let dtype := match kind with
    | .reference => declared.dtype
    | .recording _ => (m.tensor id).spec.dtype
  if dtype = .f32 then some (valueOf m id) else none

/-- The parameters of a function, one for each declared, from the input tensors. -/
def parametersOf (kind : BackendKind) (m : Memory) :
    (declared : List TensorSpec) → (inputs : List (Option TensorId)) → List (Option (Value UInt32))
  | [], _ => []
  | _ :: rest, [] => none :: parametersOf kind m rest []
  | spec :: rest, input :: inputs =>
    input.bind (parameterOf kind m spec) :: parametersOf kind m rest inputs

/-- Stores a result in a tensor, which is up to date then. -/
def store (id : TensorId) (v : Value UInt32) : BackendM Unit := do
  let d ← get
  let spec := (d.memory.tensor id).spec
  if d.backend.kind = .reference ∧ v.data.length ≠ spec.elements then
    fail (.resultSize v.data.length spec)
  overwrite id (Tensor.bytesOfWords v.data) 0
  setStale id false

/-- Stores results in the tensors there are for them, in order. -/
def storeAll : (outputs : List (Option TensorId)) → List (Value UInt32) → BackendM Unit
  | some id :: outputs, v :: results => do
    store id v
    storeAll outputs results
  | none :: outputs, _ :: results => storeAll outputs results
  | _, _ => pure ()

/-- Calls an executable. -/
def call (e : Executable) (outputs inputs : List (Option TensorId)) : BackendM Unit := do
  count fun c => { c with calls := c.calls + 1 }
  let d ← get
  let parameters := parametersOf d.backend.kind d.memory e.function.parameters inputs
  match e.function.evaluate .binary32 parameters with
  | .error fault => throw fault.toBackendError
  | .ok results => storeAll outputs results

/-- Makes `depth` tensors for a position of an executable, one for each pipeline group. -/
def createPipelined (e : Executable) (side : Side) (position depth : Nat) :
    BackendM (List TensorId) := do
  let kind ← kindOf
  if kind ≠ .recording .pipelined then
    throw (.unimplemented (.allocation side (kind ≠ .reference)))
  let specs := match side with
    | .input => e.function.parameters
    | .output => e.function.results
  match specs[position]? with
  | none => fail (.noPosition side position)
  | some spec => (List.replicate depth spec).mapM createOwn

end Backend

end TensorJit
