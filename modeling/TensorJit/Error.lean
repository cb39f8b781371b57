import TensorJit.Backend.Error
import TensorJit.Cache.Pipeline
import TensorJit.Config
import TensorJit.FileTree
import TensorJit.Freshness
import TensorJit.Lowering

/-!
# Errors of an executor

An error has a kind, which says whose fault it is and whether the same call may be tried again,
and a cause. The wording is in one place. A cause with a text of its own is a `note`.

A compilation that failed has left the cache as it was, and a pipeline without a free group
will have one again: these two kinds are worth another try.
-/

namespace TensorJit

/-- Why a unit is misconfigured. -/
inductive Misconfiguration where
  /-- The configuration itself. -/
  | config (fault : ConfigFault)
  /-- The attributes of the unit. -/
  | attributes (fault : AttributeFault)
  /-- Neither a translator nor a table, found when the unit is built. -/
  | nothingToRun (unit : String)
  /-- The backend refuses the options of the unit. -/
  | options (unit backend : String) (error : BackendError)
  /-- The table has no function for a signature. -/
  | noFunction (unit backend : String) (signature : Signature)
  /-- The table has no executable for a signature. -/
  | noExecutable (unit backend : String) (signature : Signature)
  /-- No translator, found when a function is needed. -/
  | noTranslator (unit : String)
  /-- A cause with a text of its own. -/
  | note (text : String)
  deriving DecidableEq, Repr

/-- What is malformed. -/
inductive Malformation where
  /-- The graph. -/
  | graph (fault : GraphFault)
  /-- The graph, as lowering found. -/
  | lowering (fault : LoweringFault)
  /-- A function. -/
  | function (fault : FunctionFault)
  /-- The bytes of a tensor. -/
  | tensor (fault : TensorFault)
  /-- A cause with a text of its own. -/
  | note (text : String)
  deriving DecidableEq, Repr

/-- What could not be written or read as text. -/
inductive SerializationFault where
  /-- The elements of a tensor. -/
  | value (fault : ValueFault)
  /-- The stored form of a function. -/
  | stored
  /-- A file. -/
  | file
  /-- A cause with a text of its own. -/
  | note (text : String)
  deriving DecidableEq, Repr

/-- What went wrong inside a unit. -/
inductive InternalFault where
  /-- An artifact that is not in the cache. -/
  | notCached (artifact : ArtifactId)
  /-- Another number of inputs than the executable takes. -/
  | inputCount (expected found : Nat)
  /-- A tensor that could not be made. -/
  | creation (side : Side) (position : Nat) (error : BackendError)
  /-- An input with fewer bytes than its tensor takes. -/
  | shortInput (position found needed : Nat)
  /-- An input that could not be copied to the backend. -/
  | transfer (position : Nat) (error : BackendError)
  /-- An output that could not be copied from the backend. -/
  | reading (position : Nat) (error : BackendError)
  /-- A call that failed. -/
  | call (backend : String) (error : BackendError)
  /-- A pipeline on a backend that has none. -/
  | notPipelined (backend : String)
  /-- Tensors of a pipeline that could not be made. -/
  | pipelineCreation (backend : String) (side : Side) (position : Nat) (error : BackendError)
  /-- A pipeline that refuses. -/
  | pipeline (fault : PipelineFault)
  /-- An artifact without a pipeline. -/
  | noPipeline (artifact : ArtifactId)
  /-- A group without a tensor for an input. -/
  | noPipelineInput (position : Nat)
  /-- A cause with a text of its own. -/
  | note (text : String)
  deriving DecidableEq, Repr

/-- Why a function did not compile. -/
inductive CompileFault where
  /-- The backend failed. -/
  | backend (error : BackendError)
  /-- A cause with a text of its own. -/
  | note (text : String)
  deriving DecidableEq, Repr

/-- An error of an executor. -/
inductive Error where
  /-- The backend is not registered, or not of the class that was asked for. -/
  | backendUnavailable (name : String)
  /-- A function did not compile or load; its dump is at a path, if it could be written. -/
  | compileFailed (unit backend : String) (signature : Signature) (fault : CompileFault)
      (dump : Option FilePath)
  /-- Something of which there is a limited number ran out. -/
  | resourceExhausted (unit message : String)
  /-- The unit is misconfigured. -/
  | configInvalid (cause : Misconfiguration)
  /-- The graph or something made from it is malformed. -/
  | construction (cause : Malformation)
  /-- Something went wrong inside the unit. -/
  | internal (unit : String) (fault : InternalFault)
  /-- Something could not be written or read as text. -/
  | serialization (fault : SerializationFault)
  /-- An error of the backend, as it is. -/
  | backend (error : BackendError)
  deriving DecidableEq, Repr

/-- The wording of a cause. -/
def Misconfiguration.message : Misconfiguration → String
  | .config fault => fault.message
  | .attributes fault => fault.message
  | .nothingToRun unit => s!"unit {unit} has no translator and AOT was not requested"
  | .options unit backend error =>
    s!"unit {unit} could not configure backend {backend}: {error.message}"
  | .noFunction unit backend signature =>
    s!"unit {unit} on backend {backend} expected to find AOT precompiled function of " ++
      s!"signature: {signature}"
  | .noExecutable unit backend signature =>
    s!"unit {unit} on backend {backend} requested AOT, but could not find an executable with " ++
      s!"the signature: {signature}"
  | .noTranslator unit => s!"unit {unit} has no translator"
  | .note text => text

/-- The wording of a cause. -/
def Malformation.message : Malformation → String
  | .graph fault => fault.message
  | .lowering fault => fault.message
  | .function fault => fault.message
  | .tensor fault => fault.message
  | .note text => text

/-- The wording of a fault; where it came from text or files, there is none. -/
def SerializationFault.message : SerializationFault → String
  | .value fault => fault.message
  | .stored => ""
  | .file => ""
  | .note text => text

/-- The wording of a fault. -/
def InternalFault.message : InternalFault → String
  | .notCached artifact => s!"artifact#{artifact} not found in the cache"
  | .inputCount expected found => s!"executable expects {expected} inputs, got {found}"
  | .creation side position error =>
    s!"creating tensor for {side.name} {position}: {error.message}"
  | .shortInput position found needed =>
    s!"input {position} holds {found} bytes, backend tensor needs {needed}"
  | .transfer position error =>
    s!"error transferring input {position} to backend: {error.message}"
  | .reading position error => s!"error reading output {position} from backend: {error.message}"
  | .call backend error => s!"error executing on backend {backend}: {error.message}"
  | .notPipelined backend =>
    s!"pipelined tensors requested, but executables of backend {backend} cannot create tensors"
  | .pipelineCreation backend side position error =>
    s!"backend {backend} could not create pipelined tensors for {side.name} {position}: " ++
      error.message
  | .pipeline fault => fault.message
  | .noPipeline artifact => s!"artifact#{artifact} has no tensor pipeline"
  | .noPipelineInput position => s!"pipeline has no tensor for input {position}"
  | .note text => text

/-- The wording of a cause. -/
def CompileFault.message : CompileFault → String
  | .backend error => error.message
  | .note text => text

namespace Error

/-- The wording of an error. -/
def message : Error → String
  | .backendUnavailable name => s!"backend '{name}' is not available"
  | .compileFailed unit name signature fault _ =>
    s!"error compiling '{unit}' on backend '{name}' for signature '{signature}': " ++
      fault.message
  | .resourceExhausted unit message => s!"resource exhausted in '{unit}': {message}"
  | .configInvalid cause => s!"invalid configuration: {cause.message}"
  | .construction cause => s!"malformed graph: {cause.message}"
  | .internal unit fault => s!"internal error in '{unit}': {fault.message}"
  | .serialization fault => s!"failed to serialize tensor value: {fault.message}"
  | .backend error => error.message

/-- Whether the same call may be tried again. -/
def isRetryable : Error → Bool
  | .compileFailed .. | .resourceExhausted .. => true
  | _ => false

/-- The error that a value is which cannot be written. -/
def ofValueFault (fault : ValueFault) : Error := .serialization (.value fault)

/-- The error that a graph is which cannot be lowered. A target that does not hold integers is
a matter of its value, everything else one of the graph. -/
def ofLoweringFault : LoweringFault → Error
  | .shapeValue fault => ofValueFault fault
  | .graph fault => .construction (.graph fault)
  | .function fault => .construction (.function fault)
  | fault => .construction (.lowering fault)

end Error

end TensorJit
