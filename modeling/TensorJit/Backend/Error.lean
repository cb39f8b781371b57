import TensorJit.Function.Evaluation
import TensorJit.Side

/-!
# What can go wrong in a backend

A backend refuses what it does not implement, and it fails while it works. Both kinds carry
the cause; the wording is in one place. A cause that comes from outside, with a text of its
own, is a `note`.
-/

namespace TensorJit

/-- Something a backend does not implement. -/
inductive BackendGap where
  /-- Evaluating an instruction whose result is not floating point. -/
  | floatResult (op : OpKind)
  /-- Compiling such an instruction. -/
  | floatInstruction (op : OpKind) (spec : TensorSpec)
  /-- Executables that make tensors; a pipelined backend would have them. -/
  | allocation (side : Side) (pipelining : Bool)
  /-- A named operation, for a reason of its own. -/
  | note (op reason : String)
  deriving DecidableEq, Repr

/-- A failure of a backend at work. -/
inductive BackendFault where
  /-- Evaluation stopped. -/
  | evaluation (fault : EvalFault)
  /-- The function to compile is malformed. -/
  | malformed (fault : FunctionFault)
  /-- The bytes to load are no executable. -/
  | unreadable
  /-- The bytes to load into a recording backend are no executable. -/
  | recordedUnreadable
  /-- The host buffer to bind to has another spec. -/
  | hostMismatch (host spec : TensorSpec)
  /-- A write beyond the end. -/
  | writeBounds (length offset : Nat)
  /-- A read beyond the end. -/
  | readBounds (length offset : Nat)
  /-- A write beyond the end of a recorded tensor. -/
  | recordedWriteBounds
  /-- A read beyond the end of a recorded tensor. -/
  | recordedReadBounds
  /-- A result of another size than the tensor for it. -/
  | resultSize (found : Nat) (spec : TensorSpec)
  /-- A position of the inputs or outputs that the function does not have. -/
  | noPosition (side : Side) (position : Nat)
  /-- An option that is not supported. -/
  | unsupportedOption (key : String)
  /-- The compilation was made to fail. -/
  | injectedCompileFailure
  /-- The compilation was made to break down. -/
  | injectedBreakdown
  /-- The allocation was made to fail. -/
  | injectedAllocationFailure
  /-- A failure with a text of its own. -/
  | note (text : String)
  deriving DecidableEq, Repr

/-- An error of a backend. -/
inductive BackendError where
  /-- Something that is not implemented. -/
  | unimplemented (gap : BackendGap)
  /-- A failure at work. -/
  | execution (fault : BackendFault)
  deriving DecidableEq, Repr

/-- The operation that is not implemented. -/
def BackendGap.op : BackendGap → String
  | .floatResult _ => "ref_cpu"
  | .floatInstruction .. => "compile"
  | .allocation side _ => s!"create_{side.name}_tensors"
  | .note op _ => op

/-- The reason why it is not. -/
def BackendGap.reason : BackendGap → String
  | .floatResult op => (EvalFault.notFloat op).message
  | .floatInstruction op spec => s!"{op.name} produces {spec.text}, only f32 is supported"
  | .allocation _ false => "executable does not own tensor allocation"
  | .allocation _ true => "recording backend is not pipelined"
  | .note _ reason => reason

/-- The wording of a failure. -/
def BackendFault.message : BackendFault → String
  | .evaluation fault => fault.message
  | .malformed fault => s!"malformed graph: {fault.message}"
  | .unreadable => "failed to load executable"
  | .recordedUnreadable => "not an executable"
  | .hostMismatch host spec => s!"host buffer {host.text} does not match tensor {spec.text}"
  | .writeBounds length offset => s!"write of {length} bytes at {offset} out of bounds"
  | .readBounds length offset => s!"read of {length} bytes at {offset} out of bounds"
  | .recordedWriteBounds => "write out of bounds"
  | .recordedReadBounds => "read out of bounds"
  | .resultSize found spec =>
    s!"result has {found} elements, output tensor {spec.text} expects {spec.elements}"
  | .noPosition .input position => s!"no parameter {position}"
  | .noPosition .output position => s!"no result {position}"
  | .unsupportedOption key => s!"unsupported option '{key}'"
  | .injectedCompileFailure => "injected compile failure"
  | .injectedBreakdown => "backend panicked: injected compile panic"
  | .injectedAllocationFailure => "injected allocation failure"
  | .note text => text

/-- The wording of an error. -/
def BackendError.message : BackendError → String
  | .unimplemented gap => s!"{gap.op} is not implemented: {gap.reason}"
  | .execution fault => s!"backend execution failure: {fault.message}"

/-- The error that a stopped evaluation is. -/
def EvalFault.toBackendError : EvalFault → BackendError
  | .notFloat op => .unimplemented (.floatResult op)
  | fault => .execution (.evaluation fault)

end TensorJit
