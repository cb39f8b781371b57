import TensorJit.Tensor.Spec

/-!
# Functions

What a backend compiles is a function: a list of instructions, each of which takes parameters
and results of earlier instructions as operands. A function is **well formed** when every
operation has as many operands as it takes, every reference points to a parameter or backwards,
and there are as many returned values as declared results. `Function.validate` says so, or
names the first thing that is wrong.
-/

namespace TensorJit

/-- An operation of an instruction. -/
inductive OpKind where
  /-- Elementwise sum. -/
  | add
  /-- Elementwise difference. -/
  | sub
  /-- Elementwise product. -/
  | mul
  /-- Elementwise change of sign. -/
  | neg
  /-- The operand itself. -/
  | identity
  /-- The elements of the operand in the shape of the result. -/
  | reshape
  deriving DecidableEq, Repr, Inhabited

namespace OpKind

/-- Every operation, in the order of its number in serialized form. -/
def all : List OpKind := [add, sub, mul, neg, identity, reshape]

/-- The number of operands. -/
def arity : OpKind → Nat
  | add | sub | mul => 2
  | neg | identity | reshape => 1

/-- The name in messages. -/
def name : OpKind → String
  | add => "add"
  | sub => "sub"
  | mul => "mul"
  | neg => "neg"
  | identity => "identity"
  | reshape => "reshape"

/-- The tag in stored text, which is also the operation of a graph node. -/
def tag : OpKind → String
  | add => "Add"
  | sub => "Sub"
  | mul => "Mul"
  | neg => "Neg"
  | identity => "Identity"
  | reshape => "Reshape"

/-- The operation with the given tag. -/
def ofTag? (tag : String) : Option OpKind := all.find? (·.tag = tag)

/-- The number in serialized form. -/
def code (op : OpKind) : Nat := all.idxOf op

/-- The operation with the given number. -/
def ofCode? (n : Nat) : Option OpKind := all[n]?

@[simp]
theorem ofTag?_tag (op : OpKind) : ofTag? op.tag = some op := by cases op <;> decide

@[simp]
theorem ofCode?_code (op : OpKind) : ofCode? op.code = some op := by cases op <;> decide

end OpKind

/-- A value that an instruction or a result refers to. -/
inductive ValueRef where
  /-- A parameter, by position. -/
  | parameter (position : Nat)
  /-- The result of an instruction, by position. -/
  | instruction (position : Nat)
  deriving DecidableEq, Repr, Inhabited

/-- The name of a reference in messages. -/
def ValueRef.text : ValueRef → String
  | parameter position => s!"Parameter({position})"
  | instruction position => s!"Instruction({position})"

/-- One step of a function. -/
structure Instruction where
  /-- The operation. -/
  op : OpKind
  /-- The operands, in order. -/
  operands : List ValueRef
  /-- Element type and shape of the result. -/
  spec : TensorSpec
  deriving DecidableEq, Repr, Inhabited

/-- A function over tensors. -/
structure Function where
  /-- The name in messages. -/
  name : String
  /-- The specs of the parameters. -/
  parameters : List TensorSpec
  /-- The specs of the results. -/
  results : List TensorSpec
  /-- The instructions, in order. -/
  body : List Instruction
  /-- The values returned, one for each result. -/
  outputs : List ValueRef
  deriving DecidableEq, Repr, Inhabited

/-- What is wrong with a function. -/
inductive FunctionFault where
  /-- An instruction with a wrong number of operands. -/
  | arity (position : Nat) (op : OpKind) (found : Nat)
  /-- A reference to a value that does not exist at this point. -/
  | undefined (function : String) (value : ValueRef)
  /-- Another number of values than of results. -/
  | resultCount (function : String) (results outputs : Nat)
  deriving DecidableEq, Repr

/-- The wording of a fault. -/
def FunctionFault.message : FunctionFault → String
  | .arity position op found =>
    s!"instruction {position} ({op.name}) expects {op.arity} operands, got {found}"
  | .undefined function value => s!"function '{function}' references undefined value {value.text}"
  | .resultCount function results outputs =>
    s!"function '{function}' declares {results} results but returns {outputs} values"

namespace Function

/-- The size reported when the function is compiled. -/
def graphSize (f : Function) : Nat := f.parameters.length + f.body.length

/-- Whether a reference points to a parameter or to one of the first `limit` instructions. -/
def Defined (f : Function) (limit : Nat) : ValueRef → Prop
  | .parameter position => position < f.parameters.length
  | .instruction position => position < limit

instance (f : Function) (limit : Nat) (value : ValueRef) : Decidable (f.Defined limit value) :=
  match value with
  | .parameter position => inferInstanceAs (Decidable (position < f.parameters.length))
  | .instruction position => inferInstanceAs (Decidable (position < limit))

/-- The first undefined reference of a list, if there is one. -/
def checkRefs (f : Function) (limit : Nat) (values : List ValueRef) : Except FunctionFault Unit :=
  match values.find? fun v => !decide (f.Defined limit v) with
  | some value => .error (.undefined f.name value)
  | none => .ok ()

/-- The instruction at a position, its number of operands and then each of them. -/
def checkInstruction (f : Function) (position : Nat) (i : Instruction) :
    Except FunctionFault Unit :=
  if i.operands.length ≠ i.op.arity then .error (.arity position i.op i.operands.length)
  else f.checkRefs position i.operands

/-- The instructions from a position on. -/
def checkBody (f : Function) : (position : Nat) → List Instruction → Except FunctionFault Unit
  | _, [] => .ok ()
  | position, i :: rest => do
    f.checkInstruction position i
    f.checkBody (position + 1) rest

/-- The whole function: its instructions in order, the number of results, the results. -/
def validate (f : Function) : Except FunctionFault Unit := do
  f.checkBody 0 f.body
  if f.outputs.length ≠ f.results.length then
    .error (.resultCount f.name f.results.length f.outputs.length)
  f.checkRefs f.body.length f.outputs

end Function

end TensorJit
