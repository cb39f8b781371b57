import TensorJit.Function.Basic
import TensorJit.Ieee.Arithmetic

/-!
# Evaluating functions

A function is evaluated straight through: each instruction takes the values of its operands
and adds one value. A parameter may be absent, and its absence is an error only where it is
used. The elements may be of any type with the four operations of `Ieee.Arithmetic`, so what a
function computes is said once for all arithmetics.

Evaluation checks what it relies on and nothing else. Functions that are not well formed are
evaluated too, up to the first instruction that cannot be.
-/

namespace TensorJit

/-- A value between instructions: a spec and as many elements as it happens to have. -/
structure Value (α : Type) where
  /-- Element type and shape. -/
  spec : TensorSpec
  /-- The elements, in order. -/
  data : List α
  deriving DecidableEq, Repr

/-- Why evaluation stops. -/
inductive EvalFault where
  /-- Another number of parameters than the function has. -/
  | parameterCount (function : String) (expected found : Nat)
  /-- A parameter that is used and absent. -/
  | absentParameter (position : Nat)
  /-- A reference to an instruction that comes later. -/
  | pendingInstruction (position : Nat)
  /-- An instruction whose result is not floating point. -/
  | notFloat (op : OpKind)
  /-- An operation of two operands with another number of them. -/
  | notTwoOperands
  /-- An operation of one operand with another number of them. -/
  | notOneOperand (found : Nat)
  /-- Operands and result of an elementwise operation differ in size. -/
  | elementCount
  /-- Operand and result of a reshape differ in size. -/
  | reshapeCount
  deriving DecidableEq, Repr

/-- The wording of a fault. -/
def EvalFault.message : EvalFault → String
  | .parameterCount function expected found =>
    s!"function '{function}' expects {expected} parameters, got {found}"
  | .absentParameter position => s!"parameter {position} is not available"
  | .pendingInstruction position => s!"instruction {position} has not been evaluated"
  | .notFloat op => s!"{op.name} only supports f32 results"
  | .notTwoOperands => "elementwise binary expects 2 inputs"
  | .notOneOperand found => s!"expected a single input, got {found}"
  | .elementCount => "elementwise size mismatch"
  | .reshapeCount => "reshape element count mismatch"

namespace Evaluation

variable {α : Type}

/-- The values a reference may point to. -/
structure Env (α : Type) where
  /-- The parameters, by position. -/
  parameters : List (Option (Value α))
  /-- The results of the instructions so far, by position. -/
  results : List (Value α)

/-- The value of a reference. -/
def Env.fetch (env : Env α) : ValueRef → Except EvalFault (Value α)
  | .parameter position =>
    match env.parameters[position]? with
    | some (some v) => .ok v
    | _ => .error (.absentParameter position)
  | .instruction position =>
    match env.results[position]? with
    | some v => .ok v
    | none => .error (.pendingInstruction position)

/-- An elementwise operation of two operands. -/
def binary (op : α → α → α) (spec : TensorSpec) :
    List (Value α) → Except EvalFault (Value α)
  | [x, y] =>
    if x.data.length ≠ y.data.length ∨ x.data.length ≠ spec.elements then .error .elementCount
    else .ok ⟨spec, List.zipWith op x.data y.data⟩
  | _ => .error .notTwoOperands

/-- An elementwise operation of one operand. -/
def unary (op : α → α) (spec : TensorSpec) : List (Value α) → Except EvalFault (Value α)
  | [x] => .ok ⟨spec, x.data.map op⟩
  | operands => .error (.notOneOperand operands.length)

/-- The elements of the operand in the shape of the result. -/
def reshape (spec : TensorSpec) : List (Value α) → Except EvalFault (Value α)
  | [x] =>
    if x.data.length ≠ spec.elements then .error .reshapeCount else .ok ⟨spec, x.data⟩
  | operands => .error (.notOneOperand operands.length)

/-- The result of an instruction for the values of its operands. -/
def execute (arith : Ieee.Arithmetic α) (i : Instruction) (operands : List (Value α)) :
    Except EvalFault (Value α) :=
  if i.spec.dtype ≠ .f32 then .error (.notFloat i.op)
  else
    match i.op with
    | .add => binary arith.add i.spec operands
    | .sub => binary arith.sub i.spec operands
    | .mul => binary arith.mul i.spec operands
    | .neg => unary arith.neg i.spec operands
    | .identity => unary id i.spec operands
    | .reshape => reshape i.spec operands

/-- The results of the instructions, after those there are already. -/
def run (arith : Ieee.Arithmetic α) (parameters : List (Option (Value α))) :
    List Instruction → List (Value α) → Except EvalFault (List (Value α))
  | [], results => .ok results
  | i :: rest, results => do
    let operands ← i.operands.mapM (Env.fetch ⟨parameters, results⟩)
    let v ← execute arith i operands
    run arith parameters rest (results ++ [v])

end Evaluation

/-- The values a function returns for its parameters. -/
def Function.evaluate {α : Type} (f : Function) (arith : Ieee.Arithmetic α)
    (parameters : List (Option (Value α))) : Except EvalFault (List (Value α)) := do
  if parameters.length ≠ f.parameters.length then
    .error (.parameterCount f.name f.parameters.length parameters.length)
  let results ← Evaluation.run arith parameters f.body []
  f.outputs.mapM (Evaluation.Env.fetch ⟨parameters, results⟩)

end TensorJit
