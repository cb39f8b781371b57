import TensorJit.Function.Basic
import TensorJit.Json.Printer
import TensorJit.Json.Reader

/-!
# The stored form of a function

A function is stored as JSON over several lines: for inspection, when it is compiled or fails
to compile, and in the table of a unit that was compiled ahead of time.
-/

namespace TensorJit

/-- The stored form of a reference. -/
def ValueRef.toJson : ValueRef → Json
  | .parameter position => .record [("Parameter", .nat position)]
  | .instruction position => .record [("Instruction", .nat position)]

/-- The reference of a stored form. -/
def ValueRef.ofJson? (j : Json) : Option ValueRef := do
  let (kind, held) ← j.choice?
  match kind with
  | "Parameter" => held.word?.map .parameter
  | "Instruction" => held.word?.map .instruction
  | _ => none

/-- The stored form of an instruction. -/
def Instruction.toJson (i : Instruction) : Json :=
  .record [("op", .string i.op.tag), ("operands", .array (i.operands.map ValueRef.toJson)),
    ("spec", i.spec.toJson)]

/-- The instruction of a stored form. -/
def Instruction.ofJson? (j : Json) : Option Instruction := do
  match ← j.record? ["op", "operands", "spec"] with
  | [op, operands, spec] =>
    some ⟨← (← op).unitChoice?.bind OpKind.ofTag?, ← (← operands).list? ValueRef.ofJson?,
      ← TensorSpec.ofJson? (← spec)⟩
  | _ => none

namespace Function

/-- The stored form of a function. -/
def toJson (f : Function) : Json :=
  .record [("name", .string f.name), ("parameters", .array (f.parameters.map TensorSpec.toJson)),
    ("results", .array (f.results.map TensorSpec.toJson)),
    ("body", .array (f.body.map Instruction.toJson)),
    ("outputs", .array (f.outputs.map ValueRef.toJson))]

/-- The function of a stored form. -/
def ofJson? (j : Json) : Option Function := do
  match ← j.record? ["name", "parameters", "results", "body", "outputs"] with
  | [name, parameters, results, body, outputs] =>
    some ⟨← (← name).string?, ← (← parameters).list? TensorSpec.ofJson?,
      ← (← results).list? TensorSpec.ofJson?, ← (← body).list? Instruction.ofJson?,
      ← (← outputs).list? ValueRef.ofJson?⟩
  | _ => none

/-- The text of a function. -/
def toText (f : Function) : String := f.toJson.renderPretty

/-- The function that a text stores. -/
def ofText? (text : String) : Option Function := do ofJson? (← Json.ofText? text)

end Function

end TensorJit
