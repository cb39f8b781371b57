import TensorJit.Graph.StaticInputs
import TensorJit.Tensor.ValueText

/-!
# Signatures

A signature is the key under which a compiled function is kept. It is a text made from the
shapes of the inputs and the values of the static ones:

* every input contributes its dimensions, each followed by a comma, and then a semicolon;
* a slash ends the shapes;
* every static input contributes the text of its value and then a semicolon.

Element types do not enter, and neither do the values of inputs that are not static.
-/

namespace TensorJit

/-- The key of a compiled function. -/
abbrev Signature := String

namespace Signature

/-- The part of a signature that gives one shape. -/
def shapeText (s : Shape) : List Char := s.flatMap (fun d => Text.natDigits d ++ [',']) ++ [';']

/-- The static inputs among the tensors from a position on, each a tensor and the others
absent. -/
def staticsFrom (flags : StaticInputs) : (position : Nat) → List Tensor → List (Option Tensor)
  | _, [] => []
  | position, t :: rest =>
    (if flags.isStatic position then some t else none) :: staticsFrom flags (position + 1) rest

/-- The part of a signature that gives the values, each followed by a semicolon. -/
def valuesText : List Tensor → Except ValueFault (List Char)
  | [] => .ok []
  | t :: rest => do return (← t.valueText) ++ ';' :: (← valuesText rest)

/-- A signature and what lowering needs besides the graph. -/
structure Computed where
  /-- The signature. -/
  signature : Signature
  /-- The spec of every input. -/
  specs : List TensorSpec
  /-- The tensor at every static position. -/
  statics : List (Option Tensor)
  deriving DecidableEq, Repr

/-- The signature of the inputs. It exists unless the value of a static input cannot be
written. -/
def compute (flags : StaticInputs) (inputs : List Tensor) : Except ValueFault Computed := do
  let statics := staticsFrom flags 0 inputs
  let values ← valuesText (statics.filterMap id)
  return {
    signature := .ofList (inputs.flatMap (fun t => shapeText t.spec.shape) ++ '/' :: values)
    specs := inputs.map (·.spec)
    statics }

end Signature

end TensorJit
