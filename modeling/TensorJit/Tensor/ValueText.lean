import TensorJit.Ieee.Shortest
import TensorJit.Tensor.Basic

/-!
# The text of a tensor's value

The value of a tensor is written as its elements between commas. Numbers are written so that
no two of them share a text: integers in decimal, floating-point elements as the shortest
decimal that reads back. Truth values are written as words, and every byte that is not zero
is true.
-/

namespace TensorJit.Tensor

/-- The text of one element. -/
def elementText : DType → Bytes → List Char
  | .f32, bytes => Ieee.Format.binary32.render bytes.toNat
  | .f64, bytes => Ieee.Format.binary64.render bytes.toNat
  | .i32, bytes | .i64, bytes => Text.intDigits bytes.toInt
  | .u8, bytes => Text.natDigits bytes.toNat
  | .bool, bytes => if bytes.toNat = 0 then "false".toList else "true".toList

/-- The elements between commas. -/
def joinTexts : List (List Char) → List Char
  | [] => []
  | [t] => t
  | t :: rest => t ++ ',' :: joinTexts rest

/-- The text of the value, if there are as many bytes as the spec takes. -/
def valueText (t : Tensor) : Except ValueFault (List Char) :=
  if t.WellSized then .ok (joinTexts (t.elements.map (elementText t.spec.dtype)))
  else .error (.byteCount t.spec t.bytes.length)

end TensorJit.Tensor
