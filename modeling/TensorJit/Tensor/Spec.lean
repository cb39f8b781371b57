import TensorJit.Tensor.DType
import TensorJit.Json.Record
import TensorJit.Json.Reader

/-!
# Shapes and tensor specs

A shape is a list of dimensions, empty for a scalar; a spec adds the element type. Every
position of a graph, a function or an executable has a spec, and the bytes behind a position
are as many as its spec says when nothing has gone wrong.
-/

namespace TensorJit

/-- The dimensions of a tensor. -/
abbrev Shape := List Nat

namespace Shape

/-- The number of elements: the product of the dimensions, one for a scalar. -/
def elements (s : Shape) : Nat := s.foldr (· * ·) 1

/-- The text of a shape: its dimensions between commas and brackets. -/
def text (s : Shape) : String := "[" ++ ",".intercalate (s.map toString) ++ "]"

/-- The stored form of a shape. -/
def toJson (s : Shape) : Json := .record [("dims", .array (s.map .nat))]

/-- The shape of a stored form. -/
def ofJson? (j : Json) : Option Shape := do
  match ← j.record? ["dims"] with
  | [dims] => (← dims).list? Json.word?
  | _ => none

end Shape

/-- Element type and shape of a tensor position. -/
structure TensorSpec where
  /-- The type of the elements. -/
  dtype : DType
  /-- The dimensions. -/
  shape : Shape
  deriving DecidableEq, Repr, Inhabited

namespace TensorSpec

/-- The number of elements. -/
def elements (s : TensorSpec) : Nat := s.shape.elements

/-- The number of bytes a dense tensor of this spec takes. -/
def byteLength (s : TensorSpec) : Nat := s.elements * s.dtype.size

/-- The text of a spec. -/
def text (s : TensorSpec) : String := s.dtype.name ++ s.shape.text

/-- The stored form of a spec. -/
def toJson (s : TensorSpec) : Json :=
  .record [("dtype", .string s.dtype.tag), ("shape", s.shape.toJson)]

/-- The spec of a stored form. -/
def ofJson? (j : Json) : Option TensorSpec := do
  match ← j.record? ["dtype", "shape"] with
  | [dtype, shape] =>
    some ⟨← (← dtype).unitChoice?.bind DType.ofTag?, ← Shape.ofJson? (← shape)⟩
  | _ => none

/-- The spec that a text stores. -/
def ofText? (text : String) : Option TensorSpec := do ofJson? (← Json.ofText? text)

end TensorSpec

end TensorJit
