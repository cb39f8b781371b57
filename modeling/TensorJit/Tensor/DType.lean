/-!
# Element types

The scalar types of tensor elements, with the width of each, its name in messages and its tag
in stored text.
-/

namespace TensorJit

/-- The type of a tensor's elements. -/
inductive DType where
  /-- Floating point of 32 bits. -/
  | f32
  /-- Floating point of 64 bits. -/
  | f64
  /-- Signed integers of 32 bits, the usual type of a shape operand. -/
  | i32
  /-- Signed integers of 64 bits. -/
  | i64
  /-- Unsigned bytes. -/
  | u8
  /-- Truth values, one byte each. -/
  | bool
  deriving DecidableEq, Repr, Inhabited

namespace DType

/-- Every element type, in the order of its number in serialized form. -/
def all : List DType := [f32, f64, i32, i64, u8, bool]

/-- Bytes per element. -/
def size : DType → Nat
  | f32 | i32 => 4
  | f64 | i64 => 8
  | u8 | bool => 1

/-- The name in messages. -/
def name : DType → String
  | f32 => "f32"
  | f64 => "f64"
  | i32 => "i32"
  | i64 => "i64"
  | u8 => "u8"
  | bool => "bool"

/-- The tag in stored text. -/
def tag : DType → String
  | f32 => "F32"
  | f64 => "F64"
  | i32 => "I32"
  | i64 => "I64"
  | u8 => "U8"
  | bool => "Bool"

/-- The type with the given tag. -/
def ofTag? (tag : String) : Option DType := all.find? (·.tag = tag)

/-- The number in serialized form. -/
def code (d : DType) : Nat := all.idxOf d

/-- The type with the given number. -/
def ofCode? (n : Nat) : Option DType := all[n]?

@[simp]
theorem ofTag?_tag (d : DType) : ofTag? d.tag = some d := by cases d <;> decide

@[simp]
theorem ofCode?_code (d : DType) : ofCode? d.code = some d := by cases d <;> decide

theorem size_pos (d : DType) : 0 < d.size := by cases d <;> decide

end DType

end TensorJit
