import TensorJit.Bytes
import TensorJit.Tensor.Spec

/-!
# Tensor values

A tensor is a spec together with bytes, elements in order and each least byte first. The bytes
of a buffer may be cut or extended behind a tensor's back, so their number is checked where it
matters: when a tensor is made (`Tensor.ofBytes`) and when its value is written out.
-/

namespace TensorJit

/-- A spec and the bytes behind it. -/
structure Tensor where
  /-- Element type and shape. -/
  spec : TensorSpec
  /-- The elements, each least byte first. -/
  bytes : Bytes
  deriving DecidableEq, Repr, Inhabited

/-- Why bytes do not make a tensor. -/
inductive TensorFault where
  /-- The spec takes another number of bytes. -/
  | byteCount (found : Nat) (spec : TensorSpec)
  deriving DecidableEq, Repr

/-- Why the elements of a tensor cannot be read. -/
inductive ValueFault where
  /-- The storage behind the tensor has another length than its spec asks for. -/
  | byteCount (spec : TensorSpec) (found : Nat)
  /-- Floating-point elements were expected. -/
  | notFloat (spec : TensorSpec)
  /-- Integer elements were expected. -/
  | notInteger (dtype : DType)
  deriving DecidableEq, Repr

/-- The wording of a fault. -/
def TensorFault.message : TensorFault → String
  | .byteCount found spec =>
    s!"host buffer of {found} bytes does not match tensor {spec.text} ({spec.byteLength} bytes)"

/-- The wording of a fault. -/
def ValueFault.message : ValueFault → String
  | .byteCount spec found =>
    s!"tensor {spec.text} holds {found} bytes, expected {spec.byteLength}"
  | .notFloat spec => s!"expected f32 tensor, found {spec.text}"
  | .notInteger dtype => s!"expected an integer tensor, found {dtype.name}"

namespace Tensor

/-- The tensor with the given bytes, as many as the spec takes. -/
def ofBytes (spec : TensorSpec) (bytes : Bytes) : Except TensorFault Tensor :=
  if bytes.length = spec.byteLength then .ok ⟨spec, bytes⟩
  else .error (.byteCount bytes.length spec)

/-- The tensor whose bytes are all zero. -/
def zeros (spec : TensorSpec) : Tensor := ⟨spec, List.replicate spec.byteLength 0⟩

/-- Whether there are as many bytes as the spec takes. -/
def WellSized (t : Tensor) : Prop := t.bytes.length = t.spec.byteLength

instance (t : Tensor) : Decidable t.WellSized := inferInstanceAs (Decidable (_ = _))

/-- The bytes of each element. -/
def elements (t : Tensor) : List Bytes := t.bytes.chunks t.spec.dtype.size

/-- Words of 32 bits, least byte first. -/
def wordsOfBytes (bytes : Bytes) : List UInt32 :=
  (bytes.chunks 4).map fun b => .ofNat b.toNat

/-- The bytes of words of 32 bits, least byte first. -/
def bytesOfWords (words : List UInt32) : Bytes :=
  words.flatMap fun w => Bytes.ofNat 4 w.toNat

/-- The elements as floating-point words, if the tensor holds such. -/
def floats (t : Tensor) : Except ValueFault (List UInt32) :=
  if t.spec.dtype = .f32 then .ok (wordsOfBytes t.bytes) else .error (.notFloat t.spec)

/-- The elements as integers, if the tensor holds integers or bytes. -/
def integers (t : Tensor) : Except ValueFault (List Int) :=
  match t.spec.dtype with
  | .i32 | .i64 => .ok (t.elements.map Bytes.toInt)
  | .u8 => .ok (t.bytes.map fun b => (b.toNat : Int))
  | other => .error (.notInteger other)

@[simp]
theorem wellSized_zeros (spec : TensorSpec) : (zeros spec).WellSized := by
  simp [WellSized, zeros]

end Tensor

end TensorJit
