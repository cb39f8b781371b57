/-!
# Byte strings

The contents of a buffer, of a device tensor and of a serialized executable are all lists of
bytes. What is done with them is little: a number is laid out **least byte first**, a buffer
is cut into elements of one width, and a stretch of it is read or overwritten in place.

Reading and overwriting are partial, and both fail in the same case: a stretch that does not
lie inside the buffer. Neither ever changes how long a buffer is (`Bytes.length_overwrite?`).
-/

namespace TensorJit

/-- A string of bytes. -/
abbrev Bytes := List UInt8

namespace Bytes

/-! ### Numbers, least byte first -/

/-- The `width` low bytes of `n`, least first. -/
def ofNat : (width n : Nat) → Bytes
  | 0, _ => []
  | width + 1, n => UInt8.ofNat n :: ofNat width (n / 256)

/-- The number that the bytes spell, least first. -/
def toNat : Bytes → Nat
  | [] => 0
  | b :: rest => b.toNat + 256 * toNat rest

/-- The number that the bytes spell in two's complement, least byte first. -/
def toInt (bytes : Bytes) : Int :=
  Int.bmod (toNat bytes) (1 <<< (8 * bytes.length))

@[simp]
theorem length_ofNat (width n : Nat) : (ofNat width n).length = width := by
  induction width generalizing n with
  | zero => rfl
  | succ width ih => simp [ofNat, ih]

/-! ### Elements of one width -/

/-- The first `count` stretches of `width` bytes. -/
def stretches (width : Nat) : (count : Nat) → Bytes → List Bytes
  | 0, _ => []
  | count + 1, bytes => bytes.take width :: stretches width count (bytes.drop width)

/-- The bytes cut into stretches of `width`; what is left over at the end is dropped. -/
def chunks (width : Nat) (bytes : Bytes) : List Bytes :=
  stretches width (bytes.length / width) bytes

@[simp]
theorem length_stretches (width count : Nat) (bytes : Bytes) :
    (stretches width count bytes).length = count := by
  induction count generalizing bytes with
  | zero => rfl
  | succ count ih => simp [stretches, ih]

@[simp]
theorem length_chunks (width : Nat) (bytes : Bytes) :
    (chunks width bytes).length = bytes.length / width := by
  simp [chunks]

/-! ### A stretch in place -/

/-- The `length` bytes from `offset` on, if they all exist. -/
def slice? (bytes : Bytes) (offset length : Nat) : Option Bytes :=
  if offset + length ≤ bytes.length then some ((bytes.drop offset).take length) else none

/-- The bytes with those from `offset` on replaced by `source`, if there is room for it. -/
def overwrite? (bytes source : Bytes) (offset : Nat) : Option Bytes :=
  if offset + source.length ≤ bytes.length then
    some (bytes.take offset ++ source ++ bytes.drop (offset + source.length))
  else none

/-- The bytes cut to `length`, or extended to it by zeros. -/
def resize (bytes : Bytes) (length : Nat) : Bytes :=
  bytes.take length ++ List.replicate (length - bytes.length) 0

/-- Overwriting keeps the length. -/
theorem length_overwrite? {bytes source result : Bytes} {offset : Nat}
    (h : bytes.overwrite? source offset = some result) : result.length = bytes.length := by
  simp only [overwrite?, Option.ite_none_right_eq_some, Option.some.injEq] at h
  obtain ⟨hle, rfl⟩ := h
  simp
  omega

end Bytes

end TensorJit
