/-!
# Hexadecimal digits

Digits are written in lower case and read in either. A byte is two digits, the high half first,
so a string of bytes is twice as many digits, and an odd number of digits is no string of bytes.
-/

namespace TensorJit.Text.Hex

/-- The digit of a value, of which only the low four bits count. -/
def digit (n : Nat) : Char := "0123456789abcdef".toList.getD (n % 16) '0'

/-- The value of a digit. -/
def value? (c : Char) : Option Nat :=
  if c.isDigit then some (c.toNat - '0'.toNat)
  else if 'a' ≤ c ∧ c ≤ 'f' then some (c.toNat - 'a'.toNat + 10)
  else if 'A' ≤ c ∧ c ≤ 'F' then some (c.toNat - 'A'.toNat + 10)
  else none

/-- The number that digits spell, unless one of them is none. -/
def number? (text : List Char) : Option Nat :=
  text.foldlM (fun n c => (value? c).map (16 * n + ·)) 0

/-- The last `width` digits of a number. -/
def ofNat (width n : Nat) : List Char :=
  (List.range width).reverse.map fun i => digit (n >>> (4 * i))

/-- Bytes, two digits each. -/
def ofBytes (bytes : List UInt8) : List Char := bytes.flatMap fun b => ofNat 2 b.toNat

/-- The bytes that pairs of digits spell. -/
def bytes? : List Char → Option (List UInt8)
  | [] => some []
  | [_] => none
  | a :: b :: rest => do
    let high ← value? a
    let low ← value? b
    let bytes ← bytes? rest
    some (.ofNat (16 * high + low) :: bytes)

end TensorJit.Text.Hex
