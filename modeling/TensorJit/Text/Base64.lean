import TensorJit.Bytes

/-!
# Base 64

A serialized executable travels as text: three bytes become four characters of the standard
alphabet, and a last group of one or two bytes is padded with `=` to four characters. Reading
is strict. The text consists of groups of four; only the last may be padded; and the bits that
padding leaves over must be zero. So **each byte string has exactly one text**, and no other
text is read as it.
-/

namespace TensorJit.Text.Base64

/-- The standard alphabet, the character for `0` first. -/
def alphabet : List Char :=
  "ABCDEFGHIJKLMNOPQRSTUVWXYZabcdefghijklmnopqrstuvwxyz0123456789+/".toList

/-- The character for the six bits of `n`. -/
def symbol (n : Nat) : Char := alphabet.getD (n % 64) 'A'

/-- The six bits that a character of the alphabet stands for. -/
def symbolValue? (c : Char) : Option Nat := alphabet.idxOf? c

/-- The text of a byte string. -/
def encode : Bytes → List Char
  | [] => []
  | [a] =>
    let n := a.toNat <<< 4
    [symbol (n >>> 6), symbol n, '=', '=']
  | [a, b] =>
    let n := (a.toNat <<< 8 + b.toNat) <<< 2
    [symbol (n >>> 12), symbol (n >>> 6), symbol n, '=']
  | a :: b :: c :: rest =>
    let n := (a.toNat <<< 8 + b.toNat) <<< 8 + c.toNat
    symbol (n >>> 18) :: symbol (n >>> 12) :: symbol (n >>> 6) :: symbol n :: encode rest

/-- The bytes of a last group, which may be padded; bits left over must be zero. -/
def decodeLast (a b c d : Char) : Option Bytes := do
  let x ← symbolValue? a
  let y ← symbolValue? b
  if c = '=' ∧ d = '=' then
    if y % 16 = 0 then some [UInt8.ofNat (x <<< 2 + y >>> 4)] else none
  else
    let z ← symbolValue? c
    if d = '=' then
      if z % 4 = 0 then
        some [UInt8.ofNat (x <<< 2 + y >>> 4), UInt8.ofNat (y <<< 4 + z >>> 2)]
      else none
    else
      let w ← symbolValue? d
      some [UInt8.ofNat (x <<< 2 + y >>> 4), UInt8.ofNat (y <<< 4 + z >>> 2),
        UInt8.ofNat (z <<< 6 + w)]

/-- The byte string that a text stands for. -/
def decode? : List Char → Option Bytes
  | [] => some []
  | [a, b, c, d] => decodeLast a b c d
  | a :: b :: c :: d :: rest => do
    let x ← symbolValue? a
    let y ← symbolValue? b
    let z ← symbolValue? c
    let w ← symbolValue? d
    let bytes ← decode? rest
    some (UInt8.ofNat (x <<< 2 + y >>> 4) :: UInt8.ofNat (y <<< 4 + z >>> 2) ::
      UInt8.ofNat (z <<< 6 + w) :: bytes)
  | _ => none

end TensorJit.Text.Base64
