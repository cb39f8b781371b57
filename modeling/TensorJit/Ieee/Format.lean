/-!
# Binary floating-point words

An IEEE binary format of precision `p` with `w` exponent bits packs a sign, an exponent field
and a fraction into one word. Every finite datum is a whole multiple of the least positive
one, so its magnitude is a natural number in that unit, and **no step below ever rounds except
`Format.round`**: sums and products are exact integers first.

| field of a word | datum |
|---|---|
| exponent all ones, fraction zero | an infinity |
| exponent all ones, fraction not zero | no number |
| exponent zero | the fraction, in units |
| exponent `e`, fraction `x` | `(2 ^ (p - 1) + x) * 2 ^ (e - 1)` units |
-/

namespace TensorJit.Ieee

/-- A binary interchange format. -/
structure Format where
  /-- Bits of a significand, the leading one included. -/
  precision : Nat
  /-- Bits of the exponent field. -/
  exponentBits : Nat
  deriving DecidableEq, Repr

namespace Format

/-- Words of 32 bits. -/
def binary32 : Format := ⟨24, 8⟩

/-- Words of 64 bits. -/
def binary64 : Format := ⟨53, 11⟩

/-- The weight of the lowest exponent bit, and the least significand of full precision. -/
def hidden (f : Format) : Nat := 1 <<< (f.precision - 1)

/-- The word of positive infinity; above it lie the words that are no number. -/
def infinity (f : Format) : Nat := (1 <<< f.exponentBits - 1) * f.hidden

/-- The weight of the sign bit. -/
def signBit (f : Format) : Nat := f.hidden <<< f.exponentBits

/-- The word that an operation on numbers delivers if it has none for a result. -/
def noResult (f : Format) : Nat := f.signBit + f.infinity + f.hidden / 2

/-- The unit of magnitudes is two to the power of minus this. -/
def unitExponent (f : Format) : Nat := 1 <<< (f.exponentBits - 1) - 1 + (f.precision - 2)

end Format

/-- What a word stands for; a magnitude counts units of its format. -/
inductive Datum where
  /-- No number. -/
  | nan
  /-- An infinity. -/
  | infinite (negative : Bool)
  /-- A finite number; zero has a sign too. -/
  | finite (negative : Bool) (magnitude : Nat)
  deriving DecidableEq, Repr

namespace Format

variable (f : Format)

/-- The significand and the power of two that the low bits of a word encode. -/
def scaled (bits : Nat) : Nat × Nat :=
  let exponent := bits / f.hidden
  if exponent = 0 then (bits, 0) else (f.hidden + bits % f.hidden, exponent - 1)

/-- The datum of a word. -/
def decode (word : Nat) : Datum :=
  let negative := f.signBit ≤ word
  let bits := word % f.signBit
  if f.infinity < bits then .nan
  else if bits = f.infinity then .infinite negative
  else .finite negative ((f.scaled bits).1 <<< (f.scaled bits).2)

/-- The word with the given sign and low bits. -/
def compose (negative : Bool) (bits : Nat) : Nat :=
  if negative then f.signBit + bits else bits

/-- The whole number nearest to `n / d`, the even one of two. -/
def nearest (n d : Nat) : Nat :=
  let q := n / d
  let r := n % d
  if 2 * r < d ∨ (2 * r = d ∧ q % 2 = 0) then q else q + 1

/-- The low bits of the datum nearest to `n / 2 ^ shift` units, the even one of two; infinity
if that lies beyond the greatest finite datum. -/
def round (n shift : Nat) : Nat :=
  let quantum := max shift (n.log2 + 1 - f.precision)
  min (nearest n (1 <<< quantum) + (quantum - shift) * f.hidden) f.infinity

end Format

end TensorJit.Ieee
