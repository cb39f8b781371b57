import TensorJit.Ieee.Format

/-!
# Arithmetic on floating-point words

Sums and products of words, rounded to nearest with ties to even, and the change of sign.
A sum of finite data is an exact integer in the unit of the format before it is rounded, and
a product is one in the square of that unit. The signs of zero follow the standard: a sum that
vanishes is positive zero, unless both operands are negative zeros.

The standard leaves open which word an operation delivers that has no number for a result. Here
an operand that is no number is delivered as it is but quiet, the first of two, and an operation
on numbers delivers the negative word with the highest fraction bit alone.

`Arithmetic` is the interface that evaluation needs. Nothing proved about evaluation depends
on what the operations compute, so statements about programs quantify over it.
-/

namespace TensorJit.Ieee

namespace Format

variable (f : Format)

/-- The word nearest to a whole number. -/
def ofInt (n : Int) : Nat := f.compose (n < 0) (f.round (n.natAbs <<< f.unitExponent) 0)

/-- The word with the sign flipped. -/
def neg (a : Nat) : Nat :=
  if f.signBit ≤ a then a - f.signBit else f.signBit + a

/-- A word that is no number, made quiet. -/
def quiet (a : Nat) : Nat :=
  if a % f.hidden < f.hidden / 2 then a + f.hidden / 2 else a

/-- The exact sum of two signed magnitudes, rounded. -/
def addFinite (n : Bool) (a : Nat) (m : Bool) (b : Nat) : Nat :=
  let signed (negative : Bool) (magnitude : Nat) : Int :=
    if negative then -(magnitude : Int) else magnitude
  let sum := signed n a + signed m b
  if sum = 0 then f.compose (n && m) 0
  else f.compose (sum < 0) (f.round sum.natAbs 0)

/-- The sum of two words. -/
def add (a b : Nat) : Nat :=
  match f.decode a, f.decode b with
  | .nan, _ => f.quiet a
  | _, .nan => f.quiet b
  | .infinite n, .infinite m => if n = m then f.compose n f.infinity else f.noResult
  | .infinite n, .finite _ _ => f.compose n f.infinity
  | .finite _ _, .infinite m => f.compose m f.infinity
  | .finite n x, .finite m y => f.addFinite n x m y

/-- The difference of two words. -/
def sub (a b : Nat) : Nat :=
  match f.decode b with
  | .nan => f.add a b
  | _ => f.add a (f.neg b)

/-- The product of two words. -/
def mul (a b : Nat) : Nat :=
  match f.decode a, f.decode b with
  | .nan, _ => f.quiet a
  | _, .nan => f.quiet b
  | .infinite n, .infinite m => f.compose (n != m) f.infinity
  | .infinite n, .finite m y => if y = 0 then f.noResult else f.compose (n != m) f.infinity
  | .finite n x, .infinite m => if x = 0 then f.noResult else f.compose (n != m) f.infinity
  | .finite n x, .finite m y => f.compose (n != m) (f.round (x * y) f.unitExponent)

end Format

/-- The operations on elements that evaluating a function needs. -/
structure Arithmetic (α : Type) where
  /-- The sum. -/
  add : α → α → α
  /-- The difference. -/
  sub : α → α → α
  /-- The product. -/
  mul : α → α → α
  /-- The change of sign. -/
  neg : α → α

/-- Arithmetic on words of 32 bits, rounded to nearest with ties to even. -/
def Arithmetic.binary32 : Arithmetic UInt32 where
  add a b := .ofNat (Format.binary32.add a.toNat b.toNat)
  sub a b := .ofNat (Format.binary32.sub a.toNat b.toNat)
  mul a b := .ofNat (Format.binary32.mul a.toNat b.toNat)
  neg a := .ofNat (Format.binary32.neg a.toNat)

end TensorJit.Ieee
