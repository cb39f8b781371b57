/-!
# Whole numbers in decimal

Numbers are written in decimal without leading zeros, and with a minus sign in front if they
are negative. A number is read back from one or more ASCII digits; a limit on its size, and
whether a plus sign may stand in front, belong to the place that reads it.
-/

namespace TensorJit.Text

/-- The decimal digits of `n`, without leading zeros. -/
def natDigits (n : Nat) : List Char := Nat.toDigits 10 n

/-- `n` in decimal, a minus sign in front if it is negative. -/
def intDigits : Int → List Char
  | .ofNat n => natDigits n
  | .negSucc n => '-' :: natDigits (n + 1)

/-- The text of `n` in decimal. -/
def ofNat (n : Nat) : String := String.ofList (natDigits n)

/-- The value of an ASCII digit. -/
def digitValue (c : Char) : Nat := c.toNat - '0'.toNat

/-- The number that a run of digits spells, most significant digit first. -/
def natOfDigits (digits : List Char) : Nat :=
  digits.foldl (fun n c => 10 * n + digitValue c) 0

/-- The number that the text spells: ASCII digits, at least one, and nothing else. -/
def nat? (text : List Char) : Option Nat :=
  if text.isEmpty || !text.all Char.isDigit then none else some (natOfDigits text)

/-- The first number that does not fit 64 bits. -/
def wordLimit : Nat := UInt64.size

/-- The number that the text spells, if it is written without a minus sign and fits 64 bits;
one plus sign may stand in front. -/
def word? (text : List Char) : Option Nat :=
  (nat? (match text with | '+' :: rest => rest | _ => text)).filter (· < wordLimit)

end TensorJit.Text
