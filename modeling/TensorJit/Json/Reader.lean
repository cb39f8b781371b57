import TensorJit.Json.Basic
import TensorJit.Text.Decimal
import TensorJit.Text.Hex

/-!
# Reading JSON

Standard JSON and nothing more: no comments, no trailing commas, no text after the value, and
no raw control characters inside strings. Blanks are the four of the standard.

A string is read in two steps. The first takes the literal apart into code values, where an
escape `\uXXXX` is worth the sixteen bits it spells; the second joins surrogate pairs, and fails
on a surrogate without a partner. The literal is well formed either way, which is why such a
string becomes `Json.other` instead of ending the reading.

The recursion is bounded by the length of the text, since every step takes a character.
-/

namespace TensorJit.Json

/-- The blanks of JSON. -/
def isSpace (c : Char) : Bool := c = ' ' || c = '\n' || c = '\r' || c = '\t'

/-- The text from its first character on that is not a blank. -/
def skip (text : List Char) : List Char := text.dropWhile isSpace

/-! ### Strings -/

/-- The code value of a one-letter escape. -/
def shortEscape? : Char → Option Nat
  | '"' => some 0x22
  | '\\' => some 0x5c
  | '/' => some 0x2f
  | 'b' => some 0x08
  | 'f' => some 0x0c
  | 'n' => some 0x0a
  | 'r' => some 0x0d
  | 't' => some 0x09
  | _ => none

/-- The code values up to the closing quote, and the text after it. -/
def codeValues : List Char → Option (List Nat × List Char)
  | [] => none
  | '"' :: rest => some ([], rest)
  | '\\' :: 'u' :: a :: b :: c :: d :: rest => do
    let value ← Text.Hex.number? [a, b, c, d]
    let (values, rest) ← codeValues rest
    some (value :: values, rest)
  | '\\' :: c :: rest => do
    let value ← shortEscape? c
    let (values, rest) ← codeValues rest
    some (value :: values, rest)
  | c :: rest =>
    if c.toNat < 32 then none
    else do
      let (values, rest) ← codeValues rest
      some (c.toNat :: values, rest)

/-- The first half of a surrogate pair. -/
def isHighSurrogate (value : Nat) : Bool := 0xd800 ≤ value && value < 0xdc00

/-- The second half of a surrogate pair. -/
def isLowSurrogate (value : Nat) : Bool := 0xdc00 ≤ value && value < 0xe000

/-- The characters that code values spell, unless a surrogate has no partner. -/
def joinSurrogates : List Nat → Option (List Char)
  | [] => some []
  | [value] =>
    if isHighSurrogate value || isLowSurrogate value then none else some [Char.ofNat value]
  | high :: low :: rest =>
    if isLowSurrogate high then none
    else if isHighSurrogate high then
      if isLowSurrogate low then
        (joinSurrogates rest).map
          (Char.ofNat (0x10000 + (high - 0xd800) * 0x400 + (low - 0xdc00)) :: ·)
      else none
    else (joinSurrogates (low :: rest)).map (Char.ofNat high :: ·)

/-- A string after its opening quote; without characters if a surrogate has no partner. -/
def readString (text : List Char) : Option (Option String × List Char) := do
  let (values, rest) ← codeValues text
  some ((joinSurrogates values).map String.ofList, rest)

/-! ### Numbers -/

/-- The digits that a text begins with, at least one, and the text after them. -/
def readDigits (text : List Char) : Option (List Char × List Char) :=
  match text.takeWhile Char.isDigit with
  | [] => none
  | digits => some (digits, text.dropWhile Char.isDigit)

/-- The whole part of a number: a zero alone, or digits that do not begin with one. -/
def readWhole : List Char → Option (List Char × List Char)
  | '0' :: rest => some (['0'], rest)
  | text => readDigits text

/-- The text after a fraction, if one stands there. -/
def skipFraction : List Char → Option (Bool × List Char)
  | '.' :: rest => (readDigits rest).map fun (_, rest) => (true, rest)
  | text => some (false, text)

/-- The text after an exponent, if one stands there. -/
def skipExponent : List Char → Option (Bool × List Char)
  | c :: rest =>
    if c = 'e' ∨ c = 'E' then
      let digits := match rest with
        | s :: more => if s = '+' ∨ s = '-' then more else rest
        | [] => rest
      (readDigits digits).map fun (_, rest) => (true, rest)
    else some (false, c :: rest)
  | [] => some (false, [])

/-- A number after its sign. -/
def readUnsigned (negative : Bool) (text : List Char) : Option (Json × List Char) := do
  let (whole, rest) ← readWhole text
  let (fraction, rest) ← skipFraction rest
  let (exponent, rest) ← skipExponent rest
  let magnitude := Text.natOfDigits whole
  let value : Json :=
    if fraction || exponent || (negative && magnitude = 0) then .other
    else .number (if negative then -(magnitude : Int) else magnitude)
  some (value, rest)

/-! ### Values -/

mutual

/-- The value that a text begins with, after blanks, and the text after it. -/
def readValue : (fuel : Nat) → List Char → Option (Json × List Char)
  | 0, _ => none
  | fuel + 1, text =>
    match skip text with
    | 'n' :: 'u' :: 'l' :: 'l' :: rest => some (.null, rest)
    | 't' :: 'r' :: 'u' :: 'e' :: rest => some (.bool true, rest)
    | 'f' :: 'a' :: 'l' :: 's' :: 'e' :: rest => some (.bool false, rest)
    | '"' :: rest => do
      let (s, rest) ← readString rest
      some (match s with | some s => .string s | none => .other, rest)
    | '[' :: rest =>
      match skip rest with
      | ']' :: rest => some (.array [], rest)
      | rest => do
        let (items, rest) ← readItems fuel rest
        some (.array items, rest)
    | '{' :: rest =>
      match skip rest with
      | '}' :: rest => some (.object [], rest)
      | rest => do
        let (fields, rest) ← readFields fuel rest
        some (.object fields, rest)
    | '-' :: rest => readUnsigned true rest
    | rest => readUnsigned false rest

/-- One or more array items up to the closing bracket. -/
def readItems : (fuel : Nat) → List Char → Option (List Json × List Char)
  | 0, _ => none
  | fuel + 1, text => do
    let (v, rest) ← readValue fuel text
    match skip rest with
    | ',' :: rest =>
      let (items, rest) ← readItems fuel rest
      some (v :: items, rest)
    | ']' :: rest => some ([v], rest)
    | _ => none

/-- One or more object fields up to the closing brace. -/
def readFields : (fuel : Nat) → List Char → Option (List (Option String × Json) × List Char)
  | 0, _ => none
  | fuel + 1, text =>
    match skip text with
    | '"' :: rest => do
      let (k, rest) ← readString rest
      match skip rest with
      | ':' :: rest =>
        let (v, rest) ← readValue fuel rest
        match skip rest with
        | ',' :: rest =>
          let (fields, rest) ← readFields fuel rest
          some ((k, v) :: fields, rest)
        | '}' :: rest => some ([(k, v)], rest)
        | _ => none
      | _ => none
    | _ => none

end

/-- The value that a text consists of, apart from blanks around it. -/
def read? (text : List Char) : Option Json := do
  let (v, rest) ← readValue (2 * text.length + 1) text
  if skip rest = [] then some v else none

/-- The value that a text consists of, apart from blanks around it. -/
def ofText? (text : String) : Option Json := read? text.toList

end TensorJit.Json
