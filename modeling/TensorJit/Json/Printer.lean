import TensorJit.Json.Basic
import TensorJit.Text.Decimal
import TensorJit.Text.Hex

/-!
# Writing JSON

Two layouts of one value. The compact one has no blanks. The pretty one puts every array item
and every object field on a line of its own, indented by two more columns than the bracket
around it, with one blank after the colon; empty arrays and objects stay closed up.

In a string the quote, the backslash and the control characters below the blank are escaped,
five of them by a letter and the others as `\u00xx`. Every other character stands for itself.
-/

namespace TensorJit.Json

/-- A character as it is written inside a string. -/
def escape (c : Char) : List Char :=
  if c = '"' then ['\\', '"']
  else if c = '\\' then ['\\', '\\']
  else if c = '\n' then ['\\', 'n']
  else if c = '\r' then ['\\', 'r']
  else if c = '\t' then ['\\', 't']
  else if c.toNat = 8 then ['\\', 'b']
  else if c.toNat = 12 then ['\\', 'f']
  else if c.toNat < 32 then '\\' :: 'u' :: Text.Hex.ofNat 4 c.toNat
  else [c]

/-- A string between quotes. -/
def quote (text : List Char) : List Char := '"' :: (text.flatMap escape ++ ['"'])

/-- The name of a field between quotes. -/
def quoteName (name : Option String) : List Char := quote (name.getD "").toList

/-- The layout of a value that is neither an array nor an object. -/
def literal : Json → List Char
  | .bool true => "true".toList
  | .bool false => "false".toList
  | .number n => Text.intDigits n
  | .string s => quote s.toList
  | _ => "null".toList

mutual

/-- The value without blanks. -/
def compact : Json → List Char
  | .array items => '[' :: (compactItems items ++ [']'])
  | .object fields => '{' :: (compactFields fields ++ ['}'])
  | .null => literal .null
  | .bool b => literal (.bool b)
  | .number n => literal (.number n)
  | .string s => literal (.string s)
  | .other => literal .other

/-- Array items between commas. -/
def compactItems : List Json → List Char
  | [] => []
  | [v] => compact v
  | v :: rest => compact v ++ ',' :: compactItems rest

/-- Object fields between commas. -/
def compactFields : List (Option String × Json) → List Char
  | [] => []
  | [(k, v)] => quoteName k ++ ':' :: compact v
  | (k, v) :: rest => quoteName k ++ ':' :: (compact v ++ ',' :: compactFields rest)

end

/-- The start of a line at the given depth. -/
def newLine (depth : Nat) : List Char := '\n' :: List.replicate (2 * depth) ' '

mutual

/-- The value over several lines, its brackets at the given depth. -/
def prettyAt (depth : Nat) : Json → List Char
  | .array [] => ['[', ']']
  | .array (v :: rest) =>
    '[' :: (prettyItems (depth + 1) (v :: rest) ++ newLine depth ++ [']'])
  | .object [] => ['{', '}']
  | .object (f :: rest) =>
    '{' :: (prettyFields (depth + 1) (f :: rest) ++ newLine depth ++ ['}'])
  | .null => literal .null
  | .bool b => literal (.bool b)
  | .number n => literal (.number n)
  | .string s => literal (.string s)
  | .other => literal .other

/-- Array items, each on a line of its own. -/
def prettyItems (depth : Nat) : List Json → List Char
  | [] => []
  | [v] => newLine depth ++ prettyAt depth v
  | v :: rest => newLine depth ++ prettyAt depth v ++ ',' :: prettyItems depth rest

/-- Object fields, each on a line of its own. -/
def prettyFields (depth : Nat) : List (Option String × Json) → List Char
  | [] => []
  | [(k, v)] => newLine depth ++ quoteName k ++ ':' :: ' ' :: prettyAt depth v
  | (k, v) :: rest =>
    newLine depth ++ quoteName k ++
      ':' :: ' ' :: (prettyAt depth v ++ ',' :: prettyFields depth rest)

end

/-- The text of a value without blanks. -/
def render (j : Json) : String := String.ofList (compact j)

/-- The text of a value over several lines. -/
def renderPretty (j : Json) : String := String.ofList (prettyAt 0 j)

end TensorJit.Json
