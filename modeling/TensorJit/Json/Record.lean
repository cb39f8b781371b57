import TensorJit.Json.Basic

/-!
# Reading records strictly

The stored formats are records and tagged choices, and they are read strictly. A record is an
object that has each of its fields at most once; fields of other names are passed over. The
same record may be written as an array of its fields in order, of which the last ones may be
left out if they have a default. A choice is named by a string, or by an object with one field
whose value carries what the choice holds.

Integers must be whole and in range: `0 ≤ n < 2 ^ 64` for counts and positions, and
`-2 ^ 63 ≤ n < 2 ^ 63` for attribute values.
-/

namespace TensorJit.Json

/-- A natural number below `2 ^ 64`. -/
def word? : Json → Option Nat
  | .number n => if 0 ≤ n ∧ n < UInt64.size then some n.toNat else none
  | _ => none

/-- An integer of 64 bits in two's complement. -/
def int64? : Json → Option Int
  | .number n => if Int64.minValue.toInt ≤ n ∧ n ≤ Int64.maxValue.toInt then some n else none
  | _ => none

/-- A string. -/
def string? : Json → Option String
  | .string s => some s
  | _ => none

/-- A truth value. -/
def bool? : Json → Option Bool
  | .bool b => some b
  | _ => none

/-- A list whose items are all read by `item`. -/
def list? {α : Type} (item : Json → Option α) : Json → Option (List α)
  | .array items => items.mapM item
  | _ => none

/-- An object with readable names. -/
def fields? : Json → Option (List (String × Json))
  | .object fields => fields.mapM fun f => f.1.map (·, f.2)
  | _ => none

/-- The values of the named field; a record has at most one. -/
def valuesOf (name : String) (fields : List (String × Json)) : List Json :=
  (fields.filter (·.1 = name)).map (·.2)

/-- The fields of a record in the order of `names`, each absent or present once. -/
def record? (names : List String) : Json → Option (List (Option Json))
  | .array items =>
    if items.length ≤ names.length then
      some (items.map some ++ List.replicate (names.length - items.length) none)
    else none
  | j => do
    let fields ← fields? j
    names.mapM fun name =>
      match valuesOf name fields with
      | [] => some none
      | [v] => some (some v)
      | _ => none

/-- The name of a choice that holds nothing. -/
def unitChoice? : Json → Option String
  | .string s => some s
  | .object [(some s, .null)] => some s
  | _ => none

/-- The name of a choice and what it holds. -/
def choice? : Json → Option (String × Json)
  | .object [(some s, v)] => some (s, v)
  | _ => none

end TensorJit.Json
