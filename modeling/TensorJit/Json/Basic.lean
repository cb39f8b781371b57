/-!
# JSON values

Graphs, functions and tensor specs are stored as JSON. A `Json` value keeps what the readers
of those formats can use. Numbers are whole; a literal with a fraction or an exponent, minus
zero, and a string with a surrogate that has no partner are all well-formed JSON, may stand in
a field that nobody reads, and mean nothing to any reader here: they are `Json.other`.

Object fields keep the order and the repetitions of the text, because a repeated field is an
error in one place and an update in another.
-/

namespace TensorJit

/-- A JSON value. -/
inductive Json where
  /-- The literal `null`. -/
  | null
  /-- A truth value. -/
  | bool (value : Bool)
  /-- A whole number. -/
  | number (value : Int)
  /-- A string. -/
  | string (value : String)
  /-- A literal that no reader uses. -/
  | other
  /-- A list of values. -/
  | array (items : List Json)
  /-- Named values; a name is absent if it has a surrogate without a partner. -/
  | object (fields : List (Option String × Json))
  deriving Inhabited, Repr

namespace Json

/-- An object with readable names. -/
def record (fields : List (String × Json)) : Json :=
  .object (fields.map fun f => (some f.1, f.2))

/-- A natural number. -/
def nat (n : Nat) : Json := .number n

end Json

end TensorJit
