import TensorJit.Function.Stored
import TensorJit.SortedMap
import TensorJit.Signature
import TensorJit.Text.Base64

/-!
# Ahead-of-time tables and unit attributes

A unit that was compiled ahead of time carries its executables and functions in attributes, one
for each signature, next to the options of its backend:

| attribute | what it holds |
|---|---|
| `_encap_aot_requested` | `1` if the unit is to run on what it carries |
| `_encap_aot_exec_` and a signature | a serialized executable in base 64 |
| `_encap_aot_function_` and a signature | the stored form of a function |
| `_encap_` and any other key | an option of the backend |

Attributes of other names mean nothing here. A table and the attributes it is written as
determine each other.
-/

namespace TensorJit

/-- Executables and functions compiled ahead of time, by signature. -/
structure AotTable where
  /-- Serialized executables. -/
  executables : SortedMap Signature Bytes
  /-- Stored functions. -/
  functions : SortedMap Signature String
  deriving DecidableEq, Inhabited

namespace AotTable

/-- The table without entries. -/
def empty : AotTable := ⟨.empty, .empty⟩

/-- Whether there is no entry. -/
def isEmpty (t : AotTable) : Bool := t.executables.isEmpty && t.functions.isEmpty

/-- The table with the executable of a signature set. -/
def insertExecutable (t : AotTable) (signature : Signature) (serialized : Bytes) : AotTable :=
  { t with executables := t.executables.insert signature serialized }

/-- The table with the function of a signature set. -/
def insertFunction (t : AotTable) (signature : Signature) (f : Function) : AotTable :=
  { t with functions := t.functions.insert signature f.toText }

/-- The serialized executable of a signature. -/
def executable? (t : AotTable) (signature : Signature) : Option Bytes :=
  t.executables.get? signature

/-- The function of a signature, if there is a text for it, and if the text stores one. -/
def function? (t : AotTable) (signature : Signature) : Option (Option Function) :=
  (t.functions.get? signature).map Function.ofText?

end AotTable

/-! ### Attributes -/

/-- Attributes of a unit, by name. -/
abbrev Attributes := SortedMap String String

namespace Attributes

/-- What every attribute begins with that means something. -/
def mark : List Char := "_encap_".toList

/-- What the attributes of a table begin with. -/
def aotMark : List Char := "_encap_aot_".toList

/-- What the name of an executable begins with. -/
def executableMark : List Char := "_encap_aot_exec_".toList

/-- What the name of a function begins with. -/
def functionMark : List Char := "_encap_aot_function_".toList

/-- The name of the attribute that asks for the table to be used. -/
def requestName : String := "_encap_aot_requested"

/-- What a name says after its mark, if it begins with it. -/
def after? (mark name : List Char) : Option (List Char) :=
  if mark.isPrefixOf name then some (name.drop mark.length) else none

/-- What an attribute is for, by its name. -/
inductive Role where
  /-- Nothing. -/
  | foreign
  /-- The executable of a signature. -/
  | executable (signature : Signature)
  /-- The function of a signature. -/
  | function (signature : Signature)
  /-- The request for the table. -/
  | request
  /-- A name that is reserved and not in use. -/
  | reserved
  /-- An option of the backend. -/
  | option (key : String)
  deriving DecidableEq, Repr

/-- The role of a name. -/
def roleOf (name : String) : Role :=
  let chars := name.toList
  match after? mark chars with
  | none => .foreign
  | some key =>
    if (after? aotMark chars).isNone then .option (.ofList key)
    else
      match after? executableMark chars, after? functionMark chars with
      | some signature, _ => .executable (.ofList signature)
      | none, some signature => .function (.ofList signature)
      | none, none => if name = requestName then .request else .reserved

/-- The name of the attribute for an executable. -/
def executableName (signature : Signature) : String :=
  .ofList (executableMark ++ signature.toList)

/-- The name of the attribute for a function. -/
def functionName (signature : Signature) : String :=
  .ofList (functionMark ++ signature.toList)

/-- The name of the attribute for an option. -/
def optionName (key : String) : String := .ofList (mark ++ key.toList)

end Attributes

/-- The attributes that a table is written as, with the request for it. -/
def AotTable.toAttributes (t : AotTable) : Attributes :=
  let requested : Attributes := SortedMap.empty.insert Attributes.requestName "1"
  let executables := t.executables.toList.foldl (fun attrs e =>
    attrs.insert (Attributes.executableName e.1) (.ofList (Text.Base64.encode e.2))) requested
  t.functions.toList.foldl (fun attrs e =>
    attrs.insert (Attributes.functionName e.1) e.2) executables

/-- What the attributes of a unit say. -/
structure UnitAttributes where
  /-- The table to run on, if that is asked for. -/
  aot : Option AotTable
  /-- The options of the backend. -/
  options : SortedMap String String
  deriving DecidableEq, Inhabited

/-- Why attributes are not accepted. -/
inductive AttributeFault where
  /-- An executable that is not base 64. -/
  | notBase64 (signature : Signature)
  /-- A reserved name that is not in use. -/
  | reservedName (name : String)
  /-- A table without the request for it. -/
  | notRequested (unit : String)
  deriving DecidableEq, Repr

/-- The wording of a fault. -/
def AttributeFault.message : AttributeFault → String
  | .notBase64 signature => s!"AOT executable for signature '{signature}' is not valid base64"
  | .reservedName name =>
    "attributes beginning with _encap_aot_ must be _encap_aot_exec_<signature> or " ++
      s!"_encap_aot_function_<signature>, but got {name}"
  | .notRequested unit =>
    s!"unit {unit} has functions or executables embedded in it, even though AOT was not requested"

namespace UnitAttributes

/-- What has been read of a unit's attributes. -/
structure Reading where
  /-- The entries of the table. -/
  table : AotTable
  /-- Whether the table is asked for. -/
  requested : Bool
  /-- The options of the backend. -/
  options : SortedMap String String

/-- One more attribute. -/
def readAttribute (r : Reading) (name value : String) : Except AttributeFault Reading :=
  match Attributes.roleOf name with
  | .foreign => .ok r
  | .executable signature =>
    match Text.Base64.decode? value.toList with
    | some bytes => .ok { r with table := r.table.insertExecutable signature bytes }
    | none => .error (.notBase64 signature)
  | .function signature =>
    .ok { r with table.functions := r.table.functions.insert signature value }
  | .request => .ok { r with requested := value = "1" }
  | .reserved => .error (.reservedName name)
  | .option key => .ok { r with options := r.options.insert key value }

/-- The attributes one after the other. -/
def readAll : Reading → List (String × String) → Except AttributeFault Reading
  | r, [] => .ok r
  | r, (name, value) :: rest => do readAll (← readAttribute r name value) rest

/-- What the attributes of a unit say, read in the order of their names. -/
def ofAttributes (unit : String) (attrs : Attributes) : Except AttributeFault UnitAttributes := do
  let r ← readAll ⟨.empty, false, .empty⟩ attrs.toList
  if !r.table.isEmpty && !r.requested then .error (.notRequested unit)
  return ⟨if r.requested then some r.table else none, r.options⟩

end UnitAttributes

end TensorJit
