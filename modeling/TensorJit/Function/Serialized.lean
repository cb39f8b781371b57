import TensorJit.Bytes
import TensorJit.Function.Basic

/-!
# The serialized form of a function

An executable is serialized as the function it was compiled from. Numbers take eight bytes,
least first, and the number of a choice takes four; texts and lists begin with their length;
records are their fields in order. The form says where it ends, so **whatever follows it is
ignored**, and a text that breaks off inside it is not a function.

Reading is the inverse of writing for numbers below `2 ^ 64`.
-/

namespace TensorJit.Serialized

/-- A reader takes a value off the front of a byte string. -/
abbrev Reader (α : Type) := Bytes → Option (α × Bytes)

/-! ### Writing -/

/-- A number. -/
def putNat (n : Nat) : Bytes := Bytes.ofNat 8 n

/-- The number of a choice. -/
def putCode (n : Nat) : Bytes := Bytes.ofNat 4 n

/-- A text. -/
def putText (s : String) : Bytes :=
  putNat s.toUTF8.size ++ s.toUTF8.toList

/-- A list. -/
def putList {α : Type} (item : α → Bytes) (items : List α) : Bytes :=
  putNat items.length ++ items.flatMap item

/-- A spec. -/
def putSpec (s : TensorSpec) : Bytes := putCode s.dtype.code ++ putList putNat s.shape

/-- A reference. -/
def putRef : ValueRef → Bytes
  | .parameter position => putCode 0 ++ putNat position
  | .instruction position => putCode 1 ++ putNat position

/-- An instruction. -/
def putInstruction (i : Instruction) : Bytes :=
  putCode i.op.code ++ putList putRef i.operands ++ putSpec i.spec

/-- A function. -/
def putFunction (f : Function) : Bytes :=
  putText f.name ++ putList putSpec f.parameters ++ putList putSpec f.results ++
    putList putInstruction f.body ++ putList putRef f.outputs

/-! ### Reading -/

/-- The first `length` bytes. -/
def takeBytes (length : Nat) : Reader Bytes := fun bytes =>
  let taken := bytes.take length
  if taken.length = length then some (taken, bytes.drop length) else none

/-- A number. -/
def takeNat : Reader Nat := fun bytes => do
  let (b, rest) ← takeBytes 8 bytes
  some (b.toNat, rest)

/-- The number of a choice. -/
def takeCode : Reader Nat := fun bytes => do
  let (b, rest) ← takeBytes 4 bytes
  some (b.toNat, rest)

/-- A text, whose bytes must be well-formed UTF-8. -/
def takeText : Reader String := fun bytes => do
  let (length, rest) ← takeNat bytes
  let (b, rest) ← takeBytes length rest
  let s ← String.fromUTF8? ⟨b.toArray⟩
  some (s, rest)

/-- As many items as asked for; an item takes at least one byte, so there are not more items
than bytes. -/
def takeItems {α : Type} (item : Reader α) : (fuel count : Nat) → Reader (List α)
  | _, 0, bytes => some ([], bytes)
  | 0, _ + 1, _ => none
  | fuel + 1, count + 1, bytes => do
    let (a, rest) ← item bytes
    let (items, rest) ← takeItems item fuel count rest
    some (a :: items, rest)

/-- A list. -/
def takeList {α : Type} (item : Reader α) : Reader (List α) := fun bytes => do
  let (count, rest) ← takeNat bytes
  takeItems item rest.length count rest

/-- A spec. -/
def takeSpec : Reader TensorSpec := fun bytes => do
  let (code, rest) ← takeCode bytes
  let dtype ← DType.ofCode? code
  let (shape, rest) ← takeList takeNat rest
  some (⟨dtype, shape⟩, rest)

/-- A reference. -/
def takeRef : Reader ValueRef := fun bytes => do
  let (code, rest) ← takeCode bytes
  let (position, rest) ← takeNat rest
  match code with
  | 0 => some (.parameter position, rest)
  | 1 => some (.instruction position, rest)
  | _ => none

/-- An instruction. -/
def takeInstruction : Reader Instruction := fun bytes => do
  let (code, rest) ← takeCode bytes
  let op ← OpKind.ofCode? code
  let (operands, rest) ← takeList takeRef rest
  let (spec, rest) ← takeSpec rest
  some (⟨op, operands, spec⟩, rest)

/-- A function. -/
def takeFunction : Reader Function := fun bytes => do
  let (name, rest) ← takeText bytes
  let (parameters, rest) ← takeList takeSpec rest
  let (results, rest) ← takeList takeSpec rest
  let (body, rest) ← takeList takeInstruction rest
  let (outputs, rest) ← takeList takeRef rest
  some (⟨name, parameters, results, body, outputs⟩, rest)

end TensorJit.Serialized

namespace TensorJit

/-- The serialized form of a function. -/
def Function.serialize (f : Function) : Bytes := Serialized.putFunction f

/-- The function that a byte string begins with. -/
def Function.deserialize? (bytes : Bytes) : Option Function :=
  (Serialized.takeFunction bytes).map (·.1)

end TensorJit
