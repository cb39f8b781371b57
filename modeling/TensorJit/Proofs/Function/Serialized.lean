import TensorJit.Function.Serialized
import TensorJit.Proofs.Bytes

/-!
# Reading serialized functions back

A reader reads a value back from what was written if it takes off exactly that, whatever follows
(`Serialized.Reads`). Every reader here does so for numbers below `2 ^ 64`, a length being such a
number as well. So **a function is read back from its serialized form**
(`Function.deserialize?_serialize`), if its numbers are machine words (`Function.FitsWords`).
-/

namespace TensorJit

/-! ### Numbers that are machine words -/

/-- There are fewer than `2 ^ 64` items, and each of them is as it should be. -/
structure ListFits {α : Type} (fits : α → Prop) (items : List α) : Prop where
  /-- The length is a machine word. -/
  length : items.length < 2 ^ 64
  /-- So is what the items are made of. -/
  items : ∀ a ∈ items, fits a

/-- The dimensions of a spec are machine words. -/
def TensorSpec.FitsWords (s : TensorSpec) : Prop := ListFits (· < 2 ^ 64) s.shape

/-- The position of a reference. -/
def ValueRef.position : ValueRef → Nat
  | parameter position | instruction position => position

/-- The position of a reference is a machine word. -/
def ValueRef.FitsWords (r : ValueRef) : Prop := r.position < 2 ^ 64

/-- The numbers of an instruction are machine words. -/
structure Instruction.FitsWords (i : Instruction) : Prop where
  /-- Those of its operands. -/
  operands : ListFits ValueRef.FitsWords i.operands
  /-- Those of its result. -/
  spec : i.spec.FitsWords

/-- The numbers of a function are machine words. -/
structure Function.FitsWords (f : Function) : Prop where
  /-- The number of bytes of its name. -/
  name : f.name.toUTF8.size < 2 ^ 64
  /-- The numbers of its parameters. -/
  parameters : ListFits TensorSpec.FitsWords f.parameters
  /-- Those of its results. -/
  results : ListFits TensorSpec.FitsWords f.results
  /-- Those of its instructions. -/
  body : ListFits Instruction.FitsWords f.body
  /-- Those of the values it returns. -/
  outputs : ListFits ValueRef.FitsWords f.outputs

/-! Whether the numbers are words can be computed. -/

instance {α : Type} (fits : α → Prop) [DecidablePred fits] (items : List α) :
    Decidable (ListFits fits items) :=
  decidable_of_iff (items.length < 2 ^ 64 ∧ ∀ a ∈ items, fits a)
    ⟨fun h => ⟨h.1, h.2⟩, fun h => ⟨h.1, h.2⟩⟩

instance (s : TensorSpec) : Decidable s.FitsWords :=
  inferInstanceAs (Decidable (ListFits (· < 2 ^ 64) s.shape))

instance (r : ValueRef) : Decidable r.FitsWords := inferInstanceAs (Decidable (r.position < 2 ^ 64))

instance (i : Instruction) : Decidable i.FitsWords :=
  decidable_of_iff (ListFits ValueRef.FitsWords i.operands ∧ i.spec.FitsWords)
    ⟨fun h => ⟨h.1, h.2⟩, fun h => ⟨h.1, h.2⟩⟩

instance (f : Function) : Decidable f.FitsWords :=
  decidable_of_iff (f.name.toUTF8.size < 2 ^ 64 ∧ ListFits TensorSpec.FitsWords f.parameters ∧
      ListFits TensorSpec.FitsWords f.results ∧ ListFits Instruction.FitsWords f.body ∧
      ListFits ValueRef.FitsWords f.outputs)
    ⟨fun h => ⟨h.1, h.2.1, h.2.2.1, h.2.2.2.1, h.2.2.2.2⟩,
      fun h => ⟨h.name, h.parameters, h.results, h.body, h.outputs⟩⟩

namespace Serialized

variable {α : Type}

/-- The reader takes exactly these bytes off, whatever follows them, and reads this value. -/
def Reads (read : Reader α) (written : Bytes) (a : α) : Prop :=
  ∀ rest, read (written ++ rest) = some (a, rest)

theorem reads_takeBytes {width : Nat} {bytes : Bytes} (h : bytes.length = width) :
    Reads (takeBytes width) bytes bytes := by
  intro rest
  subst h
  simp only [takeBytes, List.take_left, List.drop_left, if_true]

/-- A machine word takes eight bytes, and is read back from them. -/
theorem reads_takeNat {n : Nat} (h : n < 2 ^ 64) : Reads takeNat (putNat n) n := by
  intro rest
  unfold takeNat putNat
  rw [reads_takeBytes (Bytes.length_ofNat 8 n) rest]
  exact congrArg (fun m => some (m, rest)) (Bytes.toNat_ofNat h)

/-- The number of a variant takes four. -/
theorem reads_takeCode {n : Nat} (h : n < 2 ^ 32) : Reads takeCode (putCode n) n := by
  intro rest
  unfold takeCode putCode
  rw [reads_takeBytes (Bytes.length_ofNat 4 n) rest]
  exact congrArg (fun m => some (m, rest)) (Bytes.toNat_ofNat h)

/-! ### Texts -/

/-- The two ways to list the bytes of a text are the same. -/
theorem toList_byteArray (bytes : ByteArray) : bytes.toList = bytes.data.toList := by
  have hloop : ∀ (k i : Nat) (r : List UInt8), bytes.size - i = k →
      ByteArray.toList.loop bytes i r = r.reverse ++ bytes.data.toList.drop i := by
    intro k
    induction k with
    | zero =>
      intro i r hk
      rw [ByteArray.toList.loop, if_neg (by omega), List.drop_eq_nil_of_le (by
        rw [Array.length_toList]
        exact Nat.le_of_sub_eq_zero hk), List.append_nil]
    | succ k ih =>
      intro i r hk
      have hlt : i < bytes.data.toList.length := by
        rw [Array.length_toList]
        exact (by omega : i < bytes.size)
      have hget : bytes.get! i = bytes.data.toList[i] := by
        rw [Array.getElem_toList]
        exact getElem!_pos bytes.data i _
      rw [ByteArray.toList.loop, if_pos (by omega), ih _ _ (by omega), hget, List.reverse_cons,
        List.append_assoc, List.singleton_append, ← List.drop_eq_getElem_cons hlt]
  exact (hloop _ 0 [] rfl).trans (by rw [List.reverse_nil, List.nil_append, List.drop_zero])

/-- **A text** is preceded by its length. -/
theorem reads_takeText {s : String} (h : s.toUTF8.size < 2 ^ 64) :
    Reads takeText (putText s) s := by
  intro rest
  have hlength : s.toUTF8.toList.length = s.toUTF8.size := by
    rw [toList_byteArray]
    exact Array.length_toList
  have hbytes : (⟨s.toUTF8.toList.toArray⟩ : ByteArray) = s.toUTF8 := by
    rw [toList_byteArray, Array.toArray_toList]
  have hutf8 : String.fromUTF8? s.toUTF8 = some s := by
    unfold String.fromUTF8?
    rw [String.toUTF8_eq_toByteArray, dif_pos s.isValidUTF8]
    rfl
  unfold takeText putText
  rw [List.append_assoc, reads_takeNat h]
  dsimp only [Option.bind_eq_bind, Option.bind_some]
  rw [reads_takeBytes hlength, Option.bind_some, hbytes, hutf8]
  rfl

/-! ### Lists -/

/-- **Items** are read back if there is fuel for each of them. -/
theorem takeItems_flatMap {read : Reader α} {write : α → Bytes} {items : List α}
    (hitems : ∀ a ∈ items, Reads read (write a) a) {fuel : Nat} (hfuel : items.length ≤ fuel)
    (rest : Bytes) :
    takeItems read fuel items.length (items.flatMap write ++ rest) = some (items, rest) := by
  induction items generalizing fuel with
  | nil => cases fuel <;> rfl
  | cons a items ih =>
    cases fuel with
    | zero => cases hfuel
    | succ fuel =>
      rw [List.length_cons, takeItems, List.flatMap_cons, List.append_assoc,
        hitems a List.mem_cons_self]
      dsimp only [Option.bind_eq_bind, Option.bind_some]
      rw [ih (fun b hb => hitems b (List.mem_cons_of_mem _ hb)) (Nat.le_of_succ_le_succ hfuel)]
      rfl

/-- Items that are not empty are no more than the bytes that they take, so there is fuel enough. -/
theorem length_le_length_flatMap {write : α → Bytes} (hwrite : ∀ a, write a ≠ [])
    (items : List α) : items.length ≤ (items.flatMap write).length := by
  induction items with
  | nil => exact Nat.le_refl 0
  | cons a items ih =>
    have := List.length_pos_of_ne_nil (hwrite a)
    rw [List.length_cons, List.flatMap_cons, List.length_append]
    omega

/-- **A list** is preceded by the number of its items. -/
theorem reads_takeList {read : Reader α} {write : α → Bytes} {fits : α → Prop} {items : List α}
    (h : ListFits fits items) (hwrite : ∀ a, write a ≠ [])
    (hread : ∀ a, fits a → Reads read (write a) a) :
    Reads (takeList read) (putList write items) items := by
  intro rest
  have hfuel : items.length ≤ (items.flatMap write ++ rest).length := by
    rw [List.length_append]
    exact Nat.le_add_right_of_le (length_le_length_flatMap hwrite items)
  unfold takeList putList
  rw [List.append_assoc, reads_takeNat h.length]
  dsimp only [Option.bind_eq_bind, Option.bind_some]
  exact takeItems_flatMap (fun a ha => hread a (h.items a ha)) hfuel rest

/-! ### Functions -/

theorem putNat_ne_nil (n : Nat) : putNat n ≠ [] := nofun

theorem putCode_append_ne_nil (n : Nat) (bytes : Bytes) : putCode n ++ bytes ≠ [] := nofun

/-- Nothing that is listed is written as nothing. -/
theorem putRef_ne_nil (r : ValueRef) : putRef r ≠ [] := by
  cases r <;> exact putCode_append_ne_nil _ _

/-- **Specs are read back**, if their dimensions are machine words. -/
theorem reads_takeSpec {s : TensorSpec} (h : s.FitsWords) : Reads takeSpec (putSpec s) s := by
  intro rest
  have hcode : s.dtype.code < 2 ^ 32 := by cases s.dtype <;> decide
  unfold takeSpec putSpec
  rw [List.append_assoc, reads_takeCode hcode]
  dsimp only [Option.bind_eq_bind, Option.bind_some]
  rw [DType.ofCode?_code, Option.bind_some,
    reads_takeList h putNat_ne_nil fun _ => reads_takeNat]
  rfl

theorem reads_takeRef {r : ValueRef} (h : r.FitsWords) : Reads takeRef (putRef r) r := by
  intro rest
  cases r with
  | parameter position =>
    have hposition : position < 2 ^ 64 := h
    unfold takeRef putRef
    rw [List.append_assoc, reads_takeCode (by decide)]
    dsimp only [Option.bind_eq_bind, Option.bind_some]
    rw [reads_takeNat hposition]
    rfl
  | instruction position =>
    have hposition : position < 2 ^ 64 := h
    unfold takeRef putRef
    rw [List.append_assoc, reads_takeCode (by decide)]
    dsimp only [Option.bind_eq_bind, Option.bind_some]
    rw [reads_takeNat hposition]
    rfl

/-- So are instructions. -/
theorem reads_takeInstruction {i : Instruction} (h : i.FitsWords) :
    Reads takeInstruction (putInstruction i) i := by
  intro rest
  have hcode : i.op.code < 2 ^ 32 := by cases i.op <;> decide
  unfold takeInstruction putInstruction
  rw [List.append_assoc, List.append_assoc, reads_takeCode hcode]
  dsimp only [Option.bind_eq_bind, Option.bind_some]
  rw [OpKind.ofCode?_code, Option.bind_some,
    reads_takeList h.operands putRef_ne_nil fun _ => reads_takeRef]
  dsimp only [Option.bind_some]
  rw [reads_takeSpec h.spec]
  rfl

/-- So are functions, field by field. -/
theorem reads_takeFunction {f : Function} (h : f.FitsWords) :
    Reads takeFunction (putFunction f) f := by
  intro rest
  have hspecs : ∀ {specs : List TensorSpec}, ListFits TensorSpec.FitsWords specs →
      Reads (takeList takeSpec) (putList putSpec specs) specs := fun hs =>
    reads_takeList hs (fun _ => putCode_append_ne_nil _ _) fun _ => reads_takeSpec
  have hbody := reads_takeList h.body (fun i => by
    unfold putInstruction
    rw [List.append_assoc]
    exact putCode_append_ne_nil _ _) fun _ => reads_takeInstruction
  unfold takeFunction putFunction
  rw [List.append_assoc, List.append_assoc, List.append_assoc, List.append_assoc,
    reads_takeText h.name]
  dsimp only [Option.bind_eq_bind, Option.bind_some]
  rw [hspecs h.parameters]
  dsimp only [Option.bind_some]
  rw [hspecs h.results]
  dsimp only [Option.bind_some]
  rw [hbody]
  dsimp only [Option.bind_some]
  rw [reads_takeList h.outputs putRef_ne_nil fun _ => reads_takeRef]
  rfl

end Serialized

/-- **A function is read back from its serialized form.** -/
theorem Function.deserialize?_serialize {f : Function} (h : f.FitsWords) :
    Function.deserialize? f.serialize = some f := by
  have hread := Serialized.reads_takeFunction h []
  rw [List.append_nil] at hread
  unfold Function.deserialize? Function.serialize
  rw [hread]
  rfl

end TensorJit
