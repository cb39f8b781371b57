import TensorJit.Proofs.Function.Serialized

/-!
# Where a serialized function ends

A reader never looks behind what it takes off: **what it reads does not change when more bytes
follow** (`Serialized.IsLocal`). Readers are sequences of readers, and what holds of the parts holds
of the whole (`IsLocal.bind`). The one place where the length of the text enters is a list, whose
length bounds the recursion; more bytes only raise this bound.

Together with `Serialized.Reads` this says that the serialized form is self-delimiting: what is
written is taken off whatever follows, and **what breaks off inside it is not read at all**
(`Reads.eq_none_of_isPrefix`), since the rest, once there, would have to be taken off too.
-/

namespace TensorJit

namespace Serialized

variable {α β : Type}

/-- More bytes behind do not change what the reader reads. -/
def IsLocal (read : Reader α) : Prop :=
  ∀ bytes a rest more, read bytes = some (a, rest) → read (bytes ++ more) = some (a, rest ++ more)

/-- **A text that breaks off is not read.** -/
theorem Reads.eq_none_of_isPrefix {read : Reader α} {written before : Bytes} {a : α}
    (h : Reads read written a) (hlocal : IsLocal read) (hbefore : before <+: written)
    (hne : before ≠ written) : read before = none := by
  obtain ⟨more, rfl⟩ := hbefore
  cases hread : read before with
  | none => rfl
  | some result =>
    -- The missing bytes would be left over, but all of the text is taken off.
    have hlong := hlocal before result.1 result.2 more hread
    have hall := h []
    rw [List.append_nil, hlong] at hall
    have hmore : result.2 ++ more = [] := congrArg Prod.snd (Option.some.inj hall)
    rw [(List.append_eq_nil_iff.1 hmore).2, List.append_nil] at hne
    exact absurd rfl hne

/-! ### How readers are put together -/

/-- What reads nothing does not depend on what follows. -/
theorem isLocal_pure (a : α) : IsLocal fun bytes => some (a, bytes) := by
  rintro bytes b rest more h
  obtain ⟨rfl, rfl⟩ := Prod.mk.inj (Option.some.inj h)
  rfl

theorem isLocal_none : IsLocal (α := α) fun _ => none := by
  rintro bytes a rest more h
  cases h

/-- One reader after the other. -/
theorem IsLocal.bind {read : Reader α} {next : α → Reader β} (hread : IsLocal read)
    (hnext : ∀ a, IsLocal (next a)) :
    IsLocal fun bytes => (read bytes).bind fun result => next result.1 result.2 := by
  intro bytes b rest more h
  obtain ⟨⟨a, between⟩, ha, hb⟩ := Option.bind_eq_some_iff.1 h
  simp only [hread bytes a between more ha, Option.bind_some]
  exact hnext a between b rest more hb

/-- A reader after something that does not read. -/
theorem isLocal_bind_option (value : Option α) {next : α → Reader β}
    (hnext : ∀ a, IsLocal (next a)) : IsLocal fun bytes => value.bind fun a => next a bytes := by
  cases value with
  | none => exact isLocal_none
  | some a => exact hnext a

/-! ### Numbers and texts -/

/-- **So many bytes** are the same whatever follows them. -/
theorem isLocal_takeBytes (length : Nat) : IsLocal (takeBytes length) := by
  intro bytes taken rest more h
  simp only [takeBytes, Option.ite_none_right_eq_some, Option.some.injEq, Prod.mk.injEq] at h
  obtain ⟨hlength, rfl, rfl⟩ := h
  have hle : length ≤ bytes.length := by
    rw [List.length_take] at hlength
    omega
  simp only [takeBytes, List.take_append_of_le_length hle, List.drop_append_of_le_length hle,
    if_pos hlength]

theorem isLocal_takeNat : IsLocal takeNat :=
  (isLocal_takeBytes 8).bind fun b => isLocal_pure b.toNat

theorem isLocal_takeCode : IsLocal takeCode :=
  (isLocal_takeBytes 4).bind fun b => isLocal_pure b.toNat

/-- So is a text, whose length comes first. -/
theorem isLocal_takeText : IsLocal takeText :=
  isLocal_takeNat.bind fun length => (isLocal_takeBytes length).bind fun b =>
    isLocal_bind_option (String.fromUTF8? ⟨b.toArray⟩) isLocal_pure

/-! ### Lists -/

/-- **Items**: more bytes and more fuel do not change them. -/
theorem takeItems_append {item : Reader α} (hitem : IsLocal item) {fuel more : Nat} {count : Nat}
    {bytes rest behind : Bytes} {items : List α} (hfuel : fuel ≤ more)
    (h : takeItems item fuel count bytes = some (items, rest)) :
    takeItems item more count (bytes ++ behind) = some (items, rest ++ behind) := by
  induction count generalizing fuel more bytes items with
  | zero =>
    rw [takeItems] at h ⊢
    exact isLocal_pure [] bytes items rest behind h
  | succ count ih =>
    cases fuel with
    | zero => cases h
    | succ fuel =>
      -- There is fuel where there was some before.
      obtain ⟨more, rfl⟩ := Nat.exists_eq_succ_of_ne_zero (Nat.ne_of_gt (Nat.lt_of_lt_of_le
        (Nat.succ_pos fuel) hfuel))
      rw [takeItems] at h
      obtain ⟨⟨a, between⟩, ha, h⟩ := Option.bind_eq_some_iff.1 h
      obtain ⟨⟨others, after⟩, hothers, h⟩ := Option.bind_eq_some_iff.1 h
      obtain ⟨rfl, rfl⟩ := Prod.mk.inj (Option.some.inj h)
      simp only [takeItems, hitem bytes a between behind ha, Option.bind_eq_bind, Option.bind_some,
        ih (Nat.le_of_succ_le_succ hfuel) hothers]

/-- **So is a list**, whose number of items comes first. -/
theorem isLocal_takeList {item : Reader α} (hitem : IsLocal item) : IsLocal (takeList item) := by
  have hitems : ∀ count, IsLocal fun rest => takeItems item rest.length count rest := by
    intro count bytes items rest more h
    refine takeItems_append hitem ?_ h
    rw [List.length_append]
    exact Nat.le_add_right _ _
  exact isLocal_takeNat.bind hitems

/-! ### Functions -/

theorem isLocal_takeSpec : IsLocal takeSpec :=
  isLocal_takeCode.bind fun code => isLocal_bind_option (DType.ofCode? code) fun dtype =>
    (isLocal_takeList isLocal_takeNat).bind fun shape => isLocal_pure (TensorSpec.mk dtype shape)

/-- A reference is told by the number of its variant. -/
theorem isLocal_takeRef : IsLocal takeRef := by
  intro bytes r rest more h
  obtain ⟨⟨code, behind⟩, hcode, h⟩ := Option.bind_eq_some_iff.1 h
  obtain ⟨⟨position, after⟩, hposition, h⟩ := Option.bind_eq_some_iff.1 h
  simp only [takeRef, isLocal_takeCode bytes code behind more hcode,
    isLocal_takeNat behind position after more hposition, Option.bind_eq_bind, Option.bind_some]
  match code with
  | 0 => exact isLocal_pure (ValueRef.parameter position) after r rest more h
  | 1 => exact isLocal_pure (ValueRef.instruction position) after r rest more h
  | _ + 2 => cases h

theorem isLocal_takeInstruction : IsLocal takeInstruction :=
  isLocal_takeCode.bind fun code => isLocal_bind_option (OpKind.ofCode? code) fun op =>
    (isLocal_takeList isLocal_takeRef).bind fun operands =>
      isLocal_takeSpec.bind fun spec => isLocal_pure (Instruction.mk op operands spec)

/-- **So a function does not depend on what follows.** -/
theorem isLocal_takeFunction : IsLocal takeFunction :=
  isLocal_takeText.bind fun name => (isLocal_takeList isLocal_takeSpec).bind fun parameters =>
    (isLocal_takeList isLocal_takeSpec).bind fun results =>
      (isLocal_takeList isLocal_takeInstruction).bind fun body =>
        (isLocal_takeList isLocal_takeRef).bind fun outputs =>
          isLocal_pure (Function.mk name parameters results body outputs)

end Serialized

namespace Function

/-- **A function is read back whatever follows its serialized form.** -/
theorem deserialize?_serialize_append {f : Function} (h : f.FitsWords) (rest : Bytes) :
    deserialize? (f.serialize ++ rest) = some f := by
  rw [deserialize?, serialize, Serialized.reads_takeFunction h rest]
  rfl

/-- **A serialized function that breaks off is none.** -/
theorem deserialize?_eq_none_of_isPrefix {f : Function} (h : f.FitsWords) {bytes : Bytes}
    (hbytes : bytes <+: f.serialize) (hne : bytes ≠ f.serialize) : deserialize? bytes = none := by
  rw [deserialize?, (Serialized.reads_takeFunction h).eq_none_of_isPrefix
    Serialized.isLocal_takeFunction hbytes hne]
  rfl

end Function

end TensorJit
