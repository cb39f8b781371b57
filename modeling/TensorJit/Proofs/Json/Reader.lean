import TensorJit.Json.Printer
import TensorJit.Json.Reader
import TensorJit.Proofs.Text.Decimal

/-!
# Reading JSON back

What is written is read back, in either layout (`Json.read?_compact`, `Json.read?_prettyAt`). The two
layouts differ in blanks only: a `Json.Layout` says which blanks stand at the start of a line and after
a colon, and the reader passes over them.

What can be read back are values that are not made of text that means nothing (`Json.Readable`). The
induction is on the value, and its statement is about a value **with something behind it**, which must
not go on like a number (`Json.Stops`): a comma, a closing bracket, a blank, or nothing.
-/

namespace TensorJit.Json

/-! ### What can be read back -/

mutual

/-- Every literal is one that readers use, and every name is readable. -/
def Readable : Json → Prop
  | .array items => ReadableItems items
  | .object fields => ReadableFields fields
  | .other => False
  | _ => True

/-- Every item is readable. -/
def ReadableItems : List Json → Prop
  | [] => True
  | v :: rest => v.Readable ∧ ReadableItems rest

/-- Every field is readable, and its name is. -/
def ReadableFields : List (Option String × Json) → Prop
  | [] => True
  | (k, v) :: rest => k.isSome = true ∧ v.Readable ∧ ReadableFields rest

end

theorem readableItems_iff {items : List Json} : ReadableItems items ↔ ∀ v ∈ items, v.Readable := by
  induction items with
  | nil => exact ⟨fun _ => nofun, fun _ => trivial⟩
  | cons v rest ih => rw [ReadableItems, ih, List.forall_mem_cons]

theorem readable_record {fields : List (String × Json)} (h : ∀ f ∈ fields, f.2.Readable) :
    (record fields).Readable := by
  induction fields with
  | nil => exact trivial
  | cons f rest ih =>
    exact ⟨rfl, h f List.mem_cons_self, ih fun g hg => h g (List.mem_cons_of_mem _ hg)⟩

/-! ### Blanks -/

theorem skip_append {blanks text : List Char} (h : ∀ c ∈ blanks, isSpace c = true) :
    skip (blanks ++ text) = skip text := by
  unfold skip
  rw [List.dropWhile_append_of_pos h]

theorem skip_cons {c : Char} {text : List Char} (h : isSpace c = false) :
    skip (c :: text) = c :: text :=
  List.dropWhile_cons_of_neg (by rw [h]; exact Bool.false_ne_true)

/-! ### Strings -/

theorem number?_ofNat {n : Nat} (h : n < 32) : Text.Hex.number? (Text.Hex.ofNat 4 n) = some n := by
  have hall : ∀ n < 32, Text.Hex.number? (Text.Hex.ofNat 4 n) = some n := by decide
  exact hall n h

/-- **A character** is written as something that is worth its code value. -/
theorem codeValues_escape (c : Char) (text : List Char) :
    codeValues (escape c ++ text) =
      (codeValues text).bind fun (values, rest) => some (c.toNat :: values, rest) := by
  unfold escape
  split_ifs with hquote hbackslash hnewline hreturn htab hbackspace hfeed hcontrol
  · subst hquote; rfl
  · subst hbackslash; rfl
  · subst hnewline; rfl
  · subst hreturn; rfl
  · subst htab; rfl
  · rw [hbackspace]; rfl
  · rw [hfeed]; rfl
  · have hdigits := number?_ofNat hcontrol
    change (Text.Hex.number? (Text.Hex.ofNat 4 c.toNat)).bind _ = _
    rw [hdigits]
    rfl
  · rw [List.singleton_append, codeValues.eq_def]
    split
    · contradiction
    · rename_i heq
      exact absurd (List.cons.inj heq).1 hquote
    · rename_i heq
      exact absurd (List.cons.inj heq).1 hbackslash
    · rename_i heq
      exact absurd (List.cons.inj heq).1 hbackslash
    · rename_i heq
      obtain ⟨rfl, rfl⟩ := List.cons.inj heq
      rw [if_neg hcontrol]
      rfl

theorem codeValues_flatMap_escape (s rest : List Char) :
    codeValues (s.flatMap escape ++ '"' :: rest) = some (s.map Char.toNat, rest) := by
  induction s with
  | nil => rfl
  | cons c s ih =>
    rw [List.flatMap_cons, List.append_assoc, codeValues_escape, ih]
    rfl

/-- Characters are no surrogates, and stay what they are. -/
theorem joinSurrogates_map_toNat (s : List Char) : joinSurrogates (s.map Char.toNat) = some s := by
  have hnot : ∀ c : Char, isHighSurrogate c.toNat = false ∧ isLowSurrogate c.toNat = false := by
    intro c
    have hvalid : c.toNat < 0xd800 ∨ 0xdfff < c.toNat ∧ c.toNat < 0x110000 := c.valid
    unfold isHighSurrogate isLowSurrogate
    simp only [Bool.and_eq_false_iff, decide_eq_false_iff_not]
    omega
  induction s with
  | nil => rfl
  | cons c s ih =>
    cases s with
    | nil =>
      simp only [List.map_cons, List.map_nil, joinSurrogates, hnot c, Bool.or_self,
        Bool.false_eq_true, if_false, Char.ofNat_toNat]
    | cons d s =>
      rw [List.map_cons, List.map_cons] at *
      simp only [joinSurrogates, hnot c, Bool.false_eq_true, if_false, Char.ofNat_toNat]
      rw [ih]
      rfl

/-- **A string** is read back after its opening quote. -/
theorem readString_flatMap_escape (s : String) (rest : List Char) :
    readString (s.toList.flatMap escape ++ '"' :: rest) = some (some s, rest) := by
  unfold readString
  rw [codeValues_flatMap_escape]
  dsimp only [Option.bind_eq_bind, Option.bind_some]
  rw [joinSurrogates_map_toNat, Option.map_some, String.ofList_toList]

/-! ### Numbers -/

/-- The text does not go on like a number. -/
def Stops (text : List Char) : Prop :=
  ∀ c ∈ text.head?, isSpace c = true ∨ c = ',' ∨ c = ']' ∨ c = '}'

theorem Stops.head?_ne {text : List Char} (h : Stops text) {d : Char}
    (hspace : isSpace d = false) (hcomma : d ≠ ',') (hbracket : d ≠ ']') (hbrace : d ≠ '}') :
    ∀ c ∈ text.head?, c ≠ d := by
  rintro c hc rfl
  rcases h c hc with hc | hc | hc | hc
  · rw [hspace] at hc; cases hc
  · exact hcomma hc
  · exact hbracket hc
  · exact hbrace hc

theorem Stops.not_isDigit {text : List Char} (h : Stops text) :
    ∀ c ∈ text.head?, c.isDigit = false := by
  intro c hc
  rcases h c hc with hc | rfl | rfl | rfl
  · unfold isSpace at hc
    simp only [Bool.or_eq_true, decide_eq_true_eq] at hc
    rcases hc with ((rfl | rfl) | rfl) | rfl <;> rfl
  all_goals rfl

theorem readDigits_append {digits rest : List Char} (hne : digits ≠ [])
    (hdigits : ∀ c ∈ digits, c.isDigit = true) (hrest : Stops rest) :
    readDigits (digits ++ rest) = some (digits, rest) := by
  have hstop : rest.takeWhile Char.isDigit = [] ∧ rest.dropWhile Char.isDigit = rest := by
    cases rest with
    | nil => exact ⟨rfl, rfl⟩
    | cons c rest =>
      have hc := hrest.not_isDigit c rfl
      exact ⟨List.takeWhile_cons_of_neg (by rw [hc]; exact Bool.false_ne_true),
        List.dropWhile_cons_of_neg (by rw [hc]; exact Bool.false_ne_true)⟩
  unfold readDigits
  rw [List.takeWhile_append_of_pos hdigits, hstop.1, List.dropWhile_append_of_pos hdigits, hstop.2,
    List.append_nil]
  cases digits with
  | nil => exact absurd rfl hne
  | cons c digits => rfl

theorem readWhole_natDigits (n : Nat) {rest : List Char} (hrest : Stops rest) :
    readWhole (Text.natDigits n ++ rest) = some (Text.natDigits n, rest) := by
  rcases Nat.eq_zero_or_pos n with rfl | hpos
  · rfl
  · have hread := readDigits_append (Text.natDigits_ne_nil n)
      (fun _ => Text.isDigit_of_mem_natDigits) hrest
    obtain ⟨c, digits, hcons⟩ := List.exists_cons_of_ne_nil (Text.natDigits_ne_nil n)
    have hzero := Text.head?_natDigits_ne_zero hpos
    rw [hcons] at hread hzero ⊢
    rw [List.cons_append, readWhole.eq_def]
    split
    · rename_i heq
      exact absurd (congrArg some (List.cons.inj heq).1) hzero
    · exact hread

theorem skipFraction_of_stops {rest : List Char} (h : Stops rest) :
    skipFraction rest = some (false, rest) := by
  rw [skipFraction.eq_def]
  split
  · exact absurd rfl (h.head?_ne (by decide) (by decide) (by decide) (by decide) '.' rfl)
  · rfl

theorem skipExponent_of_stops {rest : List Char} (h : Stops rest) :
    skipExponent rest = some (false, rest) := by
  cases rest with
  | nil => rfl
  | cons c rest =>
    have hlower := h.head?_ne (d := 'e') (by decide) (by decide) (by decide) (by decide) c rfl
    have hupper := h.head?_ne (d := 'E') (by decide) (by decide) (by decide) (by decide) c rfl
    exact if_neg (not_or.2 ⟨hlower, hupper⟩)

theorem readUnsigned_natDigits (negative : Bool) {n : Nat} (hsign : negative = true → 0 < n)
    {rest : List Char} (hrest : Stops rest) :
    readUnsigned negative (Text.natDigits n ++ rest) =
      some (.number (if negative then -(n : Int) else n), rest) := by
  have hzero : (negative && decide (n = 0)) = false := by
    cases negative with
    | false => rfl
    | true => exact decide_eq_false (Nat.pos_iff_ne_zero.1 (hsign rfl))
  unfold readUnsigned
  rw [readWhole_natDigits n hrest]
  dsimp only [Option.bind_eq_bind, Option.bind_some]
  rw [skipFraction_of_stops hrest]
  dsimp only [Option.bind_some]
  rw [skipExponent_of_stops hrest]
  dsimp only [Option.bind_some]
  rw [Text.natOfDigits_natDigits, hzero]
  rfl

/-! ### Layouts -/

/-- Where the blanks of a layout stand. -/
structure Layout where
  /-- What stands before an item, a field or a closing bracket at a depth. -/
  line : Nat → List Char
  /-- What stands after a colon. -/
  gap : List Char
  /-- Lines start with blanks. -/
  line_blank : ∀ depth, ∀ c ∈ line depth, isSpace c = true
  /-- After a colon there are blanks. -/
  gap_blank : ∀ c ∈ gap, isSpace c = true

namespace Layout

mutual

/-- A value, its brackets at the given depth. -/
def value (l : Layout) (depth : Nat) : Json → List Char
  | .array [] => ['[', ']']
  | .array (v :: rest) => '[' :: (l.items (depth + 1) (v :: rest) ++ l.line depth ++ [']'])
  | .object [] => ['{', '}']
  | .object (f :: rest) => '{' :: (l.fields (depth + 1) (f :: rest) ++ l.line depth ++ ['}'])
  | .null => literal .null
  | .bool b => literal (.bool b)
  | .number n => literal (.number n)
  | .string s => literal (.string s)
  | .other => literal .other

/-- Array items. -/
def items (l : Layout) (depth : Nat) : List Json → List Char
  | [] => []
  | [v] => l.line depth ++ l.value depth v
  | v :: rest => l.line depth ++ l.value depth v ++ ',' :: l.items depth rest

/-- Object fields. -/
def fields (l : Layout) (depth : Nat) : List (Option String × Json) → List Char
  | [] => []
  | [(k, v)] => l.line depth ++ quoteName k ++ ':' :: (l.gap ++ l.value depth v)
  | (k, v) :: rest =>
    l.line depth ++ quoteName k ++ ':' :: (l.gap ++ l.value depth v ++ ',' :: l.fields depth rest)

end

theorem items_cons_cons (l : Layout) (depth : Nat) (v w : Json) (rest : List Json) :
    l.items depth (v :: w :: rest) =
      l.line depth ++ l.value depth v ++ ',' :: l.items depth (w :: rest) := rfl

theorem fields_cons_cons (l : Layout) (depth : Nat) (k : Option String) (v : Json)
    (f : Option String × Json) (rest : List (Option String × Json)) :
    l.fields depth ((k, v) :: f :: rest) = l.line depth ++ quoteName k ++
      ':' :: (l.gap ++ l.value depth v ++ ',' :: l.fields depth (f :: rest)) := rfl

/-- No blanks at all. -/
def tight : Layout := ⟨fun _ => [], [], nofun, nofun⟩

/-- A line for each item and each field. -/
def broken : Layout where
  line := newLine
  gap := [' ']
  line_blank depth c hc := by
    rcases List.mem_cons.1 hc with rfl | hc
    · rfl
    · rw [List.eq_of_mem_replicate hc]
      rfl
  gap_blank c hc := by
    rw [List.mem_singleton.1 hc]
    rfl

end Layout

mutual

theorem tight_value (depth : Nat) : ∀ j, Layout.tight.value depth j = compact j
  | .array [] => rfl
  | .array (v :: rest) => by
    rw [Layout.value, compact, tight_items (depth + 1) (v :: rest)]
    exact congrArg _ (congrArg (· ++ [']']) (List.append_nil _))
  | .object [] => rfl
  | .object (f :: rest) => by
    rw [Layout.value, compact, tight_fields (depth + 1) (f :: rest)]
    exact congrArg _ (congrArg (· ++ ['}']) (List.append_nil _))
  | .null => rfl
  | .bool _ => rfl
  | .number _ => rfl
  | .string _ => rfl
  | .other => rfl

theorem tight_items (depth : Nat) : ∀ items, Layout.tight.items depth items = compactItems items
  | [] => rfl
  | [v] => tight_value depth v
  | v :: w :: rest => by
    rw [Layout.items_cons_cons, compactItems, tight_value depth v, tight_items depth (w :: rest)]
    · rfl
    · exact nofun

theorem tight_fields (depth : Nat) :
    ∀ fields, Layout.tight.fields depth fields = compactFields fields
  | [] => rfl
  | [(k, v)] => congrArg (fun text => quoteName k ++ ':' :: text) (tight_value depth v)
  | (k, v) :: f :: rest => by
    rw [Layout.fields_cons_cons, compactFields, tight_value depth v, tight_fields depth (f :: rest)]
    · rfl
    · exact nofun

end

mutual

theorem broken_value (depth : Nat) : ∀ j, Layout.broken.value depth j = prettyAt depth j
  | .array [] => rfl
  | .array (v :: rest) => by
    rw [Layout.value, prettyAt, broken_items (depth + 1) (v :: rest)]
    rfl
  | .object [] => rfl
  | .object (f :: rest) => by
    rw [Layout.value, prettyAt, broken_fields (depth + 1) (f :: rest)]
    rfl
  | .null => rfl
  | .bool _ => rfl
  | .number _ => rfl
  | .string _ => rfl
  | .other => rfl

theorem broken_items (depth : Nat) : ∀ items, Layout.broken.items depth items = prettyItems depth items
  | [] => rfl
  | [v] => congrArg (newLine depth ++ ·) (broken_value depth v)
  | v :: w :: rest => by
    rw [Layout.items_cons_cons, prettyItems, broken_value depth v, broken_items depth (w :: rest)]
    · rfl
    · exact nofun

theorem broken_fields (depth : Nat) :
    ∀ fields, Layout.broken.fields depth fields = prettyFields depth fields
  | [] => rfl
  | [(k, v)] =>
    congrArg (fun text => newLine depth ++ quoteName k ++ ':' :: ' ' :: text) (broken_value depth v)
  | (k, v) :: f :: rest => by
    rw [Layout.fields_cons_cons, prettyFields, broken_value depth v,
      broken_fields depth (f :: rest)]
    · rfl
    · exact nofun

end

/-! ### Reading what is written -/

theorem skip_skip (text : List Char) : skip (skip text) = skip text := by
  unfold skip
  induction text with
  | nil => rfl
  | cons c text ih =>
    cases hc : isSpace c with
    | true => rw [List.dropWhile_cons_of_pos hc, ih]
    | false => rw [List.dropWhile_cons_of_neg (by rw [hc]; exact Bool.false_ne_true),
        List.dropWhile_cons_of_neg (by rw [hc]; exact Bool.false_ne_true)]

theorem readValue_congr {fuel : Nat} {a b : List Char} (h : skip a = skip b) :
    readValue fuel a = readValue fuel b := by
  cases fuel with
  | zero => rfl
  | succ fuel => simp only [readValue, h]

theorem readItems_congr {fuel : Nat} {a b : List Char} (h : skip a = skip b) :
    readItems fuel a = readItems fuel b := by
  cases fuel with
  | zero => rfl
  | succ fuel => simp only [readItems, readValue_congr h]

theorem readFields_congr {fuel : Nat} {a b : List Char} (h : skip a = skip b) :
    readFields fuel a = readFields fuel b := by
  cases fuel with
  | zero => rfl
  | succ fuel => simp only [readFields, h]

theorem stops_cons {c : Char} (text : List Char) (h : c = ',' ∨ c = ']' ∨ c = '}') :
    Stops (c :: text) := by
  rintro d hd
  obtain rfl := Option.some.inj hd
  exact .inr h

theorem Stops.append {blanks text : List Char} (hblanks : ∀ c ∈ blanks, isSpace c = true)
    (h : Stops text) : Stops (blanks ++ text) := by
  cases blanks with
  | nil => exact h
  | cons b blanks =>
    intro c hc
    obtain rfl := Option.some.inj hc
    exact .inl (hblanks b List.mem_cons_self)

/-- A digit begins a number. -/
theorem readValue_of_isDigit (fuel : Nat) {c : Char} (h : c.isDigit = true) (text : List Char) :
    readValue (fuel + 1) (c :: text) = readUnsigned false (c :: text) := by
  have hne : ∀ d : Char, d.isDigit = false → c ≠ d := by
    rintro d hd rfl
    rw [hd] at h
    cases h
  have hspace : isSpace c = false := by
    unfold isSpace
    simp only [hne ' ' rfl, hne '\n' rfl, hne '\r' rfl, hne '\t' rfl, decide_false, Bool.or_self]
  rw [readValue, skip_cons hspace]
  split
  all_goals first
    | rfl
    | rename_i heq
      exact absurd (List.cons.inj heq).1 (hne _ rfl)

/-- What an opening bracket begins. -/
theorem readValue_bracket_eq (fuel : Nat) (text : List Char) :
    readValue (fuel + 1) ('[' :: text) = match skip text with
      | ']' :: rest => some (array [], rest)
      | rest => (readItems fuel rest).bind fun (items, rest) => some (.array items, rest) :=
  rfl

/-- After an opening bracket that is not closed at once, items follow. -/
theorem readValue_bracket (fuel : Nat) {text : List Char} (h : ∀ rest, skip text ≠ ']' :: rest) :
    readValue (fuel + 1) ('[' :: text) =
      (readItems fuel text).bind fun (items, rest) => some (.array items, rest) := by
  rw [← readItems_congr (skip_skip text), readValue_bracket_eq]
  split
  · rename_i rest heq
    exact absurd heq (h rest)
  · rfl

/-- What an opening brace begins. -/
theorem readValue_brace_eq (fuel : Nat) (text : List Char) :
    readValue (fuel + 1) ('{' :: text) = match skip text with
      | '}' :: rest => some (object [], rest)
      | rest => (readFields fuel rest).bind fun (fields, rest) => some (.object fields, rest) :=
  rfl

/-- After an opening brace that is not closed at once, fields follow. -/
theorem readValue_brace (fuel : Nat) {text : List Char} (h : ∀ rest, skip text ≠ '}' :: rest) :
    readValue (fuel + 1) ('{' :: text) =
      (readFields fuel text).bind fun (fields, rest) => some (.object fields, rest) := by
  rw [← readFields_congr (skip_skip text), readValue_brace_eq]
  split
  · rename_i rest heq
    exact absurd heq (h rest)
  · rfl

/-- After a quote, a string follows. -/
theorem readValue_quote (fuel : Nat) (s : String) (rest : List Char) :
    readValue (fuel + 1) (quote s.toList ++ rest) = some (.string s, rest) := by
  have hread := readString_flatMap_escape s rest
  unfold quote
  rw [List.cons_append, List.append_assoc, List.singleton_append]
  change (readString (s.toList.flatMap escape ++ '"' :: rest)).bind _ = _
  rw [hread]
  rfl

/-- One item, and what follows it. -/
theorem readItems_of_readValue {fuel : Nat} {text rest : List Char} {v : Json}
    (h : readValue fuel text = some (v, rest)) :
    readItems (fuel + 1) text = match skip rest with
      | ',' :: rest => (readItems fuel rest).bind fun (items, rest) => some (v :: items, rest)
      | ']' :: rest => some ([v], rest)
      | _ => none := by
  rw [readItems, h]
  rfl

/-- One field, and what follows it. -/
theorem readFields_of_readValue {fuel : Nat} {text rest : List Char} {k : String} {v : Json}
    (h : readValue fuel text = some (v, rest)) :
    readFields (fuel + 1) (quoteName (some k) ++ ':' :: text) = match skip rest with
      | ',' :: rest => (readFields fuel rest).bind fun (fields, rest) =>
        some ((some k, v) :: fields, rest)
      | '}' :: rest => some ([(some k, v)], rest)
      | _ => none := by
  have hname : quoteName (some k) ++ ':' :: text =
      '"' :: (k.toList.flatMap escape ++ '"' :: ':' :: text) := by
    unfold quoteName quote
    rw [List.cons_append, List.append_assoc]
    rfl
  rw [hname]
  change (readString (k.toList.flatMap escape ++ '"' :: ':' :: text)).bind _ = _
  rw [readString_flatMap_escape, Option.bind_some]
  change (readValue fuel text).bind _ = _
  rw [h]
  rfl

namespace Layout

variable (l : Layout)

/-- A value begins with something that is neither a blank nor a closing bracket. -/
theorem value_eq_cons (depth : Nat) (j : Json) : ∃ c text, l.value depth j = c :: text ∧
    isSpace c = false ∧ c ≠ ']' := by
  cases j with
  | null => exact ⟨'n', _, rfl, rfl, by decide⟩
  | bool b => cases b <;> exact ⟨_, _, rfl, rfl, by decide⟩
  | string s => exact ⟨'"', _, rfl, rfl, by decide⟩
  | other => exact ⟨'n', _, rfl, rfl, by decide⟩
  | array items => cases items <;> exact ⟨'[', _, rfl, rfl, by decide⟩
  | object fields => cases fields <;> exact ⟨'{', _, rfl, rfl, by decide⟩
  | number n =>
    cases n with
    | negSucc n => exact ⟨'-', _, rfl, rfl, by decide⟩
    | ofNat n =>
      obtain ⟨c, digits, hcons⟩ := List.exists_cons_of_ne_nil (Text.natDigits_ne_nil n)
      have hdigit : c.isDigit = true :=
        Text.isDigit_of_mem_natDigits (hcons ▸ List.mem_cons_self)
      refine ⟨c, digits, hcons, ?_, ?_⟩
      · cases hspace : isSpace c with
        | false => rfl
        | true =>
          unfold isSpace at hspace
          simp only [Bool.or_eq_true, decide_eq_true_eq] at hspace
          rcases hspace with ((rfl | rfl) | rfl) | rfl <;> cases hdigit
      · rintro rfl
        cases hdigit

/-- Items begin with a value, after blanks. -/
theorem skip_items (depth : Nat) (v : Json) (items : List Json) (text : List Char) :
    ∃ c rest, skip (l.items depth (v :: items) ++ text) = c :: rest ∧ c ≠ ']' := by
  obtain ⟨c, rest, hvalue, hspace, hne⟩ := l.value_eq_cons depth v
  cases items with
  | nil =>
    rw [Layout.items, List.append_assoc, skip_append (l.line_blank depth), hvalue, List.cons_append,
      skip_cons hspace]
    exact ⟨c, _, rfl, hne⟩
  | cons w items =>
    rw [l.items_cons_cons, List.append_assoc, List.append_assoc, skip_append (l.line_blank depth),
      hvalue, List.cons_append, skip_cons hspace]
    exact ⟨c, _, rfl, hne⟩

/-- Fields begin with a quote, after blanks. -/
theorem skip_fields (depth : Nat) (f : Option String × Json) (fields : List (Option String × Json))
    (text : List Char) : ∃ rest, skip (l.fields depth (f :: fields) ++ text) = '"' :: rest := by
  obtain ⟨k, v⟩ := f
  cases fields with
  | nil =>
    rw [Layout.fields, List.append_assoc, List.append_assoc, skip_append (l.line_blank depth)]
    exact ⟨_, rfl⟩
  | cons g fields =>
    rw [l.fields_cons_cons, List.append_assoc, List.append_assoc, skip_append (l.line_blank depth)]
    exact ⟨_, rfl⟩

mutual

/-- **A value** is read back in front of anything that does not go on like a number. -/
theorem readValue_value (depth : Nat) : ∀ (j : Json) (fuel : Nat) (rest : List Char),
    j.Readable → 2 * (l.value depth j).length ≤ fuel → Stops rest →
    readValue fuel (l.value depth j ++ rest) = some (j, rest)
  | j, 0, rest, _, hfuel, _ => by
    obtain ⟨c, text, hvalue, -⟩ := l.value_eq_cons depth j
    rw [hvalue, List.length_cons] at hfuel
    omega
  | .null, _ + 1, _, _, _, _ => rfl
  | .bool true, _ + 1, _, _, _, _ => rfl
  | .bool false, _ + 1, _, _, _, _ => rfl
  | .number (.negSucc n), _ + 1, _, _, _, hrest =>
    readUnsigned_natDigits true (fun _ => Nat.succ_pos n) hrest
  | .number (.ofNat n), fuel + 1, rest, _, _, hrest => by
    have hread := readUnsigned_natDigits false (n := n) nofun hrest
    obtain ⟨c, digits, hcons⟩ := List.exists_cons_of_ne_nil (Text.natDigits_ne_nil n)
    have hdigit : c.isDigit = true := Text.isDigit_of_mem_natDigits (hcons ▸ List.mem_cons_self)
    change readValue (fuel + 1) (Text.natDigits n ++ rest) = _
    rw [hcons, List.cons_append] at hread ⊢
    rw [readValue_of_isDigit fuel hdigit, hread]
    rfl
  | .string s, fuel + 1, rest, _, _, _ => readValue_quote fuel s rest
  | .other, _ + 1, _, hreadable, _, _ => hreadable.elim
  | .array [], _ + 1, _, _, _, _ => rfl
  | .array (v :: items), fuel + 1, rest, hreadable, hfuel, _ => by
    rw [Layout.value] at hfuel ⊢
    simp only [List.length_cons, List.length_append] at hfuel
    have hitems := readItems_items (depth + 1) v items fuel (l.line depth) rest hreadable
      (by omega) (l.line_blank depth)
    obtain ⟨c, text, hskip, hne⟩ := l.skip_items (depth + 1) v items (l.line depth ++ ']' :: rest)
    rw [List.cons_append, List.append_assoc, List.append_assoc, List.singleton_append,
      readValue_bracket fuel fun rest' h => hne (List.cons.inj (hskip.symm.trans h)).1, hitems]
    rfl
  | .object [], _ + 1, _, _, _, _ => rfl
  | .object (f :: fields), fuel + 1, rest, hreadable, hfuel, _ => by
    rw [Layout.value] at hfuel ⊢
    simp only [List.length_cons, List.length_append] at hfuel
    have hfields := readFields_fields (depth + 1) f fields fuel (l.line depth) rest hreadable
      (by omega) (l.line_blank depth)
    obtain ⟨text, hskip⟩ := l.skip_fields (depth + 1) f fields (l.line depth ++ '}' :: rest)
    rw [List.cons_append, List.append_assoc, List.append_assoc, List.singleton_append,
      readValue_brace fuel fun rest' h => (nomatch hskip.symm.trans h), hfields]
    rfl

/-- **Items** are read back up to the closing bracket. -/
theorem readItems_items (depth : Nat) : ∀ (v : Json) (items : List Json) (fuel : Nat)
    (blanks rest : List Char), ReadableItems (v :: items) →
    2 * (l.items depth (v :: items)).length + 1 ≤ fuel → (∀ c ∈ blanks, isSpace c = true) →
    readItems fuel (l.items depth (v :: items) ++ (blanks ++ ']' :: rest)) = some (v :: items, rest)
  | v, [], fuel + 1, blanks, rest, hreadable, hfuel, hblanks => by
    rw [Layout.items] at hfuel ⊢
    rw [List.length_append] at hfuel
    have hvalue := readValue_value depth v fuel _ hreadable.1 (by omega)
      (.append hblanks (stops_cons rest (.inr (.inl rfl))))
    rw [List.append_assoc, readItems_congr (skip_append (l.line_blank depth)),
      readItems_of_readValue hvalue, skip_append hblanks]
    rfl
  | v, w :: items, fuel + 1, blanks, rest, hreadable, hfuel, hblanks => by
    rw [l.items_cons_cons] at hfuel ⊢
    simp only [List.length_append, List.length_cons] at hfuel
    have hvalue := readValue_value depth v fuel _ hreadable.1 (by omega)
      (stops_cons (l.items depth (w :: items) ++ (blanks ++ ']' :: rest)) (.inl rfl))
    have hitems := readItems_items depth w items fuel blanks rest hreadable.2 (by omega) hblanks
    rw [List.append_assoc, List.append_assoc, readItems_congr (skip_append (l.line_blank depth)),
      List.cons_append, readItems_of_readValue hvalue]
    change (readItems fuel _).bind _ = _
    rw [hitems]
    rfl

/-- **Fields** are read back up to the closing brace. -/
theorem readFields_fields (depth : Nat) : ∀ (f : Option String × Json)
    (fields : List (Option String × Json)) (fuel : Nat) (blanks rest : List Char),
    ReadableFields (f :: fields) → 2 * (l.fields depth (f :: fields)).length + 1 ≤ fuel →
    (∀ c ∈ blanks, isSpace c = true) →
    readFields fuel (l.fields depth (f :: fields) ++ (blanks ++ '}' :: rest)) =
      some (f :: fields, rest)
  | (some k, v), [], fuel + 1, blanks, rest, hreadable, hfuel, hblanks => by
    rw [Layout.fields] at hfuel ⊢
    simp only [List.length_append, List.length_cons] at hfuel
    have hvalue := readValue_value depth v fuel _ hreadable.2.1 (by omega)
      (.append hblanks (stops_cons rest (.inr (.inr rfl))))
    rw [← readValue_congr (skip_append l.gap_blank)] at hvalue
    rw [List.append_assoc, List.append_assoc, readFields_congr (skip_append (l.line_blank depth)),
      List.cons_append, List.append_assoc, readFields_of_readValue hvalue, skip_append hblanks]
    rfl
  | (some k, v), g :: fields, fuel + 1, blanks, rest, hreadable, hfuel, hblanks => by
    rw [l.fields_cons_cons] at hfuel ⊢
    simp only [List.length_append, List.length_cons] at hfuel
    have hvalue := readValue_value depth v fuel _ hreadable.2.1 (by omega)
      (stops_cons (l.fields depth (g :: fields) ++ (blanks ++ '}' :: rest)) (.inl rfl))
    rw [← readValue_congr (skip_append l.gap_blank)] at hvalue
    have hfields := readFields_fields depth g fields fuel blanks rest hreadable.2.2 (by omega)
      hblanks
    rw [List.append_assoc, List.append_assoc, readFields_congr (skip_append (l.line_blank depth)),
      List.cons_append, List.append_assoc, List.append_assoc, List.cons_append,
      readFields_of_readValue hvalue]
    change (readFields fuel _).bind _ = _
    rw [hfields]
    rfl
  | (none, v), _, _, _, _, hreadable, _, _ => by cases hreadable.1

end

/-- **What is written is read back**, in every layout. -/
theorem read?_value {j : Json} (h : j.Readable) (depth : Nat) : read? (l.value depth j) = some j := by
  have hread := l.readValue_value depth j (2 * (l.value depth j).length + 1) [] h (by omega) nofun
  rw [List.append_nil] at hread
  unfold read?
  rw [hread]
  rfl

end Layout

/-- Without blanks. -/
theorem read?_compact {j : Json} (h : j.Readable) : read? (compact j) = some j :=
  tight_value 0 j ▸ Layout.tight.read?_value h 0

/-- Over several lines. -/
theorem read?_prettyAt {j : Json} (h : j.Readable) (depth : Nat) :
    read? (prettyAt depth j) = some j :=
  broken_value depth j ▸ Layout.broken.read?_value h depth

end TensorJit.Json
