import TensorJit.Text.Base64

/-!
# Reading base 64 back

A byte string is read back from its text (`Text.Base64.decode?_encode`), and from no other text
(`Text.Base64.encode_of_decode?`). The text is made group by group, and so is the reading: four
characters of the alphabet stand for three bytes, whatever follows (`Text.Base64.decode?_group`,
`Text.Base64.encode_group`). Only the last group may be padded, and the bits that are left over
there are zero: the encoder shifts them in, and the decoder refuses any others. So texts and byte
strings determine each other (`Text.Base64.decode?_eq_some_iff`).
-/

namespace TensorJit.Text.Base64

/-! ### Bytes from their text -/

theorem symbolValue?_symbol (n : Nat) : symbolValue? (symbol n) = some (n % 64) := by
  have hall : ∀ m < 64, symbolValue? (alphabet.getD m 'A') = some m := by decide +kernel
  exact hall (n % 64) (Nat.mod_lt n (by decide))

/-- No character of the alphabet is the one that pads. -/
theorem symbol_ne_pad (n : Nat) : symbol n ≠ '=' := by
  intro h
  have hvalue := symbolValue?_symbol n
  rw [h] at hvalue
  cases hvalue

/-- A byte is read back from its low eight bits. -/
theorem ofNat_eq_of_mod_eq {n : Nat} {b : UInt8} (h : n % 256 = b.toNat) : UInt8.ofNat n = b :=
  UInt8.toNat_inj.1 (UInt8.toNat_ofNat'.trans h)

/-- **A group that is not padded** stands for three bytes. -/
theorem decode?_group (w x y z : Nat) (rest : List Char) :
    decode? (symbol w :: symbol x :: symbol y :: symbol z :: rest) =
      (decode? rest).map fun bytes =>
        UInt8.ofNat ((w % 64) <<< 2 + (x % 64) >>> 4) ::
          UInt8.ofNat ((x % 64) <<< 4 + (y % 64) >>> 2) ::
            UInt8.ofNat ((y % 64) <<< 6 + z % 64) :: bytes := by
  cases rest with
  | nil =>
    simp only [decode?, decodeLast, symbolValue?_symbol, Option.bind_eq_bind, Option.bind_some,
      symbol_ne_pad, and_self, if_false, Option.map_some]
  | cons c rest =>
    simp only [decode?, symbolValue?_symbol, Option.bind_eq_bind, Option.bind_some]
    cases decode? (c :: rest) with
    | none => rfl
    | some bytes => rfl

/-- **A byte string is read back from its text.** -/
theorem decode?_encode (bytes : Bytes) : decode? (encode bytes) = some bytes := by
  induction bytes using encode.induct with
  | case1 => rfl
  | case2 a =>
    have ha := a.toNat_lt
    unfold encode
    generalize hn : a.toNat <<< 4 = n
    have hzero : n % 64 % 16 = 0 := by omega
    have hbyte : ((n >>> 6 % 64) <<< 2 + (n % 64) >>> 4) % 256 = a.toNat := by omega
    simp only [decode?, decodeLast, symbolValue?_symbol, Option.bind_eq_bind, Option.bind_some,
      and_self, if_true]
    rw [if_pos hzero, ofNat_eq_of_mod_eq hbyte]
  | case3 a b =>
    have ha := a.toNat_lt
    have hb := b.toNat_lt
    unfold encode
    generalize hn : (a.toNat <<< 8 + b.toNat) <<< 2 = n
    have hzero : n % 64 % 4 = 0 := by omega
    have hfirst : ((n >>> 12 % 64) <<< 2 + (n >>> 6 % 64) >>> 4) % 256 = a.toNat := by omega
    have hsecond : ((n >>> 6 % 64) <<< 4 + (n % 64) >>> 2) % 256 = b.toNat := by omega
    simp only [decode?, decodeLast, symbolValue?_symbol, Option.bind_eq_bind, Option.bind_some,
      symbol_ne_pad, false_and, if_false, if_true]
    rw [if_pos hzero, ofNat_eq_of_mod_eq hfirst, ofNat_eq_of_mod_eq hsecond]
  | case4 a b c rest ih =>
    have ha := a.toNat_lt
    have hb := b.toNat_lt
    have hc := c.toNat_lt
    unfold encode
    generalize hn : (a.toNat <<< 8 + b.toNat) <<< 8 + c.toNat = n
    have hfirst : ((n >>> 18 % 64) <<< 2 + (n >>> 12 % 64) >>> 4) % 256 = a.toNat := by omega
    have hsecond : ((n >>> 12 % 64) <<< 4 + (n >>> 6 % 64) >>> 2) % 256 = b.toNat := by omega
    have hthird : ((n >>> 6 % 64) <<< 6 + n % 64) % 256 = c.toNat := by omega
    simp only [decode?_group, ih, Option.map_some]
    rw [ofNat_eq_of_mod_eq hfirst, ofNat_eq_of_mod_eq hsecond, ofNat_eq_of_mod_eq hthird]

theorem encode_injective {bytes bytes' : Bytes} (h : encode bytes = encode bytes') :
    bytes = bytes' := by
  have hdecode := decode?_encode bytes
  rw [h, decode?_encode] at hdecode
  exact (Option.some.inj hdecode).symm

/-! ### Texts from their bytes -/

/-- A character of the alphabet is the symbol of its value. -/
theorem symbolValue?_eq_some {c : Char} {n : Nat} (h : symbolValue? c = some n) :
    n < 64 ∧ symbol n = c := by
  obtain ⟨hn, hc, -⟩ := List.findIdx?_eq_some_iff_getElem.1 h
  have hlt : n < 64 := hn
  refine ⟨hlt, ?_⟩
  unfold symbol
  rw [Nat.mod_eq_of_lt hlt, ← List.getElem_eq_getD (h := hn)]
  exact eq_of_beq hc

/-- Only the last six bits of a number show in its symbol. -/
theorem symbol_eq_of_mod_eq {m n : Nat} (h : m % 64 = n % 64) : symbol m = symbol n := by
  unfold symbol
  rw [h]

/-- **The text of a group** is made of the symbols that its three bytes are put together from. -/
theorem encode_group {w x y z : Nat} (hx : x < 64) (hy : y < 64) (hz : z < 64) (rest : Bytes) :
    encode (UInt8.ofNat (w <<< 2 + x >>> 4) :: UInt8.ofNat (x <<< 4 + y >>> 2) ::
        UInt8.ofNat (y <<< 6 + z) :: rest) =
      symbol w :: symbol x :: symbol y :: symbol z :: encode rest := by
  rw [encode]
  simp only [UInt8.toNat_ofNat']
  congr 1
  · exact symbol_eq_of_mod_eq (by omega)
  congr 1
  · exact symbol_eq_of_mod_eq (by omega)
  congr 1
  · exact symbol_eq_of_mod_eq (by omega)
  congr 1
  exact symbol_eq_of_mod_eq (by omega)

/-- **The last group of a text** is the text of the bytes that are read from it. -/
theorem encode_of_decodeLast {a b c d : Char} {bytes : Bytes}
    (h : decodeLast a b c d = some bytes) : encode bytes = [a, b, c, d] := by
  simp only [decodeLast, Option.bind_eq_bind, Option.bind_eq_some_iff] at h
  obtain ⟨w, hw, x, hx, h⟩ := h
  obtain ⟨-, rfl⟩ := symbolValue?_eq_some hw
  obtain ⟨hxlt, rfl⟩ := symbolValue?_eq_some hx
  split at h
  · -- Two characters of padding: one byte.
    rename_i hpad
    obtain ⟨rfl, rfl⟩ := hpad
    split at h
    · cases h
      rw [encode]
      simp only [UInt8.toNat_ofNat']
      congr 1
      · exact symbol_eq_of_mod_eq (by omega)
      congr 1
      exact symbol_eq_of_mod_eq (by omega)
    · cases h
  · simp only [Option.bind_eq_some_iff] at h
    obtain ⟨y, hy, h⟩ := h
    obtain ⟨hylt, rfl⟩ := symbolValue?_eq_some hy
    split at h
    · -- One character of padding: two bytes.
      rename_i hpad
      subst hpad
      split at h
      · cases h
        rw [encode]
        simp only [UInt8.toNat_ofNat']
        congr 1
        · exact symbol_eq_of_mod_eq (by omega)
        congr 1
        · exact symbol_eq_of_mod_eq (by omega)
        congr 1
        exact symbol_eq_of_mod_eq (by omega)
      · cases h
    · simp only [Option.bind_eq_some_iff] at h
      obtain ⟨z, hz, h⟩ := h
      obtain ⟨hzlt, rfl⟩ := symbolValue?_eq_some hz
      cases h
      exact encode_group hxlt hylt hzlt []

/-- **No other text is read as a byte string** than its own. -/
theorem encode_of_decode? {text : List Char} {bytes : Bytes} (h : decode? text = some bytes) :
    encode bytes = text := by
  induction text using decode?.induct generalizing bytes with
  | case1 =>
    cases h
    rfl
  | case2 a b c d => exact encode_of_decodeLast h
  | case3 a b c d rest hrest ih =>
    rw [decode?] at h
    · simp only [Option.bind_eq_bind, Option.bind_eq_some_iff] at h
      obtain ⟨w, hw, x, hx, y, hy, z, hz, after, hafter, h⟩ := h
      obtain ⟨-, rfl⟩ := symbolValue?_eq_some hw
      obtain ⟨hxlt, rfl⟩ := symbolValue?_eq_some hx
      obtain ⟨hylt, rfl⟩ := symbolValue?_eq_some hy
      obtain ⟨hzlt, rfl⟩ := symbolValue?_eq_some hz
      cases h
      rw [encode_group hxlt hylt hzlt, ih hafter]
    · exact hrest
  | case4 text hnil hlast hgroup =>
    rw [decode?] at h
    · cases h
    all_goals assumption

/-- **Texts and byte strings determine each other.** -/
theorem decode?_eq_some_iff {text : List Char} {bytes : Bytes} :
    decode? text = some bytes ↔ text = encode bytes := by
  constructor
  · exact fun h => (encode_of_decode? h).symm
  · rintro rfl
    exact decode?_encode bytes

end TensorJit.Text.Base64
