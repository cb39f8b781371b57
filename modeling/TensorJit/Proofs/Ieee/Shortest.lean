import Mathlib.Algebra.Order.Field.Power
import Mathlib.Algebra.Order.Field.Rat
import Mathlib.Tactic.FieldSimp
import Mathlib.Tactic.Linarith
import TensorJit.Ieee.Shortest
import TensorJit.Proofs.Text.Decimal

/-!
# What a shortest decimal says

The text of a floating-point word tells which word it is (`Format.render_eq_iff`), except that all
words that are no number have one text. The text of a decimal reads back as the decimal, whatever its
layout (`Decimal.read_render`), and the decimal lies in the rounding interval of its word
(`Format.contains_render`), however the search for it went.

What is left is that **the rounding intervals of different words have no number in common**
(`Format.eq_of_contains`). They lie end to end (`Format.high_interval`), also where the distance of
neighbours doubles, so two of them have an end in common at most; and of two neighbours only the one
with the even significand has its ends.
-/

namespace TensorJit

/-! ### Reading -/

namespace Ieee

/-- The number that a decimal stands for. -/
def Decimal.value (d : Decimal) : ℚ := d.digits * 10 ^ d.exponent

/-- The number that a text of digits stands for, with a point and an exponent if there are any. -/
def Decimal.read (text : List Char) : ℚ :=
  let mantissa := text.takeWhile (· ≠ 'e')
  let fraction := (mantissa.dropWhile (· ≠ '.')).drop 1
  Text.natOfDigits (mantissa.filter (· ≠ '.')) *
    10 ^ (Text.intOfDigits ((text.dropWhile (· ≠ 'e')).drop 1) - (fraction.length : ℤ))

/-- Nothing but digits. -/
def AllDigits (text : List Char) : Prop := ∀ c ∈ text, c.isDigit = true

theorem AllDigits.append {a b : List Char} (ha : AllDigits a) (hb : AllDigits b) :
    AllDigits (a ++ b) := fun c hc => (List.mem_append.1 hc).elim (ha c) (hb c)

theorem AllDigits.of_subset {a b : List Char} (hb : AllDigits b) (h : a ⊆ b) : AllDigits a :=
  fun c hc => hb c (h hc)

theorem allDigits_replicate (n : Nat) : AllDigits (List.replicate n '0') :=
  fun _ hc => (List.eq_of_mem_replicate hc) ▸ by decide

theorem allDigits_natDigits (n : Nat) : AllDigits (Text.natDigits n) :=
  fun _ => Text.isDigit_of_mem_natDigits

theorem AllDigits.ne {a : List Char} (ha : AllDigits a) {c d : Char} (hd : d.isDigit = false)
    (hc : c ∈ a) : c ≠ d := by
  rintro rfl
  rw [ha c hc] at hd
  cases hd

namespace Decimal

variable {whole point fraction exponent : List Char}

/-- **The parts of a text**: digits, a point with more digits behind it if there are any, and an
exponent if there is one. -/
theorem read_eq (hwhole : AllDigits whole) (hfraction : AllDigits fraction)
    (hpoint : point = '.' :: fraction ∨ point = [] ∧ fraction = [])
    (hexponent : exponent = [] ∨ ∃ i, exponent = 'e' :: Text.intDigits i) :
    read (whole ++ point ++ exponent) = Text.natOfDigits (whole ++ fraction) *
      10 ^ (Text.intOfDigits (exponent.drop 1) - (fraction.length : ℤ)) := by
  -- The mantissa has no exponent mark in it, so the text splits at the first one.
  have hmantissa : ∀ c ∈ whole ++ point, (decide (c ≠ 'e')) = true := by
    intro c hc
    refine decide_eq_true ?_
    rcases List.mem_append.1 hc with hc | hc
    · exact hwhole.ne (by decide) hc
    · rcases hpoint with rfl | ⟨rfl, -⟩
      · rcases List.mem_cons.1 hc with rfl | hc
        · decide
        · exact hfraction.ne (by decide) hc
      · cases hc
  have htake : (whole ++ point ++ exponent).takeWhile (· ≠ 'e') = whole ++ point := by
    rw [List.takeWhile_append_of_pos hmantissa]
    rcases hexponent with rfl | ⟨i, rfl⟩
    · exact List.append_nil _
    · exact List.append_nil _
  have hdrop : (whole ++ point ++ exponent).dropWhile (· ≠ 'e') = exponent := by
    rw [List.dropWhile_append_of_pos hmantissa]
    rcases hexponent with rfl | ⟨i, rfl⟩
    · rfl
    · rfl
  have hfilter : ∀ {a : List Char}, AllDigits a → a.filter (· ≠ '.') = a := fun ha =>
    List.filter_eq_self.2 fun c hc => decide_eq_true (ha.ne (by decide) hc)
  have hdigits : (whole ++ point).filter (· ≠ '.') = whole ++ fraction := by
    rw [List.filter_append, hfilter hwhole]
    rcases hpoint with rfl | ⟨rfl, rfl⟩
    · rw [List.filter_cons_of_neg (by decide), hfilter hfraction]
    · rfl
  have hplaces : ((whole ++ point).dropWhile (· ≠ '.')).drop 1 = fraction := by
    rw [List.dropWhile_append_of_pos fun c hc => decide_eq_true (hwhole.ne (by decide) hc)]
    rcases hpoint with rfl | ⟨rfl, rfl⟩
    · rfl
    · rfl
  unfold read
  simp only [htake, hdrop, hdigits, hplaces]

theorem read_layoutPositional {digits : List Char} (hdigits : AllDigits digits) (power : Int) :
    read (layoutPositional digits power) =
      Text.natOfDigits digits * 10 ^ (power + 1 - (digits.length : ℤ)) := by
  have hzero : AllDigits ['0'] := allDigits_replicate 1
  unfold layoutPositional
  split
  · rename_i hnegative
    -- The number is less than one: zeros fill the places between the point and the digits.
    have hzeros := allDigits_replicate (-power - 1).toNat
    have := read_eq hzero (hzeros.append hdigits) (.inl rfl) (.inl rfl)
    rw [List.append_nil] at this
    refine this.trans ?_
    rw [List.singleton_append, ← List.cons_append, ← List.replicate_succ, Text.natOfDigits_append,
      Text.natOfDigits_replicate, Nat.zero_mul, Nat.zero_add, List.length_append,
      List.length_replicate]
    congr 2
    simp only [List.drop_nil]
    change (0 : Int) - _ = _
    push_cast
    rw [Int.toNat_of_nonneg (by omega)]
    omega
  · rename_i hnonnegative
    dsimp only
    have hwhole : AllDigits (digits.take (power.toNat + 1) ++
        List.replicate (power.toNat + 1 - digits.length) '0') :=
      (hdigits.of_subset (List.take_subset ..)).append (allDigits_replicate _)
    have hcast : (power.toNat : ℤ) = power := Int.toNat_of_nonneg (by omega)
    split
    · -- The digits end in front of the point.
      rename_i hempty
      have hle : digits.length ≤ power.toNat + 1 := by
        rwa [List.isEmpty_iff, List.drop_eq_nil_iff] at hempty
      have := read_eq hwhole hzero (.inl rfl) (.inl rfl)
      rw [List.append_nil] at this
      refine this.trans ?_
      rw [List.take_of_length_le hle, List.append_assoc, ← List.replicate_succ', Text.natOfDigits_append,
        Text.natOfDigits_replicate, List.length_replicate, Nat.add_zero]
      push_cast
      rw [mul_assoc, ← zpow_natCast, ← zpow_add₀ (by norm_num)]
      congr 2
      change _ + ((0 : Int) - _) = _
      push_cast [Nat.cast_sub hle]
      simp only [List.length_singleton]
      omega
    · -- The point stands among the digits.
      rename_i hnonempty
      have hlt : power.toNat + 1 < digits.length := by
        rw [List.isEmpty_iff, List.drop_eq_nil_iff] at hnonempty
        omega
      have := read_eq hwhole (hdigits.of_subset (List.drop_subset (power.toNat + 1) _)) (.inl rfl)
        (.inl rfl)
      rw [List.append_nil] at this
      refine this.trans ?_
      rw [Nat.sub_eq_zero_of_le (Nat.le_of_lt hlt), List.replicate_zero, List.append_nil,
        List.take_append_drop, List.length_drop]
      congr 2
      change (0 : Int) - _ = _
      push_cast [Nat.cast_sub (Nat.le_of_lt hlt)]
      omega

theorem read_layoutScientific {digits : List Char} (hdigits : AllDigits digits)
    (hne : digits ≠ []) (power : Int) : read (layoutScientific digits power) =
      Text.natOfDigits digits * 10 ^ (power + 1 - (digits.length : ℤ)) := by
  unfold layoutScientific
  dsimp only
  have hpoint : ∀ fraction : List Char, (if fraction.isEmpty then [] else '.' :: fraction) =
      '.' :: fraction ∨ (if fraction.isEmpty then [] else '.' :: fraction) = [] ∧ fraction = [] := by
    intro fraction
    cases fraction with
    | nil => exact .inr ⟨rfl, rfl⟩
    | cons c rest => exact .inl rfl
  refine (read_eq (hdigits.of_subset (List.take_subset ..)) (hdigits.of_subset (List.drop_subset ..))
    (hpoint _) (.inr ⟨power, rfl⟩)).trans ?_
  rw [List.take_append_drop, List.drop_succ_cons, List.drop_zero, Text.intOfDigits_intDigits,
    List.length_drop]
  congr 2
  have := List.length_pos_iff.2 hne
  push_cast [Nat.cast_sub this]
  omega

/-- **A decimal is read back from its text.** -/
theorem read_render (d : Decimal) : read d.render = d.value := by
  have hdigits := allDigits_natDigits d.digits
  have hne := Text.natDigits_ne_nil d.digits
  have hvalue : Text.natOfDigits (Text.natDigits d.digits) *
      (10 : ℚ) ^ (d.exponent + ((Text.natDigits d.digits).length : ℤ) - 1 + 1 -
        ((Text.natDigits d.digits).length : ℤ)) = d.value := by
    rw [Text.natOfDigits_natDigits, sub_add_cancel, add_sub_cancel_right]
    rfl
  unfold render
  dsimp only
  split
  · exact (read_layoutPositional hdigits _).trans hvalue
  · exact (read_layoutScientific hdigits hne _).trans hvalue

end Decimal

/-! ### The numbers that round to a datum -/

namespace RoundingInterval

variable {i : RoundingInterval}

/-- Whether a number rounds to the datum of an interval. -/
def Contains (i : RoundingInterval) (x : ℚ) : Prop :=
  if i.closed then i.low ≤ x * i.denominator ∧ x * i.denominator ≤ i.high
  else i.low < x * i.denominator ∧ x * i.denominator < i.high

theorem holds_iff {place : Int} {digits : Nat} :
    i.holds place digits = true ↔ i.Contains (digits * 10 ^ place) := by
  obtain ⟨up, hup⟩ : ∃ up, up = 10 ^ (-place).toNat := ⟨_, rfl⟩
  obtain ⟨down, hdown⟩ : ∃ down, down = 10 ^ place.toNat := ⟨_, rfl⟩
  have hpos : (0 : ℚ) < (up : ℚ) := by
    rw [hup]
    positivity
  have hscale : (10 : ℚ) ^ place * up = down := by
    rw [hup, hdown]
    push_cast
    rw [← zpow_natCast, ← zpow_natCast, ← zpow_add₀ (by norm_num)]
    congr 1
    omega
  -- Everything is multiplied by the factor of the datum.
  have hpoint : (digits * (10 : ℚ) ^ place * i.denominator) * up =
      ((digits * (i.denominator * down) : Nat) : ℚ) := by
    push_cast
    rw [← hscale]
    ring
  have hle : ∀ n : Nat, ((n : ℚ) ≤ digits * (10 : ℚ) ^ place * i.denominator ↔
      n * up ≤ digits * (i.denominator * down)) ∧
      ((digits * (10 : ℚ) ^ place * i.denominator) ≤ n ↔ digits * (i.denominator * down) ≤ n * up) := by
    intro n
    constructor
    · rw [← mul_le_mul_iff_left₀ hpos, hpoint]
      exact_mod_cast Iff.rfl
    · rw [← mul_le_mul_iff_left₀ hpos, hpoint]
      exact_mod_cast Iff.rfl
  unfold holds Contains factors
  dsimp only
  rw [Nat.pow_eq, Nat.pow_eq, ← hup, ← hdown]
  split
  · rw [Bool.and_eq_true, decide_eq_true_eq, decide_eq_true_eq, (hle _).1, (hle _).2]
  · rw [Bool.and_eq_true, decide_eq_true_eq, decide_eq_true_eq, ← not_le, ← not_le, ← not_le,
      ← not_le, (hle _).1, (hle _).2]

theorem contains_of_hit? {place : Int} {d : Decimal} (h : i.hit? place = some d) :
    i.Contains d.value := by
  unfold hit? at h
  dsimp only at h
  generalize i.value * (factors place).1 / (i.denominator * (factors place).2) = below at h
  cases hbelow : i.holds place below with
  | false =>
    cases habove : i.holds place (below + 1) with
    | false =>
      rw [hbelow, habove] at h
      cases h
    | true =>
      rw [hbelow, habove] at h
      cases h
      exact holds_iff.1 habove
  | true =>
    cases habove : i.holds place (below + 1) with
    | false =>
      rw [hbelow, habove] at h
      cases h
      exact holds_iff.1 hbelow
    | true =>
      rw [hbelow, habove] at h
      dsimp only at h
      split at h
      · cases h
        exact holds_iff.1 hbelow
      · cases h
        exact holds_iff.1 habove

theorem contains_of_search {count : Nat} {place : Int} {d : Decimal}
    (h : i.search count place = some d) : i.Contains d.value := by
  induction count generalizing place with
  | zero => cases h
  | succ count ih =>
    unfold search at h
    split at h
    · rename_i hit
      cases h
      exact contains_of_hit? hit
    · exact ih h

/-- The datum itself, if its denominator is a power of two. -/
theorem value_exact {places : Nat} (h : i.denominator = 2 ^ places) :
    i.exact.value * i.denominator = i.value := by
  unfold exact Decimal.value
  dsimp only
  rw [h, Nat.log2_two_pow, Nat.pow_eq, zpow_neg, zpow_natCast]
  push_cast
  have hten : (10 : ℚ) ^ places = 5 ^ places * 2 ^ places := by
    rw [← mul_pow]
    norm_num
  rw [hten]
  field_simp

/-- **The shortest decimal rounds to the datum.** -/
theorem contains_shortest {places : Nat} (hdenominator : i.denominator = 2 ^ places)
    (hlow : i.low < i.value) (hhigh : i.value < i.high) : i.Contains i.shortest.value := by
  have hexact : i.Contains i.exact.value := by
    have hlow' : (i.low : ℚ) < i.value := by exact_mod_cast hlow
    have hhigh' : (i.value : ℚ) < i.high := by exact_mod_cast hhigh
    unfold Contains
    rw [value_exact hdenominator]
    split
    · exact ⟨hlow'.le, hhigh'.le⟩
    · exact ⟨hlow', hhigh'⟩
  have hfound : i.Contains ((i.search maxDigits i.leadingPlace).getD i.exact).value := by
    cases hsearch : i.search maxDigits i.leadingPlace with
    | none => exact hexact
    | some d => exact contains_of_search hsearch
  unfold shortest
  generalize (i.search maxDigits i.leadingPlace).getD i.exact = d at hfound ⊢
  dsimp only
  split
  · rename_i hzero
    have : Decimal.value ⟨d.digits / 10, d.exponent + 1⟩ = d.value := by
      unfold Decimal.value
      have hdigits : ((d.digits : Nat) : ℚ) = ((10 * (d.digits / 10) : Nat) : ℚ) := by
        rw [Nat.mul_div_cancel' (Nat.dvd_of_mod_eq_zero hzero)]
      rw [hdigits, zpow_add_one₀ (by norm_num)]
      push_cast
      ring
    rwa [this]
  · exact hfound

end RoundingInterval

/-! ### Intervals lie end to end -/

namespace Format

variable {f : Format}

/-- A significand has more than one bit, as in the formats in use. -/
def Wide (f : Format) : Prop := 2 ≤ f.precision

instance (f : Format) : Decidable f.Wide := inferInstanceAs (Decidable (_ ≤ _))

theorem two_dvd_hidden (h : f.Wide) : 2 ∣ f.hidden := by
  unfold Wide at h
  rw [hidden, Nat.one_shiftLeft]
  exact dvd_pow_self 2 (by omega)

theorem hidden_pos (f : Format) : 0 < f.hidden := by
  rw [hidden, Nat.one_shiftLeft]
  exact Nat.two_pow_pos _

theorem scaled_of_lt {bits : Nat} (h : bits < f.hidden) : f.scaled bits = (bits, 0) := by
  unfold scaled
  rw [Nat.div_eq_of_lt h]
  rfl

theorem scaled_of_ge (f : Format) (e : Nat) {x : Nat} (hx : x < f.hidden) :
    f.scaled ((e + 1) * f.hidden + x) = (f.hidden + x, e) := by
  have hdiv : ((e + 1) * f.hidden + x) / f.hidden = e + 1 := by
    rw [Nat.mul_comm, Nat.mul_add_div f.hidden_pos, Nat.div_eq_of_lt hx, Nat.add_zero]
  have hmod : ((e + 1) * f.hidden + x) % f.hidden = x := by
    rw [Nat.mul_comm, Nat.mul_add_mod, Nat.mod_eq_of_lt hx]
  unfold scaled
  dsimp only
  rw [hdiv, hmod]
  rfl

/-- The low bits of a datum are a fraction alone, or an exponent and a fraction. -/
theorem bits_cases (f : Format) (bits : Nat) :
    bits < f.hidden ∨ ∃ e x, x < f.hidden ∧ bits = (e + 1) * f.hidden + x := by
  rcases Nat.lt_or_ge bits f.hidden with hlt | hge
  · exact .inl hlt
  · have hdiv : 1 ≤ bits / f.hidden := (Nat.one_le_div_iff f.hidden_pos).2 hge
    refine .inr ⟨bits / f.hidden - 1, bits % f.hidden, Nat.mod_lt _ f.hidden_pos, ?_⟩
    rw [Nat.sub_add_cancel hdiv, Nat.mul_comm, Nat.div_add_mod]

/-- **Where an interval ends, the next begins.** -/
theorem high_interval (h : f.Wide) (bits : Nat) :
    (f.interval bits).high = (f.interval (bits + 1)).low := by
  have hpos := f.hidden_pos
  have htwo := Nat.le_of_dvd hpos (two_dvd_hidden h)
  unfold interval
  simp only [Nat.shiftLeft_eq]
  rcases f.bits_cases bits with hlt | ⟨e, x, hx, rfl⟩
  · rw [scaled_of_lt hlt]
    rcases Nat.lt_or_ge (bits + 1) f.hidden with hnext | hnext
    · rw [scaled_of_lt hnext, if_neg (by omega)]
      dsimp only
      omega
    · -- The first datum with an exponent has the unit of those without.
      have : bits + 1 = (0 + 1) * f.hidden + 0 := by omega
      rw [this, scaled_of_ge f 0 hpos, if_neg (by omega)]
      dsimp only
      omega
  · rw [scaled_of_ge f e hx]
    rcases Nat.lt_or_ge (x + 1) f.hidden with hnext | hnext
    · rw [Nat.add_assoc, scaled_of_ge f e hnext, if_neg (by omega)]
      dsimp only
      congr 1
    · -- At a power of two the unit doubles.
      have : (e + 1) * f.hidden + x + 1 = (e + 1 + 1) * f.hidden + 0 := by
        rw [Nat.succ_mul (e + 1)]
        omega
      rw [this, scaled_of_ge f (e + 1) hpos, if_pos ⟨rfl, Nat.succ_ne_zero e⟩]
      dsimp only
      rw [Nat.pow_succ, Nat.mul_comm (2 ^ e) 2, ← Nat.mul_assoc]
      congr 1
      omega

theorem low_lt_high (f : Format) (bits : Nat) : (f.interval bits).low < (f.interval bits).high := by
  unfold interval
  simp only [Nat.shiftLeft_eq]
  refine Nat.mul_lt_mul_of_pos_right ?_ (Nat.two_pow_pos _)
  split <;> omega

theorem strictMono_low (h : f.Wide) : StrictMono fun bits => (f.interval bits).low :=
  strictMono_nat_of_lt_succ fun bits => by
    rw [← high_interval h]
    exact f.low_lt_high bits

/-- The ends of an interval belong to it if the bits are even. -/
theorem closed_interval (h : f.Wide) (bits : Nat) :
    (f.interval bits).closed = decide (bits % 2 = 0) := by
  obtain ⟨half, hhalf⟩ := two_dvd_hidden h
  have hparity : (f.scaled bits).1 % 2 = bits % 2 := by
    rcases f.bits_cases bits with hlt | ⟨e, x, hx, rfl⟩
    · rw [scaled_of_lt hlt]
    · rw [scaled_of_ge f e hx, hhalf, Nat.mul_left_comm]
      dsimp only
      rw [Nat.mul_add_mod, Nat.mul_add_mod]
  unfold interval
  dsimp only
  rw [hparity]

/-- **No number rounds to two data.** -/
theorem eq_of_contains (h : f.Wide) {a b : Nat} {x : ℚ} (ha : (f.interval a).Contains x)
    (hb : (f.interval b).Contains x) : a = b := by
  -- Of two intervals, the lower one ends where the upper one begins or before.
  have hlt : ∀ {a b : Nat}, (f.interval a).Contains x → (f.interval b).Contains x → ¬ a < b := by
    intro a b ha hb hab
    have hends : (f.interval a).high ≤ (f.interval b).low := by
      rw [high_interval h]
      exact (strictMono_low h).monotone hab
    have hcast : ((f.interval a).high : ℚ) ≤ (f.interval b).low := by exact_mod_cast hends
    have hden : (f.interval b).denominator = (f.interval a).denominator := rfl
    unfold RoundingInterval.Contains at ha hb
    rw [hden] at hb
    cases hac : (f.interval a).closed with
    | false =>
      rw [hac, if_neg Bool.false_ne_true] at ha
      split at hb
      · linarith [ha.2, hb.1]
      · linarith [ha.2, hb.1]
    | true =>
      rw [hac, if_pos rfl] at ha
      cases hbc : (f.interval b).closed with
      | false =>
        rw [hbc, if_neg Bool.false_ne_true] at hb
        linarith [ha.2, hb.1]
      | true =>
        -- They meet in a common end, so they are neighbours, of which only one is closed.
        rw [hbc, if_pos rfl] at hb
        have hmeet : ((f.interval b).low : ℚ) = (f.interval (a + 1)).low := by
          rw [← high_interval h]
          linarith [ha.2, hb.1]
        have hnext : b = a + 1 := (strictMono_low h).injective (by exact_mod_cast hmeet)
        rw [closed_interval h, decide_eq_true_eq] at hac hbc
        omega
  rcases Nat.lt_trichotomy a b with hab | hab | hab
  · exact absurd hab (hlt ha hb)
  · exact hab
  · exact absurd hab (hlt hb ha)

/-! ### Words -/

/-- **The text of a positive datum stands for a number that rounds to it.** -/
theorem contains_render (f : Format) {bits : Nat} (hbits : bits ≠ 0) :
    (f.interval bits).Contains (Decimal.read (f.interval bits).shortest.render) := by
  rw [Decimal.read_render]
  have hsignificand : 0 < (f.scaled bits).1 := by
    rcases f.bits_cases bits with hlt | ⟨e, x, hx, rfl⟩
    · rw [scaled_of_lt hlt]
      exact Nat.pos_of_ne_zero hbits
    · rw [scaled_of_ge f e hx]
      exact Nat.lt_of_lt_of_le f.hidden_pos (Nat.le_add_right _ _)
  have hdenominator : (f.interval bits).denominator = 2 ^ (2 + f.unitExponent) :=
    (Nat.shiftLeft_eq 4 _).trans (Nat.pow_add 2 2 _).symm
  refine RoundingInterval.contains_shortest hdenominator ?_ ?_
  · unfold interval
    simp only [Nat.shiftLeft_eq]
    refine Nat.mul_lt_mul_of_pos_right ?_ (Nat.two_pow_pos _)
    split <;> omega
  · unfold interval
    simp only [Nat.shiftLeft_eq]
    exact Nat.mul_lt_mul_of_pos_right (by omega) (Nat.two_pow_pos _)

end Format

/-- The text of a decimal begins with a digit. -/
theorem Decimal.render_eq_cons (d : Decimal) : ∃ c rest, d.render = c :: rest ∧ c.isDigit = true := by
  have hdigits := allDigits_natDigits d.digits
  obtain ⟨c, rest, hcons⟩ := List.exists_cons_of_ne_nil (Text.natDigits_ne_nil d.digits)
  rw [hcons] at hdigits
  have hc : c.isDigit = true := hdigits c List.mem_cons_self
  unfold render
  dsimp only
  rw [hcons]
  split
  · unfold layoutPositional
    split
    · exact ⟨'0', _, rfl, by decide⟩
    · exact ⟨c, _, rfl, hc⟩
  · exact ⟨c, _, rfl, hc⟩

namespace Format

variable {f : Format}

/-- The text of a magnitude. -/
def magnitudeText (f : Format) (bits : Nat) : List Char :=
  if bits = f.infinity then "inf".toList
  else if bits = 0 then "0.0".toList
  else (f.interval bits).shortest.render

theorem magnitude_eq_zero_iff (f : Format) {bits : Nat} :
    (f.scaled bits).1 <<< (f.scaled bits).2 = 0 ↔ bits = 0 := by
  rw [Nat.shiftLeft_eq]
  rcases f.bits_cases bits with hlt | ⟨e, x, hx, rfl⟩
  · rw [scaled_of_lt hlt, Nat.pow_zero, Nat.mul_one]
  · have hpos := f.hidden_pos
    rw [scaled_of_ge f e hx]
    have hleft : 0 < (f.hidden + x) * 2 ^ e := Nat.mul_pos (by omega) (Nat.two_pow_pos _)
    have hright : 0 < (e + 1) * f.hidden + x :=
      Nat.lt_of_lt_of_le (Nat.mul_pos (Nat.succ_pos e) hpos) (Nat.le_add_right _ _)
    exact ⟨fun h => absurd h (Nat.ne_of_gt hleft), fun h => absurd h (Nat.ne_of_gt hright)⟩

/-- The text of a word is a sign and the text of its magnitude. -/
theorem render_eq (f : Format) {word : Nat} (h : f.decode word ≠ .nan) :
    word % f.signBit ≤ f.infinity ∧
      f.render word = (if f.signBit ≤ word then ['-'] else []) ++
        f.magnitudeText (word % f.signBit) := by
  unfold decode at h
  unfold render decode magnitudeText
  dsimp only at h ⊢
  split at h
  · exact absurd rfl h
  · rename_i hle
    refine ⟨Nat.le_of_not_lt hle, ?_⟩
    rw [if_neg hle]
    by_cases hinfinite : word % f.signBit = f.infinity
    · rw [if_pos hinfinite, if_pos hinfinite]
      dsimp only
      congr 1
      exact if_congr decide_eq_true_iff rfl rfl
    · rw [if_neg hinfinite, if_neg hinfinite]
      dsimp only
      rw [if_congr (f.magnitude_eq_zero_iff) rfl rfl]
      congr 1
      exact if_congr decide_eq_true_iff rfl rfl

/-- The text of a magnitude begins neither with a sign nor with a capital. -/
theorem magnitudeText_eq_cons (f : Format) (bits : Nat) : ∃ c rest,
    f.magnitudeText bits = c :: rest ∧ c ≠ '-' ∧ c ≠ 'N' ∧ (bits = f.infinity ↔ c = 'i') := by
  unfold magnitudeText
  split
  · rename_i h
    exact ⟨'i', _, rfl, by decide, by decide, iff_of_true h rfl⟩
  · rename_i h
    have hdigit : ∀ {c d : Char}, c.isDigit = true → d.isDigit = false → c ≠ d := by
      rintro c d hc hd rfl
      rw [hc] at hd
      cases hd
    have hcons : ∀ {c : Char} {rest : List Char}, c.isDigit = true → ∃ c' rest',
        c :: rest = c' :: rest' ∧ c' ≠ '-' ∧ c' ≠ 'N' ∧ (bits = f.infinity ↔ c' = 'i') :=
      fun hc => ⟨_, _, rfl, hdigit hc (by decide), hdigit hc (by decide),
        iff_of_false h (hdigit hc (by decide))⟩
    split
    · exact hcons (c := '0') (by decide)
    · obtain ⟨c, rest, hrender, hc⟩ := Decimal.render_eq_cons (f.interval bits).shortest
      rw [hrender]
      exact hcons hc

/-- **The text of a magnitude tells the magnitude.** -/
theorem magnitudeText_injective (h : f.Wide) : Function.Injective f.magnitudeText := by
  have hcontains : ∀ {bits : Nat}, bits ≠ f.infinity →
      (f.interval bits).Contains (Decimal.read (f.magnitudeText bits)) := by
    intro bits hbits
    unfold magnitudeText
    rw [if_neg hbits]
    split
    · rename_i hzero
      subst hzero
      have hread : Decimal.read "0.0".toList = 0 := by
        rw [show "0.0".toList = Decimal.render ⟨0, 0⟩ from by decide, Decimal.read_render]
        exact zero_mul _
      unfold RoundingInterval.Contains
      rw [hread, closed_interval h, zero_mul]
      have hlow : (f.interval 0).low = 0 := by
        unfold interval
        rw [scaled_of_lt f.hidden_pos]
        dsimp only
        omega
      rw [if_pos (by decide), hlow]
      exact ⟨Nat.cast_nonneg 0, Nat.cast_nonneg _⟩
    · rename_i hzero
      exact f.contains_render hzero
  intro a b hab
  obtain ⟨c, rest, hc, -, -, hinfinite⟩ := f.magnitudeText_eq_cons a
  obtain ⟨d, rest', hd, -, -, hinfinite'⟩ := f.magnitudeText_eq_cons b
  obtain ⟨rfl, rfl⟩ := List.cons.inj (hc.symm.trans (hab.trans hd))
  by_cases ha : a = f.infinity
  · rw [ha, hinfinite'.2 (hinfinite.1 ha)]
  · have hb : b ≠ f.infinity := fun hb => ha (hinfinite.2 (hinfinite'.1 hb))
    exact eq_of_contains h (hcontains ha) (hab ▸ hcontains hb)

/-- The text of a word that is a number differs from that of one that is not. -/
theorem render_ne_nan (f : Format) {word : Nat} (h : f.decode word ≠ .nan) :
    f.render word ≠ "NaN".toList := by
  obtain ⟨c, rest, hcons, -, hN, -⟩ := f.magnitudeText_eq_cons (word % f.signBit)
  rw [(f.render_eq h).2, hcons]
  intro heq
  split at heq
  · exact absurd (List.cons.inj heq).1 (by decide)
  · exact hN (List.cons.inj heq).1

theorem render_of_nan {word : Nat} (h : f.decode word = .nan) : f.render word = "NaN".toList := by
  unfold render
  rw [h]

/-- **Two words have one text if they are equal or both are no number.** -/
theorem render_eq_iff (h : f.Wide) {a b : Nat} (ha : a < 2 * f.signBit) (hb : b < 2 * f.signBit) :
    f.render a = f.render b ↔ a = b ∨ f.decode a = .nan ∧ f.decode b = .nan := by
  constructor
  · intro heq
    by_cases hanan : f.decode a = .nan
    · by_cases hbnan : f.decode b = .nan
      · exact .inr ⟨hanan, hbnan⟩
      · exact absurd (heq.symm.trans (render_of_nan hanan)) (f.render_ne_nan hbnan)
    · by_cases hbnan : f.decode b = .nan
      · exact absurd (heq.trans (render_of_nan hbnan)) (f.render_ne_nan hanan)
      · obtain ⟨c, rest, hc, hcsign, -⟩ := f.magnitudeText_eq_cons (a % f.signBit)
        obtain ⟨d, rest', hd, hdsign, -⟩ := f.magnitudeText_eq_cons (b % f.signBit)
        rw [(f.render_eq hanan).2, (f.render_eq hbnan).2] at heq
        have hsign : f.signBit ≤ a ↔ f.signBit ≤ b := by
          by_cases hsa : f.signBit ≤ a
          · by_cases hsb : f.signBit ≤ b
            · exact iff_of_true hsa hsb
            · rw [if_pos hsa, if_neg hsb, hd] at heq
              exact absurd (List.cons.inj heq).1.symm hdsign
          · by_cases hsb : f.signBit ≤ b
            · rw [if_neg hsa, if_pos hsb, hc] at heq
              exact absurd (List.cons.inj heq).1 hcsign
            · exact iff_of_false hsa hsb
        rw [if_congr hsign rfl rfl] at heq
        have hbits := magnitudeText_injective h (List.append_cancel_left heq)
        refine .inl ?_
        by_cases hsa : f.signBit ≤ a
        · have hsb := hsign.1 hsa
          rw [Nat.mod_eq_sub_mod hsa, Nat.mod_eq_sub_mod hsb, Nat.mod_eq_of_lt (by omega),
            Nat.mod_eq_of_lt (by omega)] at hbits
          omega
        · have hsb := mt hsign.2 hsa
          rwa [Nat.mod_eq_of_lt (by omega), Nat.mod_eq_of_lt (by omega)] at hbits
  · rintro (rfl | ⟨ha, hb⟩)
    · rfl
    · rw [render_of_nan ha, render_of_nan hb]

end Format

end Ieee

end TensorJit
