import Mathlib.Logic.Function.Basic
import Mathlib.Tactic.Ring
import TensorJit.Text.Decimal

/-!
# Reading numbers back

Numbers in decimal are read back as what they were (`Text.natOfDigits_natDigits`,
`Text.intOfDigits_intDigits`), so **different numbers have different texts**
(`Text.natDigits_injective`, `Text.intDigits_injective`). A text of a natural number consists of
digits, at least one, and begins with a zero only if the number is zero.
-/

namespace TensorJit.Text

/-- **A number is read back from its digits.** -/
theorem natOfDigits_natDigits (n : Nat) : natOfDigits (natDigits n) = n :=
  Nat.ofDigitChars_ten_toDigits

/-- Zero has a digit, too. -/
theorem natDigits_ne_nil (n : Nat) : natDigits n ≠ [] := Nat.toDigits_ne_nil

theorem isDigit_of_mem_natDigits {n : Nat} {c : Char} (h : c ∈ natDigits n) : c.isDigit = true :=
  Nat.isDigit_of_mem_toDigits (by decide) (by decide) h

/-- Only the text of zero begins with a zero. -/
theorem head?_natDigits_ne_zero {n : Nat} (h : 0 < n) : (natDigits n).head? ≠ some '0' := by
  induction n using Nat.strong_induction_on with
  | _ n ih =>
    unfold natDigits at ih ⊢
    by_cases hlt : n < 10
    · rw [Nat.toDigits_of_lt_base hlt]
      have hdigits : ∀ n < 10, 0 < n → [Nat.digitChar n].head? ≠ some '0' := by decide
      exact hdigits n hlt h
    · have hrest := ih (n / 10) (by omega) (by omega)
      obtain ⟨c, rest, hcons⟩ := List.exists_cons_of_ne_nil (natDigits_ne_nil (n / 10))
      unfold natDigits at hcons
      rw [Nat.toDigits_of_base_le (by decide) (by omega), hcons]
      rwa [hcons] at hrest

/-- Digits further left count for more. -/
theorem natOfDigits_append (a b : List Char) :
    natOfDigits (a ++ b) = natOfDigits a * 10 ^ b.length + natOfDigits b := by
  have hfrom : ∀ (b : List Char) (n : Nat),
      b.foldl (fun n c => 10 * n + digitValue c) n = n * 10 ^ b.length + natOfDigits b := by
    intro b
    induction b with
    | nil => intro n; exact (Nat.mul_one n).symm
    | cons c rest ih =>
      intro n
      unfold natOfDigits
      rw [List.foldl_cons, List.foldl_cons, ih, ih, List.length_cons]
      ring
  exact (List.foldl_append ..).trans (hfrom b _)

theorem natOfDigits_replicate (n : Nat) : natOfDigits (List.replicate n '0') = 0 := by
  induction n with
  | zero => rfl
  | succ n ih =>
    exact (natOfDigits_append ['0'] (List.replicate n '0')).trans
      (by rw [ih]; simp [natOfDigits, digitValue])

/-- The number that digits spell, a minus sign in front if it is negative. -/
def intOfDigits : List Char → Int
  | '-' :: digits => -(natOfDigits digits : Int)
  | digits => natOfDigits digits

/-- A number with a sign is read back. -/
theorem intOfDigits_intDigits (i : Int) : intOfDigits (intDigits i) = i := by
  cases i with
  | negSucc n =>
    change -(natOfDigits (natDigits (n + 1)) : Int) = _
    rw [natOfDigits_natDigits]
    rfl
  | ofNat n =>
    unfold intOfDigits intDigits
    dsimp only
    split
    · rename_i rest h
      have hd := isDigit_of_mem_natDigits (h ▸ List.mem_cons_self : '-' ∈ natDigits n)
      exact absurd hd (by decide)
    · rw [natOfDigits_natDigits]
      rfl

/-- So different numbers are written differently. -/
theorem natDigits_injective : Function.Injective natDigits :=
  Function.LeftInverse.injective natOfDigits_natDigits

theorem intDigits_injective : Function.Injective intDigits :=
  Function.LeftInverse.injective intOfDigits_intDigits

end TensorJit.Text
