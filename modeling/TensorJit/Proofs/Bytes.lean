import Mathlib.Algebra.Group.Nat.Defs
import Mathlib.Data.List.Basic
import TensorJit.Bytes

/-!
# Numbers and stretches

As many bytes spell different numbers if they differ, unsigned (`Bytes.eq_of_toNat_eq`) and in two's
complement (`Bytes.eq_of_toInt_eq`), so **a number of known width is as good as its bytes**. The
stretches of a string that they fill have all the same length (`Bytes.length_of_mem_stretches`).
-/

namespace TensorJit.Bytes

theorem toNat_lt (bytes : Bytes) : bytes.toNat < 256 ^ bytes.length := by
  induction bytes with
  | nil => exact Nat.one_pos
  | cons b rest ih =>
    have hb := b.toNat_lt
    rw [toNat, List.length_cons, Nat.pow_succ]
    omega

/-- A number below `256 ^ width` is read back from its `width` bytes. -/
theorem toNat_ofNat {width n : Nat} (h : n < 256 ^ width) : toNat (ofNat width n) = n := by
  induction width generalizing n with
  | zero => simp only [Nat.pow_zero] at h; simp [ofNat, toNat]; omega
  | succ width ih =>
    have h' : n / 256 < 256 ^ width := by
      rw [Nat.pow_succ] at h
      exact Nat.div_lt_of_lt_mul (by omega)
    simp only [ofNat, toNat, ih h', UInt8.toNat_ofNat']
    omega

/-- Bytes are as many as their number is made from. -/
theorem ofNat_toNat (bytes : Bytes) : ofNat bytes.length bytes.toNat = bytes := by
  induction bytes with
  | nil => rfl
  | cons b rest ih =>
    have hb := b.toNat_lt
    have hlow : UInt8.ofNat (b.toNat + 256 * toNat rest) = b := by
      refine UInt8.toNat_inj.1 ?_
      rw [UInt8.toNat_ofNat']
      omega
    have hhigh : (b.toNat + 256 * toNat rest) / 256 = toNat rest := by omega
    rw [List.length_cons, toNat, ofNat, hlow, hhigh, ih]

/-- **The number tells the bytes**, if their number is known. -/
theorem eq_of_toNat_eq {a b : Bytes} (hlength : a.length = b.length) (h : a.toNat = b.toNat) :
    a = b := by
  rw [← ofNat_toNat a, ← ofNat_toNat b, hlength, h]

/-- The same in two's complement. -/
theorem eq_of_toInt_eq {a b : Bytes} (hlength : a.length = b.length) (h : a.toInt = b.toInt) :
    a = b := by
  refine eq_of_toNat_eq hlength ?_
  have hwidth : ∀ c : Bytes, c.toNat < 1 <<< (8 * c.length) := fun c => by
    rw [Nat.one_shiftLeft, Nat.pow_mul]
    exact c.toNat_lt
  have hmod : ∀ c : Bytes, c.toInt % ((1 <<< (8 * c.length) : Nat) : Int) = c.toNat := fun c => by
    unfold toInt
    rw [Int.bmod_emod]
    exact Int.emod_eq_of_lt (Int.natCast_nonneg _) (by exact_mod_cast hwidth c)
  have ha := hmod a
  rw [h, hlength, hmod b] at ha
  exact_mod_cast ha.symm

/-- Stretches that the bytes fill have their full width. -/
theorem length_of_mem_stretches {width count : Nat} {bytes : Bytes}
    (h : width * count ≤ bytes.length) : ∀ b ∈ stretches width count bytes, b.length = width := by
  induction count generalizing bytes with
  | zero => exact nofun
  | succ count ih =>
    rw [Nat.mul_succ] at h
    intro b hb
    rcases List.mem_cons.1 hb with rfl | hb
    · rw [List.length_take]
      omega
    · exact ih (by rw [List.length_drop]; omega) b hb

theorem length_of_mem_chunks {width : Nat} {bytes : Bytes} : ∀ b ∈ chunks width bytes,
    b.length = width :=
  length_of_mem_stretches (Nat.mul_div_le _ _)

end TensorJit.Bytes
