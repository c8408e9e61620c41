/- Unit: MuTegra/Foundation/HighBits
   scope: general library
   digest: The highest set bit of a number: by halves of a word, by halving, and by smearing. -/

import Mathlib.Data.Nat.Bitwise
import Mathlib.Data.Nat.BinaryRec

set_option autoImplicit false
set_option relaxedAutoImplicit false

namespace MuTegra.Foundation.HighBits

theorem log2_shiftRight_one {n : ℕ} (h : 2 ≤ n) : n.log2 = (n >>> 1).log2 + 1 := by
  apply Nat.log2_eq_succ_log2_shiftRight
  rw [Nat.shiftRight_eq_div_pow]
  omega

/-- A number that reaches above its low `k` bits has its highest set bit there. -/
theorem log2_of_high {n k : ℕ} (h : n >>> k ≠ 0) : n.log2 = k + (n >>> k).log2 := by
  rw [Nat.shiftRight_eq_div_pow] at h ⊢
  have hpos := Nat.two_pow_pos k
  have hn : n ≠ 0 := by
    rintro rfl
    exact h (Nat.zero_div _)
  rw [Nat.log2_eq_iff hn]
  constructor
  · rw [Nat.pow_add, Nat.mul_comm]
    exact (Nat.le_div_iff_mul_le hpos).mp (Nat.log2_self_le h)
  · rw [Nat.add_assoc, Nat.pow_add, Nat.mul_comm]
    exact (Nat.div_lt_iff_lt_mul hpos).mp Nat.lt_log2_self

variable {n k m : ℕ}

/-- Bit `i` of `m` tells whether one of the `k` bits of `n` from `i` up is set. -/
def Smears (n k m : ℕ) : Prop := ∀ i, m.testBit i = true ↔ ∃ j < k, n.testBit (i + j) = true

theorem smears_self (n : ℕ) : Smears n 1 n := by
  intro i
  constructor
  · intro hbit
    exact ⟨0, Nat.one_pos, hbit⟩
  · rintro ⟨j, hj, hbit⟩
    rwa [Nat.lt_one_iff.mp hj] at hbit

theorem Smears.double (h : Smears n k m) : Smears n (k + k) (m ||| m >>> k) := by
  intro i
  rw [Nat.testBit_or, Nat.testBit_shiftRight, Bool.or_eq_true, h i, h (k + i)]
  constructor
  · rintro (⟨j, hj, hbit⟩ | ⟨j, hj, hbit⟩)
    · exact ⟨j, by omega, hbit⟩
    · refine ⟨k + j, by omega, ?_⟩
      rwa [← Nat.add_assoc, Nat.add_comm i k]
  · rintro ⟨j, hj, hbit⟩
    rcases Nat.lt_or_ge j k with hlow | hhigh
    · exact .inl ⟨j, hlow, hbit⟩
    · refine .inr ⟨j - k, by omega, ?_⟩
      rwa [show k + i + (j - k) = i + j by omega]

/-- Smeared over its whole width, a number has every bit up to its highest one set. -/
theorem Smears.eq_mask (h : Smears n k m) (hn : n ≠ 0) (hfits : n < 2 ^ k) :
    m = 2 ^ (n.log2 + 1) - 1 := by
  apply Nat.eq_of_testBit_eq
  intro i
  rw [Nat.testBit_two_pow_sub_one, Bool.eq_iff_iff, h i, decide_eq_true_iff]
  constructor
  · rintro ⟨j, -, hbit⟩
    have hle := (Nat.le_log2 hn).mpr (Nat.ge_two_pow_of_testBit hbit)
    omega
  · intro hi
    have hlog := (Nat.log2_lt hn).mpr hfits
    refine ⟨n.log2 - i, by omega, ?_⟩
    rw [Nat.add_sub_cancel' (by omega)]
    exact Nat.testBit_log2 hn

theorem mask_sub_half (k : ℕ) : 2 ^ (k + 1) - 1 - (2 ^ (k + 1) - 1) >>> 1 = 2 ^ k := by
  have hpos := Nat.two_pow_pos k
  rw [Nat.shiftRight_eq_div_pow, Nat.pow_succ]
  omega

end MuTegra.Foundation.HighBits
