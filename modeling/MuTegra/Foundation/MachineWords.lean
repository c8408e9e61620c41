/- Unit: MuTegra/Foundation/MachineWords
   scope: general library
   digest: Natural-number renderings of unsigned fixed-width arithmetic. -/

import Mathlib.Data.Nat.Bitwise

set_option autoImplicit false
set_option relaxedAutoImplicit false

namespace MuTegra.Foundation.MachineWords

def toUint8 (a : ℕ) : ℕ := a % 256

def toUint16 (a : ℕ) : ℕ := a % 65536

def toUint32 (a : ℕ) : ℕ := a % 4294967296

def toUint64 (a : ℕ) : ℕ := a % 18446744073709551616

def subUint32 (a b : ℕ) : ℕ := toUint32 (a + 4294967296 - b)

theorem toUint32_of_lt {a : ℕ} (h : a < 4294967296) : toUint32 a = a :=
  Nat.mod_eq_of_lt h

theorem subUint32_of_le {a b : ℕ} (hba : b ≤ a) (ha : a < 4294967296) :
    subUint32 a b = a - b := by
  unfold subUint32 toUint32
  omega

theorem mod_eq_iff_laps {a b m : ℕ} (hb : b < m) :
    a % m = b ↔ a = b ∨ ∃ laps, 1 ≤ laps ∧ a = b + laps * m := by
  constructor
  · rintro rfl
    have hsplit := Nat.mod_add_div' a m
    by_cases hlaps : a / m = 0
    · left
      rw [hlaps, Nat.zero_mul, Nat.add_zero] at hsplit
      exact hsplit.symm
    · right
      exact ⟨a / m, Nat.pos_of_ne_zero hlaps, hsplit.symm⟩
  · rintro (rfl | ⟨laps, -, rfl⟩)
    · exact Nat.mod_eq_of_lt hb
    · rw [Nat.add_mul_mod_self_right, Nat.mod_eq_of_lt hb]

theorem shiftLeft_or_byte (a : ℕ) {b : ℕ} (hb : b < 256) : a <<< 8 ||| b = a * 256 + b := by
  rw [Nat.shiftLeft_eq, Nat.mul_comm a, ← Nat.two_pow_add_eq_or_of_lt (i := 8) hb]

theorem and_one_shiftLeft_ne_zero (a i : ℕ) : (a &&& 1 <<< i) ≠ 0 ↔ a.testBit i = true := by
  rw [Nat.one_shiftLeft, Nat.and_two_pow]
  cases a.testBit i <;> simp

theorem testBit_or_one_shiftLeft (a i j : ℕ) :
    (a ||| 1 <<< i).testBit j = (a.testBit j || decide (i = j)) := by
  rw [Nat.testBit_or, Nat.one_shiftLeft, Nat.testBit_two_pow]

end MuTegra.Foundation.MachineWords
