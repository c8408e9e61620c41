/- Unit: MuTegra/Foundation/Words/Packing
   scope: general library
   digest: Windows of bytes packed big-endian into one number, and their rolling update. -/

import MuTegra.Foundation.MachineWords
import Mathlib.Tactic.Ring

set_option autoImplicit false
set_option relaxedAutoImplicit false

namespace MuTegra.Foundation.Words.Packing

/-- The big-endian value of the `w` digits of `y` from `i` on, in base 256. -/
def packed (y : ℕ → ℕ) : ℕ → ℕ → ℕ
  | 0, _ => 0
  | w + 1, i => packed y w i * 256 + y (i + w)

variable {x y : ℕ → ℕ}

theorem packed_lt (hy : ∀ t, y t < 256) (w i : ℕ) : packed y w i < 256 ^ w := by
  induction w with
  | zero => simp [packed]
  | succ w ih =>
      have hdigit := hy (i + w)
      rw [packed, Nat.pow_succ]
      omega

theorem packed_succ_left (y : ℕ → ℕ) (w i : ℕ) :
    packed y (w + 1) i = y i * 256 ^ w + packed y w (i + 1) := by
  induction w with
  | zero => simp [packed]
  | succ w ih =>
      have hindex : i + (w + 1) = i + 1 + w := by omega
      rw [packed, ih, packed, hindex, Nat.pow_succ]
      ring

theorem packed_slide (hy : ∀ t, y t < 256) (w i : ℕ) :
    (packed y w i * 256 + y (i + w)) % 256 ^ w = packed y w (i + 1) := by
  have hvalue : packed y w i * 256 + y (i + w) = y i * 256 ^ w + packed y w (i + 1) :=
    packed_succ_left y w i
  rw [hvalue, Nat.mul_comm, Nat.mul_add_mod]
  exact Nat.mod_eq_of_lt (packed_lt hy w (i + 1))

theorem packed_inj (hx : ∀ t, x t < 256) (hy : ∀ t, y t < 256) (w i j : ℕ) :
    packed y w i = packed x w j ↔ ∀ t < w, y (i + t) = x (j + t) := by
  induction w with
  | zero => simp [packed]
  | succ w ih =>
      have hdx := hx (j + w)
      have hdy := hy (i + w)
      rw [Nat.forall_lt_succ_right, ← ih, packed, packed]
      omega

end MuTegra.Foundation.Words.Packing
