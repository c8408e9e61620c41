/- Unit: MuTegra/Foundation/DigitRoot
   scope: general library
   digest: A square root found digit by digit: the bracket around it halves at every digit. -/

import Mathlib.Tactic.Ring
import Mathlib.Tactic.Linarith

set_option autoImplicit false
set_option relaxedAutoImplicit false

namespace MuTegra.Foundation.DigitRoot

def FloorRoot (root input : ℕ) : Prop :=
  root * root ≤ input ∧ input < (root + 1) * (root + 1)

/-- The square root of `input`, rounded down, is one of the `width` numbers from `root` on,
none of which reaches `side`. -/
structure Bracket (side input width root : ℕ) : Prop where
  low : root * root ≤ input
  high : input < (root + width) * (root + width)
  room : root + width ≤ side

variable {side input width half root : ℕ}

theorem Bracket.initial (high : input < width * width) (room : width ≤ side) :
    Bracket side input width 0 where
  low := by omega
  high := by rwa [Nat.zero_add]
  room := by rwa [Nat.zero_add]

theorem Bracket.floorRoot (h : Bracket side input 1 root) : FloorRoot root input :=
  ⟨h.low, h.high⟩

theorem square_add (root half : ℕ) :
    (root + half) * (root + half) = root * root + (root * (2 * half) + half * half) := by
  ring

theorem Bracket.upper (h : Bracket side input (2 * half) root)
    (fits : (root + half) * (root + half) ≤ input) : Bracket side input half (root + half) := by
  have hends : root + half + half = root + 2 * half := by omega
  refine ⟨fits, ?_, ?_⟩
  · rw [hends]
    exact h.high
  · rw [hends]
    exact h.room

/-- The digit does not fit: the root lies in the lower half of the bracket. -/
theorem Bracket.lower (h : Bracket side input (2 * half) root)
    (large : input < (root + half) * (root + half)) : Bracket side input half root := by
  have hroom := h.room
  exact ⟨h.low, large, by omega⟩

/-- The number compared with the remainder stays below the square of `side`. -/
theorem Bracket.trial_lt (h : Bracket side input (2 * half) root) (hhalf : 0 < half) :
    root * (2 * half) + half * half < side * side := by
  have hlt : root + half < side := by
    have hroom := h.room
    omega
  calc root * (2 * half) + half * half ≤ (root + half) * (root + half) := by
        rw [square_add]
        exact Nat.le_add_left _ _
    _ < side * side := Nat.mul_self_lt_mul_self hlt

theorem Bracket.taken_lt (h : Bracket side input (2 * half) root) (hhalf : 0 < half) :
    root * (2 * half) + 2 * (half * half) < side * side := by
  have hsquares : root * (2 * half) + 2 * (half * half) < (root + 2 * half) * (root + 2 * half) := by
    have hpos : 0 < half * half := Nat.mul_pos hhalf hhalf
    nlinarith
  exact hsquares.trans_le (Nat.mul_self_le_mul_self h.room)

end MuTegra.Foundation.DigitRoot
