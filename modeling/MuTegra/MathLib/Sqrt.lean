/- Unit: MuTegra/MathLib/Sqrt
   source: NvidiaPkg/Library/MathLib/MathLib.c
   digest: The integer square roots return the floor, and no pass leaves its machine word. -/

import MuTegra.Foundation.DigitRoot
import MuTegra.Foundation.Loops
import Mathlib.Data.BitVec

set_option autoImplicit false
set_option relaxedAutoImplicit false

namespace MuTegra.MathLib.Sqrt

open MuTegra.Foundation.DigitRoot
open MuTegra.Foundation.Loops

structure SqrtState (w : ℕ) where
  res : BitVec w
  bit : BitVec w
  num : BitVec w

variable {w : ℕ}

def bitPass (input bit : BitVec w) : Option (BitVec w ⊕ BitVec w) :=
  if bit > input then some (.inl (bit >>> 2)) else some (.inr bit)

def digitStep (s : SqrtState w) : SqrtState w :=
  let s :=
    if s.num ≥ s.res + s.bit then
      { s with num := s.num - (s.res + s.bit), res := s.res + (s.bit <<< 1) }
    else s
  { s with res := s.res >>> 1, bit := s.bit >>> 2 }

def digitPass (s : SqrtState w) : Option (SqrtState w ⊕ BitVec w) :=
  if s.bit ≠ 0 then some (.inl (digitStep s)) else some (.inr s.res)

/-- Where the digit loop starts once `bit` is settled. -/
def digitStart (input bit : BitVec w) : SqrtState w := ⟨0, bit, input⟩

/-- The two loops, `bit` starting at `top`; each may take `fuel` passes. -/
def sqrtWord (top : BitVec w) (fuel : ℕ) (input : BitVec w) : Option (BitVec w) :=
  (loop (bitPass input) fuel top).bind fun bit => loop digitPass fuel (digitStart input bit)

def sqrt32 (fuel : ℕ) (input : BitVec 32) : Option (BitVec 32) := sqrtWord (1 <<< 30) fuel input

def sqrt64 (fuel : ℕ) (input : BitVec 64) : Option (BitVec 64) := sqrtWord (1 <<< 62) fuel input

/-- Every addition and subtraction a pass evaluates gives the number it would give
without a bound on its word. -/
structure PassExact (s : SqrtState w) : Prop where
  sum : (s.res + s.bit).toNat = s.res.toNat + s.bit.toNat
  difference : s.num ≥ s.res + s.bit → s.res.toNat + s.bit.toNat ≤ s.num.toNat
  taken : s.num ≥ s.res + s.bit →
    (s.res + (s.bit <<< 1)).toNat = s.res.toNat + 2 * s.bit.toNat

/-- The passes of the digit loop in a call on `input`. -/
def DigitPasses (top input : BitVec w) (s : SqrtState w) : Prop :=
  ∃ fuel bit, loop (bitPass input) fuel top = some bit ∧
    Visits digitPass (digitStart input bit) s ∧ s.bit ≠ 0

/-- A pass starts with the partial root `root`, in a bracket `2 ^ k` wide; `num` is what
the root's square leaves of the input, and `res` is the root scaled by the bracket. -/
structure Digits (m : ℕ) (input : BitVec w) (k root : ℕ) (s : SqrtState w) : Prop where
  res : s.res.toNat = root * 2 ^ k
  bit : s.bit.toNat = 2 ^ k * 2 ^ k / 4
  num : s.num.toNat + root * root = input.toNat
  bracket : Bracket (2 ^ m) input.toNat (2 ^ k) root

theorem quarter_square (j : ℕ) : 2 ^ (j + 1) * 2 ^ (j + 1) / 4 = 2 ^ j * 2 ^ j := by
  have hsquare : 2 ^ (j + 1) * 2 ^ (j + 1) = 4 * (2 ^ j * 2 ^ j) := by ring
  rw [hsquare]
  exact Nat.mul_div_cancel_left _ (by decide)

variable {m j root : ℕ} {input : BitVec w} {s : SqrtState w}

private theorem Digits.res_succ (h : Digits m input (j + 1) root s) :
    s.res.toNat = root * (2 * 2 ^ j) := by
  rw [h.res, Nat.pow_succ']

private theorem Digits.bit_succ (h : Digits m input (j + 1) root s) :
    s.bit.toNat = 2 ^ j * 2 ^ j := by
  rw [h.bit, quarter_square]

private theorem Digits.bracket_succ (h : Digits m input (j + 1) root s) :
    Bracket (2 ^ m) input.toNat (2 * 2 ^ j) root := by
  have hbracket := h.bracket
  rwa [Nat.pow_succ'] at hbracket

private theorem Digits.sum (hw : 2 ^ w = 2 ^ m * 2 ^ m) (h : Digits m input (j + 1) root s) :
    (s.res + s.bit).toNat = root * (2 * 2 ^ j) + 2 ^ j * 2 ^ j := by
  have hlt := h.bracket_succ.trial_lt (Nat.two_pow_pos j)
  rw [← hw] at hlt
  rw [BitVec.toNat_add, h.res_succ, h.bit_succ]
  exact Nat.mod_eq_of_lt hlt

private theorem Digits.taken (hw : 2 ^ w = 2 ^ m * 2 ^ m) (h : Digits m input (j + 1) root s) :
    (s.res + (s.bit <<< 1)).toNat = root * (2 * 2 ^ j) + 2 * (2 ^ j * 2 ^ j) := by
  have hlt := h.bracket_succ.taken_lt (Nat.two_pow_pos j)
  rw [← hw] at hlt
  have hshift : (s.bit <<< 1).toNat = 2 * (2 ^ j * 2 ^ j) := by
    rw [BitVec.toNat_shiftLeft, Nat.shiftLeft_eq, Nat.pow_one, h.bit_succ, Nat.mul_comm]
    exact Nat.mod_eq_of_lt (by omega)
  rw [BitVec.toNat_add, h.res_succ, hshift]
  exact Nat.mod_eq_of_lt hlt

private theorem Digits.fits_iff (hw : 2 ^ w = 2 ^ m * 2 ^ m) (h : Digits m input (j + 1) root s) :
    s.num ≥ s.res + s.bit ↔ (root + 2 ^ j) * (root + 2 ^ j) ≤ input.toNat := by
  have hnum := h.num
  have hsquare := square_add root (2 ^ j)
  rw [ge_iff_le, BitVec.le_def, h.sum hw]
  omega

theorem Digits.exact (hw : 2 ^ w = 2 ^ m * 2 ^ m) (h : Digits m input (j + 1) root s) : PassExact s where
  sum := by rw [h.sum hw, h.res_succ, h.bit_succ]
  difference fits := by
    have hle := BitVec.le_def.mp fits
    rwa [h.sum hw, ← h.res_succ, ← h.bit_succ] at hle
  taken _ := by rw [h.taken hw, h.res_succ, h.bit_succ]

private theorem halved (a b : ℕ) : (a * (2 * b)) >>> 1 = a * b := by
  rw [Nat.shiftRight_eq_div_pow, Nat.pow_one, Nat.mul_left_comm]
  exact Nat.mul_div_cancel_left _ (by decide)

private theorem quartered (s : BitVec w) {j : ℕ} (h : s.toNat = 2 ^ j * 2 ^ j) :
    (s >>> 2).toNat = 2 ^ j * 2 ^ j / 4 := by
  rw [BitVec.toNat_ushiftRight, h, Nat.shiftRight_eq_div_pow]

theorem Digits.step (hw : 2 ^ w = 2 ^ m * 2 ^ m) (h : Digits m input (j + 1) root s) :
    ∃ root', Digits m input j root' (digitStep s) := by
  by_cases fits : s.num ≥ s.res + s.bit
  · have hsquare := (h.fits_iff hw).mp fits
    have hstep : digitStep s =
        ⟨(s.res + (s.bit <<< 1)) >>> 1, s.bit >>> 2, s.num - (s.res + s.bit)⟩ := by
      simp only [digitStep, if_pos fits]
    refine ⟨root + 2 ^ j, ?_⟩
    rw [hstep]
    refine ⟨?_, quartered s.bit h.bit_succ, ?_, h.bracket_succ.upper hsquare⟩
    · have hscaled : root * (2 * 2 ^ j) + 2 * (2 ^ j * 2 ^ j) = (root + 2 ^ j) * (2 * 2 ^ j) := by
        ring
      rw [BitVec.toNat_ushiftRight, h.taken hw, hscaled, halved]
    · have hnum := h.num
      have hadd := square_add root (2 ^ j)
      rw [BitVec.toNat_sub_of_le fits, h.sum hw]
      omega
  · have hsquare := mt (h.fits_iff hw).mpr fits
    have hstep : digitStep s = ⟨s.res >>> 1, s.bit >>> 2, s.num⟩ := by
      simp only [digitStep, if_neg fits]
    refine ⟨root, ?_⟩
    rw [hstep]
    refine ⟨?_, quartered s.bit h.bit_succ, h.num, h.bracket_succ.lower (by omega)⟩
    rw [BitVec.toNat_ushiftRight, h.res_succ, halved]

/-- The loop goes on exactly as long as the bracket holds more than one number. -/
theorem Digits.bit_eq_zero (h : Digits m input 0 root s) : s.bit = 0 := by
  apply BitVec.eq_of_toNat_eq
  rw [h.bit]
  rfl

theorem Digits.bit_ne_zero (h : Digits m input (j + 1) root s) : s.bit ≠ 0 := by
  intro hbit
  have hpos : 0 < 2 ^ j * 2 ^ j := Nat.mul_pos (Nat.two_pow_pos j) (Nat.two_pow_pos j)
  have hzero : (0 : BitVec w).toNat = 0 := BitVec.toNat_zero
  have hsucc := h.bit_succ
  rw [hbit, hzero] at hsucc
  omega

theorem digitPass_next {s s' : SqrtState w} (h : digitPass s = some (.inl s')) :
    s.bit ≠ 0 ∧ s' = digitStep s := by
  unfold digitPass at h
  split at h
  · cases h
    exact ⟨‹_›, rfl⟩
  · cases h

/-- The digit loop: one pass for each digit of the bracket, then the root is left. -/
theorem Digits.loop_eq (hw : 2 ^ w = 2 ^ m * 2 ^ m) {k root : ℕ} {s : SqrtState w}
    (h : Digits m input k root s) {fuel : ℕ} (enough : k < fuel) :
    ∃ r, loop digitPass fuel s = some r ∧ FloorRoot r.toNat input.toNat := by
  induction k generalizing root s fuel with
  | zero =>
      obtain ⟨fuel, rfl⟩ : ∃ f, fuel = f + 1 := ⟨fuel - 1, by omega⟩
      have hpass : digitPass s = some (.inr s.res) := if_neg (not_not.mpr h.bit_eq_zero)
      refine ⟨s.res, loop_done fuel hpass, ?_⟩
      rw [h.res, Nat.pow_zero, Nat.mul_one]
      exact h.bracket.floorRoot
  | succ j ih =>
      obtain ⟨fuel, rfl⟩ : ∃ f, fuel = f + 1 := ⟨fuel - 1, by omega⟩
      have hpass : digitPass s = some (.inl (digitStep s)) := if_pos h.bit_ne_zero
      obtain ⟨root', hstep⟩ := h.step hw
      rw [loop_next fuel hpass]
      exact ih hstep (by omega)

def Rooting (m : ℕ) (input : BitVec w) (s : SqrtState w) : Prop :=
  ∃ k root, Digits m input k root s

theorem Rooting.next (hw : 2 ^ w = 2 ^ m * 2 ^ m) {s s' : SqrtState w} (h : Rooting m input s)
    (hpass : digitPass s = some (.inl s')) : Rooting m input s' := by
  obtain ⟨k, root, h⟩ := h
  obtain ⟨hbit, rfl⟩ := digitPass_next hpass
  cases k with
  | zero => exact absurd h.bit_eq_zero hbit
  | succ j =>
      obtain ⟨root', hstep⟩ := h.step hw
      exact ⟨j, root', hstep⟩

theorem Rooting.exact (hw : 2 ^ w = 2 ^ m * 2 ^ m) {s : SqrtState w} (h : Rooting m input s)
    (hbit : s.bit ≠ 0) : PassExact s := by
  obtain ⟨k, root, h⟩ := h
  cases k with
  | zero => exact absurd h.bit_eq_zero hbit
  | succ j => exact h.exact hw

/-- `bit` is the largest power of four below `2 ^ k` squared, and the input is below that
square too. -/
structure Lowered (input : BitVec w) (k : ℕ) (bit : BitVec w) : Prop where
  bit : bit.toNat = 2 ^ k * 2 ^ k / 4
  high : input.toNat < 2 ^ k * 2 ^ k

theorem Lowered.next {k : ℕ} {bit : BitVec w} (h : Lowered input k bit) (hgt : bit > input) :
    ∃ j, k = j + 1 ∧ Lowered input j (bit >>> 2) := by
  have hlt := BitVec.lt_def.mp hgt
  cases k with
  | zero =>
      have hbit : bit.toNat = 0 := h.bit
      omega
  | succ j =>
      have hbit := h.bit
      rw [quarter_square] at hbit
      exact ⟨j, rfl, quartered bit hbit, by omega⟩

/-- The first loop leaves a `bit` whose digit is the first that may fit. -/
theorem Lowered.loop_eq {k : ℕ} {bit : BitVec w} (h : Lowered input k bit) {fuel : ℕ}
    (enough : k < fuel) :
    ∃ k' bit', k' ≤ k ∧ loop (bitPass input) fuel bit = some bit' ∧ Lowered input k' bit' := by
  induction k generalizing bit fuel with
  | zero =>
      obtain ⟨fuel, rfl⟩ : ∃ f, fuel = f + 1 := ⟨fuel - 1, by omega⟩
      have hle : ¬ bit > input := fun hgt => by
        obtain ⟨j, hj, _⟩ := h.next hgt
        omega
      exact ⟨0, bit, le_rfl, loop_done fuel (if_neg hle), h⟩
  | succ k ih =>
      obtain ⟨fuel, rfl⟩ : ∃ f, fuel = f + 1 := ⟨fuel - 1, by omega⟩
      by_cases hgt : bit > input
      · obtain ⟨j, hj, hnext⟩ := h.next hgt
        obtain rfl : k = j := by omega
        obtain ⟨k', bit', hle, hloop, hlowered⟩ := ih hnext (show k < fuel by omega)
        refine ⟨k', bit', by omega, ?_, hlowered⟩
        have hpass : bitPass input bit = some (.inl (bit >>> 2)) := if_pos hgt
        rw [loop_next fuel hpass]
        exact hloop
      · exact ⟨k + 1, bit, le_rfl, loop_done fuel (if_neg hgt), h⟩

theorem Lowered.digits {k : ℕ} {bit : BitVec w} (h : Lowered input k bit) (hk : k ≤ m) :
    Digits m input k 0 (digitStart input bit) where
  res := by
    rw [Nat.zero_mul]
    exact BitVec.toNat_zero
  bit := h.bit
  num := rfl
  bracket := Bracket.initial h.high (Nat.pow_le_pow_right (by decide) hk)

/-- Both loops together, in a word of `2 * m` bits: enough passes give the root, and every
pass of the digit loop is exact. -/
theorem sqrtWord_floor {m : ℕ} (hw : 2 ^ w = 2 ^ m * 2 ^ m) {top : BitVec w}
    (htop : top.toNat = 2 ^ m * 2 ^ m / 4) (input : BitVec w) {fuel : ℕ} (enough : m < fuel) :
    (∃ r, sqrtWord top fuel input = some r ∧ FloorRoot r.toNat input.toNat) ∧
      ∀ s, DigitPasses top input s → PassExact s := by
  have hstart : Lowered input m top := ⟨htop, hw ▸ input.isLt⟩
  obtain ⟨k, bit, hk, hloop, hlowered⟩ := hstart.loop_eq enough
  have hdigits := hlowered.digits hk
  constructor
  · obtain ⟨r, hr, hfloor⟩ := hdigits.loop_eq hw (show k < fuel by omega)
    refine ⟨r, ?_, hfloor⟩
    rw [sqrtWord, hloop]
    exact hr
  · rintro s ⟨fuel', bit', hloop', hvisits, hbit⟩
    have hsame : bit' = bit := by
      have hlong := loop_mono hloop (Nat.le_max_left fuel fuel')
      rw [loop_mono hloop' (Nat.le_max_right fuel fuel')] at hlong
      exact Option.some.inj hlong
    subst hsame
    have hrooting : Rooting m input s :=
      hvisits.keeps ⟨k, 0, hdigits⟩ fun _ _ h hpass => h.next hw hpass
    exact hrooting.exact hw hbit

/-- `sqrt32` and `sqrt64` end with the floor of the root on every input, and no addition
or subtraction of a pass leaves its word. -/
theorem sqrt_floor :
    (∀ input : BitVec 32, (∀ fuel, 16 < fuel → ∃ r, sqrt32 fuel input = some r ∧
        r.toNat * r.toNat ≤ input.toNat ∧ input.toNat < (r.toNat + 1) * (r.toNat + 1)) ∧
      ∀ s, DigitPasses (1 <<< 30) input s → PassExact s) ∧
    ∀ input : BitVec 64, (∀ fuel, 32 < fuel → ∃ r, sqrt64 fuel input = some r ∧
        r.toNat * r.toNat ≤ input.toNat ∧ input.toNat < (r.toNat + 1) * (r.toNat + 1)) ∧
      ∀ s, DigitPasses (1 <<< 62) input s → PassExact s := by
  have h32 := @sqrtWord_floor 32 16 (by decide) (1 <<< 30) (by decide)
  have h64 := @sqrtWord_floor 64 32 (by decide) (1 <<< 62) (by decide)
  refine ⟨fun input => ⟨fun fuel enough => ?_, ?_⟩, fun input => ⟨fun fuel enough => ?_, ?_⟩⟩
  · exact (h32 input enough).1
  · exact (h32 input (Nat.lt_succ_self 16)).2
  · exact (h64 input enough).1
  · exact (h64 input (Nat.lt_succ_self 32)).2

/-- The largest 64-bit input, with the fewest passes promised, and its first pass. -/
theorem sqrt_floor_largest :
    (∃ r, sqrt64 33 (BitVec.allOnes 64) = some r ∧
      r.toNat * r.toNat ≤ (BitVec.allOnes 64).toNat ∧
      (BitVec.allOnes 64).toNat < (r.toNat + 1) * (r.toNat + 1)) ∧
    PassExact (digitStart (BitVec.allOnes 64) (1 <<< 62)) :=
  ⟨(sqrt_floor.2 _).1 33 (by decide),
    (sqrt_floor.2 _).2 _ ⟨1, 1 <<< 62, loop_done 0 (by decide), .start, by decide⟩⟩

end MuTegra.MathLib.Sqrt
