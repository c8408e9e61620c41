/- Unit: MuTegra/MathLib/BitScan
   source: NvidiaPkg/Library/MathLib/MathLib.c
   digest: The branches of the bit scan agree only where both halves of the value reach as high. -/

import MuTegra.Foundation.HighBits

set_option autoImplicit false
set_option relaxedAutoImplicit false

namespace MuTegra.MathLib.BitScan

open MuTegra.Foundation.HighBits

/-- The scans the compilers build in, as they answer on the ARM32 target: an unsigned long has 32
bits. On a zero word a scan leaves its result undefined, and nothing is said about it. -/
structure Builtins where
  clzl : UInt32 → ℤ
  bitScanReverse : UInt32 → Bool × UInt32
  bitScanReverse64 : UInt64 → Bool × UInt32
  clzl_eq : ∀ v : UInt32, v ≠ 0 → clzl v = 31 - (v.toNat.log2 : ℤ)
  bitScanReverse_zero : (bitScanReverse 0).1 = false
  bitScanReverse_eq : ∀ v : UInt32, v ≠ 0 → bitScanReverse v = (true, v.toNat.log2.toUInt32)
  bitScanReverse64_eq : ∀ v : UInt64, v ≠ 0 → bitScanReverse64 v = (true, v.toNat.log2.toUInt32)

inductive Branch
  | gcc
  | msvcX64
  | msvc
  | fallback
  deriving DecidableEq, Repr

/-- `value & 0xffffffff`; also what a 32-bit parameter receives of the value. -/
def valueLow (value : UInt64) : UInt32 := (value &&& 0xffffffff).toUInt32

def valueHigh (value : UInt64) : UInt32 := (value >>> 32).toUInt32

/-- `while (count < 64 && value != 0x1)`, with the count it ends with. -/
def fallbackLoop (count : UInt16) (value : UInt64) : UInt16 :=
  if count < 64 ∧ value ≠ 1 then fallbackLoop (count + 1) (value >>> 1) else count
termination_by 64 - count.toNat
decreasing_by
  rename_i h
  have hcount : count.toNat < 64 := h.1
  rw [UInt16.toNat_add]
  change 64 - (count.toNat + 1) % 65536 < 64 - count.toNat
  omega

def bsr32 (builtins : Builtins) (branch : Branch) (value : UInt64) : UInt16 :=
  match branch with
  | .gcc => UInt16.ofInt (64 - builtins.clzl value.toUInt32)
  | .msvcX64 => (builtins.bitScanReverse64 value).2.toUInt16 + 1
  | .msvc =>
      let found := builtins.bitScanReverse (valueHigh value)
      let result :=
        if found.1 then found.2 + 32 else (builtins.bitScanReverse (valueLow value)).2
      result.toUInt16 + 1
  | .fallback => if value = 0 then 0 else fallbackLoop 1 value

def hibit (n : UInt64) : UInt64 :=
  let n := n ||| (n >>> 1)
  let n := n ||| (n >>> 2)
  let n := n ||| (n >>> 4)
  let n := n ||| (n >>> 8)
  let n := n ||| (n >>> 16)
  let n := n ||| (n >>> 32)
  n - (n >>> 1)

/-- `highestOrderBit` of `sqrt_d`, from its input as a word. -/
def highestOrderBit (firstGuess : UInt32) : UInt32 := (hibit firstGuess.toUInt64 / 2).toUInt32

/-- The shift count of `sqrt_d`'s first guess. -/
def firstGuessShift (builtins : Builtins) (branch : Branch) (firstGuess : UInt32) : UInt16 :=
  bsr32 builtins branch (highestOrderBit firstGuess).toUInt64 / 2

/-- On every branch the scan of `value` is one more than the index of its highest set bit, and the
shift count a first guess derives from it stays below 32. -/
def Scans (value : UInt64) : Prop :=
  ∀ (builtins : Builtins) (branch : Branch),
    (bsr32 builtins branch value).toNat = 1 + value.toNat.log2 ∧
      ∀ firstGuess : UInt32, (highestOrderBit firstGuess).toUInt64 = value →
        (firstGuessShift builtins branch firstGuess).toNat < 32

/-- Both 32-bit halves are nonzero, with their highest set bits at one index. -/
def HalvesReachAlike (value : UInt64) : Prop :=
  valueHigh value ≠ 0 ∧ valueLow value ≠ 0 ∧
    (valueHigh value).toNat.log2 = (valueLow value).toNat.log2

theorem valueLow_toNat (value : UInt64) : (valueLow value).toNat = value.toNat % 2 ^ 32 := by
  rw [valueLow, UInt64.toNat_toUInt32, UInt64.toNat_and]
  have hmask : value.toNat &&& (0xffffffff : UInt64).toNat = value.toNat % 2 ^ 32 :=
    Nat.and_two_pow_sub_one_eq_mod value.toNat 32
  rw [hmask, Nat.mod_mod]

theorem toUInt32_eq_valueLow (value : UInt64) : value.toUInt32 = valueLow value := by
  apply UInt32.toNat_inj.mp
  rw [UInt64.toNat_toUInt32, valueLow_toNat]

theorem valueHigh_toNat (value : UInt64) : (valueHigh value).toNat = value.toNat >>> 32 := by
  rw [valueHigh, UInt64.toNat_toUInt32, UInt64.toNat_shiftRight]
  change value.toNat >>> 32 % 2 ^ 32 = value.toNat >>> 32
  apply Nat.mod_eq_of_lt
  rw [Nat.shiftRight_eq_div_pow]
  have hlt := value.toNat_lt
  omega

theorem toNat_ne_zero {v : UInt32} (h : v ≠ 0) : v.toNat ≠ 0 :=
  fun hzero => h (UInt32.toNat_inj.mp hzero)

theorem log2_of_valueHigh {value : UInt64} (h : valueHigh value ≠ 0) :
    value.toNat.log2 = 32 + (valueHigh value).toNat.log2 := by
  rw [valueHigh_toNat]
  apply log2_of_high
  rw [← valueHigh_toNat]
  exact toNat_ne_zero h

theorem valueLow_of_valueHigh {value : UInt64} (h : valueHigh value = 0) :
    (valueLow value).toNat = value.toNat := by
  have hhigh := valueHigh_toNat value
  rw [h, Nat.shiftRight_eq_div_pow] at hhigh
  rw [valueLow_toNat]
  apply Nat.mod_eq_of_lt
  change 0 = value.toNat / 2 ^ 32 at hhigh
  omega

theorem valueLow_ne_zero {value : UInt64} (hvalue : value ≠ 0) (h : valueHigh value = 0) :
    valueLow value ≠ 0 := by
  intro hlow
  apply hvalue
  apply UInt64.toNat_inj.mp
  rw [← valueLow_of_valueHigh h, hlow]
  rfl

theorem log2_lt_32 (v : UInt32) : v.toNat.log2 < 32 := by
  rcases Nat.eq_zero_or_pos v.toNat with hzero | hpos
  · rw [hzero]
    decide
  · exact (Nat.log2_lt (Nat.ne_of_gt hpos)).mpr v.toNat_lt

theorem log2_lt_64 (v : UInt64) : v.toNat.log2 < 64 := by
  rcases Nat.eq_zero_or_pos v.toNat with hzero | hpos
  · rw [hzero]
    decide
  · exact (Nat.log2_lt (Nat.ne_of_gt hpos)).mpr v.toNat_lt

variable (builtins : Builtins) {value : UInt64}

theorem reported_toNat {k : ℕ} (hk : k < 64) : (k.toUInt32.toUInt16 + 1).toNat = 1 + k := by
  rw [UInt16.toNat_add, UInt32.toNat_toUInt16]
  change (k % 2 ^ 32 % 2 ^ 16 + 1) % 2 ^ 16 = 1 + k
  omega

theorem bsr32_gcc (hlow : valueLow value ≠ 0) :
    (bsr32 builtins .gcc value).toNat = 33 + (valueLow value).toNat.log2 := by
  have hlog := log2_lt_32 (valueLow value)
  rw [bsr32, toUInt32_eq_valueLow, builtins.clzl_eq _ hlow]
  have hdifference : (64 : ℤ) - (31 - ((valueLow value).toNat.log2 : ℤ)) =
      ((33 + (valueLow value).toNat.log2 : ℕ) : ℤ) := by
    push_cast
    omega
  rw [hdifference]
  change ((33 + (valueLow value).toNat.log2 : ℕ) % 2 ^ 16 : ℤ).toNat % 2 ^ 16 = _
  omega

theorem bsr32_msvcX64 (hvalue : value ≠ 0) :
    (bsr32 builtins .msvcX64 value).toNat = 1 + value.toNat.log2 := by
  rw [bsr32, builtins.bitScanReverse64_eq value hvalue]
  exact reported_toNat (log2_lt_64 value)

theorem bsr32_msvc (hvalue : value ≠ 0) :
    (bsr32 builtins .msvc value).toNat = 1 + value.toNat.log2 := by
  by_cases hhigh : valueHigh value = 0
  · rw [bsr32, hhigh, builtins.bitScanReverse_zero,
      builtins.bitScanReverse_eq _ (valueLow_ne_zero hvalue hhigh), ← valueLow_of_valueHigh hhigh]
    have hlog := log2_lt_32 (valueLow value)
    exact reported_toNat (by omega)
  · have hlog := log2_lt_32 (valueHigh value)
    have hsum : (valueHigh value).toNat.log2.toUInt32 + 32 =
        (32 + (valueHigh value).toNat.log2).toUInt32 := by
      apply UInt32.toNat_inj.mp
      rw [UInt32.toNat_add]
      change ((valueHigh value).toNat.log2 % 2 ^ 32 + 32) % 2 ^ 32 =
        (32 + (valueHigh value).toNat.log2) % 2 ^ 32
      omega
    rw [bsr32, builtins.bitScanReverse_eq _ hhigh, log2_of_valueHigh hhigh]
    change (((valueHigh value).toNat.log2.toUInt32 + 32).toUInt16 + 1).toNat = _
    rw [hsum]
    exact reported_toNat (by omega)

theorem shiftRight_one_toNat (value : UInt64) : (value >>> 1).toNat = value.toNat >>> 1 :=
  UInt64.toNat_shiftRight value 1

theorem fallbackLoop_toNat (count : UInt16) (value : UInt64) (hvalue : value ≠ 0)
    (hfits : count.toNat + value.toNat.log2 ≤ 64) :
    (fallbackLoop count value).toNat = count.toNat + value.toNat.log2 := by
  induction count, value using fallbackLoop.induct with
  | case1 count value hpass ih =>
      have hcount : count.toNat < 64 := hpass.1
      have htwo : 2 ≤ value.toNat := by
        have hzero : value.toNat ≠ 0 := fun h => hvalue (UInt64.toNat_inj.mp h)
        have hone : value.toNat ≠ 1 := fun h => hpass.2 (UInt64.toNat_inj.mp h)
        omega
      have hlog := log2_shiftRight_one htwo
      have hnext : (count + 1).toNat = count.toNat + 1 := by
        rw [UInt16.toNat_add]
        change (count.toNat + 1) % 2 ^ 16 = count.toNat + 1
        omega
      have hhalf : value >>> 1 ≠ 0 := by
        intro hzero
        have hshift := shiftRight_one_toNat value
        rw [hzero, Nat.shiftRight_eq_div_pow] at hshift
        change 0 = value.toNat / 2 ^ 1 at hshift
        omega
      rw [fallbackLoop, if_pos hpass, ih hhalf, hnext, shiftRight_one_toNat, hlog]
      · omega
      · rw [hnext, shiftRight_one_toNat]
        omega
  | case2 count value hlast =>
      rw [fallbackLoop, if_neg hlast]
      by_cases hone : value = 1
      · rw [hone]
        rfl
      · have hcount : ¬ count < 64 := fun h => hlast ⟨h, hone⟩
        rw [UInt16.lt_iff_toNat_lt] at hcount
        change ¬ count.toNat < 64 at hcount
        omega

theorem bsr32_fallback (hvalue : value ≠ 0) :
    (bsr32 builtins .fallback value).toNat = 1 + value.toNat.log2 := by
  rw [bsr32, if_neg hvalue]
  have hlog := log2_lt_64 value
  apply fallbackLoop_toNat 1 value hvalue
  change 1 + value.toNat.log2 ≤ 64
  omega

theorem bsr32_of_ne_gcc {branch : Branch} (hbranch : branch ≠ .gcc) (hvalue : value ≠ 0) :
    (bsr32 builtins branch value).toNat = 1 + value.toNat.log2 := by
  cases branch with
  | gcc => exact absurd rfl hbranch
  | msvcX64 => exact bsr32_msvcX64 builtins hvalue
  | msvc => exact bsr32_msvc builtins hvalue
  | fallback => exact bsr32_fallback builtins hvalue

theorem smears_or {n m s : UInt64} {k : ℕ} (hs : s.toNat % 64 = k)
    (h : Smears n.toNat k m.toNat) : Smears n.toNat (k + k) (m ||| (m >>> s)).toNat := by
  rw [UInt64.toNat_or, UInt64.toNat_shiftRight, hs]
  exact h.double

theorem sub_half_toNat {n m : UInt64} (h : m.toNat = 2 ^ (n.toNat.log2 + 1) - 1) :
    (m - (m >>> 1)).toNat = 2 ^ n.toNat.log2 := by
  have hle : m >>> 1 ≤ m := by
    rw [UInt64.le_iff_toNat_le, shiftRight_one_toNat, Nat.shiftRight_eq_div_pow]
    omega
  rw [UInt64.toNat_sub_of_le _ _ hle, shiftRight_one_toNat, h]
  exact mask_sub_half _

theorem hibit_toNat {n : UInt64} (hn : n ≠ 0) : (hibit n).toNat = 2 ^ n.toNat.log2 := by
  have hzero : n.toNat ≠ 0 := fun h => hn (UInt64.toNat_inj.mp h)
  rw [hibit]
  have h2 := smears_or (s := 1) rfl (smears_self n.toNat)
  generalize n ||| (n >>> 1) = m at h2 ⊢
  have h4 := smears_or (s := 2) rfl h2
  generalize m ||| (m >>> 2) = m at h4 ⊢
  have h8 := smears_or (s := 4) rfl h4
  generalize m ||| (m >>> 4) = m at h8 ⊢
  have h16 := smears_or (s := 8) rfl h8
  generalize m ||| (m >>> 8) = m at h16 ⊢
  have h32 := smears_or (s := 16) rfl h16
  generalize m ||| (m >>> 16) = m at h32 ⊢
  have h64 := smears_or (s := 32) rfl h32
  generalize m ||| (m >>> 32) = m at h64 ⊢
  exact sub_half_toNat (h64.eq_mask hzero n.toNat_lt)

theorem toUInt64_ne_zero {v : UInt32} (h : v ≠ 0) : v.toUInt64 ≠ 0 := by
  intro hzero
  apply toNat_ne_zero h
  rw [← UInt32.toNat_toUInt64, hzero]
  rfl

theorem highestOrderBit_lt (firstGuess : UInt32) : (highestOrderBit firstGuess).toNat < 2 ^ 31 := by
  rw [highestOrderBit, UInt64.toNat_toUInt32, UInt64.toNat_div]
  change (hibit firstGuess.toUInt64).toNat / 2 % 2 ^ 32 < 2 ^ 31
  by_cases hzero : firstGuess = 0
  · rw [hzero]
    decide
  · have hlog := log2_lt_32 firstGuess
    have hbound : 2 ^ firstGuess.toNat.log2 < 2 ^ 32 := Nat.pow_lt_pow_right (by omega) hlog
    rw [hibit_toNat (toUInt64_ne_zero hzero), UInt32.toNat_toUInt64]
    generalize 2 ^ firstGuess.toNat.log2 = bit at hbound ⊢
    omega

theorem valueLow_toUInt64 (v : UInt32) : valueLow v.toUInt64 = v := by
  apply UInt32.toNat_inj.mp
  rw [valueLow_toNat, UInt32.toNat_toUInt64]
  exact Nat.mod_eq_of_lt v.toNat_lt

/-- The scan of a single word is at most 32 too high, whatever the branch. -/
theorem firstGuessShift_lt (builtins : Builtins) (branch : Branch) {firstGuess : UInt32}
    (hbit : highestOrderBit firstGuess ≠ 0) :
    (firstGuessShift builtins branch firstGuess).toNat < 32 := by
  have hlog : (highestOrderBit firstGuess).toNat.log2 < 31 :=
    (Nat.log2_lt (toNat_ne_zero hbit)).mpr (highestOrderBit_lt firstGuess)
  rw [firstGuessShift, UInt16.toNat_div]
  change (bsr32 builtins branch (highestOrderBit firstGuess).toUInt64).toNat / 2 < 32
  by_cases hbranch : branch = .gcc
  · have hgcc := @bsr32_gcc builtins (highestOrderBit firstGuess).toUInt64
    rw [valueLow_toUInt64] at hgcc
    rw [hbranch, hgcc hbit]
    omega
  · rw [bsr32_of_ne_gcc builtins hbranch (toUInt64_ne_zero hbit), UInt32.toNat_toUInt64]
    omega

/-- Scans that are right on every nonzero word and count `atZero` leading zeros in zero. -/
def builtinsWith (atZero : ℤ) : Builtins where
  clzl v := if v = 0 then atZero else 31 - (v.toNat.log2 : ℤ)
  bitScanReverse v := if v = 0 then (false, 0) else (true, v.toNat.log2.toUInt32)
  bitScanReverse64 v := if v = 0 then (false, 0) else (true, v.toNat.log2.toUInt32)
  clzl_eq _ hv := if_neg hv
  bitScanReverse_zero := rfl
  bitScanReverse_eq _ hv := if_neg hv
  bitScanReverse64_eq _ hv := if_neg hv

theorem Scans.valueLow_ne_zero (h : Scans value) : valueLow value ≠ 0 := by
  intro hlow
  have hatZero : ∀ atZero : ℤ, (UInt16.ofInt (64 - atZero)).toNat = 1 + value.toNat.log2 := by
    intro atZero
    have hgcc := (h (builtinsWith atZero) .gcc).1
    rw [bsr32, toUInt32_eq_valueLow, hlow] at hgcc
    exact hgcc
  have hnone : 64 = 1 + value.toNat.log2 := hatZero 0
  have hone : 63 = 1 + value.toNat.log2 := hatZero 1
  omega

theorem bsr32_of_halves (h : HalvesReachAlike value) (builtins : Builtins) (branch : Branch) :
    (bsr32 builtins branch value).toNat = 1 + value.toNat.log2 := by
  obtain ⟨hhigh, hlow, halike⟩ := h
  by_cases hbranch : branch = .gcc
  · rw [hbranch, bsr32_gcc builtins hlow, log2_of_valueHigh hhigh, halike]
    omega
  · apply bsr32_of_ne_gcc builtins hbranch
    rintro rfl
    exact hlow rfl

/-- The GCC built-in counts within 32 bits, so the branches agree exactly where the low half
reaches as high as the high half. -/
theorem scans_iff_halvesReachAlike (hvalue : value ≠ 0) :
    Scans value ↔ HalvesReachAlike value := by
  constructor
  · intro h
    have hlow := h.valueLow_ne_zero
    have hgcc := (h (builtinsWith 0) .gcc).1
    rw [bsr32_gcc _ hlow] at hgcc
    have hhigh : valueHigh value ≠ 0 := by
      intro hzero
      rw [valueLow_of_valueHigh hzero] at hgcc
      omega
    rw [log2_of_valueHigh hhigh] at hgcc
    exact ⟨hhigh, hlow, by omega⟩
  · intro h builtins branch
    refine ⟨bsr32_of_halves h builtins branch, ?_⟩
    rintro firstGuess rfl
    apply firstGuessShift_lt
    intro hzero
    rw [hzero] at hvalue
    exact hvalue rfl

theorem scans_iff_halvesReachAlike_low_bits :
    Scans 0x100000001 ↔ HalvesReachAlike 0x100000001 :=
  scans_iff_halvesReachAlike (by decide)

theorem not_forall_scans : ¬ ∀ value : UInt64, value ≠ 0 → Scans value := by
  intro h
  have hgcc := (h 1 (by decide) (builtinsWith 0) .gcc).1
  rw [bsr32_gcc _ (by decide)] at hgcc
  exact absurd hgcc (by decide)

end MuTegra.MathLib.BitScan
