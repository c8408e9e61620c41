/- Unit: MuTegra/Timer/Nanoseconds
   source: NvidiaPkg/GPLLibrary/TegraTimerLib/TegraTimerLib.c
   digest: The tick conversion divides by the counter's value where its frequency belongs. -/

import MuTegra.Foundation.MachineWords
import MuTegra.Timer.Counter
import Mathlib.Tactic.Ring

set_option autoImplicit false
set_option relaxedAutoImplicit false

namespace MuTegra.Timer.Nanoseconds

open MuTegra.Foundation.MachineWords
open MuTegra.Timer.Counter (Registers getPerformanceCounterProperties)
open MuTegra.Timer.Driver (tegraTimerUsecCntr)

/-- `GetTimeInNanoSecond`; nothing where it divides by zero. -/
def getTimeInNanoSecond (registers : Registers) (ticks : UInt64) : Option ℕ :=
  let timerFreq := (registers tegraTimerUsecCntr).toNat
  if timerFreq = 0 then none
  else
    let nanoSeconds := toUint64 (ticks.toNat / timerFreq * 1000000000)
    let remainder := ticks.toNat % timerFreq
    some (toUint64 (nanoSeconds + toUint64 (remainder * 1000000000) / timerFreq))

def frequency : ℕ := (getPerformanceCounterProperties none none).1.toNat

/-- Two conversions, with the registers at the time of each, give the time the ticks take
at the reported frequency. -/
def TimeCorrect (ticks : UInt64) (registers registers' : Registers) : Prop :=
  getTimeInNanoSecond registers ticks = some (ticks.toNat * 1000000000 / frequency) ∧
    getTimeInNanoSecond registers' ticks = getTimeInNanoSecond registers ticks

/-- The value `counter` in place of the frequency makes no difference: there are no ticks,
or it is so little below the frequency that the rounding hides it, or the error is whole
laps of the 64-bit result. -/
def ActsAsFrequency (ticks counter : ℕ) : Prop :=
  (ticks = 0 ∧ counter ≠ 0) ∨
    (counter ≤ 1000000 ∧ ticks * 1000000000 < (ticks * 1000 + 1) * counter) ∨
    ∃ laps, 1 ≤ laps ∧ (ticks * 1000 + laps * 2 ^ 64) * counter ≤ ticks * 1000000000 ∧
      ticks * 1000000000 < (ticks * 1000 + laps * 2 ^ 64 + 1) * counter

theorem scale_split (ticks scale counter : ℕ) (hpos : 0 < counter) :
    ticks / counter * scale + ticks % counter * scale / counter = ticks * scale / counter := by
  have hticks : ticks * scale =
      counter * (ticks / counter * scale) + ticks % counter * scale := by
    conv_lhs => rw [← Nat.div_add_mod ticks counter]
    ring
  rw [hticks, Nat.mul_add_div hpos]

variable {registers : Registers} {ticks : UInt64}

theorem getTimeInNanoSecond_zero (h : (registers tegraTimerUsecCntr).toNat = 0) :
    getTimeInNanoSecond registers ticks = none :=
  if_pos h

theorem getTimeInNanoSecond_eq (h : (registers tegraTimerUsecCntr).toNat ≠ 0) :
    getTimeInNanoSecond registers ticks =
      some (toUint64 (ticks.toNat * 1000000000 / (registers tegraTimerUsecCntr).toNat)) := by
  have hdef : getTimeInNanoSecond registers ticks = _ := if_neg h
  have hpos := Nat.pos_of_ne_zero h
  have hsmall : ticks.toNat % (registers tegraTimerUsecCntr).toNat < 4294967296 :=
    (Nat.mod_lt _ hpos).trans (registers tegraTimerUsecCntr).isLt
  have hproduct : toUint64 (ticks.toNat % (registers tegraTimerUsecCntr).toNat * 1000000000) =
      ticks.toNat % (registers tegraTimerUsecCntr).toNat * 1000000000 :=
    Nat.mod_eq_of_lt (by omega)
  rw [hdef, hproduct, ← scale_split ticks.toNat _ _ hpos]
  exact congrArg some (Nat.mod_add_mod _ _ _)

section Frequency

variable {ticks counter : ℕ}

theorem not_actsAsFrequency_zero (ticks : ℕ) : ¬ ActsAsFrequency ticks 0 := by
  rintro (⟨_, hzero⟩ | ⟨_, hlt⟩ | ⟨_, _, _, hlt⟩)
  · exact hzero rfl
  · exact absurd hlt (Nat.not_lt_zero _)
  · exact absurd hlt (Nat.not_lt_zero _)

theorem quotient_laps_iff (hpos : 0 < counter) (laps : ℕ) :
    ticks * 1000000000 / counter = ticks * 1000 + laps * 2 ^ 64 ↔
      (ticks * 1000 + laps * 2 ^ 64) * counter ≤ ticks * 1000000000 ∧
        ticks * 1000000000 < (ticks * 1000 + laps * 2 ^ 64 + 1) * counter := by
  rw [Nat.div_eq_iff hpos, Nat.succ_mul]
  omega

theorem quotient_exact_iff (hpos : 0 < counter) :
    ticks * 1000000000 / counter = ticks * 1000 ↔
      (ticks = 0 ∧ counter ≠ 0) ∨
        (counter ≤ 1000000 ∧ ticks * 1000000000 < (ticks * 1000 + 1) * counter) := by
  have hrate : ticks * 1000000000 = ticks * 1000 * 1000000 := by ring
  have hexact := @quotient_laps_iff ticks counter hpos 0
  rw [Nat.zero_mul, Nat.add_zero] at hexact
  rw [hexact]
  constructor
  · rintro ⟨hlow, hhigh⟩
    rcases Nat.eq_zero_or_pos ticks with hnone | hsome
    · exact Or.inl ⟨hnone, Nat.pos_iff_ne_zero.mp hpos⟩
    · refine Or.inr ⟨?_, hhigh⟩
      have hscaled : ticks * 1000 * counter ≤ ticks * 1000 * 1000000 := hlow.trans_eq hrate
      exact Nat.le_of_mul_le_mul_left hscaled (by omega)
  · rintro (⟨rfl, _⟩ | ⟨hle, hhigh⟩)
    · omega
    · have hscaled : ticks * 1000 * counter ≤ ticks * 1000 * 1000000 :=
        Nat.mul_le_mul_left _ hle
      exact ⟨hscaled.trans_eq hrate.symm, hhigh⟩

/-- The quotient by the counter, in 64 bits, is the quotient by the frequency exactly when
the counter acts as the frequency. -/
theorem quotient_eq_iff (hpos : 0 < counter) (hfits : ticks * 1000 < 2 ^ 64) :
    toUint64 (ticks * 1000000000 / counter) = ticks * 1000 ↔ ActsAsFrequency ticks counter := by
  have hmod : toUint64 (ticks * 1000000000 / counter) = ticks * 1000 ↔
      ticks * 1000000000 / counter = ticks * 1000 ∨ ∃ laps, 1 ≤ laps ∧
        ticks * 1000000000 / counter = ticks * 1000 + laps * 2 ^ 64 := mod_eq_iff_laps hfits
  rw [hmod, ActsAsFrequency, ← or_assoc]
  apply or_congr (quotient_exact_iff hpos)
  apply exists_congr
  intro laps
  exact and_congr_right fun _ => quotient_laps_iff hpos laps

end Frequency

/-- Two conversions at any times are right exactly when at both the counter happens to act
as the frequency. -/
theorem timeCorrect_iff (ticks : UInt64) (registers registers' : Registers)
    (hfits : ticks.toNat * 1000000000 / frequency < 2 ^ 64) :
    TimeCorrect ticks registers registers' ↔
      ActsAsFrequency ticks.toNat (registers tegraTimerUsecCntr).toNat ∧
        ActsAsFrequency ticks.toNat (registers' tegraTimerUsecCntr).toNat := by
  have htime : ticks.toNat * 1000000000 / frequency = ticks.toNat * 1000 := by
    change ticks.toNat * 1000000000 / 1000000 = _
    omega
  rw [htime] at hfits
  have hcall : ∀ r : Registers, getTimeInNanoSecond r ticks = some (ticks.toNat * 1000) ↔
      ActsAsFrequency ticks.toNat (r tegraTimerUsecCntr).toNat := by
    intro r
    by_cases hzero : (r tegraTimerUsecCntr).toNat = 0
    · rw [getTimeInNanoSecond_zero hzero, hzero]
      exact iff_of_false (by simp) (not_actsAsFrequency_zero _)
    · rw [getTimeInNanoSecond_eq hzero, Option.some_inj]
      exact quotient_eq_iff (Nat.pos_of_ne_zero hzero) hfits
  rw [TimeCorrect, htime, ← hcall registers, ← hcall registers']
  exact and_congr_right fun hfirst => by rw [hfirst]

def atFrequency : Registers := fun _ => 1000000

theorem timeCorrect_iff_atFrequency :
    TimeCorrect 5 atFrequency atFrequency ↔
      ActsAsFrequency (5 : UInt64).toNat (atFrequency tegraTimerUsecCntr).toNat ∧
        ActsAsFrequency (5 : UInt64).toNat (atFrequency tegraTimerUsecCntr).toNat :=
  timeCorrect_iff 5 atFrequency atFrequency (by decide)

/-- While the counter reads 0, as it does after each wrap, the conversion divides by zero. -/
theorem wrapped_not_timeCorrect : ¬ TimeCorrect 5 (fun _ => 0) (fun _ => 0) := by
  rintro ⟨htime, _⟩
  cases htime

end MuTegra.Timer.Nanoseconds
