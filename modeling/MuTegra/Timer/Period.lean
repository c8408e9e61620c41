/- Unit: MuTegra/Timer/Period
   source: NvidiaPkg/GPLDrivers/TegraTimerDxe/TegraTimerDxe.c
   digest: Periods are scaled by the oscillator rate, while the counter runs at 1 MHz. -/

import MuTegra.Timer.Driver

set_option autoImplicit false
set_option relaxedAutoImplicit false

namespace MuTegra.Timer.Period

open MuTegra.Foundation.MachineWords
open MuTegra.Timer.Driver

/-- The microseconds that cover a period given in units of 100 ns. -/
def periodMicroseconds (timerPeriod : ℕ) : ℕ := (timerPeriod + 9) / 10

/-- The compare value that `SetTimerPeriod` wrote last, at whichever address the driver uses for
it. -/
def programmed (t : TegraTimer) : Option ℕ :=
  (t.writes.reverse.find? fun write => write.1 == compareWriteAddress).map Prod.snd

/-- Setting the period programs a compare value as many ticks of the 1 MHz counter ahead
as cover it, one at least, and the product computed on the way fits in 64 bits. -/
structure PeriodProgrammed (t : TegraTimer) (timerPeriod : ℕ) : Prop where
  product : timerPeriod * toUint32 t.clockRate < 2 ^ 64
  ahead : ∃ compareValue, programmed (timerDriverSetTimerPeriod t timerPeriod) = some compareValue ∧
    compareValue < 2 ^ 32 ∧
    subUint32 compareValue (t.mmioRead32 tegraTimerUsecCntr) = periodMicroseconds timerPeriod
  positive : 1 ≤ periodMicroseconds timerPeriod

/-- A single unit at a rate below 20 MHz, or a period so long that its oscillator cycles
exceed its microseconds by whole laps of the counter, to within a tick. -/
def PeriodMatches (clockRate timerPeriod : ℕ) : Prop :=
  (timerPeriod = 1 ∧ clockRate < 20000000) ∨
    ∃ laps, 1 ≤ laps ∧
      10000000 * (periodMicroseconds timerPeriod + laps * 2 ^ 32) ≤ timerPeriod * clockRate ∧
      timerPeriod * clockRate < 10000000 * (periodMicroseconds timerPeriod + laps * 2 ^ 32 + 1)

variable {clockRate timerPeriod : ℕ}

theorem accepted_rate (h : usecConfig clockRate ≠ 0) :
    12000000 ≤ clockRate ∧ clockRate ≤ 48000000 := by
  unfold usecConfig at h
  split_ifs at h <;> omega

theorem product_lt (haccepted : usecConfig clockRate ≠ 0)
    (hfits : periodMicroseconds timerPeriod < 2 ^ 32) : timerPeriod * clockRate < 2 ^ 64 := by
  have hmul : timerPeriod * clockRate ≤ timerPeriod * 48000000 :=
    Nat.mul_le_mul_left _ (accepted_rate haccepted).2
  unfold periodMicroseconds at hfits
  omega

/-- Only the shortest period at a rate below 20 MHz comes to the right number of ticks. -/
theorem ticks_eq_iff (haccepted : usecConfig clockRate ≠ 0) (hperiod : timerPeriod ≠ 0) :
    timerPeriod * clockRate / 10000000 = periodMicroseconds timerPeriod ↔
      timerPeriod = 1 ∧ clockRate < 20000000 := by
  have hrate := accepted_rate haccepted
  have hmul : timerPeriod * 12000000 ≤ timerPeriod * clockRate :=
    Nat.mul_le_mul_left _ hrate.1
  unfold periodMicroseconds
  constructor
  · intro hticks
    have hone : timerPeriod = 1 := by omega
    subst hone
    refine ⟨rfl, ?_⟩
    omega
  · rintro ⟨rfl, hlow⟩
    omega

theorem ticks_modEq_iff (haccepted : usecConfig clockRate ≠ 0) (hperiod : timerPeriod ≠ 0)
    (hfits : periodMicroseconds timerPeriod < 2 ^ 32) :
    toUint32 (timerPeriod * clockRate / 10000000) = periodMicroseconds timerPeriod ↔
      PeriodMatches clockRate timerPeriod := by
  have hmod : toUint32 (timerPeriod * clockRate / 10000000) = periodMicroseconds timerPeriod ↔
      timerPeriod * clockRate / 10000000 = periodMicroseconds timerPeriod ∨ ∃ laps, 1 ≤ laps ∧
        timerPeriod * clockRate / 10000000 = periodMicroseconds timerPeriod + laps * 2 ^ 32 :=
    mod_eq_iff_laps hfits
  rw [hmod, PeriodMatches, ticks_eq_iff haccepted hperiod]
  apply or_congr_right
  apply exists_congr
  intro laps
  apply and_congr_right
  intro _
  omega

theorem ahead_of_counter {counter : ℕ} (hcounter : counter < 2 ^ 32) (ticks : ℕ) :
    subUint32 (toUint32 (counter + ticks)) counter = toUint32 ticks := by
  unfold subUint32 toUint32
  omega

variable {t : TegraTimer}

@[simp] theorem programmed_mmioWrite32_self (value : ℕ) :
    programmed (t.mmioWrite32 compareWriteAddress value) = some value := by
  simp [programmed, TegraTimer.mmioWrite32]

@[simp] theorem programmed_mmioWrite32_other {address value : ℕ}
    (h : address ≠ compareWriteAddress) :
    programmed (t.mmioWrite32 address value) = programmed t := by
  simp [programmed, TegraTimer.mmioWrite32, h]

theorem programmed_setTimerPeriod (hperiod : timerPeriod ≠ 0) :
    programmed (timerDriverSetTimerPeriod t timerPeriod) =
      some (toUint32 (t.mmioRead32 tegraTimerUsecCntr +
        toUint64 (timerPeriod * toUint32 t.clockRate) / 10000000)) := by
  have hset : timerDriverSetTimerPeriod t timerPeriod = _ := if_pos hperiod
  have hread : (t.mmioWrite32 timerTmr1TmrPtv0 (ptvValue 0)).registers tegraTimerUsecCntr =
      t.registers tegraTimerUsecCntr := mmioWrite32_other (by decide)
  rw [hset, programmed_mmioWrite32_other (by decide), programmed_mmioWrite32_self]
  simp only [TegraTimer.mmioRead32]
  exact congrArg (fun counter => some (toUint32 (counter + _))) hread

/-- At every accepted clock rate and for every nonzero period the counter can hold, the
compare value is right exactly when the scaling by the wrong rate makes no difference. -/
theorem periodProgrammed_iff (t : TegraTimer) (found : ℕ → UInt32) (timerPeriod : UInt64)
    (haccepted : usecConfig t.clockRate ≠ 0) (hperiod : timerPeriod ≠ 0)
    (hfits : periodMicroseconds timerPeriod.toNat < 2 ^ 32) :
    PeriodProgrammed (t.finds found) timerPeriod.toNat ↔
      PeriodMatches t.clockRate timerPeriod.toNat := by
  have hnat : timerPeriod.toNat ≠ 0 := fun h => hperiod (UInt64.toNat_inj.mp h)
  have hrate : toUint32 t.clockRate = t.clockRate := by
    have hbound := (accepted_rate haccepted).2
    exact toUint32_of_lt (by omega)
  have hproduct : timerPeriod.toNat * toUint32 (t.finds found).clockRate < 2 ^ 64 := by
    change timerPeriod.toNat * toUint32 t.clockRate < 2 ^ 64
    rw [hrate]
    exact product_lt haccepted hfits
  have hticks : toUint64 (timerPeriod.toNat * toUint32 (t.finds found).clockRate) =
      timerPeriod.toNat * t.clockRate :=
    (Nat.mod_eq_of_lt hproduct).trans (congrArg _ hrate)
  have hprogrammed := programmed_setTimerPeriod (t := t.finds found) hnat
  have hcounter : (t.finds found).mmioRead32 tegraTimerUsecCntr < 2 ^ 32 :=
    (found tegraTimerUsecCntr).toNat_lt
  rw [hticks] at hprogrammed
  rw [← ticks_modEq_iff haccepted hnat hfits]
  constructor
  · rintro ⟨_, ⟨compareValue, hvalue, _, hahead⟩, _⟩
    rw [hprogrammed, Option.some_inj] at hvalue
    rwa [← hvalue, ahead_of_counter hcounter] at hahead
  · intro hwanted
    refine ⟨hproduct, ⟨_, hprogrammed, Nat.mod_lt _ (by decide), ?_⟩, ?_⟩
    · rw [ahead_of_counter hcounter, hwanted]
    · unfold periodMicroseconds
      omega

def initialised : TegraTimer := timerInitialize 12000000 (.load fun _ => 0)

/-- At 12 MHz a unit of 100 ns is programmed correctly. -/
theorem periodProgrammed_iff_unit :
    PeriodProgrammed (initialised.finds fun _ => 7) (1 : UInt64).toNat ↔
      PeriodMatches initialised.clockRate (1 : UInt64).toNat :=
  periodProgrammed_iff initialised (fun _ => 7) 1 (by decide) (by decide) (by decide)

/-- At 12 MHz a period of 10 ms is programmed 120000 ticks ahead instead of 10000. -/
theorem tenMilliseconds_not_programmed :
    ¬ PeriodProgrammed (initialised.finds fun _ => 7) 100000 := by
  rintro ⟨_, ⟨compareValue, hvalue, _, hahead⟩, _⟩
  rw [programmed_setTimerPeriod (by decide), Option.some_inj] at hvalue
  rw [← hvalue] at hahead
  exact absurd hahead (by decide)

end MuTegra.Timer.Period
