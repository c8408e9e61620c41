/- Unit: MuTegra/Timer/Reload
   source: NvidiaPkg/GPLDrivers/TegraTimerDxe/TegraTimerDxe.c
   digest: The reload loop ends exactly when its step is nonzero or no step is needed. -/

import MuTegra.Timer.Driver
import Mathlib.Data.List.Induction
import Mathlib.Order.Bounds.Basic
import Mathlib.Order.Nat
import Mathlib.Order.ConditionallyCompleteLattice.Basic
import Mathlib.Order.Lattice.Nat
import Mathlib.Tactic.Ring

/-!
The step of the loop is the global `mTimerTicks`. It is 0 from load time until the
first nonzero period is set, and it is 0 again whenever a period times the clock rate
comes to less than one tick; a later period of 0 leaves it as it is.
-/

set_option autoImplicit false
set_option relaxedAutoImplicit false

namespace MuTegra.Timer.Reload

open MuTegra.Foundation.Loops
open MuTegra.Foundation.MachineWords
open MuTegra.Timer.Driver

/-- Calls of `SetTimerPeriod`, each with the registers it finds. -/
abbrev Calls := List ((ℕ → UInt32) × UInt64)

def settled (clockRate : UInt64) (initial : ℕ → UInt32) (calls : Calls) : TegraTimer :=
  calls.foldl (fun t call => timerDriverSetTimerPeriod (t.finds call.1) call.2.toNat)
    (timerInitialize clockRate.toNat (.load fun address => (initial address).toNat))

def lastPeriod (calls : Calls) : Option UInt64 :=
  ((calls.map Prod.snd).filter fun timerPeriod => timerPeriod ≠ 0).getLast?

/-- The ticks `SetTimerPeriod` computes for a period. -/
def periodTicks (clockRate timerPeriod : UInt64) : ℕ :=
  toUint64 (timerPeriod.toNat * toUint32 clockRate.toNat) / 10000000

def reload (fuel : ℕ) (t : TegraTimer) : Option (ℕ × ℕ) :=
  loop (reloadPass t.mTimerTicks (t.mmioRead32 tegraTimerUsecCntr)) fuel (t.readCompare, 0)

def enoughSteps (t : TegraTimer) : Set ℕ :=
  {j | 1 ≤ j ∧ t.mmioRead32 tegraTimerUsecCntr ≤ t.readCompare + j * t.mTimerTicks}

/-- The loop ends, with the least number of steps that is enough taken and counted. -/
def ReloadCorrect (t : TegraTimer) : Prop :=
  ∃ j, IsLeast (enoughSteps t) j ∧ ∀ fuel, j ≤ fuel →
    reload fuel t = some (t.readCompare + j * t.mTimerTicks, j) ∧
      (t.isActive = true →
        ∃ t', timerInterruptHandler fuel t = some t' ∧ t'.mElapsedPeriod = j)

variable {clockRate : UInt64} {initial : ℕ → UInt32}

theorem settled_append (calls : Calls) (call : (ℕ → UInt32) × UInt64) :
    settled clockRate initial (calls ++ [call]) =
      timerDriverSetTimerPeriod ((settled clockRate initial calls).finds call.1)
        call.2.toNat := by
  rw [settled, List.foldl_append]
  rfl

theorem lastPeriod_append (calls : Calls) (call : (ℕ → UInt32) × UInt64) :
    lastPeriod (calls ++ [call]) = if call.2 = 0 then lastPeriod calls else some call.2 := by
  unfold lastPeriod
  rw [List.map_append, List.filter_append]
  split
  · rename_i hzero
    simp [hzero]
  · rename_i hnonzero
    simp [hnonzero]

theorem setTimerPeriod_clockRate (t : TegraTimer) (timerPeriod : ℕ) :
    (timerDriverSetTimerPeriod t timerPeriod).clockRate = t.clockRate := by
  rw [timerDriverSetTimerPeriod]
  split <;> rfl

theorem setTimerPeriod_ticks (t : TegraTimer) (timerPeriod : ℕ) :
    (timerDriverSetTimerPeriod t timerPeriod).mTimerTicks =
      if timerPeriod ≠ 0 then toUint64 (timerPeriod * toUint32 t.clockRate) / 10000000
      else t.mTimerTicks := by
  rw [timerDriverSetTimerPeriod]
  split <;> rfl

theorem settled_clockRate (calls : Calls) :
    (settled clockRate initial calls).clockRate = clockRate.toNat := by
  induction calls using List.reverseRecOn with
  | nil => rfl
  | append_singleton calls call ih =>
      rw [settled_append, setTimerPeriod_clockRate]
      exact ih

theorem settled_ticks (calls : Calls) :
    (settled clockRate initial calls).mTimerTicks =
      ((lastPeriod calls).map (periodTicks clockRate)).getD 0 := by
  induction calls using List.reverseRecOn with
  | nil => rfl
  | append_singleton calls call ih =>
      have hrate : ((settled clockRate initial calls).finds call.1).clockRate =
          clockRate.toNat := settled_clockRate calls
      rw [settled_append, setTimerPeriod_ticks, lastPeriod_append, hrate]
      by_cases hzero : call.2 = 0
      · rw [if_pos hzero, if_neg (by simp [hzero])]
        exact ih
      · have hnat : call.2.toNat ≠ 0 := fun h => hzero (UInt64.toNat_inj.mp h)
        rw [if_neg hzero, if_pos hnat]
        rfl

variable {ticks counter old j : ℕ}

/-- Before the last step the compare value is still small enough to be stepped on. -/
private theorem compare_lt (hleast : IsLeast {j | 1 ≤ j ∧ counter ≤ old + j * ticks} j)
    (hcounter : counter < 2 ^ 32) (hold : old < 2 ^ 32) {i : ℕ} (hi : i < j) :
    old + i * ticks < 2 ^ 32 := by
  rcases Nat.eq_zero_or_pos i with rfl | hpos
  · rwa [Nat.zero_mul]
  · have hnot : ¬ counter ≤ old + i * ticks := fun hle =>
      absurd (hleast.2 ⟨hpos, hle⟩) (by omega)
    omega

/-- The number of steps is small: each but the last is at least one tick long. -/
private theorem steps_le (hleast : IsLeast {j | 1 ≤ j ∧ counter ≤ old + j * ticks} j) :
    j ≤ counter + 1 := by
  by_contra hlarge
  have hbelow : ¬ counter ≤ old + (j - 1) * ticks := fun hle =>
    absurd (hleast.2 ⟨by omega, hle⟩) (by omega)
  have hticks : ticks ≠ 0 := by
    rintro rfl
    exact hbelow hleast.1.2
  have hmul : j - 1 ≤ (j - 1) * ticks := Nat.le_mul_of_pos_right _ (by omega)
  omega

private theorem reloadPass_eq (hleast : IsLeast {j | 1 ≤ j ∧ counter ≤ old + j * ticks} j)
    (hcounter : counter < 2 ^ 32) (hold : old < 2 ^ 32) (hticks : ticks < 2 ^ 63) {i : ℕ}
    (hi : i < j) :
    reloadPass ticks counter (old + i * ticks, i) =
      if old + (i + 1) * ticks < counter then some (.inl (old + (i + 1) * ticks, i + 1))
      else some (.inr (old + (i + 1) * ticks, i + 1)) := by
  have hvalue := compare_lt hleast hcounter hold hi
  have hcount := steps_le hleast
  have hsum : old + i * ticks + ticks = old + (i + 1) * ticks := by ring
  have hnext : toUint64 (old + i * ticks + ticks) = old + (i + 1) * ticks := by
    rw [← hsum]
    exact Nat.mod_eq_of_lt (by omega)
  have hsteps : toUint64 (i + 1) = i + 1 := Nat.mod_eq_of_lt (by omega)
  simp only [reloadPass, hnext, hsteps]

theorem loop_steps (hleast : IsLeast {j | 1 ≤ j ∧ counter ≤ old + j * ticks} j)
    (hcounter : counter < 2 ^ 32) (hold : old < 2 ^ 32) (hticks : ticks < 2 ^ 63) (n i : ℕ)
    (hn : i + n + 1 = j) :
    loop (reloadPass ticks counter) (n + 1) (old + i * ticks, i) = some (old + j * ticks, j) := by
  have hpass := reloadPass_eq hleast hcounter hold hticks (i := i) (by omega)
  induction n generalizing i with
  | zero =>
      obtain rfl : i + 1 = j := hn
      rw [if_neg (not_lt.mpr hleast.1.2)] at hpass
      exact loop_done 0 hpass
  | succ n ih =>
      have hbelow : old + (i + 1) * ticks < counter := by
        by_contra hle
        exact absurd (hleast.2 ⟨Nat.le_add_left 1 i, not_lt.mp hle⟩) (by omega)
      rw [if_pos hbelow] at hpass
      rw [loop_next (n + 1) hpass]
      exact ih (i + 1) (by omega) (reloadPass_eq hleast hcounter hold hticks (by omega))

/-- Some number of steps is enough exactly when a step is made or none is missing. -/
theorem exists_least_iff (ticks counter old : ℕ) :
    (∃ j, IsLeast {j | 1 ≤ j ∧ counter ≤ old + j * ticks} j) ↔ counter ≤ old ∨ ticks ≠ 0 := by
  constructor
  · rintro ⟨j, ⟨_, henough⟩, _⟩
    by_cases hticks : ticks = 0
    · rw [hticks, Nat.mul_zero] at henough
      exact Or.inl henough
    · exact Or.inr hticks
  · intro hstep
    have hsome : {j | 1 ≤ j ∧ counter ≤ old + j * ticks}.Nonempty := by
      rcases hstep with hle | hticks
      · exact ⟨1, le_rfl, by omega⟩
      · have hmul : counter + 1 ≤ (counter + 1) * ticks :=
          Nat.le_mul_of_pos_right _ (Nat.pos_of_ne_zero hticks)
        exact ⟨counter + 1, Nat.le_add_left 1 counter, by omega⟩
    exact ⟨_, Nat.sInf_mem hsome, fun j hj => Nat.sInf_le hj⟩

variable {t : TegraTimer}

theorem timerInterruptHandler_active (hactive : t.isActive = true) (fuel : ℕ) :
    timerInterruptHandler fuel t = (reload fuel t).map t.notify.rearm := by
  have hsame : t.notify.mTimerTicks = t.mTimerTicks ∧ t.notify.registers = t.registers := by
    rw [TegraTimer.notify]
    split
    · exact ⟨rfl, rfl⟩
    · exact ⟨rfl, rfl⟩
  rw [timerInterruptHandler, if_pos hactive]
  simp only [reload, TegraTimer.readCompare, TegraTimer.mmioRead32, hsame.1, hsame.2]

theorem reloadCorrect_iff_ticks (hcounter : t.mmioRead32 tegraTimerUsecCntr < 2 ^ 32)
    (hticks : t.mTimerTicks < 2 ^ 63) :
    ReloadCorrect t ↔
      t.mmioRead32 tegraTimerUsecCntr ≤ t.readCompare ∨ t.mTimerTicks ≠ 0 := by
  have hold : t.readCompare < 2 ^ 32 := by
    have hmask : t.readCompare ≤ 0x1FFFFFFF := Nat.and_le_right
    omega
  rw [← exists_least_iff]
  constructor
  · rintro ⟨j, hleast, _⟩
    exact ⟨j, hleast⟩
  · rintro ⟨j, hleast⟩
    refine ⟨j, hleast, fun fuel hfuel => ?_⟩
    have hpos : 1 ≤ j := hleast.1.1
    have hloop := loop_steps hleast hcounter hold hticks (j - 1) 0 (by omega)
    rw [Nat.zero_mul, Nat.add_zero, Nat.sub_add_cancel hpos] at hloop
    have hreload : reload fuel t = some (t.readCompare + j * t.mTimerTicks, j) :=
      loop_mono hloop hfuel
    refine ⟨hreload, fun hactive => ⟨t.notify.rearm (t.readCompare + j * t.mTimerTicks, j), ?_, rfl⟩⟩
    rw [timerInterruptHandler_active hactive, hreload]
    rfl

def running : ℕ → UInt32 := fun address =>
  if address = tegraTimerUsecCntr then 1 else if address = timerTmr1TmrPtv0 then 0x80000000 else 0

end MuTegra.Timer.Reload
