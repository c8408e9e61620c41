/- Unit: MuTegra/Keyboard/PollDelta
   source: NvidiaPkg/Drivers/TegraKeyboardDxe/TegraKeyboardController.c,
   NvidiaPkg/GPLLibrary/TegraTimerLib/TegraTimerLib.c
   digest: When the counter stays in its range and a poll's delta is the time since the last poll. -/

import MuTegra.Foundation.Runs
import MuTegra.Keyboard.TextIn
import MuTegra.Timer.Counter

set_option autoImplicit false
set_option relaxedAutoImplicit false

namespace MuTegra.Keyboard.PollDelta

open MuTegra.Foundation.Runs
open MuTegra.Keyboard.Queue
open MuTegra.Keyboard.ConsoleIn
open MuTegra.Timer.Counter

/-- A moment at which the keyboard is polled: the ticks since the moment before, fewer
than 2^32, what the configuration register reads, and the keys the device pushes. -/
structure Moment where
  elapsed : BitVec 32
  usecCfg : BitVec 32
  getKeys : BitVec 64 → List EfiKeyData

def Moment.poll (moment : Moment) (ticks : ℕ) : Poll where
  currentCounterValue := getPerformanceCounter (timerRegisters ticks moment.usecCfg)
  getKeys := moment.getKeys

structure Reading where
  currentCounterValue : BitVec 64
  deltaCounter : BitVec 64
  deriving DecidableEq, Repr

def pollStep (now : ConsoleInDev × ℕ) (moment : Moment) : Reading × (ConsoleInDev × ℕ) :=
  let ticks := now.2 + moment.elapsed.toNat
  let poll := moment.poll ticks
  (⟨poll.currentCounterValue, deltaCounter now.1 poll⟩, (keyboardTimerHandler now.1 poll, ticks))

def readings (consoleIn : ConsoleInDev) (ticks : ℕ) (moments : List Moment) : List Reading :=
  answers pollStep (consoleIn, ticks) moments

def DeltaTrue (reading : Reading) (moment : Moment) : Prop :=
  reading.deltaCounter.toNat = moment.elapsed.toNat

/-- Every counter value is in the reported range, and every delta from the second poll on
is the true number of ticks since the poll before. -/
@[mk_iff counterSound_iff_and] structure CounterSound (consoleIn : ConsoleInDev) (ticks : ℕ)
    (moments : List Moment) : Prop where
  range : ∀ reading ∈ readings consoleIn ticks moments, InRange reading.currentCounterValue
  deltas : List.Forall₂ DeltaTrue (readings consoleIn ticks moments).tail moments.tail

/-- The counter does not pass a multiple of 2^32 between two moments. -/
def NoRollOver (ticks : ℕ) : List Moment → Prop
  | [] => True
  | moment :: moments =>
      (ticks + moment.elapsed.toNat) / 2 ^ 32 = ticks / 2 ^ 32 ∧
        NoRollOver (ticks + moment.elapsed.toNat) moments

def NoRollOverBetween (ticks : ℕ) : List Moment → Prop
  | [] => True
  | moment :: moments => NoRollOver (ticks + moment.elapsed.toNat) moments

variable {consoleIn : ConsoleInDev} {ticks : ℕ}

theorem pollStep_last (herr : consoleIn.keyboardErr = false) (ticks : ℕ) (moment : Moment) :
    (pollStep (consoleIn, ticks) moment).2.1.keyboardErr = false ∧
      (pollStep (consoleIn, ticks) moment).2.1.last =
        getPerformanceCounter
          (timerRegisters (ticks + moment.elapsed.toNat) moment.usecCfg) := by
  have hok : ¬ consoleIn.keyboardErr = true := by rw [herr]; decide
  refine ⟨?_, ?_⟩
  · exact keyboardTimerHandler_keyboardErr.trans herr
  · simp only [pollStep, keyboardTimerHandler, if_neg hok]
    rfl

theorem readings_sound_iff (herr : consoleIn.keyboardErr = false)
    (hlast : consoleIn.last = getPerformanceCounter (timerRegisters ticks 0))
    (moments : List Moment) :
    (∀ reading ∈ readings consoleIn ticks moments, InRange reading.currentCounterValue) ∧
        List.Forall₂ DeltaTrue (readings consoleIn ticks moments) moments ↔
      (∀ moment ∈ moments, moment.usecCfg = 0) ∧ NoRollOver ticks moments := by
  induction moments generalizing consoleIn ticks with
  | nil => simp [readings, answers, NoRollOver]
  | cons moment moments ih =>
      obtain ⟨herr', hlast'⟩ := pollStep_last herr ticks moment
      have hrange : InRange (pollStep (consoleIn, ticks) moment).1.currentCounterValue ↔
          moment.usecCfg = 0 := inRange_iff
      have hdelta (hcfg : moment.usecCfg = 0) :
          DeltaTrue (pollStep (consoleIn, ticks) moment).1 moment ↔
            (ticks + moment.elapsed.toNat) / 2 ^ 32 = ticks / 2 ^ 32 := by
        rw [← counter_sub_iff moment.elapsed.isLt, ← hlast, ← hcfg]
        rfl
      rw [readings, answers, List.forall_mem_cons, List.forall₂_cons, List.forall_mem_cons, hrange,
        NoRollOver]
      by_cases hcfg : moment.usecCfg = 0
      · rw [hcfg] at hlast'
        have hrest := ih herr' hlast'
        rw [readings] at hrest
        rw [hdelta hcfg]
        tauto
      · tauto

/-- Over every run of polls less than 2^32 ticks apart: the counter values stay in range
and the deltas from the second poll on are true if and only if the configuration
register always reads 0 and the counter never rolls over between two polls. -/
theorem counterSound_iff (consoleIn : ConsoleInDev) (herr : consoleIn.keyboardErr = false)
    (ticks : ℕ) (moments : List Moment) :
    CounterSound consoleIn ticks moments ↔
      (∀ moment ∈ moments, moment.usecCfg = 0) ∧ NoRollOverBetween ticks moments := by
  rw [counterSound_iff_and]
  cases moments with
  | nil => simp [readings, answers, NoRollOverBetween]
  | cons moment moments =>
      obtain ⟨herr', hlast'⟩ := pollStep_last herr ticks moment
      have hrange : InRange (pollStep (consoleIn, ticks) moment).1.currentCounterValue ↔
          moment.usecCfg = 0 := inRange_iff
      rw [readings, answers, List.forall_mem_cons, List.tail_cons, List.tail_cons,
        List.forall_mem_cons, hrange, NoRollOverBetween]
      by_cases hcfg : moment.usecCfg = 0
      · rw [hcfg] at hlast'
        have hrest := readings_sound_iff herr' hlast' moments
        rw [readings] at hrest
        tauto
      · tauto

def quietMoment (elapsed usecCfg : BitVec 32) : Moment where
  elapsed := elapsed
  usecCfg := usecCfg
  getKeys := fun _ => []

theorem counterSound_iff_quiet :
    CounterSound TextIn.partialFirst 0 [quietMoment 10 0, quietMoment 20 0] ↔
      (∀ moment ∈ [quietMoment 10 0, quietMoment 20 0], moment.usecCfg = 0) ∧
        NoRollOverBetween 0 [quietMoment 10 0, quietMoment 20 0] :=
  counterSound_iff TextIn.partialFirst rfl 0 [quietMoment 10 0, quietMoment 20 0]

/-- With the divider for a 12 MHz clock in the configuration register the first counter
value is out of range; with 0 there, the delta across a roll-over is wrong. -/
theorem configured_not_counterSound :
    ¬ CounterSound TextIn.partialFirst 0 [quietMoment 10 0x0B] ∧
      ¬ CounterSound TextIn.partialFirst (2 ^ 32 - 10) [quietMoment 5 0, quietMoment 20 0] := by
  constructor
  · intro hsound
    have hrange := hsound.range _ List.mem_cons_self
    exact absurd (inRange_iff.mp hrange) (by decide)
  · intro hsound
    have hdelta := (List.forall₂_cons.mp hsound.deltas).1
    exact absurd hdelta (by unfold DeltaTrue; decide +kernel)

end MuTegra.Keyboard.PollDelta
