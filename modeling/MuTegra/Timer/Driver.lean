/- Unit: MuTegra/Timer/Driver
   source: NvidiaPkg/GPLDrivers/TegraTimerDxe/TegraTimerDxe.c, TegraTimer.h
   digest: The timer driver over memory-mapped registers, with its register writes recorded. -/

import MuTegra.Foundation.Loops
import MuTegra.Foundation.MachineWords
import Mathlib.Logic.Function.Basic

/-!
Registers are 32-bit cells at the addresses passed to `MmioRead32` and
`MmioWrite32`. Time advances in microseconds between the driver's entry points and
is shown in the cell of the free-running counter.
-/

set_option autoImplicit false
set_option relaxedAutoImplicit false

namespace MuTegra.Timer.Driver

open MuTegra.Foundation.Loops (loop)
open MuTegra.Foundation.MachineWords

def timerTmr1TmrPtv0 : ℕ := 0x60005000

def timerTmr1TmrPcr0 : ℕ := timerTmr1TmrPtv0 + 0x4

def tegraTimerUsecCntr : ℕ := 0x60005010

def tegraTimerUsecCfg : ℕ := tegraTimerUsecCntr + 0x4

def tegraOscClkEnbLSet : ℕ := 0x60006000 + 0x320

def tegraOscSetClkEnbTmr : ℕ := 1 <<< 5

def compareWriteAddress : ℕ := timerTmr1TmrPcr0 &&& 0x1FFFFFFF

def ptvValue (b : ℕ) : ℕ := b <<< 31 ||| ((0x69420 - 1) &&& 0x1FFFFFFF)

/-- The registers, the driver's globals, the notifications made and the register
writes in order. -/
structure TegraTimer where
  registers : ℕ → ℕ
  clockRate : ℕ
  mTimerPeriod : ℕ
  mTimerTicks : ℕ
  mElapsedPeriod : ℕ
  /-- A notify function is registered. -/
  mTimerNotifyFunction : Bool
  notified : List ℕ
  writes : List (ℕ × ℕ)

def TegraTimer.mmioRead32 (t : TegraTimer) (address : ℕ) : ℕ := t.registers address

def TegraTimer.mmioWrite32 (t : TegraTimer) (address value : ℕ) : TegraTimer :=
  { t with
    registers := Function.update t.registers address value
    writes := t.writes ++ [(address, value)] }

def TegraTimer.load (registers : ℕ → ℕ) : TegraTimer where
  registers := registers
  clockRate := 0
  mTimerPeriod := 0
  mTimerTicks := 0
  mElapsedPeriod := 1
  mTimerNotifyFunction := false
  notified := []
  writes := []

/-- The driver as an entry point finds it: the hardware may have changed any register. -/
def TegraTimer.finds (t : TegraTimer) (found : ℕ → UInt32) : TegraTimer :=
  { t with registers := fun address => (found address).toNat }

/-- `TimerDriverRegisterHandler`, by whether the argument is NULL; refused calls
change nothing. -/
def timerDriverRegisterHandler (t : TegraTimer) (notifyFunction : Bool) : TegraTimer :=
  if notifyFunction = t.mTimerNotifyFunction then t
  else { t with mTimerNotifyFunction := notifyFunction }

def timerDriverSetTimerPeriod (t : TegraTimer) (timerPeriod : ℕ) : TegraTimer :=
  let t := t.mmioWrite32 timerTmr1TmrPtv0 (ptvValue 0)
  if timerPeriod ≠ 0 then
    let timerTicks := toUint64 (timerPeriod * toUint32 t.clockRate) / 10000000
    let t := { t with
      mTimerTicks := timerTicks
      mTimerPeriod := timerPeriod
      mElapsedPeriod := 1 }
    let counterValue := t.mmioRead32 tegraTimerUsecCntr
    let t := t.mmioWrite32 compareWriteAddress (toUint32 (counterValue + t.mTimerTicks))
    t.mmioWrite32 timerTmr1TmrPtv0 (ptvValue 1)
  else
    { t with mTimerPeriod := timerPeriod, mElapsedPeriod := 1 }

def TegraTimer.isActive (t : TegraTimer) : Bool := t.mmioRead32 timerTmr1TmrPtv0 == 1 <<< 31

def TegraTimer.readCompare (t : TegraTimer) : ℕ := t.mmioRead32 timerTmr1TmrPcr0 &&& 0x1FFFFFFF

/-- A pass of the reload loop over the compare value and the elapsed periods. -/
def reloadPass (mTimerTicks currentValue : ℕ) (s : ℕ × ℕ) : Option ((ℕ × ℕ) ⊕ (ℕ × ℕ)) :=
  let next := (toUint64 (s.1 + mTimerTicks), toUint64 (s.2 + 1))
  if next.1 < currentValue then some (.inl next) else some (.inr next)

def TegraTimer.notify (t : TegraTimer) : TegraTimer :=
  if t.mTimerNotifyFunction then
    { t with notified := t.notified ++ [toUint64 (t.mTimerPeriod * t.mElapsedPeriod)] }
  else t

def TegraTimer.rearm (t : TegraTimer) (reloaded : ℕ × ℕ) : TegraTimer :=
  let t := { t with mElapsedPeriod := reloaded.2 }
  let t := t.mmioWrite32 compareWriteAddress (toUint32 reloaded.1)
  let t := t.mmioWrite32 timerTmr1TmrPtv0 (ptvValue 0)
  t.mmioWrite32 timerTmr1TmrPtv0 (ptvValue 1)

/-- `TimerInterruptHandler`; nothing when the reload loop runs out of fuel. -/
def timerInterruptHandler (fuel : ℕ) (t : TegraTimer) : Option TegraTimer :=
  if t.isActive then
    let t := t.notify
    let currentValue := t.mmioRead32 tegraTimerUsecCntr
    (loop (reloadPass t.mTimerTicks currentValue) fuel (t.readCompare, 0)).map t.rearm
  else some t

/-- The microsecond divider of a clock rate; zero for a rate the driver rejects. -/
def usecConfig (clockRate : ℕ) : ℕ :=
  if clockRate = 12000000 then 0x000b
  else if clockRate = 12800000 then 0x043f
  else if clockRate = 13000000 then 0x000c
  else if clockRate = 16800000 then 0x0453
  else if clockRate = 19200000 then 0x045f
  else if clockRate = 26000000 then 0x0019
  else if clockRate = 38400000 then 0x04bf
  else if clockRate = 48000000 then 0x002f
  else 0

/-- `TimerInitialize` with the rate returned by `GetClockRate`. The assertions of a
debug build are left out. -/
def timerInitialize (clockRate : ℕ) (t : TegraTimer) : TegraTimer :=
  let t := t.mmioWrite32 timerTmr1TmrPtv0 (ptvValue 0)
  let t := { t with clockRate := clockRate }
  let value := t.mmioRead32 tegraOscClkEnbLSet
  let t := t.mmioWrite32 tegraOscClkEnbLSet (value ||| tegraOscSetClkEnbTmr)
  let t := t.mmioWrite32 tegraTimerUsecCfg (usecConfig clockRate)
  t.mmioWrite32 timerTmr1TmrPtv0 (ptvValue 1)

def exitBootServicesEvent (t : TegraTimer) : TegraTimer := t.mmioWrite32 timerTmr1TmrPtv0 (ptvValue 0)

variable {t : TegraTimer} {address value : ℕ}

@[simp] theorem mmioWrite32_self : (t.mmioWrite32 address value).registers address = value :=
  Function.update_self _ _ _

@[simp] theorem mmioWrite32_other {other : ℕ} (h : other ≠ address) :
    (t.mmioWrite32 address value).registers other = t.registers other :=
  Function.update_of_ne h _ _

@[simp] theorem mmioWrite32_notified : (t.mmioWrite32 address value).notified = t.notified := rfl

end MuTegra.Timer.Driver
