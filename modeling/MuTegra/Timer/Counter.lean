/- Unit: MuTegra/Timer/Counter
   source: NvidiaPkg/GPLLibrary/TegraTimerLib/TegraTimerLib.c, TegraTimerLib.h
   digest: The performance counter: a 64-bit read that takes in the neighbouring register. -/

import MuTegra.Timer.Driver

set_option autoImplicit false
set_option relaxedAutoImplicit false

namespace MuTegra.Timer.Counter

open MuTegra.Timer.Driver (tegraTimerUsecCntr tegraTimerUsecCfg)

abbrev Registers := ℕ → BitVec 32

/-- The timer block when the counter has made `ticks` ticks since it was started. -/
def timerRegisters (ticks : ℕ) (usecCfg : BitVec 32) : Registers := fun address =>
  if address = tegraTimerUsecCntr then BitVec.ofNat 32 ticks
  else if address = tegraTimerUsecCfg then usecCfg
  else 0

def mmioRead64 (registers : Registers) (address : ℕ) : BitVec 64 :=
  registers (address + 4) ++ registers address

def getPerformanceCounter (registers : Registers) : BitVec 64 :=
  mmioRead64 registers tegraTimerUsecCntr

def tegraTimerRate : BitVec 64 := 1000000

/-- `GetPerformanceCounterProperties`: the frequency and what is stored in `StartValue`
and `EndValue`, each `none` when the pointer is NULL. -/
def getPerformanceCounterProperties (startValue endValue : Option (BitVec 64)) :
    BitVec 64 × Option (BitVec 64) × Option (BitVec 64) :=
  (tegraTimerRate, startValue.map fun _ => 0, endValue.map fun _ => 0xFFFFFFFF)

def InRange (value : BitVec 64) : Prop :=
  ∃ startValue endValue,
    (getPerformanceCounterProperties (some 0) (some 0)).2 = (some startValue, some endValue) ∧
      startValue ≤ value ∧ value ≤ endValue

variable {ticks elapsed : ℕ} {usecCfg : BitVec 32}

theorem getPerformanceCounter_toNat (ticks : ℕ) (usecCfg : BitVec 32) :
    (getPerformanceCounter (timerRegisters ticks usecCfg)).toNat =
      usecCfg.toNat * 2 ^ 32 + ticks % 2 ^ 32 := by
  have hcntr : timerRegisters ticks usecCfg tegraTimerUsecCntr = BitVec.ofNat 32 ticks := rfl
  have hcfg : timerRegisters ticks usecCfg (tegraTimerUsecCntr + 4) = usecCfg := rfl
  have hlow : ticks % 2 ^ 32 < 2 ^ 32 := Nat.mod_lt _ (by decide)
  rw [getPerformanceCounter, mmioRead64, hcntr, hcfg, BitVec.toNat_append, BitVec.toNat_ofNat,
    ← Nat.shiftLeft_add_eq_or_of_lt hlow, Nat.shiftLeft_eq]

theorem inRange_iff :
    InRange (getPerformanceCounter (timerRegisters ticks usecCfg)) ↔ usecCfg = 0 := by
  have hvalue := getPerformanceCounter_toNat ticks usecCfg
  have hlow : ticks % 2 ^ 32 < 2 ^ 32 := Nat.mod_lt _ (by decide)
  have hrange : InRange (getPerformanceCounter (timerRegisters ticks usecCfg)) ↔
      (getPerformanceCounter (timerRegisters ticks usecCfg)).toNat ≤ 0xFFFFFFFF := by
    constructor
    · rintro ⟨_, endValue, hreported, _, hend⟩
      cases hreported
      exact hend
    · intro hle
      exact ⟨0, 0xFFFFFFFF, rfl, Nat.zero_le _, hle⟩
  rw [hrange, hvalue, ← BitVec.toNat_inj]
  have hzero : (0 : BitVec 32).toNat = 0 := rfl
  rw [hzero]
  omega

/-- With the configuration register at 0, a difference of counter values is the number
of ticks between them exactly when the counter has not rolled over. -/
theorem counter_sub_iff (helapsed : elapsed < 2 ^ 32) :
    (getPerformanceCounter (timerRegisters (ticks + elapsed) 0) -
        getPerformanceCounter (timerRegisters ticks 0)).toNat = elapsed ↔
      (ticks + elapsed) / 2 ^ 32 = ticks / 2 ^ 32 := by
  have hzero : (0 : BitVec 32).toNat = 0 := rfl
  rw [BitVec.toNat_sub, getPerformanceCounter_toNat, getPerformanceCounter_toNat, hzero]
  omega

end MuTegra.Timer.Counter
