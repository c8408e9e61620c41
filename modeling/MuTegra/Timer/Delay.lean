/- Unit: MuTegra/Timer/Delay
   source: NvidiaPkg/GPLLibrary/TegraTimerLib/TegraTimerLib.c, TegraTimerLib.h
   digest: The delays keep their promise exactly when the deadline does not wrap. -/

import MuTegra.Timer.Counter
import Mathlib.Order.Monotone.Defs

/-!
Time is counted in ticks of the 1 MHz counter, which shows it modulo `2 ^ 32`. The code
sees it only where it samples the counter; when it does so is up to the hardware and is
taken as any nondecreasing sequence of times.
-/

set_option autoImplicit false
set_option relaxedAutoImplicit false

namespace MuTegra.Timer.Delay

open MuTegra.Foundation.Loops
open MuTegra.Foundation.MachineWords
open MuTegra.Timer.Counter (tegraTimerRate)

/-- A pass of the wait, over the value read last and the number of its sample. -/
def delayPass (times : ℕ → ℕ) (timerTicks32 : ℕ) (s : ℕ × ℕ) : Option ((ℕ × ℕ) ⊕ ℕ) :=
  if s.1 < timerTicks32 then some (.inl (toUint32 (times (s.2 + 1)), s.2 + 1))
  else some (.inr s.2)

/-- `MicroSecondDelay` with the counter sampled at `times`: the value returned and the
number of the sample that ended the wait. -/
def microSecondDelay (microSeconds : UInt32) (fuel : ℕ) (times : ℕ → ℕ) : Option (UInt32 × ℕ) :=
  let timerTicks32 := toUint32 (toUint64 (microSeconds.toNat * tegraTimerRate.toNat) / 1000000)
  let systemCounterVal := toUint32 (times 0)
  let timerTicks32 := toUint32 (timerTicks32 + systemCounterVal)
  (loop (delayPass times timerTicks32) fuel (systemCounterVal, 0)).map (microSeconds, ·)

def nanoToMicro (nanoSeconds : UInt32) : UInt32 :=
  nanoSeconds / 1000 + if nanoSeconds % 1000 = 0 then 0 else 1

def nanoSecondDelay (nanoSeconds : UInt32) (fuel : ℕ) (times : ℕ → ℕ) : Option (UInt32 × ℕ) :=
  (microSecondDelay (nanoToMicro nanoSeconds) fuel times).map fun ended => (nanoSeconds, ended.2)

/-- A delay called at tick `start` returns only once `ticks` ticks have elapsed, and by any
sample taken after them while the counter has not wrapped again. -/
def DelayCorrect (delay : ℕ → (ℕ → ℕ) → Option (UInt32 × ℕ)) (start ticks : ℕ) : Prop :=
  ∀ times : ℕ → ℕ, Monotone times → times 0 = start →
    (∀ fuel value n, delay fuel times = some (value, n) → start + ticks ≤ times n) ∧
      ∀ n, start + ticks ≤ times n → times n / 2 ^ 32 = (start + ticks) / 2 ^ 32 →
        ∃ fuel value m, m ≤ n ∧ delay fuel times = some (value, m)

variable {times : ℕ → ℕ} {deadline : ℕ}

theorem deadline_le_of_loop {fuel i n : ℕ}
    (h : loop (delayPass times deadline) fuel (toUint32 (times i), i) = some n) :
    deadline ≤ toUint32 (times n) := by
  induction fuel generalizing i with
  | zero => cases h
  | succ fuel ih =>
      by_cases hwait : toUint32 (times i) < deadline
      · have hpass : delayPass times deadline (toUint32 (times i), i) =
            some (.inl (toUint32 (times (i + 1)), i + 1)) := if_pos hwait
        rw [loop_next fuel hpass] at h
        exact ih h
      · have hpass : delayPass times deadline (toUint32 (times i), i) = some (.inr i) :=
          if_neg hwait
        rw [loop_done fuel hpass] at h
        cases h
        exact not_lt.mp hwait

theorem loop_ends {n : ℕ} (hn : deadline ≤ toUint32 (times n)) (k i : ℕ) (hk : i + k = n) :
    ∃ m, m ≤ n ∧
      loop (delayPass times deadline) (k + 1) (toUint32 (times i), i) = some m := by
  induction k generalizing i with
  | zero =>
      obtain rfl : i = n := hk
      exact ⟨i, le_rfl, loop_done 0 (if_neg (not_lt.mpr hn))⟩
  | succ k ih =>
      by_cases hwait : toUint32 (times i) < deadline
      · have hpass : delayPass times deadline (toUint32 (times i), i) =
            some (.inl (toUint32 (times (i + 1)), i + 1)) := if_pos hwait
        obtain ⟨m, hm, hloop⟩ := ih (i + 1) (by omega)
        refine ⟨m, hm, ?_⟩
        rw [loop_next (k + 1) hpass]
        exact hloop
      · exact ⟨i, by omega, loop_done (k + 1) (if_neg hwait)⟩

variable {microSeconds : UInt32} {start : ℕ}

theorem timerTicks_eq (microSeconds : UInt32) :
    toUint32 (toUint64 (microSeconds.toNat * tegraTimerRate.toNat) / 1000000) =
      microSeconds.toNat := by
  have hlt : microSeconds.toNat < 4294967296 := microSeconds.toNat_lt
  have hproduct : toUint64 (microSeconds.toNat * 1000000) = microSeconds.toNat * 1000000 :=
    Nat.mod_eq_of_lt (by omega)
  change toUint32 (toUint64 (microSeconds.toNat * 1000000) / 1000000) = _
  rw [hproduct, Nat.mul_div_cancel _ (by decide)]
  exact toUint32_of_lt hlt

theorem microSecondDelay_eq (fuel : ℕ) (h : times 0 = start) :
    microSecondDelay microSeconds fuel times =
      (loop (delayPass times (toUint32 (microSeconds.toNat + toUint32 start))) fuel
        (toUint32 (times 0), 0)).map (microSeconds, ·) := by
  rw [microSecondDelay]
  simp only [timerTicks_eq, h]

theorem microSecondDelay_correct (hfits : start % 2 ^ 32 + microSeconds.toNat < 2 ^ 32) :
    DelayCorrect (microSecondDelay microSeconds) start microSeconds.toNat := by
  intro times hmono hstart
  have hdeadline : toUint32 (microSeconds.toNat + toUint32 start) =
      start % 2 ^ 32 + microSeconds.toNat := by
    unfold toUint32
    omega
  constructor
  · intro fuel value n h
    rw [microSecondDelay_eq fuel hstart, hdeadline, Option.map_eq_some_iff] at h
    obtain ⟨m, hloop, hm⟩ := h
    obtain rfl : m = n := congrArg Prod.snd hm
    have hreached := deadline_le_of_loop hloop
    have hafter : times 0 ≤ times m := hmono (Nat.zero_le m)
    -- either the counter is still in the lap of the start, or a whole lap has begun since
    unfold toUint32 at hreached
    omega
  · intro n helapsed hlap
    have hreached : start % 2 ^ 32 + microSeconds.toNat ≤ toUint32 (times n) := by
      rw [toUint32]
      omega
    obtain ⟨m, hm, hloop⟩ := loop_ends hreached n 0 (Nat.zero_add n)
    refine ⟨n + 1, microSeconds, m, hm, ?_⟩
    rw [microSecondDelay_eq (n + 1) hstart, hdeadline, hloop]
    rfl

/-- A deadline past the counter's current lap wraps to before the start: the delay returns
at once. -/
theorem microSecondDelay_wrapped (hwraps : 2 ^ 32 ≤ start % 2 ^ 32 + microSeconds.toNat) :
    microSecondDelay microSeconds 1 (fun _ => start) = some (microSeconds, 0) := by
  have hlt : microSeconds.toNat < 2 ^ 32 := microSeconds.toNat_lt
  have hpast : ¬ toUint32 start < toUint32 (microSeconds.toNat + toUint32 start) := by
    unfold toUint32
    omega
  have hpass : delayPass (fun _ => start) (toUint32 (microSeconds.toNat + toUint32 start))
      (toUint32 start, 0) = some (.inr 0) := if_neg hpast
  rw [microSecondDelay_eq 1 rfl, loop_done 0 hpass]
  rfl

theorem microSecondDelay_correct_iff (start : ℕ) (microSeconds : UInt32) :
    DelayCorrect (microSecondDelay microSeconds) start microSeconds.toNat ↔
      start % 2 ^ 32 + microSeconds.toNat < 2 ^ 32 := by
  constructor
  · intro hcorrect
    by_contra hwraps
    have hat_once := microSecondDelay_wrapped (not_lt.mp hwraps)
    have hearly := (hcorrect (fun _ => start) monotone_const rfl).1 1 microSeconds 0 hat_once
    omega
  · exact microSecondDelay_correct

theorem nanoToMicro_toNat (nanoSeconds : UInt32) :
    (nanoToMicro nanoSeconds).toNat = (nanoSeconds.toNat + 999) / 1000 := by
  have hlt : nanoSeconds.toNat < 2 ^ 32 := nanoSeconds.toNat_lt
  have hmod : nanoSeconds % 1000 = 0 ↔ nanoSeconds.toNat % 1000 = 0 := by
    rw [← UInt32.toNat_inj, UInt32.toNat_mod]
    rfl
  have hdiv : (nanoSeconds / 1000).toNat = nanoSeconds.toNat / 1000 := UInt32.toNat_div _ _
  rw [nanoToMicro]
  split
  · rename_i hexact
    have hexact' := hmod.mp hexact
    rw [UInt32.toNat_add, hdiv, UInt32.toNat_zero]
    omega
  · rename_i hrest
    have hrest' := mt hmod.mpr hrest
    have hone : (1 : UInt32).toNat = 1 := rfl
    rw [UInt32.toNat_add, hdiv, hone]
    omega

theorem DelayCorrect.of_ends {delay delay' : ℕ → (ℕ → ℕ) → Option (UInt32 × ℕ)} {ticks : ℕ}
    (h : DelayCorrect delay start ticks)
    (hends : ∀ fuel times, (delay fuel times).map Prod.snd = (delay' fuel times).map Prod.snd) :
    DelayCorrect delay' start ticks := by
  intro times hmono hstart
  obtain ⟨hsafe, hlive⟩ := h times hmono hstart
  constructor
  · intro fuel value n h'
    have hsome := hends fuel times
    rw [h', Option.map_some, Option.map_eq_some_iff] at hsome
    obtain ⟨⟨value', n'⟩, hdelay, hn⟩ := hsome
    obtain rfl : n' = n := hn
    exact hsafe fuel value' n' hdelay
  · intro n helapsed hlap
    obtain ⟨fuel, value, m, hm, hdelay⟩ := hlive n helapsed hlap
    have hsome := (hends fuel times).symm
    rw [hdelay, Option.map_some, Option.map_eq_some_iff] at hsome
    obtain ⟨⟨value', m'⟩, hdelay', hm'⟩ := hsome
    obtain rfl : m' = m := hm'
    exact ⟨fuel, value', m', hm, hdelay'⟩

theorem nanoSecondDelay_ends (nanoSeconds : UInt32) (fuel : ℕ) (times : ℕ → ℕ) :
    (nanoSecondDelay nanoSeconds fuel times).map Prod.snd =
      (microSecondDelay (nanoToMicro nanoSeconds) fuel times).map Prod.snd := by
  rw [nanoSecondDelay, Option.map_map]
  rfl

theorem nanoSecondDelay_correct_iff (start : ℕ) (nanoSeconds : UInt32) :
    DelayCorrect (nanoSecondDelay nanoSeconds) start ((nanoSeconds.toNat + 999) / 1000) ↔
      start % 2 ^ 32 + (nanoSeconds.toNat + 999) / 1000 < 2 ^ 32 := by
  rw [← nanoToMicro_toNat, ← microSecondDelay_correct_iff]
  have hends := nanoSecondDelay_ends nanoSeconds
  exact ⟨fun h => h.of_ends hends, fun h => h.of_ends fun fuel times => (hends fuel times).symm⟩

/-- Both delays keep their promise exactly when the deadline stays in the counter's lap. -/
theorem delays_correct_iff (start : ℕ) (delay : UInt32) :
    (DelayCorrect (microSecondDelay delay) start delay.toNat ↔
      start % 2 ^ 32 + delay.toNat < 2 ^ 32) ∧
    (DelayCorrect (nanoSecondDelay delay) start ((delay.toNat + 999) / 1000) ↔
      start % 2 ^ 32 + (delay.toNat + 999) / 1000 < 2 ^ 32) :=
  ⟨microSecondDelay_correct_iff start delay, nanoSecondDelay_correct_iff start delay⟩

/-- One microsecond, requested while the counter shows its last value, is not waited for. -/
theorem lastTick_not_correct : ¬ DelayCorrect (microSecondDelay 1) (2 ^ 32 - 1) 1 := by
  intro hcorrect
  have hat_once := @microSecondDelay_wrapped 1 (2 ^ 32 - 1) (by decide)
  have hearly := (hcorrect _ monotone_const rfl).1 1 1 0 hat_once
  exact absurd hearly (by decide)

end MuTegra.Timer.Delay
