/- Unit: MuTegra/Timer/Run
   source: NvidiaPkg/GPLDrivers/TegraTimerDxe/TegraTimerDxe.c
   digest: Runs of the timer driver: no interrupt of an enabled timer is recognised. -/

import MuTegra.Timer.Driver

/-!
The handler compares the whole control word with the enable bit alone, while every
enabling write also stores the timer value; and compare values are written at one
address and read at another. An enabled interrupt is therefore never recognised,
and a run meets its contract only by taking none.
-/

set_option autoImplicit false
set_option relaxedAutoImplicit false

namespace MuTegra.Timer.Run

open MuTegra.Foundation.MachineWords
open MuTegra.Timer.Driver

inductive Event where
  | setTimerPeriod (timerPeriod : UInt64)
  | registerHandler (notifyFunction : Bool)
  | interrupt
  | exitBootServices
  deriving DecidableEq, Repr

/-- The driver with the time in microseconds, the time of the last period setting and
the number of notifications made before it. -/
structure Machine where
  timer : TegraTimer
  now : ℕ
  setAt : ℕ
  notifiedBefore : ℕ

def Machine.start (clockRate : ℕ) (registers : ℕ → ℕ) : Machine where
  timer := timerInitialize clockRate (.load registers)
  now := 0
  setAt := 0
  notifiedBefore := 0

def Machine.wait (m : Machine) (after : ℕ) : Machine :=
  { m with
    now := m.now + after
    timer := { m.timer with
      registers := Function.update m.timer.registers tegraTimerUsecCntr
        (toUint32 (m.now + after)) } }

/-- The effect of an event; nothing when the handler's loop runs out of fuel. -/
def Machine.handle (fuel : ℕ) (m : Machine) : Event → Option Machine
  | .setTimerPeriod timerPeriod =>
      some { m with
        timer := timerDriverSetTimerPeriod m.timer timerPeriod.toNat
        setAt := m.now
        notifiedBefore := m.timer.notified.length }
  | .registerHandler notifyFunction =>
      some { m with timer := timerDriverRegisterHandler m.timer notifyFunction }
  | .interrupt => (timerInterruptHandler fuel m.timer).map fun t => { m with timer := t }
  | .exitBootServices => some { m with timer := exitBootServicesEvent m.timer }

def Machine.run (fuel : ℕ) : List (ℕ × Event) → Machine → Option Machine
  | [], m => some m
  | (after, event) :: events, m => (m.wait after).handle fuel event >>= Machine.run fuel events

def Machine.isEnabled (m : Machine) : Bool :=
  (m.timer.mmioRead32 timerTmr1TmrPtv0).testBit 31

/-- The compare value last programmed by a period setting or by the handler. -/
def Machine.programmed (m : Machine) : Option ℕ :=
  (m.timer.writes.reverse.find? fun write => write.1 == compareWriteAddress).map Prod.snd

/-- The total time reported since the period was set, in units of 100 ns. -/
def Machine.totalReported (m : Machine) : ℕ := (m.timer.notified.drop m.notifiedBefore).sum

def Machine.wholePeriods (m : Machine) : ℕ := (m.now - m.setAt) * 10 / m.timer.mTimerPeriod

/-- What an interrupt has to do: find the last programmed compare value, see that the
timer is active and bring the reported time up to the elapsed periods. -/
structure InterruptCorrect (fuel : ℕ) (m : Machine) : Prop where
  readBack : ∀ compareValue, m.programmed = some compareValue →
    m.timer.readCompare = compareValue % 2 ^ 29
  recognised : m.timer.isActive = true
  total : ∃ m', m.handle fuel .interrupt = some m' ∧
    (m.timer.mTimerNotifyFunction = true →
      m'.totalReported = m'.timer.mTimerPeriod * m'.wholePeriods)

def TakesInterrupt (fuel : ℕ) (start : Machine) (events : List (ℕ × Event)) (m : Machine) :
    Prop :=
  ∃ before after rest m₀, events = before ++ (after, .interrupt) :: rest ∧
    start.run fuel before = some m₀ ∧ m = m₀.wait after

def RunCorrect (fuel : ℕ) (start : Machine) (events : List (ℕ × Event)) : Prop :=
  ∀ m, TakesInterrupt fuel start events m → m.isEnabled = true → InterruptCorrect fuel m

/-- What every run keeps: the control word is one of the two values written, nothing
has been reported and the compare register still holds its value from before. -/
structure Silent (registers : ℕ → ℕ) (m : Machine) : Prop where
  control : m.timer.registers timerTmr1TmrPtv0 = ptvValue 0 ∨
    m.timer.registers timerTmr1TmrPtv0 = ptvValue 1
  unreported : m.timer.notified = []
  compare : m.timer.registers timerTmr1TmrPcr0 = registers timerTmr1TmrPcr0

variable {registers : ℕ → ℕ} {m : Machine}

theorem Silent.start (clockRate : ℕ) (registers : ℕ → ℕ) :
    Silent registers (.start clockRate registers) where
  control := Or.inr mmioWrite32_self
  unreported := rfl
  compare := by
    simp only [Machine.start, timerInitialize]
    repeat rw [mmioWrite32_other (by decide)]
    rfl

theorem wait_registers (m : Machine) (after : ℕ) {address : ℕ}
    (h : address ≠ tegraTimerUsecCntr) :
    (m.wait after).timer.registers address = m.timer.registers address := by
  change Function.update m.timer.registers tegraTimerUsecCntr _ address = _
  exact Function.update_of_ne h _ _

theorem Silent.wait (h : Silent registers m) (after : ℕ) : Silent registers (m.wait after) where
  control := by
    rw [wait_registers m after (by decide)]
    exact h.control
  unreported := h.unreported
  compare := by
    rw [wait_registers m after (by decide)]
    exact h.compare

theorem Silent.not_active (h : Silent registers m) : m.timer.isActive = false := by
  unfold TegraTimer.isActive TegraTimer.mmioRead32
  rcases h.control with hoff | hon
  · rw [hoff]
    rfl
  · rw [hon]
    rfl

theorem Silent.handle (h : Silent registers m) (fuel : ℕ) (event : Event) :
    ∃ m', m.handle fuel event = some m' ∧ Silent registers m' := by
  cases event with
  | setTimerPeriod timerPeriod =>
      refine ⟨_, rfl, ?_⟩
      by_cases hzero : timerPeriod.toNat ≠ 0
      · have heq : timerDriverSetTimerPeriod m.timer timerPeriod.toNat = _ := if_pos hzero
        refine ⟨Or.inr ?_, ?_, ?_⟩
        · simp only [heq]
          exact mmioWrite32_self
        · simp only [heq]
          exact h.unreported
        · simp only [heq]
          repeat rw [mmioWrite32_other (by decide)]
          exact h.compare
      · have heq : timerDriverSetTimerPeriod m.timer timerPeriod.toNat = _ := if_neg hzero
        refine ⟨Or.inl ?_, ?_, ?_⟩
        · simp only [heq]
          exact mmioWrite32_self
        · simp only [heq]
          exact h.unreported
        · simp only [heq]
          rw [mmioWrite32_other (by decide)]
          exact h.compare
  | registerHandler notifyFunction =>
      refine ⟨_, rfl, ?_⟩
      unfold timerDriverRegisterHandler
      split
      · exact h
      · exact ⟨h.control, h.unreported, h.compare⟩
  | interrupt =>
      refine ⟨m, ?_, h⟩
      have hidle : timerInterruptHandler fuel m.timer = some m.timer := by
        rw [timerInterruptHandler, h.not_active]
        rfl
      simp only [Machine.handle, hidle, Option.map_some]
  | exitBootServices =>
      refine ⟨_, rfl, Or.inl mmioWrite32_self, h.unreported, ?_⟩
      exact (mmioWrite32_other (by decide)).trans h.compare

theorem Silent.run (h : Silent registers m) (fuel : ℕ) (events : List (ℕ × Event)) :
    ∃ m', m.run fuel events = some m' ∧ Silent registers m' := by
  induction events generalizing m with
  | nil => exact ⟨m, rfl, h⟩
  | cons timed events ih =>
      obtain ⟨after, event⟩ := timed
      obtain ⟨m₁, hhandle, h₁⟩ := (h.wait after).handle fuel event
      obtain ⟨m₂, hrun, h₂⟩ := ih h₁
      refine ⟨m₂, ?_, h₂⟩
      rw [Machine.run, hhandle]
      exact hrun

theorem run_reports_nothing (fuel clockRate : ℕ) (registers : ℕ → ℕ)
    (events : List (ℕ × Event)) :
    ∃ m, (Machine.start clockRate registers).run fuel events = some m ∧
      m.totalReported = 0 ∧ m.timer.mmioRead32 timerTmr1TmrPcr0 = registers timerTmr1TmrPcr0 := by
  obtain ⟨m, hrun, h⟩ := (Silent.start clockRate registers).run fuel events
  refine ⟨m, hrun, ?_, h.compare⟩
  rw [Machine.totalReported, h.unreported, List.drop_nil, List.sum_nil]

/-- A run handles every enabled interrupt correctly exactly when it takes none. -/
theorem runCorrect_iff (fuel clockRate : ℕ) (registers : ℕ → ℕ) (events : List (ℕ × Event)) :
    RunCorrect fuel (.start clockRate registers) events ↔
      ∀ m, TakesInterrupt fuel (.start clockRate registers) events m → m.isEnabled = false := by
  constructor
  · intro hcorrect m htakes
    by_contra henabled
    have hrecognised := (hcorrect m htakes (Bool.eq_true_of_not_eq_false henabled)).recognised
    obtain ⟨before, after, rest, m₀, _, hrun, rfl⟩ := htakes
    obtain ⟨m₁, hrun₁, h₁⟩ := (Silent.start clockRate registers).run fuel before
    rw [hrun, Option.some_inj] at hrun₁
    subst hrun₁
    rw [(h₁.wait after).not_active] at hrecognised
    cases hrecognised
  · intro hnone m htakes henabled
    rw [hnone m htakes] at henabled
    cases henabled

/-- Set a period of 10 ms at 12 MHz and take an interrupt 20 ms later. -/
def lateTick : List (ℕ × Event) := [(0, .setTimerPeriod 100000), (20000, .interrupt)]

theorem lateTick_not_runCorrect :
    ¬ RunCorrect 16 (.start 12000000 fun _ => 0) lateTick := by
  intro hcorrect
  have htakes : TakesInterrupt 16 (.start 12000000 fun _ => 0) lateTick
      (((Machine.start 12000000 fun _ => 0).wait 0 |>.handle 16 (.setTimerPeriod 100000)).get
        (by decide) |>.wait 20000) :=
    ⟨[(0, .setTimerPeriod 100000)], 20000, [], _, rfl, rfl, rfl⟩
  exact absurd (hcorrect _ htakes (by decide)).recognised (by decide)

end MuTegra.Timer.Run
