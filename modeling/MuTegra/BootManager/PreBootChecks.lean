/- Unit: MuTegra/BootManager/PreBootChecks
   source: NvidiaPkg/Library/DeviceBootManagerLib/DeviceBootManagerLib.c
   digest: The power and thermal checks end, and end in a boot exactly after a good last pass. -/

import MuTegra.Foundation.Loops
import MuTegra.Foundation.Ownership
import MuTegra.Uefi.Status
import Mathlib.Data.Nat.Count

/-!
The shutdown functions do not return. A pass of the loop is counted when it starts, which also
tells it which results of the services are its own.
-/

set_option autoImplicit false
set_option relaxedAutoImplicit false

namespace MuTegra.BootManager.PreBootChecks

open MuTegra.Foundation.Loops
open MuTegra.Foundation.Ownership
open MuTegra.Uefi.Status

/-- What `SystemPowerCheck`, `SystemPowerMitigate` and `SystemThermalCheck` return and store when
a pass calls them. -/
structure PassResults where
  powerStatus : EfiStatus
  powerGood : Bool
  mitigateStatus : EfiStatus
  thermalStatus : EfiStatus
  thermalGood : Bool

/-- The variables of `MsPreBootChecks`, with the waits for the timer and the passes counted. -/
structure Checks where
  status : EfiStatus
  thermalGood : Bool
  powerGood : Bool
  retryCount : BitVec 32
  thermalFailureCount : UInt32
  waits : ℕ
  passes : ℕ

inductive Ending where
  | returned (status : EfiStatus)
  | thermalFailureShutdown
  | powerFailureShutdown
  deriving DecidableEq, Repr

structure Finished where
  ending : Ending
  passes : ℕ
  waits : ℕ
  events : Ledger

/-! ## The function -/

/-- The power check: on to the thermal check, or to the clean-up when the mitigation fails. -/
def checkPower (results : PassResults) (c : Checks) : Checks ⊕ Checks :=
  if !efiError results.powerStatus && !results.powerGood then
    if efiError results.mitigateStatus then
      .inr { c with status := results.mitigateStatus, powerGood := false }
    else .inl { c with status := results.mitigateStatus, powerGood := results.powerGood }
  else .inl { c with status := results.powerStatus, powerGood := true }

/-- The thermal check; a wait gives the cooling time as long as there is a pass left. -/
def checkThermal (results : PassResults) (c : Checks) : Checks :=
  if !efiError results.thermalStatus && !results.thermalGood then
    { c with
      status := results.thermalStatus
      thermalGood := results.thermalGood
      thermalFailureCount :=
        if c.thermalFailureCount < 3 then c.thermalFailureCount + 1 else c.thermalFailureCount
      waits := if 0 < c.retryCount.toInt then c.waits + 1 else c.waits }
  else { c with status := results.thermalStatus, thermalGood := true }

def checksPass (results : ℕ → PassResults) (c : Checks) : Option (Checks ⊕ Checks) :=
  match checkPower (results c.passes) { c with passes := c.passes + 1 } with
  | .inr c => some (.inr c)
  | .inl powered =>
      let checked := checkThermal (results c.passes) powered
      let next := { checked with retryCount := checked.retryCount - 1 }
      if 0 < checked.retryCount.toInt ∧ (!checked.thermalGood || !checked.powerGood) = true then
        some (.inl next)
      else some (.inr next)

def shutDownOrReturn (c : Checks) : Ending :=
  if !c.thermalGood then .thermalFailureShutdown
  else if !c.powerGood then .powerFailureShutdown
  else .returned c.status

def passLimit : ℕ := 2 ^ 32

/-- `MsPreBootChecks` with `PcdPowerAndThermalRetries`; an event is there when `CreateEvent` does
not fail. -/
def msPreBootChecks (retries : BitVec 32) (createStatus : EfiStatus)
    (results : ℕ → PassResults) (events : Ledger) : Option Finished :=
  let timerEvent := events.acquire (!efiError createStatus)
  let c : Checks := ⟨createStatus, true, true, retries, 1, 0, 0⟩
  let cleanUp (c : Checks) : Finished :=
    ⟨shutDownOrReturn c, c.passes, c.waits, timerEvent.2.releaseIfAny timerEvent.1⟩
  if efiError createStatus then some (cleanUp c)
  else (loop (checksPass results) passLimit c).map cleanUp

/-! ## What it should do -/

def PassResults.PowerFine (results : PassResults) : Prop :=
  efiError results.powerStatus = true ∨ results.powerGood = true

def PassResults.ThermalFine (results : PassResults) : Prop :=
  efiError results.thermalStatus = true ∨ results.thermalGood = true

def PassResults.MitigationFails (results : PassResults) : Prop :=
  ¬ results.PowerFine ∧ efiError results.mitigateStatus = true

instance (r : PassResults) : Decidable r.PowerFine := inferInstanceAs (Decidable (_ ∨ _))

instance (r : PassResults) : Decidable r.ThermalFine := inferInstanceAs (Decidable (_ ∨ _))

instance (r : PassResults) : Decidable r.MitigationFails := inferInstanceAs (Decidable (_ ∧ _))

/-- Nothing is wrong after the pass, nothing can be done, or no retry is left: it is the last. -/
def Stops (retries : BitVec 32) (results : ℕ → PassResults) (pass : ℕ) : Prop :=
  ((results pass).PowerFine ∧ (results pass).ThermalFine) ∨ (results pass).MitigationFails ∨
    retries.toInt ≤ pass

/-- A pass that finds it too hot and has a retry left waits for the timer. -/
def Waits (retries : BitVec 32) (results : ℕ → PassResults) (pass : ℕ) : Prop :=
  ¬ (results pass).MitigationFails ∧ ¬ (results pass).ThermalFine ∧ (pass : ℤ) < retries.toInt

instance (retries : BitVec 32) (results : ℕ → PassResults) :
    DecidablePred (Waits retries results) :=
  fun _ => inferInstanceAs (Decidable (_ ∧ _ ∧ _))

def thermalBefore (results : ℕ → PassResults) : ℕ → Bool
  | 0 => true
  | pass + 1 => decide (results pass).ThermalFine

/-- The ending after a last pass. A failed mitigation leaves out its thermal check. -/
def endingAfter (results : ℕ → PassResults) (last : ℕ) : Ending :=
  if (results last).MitigationFails then
    if thermalBefore results last then .powerFailureShutdown else .thermalFailureShutdown
  else if ¬ (results last).ThermalFine then .thermalFailureShutdown
  else if ¬ (results last).PowerFine then .powerFailureShutdown
  else .returned (results last).thermalStatus

/-- The checks make passes up to the first that stops them, one more than there are retries at
most, return after a last pass with nothing wrong, never after a failed mitigation, and create and
close their event once. -/
structure Correct (retries : BitVec 32) (createStatus : EfiStatus)
    (results : ℕ → PassResults) (events : Ledger) (finished : Finished) : Prop where
  passes_le : (finished.passes : ℤ) ≤ max retries.toInt 0 + 1
  returns_iff : (∃ status, finished.ending = .returned status) ↔
    efiError createStatus = true ∨
      ∃ last, finished.passes = last + 1 ∧ (results last).PowerFine ∧ (results last).ThermalFine
  mitigation : ∀ i < finished.passes, (results i).MitigationFails →
    ¬ ∃ status, finished.ending = .returned status
  closed : Owns events 0 finished.events
  /-- Without an event there is no pass, and the status of its creation is returned. -/
  uncreated : efiError createStatus = true →
    finished.passes = 0 ∧ finished.waits = 0 ∧ finished.ending = .returned createStatus ∧
      finished.events = events
  /-- With an event the passes go on to the first that stops them, and that one decides. -/
  created : efiError createStatus = false → ∃ last, finished.passes = last + 1 ∧
    Stops retries results last ∧ (∀ i < last, ¬ Stops retries results i) ∧
      finished.ending = endingAfter results last
  waits : efiError createStatus = false →
    finished.waits = Nat.count (Waits retries results) finished.passes
  /-- The event is granted, and released once. -/
  event : efiError createStatus = false →
    finished.events = events.grant.release (some events.next)

/-! ## A pass -/

variable {retries : BitVec 32} {results : ℕ → PassResults} {c c' : Checks}

theorem checkPower_failed {r : PassResults} (failed : r.MitigationFails) (c : Checks) :
    checkPower r c = .inr { c with status := r.mitigateStatus, powerGood := false } := by
  obtain ⟨bad, mitigation⟩ := failed
  obtain ⟨readable, low⟩ := not_or.mp bad
  rw [Bool.not_eq_true] at readable low
  rw [checkPower, readable, low, if_pos (by rfl), if_pos mitigation]

theorem checkPower_passed {r : PassResults} (passed : ¬ r.MitigationFails) (c : Checks) :
    ∃ status, checkPower r c =
      .inl { c with status := status, powerGood := decide r.PowerFine } := by
  by_cases fine : r.PowerFine
  · refine ⟨r.powerStatus, ?_⟩
    rw [decide_eq_true fine]
    refine if_neg ?_
    rcases fine with unreadable | good
    · simp [unreadable]
    · simp [good]
  · have mitigated : ¬ efiError r.mitigateStatus = true := fun failed => passed ⟨fine, failed⟩
    obtain ⟨readable, low⟩ := not_or.mp fine
    rw [Bool.not_eq_true] at readable low
    refine ⟨r.mitigateStatus, ?_⟩
    rw [decide_eq_false fine, checkPower, readable, low, if_pos (by rfl), if_neg mitigated]

theorem checkThermal_spec (r : PassResults) (c : Checks) :
    (checkThermal r c).thermalGood = decide r.ThermalFine ∧
      (checkThermal r c).status = r.thermalStatus ∧
      (checkThermal r c).powerGood = c.powerGood ∧
      (checkThermal r c).retryCount = c.retryCount ∧ (checkThermal r c).passes = c.passes ∧
      (checkThermal r c).waits =
        c.waits + if ¬ r.ThermalFine ∧ 0 < c.retryCount.toInt then 1 else 0 := by
  by_cases fine : r.ThermalFine
  · have checked :
        checkThermal r c = { c with status := r.thermalStatus, thermalGood := true } := by
      refine if_neg ?_
      rcases fine with unreadable | good
      · simp [unreadable]
      · simp [good]
    rw [checked, decide_eq_true fine, if_neg (fun hot => hot.1 fine)]
    exact ⟨rfl, rfl, rfl, rfl, rfl, rfl⟩
  · obtain ⟨readable, hot⟩ := not_or.mp fine
    rw [Bool.not_eq_true] at readable hot
    rw [checkThermal, readable, hot, decide_eq_false fine, if_pos (by rfl)]
    refine ⟨rfl, rfl, rfl, rfl, rfl, ?_⟩
    by_cases left : 0 < c.retryCount.toInt
    · simp only [fine, left, not_false_eq_true, and_self, if_true]
    · simp only [left, and_false, if_false, Nat.add_zero]

structure Checked (results : ℕ → PassResults) (c next : Checks) : Prop where
  passes : next.passes = c.passes + 1
  retryCount : next.retryCount = c.retryCount - 1
  status : next.status = (results c.passes).thermalStatus
  powerGood : next.powerGood = decide (results c.passes).PowerFine
  thermalGood : next.thermalGood = decide (results c.passes).ThermalFine
  waits : next.waits = c.waits +
    if ¬ (results c.passes).ThermalFine ∧ 0 < c.retryCount.toInt then 1 else 0

theorem checksPass_failed (failed : (results c.passes).MitigationFails) :
    checksPass results c = some (.inr { c with
      status := (results c.passes).mitigateStatus
      powerGood := false
      passes := c.passes + 1 }) := by
  simp only [checksPass, checkPower_failed failed { c with passes := c.passes + 1 }]

/-- Unless the mitigation fails, another pass is made when something is wrong and a retry is
left. -/
theorem checksPass_checked (passed : ¬ (results c.passes).MitigationFails) :
    ∃ next, Checked results c next ∧
      checksPass results c = some
        (if 0 < c.retryCount.toInt ∧
          ¬ ((results c.passes).PowerFine ∧ (results c.passes).ThermalFine) then .inl next
        else .inr next) := by
  obtain ⟨status, power⟩ := checkPower_passed passed { c with passes := c.passes + 1 }
  obtain ⟨powered, hpowered⟩ : ∃ powered : Checks, powered =
      { c with
        status := status
        powerGood := decide (results c.passes).PowerFine
        passes := c.passes + 1 } := ⟨_, rfl⟩
  rw [← hpowered] at power
  obtain ⟨thermalGood, thermalStatus, powerGood, retries, counted, waits⟩ :=
    checkThermal_spec (results c.passes) powered
  have powerGood : (checkThermal (results c.passes) powered).powerGood =
      decide (results c.passes).PowerFine := powerGood.trans (by rw [hpowered])
  have retries : (checkThermal (results c.passes) powered).retryCount = c.retryCount :=
    retries.trans (by rw [hpowered])
  have counted : (checkThermal (results c.passes) powered).passes = c.passes + 1 :=
    counted.trans (by rw [hpowered])
  have condition : (0 < (checkThermal (results c.passes) powered).retryCount.toInt ∧
      (!(checkThermal (results c.passes) powered).thermalGood ||
        !(checkThermal (results c.passes) powered).powerGood) = true) ↔
      0 < c.retryCount.toInt ∧
        ¬ ((results c.passes).PowerFine ∧ (results c.passes).ThermalFine) := by
    rw [retries, thermalGood, powerGood]
    simp only [Bool.or_eq_true, Bool.not_eq_true', decide_eq_false_iff_not, not_and_or]
    rw [or_comm]
  refine ⟨{ checkThermal (results c.passes) powered with
    retryCount := (checkThermal (results c.passes) powered).retryCount - 1 }, ?_, ?_⟩
  · exact ⟨counted, congrArg (· - 1) retries, thermalStatus, powerGood, thermalGood,
      waits.trans (by rw [hpowered])⟩
  · simp only [checksPass, power]
    by_cases goes : 0 < c.retryCount.toInt ∧
        ¬ ((results c.passes).PowerFine ∧ (results c.passes).ThermalFine)
    · rw [if_pos goes, if_pos (condition.mpr goes)]
    · rw [if_neg goes, if_neg (mt condition.mp goes)]

/-! ## The loop -/

/-- Before a pass: the passes made are retries used up, none of them was the last, and the thermal
flag is that of the pass before. -/
structure BeforePass (retries : BitVec 32) (results : ℕ → PassResults) (c : Checks) : Prop where
  used : c.retryCount.toInt + c.passes = retries.toInt
  went_on : ∀ i < c.passes, ¬ Stops retries results i
  thermalGood : c.thermalGood = thermalBefore results c.passes
  waits : c.waits = Nat.count (Waits retries results) c.passes

/-- After the last pass: it is the first that stops the loop, and decides how the checks end. -/
structure AfterLoop (retries : BitVec 32) (results : ℕ → PassResults) (last : ℕ)
    (left : Checks) : Prop where
  passes : left.passes = last + 1
  stops : Stops retries results last
  went_on : ∀ i < last, ¬ Stops retries results i
  ending : shutDownOrReturn left = endingAfter results last
  waits : left.waits = Nat.count (Waits retries results) left.passes

theorem toInt_sub_one {n : BitVec 32} (positive : 0 < n.toInt) : (n - 1).toInt = n.toInt - 1 := by
  have bound := BitVec.toInt_lt (x := n)
  rw [BitVec.toInt_sub]
  change (n.toInt - 1).bmod _ = _
  exact Int.bmod_eq_of_le (by omega) (by omega)

theorem BeforePass.positive_iff (h : BeforePass retries results c) :
    0 < c.retryCount.toInt ↔ (c.passes : ℤ) < retries.toInt := by
  have used := h.used
  omega

theorem BeforePass.count (h : BeforePass retries results c)
    (passed : ¬ (results c.passes).MitigationFails) (step : Checked results c c') :
    c'.waits = Nat.count (Waits retries results) c'.passes := by
  rw [step.waits, step.passes, Nat.count_succ, h.waits]
  congr 1
  refine if_congr ?_ rfl rfl
  rw [h.positive_iff]
  exact (and_iff_right passed).symm

theorem BeforePass.next (h : BeforePass retries results c) (step : Checked results c c')
    (positive : 0 < c.retryCount.toInt) (passed : ¬ (results c.passes).MitigationFails)
    (wrong : ¬ ((results c.passes).PowerFine ∧ (results c.passes).ThermalFine)) :
    BeforePass retries results c' where
  used := by
    have less := toInt_sub_one positive
    rw [step.retryCount, less, step.passes, ← h.used]
    push_cast
    omega
  went_on := by
    intro i lt
    rw [step.passes] at lt
    rcases Nat.lt_succ_iff_lt_or_eq.mp lt with earlier | rfl
    · exact h.went_on i earlier
    · rintro (fine | failed | spent)
      · exact wrong fine
      · exact passed failed
      · have left := h.positive_iff.mp positive
        omega
  thermalGood := by
    rw [step.thermalGood, step.passes]
    rfl
  waits := h.count passed step

theorem Checked.ending (step : Checked results c c')
    (passed : ¬ (results c.passes).MitigationFails) :
    shutDownOrReturn c' = endingAfter results c.passes := by
  rw [shutDownOrReturn, endingAfter, if_neg passed, step.thermalGood, step.powerGood, step.status]
  by_cases cool : (results c.passes).ThermalFine
  · by_cases fine : (results c.passes).PowerFine <;> simp [cool, fine]
  · simp [cool]

theorem BeforePass.leave (h : BeforePass retries results c) (step : Checked results c c')
    (passed : ¬ (results c.passes).MitigationFails)
    (finished : ¬ (0 < c.retryCount.toInt ∧
      ¬ ((results c.passes).PowerFine ∧ (results c.passes).ThermalFine))) :
    AfterLoop retries results c.passes c' where
  passes := step.passes
  stops := by
    rw [h.positive_iff, not_and_or, not_not, not_lt] at finished
    rcases finished with spent | fine
    · exact .inr (.inr spent)
    · exact .inl fine
  went_on := h.went_on
  ending := step.ending passed
  waits := h.count passed step

theorem BeforePass.fail (h : BeforePass retries results c)
    (failed : (results c.passes).MitigationFails) :
    AfterLoop retries results c.passes
      { c with
        status := (results c.passes).mitigateStatus
        powerGood := false
        passes := c.passes + 1 } where
  passes := rfl
  stops := .inr (.inl failed)
  went_on := h.went_on
  ending := by
    rw [endingAfter, if_pos failed, ← h.thermalGood, shutDownOrReturn]
    cases c.thermalGood <;> rfl
  waits := by
    have none : ¬ Waits retries results c.passes := fun waits => waits.1 failed
    change c.waits = Nat.count (Waits retries results) (c.passes + 1)
    rw [Nat.count_succ, if_neg none, h.waits]
    rfl

/-- Every pass leads to the next with a retry less, or out of the loop. -/
theorem BeforePass.step (h : BeforePass retries results c) :
    (∃ next, checksPass results c = some (.inl next) ∧ BeforePass retries results next ∧
        next.retryCount.toInt.toNat < c.retryCount.toInt.toNat) ∨
      ∃ left, checksPass results c = some (.inr left) ∧
        ∃ last, AfterLoop retries results last left := by
  by_cases failed : (results c.passes).MitigationFails
  · exact .inr ⟨_, checksPass_failed failed, c.passes, h.fail failed⟩
  · obtain ⟨next, step, pass⟩ := checksPass_checked failed
    by_cases goes : 0 < c.retryCount.toInt ∧
        ¬ ((results c.passes).PowerFine ∧ (results c.passes).ThermalFine)
    · rw [if_pos goes] at pass
      refine .inl ⟨next, pass, h.next step goes.1 failed goes.2, ?_⟩
      have less := toInt_sub_one goes.1
      have positive := goes.1
      simp only [step.retryCount, less]
      omega
    · rw [if_neg goes] at pass
      exact .inr ⟨next, pass, c.passes, h.leave step failed goes⟩

theorem BeforePass.loop (h : BeforePass retries results c) :
    ∃ left, loop (checksPass results) passLimit c = some left ∧
      ∃ last, AfterLoop retries results last left := by
  refine loop_total (BeforePass retries results) (fun c => c.retryCount.toInt.toNat)
    (fun c h => h.step) passLimit c h ?_
  have bound := BitVec.toInt_lt (x := c.retryCount)
  simp only [passLimit]
  omega

/-! ## The checks -/

theorem endingAfter_returned_iff (results : ℕ → PassResults) (last : ℕ) :
    (∃ status, endingAfter results last = .returned status) ↔
      (results last).PowerFine ∧ (results last).ThermalFine := by
  rw [endingAfter]
  by_cases failed : (results last).MitigationFails
  · rw [if_pos failed]
    refine iff_of_false ?_ fun fine => failed.1 fine.1
    split <;> rintro ⟨status, returned⟩ <;> cases returned
  · rw [if_neg failed]
    by_cases cool : (results last).ThermalFine
    · by_cases fine : (results last).PowerFine <;> simp [cool, fine]
    · simp [cool]

theorem AfterLoop.passes_le {last : ℕ} {left : Checks}
    (h : AfterLoop retries results last left) : (left.passes : ℤ) ≤ max retries.toInt 0 + 1 := by
  rw [h.passes]
  cases last with
  | zero => exact Int.add_le_add_right (le_max_right _ _) 1
  | succ last =>
      have unspent := h.went_on last (Nat.lt_succ_self last)
      rw [Stops, not_or, not_or, not_le] at unspent
      have left := unspent.2.2
      push_cast
      omega

/-- Whatever the services answer, the checks end, and end as they should. -/
theorem msPreBootChecks_correct (retries : BitVec 32) (createStatus : EfiStatus)
    (results : ℕ → PassResults) (events : Ledger) :
    ∃ finished, msPreBootChecks retries createStatus results events = some finished ∧
      Correct retries createStatus results events finished := by
  have closed : Owns events 0 ((events.acquire (!efiError createStatus)).2.releaseIfAny
      (events.acquire (!efiError createStatus)).1) :=
    Owns.releaseIfAny ((Owns.refl events).acquire _)
  cases create : efiError createStatus with
  | true =>
      rw [create] at closed
      refine ⟨_, by rw [msPreBootChecks, create]; rfl, ?_⟩
      constructor
      · exact Int.le_add_one (le_max_right _ _)
      · exact iff_of_true ⟨createStatus, rfl⟩ (.inl create)
      · exact fun i lt => absurd lt (Nat.not_lt_zero i)
      · exact closed
      · exact fun _ => ⟨rfl, rfl, rfl, rfl⟩
      · exact fun created => absurd (created.symm.trans create) Bool.false_ne_true
      · exact fun created => absurd (created.symm.trans create) Bool.false_ne_true
      · exact fun created => absurd (created.symm.trans create) Bool.false_ne_true
  | false =>
      rw [create] at closed
      have start : BeforePass retries results ⟨createStatus, true, true, retries, 1, 0, 0⟩ :=
        ⟨by simp, fun i lt => absurd lt (Nat.not_lt_zero i), rfl, rfl⟩
      obtain ⟨left, ends, last, h⟩ := start.loop
      have returned : (∃ status, shutDownOrReturn left = .returned status) ↔
          (results last).PowerFine ∧ (results last).ThermalFine := by
        rw [h.ending]
        exact endingAfter_returned_iff results last
      refine ⟨_, by rw [msPreBootChecks, create, ends]; rfl, ?_⟩
      constructor
      · exact h.passes_le
      · change (∃ status, shutDownOrReturn left = _) ↔ _
        rw [returned]
        constructor
        · exact fun fine => .inr ⟨last, h.passes, fine⟩
        · rintro (failed | ⟨last', passes', fine⟩)
          · exact absurd (create.symm.trans failed) Bool.false_ne_true
          · obtain rfl : last = last' := Nat.succ.inj (h.passes.symm.trans passes')
            exact fine
      · intro i lt failed
        change ¬ ∃ status, shutDownOrReturn left = _
        rw [returned]
        intro fine
        change i < left.passes at lt
        rw [h.passes] at lt
        rcases Nat.lt_succ_iff_lt_or_eq.mp lt with earlier | rfl
        · exact h.went_on i earlier (.inr (.inl failed))
        · exact failed.1 fine.1
      · exact closed
      · exact fun failed => absurd (create.symm.trans failed) Bool.false_ne_true
      · exact fun _ => ⟨last, h.passes, h.stops, h.went_on, h.ending⟩
      · exact fun _ => h.waits
      · exact fun _ => rfl

/-- Low power that can be mitigated and too hot, then too hot, then nothing wrong. -/
def coolingResults : ℕ → PassResults
  | 0 => ⟨efiSuccess, false, efiSuccess, efiSuccess, false⟩
  | 1 => ⟨efiSuccess, true, efiSuccess, efiSuccess, false⟩
  | _ => ⟨efiSuccess, true, efiSuccess, efiSuccess, true⟩

example : (msPreBootChecks 3 efiSuccess coolingResults .empty).map
    (fun finished => (finished.ending, finished.passes, finished.waits)) =
      some (.returned efiSuccess, 3, 2) := by
  decide

example : (msPreBootChecks 1 efiSuccess coolingResults .empty).map
    (fun finished => (finished.ending, finished.passes, finished.waits)) =
      some (.thermalFailureShutdown, 2, 1) := by
  decide

end MuTegra.BootManager.PreBootChecks
