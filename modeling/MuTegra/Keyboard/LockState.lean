/- Unit: MuTegra/Keyboard/LockState
   source: NvidiaPkg/Drivers/TegraKeyboardDxe/TegraKeyboardTextIn.c, TegraKeyboardController.c,
   TegraKeyboard.c
   digest: The lock and partial-key flags over runs of set-state calls, resets and key presses. -/

import MuTegra.Foundation.Runs
import MuTegra.Keyboard.TextIn
import Mathlib.Data.List.Induction

set_option autoImplicit false
set_option relaxedAutoImplicit false

namespace MuTegra.Keyboard.LockState

open MuTegra.Foundation.Runs
open MuTegra.Uefi.Status
open MuTegra.Keyboard.Queue
open MuTegra.Keyboard.Notify
open MuTegra.Keyboard.ConsoleIn

inductive DeviceCall where
  | setState (keyToggleState : Option UInt8)
  | reset
  | press (keyData : EfiKeyData)
  deriving DecidableEq, Repr

def press (consoleIn : ConsoleInDev) (keyData : EfiKeyData) : ConsoleInDev :=
  { consoleIn with
    toKeyboardConsoleInDev :=
      keyboardReturnApiPushEfikeyBufTail consoleIn.toKeyboardConsoleInDev keyData }

def deviceStep (consoleIn : ConsoleInDev) : DeviceCall → Option EfiStatus × ConsoleInDev
  | .setState keyToggleState =>
      match keyboardSetState consoleIn keyToggleState with
      | (status, consoleIn) => (some status, consoleIn)
  | .reset =>
      match keyboardEfiReset consoleIn with
      | (status, consoleIn) => (some status, consoleIn)
  | .press keyData => (none, press consoleIn keyData)

/-- The request in force after a call that returned `status`: an accepted one replaces
it, a successful reset clears it. -/
def requestAfter (request : UInt8) (call : DeviceCall) (status : Option EfiStatus) : UInt8 :=
  if status = some efiSuccess then
    match call with
    | .setState (some keyToggleState) => keyToggleState
    | .setState none => request
    | .reset => 0
    | .press _ => request
  else request

def lastRequest (request : UInt8) (consoleIn : ConsoleInDev) : List DeviceCall → UInt8
  | [] => request
  | call :: calls =>
      lastRequest (requestAfter request call (deviceStep consoleIn call).1)
        (deviceStep consoleIn call).2 calls

@[mk_iff] structure FlagsMatch (consoleIn : ConsoleInDev) (request : UInt8) : Prop where
  scrollLock : consoleIn.scrollLock = hasBits request efiScrollLockActive
  numLock : consoleIn.numLock = hasBits request efiNumLockActive
  capsLock : consoleIn.capsLock = hasBits request efiCapsLockActive
  isSupportPartialKey : consoleIn.isSupportPartialKey = hasBits request efiKeyStateExposed

/-- A partial keystroke pressed now is queued exactly when the request exposes them. -/
def QueuesPartial (consoleIn : ConsoleInDev) (request : UInt8) : Prop :=
  ∀ keyData, isPartialKey keyData = true →
    (press consoleIn keyData).efiKeyQueue =
      if hasBits request efiKeyStateExposed then pushEfikeyBufTail consoleIn.efiKeyQueue keyData
      else consoleIn.efiKeyQueue

/-- After each call of a run the flags are those of the request in force, partial
keystrokes are queued by it, and a rejected request has changed nothing. -/
structure TracksRequests (consoleIn : ConsoleInDev) (calls : List DeviceCall) : Prop where
  flags : ∀ before, before <+: calls →
    FlagsMatch (stateAfter deviceStep consoleIn before) (lastRequest 0 consoleIn before)
  partialKeys : ∀ before, before <+: calls →
    QueuesPartial (stateAfter deviceStep consoleIn before) (lastRequest 0 consoleIn before)
  rejected : ∀ before keyToggleState, before ++ [.setState keyToggleState] <+: calls →
    (keyboardSetState (stateAfter deviceStep consoleIn before) keyToggleState).1 ≠ efiSuccess →
    (keyboardSetState (stateAfter deviceStep consoleIn before) keyToggleState).2 =
      stateAfter deviceStep consoleIn before

def AtMostOneBit (request : UInt8) : Prop :=
  ([efiScrollLockActive, efiNumLockActive, efiCapsLockActive, efiKeyStateExposed].countP
    (hasBits request)) ≤ 1

instance (request : UInt8) : Decidable (AtMostOneBit request) :=
  inferInstanceAs (Decidable (_ ≤ 1))

variable {consoleIn : ConsoleInDev} {request : UInt8}

def Accepts (consoleIn : ConsoleInDev) (toggle : UInt8) : Prop :=
  consoleIn.keyboardErr = false ∧ hasBits toggle efiToggleStateValid = true

theorem keyboardSetState_accepted {toggle : UInt8} (haccepts : Accepts consoleIn toggle) :
    keyboardSetState consoleIn (some toggle) =
      (efiSuccess, updateStatusLight consoleIn toggle) := by
  simp only [keyboardSetState, haccepts.1, haccepts.2]
  rfl

theorem keyboardSetState_rejected {keyToggleState : Option UInt8}
    (hrejects : ∀ toggle, keyToggleState = some toggle → ¬ Accepts consoleIn toggle) :
    (keyboardSetState consoleIn keyToggleState).1 ≠ efiSuccess ∧
      (keyboardSetState consoleIn keyToggleState).2 = consoleIn := by
  cases keyToggleState with
  | none => exact ⟨show efiInvalidParameter ≠ efiSuccess by decide, rfl⟩
  | some toggle =>
      have hnot := hrejects toggle rfl
      cases herr : consoleIn.keyboardErr with
      | true =>
          have hset : keyboardSetState consoleIn (some toggle) = (efiDeviceError, consoleIn) :=
            if_pos herr
          rw [hset]
          exact ⟨show efiDeviceError ≠ efiSuccess by decide, rfl⟩
      | false =>
          have hinvalid : hasBits toggle efiToggleStateValid = false :=
            Bool.eq_false_iff.mpr fun hvalid => hnot ⟨herr, hvalid⟩
          have hset : keyboardSetState consoleIn (some toggle) = (efiUnsupported, consoleIn) := by
            simp [keyboardSetState, herr, hinvalid]
          rw [hset]
          exact ⟨show efiUnsupported ≠ efiSuccess by decide, rfl⟩

theorem flagsMatch_updateStatusLight_iff {toggle : UInt8} :
    FlagsMatch (updateStatusLight consoleIn toggle) toggle ↔ AtMostOneBit toggle := by
  rw [flagsMatch_iff]
  simp only [updateStatusLight, AtMostOneBit, List.countP_cons, List.countP_nil]
  cases hasBits toggle efiScrollLockActive <;> cases hasBits toggle efiNumLockActive <;>
    cases hasBits toggle efiCapsLockActive <;> cases hasBits toggle efiKeyStateExposed <;> simp

theorem keyboardEfiReset_flags (herr : consoleIn.keyboardErr = false) :
    (keyboardEfiReset consoleIn).1 = efiSuccess ∧
      FlagsMatch (keyboardEfiReset consoleIn).2 0 := by
  have hok : ¬ consoleIn.keyboardErr = true := by rw [herr]; decide
  rw [keyboardEfiReset, if_neg hok]
  exact ⟨rfl, rfl, rfl, rfl, rfl⟩

theorem press_flags (keyData : EfiKeyData) (h : FlagsMatch consoleIn request) :
    FlagsMatch (press consoleIn keyData) request := by
  obtain ⟨_, _, hpartial⟩ :=
    queueMatches_frame keyData consoleIn.notifyList consoleIn.toKeyboardConsoleInDev
  refine ⟨h.scrollLock, h.numLock, h.capsLock, ?_⟩
  rw [← h.isSupportPartialKey]
  simp only [press, keyboardReturnApiPushEfikeyBufTail]
  split
  · exact hpartial
  · rfl

theorem queuesPartial_of_flagsMatch (h : FlagsMatch consoleIn request) :
    QueuesPartial consoleIn request := by
  intro keyData hpartial
  rw [← h.isSupportPartialKey]
  simp only [press, keyboardReturnApiPushEfikeyBufTail, isAccepted, hpartial, Bool.not_true,
    Bool.false_or]
  split
  · rw [queueMatches_efiKeyQueue]
  · rfl

@[simp] theorem deviceStep_keyboardErr (consoleIn : ConsoleInDev) (call : DeviceCall) :
    (deviceStep consoleIn call).2.keyboardErr = consoleIn.keyboardErr := by
  cases call with
  | setState keyToggleState =>
      cases keyToggleState with
      | none => rfl
      | some toggle =>
          simp only [deviceStep, keyboardSetState, updateStatusLight]
          split_ifs <;> rfl
  | reset =>
      simp only [deviceStep, keyboardEfiReset]
      split_ifs <;> rfl
  | press keyData => rfl

/-- A call whose request, if accepted, has at most one bit keeps the flags in step. -/
theorem flagsMatch_deviceStep (call : DeviceCall) (h : FlagsMatch consoleIn request)
    (hone : ∀ toggle, call = .setState (some toggle) → Accepts consoleIn toggle →
      AtMostOneBit toggle) :
    FlagsMatch (deviceStep consoleIn call).2
      (requestAfter request call (deviceStep consoleIn call).1) := by
  cases call with
  | setState keyToggleState =>
      by_cases haccepts : ∃ toggle, keyToggleState = some toggle ∧ Accepts consoleIn toggle
      · obtain ⟨toggle, rfl, haccepts⟩ := haccepts
        simp only [deviceStep, keyboardSetState_accepted haccepts, requestAfter, if_true]
        exact flagsMatch_updateStatusLight_iff.mpr (hone toggle rfl haccepts)
      · obtain ⟨hstatus, hsame⟩ := keyboardSetState_rejected fun toggle heq hacc =>
          haccepts ⟨toggle, heq, hacc⟩
        have hrequest : requestAfter request (.setState keyToggleState)
            (some (keyboardSetState consoleIn keyToggleState).1) = request :=
          if_neg fun heq => hstatus (Option.some.inj heq)
        simp only [deviceStep, hrequest, hsame]
        exact h
  | reset =>
      cases herr : consoleIn.keyboardErr with
      | true =>
          have hreset : keyboardEfiReset consoleIn = (efiDeviceError, consoleIn) := if_pos herr
          have hrequest : requestAfter request .reset (some efiDeviceError) = request :=
            if_neg (by decide)
          simp only [deviceStep, hreset, hrequest]
          exact h
      | false =>
          obtain ⟨hstatus, hflags⟩ := keyboardEfiReset_flags herr
          simp only [deviceStep, hstatus, requestAfter, if_true]
          exact hflags
  | press keyData => exact press_flags keyData h

variable {calls : List DeviceCall}

theorem lastRequest_append (request : UInt8) (consoleIn : ConsoleInDev)
    (before : List DeviceCall) (call : DeviceCall) :
    lastRequest request consoleIn (before ++ [call]) =
      requestAfter (lastRequest request consoleIn before) call
        (deviceStep (stateAfter deviceStep consoleIn before) call).1 := by
  induction before generalizing request consoleIn with
  | nil => rfl
  | cons first before ih => exact ih _ _

theorem stateAfter_keyboardErr (consoleIn : ConsoleInDev) (calls : List DeviceCall) :
    (stateAfter deviceStep consoleIn calls).keyboardErr = consoleIn.keyboardErr := by
  apply stateAfter_keeps (P := fun s : ConsoleInDev => s.keyboardErr = consoleIn.keyboardErr)
  · intro s call h
    exact (deviceStep_keyboardErr s call).trans h
  · rfl

/-- The flags stay in step along a run whose accepted requests have at most one bit. -/
theorem flagsMatch_run (hstart : FlagsMatch consoleIn 0) (before : List DeviceCall)
    (hone : ∀ toggle, .setState (some toggle) ∈ before → Accepts consoleIn toggle →
      AtMostOneBit toggle) :
    FlagsMatch (stateAfter deviceStep consoleIn before) (lastRequest 0 consoleIn before) := by
  induction before using List.reverseRecOn with
  | nil => exact hstart
  | append_singleton before call ih =>
      rw [stateAfter_append, lastRequest_append]
      apply flagsMatch_deviceStep call
      · apply ih
        intro toggle hmem
        exact hone toggle (List.mem_append_left _ hmem)
      · rintro toggle rfl haccepts
        apply hone toggle (List.mem_append_right _ List.mem_cons_self)
        rwa [Accepts, stateAfter_keyboardErr] at haccepts

/-- From a reset, over every run of set-state calls, resets and presses: the flags, the
queueing of partial keystrokes and the rejected requests are as the last accepted request
says if and only if no accepted request has two of the four bits. -/
theorem tracksRequests_iff (consoleIn : ConsoleInDev) (calls : List DeviceCall) :
    TracksRequests (initKeyboard consoleIn).2 calls ↔
      ∀ toggle, .setState (some toggle) ∈ calls → Accepts consoleIn toggle →
        AtMostOneBit toggle := by
  have hstart : FlagsMatch (initKeyboard consoleIn).2 0 := ⟨rfl, rfl, rfl, rfl⟩
  constructor
  · intro htracks toggle hmem haccepts
    obtain ⟨before, after, rfl⟩ := List.append_of_mem hmem
    have hflags := htracks.flags (before ++ [.setState (some toggle)])
      ⟨after, by rw [List.append_assoc, List.singleton_append]⟩
    have haccepts' :
        Accepts (stateAfter deviceStep (initKeyboard consoleIn).2 before) toggle := by
      rwa [Accepts, stateAfter_keyboardErr]
    rw [stateAfter_append, lastRequest_append] at hflags
    simp only [stateAfter, deviceStep, keyboardSetState_accepted haccepts', requestAfter,
      if_true] at hflags
    exact flagsMatch_updateStatusLight_iff.mp hflags
  · intro hone
    have hflags (before : List DeviceCall) (hbefore : before <+: calls) :
        FlagsMatch (stateAfter deviceStep (initKeyboard consoleIn).2 before)
          (lastRequest 0 (initKeyboard consoleIn).2 before) :=
      flagsMatch_run hstart before fun toggle hmem => hone toggle (hbefore.subset hmem)
    refine ⟨hflags, ?_, ?_⟩
    · intro before hbefore
      exact queuesPartial_of_flagsMatch (hflags before hbefore)
    · intro before keyToggleState _ hstatus
      refine (keyboardSetState_rejected ?_).2
      rintro toggle rfl haccepts
      rw [keyboardSetState_accepted haccepts] at hstatus
      exact hstatus rfl

/-- One request for Num Lock and Caps Lock. -/
theorem twoLocks_not_tracksRequests :
    ¬ TracksRequests (initKeyboard TextIn.partialFirst).2
      [.setState (some (efiToggleStateValid ||| efiNumLockActive ||| efiCapsLockActive))] := by
  intro htracks
  have hcaps := (htracks.flags _ (List.prefix_refl _)).capsLock
  exact absurd hcaps (by decide)

end MuTegra.Keyboard.LockState
