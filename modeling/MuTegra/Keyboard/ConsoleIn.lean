/- Unit: MuTegra/Keyboard/ConsoleIn
   source: NvidiaPkg/Drivers/TegraKeyboardDxe/TegraKeyboardController.c, TegraKeyboardTextIn.c,
   TegraKeyboard.h
   digest: The console-in device with its flags: the poll handler, the reset and the set-state call. -/

import MuTegra.Keyboard.Notify

set_option autoImplicit false
set_option relaxedAutoImplicit false

namespace MuTegra.Keyboard.ConsoleIn

open MuTegra.Uefi.Status
open MuTegra.Keyboard.Queue
open MuTegra.Keyboard.Notify

structure ModifierFlags where
  leftCtrl : Bool := false
  rightCtrl : Bool := false
  leftAlt : Bool := false
  rightAlt : Bool := false
  leftShift : Bool := false
  rightShift : Bool := false
  leftLogo : Bool := false
  rightLogo : Bool := false
  menu : Bool := false
  sysReq : Bool := false
  deriving DecidableEq, Repr

structure ConsoleInDev extends KeyboardConsoleInDev where
  /-- Counter value of the last poll. -/
  last : BitVec 64
  modifiers : ModifierFlags
  capsLock : Bool
  numLock : Bool
  scrollLock : Bool
  keyboardErr : Bool

/-- What a poll of the device finds: the counter, and the keys that `GetKeys` pushes
when told how many ticks have passed. -/
structure Poll where
  currentCounterValue : BitVec 64
  getKeys : BitVec 64 → List EfiKeyData

def Poll.Quiet (poll : Poll) : Prop := ∀ deltaCounter, poll.getKeys deltaCounter = []

def deltaCounter (consoleIn : ConsoleInDev) (poll : Poll) : BitVec 64 :=
  poll.currentCounterValue - consoleIn.last

def keyboardTimerHandler (consoleIn : ConsoleInDev) (poll : Poll) : ConsoleInDev :=
  if consoleIn.keyboardErr then consoleIn
  else
    { consoleIn with
      last := poll.currentCounterValue
      toKeyboardConsoleInDev := (poll.getKeys (deltaCounter consoleIn poll)).foldl
        keyboardReturnApiPushEfikeyBufTail consoleIn.toKeyboardConsoleInDev }

/-- `InitKeyboard`; resetting the device itself always succeeds. -/
def initKeyboard (consoleIn : ConsoleInDev) : EfiStatus × ConsoleInDev :=
  (efiSuccess,
    { consoleIn with
      efiKeyQueue := .reset consoleIn.efiKeyQueue.buffer
      efiKeyQueueForNotify := .reset consoleIn.efiKeyQueueForNotify.buffer
      capsLock := false
      numLock := false
      scrollLock := false
      modifiers := {}
      isSupportPartialKey := false })

def keyboardEfiReset (consoleIn : ConsoleInDev) : EfiStatus × ConsoleInDev :=
  if consoleIn.keyboardErr then (efiDeviceError, consoleIn)
  else
    match initKeyboard consoleIn with
    | (status, consoleIn) =>
        if efiError status then (efiDeviceError, consoleIn) else (efiSuccess, consoleIn)

def efiToggleStateValid : UInt8 := 0x80
def efiKeyStateExposed : UInt8 := 0x40
def efiScrollLockActive : UInt8 := 0x01
def efiNumLockActive : UInt8 := 0x02
def efiCapsLockActive : UInt8 := 0x04

def hasBits (keyToggleState mask : UInt8) : Bool := keyToggleState &&& mask == mask

/-- The part of `KeyboardSetState` that updates the status light. -/
def updateStatusLight (consoleIn : ConsoleInDev) (keyToggleState : UInt8) : ConsoleInDev :=
  let consoleIn := { consoleIn with
    scrollLock := false
    numLock := false
    capsLock := false
    isSupportPartialKey := false }
  if hasBits keyToggleState efiScrollLockActive then { consoleIn with scrollLock := true }
  else if hasBits keyToggleState efiNumLockActive then { consoleIn with numLock := true }
  else if hasBits keyToggleState efiCapsLockActive then { consoleIn with capsLock := true }
  else if hasBits keyToggleState efiKeyStateExposed then
    { consoleIn with isSupportPartialKey := true }
  else consoleIn

/-- `KeyboardSetState`; a NULL argument is `none`. -/
def keyboardSetState (consoleIn : ConsoleInDev) : Option UInt8 → EfiStatus × ConsoleInDev
  | none => (efiInvalidParameter, consoleIn)
  | some keyToggleState =>
      if consoleIn.keyboardErr then (efiDeviceError, consoleIn)
      else if !hasBits keyToggleState efiToggleStateValid then (efiUnsupported, consoleIn)
      else (efiSuccess, updateStatusLight consoleIn keyToggleState)

variable {consoleIn : ConsoleInDev} {poll : Poll}

@[simp] theorem keyboardTimerHandler_keyboardErr :
    (keyboardTimerHandler consoleIn poll).keyboardErr = consoleIn.keyboardErr := by
  unfold keyboardTimerHandler
  split
  · rfl
  · rfl

theorem keyboardTimerHandler_quiet (herr : consoleIn.keyboardErr = false) (hquiet : poll.Quiet) :
    keyboardTimerHandler consoleIn poll =
      { consoleIn with last := poll.currentCounterValue } := by
  have hok : ¬ consoleIn.keyboardErr = true := by rw [herr]; decide
  rw [keyboardTimerHandler, if_neg hok, hquiet, List.foldl_nil]

end MuTegra.Keyboard.ConsoleIn
