/- Unit: MuTegra/Buttons/Services
   source: NvidiaPkg/Drivers/GpioButtons/GpioButtons.c
   digest: A failed initialisation frees the services structure but leaves its key callbacks. -/

import MuTegra.Foundation.Ownership
import MuTegra.Foundation.Runs
import MuTegra.Keyboard.Notify
import Mathlib.Data.List.Induction

/-!
The keyboard driver keeps what is registered with it, whatever becomes of the one who
registered. A key delivered to `KeyNotify` is stored through `gBsp`, which a failed
initialisation does not reset.
-/

set_option autoImplicit false
set_option relaxedAutoImplicit false

namespace MuTegra.Buttons.Services

open MuTegra.Foundation.Ownership
open MuTegra.Foundation.Runs
open MuTegra.Uefi.Status
open MuTegra.Keyboard.Queue
open MuTegra.Keyboard.Notify

inductive ButtonState where
  | noButtons
  | volUpButton
  | volDownButton
  deriving DecidableEq, Repr

def scanUp : UInt16 := 0x01
def scanDown : UInt16 := 0x02

/-- The pool, `gBsp`, the state kept in the structure, the keys `KeyNotify` is registered for,
whether the protocol is installed, and the stores made through `gBsp` where nothing is live. -/
structure Driver where
  pool : Ledger
  gBsp : Option ℕ
  buttonState : ButtonState
  registered : List EfiKeyData
  installed : Bool
  badWrites : ℕ

def Driver.start (pool : Ledger) : Driver := ⟨pool, none, .noButtons, [], false, 0⟩

/-- What the calls made by `ButtonsInit` return. -/
structure Outcomes where
  allocated : Bool
  locateDevicePath : EfiStatus
  openProtocol : EfiStatus
  registerUp : EfiStatus
  registerDown : EfiStatus
  install : EfiStatus

/-! ## The driver -/

/-- `gBsp->ButtonState = ButtonState`. -/
def Driver.store (d : Driver) (bsp : ℕ) (buttonState : ButtonState) : Driver :=
  if bsp ∈ d.pool.live then { d with buttonState := buttonState }
  else { d with badWrites := d.badWrites + 1 }

def keyNotify (keyData : EfiKeyData) (d : Driver) : EfiStatus × Driver :=
  match d.gBsp with
  | none => (efiOutOfResources, d)
  | some bsp =>
      if keyData.scanCode = scanUp then (efiSuccess, d.store bsp .volUpButton)
      else if keyData.scanCode = scanDown then (efiSuccess, d.store bsp .volDownButton)
      else (efiSuccess, d)

/-- The `KeyData` that is registered for a scan code. -/
def keyDataFor (scanCode : UInt16) : EfiKeyData := ⟨scanCode, 0, 0, 0⟩

/-- `RegisterKeyNotify` of `KeyNotify`; an error registers nothing. -/
def Driver.registerKeyNotify (d : Driver) (keyData : EfiKeyData) (status : EfiStatus) :
    Driver :=
  if efiError status then d else { d with registered := d.registered ++ [keyData] }

/-- `GetButtonState`; the status of the reset is not looked at. -/
def getButtonState (outcomes : Outcomes) (d : Driver) : EfiStatus × Driver :=
  if efiError outcomes.locateDevicePath then (outcomes.locateDevicePath, d)
  else if efiError outcomes.openProtocol then (outcomes.openProtocol, d)
  else
    let d := d.registerKeyNotify (keyDataFor scanUp) outcomes.registerUp
    if efiError outcomes.registerUp then (outcomes.registerUp, d)
    else
      let d := d.registerKeyNotify (keyDataFor scanDown) outcomes.registerDown
      (outcomes.registerDown, d)

def Driver.freeServices (d : Driver) : Driver := { d with pool := d.pool.release d.gBsp }

def buttonsInit (outcomes : Outcomes) (d : Driver) : EfiStatus × Driver :=
  match d.pool.acquire outcomes.allocated with
  | (none, pool) => (efiSuccess, { d with pool := pool, gBsp := none })
  | (some bsp, pool) =>
      let opened := getButtonState outcomes
        { d with pool := pool, gBsp := some bsp, buttonState := .noButtons }
      if efiError opened.1 then (opened.1, opened.2.freeServices)
      else if efiError outcomes.install then (outcomes.install, opened.2.freeServices)
      else (efiSuccess, { opened.2 with installed := true })

def preBootVolumeUpButtonThenPowerButtonCheck (d : Driver) : Bool :=
  d.buttonState == .volUpButton

def preBootVolumeDownButtonThenPowerButtonCheck (d : Driver) : Bool :=
  d.buttonState == .volDownButton

def preBootClearVolumeButtonState (d : Driver) : Driver :=
  { d with buttonState := .noButtons }

/-! ## What happens later -/

inductive Event where
  | key (keyData : EfiKeyData)
  | volumeUpCheck
  | volumeDownCheck
  | clear

def Driver.deliver (d : Driver) (keyData : EfiKeyData) : Driver :=
  d.registered.foldl (fun d registeredData =>
    if isKeyRegistered registeredData keyData then (keyNotify keyData d).2 else d) d

/-- An event, with the answer to a check; the services are called once they are installed. -/
def Driver.step (d : Driver) : Event → Option Bool × Driver
  | .key keyData => (none, d.deliver keyData)
  | .volumeUpCheck =>
      (if d.installed then some (preBootVolumeUpButtonThenPowerButtonCheck d) else none, d)
  | .volumeDownCheck =>
      (if d.installed then some (preBootVolumeDownButtonThenPowerButtonCheck d) else none, d)
  | .clear => (none, if d.installed then preBootClearVolumeButtonState d else d)

def afterEvents (outcomes : Outcomes) (pool : Ledger) (events : List Event) : Driver :=
  stateAfter Driver.step (buttonsInit outcomes (.start pool)).2 events

/-! ## What it should do -/

def pressed (keyData : EfiKeyData) : Option ButtonState :=
  if keyData.unicodeChar ≠ 0 then none
  else if keyData.scanCode = scanUp then some .volUpButton
  else if keyData.scanCode = scanDown then some .volDownButton
  else none

def Event.pressed : Event → Option ButtonState
  | .key keyData => Services.pressed keyData
  | _ => none

def Event.isClear : Event → Bool
  | .clear => true
  | _ => false

def lastPressed (events : List Event) : ButtonState :=
  ((events.reverse.takeWhile fun event => !event.isClear).findSome? Event.pressed).getD .noButtons

def answerFor (last : ButtonState) : Event → Option Bool
  | .volumeUpCheck => some (last == .volUpButton)
  | .volumeDownCheck => some (last == .volDownButton)
  | _ => none

structure Outcomes.Registers (outcomes : Outcomes) : Prop where
  allocated : outcomes.allocated = true
  located : efiError outcomes.locateDevicePath = false
  opened : efiError outcomes.openProtocol = false
  up : efiError outcomes.registerUp = false

def Outcomes.Succeeded (outcomes : Outcomes) : Prop :=
  outcomes.Registers ∧ efiError outcomes.registerDown = false ∧ efiError outcomes.install = false

/-- Every store goes to a live structure, and after a success every check is answered from the
last button pressed. -/
structure Sound (outcomes : Outcomes) (pool : Ledger) (events : List Event) : Prop where
  writes : ∀ before later, events = before ++ later →
    (afterEvents outcomes pool before).badWrites = 0
  reported : outcomes.Succeeded → ∀ before event later, events = before ++ event :: later →
    ((afterEvents outcomes pool before).step event).1 = answerFor (lastPressed before) event

/-- `KeyNotify` stays registered for a button while the structure is freed. -/
def Outcomes.Leaves (outcomes : Outcomes) : ButtonState → Prop
  | .noButtons => False
  | .volUpButton => outcomes.Registers ∧
      (efiError outcomes.registerDown = true ∨ efiError outcomes.install = true)
  | .volDownButton => outcomes.Registers ∧ efiError outcomes.registerDown = false ∧
      efiError outcomes.install = true

/-! ## A key -/

variable {outcomes : Outcomes} {bsp : ℕ} {d : Driver}

theorem isKeyRegistered_keyDataFor (scanCode : UInt16) (keyData : EfiKeyData) :
    isKeyRegistered (keyDataFor scanCode) keyData =
      decide (keyData.scanCode = scanCode ∧ keyData.unicodeChar = 0) := by
  rw [Bool.eq_iff_iff, decide_eq_true_iff]
  constructor
  · intro h
    by_contra other
    rw [not_and_or] at other
    rw [isKeyRegistered, if_pos] at h
    · exact Bool.false_ne_true h
    · exact other.imp Ne.symm Ne.symm
  · rintro ⟨rfl, character⟩
    simp [isKeyRegistered, keyDataFor, character]

def Outcomes.registeredKeys (outcomes : Outcomes) : List EfiKeyData :=
  keyDataFor scanUp :: if efiError outcomes.registerDown then [] else [keyDataFor scanDown]

theorem deliver_eq (pointer : d.gBsp = some bsp) (keys : d.registered = outcomes.registeredKeys)
    (keyData : EfiKeyData) :
    d.deliver keyData =
      match pressed keyData with
      | some .volUpButton => d.store bsp .volUpButton
      | some .volDownButton =>
          if efiError outcomes.registerDown then d else d.store bsp .volDownButton
      | _ => d := by
  have distinct : scanUp ≠ scanDown := by decide
  rw [Driver.deliver, keys, Outcomes.registeredKeys]
  by_cases character : keyData.unicodeChar = 0
  · by_cases up : keyData.scanCode = scanUp
    · have button : pressed keyData = some .volUpButton := by simp [pressed, character, up]
      cases efiError outcomes.registerDown <;>
        simp [isKeyRegistered_keyDataFor, keyNotify, button, pointer, character, up, distinct]
    · by_cases down : keyData.scanCode = scanDown
      · have button : pressed keyData = some .volDownButton := by
          simp [pressed, character, down, distinct.symm]
        cases efiError outcomes.registerDown <;>
          simp [isKeyRegistered_keyDataFor, keyNotify, button, pointer, character, down,
            distinct.symm]
      · have button : pressed keyData = none := by simp [pressed, character, up, down]
        cases efiError outcomes.registerDown <;>
          simp [isKeyRegistered_keyDataFor, button, up, down]
  · have button : pressed keyData = none := by simp [pressed, character]
    cases efiError outcomes.registerDown <;>
      simp [isKeyRegistered_keyDataFor, button, character]

/-! ## The initialisation -/

/-- The structure is freed, and `KeyNotify` still registered for at least one button. -/
structure Dangling (outcomes : Outcomes) (bsp : ℕ) (d : Driver) : Prop where
  registers : outcomes.Registers
  failed : efiError outcomes.registerDown = true ∨ efiError outcomes.install = true
  pointer : d.gBsp = some bsp
  freed : bsp ∉ d.pool.live
  keys : d.registered = outcomes.registeredKeys
  uninstalled : d.installed = false

structure Working (outcomes : Outcomes) (bsp : ℕ) (d : Driver) : Prop where
  succeeded : outcomes.Succeeded
  pointer : d.gBsp = some bsp
  live : bsp ∈ d.pool.live
  keys : d.registered = outcomes.registeredKeys
  installed : d.installed = true
  clean : d.badWrites = 0

structure Idle (outcomes : Outcomes) (d : Driver) : Prop where
  unregistered : ¬ outcomes.Registers
  keys : d.registered = []
  uninstalled : d.installed = false
  clean : d.badWrites = 0

/-- A step before the first registration fails, or the keys are registered and the status is
that of the second registration. -/
theorem getButtonState_cases (outcomes : Outcomes) (d : Driver) :
    ((efiError outcomes.locateDevicePath = true ∨ efiError outcomes.openProtocol = true ∨
        efiError outcomes.registerUp = true) ∧
      efiError (getButtonState outcomes d).1 = true ∧ (getButtonState outcomes d).2 = d) ∨
    ((efiError outcomes.locateDevicePath = false ∧ efiError outcomes.openProtocol = false ∧
        efiError outcomes.registerUp = false) ∧
      getButtonState outcomes d = (outcomes.registerDown,
        { d with registered := d.registered ++ outcomes.registeredKeys })) := by
  rw [getButtonState]
  cases located : efiError outcomes.locateDevicePath with
  | true => exact .inl ⟨.inl rfl, located, rfl⟩
  | false =>
  cases opened : efiError outcomes.openProtocol with
  | true => exact .inl ⟨.inr (.inl rfl), opened, rfl⟩
  | false =>
  cases up : efiError outcomes.registerUp with
  | true => exact .inl ⟨.inr (.inr rfl), by simp [up], by simp [Driver.registerKeyNotify, up]⟩
  | false =>
      refine .inr ⟨⟨rfl, rfl, rfl⟩, ?_⟩
      cases down : efiError outcomes.registerDown <;>
        simp [Driver.registerKeyNotify, Outcomes.registeredKeys, up, down]

theorem Dangling.of_freed {outcomes : Outcomes} {d : Driver} {bsp : ℕ}
    (registers : outcomes.Registers)
    (failed : efiError outcomes.registerDown = true ∨ efiError outcomes.install = true)
    (pointer : d.gBsp = some bsp) (keys : d.registered = outcomes.registeredKeys)
    (uninstalled : d.installed = false) : Dangling outcomes bsp d.freeServices where
  registers := registers
  failed := failed
  pointer := pointer
  freed := by
    rw [Driver.freeServices, pointer]
    exact not_mem_release d.pool bsp
  keys := keys
  uninstalled := uninstalled

def Driver.opened (pool : Ledger) : Driver :=
  { Driver.start pool with pool := pool.grant, gBsp := some pool.next }

theorem buttonsInit_allocated (outcomes : Outcomes) (pool : Ledger)
    (allocated : outcomes.allocated = true) :
    buttonsInit outcomes (.start pool) =
      let opened := getButtonState outcomes (.opened pool)
      if efiError opened.1 then (opened.1, opened.2.freeServices)
      else if efiError outcomes.install then (outcomes.install, opened.2.freeServices)
      else (efiSuccess, { opened.2 with installed := true }) := by
  rw [buttonsInit, allocated]
  rfl

theorem buttonsInit_cases (outcomes : Outcomes) (pool : Ledger) :
    Idle outcomes (buttonsInit outcomes (.start pool)).2 ∨
      ((buttonsInit outcomes (.start pool)).2.badWrites = 0 ∧
        Dangling outcomes pool.next (buttonsInit outcomes (.start pool)).2) ∨
      ((buttonsInit outcomes (.start pool)).2.buttonState = .noButtons ∧
        Working outcomes pool.next (buttonsInit outcomes (.start pool)).2) := by
  cases allocated : outcomes.allocated with
  | false =>
      have unregistered : ¬ outcomes.Registers := by
        intro registers
        exact absurd registers.allocated (ne_true_of_eq_false allocated)
      left
      rw [buttonsInit, allocated]
      exact ⟨unregistered, rfl, rfl, rfl⟩
  | true =>
      rw [buttonsInit_allocated outcomes pool allocated]
      obtain ⟨stopped, error, same⟩ | ⟨⟨located, opened, up⟩, result⟩ :=
        getButtonState_cases outcomes (.opened pool)
      · have unregistered : ¬ outcomes.Registers := by
          intro registers
          rcases stopped with stopped | stopped | stopped
          · exact absurd stopped (ne_true_of_eq_false registers.located)
          · exact absurd stopped (ne_true_of_eq_false registers.opened)
          · exact absurd stopped (ne_true_of_eq_false registers.up)
        left
        simp only [error, if_true, same]
        exact ⟨unregistered, rfl, rfl, rfl⟩
      · have registers : outcomes.Registers := ⟨allocated, located, opened, up⟩
        right
        simp only [result]
        cases down : efiError outcomes.registerDown with
        | true => exact .inl ⟨rfl, .of_freed registers (.inl down) rfl rfl rfl⟩
        | false =>
        cases install : efiError outcomes.install with
        | true => exact .inl ⟨rfl, .of_freed registers (.inr install) rfl rfl rfl⟩
        | false =>
            exact .inr ⟨rfl, ⟨registers, down, install⟩, rfl, Multiset.mem_cons_self _ _, rfl,
              rfl, rfl⟩

/-! ## What follows it -/

/-- The event is a press of a button that has been left registered. -/
def Event.Hits (outcomes : Outcomes) (event : Event) : Prop :=
  ∃ button, event.pressed = some button ∧ outcomes.Leaves button

theorem Idle.step (h : Idle outcomes d) (event : Event) : (d.step event).2 = d := by
  cases event with
  | key keyData => simp [Driver.step, Driver.deliver, h.keys]
  | volumeUpCheck => rfl
  | volumeDownCheck => rfl
  | clear => simp [Driver.step, h.uninstalled]

theorem Idle.run (h : Idle outcomes d) (events : List Event) :
    stateAfter Driver.step d events = d := by
  induction events with
  | nil => rfl
  | cons event events ih => rw [stateAfter, h.step, ih]

theorem Dangling.store (h : Dangling outcomes bsp d) (button : ButtonState) :
    d.store bsp button = { d with badWrites := d.badWrites + 1 } := if_neg h.freed

theorem Dangling.step_of_hit (h : Dangling outcomes bsp d) {event : Event}
    (hit : event.Hits outcomes) :
    (d.step event).2 = { d with badWrites := d.badWrites + 1 } := by
  obtain ⟨button, press, left⟩ := hit
  cases event with
  | key keyData =>
      rw [Driver.step, deliver_eq h.pointer h.keys, show pressed keyData = some button from press]
      cases button with
      | noButtons => exact left.elim
      | volUpButton => exact h.store _
      | volDownButton =>
          simp only [left.2.1]
          exact h.store _
  | volumeUpCheck => cases press
  | volumeDownCheck => cases press
  | clear => cases press

theorem Dangling.step_of_miss (h : Dangling outcomes bsp d) {event : Event}
    (miss : ¬ event.Hits outcomes) : (d.step event).2 = d := by
  cases event with
  | key keyData =>
      rw [Driver.step, deliver_eq h.pointer h.keys]
      cases press : pressed keyData with
      | none => rfl
      | some button =>
          cases button with
          | noButtons => rfl
          | volUpButton => exact absurd ⟨_, press, h.registers, h.failed⟩ miss
          | volDownButton =>
              cases down : efiError outcomes.registerDown with
              | true => rfl
              | false =>
                  have install : efiError outcomes.install = true :=
                    h.failed.resolve_left (ne_true_of_eq_false down)
                  exact absurd ⟨_, press, h.registers, down, install⟩ miss
  | volumeUpCheck => rfl
  | volumeDownCheck => rfl
  | clear => simp [Driver.step, h.uninstalled]

theorem Dangling.step (h : Dangling outcomes bsp d) (event : Event) :
    Dangling outcomes bsp (d.step event).2 := by
  by_cases hit : event.Hits outcomes
  · rw [h.step_of_hit hit]
    exact ⟨h.registers, h.failed, h.pointer, h.freed, h.keys, h.uninstalled⟩
  · rwa [h.step_of_miss hit]

theorem Dangling.run (h : Dangling outcomes bsp d) {events : List Event}
    (miss : ∀ event ∈ events, ¬ event.Hits outcomes) : stateAfter Driver.step d events = d := by
  induction events with
  | nil => rfl
  | cons event events ih =>
      rw [stateAfter, h.step_of_miss (miss event List.mem_cons_self)]
      exact ih fun later member => miss later (List.mem_cons_of_mem _ member)

theorem Dangling.badWrites_of_hit (h : Dangling outcomes bsp d) {events : List Event}
    {event : Event} (hit : event.Hits outcomes) :
    (stateAfter Driver.step d (events ++ [event])).badWrites ≠ 0 := by
  have last : Dangling outcomes bsp (stateAfter Driver.step d events) :=
    @stateAfter_keeps _ _ _ _ (Dangling outcomes bsp) (fun _ event h => h.step event) events _ h
  rw [stateAfter_append]
  change ((stateAfter Driver.step d events).step event).2.badWrites ≠ 0
  rw [last.step_of_hit hit]
  exact Nat.succ_ne_zero _

theorem lastPressed_append (before : List Event) (event : Event) :
    lastPressed (before ++ [event]) =
      if event.isClear then .noButtons else event.pressed.getD (lastPressed before) := by
  rw [lastPressed, List.reverse_append, List.reverse_singleton, List.singleton_append,
    List.takeWhile_cons]
  cases clear : event.isClear with
  | true => rfl
  | false =>
      simp only [Bool.not_false, if_true, List.findSome?_cons]
      cases event.pressed <;> rfl

theorem pressed_ne_noButtons (keyData : EfiKeyData) : pressed keyData ≠ some .noButtons := by
  rw [pressed]
  split_ifs <;> decide

theorem Working.step (h : Working outcomes bsp d) (event : Event) :
    Working outcomes bsp (d.step event).2 ∧
      (d.step event).2.buttonState =
        if event.isClear then .noButtons else event.pressed.getD d.buttonState := by
  have store (button : ButtonState) : d.store bsp button = { d with buttonState := button } :=
    if_pos h.live
  cases event with
  | key keyData =>
      rw [Driver.step, deliver_eq h.pointer h.keys]
      change _ ∧ _ = (pressed keyData).getD d.buttonState
      cases press : pressed keyData with
      | none => exact ⟨h, rfl⟩
      | some button =>
          cases button with
          | noButtons => exact absurd press (pressed_ne_noButtons keyData)
          | volUpButton =>
              simp only [store]
              exact ⟨⟨h.succeeded, h.pointer, h.live, h.keys, h.installed, h.clean⟩, rfl⟩
          | volDownButton =>
              simp only [store, h.succeeded.2.1]
              exact ⟨⟨h.succeeded, h.pointer, h.live, h.keys, h.installed, h.clean⟩, rfl⟩
  | volumeUpCheck => exact ⟨h, rfl⟩
  | volumeDownCheck => exact ⟨h, rfl⟩
  | clear =>
      simp only [Driver.step, h.installed, if_true, preBootClearVolumeButtonState]
      exact ⟨⟨h.succeeded, h.pointer, h.live, h.keys, rfl, h.clean⟩, rfl⟩

theorem Working.run (h : Working outcomes bsp d) (start : d.buttonState = .noButtons)
    (events : List Event) :
    Working outcomes bsp (stateAfter Driver.step d events) ∧
      (stateAfter Driver.step d events).buttonState = lastPressed events := by
  induction events using List.reverseRecOn with
  | nil => exact ⟨h, start⟩
  | append_singleton before event ih =>
      obtain ⟨working, last⟩ := ih
      rw [stateAfter_append, lastPressed_append, ← last]
      exact working.step event

theorem Working.answer (h : Working outcomes bsp d) (event : Event) :
    (d.step event).1 = answerFor d.buttonState event := by
  cases event with
  | key keyData => rfl
  | volumeUpCheck => exact if_pos h.installed
  | volumeDownCheck => exact if_pos h.installed
  | clear => rfl

/-! ## Soundness -/

/-- The driver is sound over a run exactly when no press in it is of a button that a failed
initialisation left registered. -/
theorem sound_iff (outcomes : Outcomes) (pool : Ledger) (events : List Event) :
    Sound outcomes pool events ↔ ∀ event ∈ events, ¬ event.Hits outcomes := by
  rcases buttonsInit_cases outcomes pool with idle | ⟨clean, dangling⟩ | ⟨start, working⟩
  · have silent (event : Event) : ¬ event.Hits outcomes := by
      rintro ⟨button, -, left⟩
      cases button with
      | noButtons => exact left
      | volUpButton => exact idle.unregistered left.1
      | volDownButton => exact idle.unregistered left.1
    refine iff_of_true ⟨fun before later _ => ?_, fun succeeded => ?_⟩ fun event _ => silent event
    · rw [afterEvents, idle.run, idle.clean]
    · exact absurd succeeded.1 idle.unregistered
  · constructor
    · intro sound event member hit
      obtain ⟨before, later, split⟩ := List.append_of_mem member
      refine dangling.badWrites_of_hit hit (sound.writes (before ++ [event]) later ?_)
      rw [split, List.append_assoc, List.singleton_append]
    · intro miss
      refine ⟨fun before later split => ?_, fun succeeded => ?_⟩
      · have quiet : ∀ event ∈ before, ¬ event.Hits outcomes := fun event member =>
          miss event (split ▸ List.mem_append_left later member)
        rw [afterEvents, dangling.run quiet, clean]
      · obtain ⟨-, down, install⟩ := succeeded
        rcases dangling.failed with failed | failed
        · exact absurd failed (ne_true_of_eq_false down)
        · exact absurd failed (ne_true_of_eq_false install)
  · have silent (event : Event) : ¬ event.Hits outcomes := by
      obtain ⟨-, down, install⟩ := working.succeeded
      rintro ⟨button, -, left⟩
      cases button with
      | noButtons => exact left
      | volUpButton => simp [Outcomes.Leaves, down, install] at left
      | volDownButton => simp [Outcomes.Leaves, install] at left
    refine iff_of_true ⟨fun before later _ => ?_, fun _ before event later _ => ?_⟩
      fun event _ => silent event
    · exact (working.run start before).1.clean
    · obtain ⟨last, state⟩ := working.run start before
      rw [← state]
      exact last.answer event

/-- The second registration fails, and later the volume is turned up. -/
theorem upAfterFailure_not_sound :
    ¬ Sound ⟨true, efiSuccess, efiSuccess, efiSuccess, efiOutOfResources, efiSuccess⟩ .empty
      [.key (keyDataFor scanUp)] := by
  intro sound
  exact absurd (sound.writes [.key (keyDataFor scanUp)] [] rfl) (by decide)

end MuTegra.Buttons.Services
