/- Unit: MuTegra/BootManager/PriorityBoot
   source: NvidiaPkg/Library/DeviceBootManagerLib/DeviceBootManagerLib.c,
     NvidiaPkg/Library/MsBootPolicyLib/MsBootPolicyLib.c,
     NvidiaPkg/Library/MsBootOptionsLib/MsBootOptionsLib.c
   digest: Which boot option the volume buttons call for, over whole runs of keys and requests. -/

import MuTegra.BootManager.BootOptions
import MuTegra.Buttons.Services
import MuTegra.Foundation.ByteFields

/-!
The boot policy looks for the button services anew until it finds them. Every request for
a priority boot option asks them for both buttons and clears what they remember.
-/

set_option autoImplicit false
set_option relaxedAutoImplicit false

namespace MuTegra.BootManager.PriorityBoot

open MuTegra.Foundation.Ownership
open MuTegra.Foundation.Runs
open MuTegra.Uefi.Status
open MuTegra.Uefi.Strings (ascii wide)
open MuTegra.Keyboard.Queue
open MuTegra.Keyboard.Notify (isKeyRegistered)
open MuTegra.BootManager.BootOptions (Contents)
open MuTegra.Buttons.Services

/-! ## Options of firmware files -/

structure Guid where
  bytes : List UInt8
  size : bytes.length = 16
  deriving DecidableEq

def mediaDevicePath : UInt8 := 0x04
def mediaPiwgFwFileDp : UInt8 := 0x06

def fwVolDevicePathNode (nameGuid : Guid) : List UInt8 :=
  [mediaDevicePath, mediaPiwgFwFileDp, 20, 0] ++ nameGuid.bytes

def endDevicePath : List UInt8 := [0x7f, 0xff, 4, 0]

structure FwFiles where
  pcdShellFile : Guid
  pcdBootManagerMenuFile : Guid
  msBootPolicyFile : Guid

/-- What the calls made for an option return: the file's name, the nodes of the loaded image's
device when the new path can be allocated, and the status of the initialisation. -/
structure FwCalls where
  userInterface : Option (List UInt16)
  imageNodes : Option (List UInt8)
  initializeStatus : EfiStatus

/-- `LOAD_OPTION_CATEGORY_APP | LOAD_OPTION_ACTIVE | LOAD_OPTION_HIDDEN`. -/
def fwOptionAttributes : BitVec 32 := 0x100#32 ||| 0x1#32 ||| 0x8#32

def fwOption (calls : FwCalls) (nodes : List UInt8) (fwFile : Guid) (parameter : String) :
    Contents where
  optionType := .boot
  attributes := fwOptionAttributes
  description := calls.userInterface.getD (wide "Boot Manager Menu")
  filePath := nodes ++ fwVolDevicePathNode fwFile ++ endDevicePath
  optionalData := ascii parameter ++ [0]

abbrev BuiltOption := EfiStatus × Option Contents

/-- `BuildFwLoadOption`; without a path the description is not freed. -/
def buildFwLoadOption (fwFile : Guid) (parameter : String) (calls : FwCalls) (pool : Ledger) :
    BuiltOption × Ledger :=
  let description := pool.acquire calls.userInterface.isSome
  match calls.imageNodes with
  | none => ((efiNotFound, none), description.2)
  | some nodes =>
      let devicePath := description.2.acquire true
      let option := fwOption calls nodes fwFile parameter
      ((calls.initializeStatus, if efiError calls.initializeStatus then none else some option),
        (devicePath.2.releaseIfAny devicePath.1).releaseIfAny description.1)

/-! ## The boot policy -/

/-- The button driver, whether the policy has found its services, the pool, and whether a reboot
has been put down to the setup key. -/
structure Bds where
  buttons : Driver
  gButtonService : Bool
  pool : Ledger
  setupKeyReason : Bool

def getButtonServiceProtocol (s : Bds) : Bds :=
  if s.gButtonService then s else { s with gButtonService := s.buttons.installed }

def msBootPolicyLibIsSettingsBoot (s : Bds) : Bool × Bds :=
  let s := getButtonServiceProtocol s
  (s.gButtonService && preBootVolumeUpButtonThenPowerButtonCheck s.buttons, s)

def msBootPolicyLibUefiShell (s : Bds) : Bool × Bds :=
  let s := getButtonServiceProtocol s
  (s.gButtonService && preBootVolumeDownButtonThenPowerButtonCheck s.buttons, s)

def msBootPolicyLibClearBootRequests (s : Bds) : EfiStatus × Bds :=
  let s := getButtonServiceProtocol s
  if s.gButtonService then
    (efiSuccess, { s with buttons := preBootClearVolumeButtonState s.buttons })
  else (efiDeviceError, s)

def Bds.build (s : Bds) (fwFile : Guid) (parameter : String) (calls : FwCalls) :
    BuiltOption × Bds :=
  let built := buildFwLoadOption fwFile parameter calls s.pool
  (built.1, { s with pool := built.2 })

def deviceBootManagerPriorityBoot (files : FwFiles) (calls : FwCalls) (s : Bds) :
    BuiltOption × Bds :=
  let frontPageBoot := msBootPolicyLibIsSettingsBoot s
  let shell := msBootPolicyLibUefiShell frontPageBoot.2
  let s := (msBootPolicyLibClearBootRequests shell.2).2
  -- the answer for the shell is overwritten
  let uefiShell := true
  if uefiShell then
    if frontPageBoot.1 then s.build files.msBootPolicyFile "NS" calls
    else s.build files.pcdShellFile "VOL-" calls
  else if frontPageBoot.1 then
    let menu := s.build files.pcdBootManagerMenuFile "VOL+" calls
    (menu.1, { menu.2 with setupKeyReason := true })
  else ((efiNotFound, none), s)

/-! ## Runs -/

inductive BootEvent where
  | key (keyData : EfiKeyData)
  | priorityBoot (calls : FwCalls)

def Bds.step (files : FwFiles) (s : Bds) : BootEvent → Option BuiltOption × Bds
  | .key keyData => (none, { s with buttons := s.buttons.deliver keyData })
  | .priorityBoot calls =>
      let booted := deviceBootManagerPriorityBoot files calls s
      (some booted.1, booted.2)

def Bds.start (outcomes : Outcomes) (driverPool pool : Ledger) : Bds where
  buttons := (buttonsInit outcomes (.start driverPool)).2
  gButtonService := false
  pool := pool
  setupKeyReason := false

/-! ## What it comes to -/

/-- The option for the button that was pressed last: the boot policy for volume up, and the shell
for anything else. -/
def chosenOption (files : FwFiles) (last : ButtonState) (calls : FwCalls) : BuiltOption :=
  match calls.imageNodes with
  | none => (efiNotFound, none)
  | some nodes =>
      (calls.initializeStatus,
        if efiError calls.initializeStatus then none
        else if last = .volUpButton then some (fwOption calls nodes files.msBootPolicyFile "NS")
        else some (fwOption calls nodes files.pcdShellFile "VOL-"))

/-- A machine that only remembers the last button since the last request, if it is told any. -/
def chooser (files : FwFiles) (told : Bool) (last : ButtonState) :
    BootEvent → Option BuiltOption × ButtonState
  | .key keyData => (none, if told then (pressed keyData).getD last else last)
  | .priorityBoot calls => (some (chosenOption files last calls), .noButtons)

/-- A request that finds a description for its file and no room for the path. -/
def BootEvent.leaks : BootEvent → Bool
  | .key _ => false
  | .priorityBoot calls => calls.userInterface.isSome && calls.imageNodes.isNone

structure Chosen (files : FwFiles) (outcomes : Outcomes) (s : Bds) (events : List BootEvent) :
    Prop where
  answers : ∀ told, (told = true ↔ outcomes.Succeeded) →
    answers (Bds.step files) s events = answers (chooser files told) .noButtons events
  neverSetup : (stateAfter (Bds.step files) s events).setupKeyReason = false
  leaked : ∃ descriptions : Multiset ℕ,
    Owns s.pool descriptions (stateAfter (Bds.step files) s events).pool ∧
      descriptions.card = events.countP BootEvent.leaks

/-! ## A request -/

variable {files : FwFiles} {calls : FwCalls} {s : Bds}

def Bds.finds (s : Bds) : Bool := s.gButtonService || s.buttons.installed

theorem getButtonServiceProtocol_eq (s : Bds) :
    getButtonServiceProtocol s = { s with gButtonService := s.finds } := by
  obtain ⟨buttons, found, pool, reason⟩ := s
  cases found <;> rfl

theorem finds_again (s : Bds) : Bds.finds { s with gButtonService := s.finds } = s.finds := by
  simp [Bds.finds]

/-- The volume is being turned up, as far as the policy can tell. -/
def Bds.settings (s : Bds) : Bool := s.finds && s.buttons.buttonState == .volUpButton

def Bds.asked (s : Bds) : Bds where
  buttons := if s.finds then preBootClearVolumeButtonState s.buttons else s.buttons
  gButtonService := s.finds
  pool := s.pool
  setupKeyReason := s.setupKeyReason

theorem deviceBootManagerPriorityBoot_eq (files : FwFiles) (calls : FwCalls) (s : Bds) :
    deviceBootManagerPriorityBoot files calls s =
      if s.settings then s.asked.build files.msBootPolicyFile "NS" calls
      else s.asked.build files.pcdShellFile "VOL-" calls := by
  have asked : (msBootPolicyLibClearBootRequests
      (msBootPolicyLibUefiShell (msBootPolicyLibIsSettingsBoot s).2).2).2 = s.asked := by
    simp only [msBootPolicyLibIsSettingsBoot, msBootPolicyLibUefiShell,
      msBootPolicyLibClearBootRequests, getButtonServiceProtocol_eq, finds_again, Bds.asked]
    split <;> rfl
  have settings : (msBootPolicyLibIsSettingsBoot s).1 = s.settings := by
    rw [msBootPolicyLibIsSettingsBoot, getButtonServiceProtocol_eq]
    rfl
  rw [deviceBootManagerPriorityBoot]
  simp only [asked, settings, if_true]

theorem buildFwLoadOption_fst (fwFile : Guid) (parameter : String) (calls : FwCalls)
    (pool : Ledger) :
    (buildFwLoadOption fwFile parameter calls pool).1 =
      match calls.imageNodes with
      | none => (efiNotFound, none)
      | some nodes => (calls.initializeStatus,
          if efiError calls.initializeStatus then none
          else some (fwOption calls nodes fwFile parameter)) := by
  rw [buildFwLoadOption]
  cases calls.imageNodes <;> rfl

theorem priorityBoot_answer {last : ButtonState}
    (settings : s.settings = true ↔ last = .volUpButton) :
    (deviceBootManagerPriorityBoot files calls s).1 = chosenOption files last calls := by
  rw [deviceBootManagerPriorityBoot_eq, chosenOption]
  by_cases up : last = .volUpButton
  · rw [if_pos (settings.mpr up), Bds.build, buildFwLoadOption_fst]
    simp only [up, if_true]
  · rw [if_neg (fun asked => up (settings.mp asked)), Bds.build, buildFwLoadOption_fst]
    simp only [up, if_false]

theorem buildFwLoadOption_owns {base pool : Ledger} {owned : Multiset ℕ}
    (h : Owns base owned pool) (fwFile : Guid) (parameter : String) (calls : FwCalls) :
    ∃ leaked : Multiset ℕ,
      Owns base (leaked + owned) (buildFwLoadOption fwFile parameter calls pool).2 ∧
        leaked.card = if (BootEvent.priorityBoot calls).leaks then 1 else 0 := by
  rw [buildFwLoadOption, BootEvent.leaks]
  have described := h.acquire calls.userInterface.isSome
  cases calls.imageNodes with
  | none =>
      refine ⟨_, described, ?_⟩
      cases calls.userInterface.isSome <;> rfl
  | some nodes =>
      refine ⟨0, ?_, by simp⟩
      rw [zero_add]
      have path := described.acquire true
      exact path.releaseIfAny.releaseIfAny

theorem Bds.build_owns {base : Ledger} {owned : Multiset ℕ} (h : Owns base owned s.pool)
    (fwFile : Guid) (parameter : String) (calls : FwCalls) :
    ∃ leaked : Multiset ℕ, Owns base (leaked + owned) (s.build fwFile parameter calls).2.pool ∧
      leaked.card = if (BootEvent.priorityBoot calls).leaks then 1 else 0 :=
  buildFwLoadOption_owns h fwFile parameter calls

/-! ## The runs -/

variable {outcomes : Outcomes} {bsp : ℕ}

theorem deliver_installed (d : Driver) (keyData : EfiKeyData) :
    (d.deliver keyData).installed = d.installed := by
  have notified (registered : EfiKeyData) (d : Driver) :
      (if isKeyRegistered registered keyData then (keyNotify keyData d).2 else d).installed =
        d.installed := by
    unfold keyNotify Driver.store
    cases d.gBsp with
    | none => split <;> rfl
    | some bsp =>
        dsimp only
        split_ifs <;> rfl
  rw [Driver.deliver]
  generalize d.registered = registered
  induction registered generalizing d with
  | nil => rfl
  | cons first registered ih => rw [List.foldl_cons, ih, notified]

/-- The boot manager and the last button: it has no services to ask, or working ones that know. -/
inductive Knows (outcomes : Outcomes) (told : Bool) (s : Bds) (last : ButtonState) : Prop
  | nothing (deaf : told = false) (found : s.gButtonService = false)
      (uninstalled : s.buttons.installed = false) (none : last = .noButtons)
  | button (bsp : ℕ) (hears : told = true) (working : Working outcomes bsp s.buttons)
      (state : s.buttons.buttonState = last)

theorem Knows.settings {told : Bool} {last : ButtonState} (h : Knows outcomes told s last) :
    s.settings = true ↔ last = .volUpButton := by
  cases h with
  | nothing deaf found uninstalled none =>
      simp [Bds.settings, Bds.finds, found, uninstalled, none]
  | button bsp hears working state =>
      simp [Bds.settings, Bds.finds, working.installed, state]

theorem Knows.key {told : Bool} {last : ButtonState} (h : Knows outcomes told s last)
    (keyData : EfiKeyData) :
    Knows outcomes told { s with buttons := s.buttons.deliver keyData }
      (if told then (pressed keyData).getD last else last) := by
  cases h with
  | nothing deaf found uninstalled none =>
      subst deaf
      exact .nothing rfl found ((deliver_installed _ _).trans uninstalled) none
  | button bsp hears working state =>
      subst hears state
      obtain ⟨still, follows⟩ := working.step (.key keyData)
      exact .button bsp rfl still follows

theorem Knows.asked {told : Bool} {last : ButtonState} (h : Knows outcomes told s last) :
    Knows outcomes told s.asked .noButtons := by
  cases h with
  | nothing deaf found uninstalled none =>
      have lost : s.finds = false := by rw [Bds.finds, found, uninstalled]; rfl
      refine .nothing deaf lost ?_ rfl
      rw [Bds.asked, lost]
      exact uninstalled
  | button bsp hears working state =>
      have finds : s.finds = true := by rw [Bds.finds, working.installed, Bool.or_true]
      obtain ⟨still, -⟩ := working.step .clear
      rw [Driver.step, working.installed] at still
      have buttons : s.asked.buttons = preBootClearVolumeButtonState s.buttons := by
        rw [Bds.asked, finds]
        rfl
      refine .button bsp hears ?_ ?_
      · rw [buttons]
        exact still
      · rw [buttons]
        rfl

theorem Knows.build {told : Bool} {last : ButtonState} (h : Knows outcomes told s last)
    (fwFile : Guid) (parameter : String) (calls : FwCalls) :
    Knows outcomes told (s.build fwFile parameter calls).2 last := by
  cases h with
  | nothing deaf found uninstalled none => exact .nothing deaf found uninstalled none
  | button bsp hears working state => exact .button bsp hears working state

theorem step_simulates (files : FwFiles) (outcomes : Outcomes) (told : Bool) :
    Simulates (Bds.step files) (chooser files told) (Knows outcomes told) id := by
  intro s last event h
  cases event with
  | key keyData => exact ⟨rfl, h.key keyData⟩
  | priorityBoot calls =>
      refine ⟨congrArg some (priorityBoot_answer h.settings), ?_⟩
      change Knows outcomes told (deviceBootManagerPriorityBoot files calls s).2 .noButtons
      rw [deviceBootManagerPriorityBoot_eq]
      split
      · exact h.asked.build _ _ _
      · exact h.asked.build _ _ _

theorem start_knows (outcomes : Outcomes) (driverPool pool : Ledger) {told : Bool}
    (tells : told = true ↔ outcomes.Succeeded) :
    Knows outcomes told (.start outcomes driverPool pool) .noButtons := by
  have deaf (failed : ¬ outcomes.Succeeded) : told = false :=
    eq_false_of_ne_true fun hears => failed (tells.mp hears)
  rcases buttonsInit_cases outcomes driverPool with idle | ⟨-, dangling⟩ | ⟨start, working⟩
  · refine .nothing (deaf ?_) rfl idle.uninstalled rfl
    exact fun succeeded => idle.unregistered succeeded.1
  · refine .nothing (deaf ?_) rfl dangling.uninstalled rfl
    rintro ⟨-, down, install⟩
    rcases dangling.failed with failed | failed
    · exact absurd failed (ne_true_of_eq_false down)
    · exact absurd failed (ne_true_of_eq_false install)
  · exact .button driverPool.next (tells.mpr working.succeeded) working start

theorem step_setupKeyReason (event : BootEvent) (h : s.setupKeyReason = false) :
    (s.step files event).2.setupKeyReason = false := by
  cases event with
  | key keyData => exact h
  | priorityBoot calls =>
      change (deviceBootManagerPriorityBoot files calls s).2.setupKeyReason = false
      rw [deviceBootManagerPriorityBoot_eq]
      split <;> exact h

theorem step_owns {base : Ledger} {owned : Multiset ℕ} (h : Owns base owned s.pool)
    (event : BootEvent) :
    ∃ leaked : Multiset ℕ, Owns base (leaked + owned) (s.step files event).2.pool ∧
      leaked.card = if event.leaks then 1 else 0 := by
  cases event with
  | key keyData => exact ⟨0, by rwa [zero_add], rfl⟩
  | priorityBoot calls =>
      have asked : Owns base owned s.asked.pool := h
      change ∃ leaked : Multiset ℕ, Owns base (leaked + owned)
        (deviceBootManagerPriorityBoot files calls s).2.pool ∧ _
      rw [deviceBootManagerPriorityBoot_eq]
      split
      · exact Bds.build_owns asked _ _ _
      · exact Bds.build_owns asked _ _ _

theorem run_owns {base : Ledger} (events : List BootEvent) :
    ∀ {s : Bds} {owned : Multiset ℕ}, Owns base owned s.pool →
      ∃ leaked : Multiset ℕ,
        Owns base (leaked + owned) (stateAfter (Bds.step files) s events).pool ∧
          leaked.card = events.countP BootEvent.leaks := by
  induction events with
  | nil =>
      intro s owned h
      exact ⟨0, by rwa [zero_add], rfl⟩
  | cons event events ih =>
      intro s owned h
      obtain ⟨first, owns, single⟩ := @step_owns files s base owned h event
      obtain ⟨later, all, rest⟩ := ih owns
      refine ⟨later + first, by rwa [add_assoc], ?_⟩
      rw [Multiset.card_add, rest, single, List.countP_cons]

end MuTegra.BootManager.PriorityBoot
