/- Unit: MuTegra/FrontPage/Session
   source: NvidiaPkg/Applications/FrontPage/FrontPage.c, NvidiaPkg/Applications/FrontPage/FrontPageUi.c
   digest: A front page session: the loop over the forms, its callbacks and how it is left. -/

import MuTegra.Foundation.ByteFields
import MuTegra.FrontPage.FormMap
import MuTegra.FrontPage.Passwords
import MuTegra.Uefi.Variables

/-!
A session runs over what the user and the browser do: the forms that are displayed, one after
the other, and in each of them the events the front page is told of. The window manager's
drawing and the texts of the dialogs have no part in it.
-/

set_option autoImplicit false
set_option relaxedAutoImplicit false

namespace MuTegra.FrontPage.Session

open MuTegra.Foundation.ByteFields
open MuTegra.Foundation.Numbering
open MuTegra.Foundation.Ownership
open MuTegra.Uefi.Status
open MuTegra.Uefi.Variables
open MuTegra.FrontPage.FormMap
open MuTegra.FrontPage.Passwords
open MuTegra.FrontPage.Secrets

inductive BrowserActionRequest where
  | none
  | reset
  | submit
  | exit
  | formSubmitExit
  | formDiscardExit
  | formApply
  | formDiscard
  | reconnect
  | questionApply
  deriving DecidableEq, Repr

/-- The application's globals, the firmware's state it works on, and what it has told the browser:
the forms sent and the answers to callbacks, in order. -/
structure Globals where
  formMap : FormTable
  showFullMenu : Bool
  currentFormIndex : UInt32
  terminateFrontPage : Bool
  resetRequired : Bool
  callbackKey : UInt16
  variablePolicyEnabled : Bool
  /-- The values passed to `Set` for the Secure Boot keys. -/
  secureBootKeys : List UInt8
  osIndications : Option Variable
  bootNext : Option Variable
  forms : List FormRow
  callbacks : List (UInt16 × EfiStatus × BrowserActionRequest)

inductive NotificationType where
  | none
  | redraw
  | userInput
  deriving DecidableEq, Repr

inductive SwmInputType where
  | key
  | touch
  | other
  deriving DecidableEq, Repr

/-- What the display engine shares when it signals the event, and what the list box answers:
whether a cell was selected, and which one is. -/
structure Notification where
  notificationType : NotificationType
  inputType : SwmInputType
  selected : Bool
  selectedCell : UInt32

/-- A notification that goes on to ask for the selected cell. -/
def Notification.selects (n : Notification) : Bool :=
  n.notificationType = .userInput && (n.inputType = .touch || n.inputType = .key) && n.selected

def masterFrameNotifyCallback (n : Notification) (fp : Globals) : Globals :=
  if n.selects && n.selectedCell ≠ fp.currentFormIndex then
    { fp with currentFormIndex := n.selectedCell, terminateFrontPage := false }
  else fp

def frontPageActionExitFrontPage : UInt16 := 0x1001
def frontPageActionSecChangeSbConfig : UInt16 := 0x1003
def frontPageActionSecDisplaySbWhatIs : UInt16 := 0x1004
def frontPageActionSecSetSystemPassword : UInt16 := 0x1006
def frontPageActionRebootToFrontPage : UInt16 := 0x1007

/-- `MU_SB_CONFIG_NONE`, which the key selection library declares, and the number of key sets in
the platform's key store. -/
structure KeyStore where
  muSbConfigNone : UInt8
  secureBootKeysCount : UInt8

structure Services where
  /-- The texts of the message are there, and what its dialog returns. -/
  popupLoaded : Bool
  popupStatus : EfiStatus
  /-- What `SetSystemPassword` returns. -/
  passwordStatus : EfiStatus
  optionsAllocated : Bool
  selectStatus : EfiStatus
  selectResult : SwmMbResult
  selectedIndex : ℕ
  setStatus : EfiStatus
  osIndicationsFailure : Option ReadFailure
  setVariableStatus : EfiStatus

structure Handled where
  status : EfiStatus
  actionRequest : BrowserActionRequest
  state : Globals

def handleInfoPopup (services : Services) (fp : Globals) : Handled :=
  if services.popupLoaded then ⟨services.popupStatus, .none, fp⟩ else ⟨efiNotFound, .none, fp⟩

def handleSecureBootChange (keys : KeyStore) (services : Services) (fp : Globals) : Handled :=
  if services.optionsAllocated = false then ⟨efiOutOfResources, .none, fp⟩
  else if efiError services.selectStatus = false ∧ services.selectResult = .idOk ∧
      services.selectedIndex < 256 then
    let index := UInt8.ofNat services.selectedIndex
    let indexSetValue :=
      if index = keys.secureBootKeysCount then keys.muSbConfigNone else index
    let fp := { fp with
      variablePolicyEnabled := false
      secureBootKeys := fp.secureBootKeys ++ [indexSetValue] }
    ⟨services.setStatus, if efiError services.setStatus then .none else .formApply,
      { fp with resetRequired := true }⟩
  else ⟨services.selectStatus, .none, { fp with resetRequired := true }⟩

def efiOsIndicationsBootToFwUi : ℕ := 1

/-- `EFI_VARIABLE_BOOTSERVICE_ACCESS | EFI_VARIABLE_RUNTIME_ACCESS | EFI_VARIABLE_NON_VOLATILE`. -/
def nonVolatileAccess : BitVec 32 := accessMask ||| efiVariableNonVolatile

/-- `OsIndications |= EFI_OS_INDICATIONS_BOOT_TO_FW_UI` in the bytes that were read. -/
def setBootToFwUi : List UInt8 → List UInt8
  | [] => []
  | low :: bytes => (low ||| 1) :: bytes

/-- What is written back: the variable with the bit set, or a new one. -/
def bootToFwUi (stored : Option Variable) : Option Variable :=
  match stored with
  | some v => setVariable v.attributes (setBootToFwUi v.data)
  | none => setVariable nonVolatileAccess (encodeLe 8 efiOsIndicationsBootToFwUi)

def handleRebootToFrontPage (services : Services) (fp : Globals) : Handled :=
  let status := getVariable services.osIndicationsFailure fp.osIndications 8 true
  if efiError status = true ∧ status ≠ efiNotFound then ⟨status, .none, fp⟩
  else if efiError services.setVariableStatus then ⟨services.setVariableStatus, .none, fp⟩
  else
    let stored := if status = efiNotFound then none else fp.osIndications
    ⟨services.setVariableStatus, .exit,
      { fp with osIndications := bootToFwUi stored, resetRequired := true }⟩

inductive BrowserAction where
  | changed
  | other
  deriving DecidableEq, Repr

/-- The arguments of `UiCallback` that it looks at: whether the pointers are there, the action and
the question. -/
structure Question where
  pointers : Bool
  action : BrowserAction
  questionId : UInt16

def uiCallback (keys : KeyStore) (question : Question) (services : Services) (fp : Globals) :
    Handled :=
  if question.pointers = false then ⟨efiInvalidParameter, .none, fp⟩
  else if question.action ≠ .changed then ⟨efiUnsupported, .none, fp⟩
  else
    let fp := { fp with callbackKey := question.questionId }
    if question.questionId = frontPageActionSecDisplaySbWhatIs then handleInfoPopup services fp
    else if question.questionId = frontPageActionSecSetSystemPassword then
      ⟨services.passwordStatus, .none, fp⟩
    else if question.questionId = frontPageActionSecChangeSbConfig then
      handleSecureBootChange keys services fp
    else if question.questionId = frontPageActionExitFrontPage then ⟨efiSuccess, .exit, fp⟩
    else if question.questionId = frontPageActionRebootToFrontPage then
      handleRebootToFrontPage services fp
    else ⟨efiUnsupported, .none, { fp with callbackKey := 0 }⟩

/-- What happens while a form is displayed. The forms of other drivers may store `BootNext`. -/
inductive FormEvent where
  | masterFrame (n : Notification)
  | callback (question : Question) (services : Services)
  | storeBootNext (attributes : BitVec 32) (data : List UInt8)

def FormEvent.run (keys : KeyStore) (fp : Globals) : FormEvent → Globals
  | .masterFrame n => masterFrameNotifyCallback n fp
  | .callback question services =>
      let handled := uiCallback keys question services fp
      { handled.state with
        callbacks :=
          fp.callbacks ++ [(question.questionId, handled.status, handled.actionRequest)] }
  | .storeBootNext attributes data => { fp with bootNext := setVariable attributes data }

/-- A form in the browser: the events until it is closed, and what `SendForm` returns. -/
structure Visit where
  events : List FormEvent
  status : EfiStatus
  actionRequest : BrowserActionRequest

/-- What `CallFrontPage` does with the action request the browser returns. -/
def Visit.close (visit : Visit) (fp : Globals) : Globals :=
  if visit.actionRequest = .exit then { fp with terminateFrontPage := true }
  else if visit.actionRequest = .reset then { fp with resetRequired := true }
  else fp

def callFrontPage (keys : KeyStore) (visit : Visit) (fp : Globals) : EfiStatus × Globals :=
  match formForIndex fp.showFullMenu fp.formMap fp.currentFormIndex with
  | none => (efiNotFound, fp)
  | some row =>
      let fp := { fp with forms := fp.forms ++ [row] }
      (visit.status, visit.close (visit.events.foldl (FormEvent.run keys) fp))

/-- The loop of `UefiMain`, and whether it has been left; a run that has not still displays its
last form. -/
def frontPageLoop (keys : KeyStore) : List Visit → Globals → Bool × Globals
  | [], fp => (false, fp)
  | visit :: visits, fp =>
      let fp := (callFrontPage keys visit { fp with terminateFrontPage := true }).2
      if fp.terminateFrontPage = false then frontPageLoop keys visits fp else (true, fp)

/-- What the first dialogs and the other drivers answer to `CreateTopMenu`. -/
structure MenuInputs where
  nullPassword : AuthResults
  maxPasswordAttempts : UInt8
  rounds : List ChallengeRound
  pool : Ledger
  secrets : ℕ → Secret
  dfciEnabled : Bool
  hwhEnabled : Bool

/-- Which menu is shown; none while a password dialog is open. -/
def chooseMenu (inputs : MenuInputs) (auth : Auth) : Option Bool × Auth :=
  let first := getAuthToken none inputs.nullPassword auth
  if first.1 ≠ efiSuccess then
    let challenge := challengeUserPassword inputs.maxPasswordAttempts inputs.rounds
      (.start inputs.pool inputs.secrets) first.2
    (challenge.1, challenge.2.auth)
  else (some first.2.authToken.isSome, first.2)

structure MenuStrings where
  modelInfo : UInt16
  security : UInt16
  bootOrder : UInt16
  dfci : UInt16
  hwh : UInt16
  exit : UInt16
  nodup : [modelInfo, security, bootOrder, dfci, hwh, exit].Nodup

def MenuStrings.table (m : MenuStrings) (form : UInt16 → BitVec 128 × UInt16) : FormTable :=
  mFormMap m.modelInfo m.security m.bootOrder m.dfci m.hwh m.exit form

def removedMenus (m : MenuStrings) (inputs : MenuInputs) : List UInt16 :=
  (if inputs.dfciEnabled then [] else [m.dfci]) ++ if inputs.hwhEnabled then [] else [m.hwh]

/-- How `UefiMain` goes on behind the loop. -/
inductive Leaving where
  /-- `ResetSystemWithSubtype`, which does not return. -/
  | resetSystem
  /-- The option is booted, if it exists; then the system is reset. -/
  | bootNext (option : ℕ)
  | cleanUp
  deriving DecidableEq, Repr

/-- `BootNext` is acted on when it holds a `UINT16`. -/
def nextOption (stored : Option Variable) : Option ℕ :=
  match stored with
  | some v => if v.data.length = 2 then some (decodeLe v.data) else none
  | none => none

/-- `readable` tells whether the variable could be read, `written` whether `OsIndications` could
be stored. -/
def processBootNext (readable written : Bool) (fp : Globals) : Leaving × Globals :=
  let next := if readable then nextOption fp.bootNext else none
  let fp := { fp with bootNext := none }
  match next with
  | some option =>
      (.bootNext option,
        if written then
          { fp with
            osIndications :=
              setVariable nonVolatileAccess (encodeLe 8 efiOsIndicationsBootToFwUi) }
        else fp)
  | none => (.cleanUp, fp)

def leaveFrontPage (readable written : Bool) (fp : Globals) : Leaving × Globals :=
  if fp.resetRequired then (.resetSystem, fp) else processBootNext readable written fp

structure SessionInputs where
  strings : MenuStrings
  form : UInt16 → BitVec 128 × UInt16
  keys : KeyStore
  menu : MenuInputs
  visits : List Visit
  readable : Bool
  written : Bool

def SessionInputs.menuTable (inputs : SessionInputs) : FormTable :=
  removeAll (inputs.strings.table inputs.form) (removedMenus inputs.strings inputs.menu)

/-- The globals of the loaded image when the loop is reached; `BootNext` has been deleted. -/
def SessionInputs.start (inputs : SessionInputs) (showFullMenu : Bool)
    (osIndications : Option Variable) : Globals where
  formMap := inputs.menuTable
  showFullMenu := showFullMenu
  currentFormIndex := 0
  terminateFrontPage := false
  resetRequired := false
  callbackKey := 0
  variablePolicyEnabled := true
  secureBootKeys := []
  osIndications := osIndications
  bootNext := none
  forms := []
  callbacks := []

/-- `UefiMain`: how it was left, unless a dialog or a form is still open. -/
def uefiMain (inputs : SessionInputs) (auth : Auth) (osIndications : Option Variable) :
    Option Leaving × Globals :=
  match chooseMenu inputs.menu auth with
  | (none, _) => (none, inputs.start false osIndications)
  | (some showFullMenu, _) =>
      let out := frontPageLoop inputs.keys inputs.visits (inputs.start showFullMenu osIndications)
      if out.1 then
        let left := leaveFrontPage inputs.readable inputs.written out.2
        (some left.1, left.2)
      else (none, out.2)

end MuTegra.FrontPage.Session
