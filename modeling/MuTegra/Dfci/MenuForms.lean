/- Unit: MuTegra/Dfci/MenuForms
   source: NvidiaPkg/Applications/DfciMenu/DfciMenuVfr.Vfr, NvidiaPkg/Applications/DfciMenu/DfciMenu.h
   digest: The forms of the menu, and what they offer on a device of which certain things are so. -/

import MuTegra.Uefi.Forms

/-!
Only what the user can act on is kept of the forms: buttons, and references to other forms. The
texts that stand around them are left out.
-/

set_option autoImplicit false
set_option relaxedAutoImplicit false

namespace MuTegra.Dfci.MenuForms

open MuTegra.Uefi.Forms

/-- `DFCI_MENU_CONFIGURATION`, with `MENU_TRUE` and `MENU_FALSE` as truth values. -/
structure DfciMenuConfiguration where
  dfciRecoveryEnabled : Bool := false
  dfciHttpRecoveryEnabled : Bool := false
  dfciZeroTouchEnabled : Bool := false
  dfciZeroTouchCertAvailable : Bool := false
  dfciZeroTouchOptGrayOut : Bool := false
  dfciOwnerEnabled : Bool := false
  dfciUserEnabled : Bool := false
  dfciUser1Enabled : Bool := false
  dfciUser2Enabled : Bool := false
  dfciFriendlyName : Bool := false
  dfciTenantName : Bool := false
  dfciOptInChanged : Bool := false
  deriving DecidableEq

inductive QuestionId where
  | init
  | init2
  | init3
  | httpUpdateNow
  | usbUpdateNow
  | recoveryInfo
  | recoveryNow
  | zumOptIn
  | zumOptOut
  | configure
  | usbInstallNow
  | other (id : UInt16)
  deriving DecidableEq

inductive FormId where
  | menu
  | configure
  | recoveryInfo
  /-- `DFCI_RECOVERY_FORM_ID` of the recovery driver. -/
  | dfciRecovery
  deriving DecidableEq

inductive Entry where
  /-- An interactive text. -/
  | button (key : QuestionId)
  /-- A reference to a form; the driver is called when it is interactive. -/
  | goto (form : FormId) (key : Option QuestionId)
  deriving DecidableEq

abbrev Condition := DfciMenuConfiguration → Bool

def ideqval (field : DfciMenuConfiguration → Bool) (value : Bool) : Condition :=
  fun config => field config == value

abbrev MenuForm := List (Statement Condition Entry)

def menuForm : MenuForm :=
  [.suppressIf (fun _ => true) [.entry (.button .init)],
    .suppressIf (ideqval (·.dfciOwnerEnabled) true)
      [.grayOutIf (ideqval (·.dfciZeroTouchOptGrayOut) true)
          [.suppressIf (ideqval (·.dfciZeroTouchEnabled) false) [.entry (.button .zumOptOut)],
            .suppressIf (ideqval (·.dfciZeroTouchCertAvailable) false)
              [.suppressIf (ideqval (·.dfciZeroTouchEnabled) true)
                [.entry (.button .zumOptIn)]]],
        .entry (.button .usbInstallNow)],
    .suppressIf (ideqval (·.dfciOwnerEnabled) false)
      [.entry (.goto .configure (some .configure))]]

def configureForm : MenuForm :=
  [.suppressIf (fun _ => true) [.entry (.button .init2)],
    .suppressIf (ideqval (·.dfciHttpRecoveryEnabled) false) [.entry (.button .httpUpdateNow)],
    .entry (.button .usbUpdateNow),
    .suppressIf (ideqval (·.dfciRecoveryEnabled) false) [.entry (.goto .recoveryInfo none)]]

def recoveryInfoForm : MenuForm :=
  [.suppressIf (fun _ => true) [.entry (.button .init3)], .entry (.goto .dfciRecovery none)]

/-- The statements of a form; those of the recovery driver are not the menu's. -/
def statements : FormId → MenuForm
  | .menu => menuForm
  | .configure => configureForm
  | .recoveryInfo => recoveryInfoForm
  | .dfciRecovery => []

def choices (config : DfciMenuConfiguration) (form : FormId) : List Entry :=
  selectable (fun condition => condition config) (statements form)

def shownEntries (config : DfciMenuConfiguration) (form : FormId) : List Entry :=
  displayed (fun condition => condition config) (statements form)

/-- What is so of a device, as far as its menu depends on it. -/
structure Facts where
  /-- The thumbprint of the enrolled owner is known. -/
  owned : Bool
  /-- The thumbprint of the enrolled zero touch signer is known. -/
  zeroTouch : Bool
  /-- There is a zero touch certificate to enroll. -/
  certificate : Bool
  /-- The setup only has reduced functions. -/
  reduced : Bool
  /-- All that a recovery over http needs is there. -/
  http : Bool
  recovery : Bool

/-- A device without an owner can be opted in or out and installed from a USB drive; one with an
owner can be updated and recovered. -/
def offers (facts : Facts) : FormId → List Entry
  | .menu =>
      if facts.owned then [.goto .configure (some .configure)]
      else
        (if facts.zeroTouch && !facts.reduced then [.button .zumOptOut] else []) ++
          (if facts.certificate && !facts.zeroTouch && !facts.reduced then [.button .zumOptIn]
            else []) ++ [.button .usbInstallNow]
  | .configure =>
      (if facts.http then [.button .httpUpdateNow] else []) ++ [.button .usbUpdateNow] ++
        (if facts.recovery then [.goto .recoveryInfo none] else [])
  | .recoveryInfo => [.goto .dfciRecovery none]
  | .dfciRecovery => []

structure Tells (config : DfciMenuConfiguration) (facts : Facts) : Prop where
  owned : config.dfciOwnerEnabled = facts.owned
  zeroTouch : config.dfciZeroTouchEnabled = facts.zeroTouch
  certificate : config.dfciZeroTouchCertAvailable = facts.certificate
  reduced : config.dfciZeroTouchOptGrayOut = facts.reduced
  http : config.dfciHttpRecoveryEnabled = facts.http
  recovery : config.dfciRecoveryEnabled = facts.recovery

variable {config : DfciMenuConfiguration} {facts : Facts}

theorem choices_eq_offers (h : Tells config facts) (form : FormId) :
    choices config form = offers facts form := by
  obtain ⟨owned, zeroTouch, certificate, reduced, http, recovery⟩ := h
  cases form with
  | menu =>
      simp only [choices, statements, menuForm, selectable, Statement.selectable, ideqval, owned,
        zeroTouch, certificate, reduced, offers]
      cases facts.owned
      · cases facts.zeroTouch <;> cases facts.certificate <;> cases facts.reduced <;> rfl
      · rfl
  | configure =>
      simp only [choices, statements, configureForm, selectable, Statement.selectable, ideqval,
        http, recovery, offers]
      cases facts.http <;> cases facts.recovery <;> rfl
  | recoveryInfo => rfl
  | dfciRecovery => rfl

theorem shownEntries_eq_offers (h : Tells config facts) (form : FormId) :
    shownEntries config form = offers { facts with reduced := false } form := by
  obtain ⟨owned, zeroTouch, certificate, -, http, recovery⟩ := h
  cases form with
  | menu =>
      simp only [shownEntries, statements, menuForm, displayed, Statement.displayed, ideqval,
        owned, zeroTouch, certificate, offers]
      cases facts.owned
      · cases facts.zeroTouch <;> cases facts.certificate <;> rfl
      · rfl
  | configure =>
      simp only [shownEntries, statements, configureForm, displayed, Statement.displayed, ideqval,
        http, recovery, offers]
      cases facts.http <;> cases facts.recovery <;> rfl
  | recoveryInfo => rfl
  | dfciRecovery => rfl

end MuTegra.Dfci.MenuForms
