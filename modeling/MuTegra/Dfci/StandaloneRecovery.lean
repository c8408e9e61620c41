/- Unit: MuTegra/Dfci/StandaloneRecovery
   source: NvidiaPkg/Applications/DfciMenu/DfciSARecovery.c
   digest: The recovery run from the shell, and what it hands a network request without an owner. -/

import MuTegra.Dfci.MenuSession

/-!
The file has its own copies of the functions that read parameters and identities; they differ from
the menu's only in that no text is shown and reduced functions are not looked at. It reads the
parameters first, and asks for no owner.
-/

set_option autoImplicit false
set_option relaxedAutoImplicit false

namespace MuTegra.Dfci.StandaloneRecovery

open MuTegra.Foundation.Ownership
open MuTegra.Uefi.Status MuTegra.Uefi.Variables
open MuTegra.Dfci.State MuTegra.Dfci.Request MuTegra.Dfci.UsbName
open MuTegra.Dfci.Menu MuTegra.Dfci.MenuReads MuTegra.Dfci.MenuSession

/-- `dfciHandles` is the list of `HiiGetHiiHandles`, if there is one: whether its first handle is
not null. -/
structure RecoveryCalls where
  dfciHandles : Option Bool := some true
  locateAuthentication : EfiStatus := efiSuccess
  authentication : Bool := true
  locateSettingPermissions : EfiStatus := efiSuccess
  parameters : ParameterCalls := {}
  enrolled : EnrolledCalls
  network : NetworkRequestCalls := {}
  box : MessageBoxCalls := {}

def issueDfciNetworkRequest (platform : Platform) (calls : RecoveryCalls) (driver : Driver) :
    Issued × Driver :=
  let context := driver.inputs.context platform driver.machine.pool
  (.network context,
    context.elim driver fun ctx => processAndTell calls.network calls.box ctx driver)

def respond (platform : Platform) (calls : RecoveryCalls) (managed : Bool) (driver : Driver) :
    EfiStatus × Option Issued × Driver :=
  if managed = false then (efiSuccess, none, driver)
  else if driver.configuration.dfciHttpRecoveryEnabled then
    let request := issueDfciNetworkRequest platform calls driver
    (efiNotFound, some request.1, request.2)
  else (efiNotFound, none, driver)

/-- `DfciSARecoveryEntry` once the protocols are found. -/
def recover (platform : Platform) (calls : RecoveryCalls) (driver : Driver) :
    EfiStatus × Option Issued × Driver :=
  let parameters := { calls.parameters with pcdSetupUiReducedFunction := false }
  let checked := checkIfDfciEnrolled calls.enrolled (getDfciParameters parameters driver)
  respond platform calls checked.1 checked.2

def dfciSARecoveryEntry (platform : Platform) (calls : RecoveryCalls) (driver : Driver) :
    EfiStatus × Option Issued × Driver :=
  match calls.dfciHandles with
  | none => (efiInvalidParameter, none, driver)
  | some first =>
      let driver := driver.setPool (transient true driver.machine.pool)
      if first = false then (efiInvalidParameter, none, driver)
      -- `return FALSE` is a success
      else if efiError calls.locateAuthentication ∨ calls.authentication = false then
        (efiSuccess, none, driver)
      else if efiError calls.locateSettingPermissions then (efiSuccess, none, driver)
      else recover platform calls driver

namespace RecoveryCalls

variable (calls : RecoveryCalls)

def located : Bool :=
  calls.dfciHandles == some true &&
    (!efiError calls.locateAuthentication && calls.authentication &&
      !efiError calls.locateSettingPermissions)

def managed : Bool :=
  !efiError calls.enrolled.getEnrolledIdentities &&
    (calls.enrolled.mask.zeroTouch && delivers calls.enrolled.zeroTouchThumbprint ||
      calls.enrolled.mask.user)

def identified : Bool := ownerKnown calls.enrolled && !calls.enrolled.systemInfo.fails

end RecoveryCalls

/-- The request that is due on a managed device, and what it is handed: everything, if the owner
and the device are known. -/
def dueRequest (platform : Platform) (calls : RecoveryCalls) (there : Bool) : Option Issued :=
  if calls.managed && there then
    some (.network (if calls.identified then
      some (contextOf platform calls.enrolled calls.parameters) else none))
  else none

structure Recovers (platform : Platform) (calls : RecoveryCalls) (before : Driver)
    (out : EfiStatus × Option Issued × Driver) : Prop where
  status : out.1 =
    if calls.dfciHandles ≠ some true then efiInvalidParameter
    else if calls.located && calls.managed then efiNotFound
    else efiSuccess
  issued : out.2.1 =
    if calls.located then
      dueRequest platform calls (httpThere before.machine.settingAccess calls.parameters)
    else none
  pool : out.2.1 = none → Extends before.machine.pool out.2.2.machine.pool

section Recover

variable {platform : Platform} {calls : RecoveryCalls} {driver : Driver}

theorem context_recovered {parameters : ParameterCalls} {before after : Driver}
    (knows : KnowsIdentities calls.enrolled before after) (ready : HttpReady parameters before)
    (nameless : before.inputs.ownerThumbprint = none)
    (enrolled : efiError calls.enrolled.getEnrolledIdentities = false) :
    after.inputs.context platform after.machine.pool =
      if calls.identified then some (contextOf platform calls.enrolled parameters) else none := by
  rw [RecoveryCalls.identified]
  cases known : ownerKnown calls.enrolled with
  | true =>
      have supplied : Supplied calls.enrolled parameters after :=
        ⟨knows.thumbprint known, knows.ready ready, knows.info enrolled⟩
      rw [supplied.context platform]
      cases calls.enrolled.systemInfo.fails <;> rfl
  | false =>
      rw [RequestInputs.context, knows.nameless known nameless]
      rfl

theorem respond_issued (managed : Bool) (driver : Driver) :
    (respond platform calls managed driver).2.1 =
      if managed && driver.configuration.dfciHttpRecoveryEnabled then
        some (.network (driver.inputs.context platform driver.machine.pool))
      else none := by
  rw [respond]
  cases managed with
  | false => rfl
  | true => cases driver.configuration.dfciHttpRecoveryEnabled <;> rfl

theorem respond_status (managed : Bool) (driver : Driver) :
    (respond platform calls managed driver).1 = if managed then efiNotFound else efiSuccess := by
  rw [respond]
  cases managed with
  | false => rfl
  | true => cases driver.configuration.dfciHttpRecoveryEnabled <;> rfl

theorem respond_driver {managed : Bool} {driver : Driver}
    (h : (respond platform calls managed driver).2.1 = none) :
    (respond platform calls managed driver).2.2 = driver := by
  rw [respond] at h ⊢
  split
  · rfl
  · next device =>
      rw [if_neg device] at h
      split
      · next http =>
          rw [if_pos http] at h
          cases h
      · rfl

theorem managed_enrolled (h : calls.managed = true) :
    efiError calls.enrolled.getEnrolledIdentities = false := by
  rw [RecoveryCalls.managed, Bool.and_eq_true, Bool.not_eq_true'] at h
  exact h.1

theorem recover_status : (recover platform calls driver).1 =
    if calls.managed then efiNotFound else efiSuccess := by
  rw [recover, respond_status, checkIfDfciEnrolled_fst]
  rfl

theorem recover_issued (unread : driver.alreadyRun = false)
    (nameless : driver.inputs.ownerThumbprint = none) :
    (recover platform calls driver).2.1 =
      dueRequest platform calls (httpThere driver.machine.settingAccess calls.parameters) := by
  let reads : ParameterCalls := { calls.parameters with pcdSetupUiReducedFunction := false }
  have learns := @getDfciParameters_knows reads driver unread
  have knows := checkIfDfciEnrolled_knows calls.enrolled (getDfciParameters reads driver)
  have same : httpThere driver.machine.settingAccess reads =
      httpThere driver.machine.settingAccess calls.parameters := rfl
  have device : (checkIfDfciEnrolled calls.enrolled (getDfciParameters reads driver)).1 =
      calls.managed := checkIfDfciEnrolled_fst _ _
  rw [recover, respond_issued, device, knows.http, learns.http, same, dueRequest]
  split
  · next due =>
      rw [Bool.and_eq_true] at due
      rw [context_recovered knows (learns.ready (same.trans due.2))
        (learns.owner.trans nameless) (managed_enrolled due.1)]
      rfl
  · rfl

theorem recover_extends (unread : driver.alreadyRun = false)
    (quiet : (recover platform calls driver).2.1 = none) :
    Extends driver.machine.pool (recover platform calls driver).2.2.machine.pool := by
  rw [recover] at quiet ⊢
  rw [respond_driver quiet]
  exact (getDfciParameters_knows unread).pool.trans (checkIfDfciEnrolled_knows _ _).pool

end Recover

end MuTegra.Dfci.StandaloneRecovery
