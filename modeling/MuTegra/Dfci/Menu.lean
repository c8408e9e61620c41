/- Unit: MuTegra/Dfci/Menu
   source: NvidiaPkg/Applications/DfciMenu/DfciMenu.c
   digest: The driver behind the menu: what it reads, its configuration, what it issues. -/

import Mathlib.Data.List.Infix
import MuTegra.Dfci.MenuForms
import MuTegra.Dfci.Request
import MuTegra.Dfci.UsbUpdate

/-!
The texts that the driver puts into the forms and into message boxes are left out. A network request
that would be handed a null or freed string is recorded, and what comes of it is left open.
-/

set_option autoImplicit false
set_option relaxedAutoImplicit false

namespace MuTegra.Dfci.Menu

open MuTegra.Foundation.ByteFields MuTegra.Foundation.Ownership
open MuTegra.Uefi.Status MuTegra.Uefi.Strings MuTegra.Uefi.Variables
open MuTegra.Dfci.State MuTegra.Dfci.Update MuTegra.Dfci.Request
open MuTegra.Dfci.UsbName MuTegra.Dfci.UsbFile MuTegra.Dfci.UsbUpdate
open MuTegra.Dfci.MenuForms

/-! ## State -/

/-- The shared input of `mDfciNetworkRequest`; the sizes are those of the buffers. -/
structure RequestInputs where
  zeroTouchThumbprint : Option Buffer := none
  ownerThumbprint : Option Buffer := none
  httpsThumbprint : Option Buffer := none
  httpsCert : Option Buffer := none
  registrationId : Option Buffer := none
  tenantId : Option Buffer := none
  dfciInfo : SystemInformation := {}

structure Driver where
  machine : Machine
  certificates : Certificates
  configuration : DfciMenuConfiguration := {}
  inputs : RequestInputs := {}
  dfciUrl : Option Buffer := none
  /-- `AlreadyRun` of `GetDfciParameters`. -/
  alreadyRun : Bool := false
  files : Ledger
  osIndications : Option Variable

def Driver.loaded (machine : Machine) (certificates : Certificates) (files : Ledger)
    (osIndications : Option Variable) : Driver where
  machine := machine
  certificates := certificates
  files := files
  osIndications := osIndications

def Driver.setPool (pool : Ledger) (driver : Driver) : Driver :=
  { driver with machine := { driver.machine with pool := pool } }

/-! ## Certificates -/

/-- What `GetCertInfo` answers; an error leaves the caller's pointer alone. -/
structure CertInfoCalls where
  status : EfiStatus := efiSuccess
  value : Option (List UInt8) := none

def getCertInfo (calls : CertInfoCalls) (slot : Option Buffer) (pool : Ledger) :
    EfiStatus × Option Buffer × Ledger :=
  if efiError calls.status then (calls.status, slot, pool)
  else
    match calls.value with
    | none => (calls.status, none, pool)
    | some bytes => (calls.status, allocatePool true bytes pool)

structure Thumbprint where
  available : Bool
  slot : Option Buffer
  pool : Ledger

def readThumbprint (enrolled : Bool) (calls : CertInfoCalls) (slot : Option Buffer)
    (pool : Ledger) : Thumbprint :=
  if enrolled then
    let read := getCertInfo calls slot pool
    ⟨!efiError read.1 && read.2.1.isSome, read.2.1, read.2.2⟩
  else ⟨false, slot, pool⟩

structure IdentityMask where
  zeroTouch : Bool
  owner : Bool
  user : Bool

structure EnrolledCalls where
  getEnrolledIdentities : EfiStatus
  mask : IdentityMask
  zeroTouchCertificate : EfiStatus
  zeroTouchThumbprint : CertInfoCalls
  ownerThumbprint : CertInfoCalls
  systemInfo : SystemInfoReads

def clearIdentities (config : DfciMenuConfiguration) : DfciMenuConfiguration :=
  { config with
    dfciZeroTouchOptGrayOut := false
    dfciZeroTouchCertAvailable := false
    dfciZeroTouchEnabled := false
    dfciOwnerEnabled := false
    dfciUserEnabled := false }

def transient (obtained : Bool) (pool : Ledger) : Ledger :=
  if obtained then pool.grant.release (some pool.next) else pool

/-- `CheckIfDfciEnrolled` after the mask of identities. -/
def readIdentities (calls : EnrolledCalls) (driver : Driver) : Bool × Driver :=
  let available := !efiError calls.zeroTouchCertificate
  let zeroTouch := readThumbprint calls.mask.zeroTouch calls.zeroTouchThumbprint
    driver.inputs.zeroTouchThumbprint (transient available driver.machine.pool)
  let owner := readThumbprint calls.mask.owner calls.ownerThumbprint driver.inputs.ownerThumbprint
    zeroTouch.pool
  -- after an error the strings are freed, and the pointers keep their values
  let info := dfciGetSystemInfo calls.systemInfo owner.pool
  (zeroTouch.available || calls.mask.user,
    Driver.setPool info.2.2
      { driver with
        configuration :=
          { driver.configuration with
            dfciZeroTouchCertAvailable := available
            dfciZeroTouchEnabled := zeroTouch.available
            dfciOwnerEnabled := owner.available
            dfciUserEnabled := calls.mask.user }
        inputs :=
          { driver.inputs with
            zeroTouchThumbprint := zeroTouch.slot
            ownerThumbprint := owner.slot
            dfciInfo := info.2.1 } })

def checkIfDfciEnrolled (calls : EnrolledCalls) (driver : Driver) : Bool × Driver :=
  let cleared := { driver with configuration := clearIdentities driver.configuration }
  if efiError calls.getEnrolledIdentities then (false, cleared) else readIdentities calls cleared

/-! ## Parameters -/

inductive CertRequest where
  | subject
  | thumbprint
  deriving DecidableEq

inductive SignerIdentity where
  | zeroTouch
  | owner
  | user
  deriving DecidableEq

def mCertInitTable : List (SignerIdentity × CertRequest) :=
  [(.zeroTouch, .subject), (.zeroTouch, .thumbprint), (.owner, .subject), (.owner, .thumbprint),
    (.user, .subject), (.user, .thumbprint)]

/-- `recoveryMask` is what the second `GetPermission` leaves in `RecoveryMask`. -/
structure ParameterCalls where
  pcdSetupUiReducedFunction : Bool := false
  certInfo : SignerIdentity × CertRequest → CertInfoCalls := fun _ => {}
  recoveryHandle : Bool := false
  recoveryMask : BitVec 32 := 0#32
  url : GetASettingCalls := {}
  httpsCert : GetASettingCalls := {}
  tenantId : GetASettingCalls := {}
  registrationId : GetASettingCalls := {}
  httpsThumbprint : CertInfoCalls := {}
  httpParseUrl : EfiStatus := efiSuccess
  httpUrlGetHostName : EfiStatus := efiSuccess
  friendlyName : GetASettingCalls := {}
  tenantName : GetASettingCalls := {}

/-- `DfciGetASetting` for a certificate, whose last byte need not be null. -/
def dfciGetACertificate (calls : GetASettingCalls) (m : Machine) : Setting :=
  if m.settingAccess = false ∧ efiError calls.locateProtocol = true then
    ⟨calls.locateProtocol, none, 0, m⟩
  else
    let m := { m with settingAccess := true }
    if checkedSize calls = 0 then settingExit none 0 m
    else
      let value := allocatePool calls.allocated calls.data m.pool
      let m := { m with pool := value.2 }
      if value.1.isNone then settingExit none (checkedSize calls) m
      else if efiError calls.get then settingExit value.1 calls.sizeOnError m
      else ⟨calls.get, value.1, calls.data.length, m⟩

def andThen (first : Bool × Driver) (next : Driver → Bool × Driver) : Bool × Driver :=
  if first.1 then next first.2 else first

/-- A setting that has to be longer than its terminator, and the pointer that keeps it. -/
def keepSetting (setting : Setting) (keep : Option Buffer → Driver → Driver) (driver : Driver) :
    Bool × Driver :=
  (!efiError setting.status && decide (1 < setting.valueSize),
    keep setting.value { driver with machine := setting.machine })

def readUrl (calls : GetASettingCalls) (driver : Driver) : Bool × Driver :=
  keepSetting (dfciGetASetting calls driver.machine)
    (fun value driver => { driver with dfciUrl := value }) driver

def readHttpsCert (calls : GetASettingCalls) (driver : Driver) : Bool × Driver :=
  keepSetting (dfciGetACertificate calls driver.machine)
    (fun value driver => { driver with inputs := { driver.inputs with httpsCert := value } }) driver

def readTenantId (calls : GetASettingCalls) (driver : Driver) : Bool × Driver :=
  keepSetting (dfciGetASetting calls driver.machine)
    (fun value driver => { driver with inputs := { driver.inputs with tenantId := value } }) driver

def readRegistrationId (calls : GetASettingCalls) (driver : Driver) : Bool × Driver :=
  keepSetting (dfciGetASetting calls driver.machine)
    (fun value driver => { driver with inputs := { driver.inputs with registrationId := value } })
    driver

def readHttpsThumbprint (calls : CertInfoCalls) (driver : Driver) : Bool × Driver :=
  let read := getCertInfo calls driver.inputs.httpsThumbprint driver.machine.pool
  (!efiError read.1 && read.2.1.isSome,
    Driver.setPool read.2.2
      { driver with inputs := { driver.inputs with httpsThumbprint := read.2.1 } })

def parseHost (httpParseUrl httpUrlGetHostName : EfiStatus) (driver : Driver) : Bool × Driver :=
  if efiError httpParseUrl then (false, driver)
  else
    let pool := driver.machine.pool
    if efiError httpUrlGetHostName then
      (false, driver.setPool (pool.grant.release (some pool.next)))
    else
      (true, driver.setPool
        ((pool.grant.grant.release (some pool.next)).release (some (pool.next + 1))))

/-- All that http recovery needs, up to `NO_HTTP_RECOVERY`. -/
def readHttpRecovery (calls : ParameterCalls) (driver : Driver) : Bool × Driver :=
  andThen (readUrl calls.url driver) fun driver =>
    andThen (readHttpsCert calls.httpsCert driver) fun driver =>
      andThen (readTenantId calls.tenantId driver) fun driver =>
        andThen (readRegistrationId calls.registrationId driver) fun driver =>
          andThen (readHttpsThumbprint calls.httpsThumbprint driver) fun driver =>
            parseHost calls.httpParseUrl calls.httpUrlGetHostName driver

/-- A name that is only shown; its buffer is never freed. -/
def readName (calls : GetASettingCalls) (driver : Driver) : Bool × Driver :=
  let setting := dfciGetASetting calls driver.machine
  (!efiError setting.status && decide (1 ≤ setting.valueSize),
    { driver with machine := setting.machine })

def readCertFields (certInfo : SignerIdentity × CertRequest → CertInfoCalls) (pool : Ledger) :
    Ledger :=
  mCertInitTable.foldl
    (fun pool row =>
      transient (!efiError (certInfo row).status && (certInfo row).value.isSome) pool)
    pool

def startParameters (calls : ParameterCalls) (driver : Driver) : Driver :=
  Driver.setPool
    (transient calls.recoveryHandle (readCertFields calls.certInfo driver.machine.pool))
    { driver with
      alreadyRun := true
      configuration :=
        { driver.configuration with
          dfciZeroTouchOptGrayOut :=
            calls.pcdSetupUiReducedFunction || driver.configuration.dfciZeroTouchOptGrayOut
          dfciHttpRecoveryEnabled := false
          dfciRecoveryEnabled := calls.recoveryHandle || calls.recoveryMask != 0#32 } }

/-- The names at the end of `GetDfciParameters`. -/
def readNames (calls : ParameterCalls) (driver : Driver) : Driver :=
  let friendly := readName calls.friendlyName driver
  let tenant := readName calls.tenantName friendly.2
  { tenant.2 with
    configuration :=
      { tenant.2.configuration with
        dfciFriendlyName := friendly.1 || driver.configuration.dfciFriendlyName
        dfciTenantName := tenant.1 || driver.configuration.dfciTenantName } }

def getDfciParameters (calls : ParameterCalls) (driver : Driver) : Driver :=
  if driver.alreadyRun then driver
  else
    let http := readHttpRecovery calls (startParameters calls driver)
    readNames calls
      { http.2 with
        configuration := { http.2.configuration with dfciHttpRecoveryEnabled := http.1 } }

/-! ## Requests -/

structure Platform where
  fw : Firmware
  certX509Guid : List UInt8
  callerIdGuid : List UInt8
  limit : ApplyVarSize

def textOf (pool : Ledger) (p : Option Buffer) : Option (List UInt8) :=
  p.bind fun b => if b.address ∈ pool.live then some b.bytes else none

/-- What a network request is handed, when no pointer in it is null or freed. -/
def RequestInputs.context (platform : Platform) (pool : Ledger) (inputs : RequestInputs) :
    Option Context := do
  let ownerThumbprint ← textOf pool inputs.ownerThumbprint
  let httpsThumbprint ← textOf pool inputs.httpsThumbprint
  let httpsCert ← textOf pool inputs.httpsCert
  let registrationId ← textOf pool inputs.registrationId
  let tenantId ← textOf pool inputs.tenantId
  let manufacturer ← textOf pool inputs.dfciInfo.manufacturer
  let productName ← textOf pool inputs.dfciInfo.productName
  let serialNumber ← textOf pool inputs.dfciInfo.serialNumber
  some
    { fw := platform.fw
      identity :=
        { ownerThumbprint, httpsThumbprint, registrationId, tenantId, manufacturer, productName
          serialNumber }
      certX509Guid := platform.certX509Guid
      callerIdGuid := platform.callerIdGuid
      httpsCert }

structure MessageBoxCalls where
  title : Bool := true
  caption : Bool := true
  body : Bool := true
  tmp : Bool := true

def printBody (calls : MessageBoxCalls) (body : Option ℕ) (pool : Ledger) : Option ℕ × Ledger :=
  let tmp := pool.acquire calls.tmp
  match body, tmp.1 with
  | some _, some _ => (tmp.1, tmp.2.release body)
  | some _, none => (body, tmp.2)
  | none, _ => (body, pool)

def displayMessageBox (calls : MessageBoxCalls) (status : EfiStatus) (hasText : Bool)
    (pool : Ledger) : Ledger :=
  let title := pool.acquire calls.title
  let caption := title.2.acquire calls.caption
  let body := caption.2.acquire calls.body
  let body := if status ≠ efiNoMedia ∧ hasText then printBody calls body.1 body.2 else body
  ((body.2.releaseIfAny title.1).releaseIfAny caption.1).releaseIfAny body.1

/-- `RebootToFrontPage`, with the status of `SetVariable`, up to the reset. -/
def rebootToFrontPage (set : EfiStatus) (driver : Driver) : Driver :=
  if efiError set then driver
  else
    { driver with
      osIndications :=
        setVariable
          (efiVariableBootserviceAccess ||| efiVariableRuntimeAccess ||| efiVariableNonVolatile)
          (encodeLe 8 1) }

/-- `ZERO_TOUCH_OPT_IN` and `ZERO_TOUCH_OPT_OUT`. -/
inductive ZeroTouchState where
  | optIn
  | optOut
  deriving DecidableEq

/-- What the driver does at the user's request; a context is missing when a pointer is null or
freed. -/
inductive Issued where
  | network (context : Option Context)
  | usb
  | zeroTouch (state : ZeroTouchState)

/-- `resets` tells whether `DfciSettingChangedResetNotification` resets the system at once. -/
structure CallbackCalls where
  network : NetworkRequestCalls := {}
  usb : UsbUpdateCalls
  box : MessageBoxCalls := {}
  setVariable : EfiStatus := efiSuccess
  resets : Bool := false

def processAndTell (network : NetworkRequestCalls) (box : MessageBoxCalls) (ctx : Context)
    (driver : Driver) : Driver :=
  let response := processDfciNetworkRequest ctx network ⟨driver.machine, driver.certificates⟩
  let status := if response.status = efiMediaChanged then efiSuccess else response.status
  let pool := displayMessageBox box status response.message.isSome response.world.machine.pool
  { driver with
    machine := { response.world.machine with pool := pool }
    certificates := response.world.certificates }

def issueDfciNetworkRequest (platform : Platform) (calls : CallbackCalls) (driver : Driver) :
    Issued × Driver :=
  let context := driver.inputs.context platform driver.machine.pool
  (.network context,
    context.elim driver fun ctx =>
      rebootToFrontPage calls.setVariable (processAndTell calls.network calls.box ctx driver))

/-- `IssueDfciUsbRequest`, with its message box and what is stored for the reset. -/
def runUsbRequest (platform : Platform) (calls : CallbackCalls) (driver : Driver) :
    Issued × Driver :=
  let request :=
    issueDfciUsbRequest platform.fw platform.limit calls.usb driver.files driver.machine
  (.usb,
    request.elim driver fun outcome =>
      let pool := displayMessageBox calls.box outcome.status outcome.fileName.isSome
        outcome.machine.pool
      rebootToFrontPage calls.setVariable
        { driver with
          machine := { outcome.machine with pool := pool }
          files := outcome.files })

/-! ## Callbacks -/

/-- `EFI_BROWSER_ACTION`, as far as it is told apart. -/
inductive BrowserAction where
  | formOpen
  | changed
  | other
  deriving DecidableEq

/-- `EFI_BROWSER_ACTION_REQUEST`, as far as it is used. -/
inductive ActionRequest where
  | none
  | formApply
  | formSubmitExit
  | submit
  deriving DecidableEq

/-- What a callback returns, unless the system is reset in it, what it has issued, and the state. -/
structure Callback where
  returned : Option (EfiStatus × ActionRequest)
  issued : List Issued
  driver : Driver

def neverReturns (request : Issued × Driver) : Callback := ⟨none, [request.1], request.2⟩

def optChange (state : ZeroTouchState) (calls : CallbackCalls) (driver : Driver) : Callback where
  returned := if calls.resets then none else some (efiSuccess, .submit)
  issued := [.zeroTouch state]
  driver :=
    Driver.setPool (displayMessageBox calls.box efiSuccess false driver.machine.pool)
      { driver with configuration := { driver.configuration with dfciOptInChanged := true } }

def driverCallback (platform : Platform) (calls : CallbackCalls) (action : BrowserAction)
    (questionId : QuestionId) (driver : Driver) : Callback :=
  match action, questionId with
  | .changed, .httpUpdateNow => neverReturns (issueDfciNetworkRequest platform calls driver)
  | .changed, .usbUpdateNow => neverReturns (runUsbRequest platform calls driver)
  | .changed, .usbInstallNow => neverReturns (runUsbRequest platform calls driver)
  | .changed, .recoveryInfo => ⟨some (efiSuccess, .formApply), [], driver⟩
  | .changed, .recoveryNow => ⟨some (efiSuccess, .formApply), [], driver⟩
  | .changed, .configure => ⟨some (efiSuccess, .formSubmitExit), [], driver⟩
  | .changed, .zumOptIn => optChange .optIn calls driver
  | .changed, .zumOptOut => optChange .optOut calls driver
  | _, _ => ⟨some (efiUnsupported, .none), [], driver⟩

/-- The arguments of `ExtractConfig` and what the calls in it come to. -/
structure ExtractCalls where
  request : Option (List UInt16)
  progress : Bool := true
  results : Bool := true
  parameters : ParameterCalls
  hdrMatch : Bool := true
  blockToConfig : EfiStatus := efiSuccess

def ExtractCalls.Accepted (calls : ExtractCalls) : Prop :=
  calls.progress = true ∧ calls.results = true ∧
    ∃ request ∈ calls.request, wide "OFFSET" <:+: request

instance (calls : ExtractCalls) : Decidable calls.Accepted :=
  inferInstanceAs (Decidable (_ ∧ _ ∧ _))

def extractConfig (calls : ExtractCalls) (driver : Driver) :
    EfiStatus × Option DfciMenuConfiguration × Driver :=
  if calls.progress = false ∨ calls.results = false then (efiInvalidParameter, none, driver)
  else
    match calls.request with
    | none => (efiUnsupported, none, driver)
    | some request =>
        if wide "OFFSET" <:+: request then
          let driver := getDfciParameters calls.parameters driver
          (efiSuccess,
            if calls.hdrMatch && !efiError calls.blockToConfig then some driver.configuration
            else none,
            driver)
        else (efiUnsupported, none, driver)

/-! ## Entry -/

structure EntryCalls where
  pcdSkuEnableDfci : Bool := true
  locateAuthentication : EfiStatus := efiSuccess
  authentication : Bool := true
  locateSettingPermissions : EfiStatus := efiSuccess
  enrolled : EnrolledCalls
  installConfigAccess : EfiStatus := efiSuccess
  hiiAddPackages : Bool := true
  installMenu : EfiStatus := efiSuccess

/-- The forms are published, and stay so: an error on the way takes everything back. -/
def EntryCalls.publishes (calls : EntryCalls) : Bool :=
  !efiError calls.installConfigAccess && calls.hiiAddPackages && !efiError calls.installMenu

def dfciMenuEntry (calls : EntryCalls) (driver : Driver) : EfiStatus × Bool × Driver :=
  if calls.pcdSkuEnableDfci = false then (efiUnsupported, false, driver)
  -- `return FALSE` is a success
  else if efiError calls.locateAuthentication ∨ calls.authentication = false then
    (efiSuccess, false, driver)
  else if efiError calls.locateSettingPermissions then (efiSuccess, false, driver)
  else (efiSuccess, calls.publishes, (checkIfDfciEnrolled calls.enrolled driver).2)

end MuTegra.Dfci.Menu
