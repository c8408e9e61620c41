/- Unit: MuTegra/Dfci/Request
   source: NvidiaPkg/Applications/DfciMenu/DfciRequest.c, NvidiaPkg/Applications/DfciMenu/DfciUtility.c
   digest: Whole network requests, with the settings they read and the certificate they install. -/

import MuTegra.Dfci.MainLogic

set_option autoImplicit false
set_option relaxedAutoImplicit false

namespace MuTegra.Dfci.Request

open MuTegra.Foundation.Ownership MuTegra.Foundation.ByteFields
open MuTegra.Uefi.Status MuTegra.Uefi.Strings MuTegra.Uefi.Variables
open MuTegra.Dfci.State MuTegra.Dfci.Update MuTegra.Dfci.MainLogic

/-- The calls for one setting: `size` is what the first `Get` asks for, `data` what the second
delivers, and `sizeOnError` the size it leaves when it fails. -/
structure GetASettingCalls where
  locateProtocol : EfiStatus := efiSuccess
  getSize : EfiStatus := efiBufferTooSmall
  size : ℕ := 0
  allocated : Bool := true
  get : EfiStatus := efiSuccess
  sizeOnError : ℕ := 0
  data : List UInt8 := []

/-- The status, the slot and its size, and the state after reading a setting. -/
structure Setting where
  status : EfiStatus
  value : Option Buffer
  valueSize : ℕ
  machine : Machine

/-- The size after the first `Get`. -/
def checkedSize (calls : GetASettingCalls) : ℕ :=
  if efiError calls.getSize ∧ calls.getSize ≠ efiBufferTooSmall then 0 else calls.size

/-- `CLEANUP_SETTING_EXIT`: the buffer is freed, and the slot still points to it. -/
def settingExit (value : Option Buffer) (valueSize : ℕ) (m : Machine) : Setting :=
  ⟨efiNotFound, value, valueSize, { m with pool := freeIfAny value m.pool }⟩

/-- `DfciGetASetting` after the first `Get`, for a string setting. -/
def readSetting (calls : GetASettingCalls) (m : Machine) : Setting :=
  if checkedSize calls = 0 then settingExit none 0 m
  else
    let value := allocatePool calls.allocated calls.data m.pool
    let m := { m with pool := value.2 }
    if value.1.isNone then settingExit none (checkedSize calls) m
    else if efiError calls.get then settingExit value.1 calls.sizeOnError m
    else if calls.data.length = asciiStrnLenS calls.data calls.data.length then
      settingExit value.1 calls.data.length m
    else ⟨calls.get, value.1, calls.data.length, m⟩

def dfciGetASetting (calls : GetASettingCalls) (m : Machine) : Setting :=
  if m.settingAccess = false ∧ efiError calls.locateProtocol = true then
    ⟨calls.locateProtocol, none, 0, m⟩
  else readSetting calls { m with settingAccess := true }

def GetASettingCalls.found (value : String) : GetASettingCalls where
  size := value.length + 1
  data := ascii value ++ [0]

structure InitializeCalls where
  recoveryUrl : GetASettingCalls := {}
  bootstrapUrl : GetASettingCalls := {}

def sampleSettings : InitializeCalls where
  recoveryUrl := .found "https://r"
  bootstrapUrl := .found "https://b"

def readBootstrapUrl (calls : InitializeCalls) (m : Machine) : EfiStatus × Machine :=
  let bootstrap := dfciGetASetting calls.bootstrapUrl m
  (bootstrap.status,
    { bootstrap.machine with
      httpRequest :=
        { bootstrap.machine.httpRequest with
          bootstrapUrl := bootstrap.value, bootstrapUrlSize := bootstrap.valueSize } })

def initializeNetworkRequest (calls : InitializeCalls) (m : Machine) : EfiStatus × Machine :=
  let recovery := dfciGetASetting calls.recoveryUrl (cleanupNetworkRequest clearAll m)
  let m :=
    { recovery.machine with
      httpRequest :=
        { recovery.machine.httpRequest with
          url := recovery.value, urlSize := recovery.valueSize } }
  if efiError recovery.status = true ∨ recovery.valueSize ≤ 1 then (recovery.status, m)
  else readBootstrapUrl calls m

structure Certificates where
  tlsCaCertificate : Option Variable
  oldList : Option Buffer := none
  oldSize : ℕ := 0
  oldAttr : BitVec 32 := 0#32

structure World where
  machine : Machine
  certificates : Certificates

def World.boot (certificate : Option Variable) : World where
  machine := .boot
  certificates := { tlsCaCertificate := certificate }

structure Context where
  fw : Firmware
  identity : Identity
  /-- `gEfiCertX509Guid` and `gEfiCallerIdGuid`. -/
  certX509Guid : List UInt8
  callerIdGuid : List UInt8
  httpsCert : List UInt8

/-- A device with short identity strings and a certificate of one byte. -/
def sampleContext : Context where
  fw := sampleFirmware
  identity :=
    { ownerThumbprint := [1, 0]
      httpsThumbprint := [2, 0]
      registrationId := [3, 0]
      tenantId := [4, 0]
      manufacturer := [5, 0]
      productName := [6, 0]
      serialNumber := [7, 0] }
  certX509Guid := List.replicate 16 0xA5
  callerIdGuid := List.replicate 16 0xC0
  httpsCert := [0x30]

/-- `EFI_SIGNATURE_LIST` and `EFI_SIGNATURE_DATA` of the https certificate. -/
def dfciCertificateList (ctx : Context) : List UInt8 :=
  ctx.certX509Guid ++ encodeLe 4 (28 + 17 - 1 + ctx.httpsCert.length) ++ encodeLe 4 0 ++
    encodeLe 4 (17 - 1 + ctx.httpsCert.length) ++ ctx.callerIdGuid ++ ctx.httpsCert

def dfciCertificate (ctx : Context) : Option Variable :=
  setVariable (efiVariableNonVolatile ||| efiVariableBootserviceAccess) (dfciCertificateList ctx)

structure EnableCertificateCalls where
  readSize : Option ReadFailure := none
  listAllocated : Bool := true
  readList : Option ReadFailure := none
  delete : EfiStatus := efiSuccess
  certAllocated : Bool := true
  set : EfiStatus := efiSuccess
  restore : EfiStatus := efiSuccess

/-- A write of the certificate variable with the status of `SetVariable`. -/
def writeCertificate (status : EfiStatus) (value : Option Variable) (c : Certificates) :
    Certificates :=
  if efiError status then c else { c with tlsCaCertificate := value }

def restoreCertificates (status : EfiStatus) (w : World) : World :=
  match w.certificates.oldList with
  | none => w
  | some list =>
      { machine := { w.machine with pool := freePool (some list) w.machine.pool }
        certificates :=
          { writeCertificate status (setVariable w.certificates.oldAttr list.bytes)
              w.certificates with oldList := none } }

/-- What the first `GetVariable` leaves of size and attributes. -/
def noteOldCertificate (calls : EnableCertificateCalls) (c : Certificates) : Certificates :=
  if getVariable calls.readSize c.tlsCaCertificate c.oldSize false = efiBufferTooSmall then
    match c.tlsCaCertificate with
    | none => c
    | some v => { c with oldSize := v.data.length, oldAttr := v.attributes }
  else c

/-- The second `GetVariable`, into the allocated list. -/
def saveOldCertificate (calls : EnableCertificateCalls) (list : Option Buffer) (w : World) :
    World :=
  if efiError (getVariable calls.readList w.certificates.tlsCaCertificate w.certificates.oldSize true) then
    { w with machine := { w.machine with pool := freePool list w.machine.pool } }
  else { w with certificates := { w.certificates with oldList := list } }

/-- The part of `EnableDfciCertificate` that installs the certificate. -/
def installCertificate (ctx : Context) (calls : EnableCertificateCalls) (w : World) :
    EfiStatus × World :=
  if calls.certAllocated = false then (efiOutOfResources, w)
  else
    let cert := allocatePool true (dfciCertificateList ctx) w.machine.pool
    let w := { w with machine := { w.machine with pool := cert.2 } }
    let w :=
      if efiError calls.set then restoreCertificates calls.restore w
      else { w with certificates := { w.certificates with tlsCaCertificate := dfciCertificate ctx } }
    (calls.set, { w with machine := { w.machine with pool := freePool cert.1 w.machine.pool } })

def enableDfciCertificate (ctx : Context) (calls : EnableCertificateCalls) (w : World) :
    EfiStatus × World :=
  let small := getVariable calls.readSize w.certificates.tlsCaCertificate w.certificates.oldSize false
  if small ≠ efiBufferTooSmall then installCertificate ctx calls w
  else if calls.listAllocated = false then
    (efiOutOfResources, { w with certificates := noteOldCertificate calls w.certificates })
  else
    let list := allocatePool true ((w.certificates.tlsCaCertificate.map Variable.data).getD [])
      w.machine.pool
    let saved := saveOldCertificate calls list.1
      { machine := { w.machine with pool := list.2 }
        certificates := noteOldCertificate calls w.certificates }
    installCertificate ctx calls
      { saved with certificates := writeCertificate calls.delete none saved.certificates }

inductive MessageFormat where
  | errorOccurred
  | noUpdateNeeded
  | moreUpdatesNeeded
  | recoveryComplete
  deriving DecidableEq, Repr

def messageFormat (status : EfiStatus) (state : LogicState) : MessageFormat :=
  if status = efiSuccess ∧ state = .noRecoveryAvailable then .noUpdateNeeded
  else if status = efiMediaChanged ∧ state = .bootstrapComplete then .moreUpdatesNeeded
  else if status = efiMediaChanged ∧ state = .recoveryComplete then .recoveryComplete
  else .errorOccurred

structure MessageCalls where
  msgLen : ℕ := 1
  allocated : Bool := true
  printed : ℕ := 1

structure NetworkRequestCalls where
  settings : InitializeCalls := {}
  certificate : EnableCertificateCalls := {}
  nics : TryEachNicCalls := {}
  message : MessageCalls := {}
  restore : EfiStatus := efiSuccess

abbrev Message := MessageFormat × Buffer

def printMessage (calls : MessageCalls) (format : MessageFormat) (msg : Buffer) (m : Machine) :
    Option Message × Machine :=
  if calls.printed = 0 then (none, { m with pool := freePool (some msg) m.pool })
  else (some (format, msg), m)

def assembleMessage (calls : MessageCalls) (status : EfiStatus) (m : Machine) :
    Option Message × Machine :=
  if calls.msgLen = 0 ∨ calls.allocated = false then (none, m)
  else
    printMessage calls (messageFormat status m.logicState) ⟨m.pool.next, []⟩
      { m with pool := m.pool.grant }

structure Response where
  status : EfiStatus
  message : Option Message
  world : World

def exitNetworkRequest (calls : NetworkRequestCalls) (status : EfiStatus)
    (message : Option Message) (w : World) : Response :=
  let restored := restoreCertificates calls.restore w
  ⟨status, message,
    { restored with machine := cleanupNetworkRequest cleanupAll restored.machine }⟩

/-- `ProcessDfciNetworkRequest` once the certificate is installed. -/
def tryAndReport (ctx : Context) (calls : NetworkRequestCalls) (w : World) : Response :=
  let tried := tryEachNicThenProcessRequest .dfciMainLogic ctx.fw ctx.identity calls.nics w.machine
  let reported := assembleMessage calls.message tried.1 tried.2
  exitNetworkRequest calls tried.1 reported.1 { w with machine := reported.2 }

def processDfciNetworkRequest (ctx : Context) (calls : NetworkRequestCalls) (w : World) :
    Response :=
  let initialized := initializeNetworkRequest calls.settings w.machine
  let w := { w with machine := initialized.2 }
  if efiError initialized.1 then exitNetworkRequest calls initialized.1 none w
  else
    let enabled := enableDfciCertificate ctx calls.certificate w
    if efiError enabled.1 then exitNetworkRequest calls enabled.1 none enabled.2
    else tryAndReport ctx calls enabled.2

def processRequests (ctx : Context) : List NetworkRequestCalls → World → World
  | [], w => w
  | calls :: later, w => processRequests ctx later (processDfciNetworkRequest ctx calls w).world

end MuTegra.Dfci.Request
