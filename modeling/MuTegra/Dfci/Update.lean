/- Unit: MuTegra/Dfci/Update
   source: NvidiaPkg/Applications/DfciMenu/DfciUpdate.c, NvidiaPkg/Applications/DfciMenu/DfciUpdate.h
   digest: JSON elements applied to mailbox variables and status slots. -/

import MuTegra.Dfci.State
import MuTegra.Foundation.ByteFields
import MuTegra.Foundation.MachineWords

/-!
The mailbox headers, the base64 decoder and the JSON library lie outside the source;
what the code takes from them is a parameter. What a call made during the processing of
an element returned is listed with the element.
-/

set_option autoImplicit false
set_option relaxedAutoImplicit false

namespace MuTegra.Dfci.Update

open MuTegra.Foundation.Ownership MuTegra.Foundation.MachineWords MuTegra.Foundation.ByteFields
open MuTegra.Uefi.Status MuTegra.Uefi.Strings MuTegra.Uefi.Variables
open MuTegra.Dfci.State

structure MailboxHeaders where
  identityApplyVarName : String
  identity2ApplyVarName : String
  identityVarAttributes : BitVec 32
  identityApplyVarSignature : ℕ
  authProvisionVarNamespace : String
  permissionPolicyApplyVarName : String
  permission2PolicyApplyVarName : String
  permissionPolicyApplyVarAttributes : BitVec 32
  permissionPolicyApplyVarSignature : ℕ
  permissionManagerVarNamespace : String
  settingsApplyInputVarName : String
  settings2ApplyInputVarName : String
  securedSettingsVarAttributes : BitVec 32
  securedSettingsApplyVarSignature : ℕ
  settingsManagerVarNamespace : String

structure JsonRequestElement where
  fieldName : Option (List UInt8)
  value : Option (List UInt8)
  deriving DecidableEq

structure Firmware where
  headers : MailboxHeaders
  /-- `Base64Decode` without a destination: the status and the size it asks for. -/
  base64Query : List UInt8 → EfiStatus × ℕ
  /-- `Base64Decode` into a destination of that size. -/
  base64Decode : List UInt8 → EfiStatus × List UInt8
  /-- The string `JsonLibEncode` builds when it succeeds. -/
  jsonLibEncode : List JsonRequestElement → List UInt8

def sampleFirmware : Firmware where
  headers :=
    { identityApplyVarName := "DfciIdentityApply"
      identity2ApplyVarName := "DfciIdentity2Apply"
      identityVarAttributes := 7#32
      identityApplyVarSignature := 0x44495341
      authProvisionVarNamespace := "DfciAuthProvisionVarNamespace"
      permissionPolicyApplyVarName := "DfciPermissionApply"
      permission2PolicyApplyVarName := "DfciPermission2Apply"
      permissionPolicyApplyVarAttributes := 7#32
      permissionPolicyApplyVarSignature := 0x44504341
      permissionManagerVarNamespace := "DfciPermissionManagerVarNamespace"
      settingsApplyInputVarName := "DfciSettingsRequest"
      settings2ApplyInputVarName := "DfciSettings2Request"
      securedSettingsVarAttributes := 7#32
      securedSettingsApplyVarSignature := 0x44435341
      settingsManagerVarNamespace := "DfciSettingsManagerVarNamespace" }
  base64Query := fun value =>
    if value = ascii "QVNDRA==" then (efiBufferTooSmall, 4)
    else if value = ascii "QVM=" then (efiBufferTooSmall, 2)
    else (efiInvalidParameter, 0)
  base64Decode := fun value =>
    if value = ascii "QVNDRA==" then (efiSuccess, ascii "ASCD")
    else if value = ascii "QVM=" then (efiSuccess, ascii "AS")
    else (efiInvalidParameter, [])
  jsonLibEncode := fun _ => [0]

structure JsonSetVariableTableEntry where
  mailboxName : String
  mailboxNamespace : String
  mailboxAttributes : BitVec 32
  signature : ℕ

def JsonSetVariableTableEntry.variableName (e : JsonSetVariableTableEntry) : VariableName :=
  (e.mailboxName, e.mailboxNamespace)

def jsonSetIdentity : Fin 6 := 0
def jsonSetIdentity2 : Fin 6 := 1
def jsonSetPermissions : Fin 6 := 2
def jsonSetPermissions2 : Fin 6 := 3
def jsonSetSettings : Fin 6 := 4
def jsonSetSettings2 : Fin 6 := 5

def mJsonSetVariableEntryMailbox (h : MailboxHeaders) : Fin 6 → JsonSetVariableTableEntry
  | 0 => ⟨h.identityApplyVarName, h.authProvisionVarNamespace, h.identityVarAttributes,
      h.identityApplyVarSignature⟩
  | 1 => ⟨h.identity2ApplyVarName, h.authProvisionVarNamespace, h.identityVarAttributes,
      h.identityApplyVarSignature⟩
  | 2 => ⟨h.permissionPolicyApplyVarName, h.permissionManagerVarNamespace,
      h.permissionPolicyApplyVarAttributes, h.permissionPolicyApplyVarSignature⟩
  | 3 => ⟨h.permission2PolicyApplyVarName, h.permissionManagerVarNamespace,
      h.permissionPolicyApplyVarAttributes, h.permissionPolicyApplyVarSignature⟩
  | 4 => ⟨h.settingsApplyInputVarName, h.settingsManagerVarNamespace,
      h.securedSettingsVarAttributes, h.securedSettingsApplyVarSignature⟩
  | 5 => ⟨h.settings2ApplyInputVarName, h.settingsManagerVarNamespace,
      h.securedSettingsVarAttributes, h.securedSettingsApplyVarSignature⟩

inductive MessageSlot where
  | httpMessage
  | httpReturnCode
  deriving DecidableEq

/-- The action of a row, with the index or the slot that it uses. -/
inductive JsonAction where
  | setVariable (variableIndex : Fin 6)
  | setReturnCode (message : MessageSlot)
  | setHttpMessage (message : MessageSlot)
  | other (action : ℕ)
  deriving DecidableEq

structure JsonResponseToActionEntry where
  fieldName : AsciiString
  action : JsonAction
  decodeBase64 : Bool
  deriving DecidableEq

def keywordProvisioning : AsciiString := ⟨ascii "ProvisioningPacket", by decide⟩
def keywordProvisioning2 : AsciiString := ⟨ascii "ProvisioningPacket2", by decide⟩
def keywordPermissions : AsciiString := ⟨ascii "PermissionsPacket", by decide⟩
def keywordPermissions2 : AsciiString := ⟨ascii "PermissionsPacket2", by decide⟩
def keywordSettings : AsciiString := ⟨ascii "SettingsPacket", by decide⟩
def keywordSettings2 : AsciiString := ⟨ascii "SettingsPacket2", by decide⟩
def keywordTransitioning1 : AsciiString := ⟨ascii "TransitionPacket1", by decide⟩
def keywordTransitioning2 : AsciiString := ⟨ascii "TransitionPacket2", by decide⟩
def keywordResultMessage : AsciiString := ⟨ascii "ResultMessage", by decide⟩
def keywordResultCode : AsciiString := ⟨ascii "ResultCode", by decide⟩

abbrev ResponseTable := List JsonResponseToActionEntry

def mRecoveryBootstrapResponse : ResponseTable :=
  [⟨keywordTransitioning1, .setVariable jsonSetIdentity, true⟩,
    ⟨keywordTransitioning2, .setVariable jsonSetIdentity2, true⟩,
    ⟨keywordSettings, .setVariable jsonSetSettings, true⟩,
    ⟨keywordResultMessage, .setHttpMessage .httpMessage, false⟩,
    ⟨keywordResultCode, .setReturnCode .httpReturnCode, false⟩]

def mRecoveryResponse : ResponseTable :=
  [⟨keywordProvisioning, .setVariable jsonSetIdentity, true⟩,
    ⟨keywordPermissions, .setVariable jsonSetPermissions, true⟩,
    ⟨keywordSettings, .setVariable jsonSetSettings, true⟩,
    ⟨keywordResultMessage, .setHttpMessage .httpMessage, false⟩,
    ⟨keywordResultCode, .setReturnCode .httpReturnCode, false⟩]

def mUsbRecovery : ResponseTable :=
  [⟨keywordProvisioning, .setVariable jsonSetIdentity, true⟩,
    ⟨keywordProvisioning2, .setVariable jsonSetIdentity2, true⟩,
    ⟨keywordPermissions, .setVariable jsonSetPermissions, true⟩,
    ⟨keywordPermissions2, .setVariable jsonSetPermissions2, true⟩,
    ⟨keywordSettings, .setVariable jsonSetSettings, true⟩,
    ⟨keywordSettings2, .setVariable jsonSetSettings2, true⟩]

/-- What the calls made for one element return, and the memory after its buffer. -/
structure ElementCalls where
  allocated : Bool := true
  setVariable : EfiStatus := efiSuccess
  beyond : List UInt8 := []

def rowMatches (fieldName : List UInt8) (row : JsonResponseToActionEntry) : Bool :=
  fieldName.length = row.fieldName.chars.length ∧
    asciiStrnCmp row.fieldName.chars fieldName fieldName.length = 0

/-- A decoded value: the buffer `StringValue` and `ValueSize`. -/
structure StringValue where
  buffer : Buffer
  valueSize : ℕ

def stringValue (status : EfiStatus) (valueSize : ℕ) :
    Option Buffer → Except EfiStatus StringValue
  | none => .error status
  | some buffer => .ok ⟨buffer, valueSize⟩

def decodeBase64Value (fw : Firmware) (value : List UInt8) (calls : ElementCalls)
    (pool : Ledger) : Except EfiStatus StringValue × Ledger :=
  if (fw.base64Query value).1 ≠ efiBufferTooSmall then (.error efiInvalidParameter, pool)
  else
    let decoded := fw.base64Decode value
    let string := allocatePool calls.allocated (decoded.2 ++ [0]) pool
    if string.1.isSome ∧ efiError decoded.1 = true then
      (.error decoded.1, freeIfAny string.1 string.2)
    else (stringValue efiOutOfResources decoded.2.length string.1, string.2)

def copyPlainValue (value : List UInt8) (calls : ElementCalls) (pool : Ledger) :
    Except EfiStatus StringValue × Ledger :=
  let string := allocatePool calls.allocated (value ++ [0]) pool
  (stringValue efiOutOfResources (value.length + 1) string.1, string.2)

def decodeValue (fw : Firmware) (row : JsonResponseToActionEntry) (value : List UInt8)
    (calls : ElementCalls) (pool : Ledger) : Except EfiStatus StringValue × Ledger :=
  if row.decodeBase64 then decodeBase64Value fw value calls pool
  else copyPlainValue value calls pool

/-- `Pkt->Sig.Hdr.Signature`: the four bytes from the start of the buffer on. -/
def packetSignature (string : StringValue) (calls : ElementCalls) : ℕ :=
  field (string.buffer.bytes ++ calls.beyond) 0 4

/-- `FreePool (StringValue)`. -/
def freeString (string : StringValue) (m : Machine) : Machine :=
  { m with pool := freePool (some string.buffer) m.pool }

def writeMailbox (entry : JsonSetVariableTableEntry) (data : List UInt8) (m : Machine) : Machine :=
  { m.observe (.variableSet entry.variableName) with
    mailboxes := Function.update m.mailboxes entry.variableName
      (setVariable entry.mailboxAttributes data) }

def setMailbox (entry : JsonSetVariableTableEntry) (string : StringValue) (calls : ElementCalls)
    (m : Machine) : EfiStatus × Machine :=
  let m := m.observe (.signatureRead string.valueSize)
  if entry.signature ≠ packetSignature string calls then
    (efiInvalidParameter, freeString string m)
  else if efiError calls.setVariable then (calls.setVariable, freeString string m)
  else
    (efiMediaChanged, freeString string
      (writeMailbox entry (string.buffer.bytes.take string.valueSize) m))

def storeMessage (message : MessageSlot) (string : StringValue) (m : Machine) : Machine :=
  { m with
    httpStatus :=
      match message with
      | .httpMessage =>
          { m.httpStatus with
            httpMessage := some string.buffer, httpMessageSize := string.valueSize }
      | .httpReturnCode =>
          { m.httpStatus with
            httpReturnCode := some string.buffer, httpReturnCodeSize := string.valueSize } }

/-- The `switch` over the action of the matching row, to the end of the callback. -/
def applyAction (fw : Firmware) (action : JsonAction) (string : StringValue)
    (calls : ElementCalls) (m : Machine) : EfiStatus × Machine :=
  match action with
  | .setVariable variableIndex =>
      setMailbox (mJsonSetVariableEntryMailbox fw.headers variableIndex) string calls m
  | .setReturnCode message => (efiSuccess, storeMessage message string m)
  | .setHttpMessage message => (efiSuccess, storeMessage message string m)
  | .other _ => (efiInvalidParameter, freeString string m)

def applyRow (fw : Firmware) (row : JsonResponseToActionEntry) (value : List UInt8)
    (calls : ElementCalls) (m : Machine) : EfiStatus × Machine :=
  let decoded := decodeValue fw row value calls m.pool
  match decoded.1 with
  | .error status => (status, { m with pool := decoded.2 })
  | .ok string => applyAction fw row.action string calls { m with pool := decoded.2 }

def processFunction (fw : Firmware) (responseTable : Option ResponseTable)
    (rqst : Option JsonRequestElement) (calls : ElementCalls) (m : Machine) :
    EfiStatus × Machine :=
  match rqst, responseTable with
  | some ⟨some fieldName, some value⟩, some rows =>
      match rows.find? (rowMatches fieldName) with
      | none => (efiInvalidParameter, m)
      | some row => applyRow fw row value calls m
  | _, _ => (efiInvalidParameter, m)

abbrev ElementRun := Option JsonRequestElement × ElementCalls

/-- Elements processed one after the other: their statuses and the state after the last. -/
def processElements (fw : Firmware) (responseTable : Option ResponseTable) :
    List ElementRun → Machine → List EfiStatus × Machine
  | [], m => ([], m)
  | e :: es, m =>
      let r := processFunction fw responseTable e.1 e.2 m
      let later := processElements fw responseTable es r.2
      (r.1 :: later.1, later.2)

/-- What one call of `JsonLibParse` does: the elements it passes on and what it returns. -/
structure ParseCalls where
  elements : List ElementRun := []
  status : EfiStatus := efiSuccess

def dfciUpdateFromJson (fw : Firmware) (jsonString : Option Buffer)
    (responseTable : ResponseTable) (calls : ParseCalls) (m : Machine) : EfiStatus × Machine :=
  let processed := processElements fw (some responseTable) calls.elements
    (m.observe (.handed (jsonString.map Buffer.bytes)))
  (calls.status, processed.2.observe (.parsed calls.status))

/-- The identity strings of the device and of its owner, with their terminators. -/
structure Identity where
  ownerThumbprint : List UInt8
  httpsThumbprint : List UInt8
  registrationId : List UInt8
  tenantId : List UInt8
  manufacturer : List UInt8
  productName : List UInt8
  serialNumber : List UInt8

/-- An element of a request; the length of the value leaves the terminator out. -/
def requestElement (keyword : String) (value : List UInt8) : JsonRequestElement :=
  ⟨some (ascii keyword), some (value.take (subUint32 value.length 1))⟩

def setRequestBody (body : Option Buffer) (bodySize : ℕ) (m : Machine) : Machine :=
  { m with httpRequest := { m.httpRequest with body := body, bodySize := bodySize } }

/-- `BuildJsonBootstrapRequest`, with the status of `JsonLibEncode`. -/
def buildJsonBootstrapRequest (fw : Firmware) (identity : Identity) (encode : EfiStatus)
    (m : Machine) : EfiStatus × Machine :=
  let json := fw.jsonLibEncode
    [requestElement "DdsEncryptionCertificateThumbprint" identity.httpsThumbprint,
      requestElement "DdsWildcardCertificateThumbprint" identity.ownerThumbprint]
  if efiError encode then (encode, m)
  else
    let string := allocatePool true json m.pool
    (encode, setRequestBody string.1 json.length { m with pool := string.2 })

/-- `BuildJsonRecoveryRequest`, with the status of `JsonLibEncode`. -/
def buildJsonRecoveryRequest (fw : Firmware) (identity : Identity) (encode : EfiStatus)
    (m : Machine) : EfiStatus × Machine :=
  let json := fw.jsonLibEncode
    [requestElement "OemManufacturer" identity.manufacturer,
      requestElement "ModelName" identity.productName,
      requestElement "SerialNumber" identity.serialNumber,
      requestElement "DdsWildcardCertificateThumbprint" identity.ownerThumbprint,
      requestElement "TenantId" identity.tenantId,
      requestElement "RegistrationId" identity.registrationId]
  if efiError encode then (encode, m)
  else
    let string := allocatePool true json m.pool
    -- the check frees the old body exactly when there is none
    let pool := if m.httpRequest.body = none then freePool none string.2 else string.2
    (encode, setRequestBody string.1 json.length { m with pool := pool })

end MuTegra.Dfci.Update
