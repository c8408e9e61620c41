/- Unit: MuTegra/Dfci/State
   source: NvidiaPkg/Applications/DfciMenu/DfciPrivate.h, NvidiaPkg/Applications/DfciMenu/DfciRequest.c
   digest: Pool buffers, the zones of a network request and their cleanup. -/

import MuTegra.Foundation.Ownership
import MuTegra.Uefi.Strings
import MuTegra.Uefi.Variables

set_option autoImplicit false
set_option relaxedAutoImplicit false

namespace MuTegra.Dfci.State

open MuTegra.Foundation.Ownership
open MuTegra.Uefi.Status MuTegra.Uefi.Strings MuTegra.Uefi.Variables

structure Buffer where
  address : ℕ
  bytes : List UInt8
  deriving DecidableEq

def addressOf (p : Option Buffer) : Option ℕ := p.map Buffer.address

def owned (p : Option Buffer) : Multiset ℕ := held (addressOf p)

def allocatePool (granted : Bool) (bytes : List UInt8) (pool : Ledger) : Option Buffer × Ledger :=
  ((pool.acquire granted).1.map fun address => ⟨address, bytes⟩, (pool.acquire granted).2)

def freePool (p : Option Buffer) (pool : Ledger) : Ledger := pool.release (addressOf p)

def freeIfAny (p : Option Buffer) (pool : Ledger) : Ledger := pool.releaseIfAny (addressOf p)

@[simp] theorem owned_none : owned none = 0 := rfl

@[simp] theorem owned_some (b : Buffer) : owned (some b) = {b.address} := rfl

variable {n : ℕ} {rest : Multiset ℕ} {pool : Ledger}

theorem keeps_allocatePool (h : Keeps n rest pool) (granted : Bool) (bytes : List UInt8) :
    Keeps n (owned (allocatePool granted bytes pool).1 + rest)
      (allocatePool granted bytes pool).2 := by
  have := h.acquire granted
  cases granted <;> simpa [allocatePool, owned, addressOf] using this

theorem keeps_freePool {b : Buffer} (h : Keeps n (owned (some b) + rest) pool) :
    Keeps n rest (freePool (some b) pool) := Keeps.release h

theorem keeps_freeIfAny {p : Option Buffer} (h : Keeps n (owned p + rest) pool) :
    Keeps n rest (freeIfAny p pool) := Keeps.releaseIfAny h

structure HttpHeader where
  fieldName : Option Buffer
  fieldValue : Option Buffer
  deriving DecidableEq

/-- An array of headers in the pool; its length is the header count. -/
structure HeaderArray where
  address : ℕ
  fields : List HttpHeader
  deriving DecidableEq

def HeaderArray.handles (a : HeaderArray) : List (Option ℕ) :=
  a.fields.flatMap (fun h => [addressOf h.fieldName, addressOf h.fieldValue]) ++ [some a.address]

def headerHandles : Option HeaderArray → List (Option ℕ)
  | none => []
  | some a => a.handles

def ownedHeaders (headers : Option HeaderArray) : Multiset ℕ := heldAll (headerHandles headers)

def httpFreeHeaderFields (headers : Option HeaderArray) (pool : Ledger) : Ledger :=
  pool.releaseAll (headerHandles headers)

def httpFindHeader (headers : Option HeaderArray) (fieldName : List UInt8) : Option HttpHeader :=
  headers.bind fun a => a.fields.find? fun h =>
    h.fieldName.any fun name => asciiStriEq name.bytes fieldName

@[simp] theorem ownedHeaders_none : ownedHeaders none = 0 := rfl

inductive LogicState where
  | preBootstrap
  | bootstrap
  | bootstrapComplete
  | preRecovery
  | recovery
  | recoveryComplete
  | noRecoveryAvailable
  | check429
  | check429Complete
  deriving DecidableEq, Repr

/-- `EFI_HTTP_METHOD`, as far as it is used. -/
inductive HttpMethod where
  | get
  | post
  deriving DecidableEq, Repr

/-- `EFI_HTTP_STATUS_CODE`; the codes that the logic does not tell apart are `other`. -/
inductive HttpStatusCode where
  | unsupportedStatus
  | ok
  | accepted
  | tooManyRequests
  | other (code : ℕ)
  deriving DecidableEq, Repr

structure HttpRequest where
  url : Option Buffer := none
  urlSize : ℕ := 0
  bootstrapUrl : Option Buffer := none
  bootstrapUrlSize : ℕ := 0
  body : Option Buffer := none
  bodySize : ℕ := 0

structure HttpResponse where
  body : Option Buffer := none
  bodySize : ℕ := 0
  headers : Option HeaderArray := none

structure HttpStatus where
  httpReturnCode : Option Buffer := none
  httpReturnCodeSize : ℕ := 0
  httpMessage : Option Buffer := none
  httpMessageSize : ℕ := 0
  httpStatus : HttpStatusCode := .unsupportedStatus

inductive ChildHandle where
  | null
  | image
  | child (id : Option ℕ)

structure Http where
  httpProtocol : Bool := false
  httpChildHandle : ChildHandle := .null

structure HttpNic where
  nicHandle : Option ℕ := none
  dhcpRequested : Bool := false
  httpSbProtocol : Bool := false
  waitEvent : Option ℕ := none
  deriving DecidableEq

structure Main where
  registrationEvent : Option ℕ := none

abbrev VariableName := String × String

/-- What `UnconfigureNIC` asks an interface to take: the static policy, no address, no gateway. -/
inductive Ip4Config2Setting where
  | policyStatic
  | noManualAddress
  | noGateway
  deriving DecidableEq

/-- What a run does that its caller or a peer can see. -/
inductive Observation where
  /-- The signature word of a decoded payload of this size was read. -/
  | signatureRead (valueSize : ℕ)
  /-- A mailbox variable was written. -/
  | variableSet (name : VariableName)
  /-- A transfer was started with this url, whose buffer was live or not. -/
  | requested (method : HttpMethod) (url : Option Buffer) (live : Bool)
  /-- A transfer was answered; `stale` is what the response zone held before. -/
  | answered (method : HttpMethod) (status : HttpStatusCode) (content stale : Option (List UInt8))
  /-- A retry was delayed by this many seconds. -/
  | retryWait (seconds : ℕ)
  /-- An exchange with the server was given up with this status. -/
  | failed (status : EfiStatus)
  /-- No request could be built, with this status. -/
  | buildFailed (status : EfiStatus)
  /-- This text was handed to the parser. -/
  | handed (text : Option (List UInt8))
  /-- The parser returned this status. -/
  | parsed (status : EfiStatus)
  | logicState (state : LogicState)
  | mainLogic (nicHandle : ℕ)
  | unconfigured (nicHandle : ℕ) (status : EfiStatus) (settings : List Ip4Config2Setting)
  deriving DecidableEq

structure Machine where
  pool : Ledger
  events : Ledger
  children : Ledger
  httpRequest : HttpRequest := {}
  httpResponse : HttpResponse := {}
  httpStatus : HttpStatus := {}
  http : Http := {}
  httpNic : HttpNic := {}
  main : Main := {}
  logicState : LogicState := .preBootstrap
  settingAccess : Bool := false
  mailboxes : VariableName → Option Variable
  log : List Observation := []

def Machine.boot : Machine where
  pool := .empty
  events := .empty
  children := .empty
  mailboxes := fun _ => none

def Machine.observe (m : Machine) (o : Observation) : Machine := { m with log := m.log ++ [o] }

def Machine.setLogicState (m : Machine) (state : LogicState) : Machine :=
  { m.observe (.logicState state) with logicState := state }

def cleanupRequest : BitVec 8 := 0x01#8
def cleanupResponse : BitVec 8 := 0x02#8
def cleanupStatus : BitVec 8 := 0x04#8
def cleanupHttp : BitVec 8 := 0x08#8
def cleanupNic : BitVec 8 := 0x10#8
def cleanupMain : BitVec 8 := 0x20#8
def clearAll : BitVec 8 := 0x80#8

def cleanupAll : BitVec 8 :=
  cleanupRequest ||| cleanupResponse ||| cleanupStatus ||| cleanupHttp ||| cleanupNic ||| cleanupMain

def names (mask zones : BitVec 8) : Bool := mask &&& zones != 0#8

def cleanupRequestZone (mask : BitVec 8) (m : Machine) : Machine :=
  { m with
    pool :=
      if names mask cleanupRequest then
        freeIfAny m.httpRequest.bootstrapUrl (freeIfAny m.httpRequest.url m.pool)
      else m.pool
    httpRequest := if names mask (cleanupRequest ||| clearAll) then {} else m.httpRequest }

def cleanupResponseZone (mask : BitVec 8) (m : Machine) : Machine :=
  { m with
    pool :=
      if names mask cleanupResponse then
        httpFreeHeaderFields m.httpResponse.headers (freeIfAny m.httpResponse.body m.pool)
      else m.pool
    httpResponse := if names mask (cleanupResponse ||| clearAll) then {} else m.httpResponse }

def cleanupStatusZone (mask : BitVec 8) (m : Machine) : Machine :=
  { m with
    pool :=
      if names mask cleanupStatus then
        freeIfAny m.httpStatus.httpReturnCode (freeIfAny m.httpStatus.httpMessage m.pool)
      else m.pool
    httpStatus := if names mask (cleanupStatus ||| clearAll) then {} else m.httpStatus }

/-- The http, nic and main zones of `CleanupNetworkRequest`. -/
def cleanupServiceZones (mask : BitVec 8) (m : Machine) : Machine :=
  { m with
    http := if names mask (cleanupHttp ||| clearAll) then {} else m.http
    httpNic := if names mask (cleanupNic ||| clearAll) then {} else m.httpNic
    events :=
      if names mask cleanupMain then m.events.releaseIfAny m.main.registrationEvent else m.events
    main := if names mask (cleanupMain ||| clearAll) then {} else m.main }

def cleanupNetworkRequest (mask : BitVec 8) (m : Machine) : Machine :=
  cleanupServiceZones mask (cleanupStatusZone mask (cleanupResponseZone mask
    (cleanupRequestZone mask m)))

@[simp] theorem cleanupNetworkRequest_http (m : Machine) :
    cleanupNetworkRequest cleanupHttp m = { m with http := {} } := rfl

@[simp] theorem cleanupNetworkRequest_nic (m : Machine) :
    cleanupNetworkRequest cleanupNic m = { m with httpNic := {} } := rfl

@[simp] theorem cleanupNetworkRequest_status (m : Machine) :
    cleanupNetworkRequest cleanupStatus m =
      { m with
        pool := freeIfAny m.httpStatus.httpReturnCode (freeIfAny m.httpStatus.httpMessage m.pool)
        httpStatus := {} } := rfl

@[simp] theorem cleanupNetworkRequest_clearAll (m : Machine) :
    cleanupNetworkRequest clearAll m =
      { m with
        httpRequest := {}
        httpResponse := {}
        httpStatus := {}
        http := {}
        httpNic := {}
        main := {} } := rfl

theorem cleanupNetworkRequest_retry (m : Machine) :
    cleanupNetworkRequest (cleanupResponse ||| cleanupStatus) m =
      cleanupNetworkRequest cleanupStatus
        { m with
          pool := httpFreeHeaderFields m.httpResponse.headers (freeIfAny m.httpResponse.body m.pool)
          httpResponse := {} } := rfl

@[simp] theorem cleanupNetworkRequest_log (mask : BitVec 8) (m : Machine) :
    (cleanupNetworkRequest mask m).log = m.log := rfl

end MuTegra.Dfci.State
