/- Unit: MuTegra/Dfci/Transport
   source: NvidiaPkg/Applications/DfciMenu/DfciRequest.c, NvidiaPkg/Applications/DfciMenu/DfciUtility.c
   digest: Waiting, address configuration, request headers, single requests and responses. -/

import MuTegra.Dfci.State

/-!
Each function takes a record with what the calls it makes return; the defaults are those
of a call that succeeds.
-/

set_option autoImplicit false
set_option relaxedAutoImplicit false

namespace MuTegra.Dfci.Transport

open MuTegra.Foundation.Ownership
open MuTegra.Uefi.Status MuTegra.Uefi.Strings
open MuTegra.Dfci.State

/-- Whether the main event is seen before the timeout is `signalled`. -/
structure EventWaitCalls where
  createEvent : EfiStatus := efiSuccess
  setTimer : EfiStatus := efiSuccess
  signalled : Bool := true

/-- `EventWait`; without a network request only the timeout is looked at. -/
def eventWait (hasRequest : Bool) (calls : EventWaitCalls) (events : Ledger) :
    EfiStatus × Ledger :=
  if efiError calls.createEvent then (calls.createEvent, events)
  else
    let timeOutEvent := events.acquire true
    -- a failed `SetTimer` leaves the loop before the event is closed
    if efiError calls.setTimer then (calls.setTimer, timeOutEvent.2)
    else
      (if hasRequest && calls.signalled then efiSuccess else efiTimeout,
        timeOutEvent.2.release timeOutEvent.1)

structure TimerTickCalls where
  handleProtocol : EfiStatus := efiSuccess
  getDataSize : EfiStatus := efiBufferTooSmall
  allocated : Bool := true

def timerTick (calls : TimerTickCalls) (pool : Ledger) : Ledger :=
  if efiError calls.handleProtocol then pool
  else if calls.getDataSize ≠ efiBufferTooSmall then pool
  else
    let info := allocatePool calls.allocated [] pool
    freeIfAny info.1 info.2

structure UnconfigureNicCalls where
  handleProtocol : EfiStatus := efiSuccess
  setPolicy : EfiStatus := efiSuccess
  setAddress : EfiStatus := efiSuccess
  setGateway : EfiStatus := efiSuccess

/-- The status of `UnconfigureNIC`, and the settings for which it calls `SetData`. -/
def unconfigureNic (calls : UnconfigureNicCalls) : EfiStatus × List Ip4Config2Setting :=
  if efiError calls.handleProtocol then (calls.handleProtocol, [])
  else if efiError calls.setPolicy then (calls.setPolicy, [.policyStatic])
  else if efiError calls.setAddress then (calls.setAddress, [.policyStatic, .noManualAddress])
  else (calls.setGateway, [.policyStatic, .noManualAddress, .noGateway])

structure ConfigureDhcpCalls where
  createWaitEvent : EfiStatus := efiSuccess
  unconfigure : UnconfigureNicCalls := {}
  handleProtocol : EfiStatus := efiSuccess
  createTimerEvent : EfiStatus := efiSuccess
  setTimer : EfiStatus := efiSuccess
  wait : EventWaitCalls := {}
  ticks : List TimerTickCalls := []

/-- `CloseEvent (WaitEvent)`, at the end of `ConfigureDHCP`. -/
def closeWaitEvent (m : Machine) : Machine :=
  { m with
    events := m.events.release m.httpNic.waitEvent
    httpNic := { m.httpNic with waitEvent := none } }

/-- `ConfigureDHCP` from the timer event on. -/
def awaitDhcp (calls : ConfigureDhcpCalls) (m : Machine) : EfiStatus × Machine :=
  if efiError calls.createTimerEvent then (calls.createTimerEvent, closeWaitEvent m)
  else
    let timerEvent := m.events.acquire true
    if efiError calls.setTimer then
      (calls.setTimer, closeWaitEvent { m with events := timerEvent.2.release timerEvent.1 })
    else
      let waited := eventWait true calls.wait timerEvent.2
      (waited.1, closeWaitEvent
        { m with
          events := waited.2.release timerEvent.1
          pool := calls.ticks.foldl (fun pool tick => timerTick tick pool) m.pool })

def configureDhcp (calls : ConfigureDhcpCalls) (m : Machine) : EfiStatus × Machine :=
  if efiError calls.createWaitEvent then (calls.createWaitEvent, m)
  else
    let waitEvent := m.events.acquire true
    let m :=
      { m with events := waitEvent.2, httpNic := { m.httpNic with waitEvent := waitEvent.1 } }
    if efiError (unconfigureNic calls.unconfigure).1 then
      ((unconfigureNic calls.unconfigure).1, closeWaitEvent m)
    -- this return leaves the wait event open
    else if efiError calls.handleProtocol then (calls.handleProtocol, m)
    else awaitDhcp calls { m with httpNic := { m.httpNic with dhcpRequested := true } }

structure ConfigureHttpCalls where
  handleProtocol : EfiStatus := efiSuccess
  getData : EfiStatus := efiSuccess
  hasAddress : Bool := true
  dhcp : ConfigureDhcpCalls := {}
  createChild : EfiStatus := efiSuccess
  handleChild : EfiStatus := efiSuccess
  configure : EfiStatus := efiSuccess

/-- `ConfigureHTTP` from `CreateChild` on. -/
def createHttpChild (calls : ConfigureHttpCalls) (m : Machine) : EfiStatus × Machine :=
  if efiError calls.createChild then (calls.createChild, m)
  else
    let child := m.children.acquire true
    let m :=
      { m with
        children := child.2
        http := { httpProtocol := false, httpChildHandle := .child child.1 } }
    if efiError calls.handleChild then (calls.handleChild, m)
    else (calls.configure, { m with http := { m.http with httpProtocol := true } })

def configureHttp (calls : ConfigureHttpCalls) (m : Machine) : EfiStatus × Machine :=
  if efiError calls.handleProtocol then (calls.handleProtocol, m)
  else if efiError calls.getData ∨ calls.hasAddress = false then
    let dhcp := configureDhcp calls.dhcp m
    if efiError dhcp.1 then dhcp else createHttpChild calls dhcp.2
  else createHttpChild calls m

structure ConvertCalls where
  allocated : Bool := true
  convert : EfiStatus := efiSuccess

def dfciConvertToChar16 (text8 : Option Buffer) (calls : ConvertCalls) (pool : Ledger) :
    EfiStatus × Option Buffer × Ledger :=
  let wideString := allocatePool calls.allocated ((text8.map Buffer.bytes).getD []) pool
  if wideString.1.isNone then (efiOutOfResources, none, wideString.2)
  else
    let status := if text8.isNone then efiInvalidParameter else calls.convert
    if efiError status then (status, none, freePool wideString.1 wideString.2)
    else (status, wideString.1, wideString.2)

structure BuildRequestHeadersCalls where
  allocated : Bool := true
  parseUrl : EfiStatus := efiSuccess
  host : Bool := true
  agentName : Bool := true
  agentValue : Bool := true
  acceptName : Bool := true
  acceptValue : Bool := true
  lengthName : Bool := true
  lengthValue : Bool := true
  hostName : EfiStatus := efiSuccess
  typeName : Bool := true
  typeValue : Bool := true

/-- `AllocateCopyPool` of a text with its terminator. -/
def copyText (granted : Bool) (text : String) (pool : Ledger) : Option Buffer × Ledger :=
  allocatePool granted (ascii text ++ [0]) pool

def contentTypeHeader (bodyLength : ℕ) (calls : BuildRequestHeadersCalls) (pool : Ledger) :
    EfiStatus × List HttpHeader × Ledger :=
  if bodyLength = 0 then (efiSuccess, [], pool)
  else
    let name := copyText calls.typeName "Content-Type" pool
    let value := copyText calls.typeValue "application/json" name.2
    (if name.1.isNone ∨ value.1.isNone then efiOutOfResources else efiSuccess,
      [⟨name.1, value.1⟩], value.2)

def emptyHeaders (bodyLength : ℕ) : List HttpHeader :=
  if bodyLength = 0 then [] else [⟨none, none⟩]

/-- The part of `DfciBuildRequestHeaders` that fills the array. -/
def fillRequestHeaders (bodyLength : ℕ) (calls : BuildRequestHeadersCalls) (pool : Ledger) :
    EfiStatus × List HttpHeader × Ledger :=
  let host := copyText calls.host "Host" pool
  let agentName := copyText calls.agentName "User-Agent" host.2
  let agentValue := copyText calls.agentValue "DFCI-Agent" agentName.2
  let acceptName := copyText calls.acceptName "Accept" agentValue.2
  let acceptValue := copyText calls.acceptValue "*/*" acceptName.2
  let lengthName := copyText calls.lengthName "Content-Length" acceptValue.2
  let lengthValue := copyText calls.lengthValue (Nat.repr bodyLength) lengthName.2
  let fixed := [⟨agentName.1, agentValue.1⟩, ⟨acceptName.1, acceptValue.1⟩,
    ⟨lengthName.1, lengthValue.1⟩]
  if (host.1.isNone ∨ agentName.1.isNone ∨ agentValue.1.isNone ∨ acceptName.1.isNone ∨
      acceptValue.1.isNone ∨ lengthName.1.isNone ∨ lengthValue.1.isNone) then
    (efiOutOfResources, ⟨host.1, none⟩ :: fixed ++ emptyHeaders bodyLength, lengthValue.2)
  else if efiError calls.hostName then
    (calls.hostName, ⟨host.1, none⟩ :: fixed ++ emptyHeaders bodyLength, lengthValue.2)
  else
    let hostValue := allocatePool true [] lengthValue.2
    let contentType := contentTypeHeader bodyLength calls hostValue.2
    (contentType.1, ⟨host.1, hostValue.1⟩ :: fixed ++ contentType.2.1, contentType.2.2)

def dfciBuildRequestHeaders (url : Option Buffer) (bodyLength : ℕ)
    (calls : BuildRequestHeadersCalls) (pool : Ledger) :
    EfiStatus × Option HeaderArray × Ledger :=
  if url.isNone then (efiInvalidParameter, none, pool)
  else if calls.allocated = false then (efiOutOfResources, none, pool)
  else if efiError calls.parseUrl then
    (calls.parseUrl,
      some ⟨pool.next, List.replicate 4 ⟨none, none⟩ ++ emptyHeaders bodyLength⟩, pool.grant)
  else
    let urlParser := pool.grant.acquire true
    let filled := fillRequestHeaders bodyLength calls urlParser.2
    (filled.1, some ⟨pool.next, filled.2.1⟩, filled.2.2.release urlParser.1)

structure IssueRequestCalls where
  createEvent : EfiStatus := efiSuccess
  request : EfiStatus := efiSuccess
  wait : EventWaitCalls := {}

def dfciIssueRequest (calls : IssueRequestCalls) (events : Ledger) : EfiStatus × Ledger :=
  if efiError calls.createEvent then (calls.createEvent, events)
  else
    let event := events.acquire true
    if efiError calls.request then (calls.request, event.2.release event.1)
    else
      let waited := eventWait true calls.wait event.2
      (waited.1, waited.2.release event.1)

/-- `statusCode` is what the driver leaves in the response data. -/
structure GetResponseCalls where
  createEvent : EfiStatus := efiSuccess
  response : EfiStatus := efiSuccess
  wait : EventWaitCalls := {}
  statusCode : HttpStatusCode := .unsupportedStatus

/-- `DfciGetResponse`; the event it creates is never closed. -/
def dfciGetResponse (hasResponseData : Bool) (calls : GetResponseCalls) (m : Machine) :
    EfiStatus × Machine :=
  if efiError calls.createEvent then (calls.createEvent, m)
  else
    let event := m.events.acquire true
    if efiError calls.response then (calls.response, { m with events := event.2 })
    else
      let waited := eventWait true calls.wait event.2
      (waited.1,
        { m with
          events := waited.2
          httpStatus :=
            if hasResponseData then { m.httpStatus with httpStatus := calls.statusCode }
            else m.httpStatus })

end MuTegra.Dfci.Transport
