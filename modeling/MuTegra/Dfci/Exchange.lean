/- Unit: MuTegra/Dfci/Exchange
   source: NvidiaPkg/Applications/DfciMenu/DfciRequest.c
   digest: Transfers, their retries, and the exchange of a request for its packets. -/

import MuTegra.Dfci.Transport
import MuTegra.Foundation.MachineWords

set_option autoImplicit false
set_option relaxedAutoImplicit false

namespace MuTegra.Dfci.Exchange

open MuTegra.Foundation.Ownership MuTegra.Foundation.MachineWords
open MuTegra.Uefi.Status MuTegra.Uefi.Strings
open MuTegra.Dfci.State MuTegra.Dfci.Transport

/-- One more call for the body of a response, and the bytes it brings. -/
structure ChunkCalls where
  response : GetResponseCalls := {}
  data : List UInt8

/-- `responseHeaders` are the headers that the driver allocates for the response. -/
structure TransferCalls where
  convert : ConvertCalls := {}
  headers : BuildRequestHeadersCalls := {}
  issue : IssueRequestCalls := {}
  response : GetResponseCalls := {}
  responseHeaders : Option (List (List UInt8 × List UInt8)) := none
  packetAllocated : Bool := true
  chunks : List ChunkCalls := []

def receiveFields : List (List UInt8 × List UInt8) → Ledger → List HttpHeader × Ledger
  | [], pool => ([], pool)
  | text :: texts, pool =>
      let name := allocatePool true (text.1 ++ [0]) pool
      let value := allocatePool true (text.2 ++ [0]) name.2
      let later := receiveFields texts value.2
      (⟨name.1, value.1⟩ :: later.1, later.2)

def receiveHeaders (texts : Option (List (List UInt8 × List UInt8))) (pool : Ledger) :
    Option HeaderArray × Ledger :=
  match texts with
  | none => (none, pool)
  | some texts =>
      let fields := receiveFields texts pool.grant
      (some ⟨pool.next, fields.1⟩, fields.2)

/-- The loop that fills the packet. When no more chunks arrive the wait times out, and a
chunk is never longer than what was asked for. -/
def receiveBody (contentLength : ℕ) :
    List ChunkCalls → List UInt8 → Machine → EfiStatus × List UInt8 × Machine
  | [], received, m =>
      if contentLength ≤ received.length then (efiSuccess, received, m)
      else
        let response := dfciGetResponse false { wait := { signalled := false } } m
        (response.1, received, response.2)
  | chunk :: chunks, received, m =>
      if contentLength ≤ received.length then (efiSuccess, received, m)
      else
        let response := dfciGetResponse false chunk.response m
        if efiError response.1 then (response.1, received, response.2)
        else
          receiveBody contentLength chunks
            (received ++ chunk.data.take (contentLength - received.length)) response.2

def headerText (header : HttpHeader) : List UInt8 := (header.fieldValue.map Buffer.bytes).getD []

/-- The value of the content length header; no header means no content. -/
def contentLengthOf (headers : Option HeaderArray) : ℕ :=
  match httpFindHeader headers (ascii "Content-Length") with
  | none => 0
  | some header => asciiStrDecimalToUintn (headerText header)

/-- What the response zone passes on: a body with a size. -/
def responseText (response : HttpResponse) : Option (List UInt8) :=
  if response.bodySize = 0 then none else response.body.map Buffer.bytes

def answered (method : HttpMethod) (content : Option (List UInt8)) (m : Machine) : Machine :=
  m.observe (.answered method m.httpStatus.httpStatus content (responseText m.httpResponse))

/-- The body goes to the response zone; no body leaves the zone as it is. -/
def storeBody (packet : Buffer) (contentLength : ℕ) (m : Machine) : Machine :=
  { m with
    httpResponse :=
      { m.httpResponse with body := some packet, bodySize := toUint32 (contentLength + 1) } }

/-- The part of `ProcessHttpRequest` that fills and stores the packet. -/
def receivePacket (method : HttpMethod) (calls : TransferCalls) (contentLength : ℕ)
    (m : Machine) : EfiStatus × Machine :=
  if calls.packetAllocated = false then (efiOutOfResources, m)
  else
    let read := receiveBody contentLength calls.chunks [] { m with pool := m.pool.grant }
    let packet : Buffer := ⟨m.pool.next, read.2.1 ++ [0]⟩
    if efiError read.1 then
      (read.1, { read.2.2 with pool := freePool (some packet) read.2.2.pool })
    else
      (efiSuccess, storeBody packet contentLength (answered method (some read.2.1) read.2.2))

/-- The part of `ProcessHttpRequest` after the first response. -/
def receiveContent (method : HttpMethod) (calls : TransferCalls) (headers : Option HeaderArray)
    (m : Machine) : EfiStatus × Machine :=
  let m := { m with httpResponse := { m.httpResponse with headers := headers } }
  if contentLengthOf headers = 0 then (efiSuccess, answered method none m)
  else receivePacket method calls (contentLengthOf headers) m

/-- The part of `ProcessHttpRequest` between the request headers and `S_EXIT1`. -/
def issueAndReceive (method : HttpMethod) (calls : TransferCalls) (m : Machine) :
    EfiStatus × Machine :=
  let issued := dfciIssueRequest calls.issue m.events
  if efiError issued.1 then (issued.1, { m with events := issued.2 })
  else
    let responded := dfciGetResponse true calls.response { m with events := issued.2 }
    let headers := receiveHeaders calls.responseHeaders responded.2.pool
    if efiError responded.1 then (responded.1, { responded.2 with pool := headers.2 })
    else receiveContent method calls headers.1 { responded.2 with pool := headers.2 }

def requestLength (request : HttpRequest) : ℕ :=
  if request.bodySize = 0 then 0 else request.bodySize - 1

def releaseRequest (url16 : Option Buffer) (headers : Option HeaderArray) (m : Machine) :
    Machine :=
  { m with pool := httpFreeHeaderFields headers (freePool url16 m.pool) }

def processHttpRequest (method : HttpMethod) (url : Option Buffer) (calls : TransferCalls)
    (m : Machine) : EfiStatus × Machine :=
  let m := m.observe
    (.requested method url (url.all fun buffer => decide (buffer.address ∈ m.pool.live)))
  let wide := dfciConvertToChar16 url calls.convert m.pool
  if efiError wide.1 then (wide.1, { m with pool := wide.2.2 })
  else
    let headers :=
      dfciBuildRequestHeaders url (requestLength m.httpRequest) calls.headers wide.2.2
    let m := { m with pool := headers.2.2 }
    let result :=
      if efiError headers.1 then (headers.1, m) else issueAndReceive method calls m
    (result.1, releaseRequest wide.2.1 headers.2.1 result.2)

structure AttemptCalls where
  transfer : TransferCalls := {}
  wait : EventWaitCalls := {}

def delayTable : List ℕ := [0, 16, 8, 4, 2, 1]

def maxDelayBeforeRetry : ℕ := 24

def minDelayBeforeRetry : ℕ := 1

/-- The delay after 429: the server's, or the table's, within the limits. -/
def retryAfterDelay (headers : Option HeaderArray) (tableDelay : ℕ) : ℕ :=
  let requested :=
    match httpFindHeader headers (ascii "Retry-After") with
    | none => tableDelay
    | some header => asciiStrDecimalToUintn (headerText header)
  if requested < minDelayBeforeRetry then minDelayBeforeRetry
  else if maxDelayBeforeRetry < requested then maxDelayBeforeRetry
  else requested

def delayInSeconds (retryCount : ℕ) (m : Machine) : ℕ :=
  if m.httpStatus.httpStatus = .tooManyRequests then
    retryAfterDelay m.httpResponse.headers (delayTable.getD retryCount 0)
  else delayTable.getD retryCount 0

def asksForRetry (retryOn202 : Bool) (status : HttpStatusCode) : Bool :=
  (retryOn202 && status == .accepted) || status == .tooManyRequests

def delayRetry (retryCount : ℕ) (calls : EventWaitCalls) (m : Machine) : Machine :=
  cleanupNetworkRequest (cleanupResponse ||| cleanupStatus)
    { m.observe (.retryWait (delayInSeconds retryCount m)) with
      events := (eventWait false calls m.events).2 }

/-- The retry loop: `retryCount + 1` before the pass, `retryCount` in it. -/
def attemptRequests (method : HttpMethod) (url : Option Buffer) (retryOn202 : Bool)
    (attempts : ℕ → AttemptCalls) : ℕ → Machine → EfiStatus × Machine
  | 0, m => (efiSuccess, m)
  | retryCount + 1, m =>
      let sent := processHttpRequest method url (attempts retryCount).transfer m
      if efiError sent.1 then sent
      else if asksForRetry retryOn202 sent.2.httpStatus.httpStatus && retryCount != 0 then
        attemptRequests method url retryOn202 attempts retryCount
          (delayRetry retryCount (attempts retryCount).wait sent.2)
      else sent

def processHttpRequestInternal (method : HttpMethod) (url : Option Buffer) (retryOn202 : Bool)
    (attempts : ℕ → AttemptCalls) (m : Machine) : EfiStatus × Machine :=
  attemptRequests method url retryOn202 attempts 6 (cleanupNetworkRequest cleanupStatus m)

structure RetriesCalls where
  configure : ConfigureHttpCalls := {}
  attempts : ℕ → AttemptCalls := fun _ => {}
  destroyChild : EfiStatus := efiSuccess

def destroyHttpChild (status : EfiStatus) (m : Machine) : Machine :=
  match m.http.httpChildHandle with
  | .child id => if efiError status then m else { m with children := m.children.release id }
  | _ => m

def processHttpRequestWithRetries (method : HttpMethod) (url : Option Buffer)
    (retryOn202 : Bool) (calls : RetriesCalls) (m : Machine) : EfiStatus × Machine :=
  let configured :=
    configureHttp calls.configure { m with http := { m.http with httpChildHandle := .image } }
  if efiError configured.1 then configured
  else
    let sent := processHttpRequestInternal method url retryOn202 calls.attempts configured.2
    (sent.1, cleanupNetworkRequest cleanupHttp (destroyHttpChild calls.destroyChild sent.2))

structure AsyncCalls where
  post : RetriesCalls := {}
  get : RetriesCalls := {}

structure Outcome where
  status : EfiStatus
  doneProcessing : Bool
  machine : Machine

/-- The exit `PROTOCOL_ERROR` with an error. -/
def giveUp (status : EfiStatus) (doneProcessing : Bool) (m : Machine) : Outcome :=
  ⟨status, doneProcessing, m.observe (.failed status)⟩

/-- The part of `ProcessAsyncRequest` after the GET. -/
def checkPackets (got : EfiStatus × Machine) : Outcome :=
  if efiError got.1 then giveUp got.1 true got.2
  else if got.2.httpStatus.httpStatus ≠ .ok then giveUp efiProtocolError true got.2
  else if got.2.httpResponse.body = none ∨ got.2.httpResponse.bodySize = 0 then
    giveUp efiProtocolError true got.2
  else ⟨got.1, true, got.2⟩

def processAsyncRequest (url : Option Buffer) (calls : AsyncCalls) (doneProcessing : Bool)
    (m : Machine) : Outcome :=
  let posted := processHttpRequestWithRetries .post url false calls.post m
  if efiError posted.1 then giveUp posted.1 doneProcessing posted.2
  else if posted.2.httpStatus.httpStatus ≠ .accepted then
    giveUp efiProtocolError doneProcessing posted.2
  else
    match httpFindHeader posted.2.httpResponse.headers (ascii "Location") with
    | none => giveUp efiProtocolError true posted.2
    | some header =>
        checkPackets (processHttpRequestWithRetries .get header.fieldValue true calls.get posted.2)

/-- The calls of transfers that are all answered alike, with these headers and this text. -/
def sampleAnswer (statusCode : HttpStatusCode) (headers : List (String × String))
    (text : String) : RetriesCalls where
  attempts := fun _ =>
    { transfer :=
        { response := { statusCode := statusCode }
          responseHeaders := some (headers.map fun h => (ascii h.1, ascii h.2))
          chunks := [{ data := ascii text }] } }

def sampleExchange : AsyncCalls where
  post := sampleAnswer .accepted [("Location", "https://p")] ""
  get := sampleAnswer .ok [("Content-Length", "2")] "\x7b\x7d"

end MuTegra.Dfci.Exchange
