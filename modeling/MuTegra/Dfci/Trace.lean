/- Unit: MuTegra/Dfci/Trace
   source: NvidiaPkg/Applications/DfciMenu/DfciRequest.c
   digest: The transfers and exchanges of a run, each with the state in which it starts. -/

import MuTegra.Dfci.Frames
import MuTegra.Dfci.Request

/-!
A transfer is recorded with its arguments and the state before it, so that its result can be
computed again. The lists follow the control flow of the functions they belong to, and the
theorems say that the functions return what the last recorded entry returns.
-/

set_option autoImplicit false
set_option relaxedAutoImplicit false

namespace MuTegra.Dfci.Trace

open MuTegra.Uefi.Status MuTegra.Uefi.Strings
open MuTegra.Dfci.State MuTegra.Dfci.Transport MuTegra.Dfci.Exchange MuTegra.Dfci.Update
open MuTegra.Dfci.MainLogic MuTegra.Dfci.Request MuTegra.Dfci.Frames

structure Transfer where
  method : HttpMethod
  url : Option Buffer
  calls : TransferCalls
  before : Machine

def Transfer.result (t : Transfer) : EfiStatus × Machine :=
  processHttpRequest t.method t.url t.calls t.before

def Transfer.answer (t : Transfer) : HttpStatusCode := t.result.2.httpStatus.httpStatus

/-- The header array that the driver allocates for the first response of the call. -/
def Transfer.received (t : Transfer) : Option HeaderArray :=
  let wide := dfciConvertToChar16 t.url t.calls.convert t.before.pool
  let headers := dfciBuildRequestHeaders t.url (requestLength t.before.httpRequest)
    t.calls.headers wide.2.2
  let issued := dfciIssueRequest t.calls.issue t.before.events
  if efiError wide.1 ∨ efiError headers.1 ∨ efiError issued.1 then none
  else (receiveHeaders t.calls.responseHeaders headers.2.2).1

theorem receivePacket_headers (method : HttpMethod) (calls : TransferCalls) (contentLength : ℕ)
    (m : Machine) :
    (receivePacket method calls contentLength m).2.httpResponse.headers =
      m.httpResponse.headers := by
  rw [receivePacket]
  split
  · rfl
  · obtain ⟨⟨events, hframe⟩, -⟩ := receiveBody_frame contentLength calls.chunks []
      { m with pool := m.pool.grant }
    dsimp only
    rw [hframe]
    split <;> rfl

theorem receiveContent_headers (method : HttpMethod) (calls : TransferCalls)
    (headers : Option HeaderArray) (m : Machine) :
    (receiveContent method calls headers m).2.httpResponse.headers = headers := by
  rw [receiveContent]
  dsimp only
  split
  · rfl
  · exact receivePacket_headers method calls _ _

theorem issueAndReceive_headers {method : HttpMethod} {calls : TransferCalls} {m : Machine}
    (h : efiError (issueAndReceive method calls m).1 = false) :
    ¬ efiError (dfciIssueRequest calls.issue m.events).1 = true ∧
      (issueAndReceive method calls m).2.httpResponse.headers =
        (receiveHeaders calls.responseHeaders m.pool).1 := by
  unfold issueAndReceive at h ⊢
  by_cases hissued : efiError (dfciIssueRequest calls.issue m.events).1 = true
  · rw [if_pos hissued, hissued] at h
    cases h
  · refine ⟨hissued, ?_⟩
    rw [if_neg hissued] at h ⊢
    dsimp only at h ⊢
    obtain ⟨events, status, hframe⟩ := dfciGetResponse_true calls.response
      { m with events := (dfciIssueRequest calls.issue m.events).2 }
    rw [hframe] at h ⊢
    split at h
    · next herror => exact absurd herror (by simp [h])
    · next hok =>
        rw [if_neg hok, receiveContent_headers]

theorem Transfer.headers_of_success {t : Transfer} (h : efiError t.result.1 = false) :
    t.result.2.httpResponse.headers = t.received := by
  obtain ⟨method, url, calls, m⟩ := t
  unfold Transfer.result processHttpRequest at h ⊢
  rw [Transfer.received]
  dsimp only [Machine.observe] at h ⊢
  split at h
  · next herror => exact absurd herror (by simp [h])
  · next hwide =>
      rw [if_neg hwide]
      generalize dfciBuildRequestHeaders url (requestLength m.httpRequest) calls.headers
        (dfciConvertToChar16 url calls.convert m.pool).2.2 = headers at h ⊢
      split at h
      · next herror => exact absurd herror (by simp [h])
      · next hheaders =>
          obtain ⟨hissued, hreceived⟩ := issueAndReceive_headers h
          have hreaches : ¬ (efiError (dfciConvertToChar16 url calls.convert m.pool).1 = true ∨
              efiError headers.1 = true ∨ efiError (dfciIssueRequest calls.issue m.events).1 = true) :=
            fun hearly => hearly.elim hwide fun hlater => hlater.elim hheaders hissued
          rw [if_neg hheaders, if_neg hreaches]
          exact hreceived

variable (method : HttpMethod) (url : Option Buffer) (retryOn202 : Bool)

def attemptTransfers (attempts : ℕ → AttemptCalls) : ℕ → Machine → List Transfer
  | 0, _ => []
  | retryCount + 1, m =>
      let t : Transfer := ⟨method, url, (attempts retryCount).transfer, m⟩
      if efiError t.result.1 then [t]
      else if asksForRetry retryOn202 t.answer && retryCount != 0 then
        t :: attemptTransfers attempts retryCount
          (delayRetry retryCount (attempts retryCount).wait t.result.2)
      else [t]

def internalTransfers (attempts : ℕ → AttemptCalls) (m : Machine) : List Transfer :=
  attemptTransfers method url retryOn202 attempts 6 (cleanupNetworkRequest cleanupStatus m)

def withRetriesTransfers (calls : RetriesCalls) (m : Machine) : List Transfer :=
  let configured :=
    configureHttp calls.configure { m with http := { m.http with httpChildHandle := .image } }
  if efiError configured.1 then []
  else internalTransfers method url retryOn202 calls.attempts configured.2

/-- A run of the retry loop: the passes left before it, the state, its transfers and what it
returns. A transfer is the last, or it is answered with a request to try again, passes are left,
and the run goes on after the delay. -/
inductive Series (method : HttpMethod) (url : Option Buffer) (retryOn202 : Bool)
    (attempts : ℕ → AttemptCalls) :
    ℕ → Machine → List Transfer → EfiStatus × Machine → Prop where
  | last {retryCount : ℕ} {m : Machine} (t : Transfer)
      (call : t = ⟨method, url, (attempts retryCount).transfer, m⟩)
      (stops : efiError t.result.1 = true ∨ asksForRetry retryOn202 t.answer = false ∨
        retryCount = 0) :
      Series method url retryOn202 attempts (retryCount + 1) m [t] t.result
  | again {retryCount : ℕ} {m : Machine} {later : List Transfer} {result : EfiStatus × Machine}
      (t : Transfer) (call : t = ⟨method, url, (attempts retryCount).transfer, m⟩)
      (success : efiError t.result.1 = false) (asks : asksForRetry retryOn202 t.answer = true)
      (rest : Series method url retryOn202 attempts retryCount
        (delayRetry retryCount (attempts retryCount).wait t.result.2) later result) :
      Series method url retryOn202 attempts (retryCount + 1) m (t :: later) result

section Attempts

variable {method : HttpMethod} {url : Option Buffer} {retryOn202 : Bool}
  {attempts : ℕ → AttemptCalls}

/-- The loop makes the transfers of its series, by induction on the passes left. -/
theorem series_attemptRequests (retryCount : ℕ) :
    ∀ m : Machine, Series method url retryOn202 attempts (retryCount + 1) m
      (attemptTransfers method url retryOn202 attempts (retryCount + 1) m)
      (attemptRequests method url retryOn202 attempts (retryCount + 1) m) := by
  induction retryCount with
  | zero =>
      intro m
      rw [attemptTransfers, attemptRequests]
      simp only [bne_self_eq_false, Bool.and_false, Bool.false_eq_true, if_false, ite_self]
      exact .last _ rfl (Or.inr (Or.inr rfl))
  | succ retryCount ih =>
      intro m
      obtain ⟨t, ht⟩ : ∃ t : Transfer, t = ⟨method, url, (attempts (retryCount + 1)).transfer, m⟩ :=
        ⟨_, rfl⟩
      have hresult : processHttpRequest method url (attempts (retryCount + 1)).transfer m =
          t.result := by rw [ht]; rfl
      rw [attemptTransfers, attemptRequests, hresult]
      simp only [← ht]
      by_cases herror : efiError t.result.1 = true
      · rw [if_pos herror, if_pos herror]
        exact .last t ht (Or.inl herror)
      · rw [if_neg herror, if_neg herror]
        cases hasks : asksForRetry retryOn202 t.answer with
        | false =>
            have hstay : asksForRetry retryOn202 t.result.2.httpStatus.httpStatus = false := hasks
            rw [hstay]
            exact .last t ht (Or.inr (Or.inl hasks))
        | true =>
            have hagain : asksForRetry retryOn202 t.result.2.httpStatus.httpStatus = true := hasks
            rw [hagain]
            exact .again t ht (Bool.not_eq_true _ ▸ herror) hasks (ih _)

section Properties

variable {left : ℕ} {m : Machine} {ts : List Transfer} {result : EfiStatus × Machine}

theorem Series.length_le (h : Series method url retryOn202 attempts left m ts result) :
    ts.length ≤ left := by
  induction h with
  | last t call stops => simp
  | again t call success asks rest ih => simpa using ih

theorem Series.head (h : Series method url retryOn202 attempts left m ts result) :
    ∃ t, ts.head? = some t ∧ t.before = m := by
  cases h with
  | last t call stops => exact ⟨t, rfl, by rw [call]⟩
  | again t call success asks rest => exact ⟨t, rfl, by rw [call]⟩

theorem Series.getLast (h : Series method url retryOn202 attempts left m ts result) :
    ∃ t, ts.getLast? = some t ∧ result = t.result := by
  induction h with
  | last t call stops => exact ⟨t, rfl, rfl⟩
  | again t call success asks rest ih =>
      obtain ⟨last, hlast, hresult⟩ := ih
      refine ⟨last, ?_, hresult⟩
      rw [List.getLast?_cons, hlast]
      rfl

theorem Series.call_eq (h : Series method url retryOn202 attempts left m ts result) :
    ∀ t ∈ ts, t.method = method ∧ t.url = url := by
  induction h with
  | last t call stops =>
      intro t' ht'
      rw [List.mem_singleton.mp ht', call]
      exact ⟨rfl, rfl⟩
  | again t call success asks rest ih =>
      intro t' ht'
      rcases List.mem_cons.mp ht' with rfl | ht'
      · rw [call]
        exact ⟨rfl, rfl⟩
      · exact ih t' ht'

end Properties

/-- `ProcessHttpRequestInternal` is a series of at most six transfers. -/
theorem series_processHttpRequestInternal (m : Machine) :
    Series method url retryOn202 attempts 6 (cleanupNetworkRequest cleanupStatus m)
      (internalTransfers method url retryOn202 attempts m)
      (processHttpRequestInternal method url retryOn202 attempts m) :=
  series_attemptRequests 5 _

/-- `ProcessHttpRequestWithRetries` makes no transfer when the configuration fails, and returns
the status of the last one otherwise. -/
theorem withRetries_status (calls : RetriesCalls) (m : Machine) :
    (withRetriesTransfers method url retryOn202 calls m = [] ∧
        efiError (processHttpRequestWithRetries method url retryOn202 calls m).1 = true) ∨
      ∃ t, (withRetriesTransfers method url retryOn202 calls m).getLast? = some t ∧
        (processHttpRequestWithRetries method url retryOn202 calls m).1 = t.result.1 ∧
        (processHttpRequestWithRetries method url retryOn202 calls m).2.httpResponse =
          t.result.2.httpResponse ∧
        (processHttpRequestWithRetries method url retryOn202 calls m).2.httpStatus =
          t.result.2.httpStatus := by
  rw [withRetriesTransfers, processHttpRequestWithRetries]
  dsimp only
  split
  · next herror => exact Or.inl ⟨rfl, herror⟩
  · right
    generalize (configureHttp calls.configure
      { m with http := { m.http with httpChildHandle := .image } }).2 = configured
    have hseries : Series method url retryOn202 calls.attempts 6 _ _ _ :=
      series_processHttpRequestInternal configured
    obtain ⟨t, hlast, hresult⟩ := hseries.getLast
    have hdestroyed := sameZones_destroyHttpChild calls.destroyChild t.result.2
    rw [hresult, cleanupNetworkRequest_http]
    exact ⟨t, hlast, rfl, hdestroyed.httpResponse, hdestroyed.httpStatus⟩

end Attempts

structure AsyncRequest where
  url : Option Buffer
  calls : AsyncCalls
  doneProcessing : Bool
  before : Machine

variable (e : AsyncRequest)

def AsyncRequest.result : Outcome := processAsyncRequest e.url e.calls e.doneProcessing e.before

def AsyncRequest.posted : EfiStatus × Machine :=
  processHttpRequestWithRetries .post e.url false e.calls.post e.before

def AsyncRequest.accepted : Bool :=
  !efiError e.posted.1 && e.posted.2.httpStatus.httpStatus == .accepted

def AsyncRequest.location : Option HttpHeader :=
  if e.accepted then httpFindHeader e.posted.2.httpResponse.headers (ascii "Location") else none

def AsyncRequest.posts : List Transfer :=
  withRetriesTransfers .post e.url false e.calls.post e.before

def AsyncRequest.gets : List Transfer :=
  match e.location with
  | none => []
  | some header => withRetriesTransfers .get header.fieldValue true e.calls.get e.posted.2

/-- Without a location the exchange is given up where the POST left it; with one it ends as the
GET does. -/
theorem AsyncRequest.result_cases :
    (e.location = none ∧ ∃ status done, e.result = giveUp status done e.posted.2) ∨
      ∃ header, e.location = some header ∧ e.result =
        checkPackets (processHttpRequestWithRetries .get header.fieldValue true e.calls.get
          e.posted.2) := by
  have hresult : e.result =
      if efiError e.posted.1 then giveUp e.posted.1 e.doneProcessing e.posted.2
      else if e.posted.2.httpStatus.httpStatus ≠ .accepted then
        giveUp efiProtocolError e.doneProcessing e.posted.2
      else
        match httpFindHeader e.posted.2.httpResponse.headers (ascii "Location") with
        | none => giveUp efiProtocolError true e.posted.2
        | some header =>
            checkPackets (processHttpRequestWithRetries .get header.fieldValue true e.calls.get
              e.posted.2) := rfl
  rw [AsyncRequest.location, AsyncRequest.accepted, hresult]
  by_cases herror : efiError e.posted.1 = true
  · rw [if_pos herror, herror]
    exact Or.inl ⟨rfl, _, _, rfl⟩
  · rw [if_neg herror]
    rw [Bool.not_eq_true] at herror
    by_cases hstatus : e.posted.2.httpStatus.httpStatus = .accepted
    · rw [if_neg (not_not.mpr hstatus), herror, hstatus]
      cases httpFindHeader e.posted.2.httpResponse.headers (ascii "Location") with
      | none => exact Or.inl ⟨rfl, _, _, rfl⟩
      | some header => exact Or.inr ⟨header, rfl, rfl⟩
    · have hother : (e.posted.2.httpStatus.httpStatus == .accepted) = false := by
        simpa using hstatus
      rw [if_pos hstatus, hother, Bool.and_false]
      exact Or.inl ⟨rfl, _, _, rfl⟩

variable (fw : Firmware) (identity : Identity)

/-- The exchange of `recoveryPhase`, if its request can be built. -/
def recoveryExchanges (calls : MainLogicCalls) (doneProcessing : Bool) (m : Machine) :
    List AsyncRequest :=
  let built := buildJsonRecoveryRequest fw identity calls.recoveryEncode m
  if efiError built.1 then []
  else [⟨built.2.httpRequest.url, calls.recovery, doneProcessing, built.2⟩]

def mainLogicExchanges (calls : MainLogicCalls) (m : Machine) : List AsyncRequest :=
  let built := buildJsonBootstrapRequest fw identity calls.bootstrapEncode
    (m.setLogicState .preBootstrap)
  if efiError built.1 then []
  else
    let first : AsyncRequest :=
      ⟨built.2.httpRequest.bootstrapUrl, calls.bootstrap, false, built.2⟩
    let updated := exchangeAndUpdate fw built.2.httpRequest.bootstrapUrl .bootstrap
      mRecoveryBootstrapResponse calls.bootstrap calls.bootstrapParse false built.2
    if updated.status = efiSuccess ∨ updated.status = efiNotFound then
      first :: recoveryExchanges fw identity calls updated.doneProcessing
        (updated.machine.setLogicState .preRecovery)
    else [first]

def nicExchanges (calls : NicCalls) (m : Machine) : List AsyncRequest :=
  let cleaned := cleanupNetworkRequest cleanupNic m
  let m := { cleaned with httpNic := { cleaned.httpNic with nicHandle := some calls.handle } }
  if efiError calls.handleProtocol then []
  else
    let m := { m with httpNic := { m.httpNic with httpSbProtocol := true } }
    if calls.mediaPresent = false then []
    else mainLogicExchanges fw identity calls.mainLogic (m.observe (.mainLogic calls.handle))

def nicsExchanges : List NicCalls → Bool → Machine → List AsyncRequest
  | [], _, _ => []
  | nic :: nics, doneProcessing, m =>
      if doneProcessing then []
      else
        let tried := tryNic .dfciMainLogic fw identity nic m
        nicExchanges fw identity nic m ++
          nicsExchanges nics tried.doneProcessing tried.machine

def tryEachNicExchanges (calls : TryEachNicCalls) (m : Machine) : List AsyncRequest :=
  if efiError calls.locateHandles then []
  else nicsExchanges fw identity calls.nics false { m with pool := (allocatePool true [] m.pool).2 }

def requestExchanges (ctx : Context) (calls : NetworkRequestCalls) (w : World) :
    List AsyncRequest :=
  let initialized := initializeNetworkRequest calls.settings w.machine
  if efiError initialized.1 then []
  else
    let enabled := enableDfciCertificate ctx calls.certificate { w with machine := initialized.2 }
    if efiError enabled.1 then []
    else tryEachNicExchanges ctx.fw ctx.identity calls.nics enabled.2.machine

end MuTegra.Dfci.Trace
