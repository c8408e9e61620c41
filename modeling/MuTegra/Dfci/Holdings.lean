/- Unit: MuTegra/Dfci/Holdings
   source: NvidiaPkg/Applications/DfciMenu/DfciRequest.c, NvidiaPkg/Applications/DfciMenu/DfciUtility.c
   digest: Which pool buffers a network request still has to free, through transfers and retries. -/

import MuTegra.Dfci.Frames
import Mathlib.Tactic.Abel

set_option autoImplicit false
set_option relaxedAutoImplicit false

namespace MuTegra.Dfci.Holdings

open MuTegra.Foundation.Ownership
open MuTegra.Uefi.Status
open MuTegra.Dfci.State MuTegra.Dfci.Transport MuTegra.Dfci.Exchange MuTegra.Dfci.Frames

/-! ## The zones -/

/-- What cleaning the request zone frees; the request body is not among it. -/
def ownedRequest (request : HttpRequest) : Multiset ℕ :=
  owned request.url + owned request.bootstrapUrl

def ownedResponse (response : HttpResponse) : Multiset ℕ :=
  owned response.body + ownedHeaders response.headers

def ownedStatus (status : HttpStatus) : Multiset ℕ :=
  owned status.httpMessage + owned status.httpReturnCode

/-- The request zone is as given, everything the zones have to free is live besides `rest`, and
the number of wrong releases is as given. -/
structure Custody (faults : ℕ) (request : HttpRequest) (rest : Multiset ℕ) (m : Machine) :
    Prop where
  zone : m.httpRequest = request
  pool : Keeps faults (ownedRequest request + (ownedResponse m.httpResponse +
    (ownedStatus m.httpStatus + rest))) m.pool

variable {n : ℕ} {request : HttpRequest} {rest : Multiset ℕ} {m : Machine}

theorem Custody.of_sameZones {after : Machine} (h : Custody n request rest m)
    (same : SameZones m after) : Custody n request rest after := by
  refine ⟨same.httpRequest.trans h.zone, ?_⟩
  rw [same.httpResponse, same.httpStatus]
  exact same.pool h.pool

theorem Custody.of_le {held : Multiset ℕ} (hzone : m.httpRequest = request)
    (h : Keeps n held m.pool) (dropped : Multiset ℕ)
    (heq : held = ownedRequest request + (ownedResponse m.httpResponse +
      (ownedStatus m.httpStatus + rest)) + dropped) : Custody n request rest m :=
  ⟨hzone, h.mono (Multiset.le_iff_exists_add.mpr ⟨dropped, heq⟩)⟩

theorem Custody.setAside {aside : Multiset ℕ} {pool : Ledger} (h : Custody n request rest m)
    (hpool : Keeps n (aside + (ownedRequest request + (ownedResponse m.httpResponse +
      (ownedStatus m.httpStatus + rest)))) pool) :
    Custody n request (aside + rest) { m with pool := pool } := by
  refine Custody.of_le h.zone hpool 0 ?_
  abel

theorem Custody.takeBack {aside : Multiset ℕ} (h : Custody n request (aside + rest) m) :
    Keeps n (aside + (ownedRequest request + (ownedResponse m.httpResponse +
      (ownedStatus m.httpStatus + rest)))) m.pool := by
  refine h.pool.mono (le_of_eq ?_)
  abel

theorem Custody.drop {aside : Multiset ℕ} (h : Custody n request (aside + rest) m) :
    Custody n request rest m := by
  refine Custody.of_le h.zone h.pool aside ?_
  abel

/-! ## Cleanup -/

theorem keeps_cleanupStatus {status : HttpStatus} {pool : Ledger}
    (h : Keeps n (ownedStatus status + rest) pool) :
    Keeps n rest (freeIfAny status.httpReturnCode (freeIfAny status.httpMessage pool)) := by
  apply keeps_freeIfAny
  apply keeps_freeIfAny
  simpa [ownedStatus, add_assoc] using h

theorem keeps_cleanupResponse {response : HttpResponse} {pool : Ledger}
    (h : Keeps n (ownedResponse response + rest) pool) :
    Keeps n rest (httpFreeHeaderFields response.headers (freeIfAny response.body pool)) := by
  apply Keeps.releaseAll
  apply keeps_freeIfAny
  simpa [ownedResponse, ownedHeaders, add_assoc] using h

theorem keeps_cleanupRequest {pool : Ledger} (h : Keeps n (ownedRequest request + rest) pool) :
    Keeps n rest (freeIfAny request.bootstrapUrl (freeIfAny request.url pool)) := by
  apply keeps_freeIfAny
  apply keeps_freeIfAny
  simpa [ownedRequest, add_assoc] using h

theorem Custody.cleanupStatus (h : Custody n request rest m) :
    Custody n request rest (cleanupNetworkRequest cleanupStatus m) := by
  rw [cleanupNetworkRequest_status]
  refine ⟨h.zone, ?_⟩
  apply keeps_cleanupStatus
  refine h.pool.mono (le_of_eq ?_)
  simp only [ownedStatus, owned_none]
  abel

theorem Custody.cleanupRetry (h : Custody n request rest m) :
    Custody n request rest (cleanupNetworkRequest (cleanupResponse ||| State.cleanupStatus) m) := by
  rw [cleanupNetworkRequest_retry]
  apply Custody.cleanupStatus
  refine ⟨h.zone, ?_⟩
  apply keeps_cleanupResponse
  refine h.pool.mono (le_of_eq ?_)
  simp only [ownedResponse, owned_none, ownedHeaders_none]
  abel

theorem Custody.cleanupAll (h : Custody n request rest m) :
    Keeps n rest (cleanupNetworkRequest State.cleanupAll m).pool := by
  change Keeps n rest (freeIfAny m.httpStatus.httpReturnCode (freeIfAny m.httpStatus.httpMessage
    (httpFreeHeaderFields m.httpResponse.headers (freeIfAny m.httpResponse.body
      (freeIfAny m.httpRequest.bootstrapUrl (freeIfAny m.httpRequest.url m.pool))))))
  apply keeps_cleanupStatus
  apply keeps_cleanupResponse
  apply keeps_cleanupRequest
  rw [h.zone]
  exact h.pool

/-! ## Strings and headers -/

variable {pool : Ledger}

theorem keeps_dfciConvertToChar16 (h : Keeps n rest pool) (text8 : Option Buffer)
    (calls : ConvertCalls) :
    Keeps n (owned (dfciConvertToChar16 text8 calls pool).2.1 + rest)
      (dfciConvertToChar16 text8 calls pool).2.2 := by
  have hwide := keeps_allocatePool h calls.allocated ((text8.map Buffer.bytes).getD [])
  rw [dfciConvertToChar16]
  dsimp only
  generalize (if text8.isNone then efiInvalidParameter else calls.convert) = status
  cases hbuffer : (allocatePool calls.allocated ((text8.map Buffer.bytes).getD []) pool).1 with
  | none =>
      rw [hbuffer] at hwide
      exact hwide
  | some b =>
      rw [hbuffer] at hwide
      rw [if_neg (by simp)]
      split
      · simpa using keeps_freePool hwide
      · exact hwide

theorem dfciConvertToChar16_isSome {text8 : Option Buffer} {calls : ConvertCalls}
    (h : ¬ efiError (dfciConvertToChar16 text8 calls pool).1 = true) :
    ∃ b, (dfciConvertToChar16 text8 calls pool).2.1 = some b := by
  unfold dfciConvertToChar16 at h ⊢
  dsimp only at h ⊢
  generalize (if text8.isNone then efiInvalidParameter else calls.convert) = status at h ⊢
  cases hbuffer : (allocatePool calls.allocated ((text8.map Buffer.bytes).getD []) pool).1 with
  | none =>
      rw [hbuffer] at h
      exact absurd (efiError_encodeError _) h
  | some b =>
      rw [hbuffer, if_neg (by simp)] at h
      rw [if_neg (by simp)]
      split at h
      · next herr => exact absurd herr h
      · next herr =>
          rw [if_neg herr]
          exact ⟨b, rfl⟩

theorem keeps_copyText (h : Keeps n rest pool) (granted : Bool) (text : String) :
    Keeps n (owned (copyText granted text pool).1 + rest) (copyText granted text pool).2 :=
  keeps_allocatePool h granted _

def ownedFields (fields : List HttpHeader) : Multiset ℕ :=
  heldAll (fields.flatMap fun h => [addressOf h.fieldName, addressOf h.fieldValue])

@[simp] theorem ownedFields_nil : ownedFields [] = 0 := rfl

@[simp] theorem ownedFields_cons (header : HttpHeader) (fields : List HttpHeader) :
    ownedFields (header :: fields) =
      owned header.fieldName + (owned header.fieldValue + ownedFields fields) := by
  simp [ownedFields, owned]

theorem ownedFields_append (a b : List HttpHeader) :
    ownedFields (a ++ b) = ownedFields a + ownedFields b := by
  simp [ownedFields, heldAll]

theorem ownedHeaders_some (address : ℕ) (fields : List HttpHeader) :
    ownedHeaders (some ⟨address, fields⟩) = ownedFields fields + {address} := by
  simp [ownedHeaders, headerHandles, HeaderArray.handles, ownedFields, heldAll]

@[simp] theorem ownedFields_replicate (count : ℕ) :
    ownedFields (List.replicate count ⟨none, none⟩) = 0 := by
  induction count with
  | zero => rfl
  | succ count ih => simpa [List.replicate_succ] using ih

@[simp] theorem ownedFields_emptyHeaders (bodyLength : ℕ) :
    ownedFields (emptyHeaders bodyLength) = 0 := by
  rw [emptyHeaders]
  split <;> rfl

theorem keeps_contentTypeHeader (h : Keeps n rest pool) (bodyLength : ℕ)
    (calls : BuildRequestHeadersCalls) :
    Keeps n (ownedFields (contentTypeHeader bodyLength calls pool).2.1 + rest)
      (contentTypeHeader bodyLength calls pool).2.2 := by
  rw [contentTypeHeader]
  split
  · simpa using h
  · have hname := keeps_copyText h calls.typeName "Content-Type"
    have hvalue := keeps_copyText hname calls.typeValue "application/json"
    refine hvalue.mono (le_of_eq ?_)
    simp only [ownedFields_cons, ownedFields_nil]
    abel

theorem keeps_fillRequestHeaders (h : Keeps n rest pool) (bodyLength : ℕ)
    (calls : BuildRequestHeadersCalls) :
    Keeps n (ownedFields (fillRequestHeaders bodyLength calls pool).2.1 + rest)
      (fillRequestHeaders bodyLength calls pool).2.2 := by
  have hhost := keeps_copyText h calls.host "Host"
  have hagentName := keeps_copyText hhost calls.agentName "User-Agent"
  have hagentValue := keeps_copyText hagentName calls.agentValue "DFCI-Agent"
  have hacceptName := keeps_copyText hagentValue calls.acceptName "Accept"
  have hacceptValue := keeps_copyText hacceptName calls.acceptValue "*/*"
  have hlengthName := keeps_copyText hacceptValue calls.lengthName "Content-Length"
  have hlengthValue := keeps_copyText hlengthName calls.lengthValue (Nat.repr bodyLength)
  rw [fillRequestHeaders]
  dsimp only
  split
  · refine hlengthValue.mono (le_of_eq ?_)
    simp only [ownedFields_cons, ownedFields_append, ownedFields_nil, ownedFields_emptyHeaders,
      owned_none]
    abel
  · split
    · refine hlengthValue.mono (le_of_eq ?_)
      simp only [ownedFields_cons, ownedFields_append, ownedFields_nil, ownedFields_emptyHeaders,
        owned_none]
      abel
    · have hhostValue := keeps_allocatePool hlengthValue true []
      have hcontent := keeps_contentTypeHeader hhostValue bodyLength calls
      refine hcontent.mono (le_of_eq ?_)
      simp only [ownedFields_cons, ownedFields_append, ownedFields_nil]
      abel

theorem keeps_dfciBuildRequestHeaders (h : Keeps n rest pool) (url : Option Buffer)
    (bodyLength : ℕ) (calls : BuildRequestHeadersCalls) :
    Keeps n (ownedHeaders (dfciBuildRequestHeaders url bodyLength calls pool).2.1 + rest)
      (dfciBuildRequestHeaders url bodyLength calls pool).2.2 := by
  rw [dfciBuildRequestHeaders]
  split
  · simpa using h
  · split
    · simpa using h
    · split
      · refine h.grant.mono (le_of_eq ?_)
        rw [ownedHeaders_some, ownedFields_append, ownedFields_replicate, ownedFields_emptyHeaders,
          zero_add, zero_add]
      · dsimp only
        have hparser := (h.grant).acquire true
        have hfilled := keeps_fillRequestHeaders hparser bodyLength calls
        apply Keeps.release
        refine hfilled.mono (le_of_eq ?_)
        rw [ownedHeaders_some]
        simp only [acquire_granted, held_some]
        abel

theorem keeps_receiveFields (texts : List (List UInt8 × List UInt8)) :
    ∀ {rest : Multiset ℕ} {pool : Ledger}, Keeps n rest pool →
      Keeps n (ownedFields (receiveFields texts pool).1 + rest) (receiveFields texts pool).2 := by
  induction texts with
  | nil => exact fun h => by simpa [receiveFields] using h
  | cons text texts ih =>
      intro rest pool h
      have hname := keeps_allocatePool h true (text.1 ++ [0])
      have hvalue := keeps_allocatePool hname true (text.2 ++ [0])
      refine (ih hvalue).mono (le_of_eq ?_)
      simp only [receiveFields, ownedFields_cons]
      abel

theorem keeps_receiveHeaders (h : Keeps n rest pool)
    (texts : Option (List (List UInt8 × List UInt8))) :
    Keeps n (ownedHeaders (receiveHeaders texts pool).1 + rest) (receiveHeaders texts pool).2 := by
  cases texts with
  | none => simpa [receiveHeaders] using h
  | some texts =>
      refine (keeps_receiveFields texts h.grant).mono (le_of_eq ?_)
      simp only [receiveHeaders, ownedHeaders_some]
      abel

/-! ## Transfers -/

theorem Custody.receivePacket (h : Custody n request rest m) (method : HttpMethod)
    (calls : TransferCalls) (contentLength : ℕ) :
    Custody n request rest (receivePacket method calls contentLength m).2 := by
  rw [Exchange.receivePacket]
  split
  · exact h
  · dsimp only
    obtain ⟨⟨events, hframe⟩, -⟩ := receiveBody_frame contentLength calls.chunks []
      { m with pool := m.pool.grant }
    rw [hframe]
    split
    · exact ⟨h.zone, h.pool.grant.release⟩
    -- an earlier body of the response zone is not freed
    · refine Custody.of_le h.zone h.pool.grant (owned m.httpResponse.body) ?_
      change _ = ownedRequest request + ((({m.pool.next} : Multiset ℕ) +
        ownedHeaders m.httpResponse.headers) + (ownedStatus m.httpStatus + rest)) + _
      simp only [ownedResponse]
      abel

/-- The headers of an earlier response are not freed, they are only out of sight. -/
theorem Custody.receiveContent {headers : Option HeaderArray}
    (h : Custody n request (ownedHeaders headers + rest) m) (method : HttpMethod)
    (calls : TransferCalls) :
    Custody n request (ownedHeaders m.httpResponse.headers + rest)
      (receiveContent method calls headers m).2 := by
  have hstored : Custody n request (ownedHeaders m.httpResponse.headers + rest)
      { m with httpResponse := { m.httpResponse with headers := headers } } := by
    refine Custody.of_le h.zone h.pool 0 ?_
    simp only [ownedResponse]
    abel
  rw [Exchange.receiveContent]
  dsimp only
  split
  · exact ⟨hstored.zone, hstored.pool⟩
  · exact hstored.receivePacket method calls _

/-- Custody after a transfer, with what it set aside: after a success the headers of the earlier
response are among it. -/
def KeepsAside (n : ℕ) (request : HttpRequest) (rest earlier : Multiset ℕ)
    (result : EfiStatus × Machine) : Prop :=
  ∃ aside, Custody n request (aside + rest) result.2 ∧
    (efiError result.1 = false → earlier ≤ aside)

theorem keepsAside_error {earlier : Multiset ℕ} {result : EfiStatus × Machine}
    (h : Custody n request rest result.2) (herror : efiError result.1 = true) :
    KeepsAside n request rest earlier result := by
  refine ⟨0, by rwa [zero_add], fun hok => ?_⟩
  rw [hok] at herror
  cases herror

theorem Custody.issueAndReceive (h : Custody n request rest m) (method : HttpMethod)
    (calls : TransferCalls) :
    KeepsAside n request rest (ownedHeaders m.httpResponse.headers)
      (issueAndReceive method calls m) := by
  rw [Exchange.issueAndReceive]
  dsimp only
  split
  · next herror => exact keepsAside_error ⟨h.zone, h.pool⟩ herror
  · obtain ⟨events, status, hframe⟩ := dfciGetResponse_true calls.response
      { m with events := (dfciIssueRequest calls.issue m.events).2 }
    rw [hframe]
    have hresponded : Custody n request rest
        { m with
          events := events, httpStatus := { m.httpStatus with httpStatus := status } } :=
      ⟨h.zone, h.pool⟩
    have hheaders := hresponded.setAside (keeps_receiveHeaders h.pool calls.responseHeaders)
    split
    · next herror => exact keepsAside_error hheaders.drop herror
    · exact ⟨_, hheaders.receiveContent method calls, fun _ => le_rfl⟩

theorem Custody.releaseRequest {url16 : Buffer} {headers : Option HeaderArray}
    (h : Custody n request (ownedHeaders headers + (owned (some url16) + rest)) m) :
    Custody n request rest (releaseRequest (some url16) headers m) := by
  refine ⟨h.zone, ?_⟩
  apply Keeps.releaseAll
  apply keeps_freePool
  refine h.takeBack.mono (le_of_eq ?_)
  change owned (some url16) + (ownedHeaders headers + (ownedRequest request +
    (ownedResponse m.httpResponse + (ownedStatus m.httpStatus + rest)))) = _
  abel

theorem Custody.processHttpRequest_aside (h : Custody n request rest m) (method : HttpMethod)
    (url : Option Buffer) (calls : TransferCalls) :
    KeepsAside n request rest (ownedHeaders m.httpResponse.headers)
      (processHttpRequest method url calls m) := by
  rw [Exchange.processHttpRequest]
  have hrequested : Custody n request rest (m.observe (.requested method url
      (url.all fun buffer => decide (buffer.address ∈ m.pool.live)))) := ⟨h.zone, h.pool⟩
  have hresponse : (m.observe (.requested method url (url.all fun buffer =>
      decide (buffer.address ∈ m.pool.live)))).httpResponse = m.httpResponse := rfl
  rw [← hresponse]
  generalize m.observe (.requested method url
    (url.all fun buffer => decide (buffer.address ∈ m.pool.live))) = m at hrequested ⊢
  have hwide := hrequested.setAside (keeps_dfciConvertToChar16 hrequested.pool url calls.convert)
  dsimp only
  split
  · next herror => exact keepsAside_error hwide.drop herror
  · next hok =>
      obtain ⟨url16, hurl16⟩ := dfciConvertToChar16_isSome hok
      rw [hurl16] at hwide ⊢
      have hheaders := hwide.setAside (keeps_dfciBuildRequestHeaders hwide.pool url
        (requestLength m.httpRequest) calls.headers)
      dsimp only at hheaders
      generalize dfciBuildRequestHeaders url (requestLength m.httpRequest) calls.headers
        (dfciConvertToChar16 url calls.convert m.pool).2.2 = headers at hheaders ⊢
      split
      · next herror => exact keepsAside_error (Custody.releaseRequest hheaders) herror
      · obtain ⟨aside, hissued, hkept⟩ := hheaders.issueAndReceive method calls
        refine ⟨aside, Custody.releaseRequest ?_, hkept⟩
        rwa [add_left_comm, add_left_comm aside] at hissued

theorem Custody.processHttpRequest (h : Custody n request rest m) (method : HttpMethod)
    (url : Option Buffer) (calls : TransferCalls) :
    Custody n request rest (processHttpRequest method url calls m).2 := by
  obtain ⟨_, haside, -⟩ := h.processHttpRequest_aside method url calls
  exact haside.drop

/-! ## Retries and exchanges -/

theorem Custody.delayRetry (h : Custody n request rest m) (retryCount : ℕ)
    (calls : EventWaitCalls) : Custody n request rest (delayRetry retryCount calls m) :=
  Custody.cleanupRetry ⟨h.zone, h.pool⟩

/-- The retry loop, by induction on the attempts that are left. -/
theorem Custody.attemptRequests (method : HttpMethod) (url : Option Buffer) (retryOn202 : Bool)
    (attempts : ℕ → AttemptCalls) (left : ℕ) :
    ∀ {m : Machine}, Custody n request rest m →
      Custody n request rest (attemptRequests method url retryOn202 attempts left m).2 := by
  induction left with
  | zero => exact fun h => h
  | succ left ih =>
      intro m h
      have hsent := h.processHttpRequest method url (attempts left).transfer
      rw [Exchange.attemptRequests]
      split
      · exact hsent
      · split
        · exact ih (hsent.delayRetry left _)
        · exact hsent

theorem Custody.withRetries (h : Custody n request rest m) (method : HttpMethod)
    (url : Option Buffer) (retryOn202 : Bool) (calls : RetriesCalls) :
    Custody n request rest (processHttpRequestWithRetries method url retryOn202 calls m).2 := by
  have hplaced : Custody n request rest
      { m with http := { m.http with httpChildHandle := .image } } := ⟨h.zone, h.pool⟩
  have hconfigured := hplaced.of_sameZones (sameZones_configureHttp calls.configure _)
  rw [processHttpRequestWithRetries]
  dsimp only
  split
  · exact hconfigured
  · have hsent : Custody n request rest (processHttpRequestInternal method url retryOn202
        calls.attempts (configureHttp calls.configure
          { m with http := { m.http with httpChildHandle := .image } }).2).2 :=
      Custody.attemptRequests method url retryOn202 calls.attempts 6 hconfigured.cleanupStatus
    have hdestroyed := hsent.of_sameZones (sameZones_destroyHttpChild calls.destroyChild _)
    rw [cleanupNetworkRequest_http]
    exact ⟨hdestroyed.zone, hdestroyed.pool⟩

theorem Custody.observe (h : Custody n request rest m) (o : Observation) :
    Custody n request rest (m.observe o) := ⟨h.zone, h.pool⟩

theorem Custody.processAsyncRequest (h : Custody n request rest m) (url : Option Buffer)
    (calls : AsyncCalls) (doneProcessing : Bool) :
    Custody n request rest (processAsyncRequest url calls doneProcessing m).machine := by
  have hposted := h.withRetries .post url false calls.post
  unfold Exchange.processAsyncRequest
  dsimp only
  split
  · exact hposted.observe _
  · split
    · exact hposted.observe _
    · split
      · exact hposted.observe _
      · next header _ =>
          have hgot := hposted.withRetries .get header.fieldValue true calls.get
          rw [checkPackets]
          split
          · exact hgot.observe _
          · split
            · exact hgot.observe _
            · split
              · exact hgot.observe _
              · exact hgot

end MuTegra.Dfci.Holdings
