/- Unit: MuTegra/Dfci/Events
   source: NvidiaPkg/Applications/DfciMenu/DfciRequest.c
   digest: Which outcomes of the service calls leave an event open or an http child undestroyed. -/

import MuTegra.Dfci.Frames
import MuTegra.Foundation.Tallies

/-!
Every function is tallied with a flag computed from the outcomes of its calls. A response leaves
its event open whenever it could be created, so that a transfer that succeeds has leaked, and only
the first attempt of a series matters.
-/

set_option autoImplicit false
set_option relaxedAutoImplicit false

namespace MuTegra.Dfci.Events

open MuTegra.Foundation.Ownership MuTegra.Foundation.Tallies
open MuTegra.Uefi.Status MuTegra.Uefi.Strings
open MuTegra.Dfci.State MuTegra.Dfci.Transport MuTegra.Dfci.Exchange MuTegra.Dfci.Frames

/-! ## Waiting -/

/-- A failed `SetTimer` leaves the timeout event open. -/
def waitLeaks (calls : EventWaitCalls) : Bool :=
  !efiError calls.createEvent && efiError calls.setTimer

/-- `EventWait` for a request does not see its event. -/
def waitFails (calls : EventWaitCalls) : Bool :=
  efiError calls.createEvent || efiError calls.setTimer || !calls.signalled

theorem tally_eventWait (hasRequest : Bool) (calls : EventWaitCalls) (events : Ledger) :
    Tally (waitLeaks calls) events (eventWait hasRequest calls events).2 := by
  rw [eventWait, waitLeaks]
  cases efiError calls.createEvent with
  | true => exact Tally.refl events
  | false =>
      cases efiError calls.setTimer with
      | true => exact Tally.grant events
      | false => exact Tally.bracket (Tally.refl events.grant)

theorem efiError_eventWait (calls : EventWaitCalls) (events : Ledger) :
    efiError (eventWait true calls events).1 = waitFails calls := by
  rw [eventWait, waitFails]
  cases hcreate : efiError calls.createEvent with
  | true => simpa using hcreate
  | false =>
      cases htimer : efiError calls.setTimer with
      | true => simpa using htimer
      | false =>
          cases calls.signalled with
          | true => exact efiError_success
          | false => exact efiError_encodeError _

/-! ## Addresses -/

/-- A wait event that is not closed at the early return, or a timeout event. -/
def dhcpLeaks (calls : ConfigureDhcpCalls) : Bool :=
  !efiError calls.createWaitEvent && !efiError (unconfigureNic calls.unconfigure).1 &&
    (efiError calls.handleProtocol ||
      (!efiError calls.createTimerEvent && !efiError calls.setTimer && waitLeaks calls.wait))

def dhcpFails (calls : ConfigureDhcpCalls) : Bool :=
  efiError calls.createWaitEvent || efiError (unconfigureNic calls.unconfigure).1 ||
    efiError calls.handleProtocol || efiError calls.createTimerEvent || efiError calls.setTimer ||
      waitFails calls.wait

theorem tally_awaitDhcp {events : Ledger} {m : Machine} (hevents : m.events = events.grant)
    (hwait : m.httpNic.waitEvent = some events.next) (calls : ConfigureDhcpCalls) :
    Tally (!efiError calls.createTimerEvent && !efiError calls.setTimer && waitLeaks calls.wait)
      events (awaitDhcp calls m).2.events := by
  unfold awaitDhcp closeWaitEvent
  dsimp only
  rw [hevents, hwait]
  cases efiError calls.createTimerEvent with
  | true => exact Tally.bracket (Tally.refl events.grant)
  | false =>
      cases efiError calls.setTimer with
      | true => exact Tally.bracket (Tally.bracket (Tally.refl events.grant.grant))
      | false => exact Tally.bracket (Tally.bracket (tally_eventWait true calls.wait _))

theorem efiError_awaitDhcp (calls : ConfigureDhcpCalls) (m : Machine) :
    efiError (awaitDhcp calls m).1 =
      (efiError calls.createTimerEvent || efiError calls.setTimer || waitFails calls.wait) := by
  rw [awaitDhcp]
  dsimp only
  cases hcreate : efiError calls.createTimerEvent with
  | true => simpa using hcreate
  | false =>
      cases htimer : efiError calls.setTimer with
      | true => simpa using htimer
      | false => exact efiError_eventWait calls.wait _

theorem tally_configureDhcp (calls : ConfigureDhcpCalls) (m : Machine) :
    Tally (dhcpLeaks calls) m.events (configureDhcp calls m).2.events := by
  rw [configureDhcp, dhcpLeaks]
  cases efiError calls.createWaitEvent with
  | true => exact Tally.refl m.events
  | false =>
      cases efiError (unconfigureNic calls.unconfigure).1 with
      | true => exact Tally.bracket (Tally.refl m.events.grant)
      | false =>
          cases efiError calls.handleProtocol with
          | true => exact Tally.grant m.events
          | false => exact tally_awaitDhcp rfl rfl calls

theorem efiError_configureDhcp (calls : ConfigureDhcpCalls) (m : Machine) :
    efiError (configureDhcp calls m).1 = dhcpFails calls := by
  rw [configureDhcp, dhcpFails]
  dsimp only
  cases hcreate : efiError calls.createWaitEvent with
  | true => simpa using hcreate
  | false =>
      cases hunconfigure : efiError (unconfigureNic calls.unconfigure).1 with
      | true => simpa using hunconfigure
      | false =>
          cases hprotocol : efiError calls.handleProtocol with
          | true => simpa using hprotocol
          | false => exact efiError_awaitDhcp calls _

theorem configureDhcp_children (calls : ConfigureDhcpCalls) (m : Machine) :
    (configureDhcp calls m).2.children = m.children := by
  rw [configureDhcp]
  dsimp only
  split
  · rfl
  · split
    · rfl
    · split
      · rfl
      · rw [awaitDhcp]
        dsimp only
        split
        · rfl
        · split <;> rfl

/-! ## The http child -/

def needsDhcp (calls : ConfigureHttpCalls) : Bool := efiError calls.getData || !calls.hasAddress

def configureLeaks (calls : ConfigureHttpCalls) : Bool :=
  !efiError calls.handleProtocol && needsDhcp calls && dhcpLeaks calls.dhcp

def createsChild (calls : ConfigureHttpCalls) : Bool :=
  !efiError calls.handleProtocol && !(needsDhcp calls && dhcpFails calls.dhcp) &&
    !efiError calls.createChild

def childFails (calls : ConfigureHttpCalls) : Bool :=
  efiError calls.handleChild || efiError calls.configure

/-- What `ConfigureHTTP` leaves: the events as its flag says, and a child in the http zone if one
was created. -/
structure Configured (calls : ConfigureHttpCalls) (m : Machine) (result : EfiStatus × Machine) :
    Prop where
  events : Tally (configureLeaks calls) m.events result.2.events
  error : efiError result.1 = (!createsChild calls || childFails calls)
  none : createsChild calls = false → result.2.children = m.children
  child : createsChild calls = true → result.2.children = m.children.grant ∧
    result.2.http.httpChildHandle = .child (some m.children.next)

theorem createHttpChild_cases (calls : ConfigureHttpCalls) (m : Machine) :
    (createHttpChild calls m).2.events = m.events ∧
      efiError (createHttpChild calls m).1 = (efiError calls.createChild || childFails calls) ∧
      (efiError calls.createChild = true → (createHttpChild calls m).2.children = m.children) ∧
      (efiError calls.createChild = false →
        (createHttpChild calls m).2.children = m.children.grant ∧
          (createHttpChild calls m).2.http.httpChildHandle = .child (some m.children.next)) := by
  rw [createHttpChild, childFails]
  cases hcreate : efiError calls.createChild with
  | true =>
      exact ⟨rfl, by simpa using hcreate, fun _ => rfl, fun h => absurd h.symm Bool.false_ne_true⟩
  | false =>
      cases hhandle : efiError calls.handleChild with
      | true => exact ⟨rfl, by simpa using hhandle, fun h => absurd h Bool.false_ne_true,
          fun _ => ⟨rfl, rfl⟩⟩
      | false => exact ⟨rfl, rfl, fun h => absurd h Bool.false_ne_true, fun _ => ⟨rfl, rfl⟩⟩

theorem configured_createHttpChild {calls : ConfigureHttpCalls} {m m' : Machine}
    (hevents : Tally (configureLeaks calls) m.events m'.events) (hchildren : m'.children = m.children)
    (hcreates : createsChild calls = !efiError calls.createChild) :
    Configured calls m (createHttpChild calls m') := by
  obtain ⟨hsame, herror, hnone, hchild⟩ := createHttpChild_cases calls m'
  refine ⟨hsame ▸ hevents, ?_, fun h => ?_, fun h => ?_⟩
  · rw [herror, hcreates, Bool.not_not]
  · rw [hcreates, Bool.not_eq_false'] at h
    rw [hnone h, hchildren]
  · rw [hcreates, Bool.not_eq_true'] at h
    rw [← hchildren]
    exact hchild h

theorem configured_configureHttp (calls : ConfigureHttpCalls) (m : Machine) :
    Configured calls m (configureHttp calls m) := by
  rw [configureHttp]
  by_cases hprotocol : efiError calls.handleProtocol = true
  · have hcreates : createsChild calls = false := by simp [createsChild, hprotocol]
    have hleaks : configureLeaks calls = false := by simp [configureLeaks, hprotocol]
    rw [if_pos hprotocol]
    refine ⟨hleaks ▸ Tally.refl m.events, ?_, fun _ => rfl, fun h => ?_⟩
    · rw [hcreates]
      exact hprotocol
    · exact absurd (hcreates.symm.trans h) Bool.false_ne_true
  · rw [if_neg hprotocol]
    rw [Bool.not_eq_true] at hprotocol
    by_cases hneeds : efiError calls.getData = true ∨ calls.hasAddress = false
    · have hneeded : needsDhcp calls = true := by simpa [needsDhcp] using hneeds
      have hleaks : configureLeaks calls = dhcpLeaks calls.dhcp := by
        simp [configureLeaks, hprotocol, hneeded]
      have hdhcp := tally_configureDhcp calls.dhcp m
      rw [← hleaks] at hdhcp
      rw [if_pos hneeds]
      dsimp only
      rw [efiError_configureDhcp]
      cases hfails : dhcpFails calls.dhcp with
      | true =>
          have hcreates : createsChild calls = false := by simp [createsChild, hneeded, hfails]
          refine ⟨hdhcp, ?_, fun _ => configureDhcp_children calls.dhcp m, fun h => ?_⟩
          · rw [hcreates]
            exact (efiError_configureDhcp calls.dhcp m).trans hfails
          · exact absurd (hcreates.symm.trans h) Bool.false_ne_true
      | false =>
          refine configured_createHttpChild hdhcp (configureDhcp_children calls.dhcp m) ?_
          simp [createsChild, hprotocol, hfails]
    · have hneeded : needsDhcp calls = false := by
        rw [not_or, Bool.not_eq_true, Bool.not_eq_false] at hneeds
        simp [needsDhcp, hneeds.1, hneeds.2]
      have hleaks : configureLeaks calls = false := by simp [configureLeaks, hneeded]
      rw [if_neg hneeds]
      refine configured_createHttpChild (hleaks ▸ Tally.refl m.events) rfl ?_
      simp [createsChild, hprotocol, hneeded]

/-! ## Transfers -/

def convertFails (url : Option Buffer) (calls : ConvertCalls) : Bool :=
  !calls.allocated || url.isNone || efiError calls.convert

def copiesGranted (calls : BuildRequestHeadersCalls) : Bool :=
  calls.host && calls.agentName && calls.agentValue && calls.acceptName && calls.acceptValue &&
    calls.lengthName && calls.lengthValue

def headersFail (bodyLength : ℕ) (calls : BuildRequestHeadersCalls) : Bool :=
  !calls.allocated || efiError calls.parseUrl || !copiesGranted calls ||
    efiError calls.hostName || (bodyLength != 0 && !(calls.typeName && calls.typeValue))

/-- `EventWait` in `DfciIssueRequest` leaves its event open. -/
def issueLeaks (calls : IssueRequestCalls) : Bool :=
  !efiError calls.createEvent && !efiError calls.request && waitLeaks calls.wait

def issueFails (calls : IssueRequestCalls) : Bool :=
  efiError calls.createEvent || efiError calls.request || waitFails calls.wait

/-- A transfer leaves an event open: while it issues its request, or because it comes to wait for
the response. -/
def transferLeaks (url : Option Buffer) (bodyLength : ℕ) (calls : TransferCalls) : Bool :=
  !convertFails url calls.convert && !headersFail bodyLength calls.headers &&
    (issueLeaks calls.issue || (!issueFails calls.issue && !efiError calls.response.createEvent))

theorem allocatePool_isNone (granted : Bool) (bytes : List UInt8) (pool : Ledger) :
    (allocatePool granted bytes pool).1.isNone = !granted := by
  cases granted <;> rfl

theorem efiError_dfciConvertToChar16 (url : Option Buffer) (calls : ConvertCalls) (pool : Ledger) :
    efiError (dfciConvertToChar16 url calls pool).1 = convertFails url calls := by
  rw [dfciConvertToChar16, convertFails]
  dsimp only
  rw [allocatePool_isNone]
  cases calls.allocated with
  | false => simp [efiOutOfResources]
  | true =>
      have hstatus : efiError (if url.isNone then efiInvalidParameter else calls.convert) =
          (url.isNone || efiError calls.convert) := by
        cases url.isNone with
        | true => simp [efiInvalidParameter]
        | false => rfl
      generalize (if url.isNone then efiInvalidParameter else calls.convert) = status at hstatus ⊢
      rw [Bool.not_true, Bool.false_or, ← hstatus, if_neg Bool.false_ne_true]
      split <;> rfl

theorem efiError_fillRequestHeaders (bodyLength : ℕ) (calls : BuildRequestHeadersCalls)
    (pool : Ledger) :
    efiError (fillRequestHeaders bodyLength calls pool).1 = (!copiesGranted calls ||
      efiError calls.hostName || (bodyLength != 0 && !(calls.typeName && calls.typeValue))) := by
  unfold fillRequestHeaders copyText
  simp only [allocatePool_isNone]
  by_cases hcopies : copiesGranted calls = true
  · have hgranted := hcopies
    simp only [copiesGranted, Bool.and_eq_true] at hgranted
    obtain ⟨⟨⟨⟨⟨⟨hhost, hagent⟩, hagentValue⟩, haccept⟩, hacceptValue⟩, hlength⟩, hlengthValue⟩ :=
      hgranted
    rw [if_neg (by simp [hhost, hagent, hagentValue, haccept, hacceptValue, hlength,
      hlengthValue])]
    cases hhostName : efiError calls.hostName with
    | true => simpa using hhostName
    | false =>
        rw [if_neg Bool.false_ne_true, hcopies]
        unfold contentTypeHeader copyText
        simp only [allocatePool_isNone]
        by_cases hbody : bodyLength = 0
        · simp [hbody]
        · rw [if_neg hbody]
          cases calls.typeName with
          | false => simp [hbody, efiOutOfResources]
          | true =>
              cases calls.typeValue with
              | false => simp [hbody, efiOutOfResources]
              | true => simp
  · have hrefused := hcopies
    simp only [copiesGranted, Bool.and_eq_true, not_and_or, Bool.not_eq_true] at hrefused
    rw [if_pos (by simpa [or_assoc] using hrefused)]
    simp [hcopies, efiOutOfResources]

theorem efiError_dfciBuildRequestHeaders (url : Option Buffer) (bodyLength : ℕ)
    (calls : BuildRequestHeadersCalls) (pool : Ledger) :
    efiError (dfciBuildRequestHeaders url bodyLength calls pool).1 =
      (url.isNone || headersFail bodyLength calls) := by
  rw [dfciBuildRequestHeaders, headersFail]
  cases url.isNone with
  | true => simp [efiInvalidParameter]
  | false =>
      cases calls.allocated with
      | false => simp [efiOutOfResources]
      | true =>
          cases hparse : efiError calls.parseUrl with
          | true => simpa using hparse
          | false =>
              simp only [efiError_fillRequestHeaders, Bool.false_eq_true, Bool.true_eq_false,
                if_false, Bool.not_true, Bool.false_or]

theorem tally_dfciIssueRequest (calls : IssueRequestCalls) (events : Ledger) :
    Tally (issueLeaks calls) events (dfciIssueRequest calls events).2 := by
  rw [dfciIssueRequest, issueLeaks]
  cases efiError calls.createEvent with
  | true => exact Tally.refl events
  | false =>
      cases efiError calls.request with
      | true => exact Tally.bracket (Tally.refl events.grant)
      | false => exact Tally.bracket (tally_eventWait true calls.wait events.grant)

theorem efiError_dfciIssueRequest (calls : IssueRequestCalls) (events : Ledger) :
    efiError (dfciIssueRequest calls events).1 = issueFails calls := by
  rw [dfciIssueRequest, issueFails]
  cases hcreate : efiError calls.createEvent with
  | true => simpa using hcreate
  | false =>
      cases hrequest : efiError calls.request with
      | true => simpa using hrequest
      | false => exact efiError_eventWait calls.wait _

theorem tally_dfciGetResponse (hasResponseData : Bool) (calls : GetResponseCalls) (m : Machine) :
    Tally (!efiError calls.createEvent) m.events
      (dfciGetResponse hasResponseData calls m).2.events := by
  rw [dfciGetResponse]
  cases efiError calls.createEvent with
  | true => exact Tally.refl m.events
  | false =>
      cases efiError calls.response with
      | true => exact Tally.grant m.events
      | false =>
          exact (Tally.grant m.events).then_grows (tally_eventWait true calls.wait m.events.grant).grows

theorem grows_receiveBody (contentLength : ℕ) (chunks : List ChunkCalls) :
    ∀ (received : List UInt8) (m : Machine),
      Grows m.events (receiveBody contentLength chunks received m).2.2.events := by
  induction chunks with
  | nil =>
      intro received m
      rw [receiveBody]
      split
      · exact Grows.refl m.events
      · exact (tally_dfciGetResponse false _ m).grows
  | cons chunk chunks ih =>
      intro received m
      have hresponse := (tally_dfciGetResponse false chunk.response m).grows
      rw [receiveBody]
      split
      · exact Grows.refl m.events
      · dsimp only
        split
        · exact hresponse
        · exact hresponse.trans (ih _ _)

variable (method : HttpMethod) (url : Option Buffer) (calls : TransferCalls) (m : Machine)

theorem grows_receivePacket (contentLength : ℕ) :
    Grows m.events (receivePacket method calls contentLength m).2.events := by
  have hbody := grows_receiveBody contentLength calls.chunks [] { m with pool := m.pool.grant }
  rw [receivePacket]
  split
  · exact Grows.refl m.events
  · dsimp only
    split
    · exact hbody
    · exact hbody

theorem grows_receiveContent (headers : Option HeaderArray) :
    Grows m.events (receiveContent method calls headers m).2.events := by
  rw [receiveContent]
  dsimp only
  split
  · exact Grows.refl m.events
  · exact grows_receivePacket method calls
      { m with httpResponse := { m.httpResponse with headers := headers } } _

theorem dfciGetResponse_created {hasResponseData : Bool} {response : GetResponseCalls}
    (h : ¬ efiError (dfciGetResponse hasResponseData response m).1 = true) :
    efiError response.createEvent = false := by
  by_contra hcreate
  rw [Bool.not_eq_false] at hcreate
  rw [dfciGetResponse, if_pos hcreate] at h
  exact h hcreate

/-- From the first response on, a transfer has leaked as soon as it has an event for it. -/
theorem tally_issueAndReceive {events : Ledger} {m : Machine} (hm : m.events = events) :
    Tally (issueLeaks calls.issue || (!issueFails calls.issue && !efiError calls.response.createEvent))
      events (issueAndReceive method calls m).2.events := by
  subst hm
  have hissued := tally_dfciIssueRequest calls.issue m.events
  rw [issueAndReceive]
  dsimp only
  rw [efiError_dfciIssueRequest]
  cases issueFails calls.issue with
  | true =>
      rw [Bool.not_true, Bool.false_and, Bool.or_false]
      exact hissued
  | false =>
      rw [Bool.not_false, Bool.true_and, if_neg Bool.false_ne_true]
      obtain ⟨issued, hm⟩ : ∃ issued : Machine,
          issued = { m with events := (dfciIssueRequest calls.issue m.events).2 } := ⟨_, rfl⟩
      have hevents : issued.events = (dfciIssueRequest calls.issue m.events).2 := by rw [hm]
      rw [← hm]
      rw [← hevents] at hissued
      have hresponse := tally_dfciGetResponse true calls.response issued
      split
      · exact hissued.trans hresponse
      · next hok =>
          have hcontent := grows_receiveContent method calls
            { (dfciGetResponse true calls.response issued).2 with
              pool := (receiveHeaders calls.responseHeaders
                (dfciGetResponse true calls.response issued).2.pool).2 }
            (receiveHeaders calls.responseHeaders
              (dfciGetResponse true calls.response issued).2.pool).1
          rw [dfciGetResponse_created issued hok] at hresponse ⊢
          exact hissued.trans (hresponse.then_grows hcontent)

theorem issueAndReceive_success (h : efiError (issueAndReceive method calls m).1 = false) :
    issueFails calls.issue = false ∧ efiError calls.response.createEvent = false := by
  unfold issueAndReceive at h
  dsimp only at h
  split at h
  · next herror => exact absurd (h.symm.trans herror) Bool.false_ne_true
  · next hissue =>
      rw [efiError_dfciIssueRequest, Bool.not_eq_true] at hissue
      split at h
      · next herror => exact absurd (h.symm.trans herror) Bool.false_ne_true
      · next hresponse => exact ⟨hissue, dfciGetResponse_created _ hresponse⟩

theorem tally_processHttpRequest :
    Tally (transferLeaks url (requestLength m.httpRequest) calls) m.events
      (processHttpRequest method url calls m).2.events := by
  rw [processHttpRequest, transferLeaks]
  dsimp only
  rw [efiError_dfciConvertToChar16, efiError_dfciBuildRequestHeaders]
  cases hconvert : convertFails url calls.convert with
  | true => exact Tally.refl m.events
  | false =>
      have hurl : url.isNone = false := by
        simp only [convertFails, Bool.or_eq_false_iff] at hconvert
        exact hconvert.1.2
      rw [hurl, Bool.false_or, if_neg Bool.false_ne_true]
      have hlength : requestLength (m.observe (.requested method url
          (url.all fun buffer => decide (buffer.address ∈ m.pool.live)))).httpRequest =
            requestLength m.httpRequest := rfl
      rw [hlength]
      cases headersFail (requestLength m.httpRequest) calls.headers with
      | true => exact Tally.refl m.events
      | false => exact tally_issueAndReceive method calls rfl

theorem transferLeaks_of_success (h : efiError (processHttpRequest method url calls m).1 = false) :
    transferLeaks url (requestLength m.httpRequest) calls = true := by
  unfold processHttpRequest at h
  have hlength : requestLength (m.observe (.requested method url
      (url.all fun buffer => decide (buffer.address ∈ m.pool.live)))).httpRequest =
        requestLength m.httpRequest := rfl
  have hwide := efiError_dfciConvertToChar16 url calls.convert m.pool
  dsimp only at h
  split at h
  · next herror => exact absurd (h.symm.trans herror) Bool.false_ne_true
  · next hconverted =>
      have hconvert : convertFails url calls.convert = false := by
        rw [← hwide]
        exact Bool.not_eq_true _ ▸ hconverted
      split at h
      · next herror => exact absurd (h.symm.trans herror) Bool.false_ne_true
      · next hbuilt =>
          rw [efiError_dfciBuildRequestHeaders, hlength, Bool.not_eq_true,
            Bool.or_eq_false_iff] at hbuilt
          obtain ⟨hissue, hcreate⟩ := issueAndReceive_success method calls _ h
          simp only [transferLeaks, hconvert, hbuilt.2, hissue, hcreate, Bool.not_false,
            Bool.and_self, Bool.or_true]

/-! ## Retries -/

variable (retryOn202 : Bool)

theorem grows_delayRetry (retryCount : ℕ) (wait : EventWaitCalls) (m : Machine) :
    Grows m.events (delayRetry retryCount wait m).events :=
  (tally_eventWait false wait m.events).grows

theorem grows_attemptRequests (attempts : ℕ → AttemptCalls) (left : ℕ) :
    ∀ m : Machine,
      Grows m.events (attemptRequests method url retryOn202 attempts left m).2.events := by
  induction left with
  | zero => exact fun m => Grows.refl m.events
  | succ left ih =>
      intro m
      have hsent := (tally_processHttpRequest method url (attempts left).transfer m).grows
      rw [attemptRequests]
      split
      · exact hsent
      · split
        · exact (hsent.trans (grows_delayRetry left (attempts left).wait _)).trans (ih _)
        · exact hsent

theorem tally_attemptRequests (attempts : ℕ → AttemptCalls) (left : ℕ) (m : Machine) :
    Tally (transferLeaks url (requestLength m.httpRequest) (attempts left).transfer) m.events
      (attemptRequests method url retryOn202 attempts (left + 1) m).2.events := by
  have hsent := tally_processHttpRequest method url (attempts left).transfer m
  rw [attemptRequests]
  split
  · exact hsent
  · next hok =>
      split
      · rw [Bool.not_eq_true] at hok
        rw [transferLeaks_of_success method url _ m hok] at hsent ⊢
        exact hsent.then_grows ((grows_delayRetry left (attempts left).wait _).trans
          (grows_attemptRequests method url retryOn202 attempts left _))
      · exact hsent

def runLeaksEvent (bodyLength : ℕ) (calls : RetriesCalls) : Bool :=
  configureLeaks calls.configure ||
    (createsChild calls.configure && !childFails calls.configure &&
      transferLeaks url bodyLength (calls.attempts 5).transfer)

def runLeaksChild (calls : RetriesCalls) : Bool :=
  createsChild calls.configure && (childFails calls.configure || efiError calls.destroyChild)

theorem destroyHttpChild_events (status : EfiStatus) (m : Machine) :
    (destroyHttpChild status m).events = m.events := by
  rw [destroyHttpChild]
  split
  · split <;> rfl
  · rfl

theorem tally_destroyHttpChild {children : Ledger} {m : Machine}
    (hchildren : m.children = children.grant)
    (hhandle : m.http.httpChildHandle = .child (some children.next)) (status : EfiStatus) :
    Tally (efiError status) children (destroyHttpChild status m).children := by
  rw [destroyHttpChild, hhandle]
  dsimp only
  cases efiError status with
  | true =>
      rw [if_pos rfl, hchildren]
      exact Tally.grant children
  | false =>
      rw [if_neg Bool.false_ne_true, hchildren]
      exact Tally.bracket (Tally.refl children.grant)

/-- The events and the children of a run are tallied by what its calls return. -/
theorem tally_withRetries (calls : RetriesCalls) (m : Machine) :
    Tally (runLeaksEvent url (requestLength m.httpRequest) calls) m.events
        (processHttpRequestWithRetries method url retryOn202 calls m).2.events ∧
      Tally (runLeaksChild calls) m.children
        (processHttpRequestWithRetries method url retryOn202 calls m).2.children := by
  have hconfigured := configured_configureHttp calls.configure
    { m with http := { m.http with httpChildHandle := .image } }
  have hzones := sameZones_configureHttp calls.configure
    { m with http := { m.http with httpChildHandle := .image } }
  rw [processHttpRequestWithRetries, runLeaksEvent, runLeaksChild]
  dsimp only
  generalize configureHttp calls.configure
    { m with http := { m.http with httpChildHandle := .image } } = configured
    at hconfigured hzones ⊢
  obtain ⟨hevents, herror, hnone, hchild⟩ := hconfigured
  cases hcreates : createsChild calls.configure with
  | false =>
      rw [hcreates, Bool.not_false, Bool.true_or] at herror
      rw [if_pos herror, Bool.false_and, Bool.false_and, Bool.or_false, Bool.false_and,
        hnone hcreates]
      exact ⟨hevents, Tally.refl m.children⟩
  | true =>
      obtain ⟨hgranted, hhandle⟩ := hchild hcreates
      rw [hcreates, Bool.not_true, Bool.false_or] at herror
      rw [herror]
      cases childFails calls.configure with
      | true =>
          rw [if_pos rfl, hgranted, Bool.not_true, Bool.and_false, Bool.false_and, Bool.or_false]
          exact ⟨hevents, Tally.grant m.children⟩
      | false =>
          have hsame : SameServices configured.2 (processHttpRequestInternal method url retryOn202
              calls.attempts configured.2).2 := sameServices_processHttpRequestInternal configured.2
          have hsent := tally_attemptRequests method url retryOn202 calls.attempts 5
            (cleanupNetworkRequest cleanupStatus configured.2)
          have hlength : requestLength (cleanupNetworkRequest cleanupStatus configured.2).httpRequest =
              requestLength m.httpRequest := congrArg requestLength hzones.httpRequest
          rw [hlength] at hsent
          rw [if_neg Bool.false_ne_true, cleanupNetworkRequest_http]
          constructor
          · dsimp only
            rw [destroyHttpChild_events]
            exact hevents.trans hsent
          · exact tally_destroyHttpChild (hsame.children.trans hgranted)
              ((congrArg Http.httpChildHandle hsame.http).trans hhandle) calls.destroyChild

/-! ## Results -/

/-- What is intended of the events and the http children of a run: none that was created since is
still there, and none was closed or destroyed a second time. -/
structure ReleasesOwn (before after : Machine) : Prop where
  children : ¬ Leaks before.children after.children
  childrenOnce : after.children.faults = before.children.faults
  events : ¬ Leaks before.events after.events
  eventsOnce : after.events.faults = before.events.faults

/-- A run destroys and closes what it created if and only if its flags do not say otherwise. -/
theorem releasesOwn_iff (method : HttpMethod) (url : Option Buffer) (retryOn202 : Bool)
    (calls : RetriesCalls) (m : Machine) :
    ReleasesOwn m (processHttpRequestWithRetries method url retryOn202 calls m).2 ↔
      runLeaksEvent url (requestLength m.httpRequest) calls = false ∧
        runLeaksChild calls = false := by
  obtain ⟨hevents, hchildren⟩ := tally_withRetries method url retryOn202 calls m
  constructor
  · intro h
    have hevent := mt hevents.leaks_iff.mpr h.events
    have hchild := mt hchildren.leaks_iff.mpr h.children
    exact ⟨Bool.not_eq_true _ ▸ hevent, Bool.not_eq_true _ ▸ hchild⟩
  · rintro ⟨hevent, hchild⟩
    refine ⟨?_, hchildren.grows.faults, ?_, hevents.grows.faults⟩
    · exact not_leaks (hchildren.balanced hchild)
    · exact not_leaks (hevents.balanced hevent)

/-- A run whose calls all succeed leaves the event of the response open. -/
theorem allSucceed_not_releasesOwn :
    ¬ ReleasesOwn Machine.boot (processHttpRequestWithRetries .get
      (some ⟨0, ascii "https://p" ++ [0]⟩) true sampleExchange.get Machine.boot).2 := by
  intro h
  refine h.events ((tally_withRetries _ _ _ _ _).1.leaked ?_)
  decide

end MuTegra.Dfci.Events
