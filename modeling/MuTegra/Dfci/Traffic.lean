/- Unit: MuTegra/Dfci/Traffic
   source: NvidiaPkg/Applications/DfciMenu/DfciRequest.c
   digest: What transfers, retries and exchanges add to the log of a run. -/

import MuTegra.Dfci.Frames

set_option autoImplicit false
set_option relaxedAutoImplicit false

namespace MuTegra.Dfci.Traffic

open MuTegra.Foundation.Ownership MuTegra.Foundation.MachineWords
open MuTegra.Uefi.Status MuTegra.Uefi.Strings
open MuTegra.Dfci.State MuTegra.Dfci.Transport MuTegra.Dfci.Exchange MuTegra.Dfci.Frames

/-- What the response zone passes on after an answer, from the answer's content and from what
the zone held before. A body whose size wraps to zero is not passed on. -/
inductive Passes : Option (List UInt8) → Option (List UInt8) → Option (List UInt8) → Prop where
  | kept (stale : Option (List UInt8)) : Passes none stale stale
  | replaced (content : List UInt8) (stale : Option (List UInt8)) :
      Passes (some content) stale (some (content ++ [0]))
  | oversized (content : List UInt8) (stale : Option (List UInt8)) :
      Passes (some content) stale none

theorem passes_stored (response : HttpResponse) (address bodySize : ℕ) (content : List UInt8)
    (stale : Option (List UInt8)) :
    Passes (some content) stale (responseText
      { response with body := some ⟨address, content ++ [0]⟩, bodySize := bodySize }) := by
  rw [responseText]
  split
  · exact .oversized content stale
  · exact .replaced content stale

variable {method : HttpMethod} {calls : TransferCalls} {m : Machine}

/-- How a transfer ends: with an error, or with an answer that is logged. -/
inductive Ends (method : HttpMethod) (before : Machine) (result : EfiStatus × Machine) : Prop where
  | error (status : efiError result.1 = true)
      (state : result.2.logicState = before.logicState) (log : result.2.log = before.log)
  | answer (content : Option (List UInt8)) (status : result.1 = efiSuccess)
      (state : result.2.logicState = before.logicState)
      (log : result.2.log = before.log ++ [.answered method result.2.httpStatus.httpStatus content
        (responseText before.httpResponse)])
      (passes : Passes content (responseText before.httpResponse)
        (responseText result.2.httpResponse))

theorem Ends.of_eq {before before' : Machine} {result : EfiStatus × Machine}
    (h : Ends method before' result) (hstate : before'.logicState = before.logicState)
    (hlog : before'.log = before.log)
    (hresponse : responseText before'.httpResponse = responseText before.httpResponse) :
    Ends method before result := by
  cases h with
  | error status state log => exact .error status (state.trans hstate) (log.trans hlog)
  | answer content status state log passes =>
      rw [hresponse] at log passes
      exact .answer content status (state.trans hstate) (hlog ▸ log) passes

theorem ends_receivePacket (contentLength : ℕ) :
    Ends method m (receivePacket method calls contentLength m) := by
  rw [receivePacket]
  split
  · exact .error (efiError_encodeError _) rfl rfl
  · dsimp only
    obtain ⟨⟨events, hframe⟩, -⟩ := receiveBody_frame contentLength calls.chunks []
      { m with pool := m.pool.grant }
    rw [hframe]
    split
    · next herr => exact .error herr rfl rfl
    · exact .answer (some _) rfl rfl rfl (passes_stored _ _ _ _ _)

theorem ends_receiveContent (headers : Option HeaderArray) :
    Ends method m (receiveContent method calls headers m) := by
  rw [receiveContent]
  dsimp only
  split
  · exact .answer none rfl rfl rfl (.kept _)
  · exact (ends_receivePacket _).of_eq rfl rfl rfl

theorem ends_issueAndReceive (method : HttpMethod) (calls : TransferCalls) (m : Machine) :
    Ends method m (issueAndReceive method calls m) := by
  rw [issueAndReceive]
  dsimp only
  split
  · next herr => exact .error herr rfl rfl
  · obtain ⟨events, status, hframe⟩ := dfciGetResponse_true calls.response
      { m with events := (dfciIssueRequest calls.issue m.events).2 }
    rw [hframe]
    split
    · next herr => exact .error herr rfl rfl
    · exact (ends_receiveContent _).of_eq rfl rfl rfl

def requestOf (method : HttpMethod) (url : Option Buffer) (m : Machine) : Observation :=
  .requested method url (url.all fun buffer => decide (buffer.address ∈ m.pool.live))

theorem ends_processHttpRequest (method : HttpMethod) (url : Option Buffer)
    (calls : TransferCalls) (m : Machine) :
    Ends method (m.observe (requestOf method url m)) (processHttpRequest method url calls m) := by
  rw [processHttpRequest]
  dsimp only
  split
  · next herr => exact .error herr rfl rfl
  · split
    · next herr => exact .error herr rfl rfl
    · next hheaders =>
        have h := ends_issueAndReceive method calls
          { m.observe (requestOf method url m) with
            pool := (dfciBuildRequestHeaders url (requestLength m.httpRequest) calls.headers
              (dfciConvertToChar16 url calls.convert m.pool).2.2).2.2 }
        cases h with
        | error status state log => exact .error status state log
        | answer content status state log passes => exact .answer content status state log passes

/-- Everything a run logs before the final answer of a GET. -/
def quiet : Observation → Bool
  | .requested _ _ _ => true
  | .retryWait _ => true
  | .answered method status _ _ => method != .get || status != .ok
  | _ => false

/-- How a series of transfers ends: quietly with an error, or with a last answer. -/
inductive EndsSeries (method : HttpMethod) (before : Machine) (result : EfiStatus × Machine) :
    Prop where
  | error (earlier : List Observation) (status : efiError result.1 = true)
      (state : result.2.logicState = before.logicState)
      (log : result.2.log = before.log ++ earlier) (silent : ∀ o ∈ earlier, quiet o = true)
  | answer (earlier : List Observation) (content stale : Option (List UInt8))
      (status : result.1 = efiSuccess) (state : result.2.logicState = before.logicState)
      (log : result.2.log = before.log ++ earlier ++
        [.answered method result.2.httpStatus.httpStatus content stale])
      (silent : ∀ o ∈ earlier, quiet o = true)
      (passes : Passes content stale (responseText result.2.httpResponse))

theorem EndsSeries.cons {method : HttpMethod} {before before' : Machine}
    {result : EfiStatus × Machine} {first : List Observation}
    (h : EndsSeries method before' result) (hstate : before'.logicState = before.logicState)
    (hlog : before'.log = before.log ++ first)
    (hfirst : ∀ o ∈ first, quiet o = true) : EndsSeries method before result := by
  have hall : ∀ earlier : List Observation, (∀ o ∈ earlier, quiet o = true) →
      ∀ o ∈ first ++ earlier, quiet o = true := by
    intro earlier h o ho
    exact (List.mem_append.mp ho).elim (hfirst o) (h o)
  cases h with
  | error earlier status state log silent =>
      refine .error (first ++ earlier) status (state.trans hstate) ?_ (hall earlier silent)
      rw [log, hlog, List.append_assoc]
  | answer earlier content stale status state log silent passes =>
      refine .answer (first ++ earlier) content stale status (state.trans hstate) ?_
        (hall earlier silent) passes
      rw [log, hlog, List.append_assoc before.log]

theorem quiet_answered_of_retry {retryOn202 : Bool} {status : HttpStatusCode}
    (h : asksForRetry retryOn202 status = true) (method : HttpMethod)
    (content stale : Option (List UInt8)) :
    quiet (.answered method status content stale) = true := by
  cases status <;> simp_all [asksForRetry, quiet]

theorem endsSeries_single {method : HttpMethod} {url : Option Buffer} {m : Machine}
    {result : EfiStatus × Machine} (h : Ends method (m.observe (requestOf method url m)) result) :
    EndsSeries method m result := by
  have hfirst : ∀ o ∈ [requestOf method url m], quiet o = true := by
    intro o ho
    rw [List.mem_singleton.mp ho]
    rfl
  cases h with
  | error status state log => exact .error _ status state log hfirst
  | answer content status state log passes =>
      exact .answer _ content _ status state log hfirst passes

theorem delayRetry_log {method : HttpMethod} {url : Option Buffer} {m sent : Machine}
    {content stale : Option (List UInt8)}
    (h : sent.log = (m.observe (requestOf method url m)).log ++
      [.answered method sent.httpStatus.httpStatus content stale])
    (retryCount : ℕ) (calls : EventWaitCalls) :
    (delayRetry retryCount calls sent).log = m.log ++ [requestOf method url m,
      .answered method sent.httpStatus.httpStatus content stale,
      .retryWait (delayInSeconds retryCount sent)] := by
  change sent.log ++ [_] = _
  rw [h]
  simp [Machine.observe]

/-- The retry loop, by induction on the passes left. -/
theorem endsSeries_attemptRequests (method : HttpMethod) (url : Option Buffer) (retryOn202 : Bool)
    (attempts : ℕ → AttemptCalls) (retryCount : ℕ) :
    ∀ m : Machine, EndsSeries method m
      (attemptRequests method url retryOn202 attempts (retryCount + 1) m) := by
  induction retryCount with
  | zero =>
      intro m
      have hsent := ends_processHttpRequest method url (attempts 0).transfer m
      rw [attemptRequests]
      simp only [bne_self_eq_false, Bool.and_false, Bool.false_eq_true, if_false, ite_self]
      exact endsSeries_single hsent
  | succ retryCount ih =>
      intro m
      have hsent := ends_processHttpRequest method url (attempts (retryCount + 1)).transfer m
      rw [attemptRequests]
      split
      · exact endsSeries_single hsent
      · next hok =>
          split
          · next hretry =>
              rw [Bool.and_eq_true] at hretry
              cases hsent with
              | error status state log => exact absurd status hok
              | answer content status state log passes =>
                  refine (ih _).cons state (delayRetry_log log (retryCount + 1) _) ?_
                  intro o ho
                  simp only [List.mem_cons, List.not_mem_nil, or_false] at ho
                  rcases ho with rfl | rfl | rfl
                  · rfl
                  · exact quiet_answered_of_retry hretry.1 method content _
                  · rfl
          · exact endsSeries_single hsent

theorem endsSeries_withRetries (method : HttpMethod) (url : Option Buffer) (retryOn202 : Bool)
    (calls : RetriesCalls) (m : Machine) :
    EndsSeries method m (processHttpRequestWithRetries method url retryOn202 calls m) := by
  rw [processHttpRequestWithRetries]
  have hconfigured := sameZones_configureHttp calls.configure
    { m with http := { m.http with httpChildHandle := .image } }
  dsimp only
  split
  · next herr =>
      exact .error [] herr hconfigured.logicState (hconfigured.log.trans (List.append_nil _).symm) nofun
  · have hsent := (endsSeries_attemptRequests method url retryOn202 calls.attempts 5
      (cleanupNetworkRequest cleanupStatus (configureHttp calls.configure
        { m with http := { m.http with httpChildHandle := .image } }).2)).cons
      hconfigured.logicState (hconfigured.log.trans (List.append_nil _).symm) nofun
    have hdestroyed := sameZones_destroyHttpChild calls.destroyChild
      (processHttpRequestInternal method url retryOn202 calls.attempts (configureHttp
        calls.configure { m with http := { m.http with httpChildHandle := .image } }).2).2
    rw [cleanupNetworkRequest_http]
    cases hsent with
    | error earlier status state log silent =>
        exact .error earlier status (hdestroyed.logicState.trans state) (hdestroyed.log.trans log)
          silent
    | answer earlier content stale status state log silent passes =>
        refine .answer earlier content stale status (hdestroyed.logicState.trans state)
          (hdestroyed.log.trans ?_) silent ?_
        · rw [hdestroyed.httpStatus]
          exact log
        · rw [hdestroyed.httpResponse]
          exact passes

/-- How an exchange ends: it is given up, or its last answer was refused for want of a text, or
the response zone passes on a text. -/
inductive EndsExchange (before : Machine) (result : Outcome) : Prop where
  | failed (earlier : List Observation) (status : efiError result.status = true)
      (state : result.machine.logicState = before.logicState)
      (log : result.machine.log = before.log ++ earlier ++ [.failed result.status])
      (silent : ∀ o ∈ earlier, quiet o = true)
  | refused (earlier : List Observation) (content stale : Option (List UInt8))
      (status : result.status = efiProtocolError)
      (state : result.machine.logicState = before.logicState)
      (log : result.machine.log = before.log ++ earlier ++
        [.answered .get .ok content stale, .failed efiProtocolError])
      (silent : ∀ o ∈ earlier, quiet o = true) (passes : Passes content stale none)
  | received (earlier : List Observation) (content stale : Option (List UInt8))
      (text : List UInt8) (status : result.status = efiSuccess)
      (state : result.machine.logicState = before.logicState)
      (log : result.machine.log = before.log ++ earlier ++ [.answered .get .ok content stale])
      (silent : ∀ o ∈ earlier, quiet o = true) (passes : Passes content stale (some text))
      (body : result.machine.httpResponse.body.map Buffer.bytes = some text)

theorem EndsExchange.cons {before before' : Machine} {result : Outcome}
    {first : List Observation} (h : EndsExchange before' result)
    (hstate : before'.logicState = before.logicState)
    (hlog : before'.log = before.log ++ first) (hfirst : ∀ o ∈ first, quiet o = true) :
    EndsExchange before result := by
  have hall : ∀ earlier : List Observation, (∀ o ∈ earlier, quiet o = true) →
      ∀ o ∈ first ++ earlier, quiet o = true := by
    intro earlier h o ho
    exact (List.mem_append.mp ho).elim (hfirst o) (h o)
  have hcons : ∀ earlier last : List Observation,
      before'.log ++ earlier ++ last = before.log ++ (first ++ earlier) ++ last := by
    intro earlier last
    rw [hlog, List.append_assoc before.log]
  cases h with
  | failed earlier status state log silent =>
      exact .failed _ status (state.trans hstate) (log.trans (hcons _ _)) (hall earlier silent)
  | refused earlier content stale status state log silent passes =>
      exact .refused _ content stale status (state.trans hstate) (log.trans (hcons _ _))
        (hall earlier silent) passes
  | received earlier content stale text status state log silent passes body =>
      exact .received _ content stale text status (state.trans hstate) (log.trans (hcons _ _))
        (hall earlier silent) passes body

theorem endsExchange_giveUp {before m : Machine} {status : EfiStatus} {earlier : List Observation}
    (doneProcessing : Bool) (herror : efiError status = true)
    (hstate : m.logicState = before.logicState) (hlog : m.log = before.log ++ earlier)
    (hsilent : ∀ o ∈ earlier, quiet o = true) :
    EndsExchange before (giveUp status doneProcessing m) :=
  .failed earlier herror hstate (congrArg (· ++ [Observation.failed status]) hlog) hsilent

theorem responseText_eq_none_iff {response : HttpResponse} :
    responseText response = none ↔ response.body = none ∨ response.bodySize = 0 := by
  rw [responseText]
  split
  · next h => simp [h]
  · next h => simp [h]

theorem endsExchange_checkPackets {before : Machine} {got : EfiStatus × Machine}
    (h : EndsSeries .get before got) : EndsExchange before (checkPackets got) := by
  rw [checkPackets]
  cases h with
  | error earlier status state log silent =>
      rw [if_pos status]
      exact endsExchange_giveUp true status state log silent
  | answer earlier content stale status state log silent passes =>
      have hok : ¬ efiError got.1 = true := by simp [status]
      rw [if_neg hok]
      by_cases hstatus : got.2.httpStatus.httpStatus ≠ .ok
      · rw [if_pos hstatus]
        refine endsExchange_giveUp true (efiError_encodeError _) state
          (log.trans (List.append_assoc _ _ _)) ?_
        intro o ho
        rcases List.mem_append.mp ho with ho | ho
        · exact silent o ho
        · rw [List.mem_singleton.mp ho]
          simp [quiet, hstatus]
      · rw [if_neg hstatus]
        rw [not_ne_iff] at hstatus
        rw [hstatus] at log
        by_cases hbody : got.2.httpResponse.body = none ∨ got.2.httpResponse.bodySize = 0
        · rw [if_pos hbody]
          rw [responseText_eq_none_iff.mpr hbody] at passes
          refine .refused earlier content stale rfl state ?_ silent passes
          exact (congrArg (· ++ [Observation.failed efiProtocolError]) log).trans
            (List.append_assoc _ _ _)
        · rw [if_neg hbody]
          obtain ⟨text, htext⟩ := Option.ne_none_iff_exists'.mp
            (mt responseText_eq_none_iff.mp hbody)
          rw [htext] at passes
          refine .received earlier content stale text status state log silent passes ?_
          rw [not_or] at hbody
          rwa [responseText, if_neg hbody.2] at htext

theorem endsExchange_processAsyncRequest (url : Option Buffer) (calls : AsyncCalls)
    (doneProcessing : Bool) (m : Machine) :
    EndsExchange m (processAsyncRequest url calls doneProcessing m) := by
  unfold processAsyncRequest
  have hposted := endsSeries_withRetries .post url false calls.post m
  dsimp only
  cases hposted with
  | error earlier status state log silent =>
      rw [if_pos status]
      exact endsExchange_giveUp doneProcessing status state log silent
  | answer earlier content stale status state log silent passes =>
      have hok : ¬ efiError (processHttpRequestWithRetries .post url false calls.post m).1 = true := by
        simp [status]
      have hlog := log.trans (List.append_assoc _ _ _)
      have hsilent : ∀ o ∈ earlier ++ [Observation.answered .post
          (processHttpRequestWithRetries .post url false calls.post m).2.httpStatus.httpStatus
          content stale], quiet o = true := by
        intro o ho
        rcases List.mem_append.mp ho with ho | ho
        · exact silent o ho
        · rw [List.mem_singleton.mp ho]
          rfl
      rw [if_neg hok]
      split
      · exact endsExchange_giveUp doneProcessing (efiError_encodeError _) state hlog hsilent
      · split
        · exact endsExchange_giveUp true (efiError_encodeError _) state hlog hsilent
        · next header _ =>
            exact (endsExchange_checkPackets
              (endsSeries_withRetries .get header.fieldValue true calls.get _)).cons state
              hlog hsilent

end MuTegra.Dfci.Traffic
