/- Unit: MuTegra/Dfci/Frames
   source: NvidiaPkg/Applications/DfciMenu/DfciRequest.c
   digest: What configuring, waiting and receiving leave as they were. -/

import MuTegra.Dfci.Exchange

set_option autoImplicit false
set_option relaxedAutoImplicit false

namespace MuTegra.Dfci.Frames

open MuTegra.Foundation.Ownership
open MuTegra.Uefi.Status
open MuTegra.Dfci.State MuTegra.Dfci.Transport MuTegra.Dfci.Exchange

/-- The zones with buffers and the log are as before, and no buffer was freed that was live. -/
structure SameZones (before after : Machine) : Prop where
  httpRequest : after.httpRequest = before.httpRequest
  httpResponse : after.httpResponse = before.httpResponse
  httpStatus : after.httpStatus = before.httpStatus
  logicState : after.logicState = before.logicState
  log : after.log = before.log
  pool : ∀ {n : ℕ} {owned : Multiset ℕ}, Keeps n owned before.pool → Keeps n owned after.pool

theorem SameZones.refl (m : Machine) : SameZones m m := ⟨rfl, rfl, rfl, rfl, rfl, id⟩

theorem SameZones.trans {a b c : Machine} (hab : SameZones a b) (hbc : SameZones b c) :
    SameZones a c :=
  ⟨hbc.httpRequest.trans hab.httpRequest, hbc.httpResponse.trans hab.httpResponse,
    hbc.httpStatus.trans hab.httpStatus, hbc.logicState.trans hab.logicState,
    hbc.log.trans hab.log, fun h => hbc.pool (hab.pool h)⟩

theorem keeps_timerTick {n : ℕ} {owned : Multiset ℕ} {pool : Ledger} (calls : TimerTickCalls)
    (h : Keeps n owned pool) : Keeps n owned (timerTick calls pool) := by
  rw [timerTick]
  split
  · exact h
  · split
    · exact h
    · exact keeps_freeIfAny (keeps_allocatePool h calls.allocated [])

theorem keeps_timerTicks {n : ℕ} {owned : Multiset ℕ} (ticks : List TimerTickCalls) :
    ∀ {pool : Ledger}, Keeps n owned pool →
      Keeps n owned (ticks.foldl (fun pool tick => timerTick tick pool) pool) := by
  induction ticks with
  | nil => exact fun h => h
  | cons tick ticks ih => exact fun h => ih (keeps_timerTick tick h)

theorem sameZones_awaitDhcp (calls : ConfigureDhcpCalls) (m : Machine) :
    SameZones m (awaitDhcp calls m).2 := by
  rw [awaitDhcp]
  split
  · exact ⟨rfl, rfl, rfl, rfl, rfl, id⟩
  · dsimp only
    split
    · exact ⟨rfl, rfl, rfl, rfl, rfl, id⟩
    · exact ⟨rfl, rfl, rfl, rfl, rfl, keeps_timerTicks calls.ticks⟩

theorem sameZones_configureDhcp (calls : ConfigureDhcpCalls) (m : Machine) :
    SameZones m (configureDhcp calls m).2 := by
  rw [configureDhcp]
  split
  · exact .refl m
  · dsimp only
    split
    · exact ⟨rfl, rfl, rfl, rfl, rfl, id⟩
    · split
      · exact ⟨rfl, rfl, rfl, rfl, rfl, id⟩
      · refine SameZones.trans ?_ (sameZones_awaitDhcp calls _)
        exact ⟨rfl, rfl, rfl, rfl, rfl, id⟩

theorem sameZones_createHttpChild (calls : ConfigureHttpCalls) (m : Machine) :
    SameZones m (createHttpChild calls m).2 := by
  rw [createHttpChild]
  split
  · exact .refl m
  · dsimp only
    split
    · exact ⟨rfl, rfl, rfl, rfl, rfl, id⟩
    · exact ⟨rfl, rfl, rfl, rfl, rfl, id⟩

theorem sameZones_configureHttp (calls : ConfigureHttpCalls) (m : Machine) :
    SameZones m (configureHttp calls m).2 := by
  rw [configureHttp]
  split
  · exact .refl m
  · split
    · dsimp only
      split
      · exact sameZones_configureDhcp calls.dhcp m
      · exact (sameZones_configureDhcp calls.dhcp m).trans (sameZones_createHttpChild calls _)
    · exact sameZones_createHttpChild calls m

theorem sameZones_destroyHttpChild (status : EfiStatus) (m : Machine) :
    SameZones m (destroyHttpChild status m) := by
  rw [destroyHttpChild]
  split
  · split
    · exact .refl m
    · exact ⟨rfl, rfl, rfl, rfl, rfl, id⟩
  · exact .refl m

theorem dfciGetResponse_false (calls : GetResponseCalls) (m : Machine) :
    ∃ events, (dfciGetResponse false calls m).2 = { m with events := events } := by
  rw [dfciGetResponse]
  split
  · exact ⟨m.events, rfl⟩
  · dsimp only
    split
    · exact ⟨_, rfl⟩
    · exact ⟨_, rfl⟩

theorem dfciGetResponse_true (calls : GetResponseCalls) (m : Machine) :
    ∃ events status, (dfciGetResponse true calls m).2 =
      { m with events := events, httpStatus := { m.httpStatus with httpStatus := status } } := by
  rw [dfciGetResponse]
  split
  · exact ⟨m.events, m.httpStatus.httpStatus, rfl⟩
  · dsimp only
    split
    · exact ⟨_, m.httpStatus.httpStatus, rfl⟩
    · exact ⟨_, calls.statusCode, rfl⟩

theorem dfciGetResponse_silent (m : Machine) :
    (dfciGetResponse false { wait := { signalled := false } } m).1 = efiTimeout := rfl

theorem receiveBody_frame (contentLength : ℕ) (chunks : List ChunkCalls) :
    ∀ (received : List UInt8) (m : Machine),
      (∃ events, (receiveBody contentLength chunks received m).2.2 = { m with events := events }) ∧
      (efiError (receiveBody contentLength chunks received m).1 = false →
        (receiveBody contentLength chunks received m).1 = efiSuccess) := by
  induction chunks with
  | nil =>
      intro received m
      rw [receiveBody]
      split
      · exact ⟨⟨m.events, rfl⟩, fun _ => rfl⟩
      · refine ⟨dfciGetResponse_false _ m, fun h => ?_⟩
        rw [dfciGetResponse_silent] at h
        cases h
  | cons chunk chunks ih =>
      intro received m
      rw [receiveBody]
      split
      · exact ⟨⟨m.events, rfl⟩, fun _ => rfl⟩
      · dsimp only
        obtain ⟨events, hevents⟩ := dfciGetResponse_false chunk.response m
        split
        · next herr => exact ⟨⟨events, hevents⟩, fun h => absurd herr (by simp [h])⟩
        · rw [hevents]
          obtain ⟨⟨later, hlater⟩, hok⟩ := ih
            (received ++ chunk.data.take (contentLength - received.length))
            { m with events := events }
          exact ⟨⟨later, hlater⟩, hok⟩

structure SameServices (before after : Machine) : Prop where
  http : after.http = before.http
  httpNic : after.httpNic = before.httpNic
  children : after.children = before.children

theorem SameServices.trans {a b c : Machine} (hab : SameServices a b) (hbc : SameServices b c) :
    SameServices a c :=
  ⟨hbc.http.trans hab.http, hbc.httpNic.trans hab.httpNic, hbc.children.trans hab.children⟩

variable {method : HttpMethod} {url : Option Buffer} {calls : TransferCalls}

theorem sameServices_receivePacket (contentLength : ℕ) (m : Machine) :
    SameServices m (receivePacket method calls contentLength m).2 := by
  rw [receivePacket]
  split
  · exact ⟨rfl, rfl, rfl⟩
  · obtain ⟨⟨events, hframe⟩, -⟩ := receiveBody_frame contentLength calls.chunks []
      { m with pool := m.pool.grant }
    dsimp only
    rw [hframe]
    split
    · exact ⟨rfl, rfl, rfl⟩
    · exact ⟨rfl, rfl, rfl⟩

theorem sameServices_receiveContent (headers : Option HeaderArray) (m : Machine) :
    SameServices m (receiveContent method calls headers m).2 := by
  have hstored : SameServices m
      { m with httpResponse := { m.httpResponse with headers := headers } } := ⟨rfl, rfl, rfl⟩
  rw [receiveContent]
  dsimp only
  split
  · exact ⟨rfl, rfl, rfl⟩
  · exact hstored.trans (sameServices_receivePacket _ _)

theorem sameServices_issueAndReceive (m : Machine) :
    SameServices m (issueAndReceive method calls m).2 := by
  rw [issueAndReceive]
  dsimp only
  split
  · exact ⟨rfl, rfl, rfl⟩
  · obtain ⟨events, status, hframe⟩ := dfciGetResponse_true calls.response
      { m with events := (dfciIssueRequest calls.issue m.events).2 }
    rw [hframe]
    have hresponded : SameServices m
        { m with
          pool := (receiveHeaders calls.responseHeaders m.pool).2
          events := events
          httpStatus := { m.httpStatus with httpStatus := status } } := ⟨rfl, rfl, rfl⟩
    split
    · exact hresponded
    · exact hresponded.trans (sameServices_receiveContent _ _)

theorem sameServices_processHttpRequest (m : Machine) :
    SameServices m (processHttpRequest method url calls m).2 := by
  rw [processHttpRequest]
  dsimp only
  split
  · exact ⟨rfl, rfl, rfl⟩
  · split
    · exact ⟨rfl, rfl, rfl⟩
    · obtain ⟨hhttp, hnic, hchildren⟩ := @sameServices_issueAndReceive method calls _
      exact ⟨hhttp, hnic, hchildren⟩

theorem sameServices_delayRetry (retryCount : ℕ) (wait : EventWaitCalls) (m : Machine) :
    SameServices m (delayRetry retryCount wait m) := ⟨rfl, rfl, rfl⟩

theorem sameServices_attemptRequests {retryOn202 : Bool} {attempts : ℕ → AttemptCalls}
    (left : ℕ) :
    ∀ m : Machine, SameServices m (attemptRequests method url retryOn202 attempts left m).2 := by
  induction left with
  | zero => exact fun m => ⟨rfl, rfl, rfl⟩
  | succ left ih =>
      intro m
      have hsent : SameServices m (processHttpRequest method url (attempts left).transfer m).2 :=
        sameServices_processHttpRequest m
      rw [attemptRequests]
      split
      · exact hsent
      · split
        · exact (hsent.trans (sameServices_delayRetry left _ _)).trans (ih _)
        · exact hsent

theorem sameServices_processHttpRequestInternal {retryOn202 : Bool}
    {attempts : ℕ → AttemptCalls} (m : Machine) :
    SameServices m (processHttpRequestInternal method url retryOn202 attempts m).2 := by
  have hcleaned : SameServices m (cleanupNetworkRequest cleanupStatus m) := ⟨rfl, rfl, rfl⟩
  exact hcleaned.trans (sameServices_attemptRequests 6 _)

end MuTegra.Dfci.Frames
