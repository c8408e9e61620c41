/- Unit: MuTegra/Dfci/Requested
   source: NvidiaPkg/Applications/DfciMenu/DfciRequest.c
   digest: The recorded transfers of a run are all the requests that its log names. -/

import MuTegra.Dfci.OwnBody
import MuTegra.Dfci.Trace

set_option autoImplicit false
set_option relaxedAutoImplicit false

namespace MuTegra.Dfci.Requested

open MuTegra.Uefi.Status
open MuTegra.Dfci.State MuTegra.Dfci.Transport MuTegra.Dfci.Exchange MuTegra.Dfci.Update
open MuTegra.Dfci.MainLogic MuTegra.Dfci.Request MuTegra.Dfci.Frames
open MuTegra.Dfci.Traffic MuTegra.Dfci.Phases MuTegra.Dfci.OwnBody MuTegra.Dfci.Trace

def goesOut : Observation → Bool
  | .requested _ _ _ => true
  | _ => false

def requestsOf (ts : List Transfer) : List Observation :=
  ts.map fun t => requestOf t.method t.url t.before

/-- The log grows, and the requests it grows by are those of the transfers, in their order. -/
def Sends (before : Machine) (ts : List Transfer) (after : Machine) : Prop :=
  ∃ new, after.log = before.log ++ new ∧ new.filter goesOut = requestsOf ts

variable {a b c : Machine} {ts later : List Transfer}

theorem Sends.trans (hab : Sends a ts b) (hbc : Sends b later c) : Sends a (ts ++ later) c := by
  obtain ⟨new, hlog, hnew⟩ := hab
  obtain ⟨new', hlog', hnew'⟩ := hbc
  refine ⟨new ++ new', ?_, ?_⟩
  · rw [hlog', hlog, List.append_assoc]
  · rw [List.filter_append, hnew, hnew', requestsOf, requestsOf, ← List.map_append]
    rfl

theorem Sends.silent (h : Sends a ts b) (hbc : Sends b [] c) : Sends a ts c := by
  simpa using h.trans hbc

theorem sends_of_log (h : b.log = a.log) : Sends a [] b :=
  ⟨[], h.trans (List.append_nil _).symm, rfl⟩

theorem sends_observe {o : Observation} (h : goesOut o = false) : Sends a [] (a.observe o) := by
  refine ⟨[o], rfl, ?_⟩
  rw [List.filter_cons, h]
  rfl

theorem sends_setLogicState (m : Machine) (state : LogicState) :
    Sends m [] (m.setLogicState state) := sends_observe (a := { m with logicState := state }) rfl

theorem Sends.of_log {a' : Machine} (h : Sends a' ts b) (hlog : a'.log = a.log) :
    Sends a ts b := by
  obtain ⟨new, hnew, hrequests⟩ := h
  exact ⟨new, hlog ▸ hnew, hrequests⟩

theorem sends_transfer (t : Transfer) : Sends t.before [t] t.result.2 := by
  have hends := ends_processHttpRequest t.method t.url t.calls t.before
  cases hends with
  | error status state log => exact ⟨[requestOf t.method t.url t.before], log, rfl⟩
  | answer content status state log passes =>
      exact ⟨[requestOf t.method t.url t.before, _], log.trans (List.append_assoc _ _ _), rfl⟩

theorem sends_delayRetry (retryCount : ℕ) (calls : EventWaitCalls) (m : Machine) :
    Sends m [] (delayRetry retryCount calls m) :=
  ⟨[.retryWait (delayInSeconds retryCount m)], rfl, rfl⟩

variable {method : HttpMethod} {url : Option Buffer} {retryOn202 : Bool}

theorem sends_series {attempts : ℕ → AttemptCalls} {left : ℕ} {m : Machine} {ts : List Transfer}
    {result : EfiStatus × Machine} (h : Series method url retryOn202 attempts left m ts result) :
    Sends m ts result.2 := by
  induction h with
  | last t call stops =>
      subst call
      exact sends_transfer _
  | again t call success asks rest ih =>
      subst call
      exact (sends_transfer _).trans ((sends_delayRetry _ _ _).trans ih)

theorem sends_withRetries (calls : RetriesCalls) (m : Machine) :
    Sends m (withRetriesTransfers method url retryOn202 calls m)
      (processHttpRequestWithRetries method url retryOn202 calls m).2 := by
  have hconfigured := sameZones_configureHttp calls.configure
    { m with http := { m.http with httpChildHandle := .image } }
  rw [withRetriesTransfers, processHttpRequestWithRetries]
  dsimp only
  split
  · exact sends_of_log hconfigured.log
  · have hseries : Series method url retryOn202 calls.attempts 6 _ _ _ :=
      series_processHttpRequestInternal (configureHttp calls.configure
        { m with http := { m.http with httpChildHandle := .image } }).2
    have hsent := (sends_series hseries).of_log hconfigured.log
    rw [cleanupNetworkRequest_http]
    exact hsent.silent (sends_of_log (sameZones_destroyHttpChild _ _).log)

def transfersOf (e : AsyncRequest) : List Transfer := e.posts ++ e.gets

theorem sends_checkPackets (got : EfiStatus × Machine) :
    Sends got.2 [] (checkPackets got).machine := by
  rw [checkPackets]
  split
  · exact sends_observe rfl
  · split
    · exact sends_observe rfl
    · split
      · exact sends_observe rfl
      · exact sends_of_log rfl

/-- An exchange sends the transfers of its POST, and behind a location those of its GET. -/
theorem sends_exchange (e : AsyncRequest) : Sends e.before (transfersOf e) e.result.machine := by
  have hposts : Sends e.before e.posts e.posted.2 := sends_withRetries e.calls.post e.before
  rw [transfersOf]
  rcases e.result_cases with ⟨hlocation, status, done, hresult⟩ | ⟨header, hlocation, hresult⟩
  · rw [hresult, AsyncRequest.gets, hlocation, List.append_nil]
    exact hposts.silent (sends_observe rfl)
  · rw [hresult, AsyncRequest.gets, hlocation]
    exact (hposts.trans (sends_withRetries e.calls.get e.posted.2)).silent (sends_checkPackets _)

def allTransfers (es : List AsyncRequest) : List Transfer := es.flatMap transfersOf

theorem allTransfers_cons (e : AsyncRequest) (es : List AsyncRequest) :
    allTransfers (e :: es) = transfersOf e ++ allTransfers es := rfl

theorem allTransfers_append (es later : List AsyncRequest) :
    allTransfers (es ++ later) = allTransfers es ++ allTransfers later :=
  List.flatMap_append

theorem sends_dfciUpdateFromJson (fw : Firmware) (jsonString : Option Buffer)
    (table : ResponseTable) (calls : ParseCalls) (m : Machine) :
    Sends m [] (dfciUpdateFromJson fw jsonString table calls m).2 := by
  obtain ⟨new, hlog, hown, -, -⟩ := processElements_log fw (some table) calls.elements
    (m.observe (.handed (jsonString.map Buffer.bytes)))
  have hnone : new.filter goesOut = [] := by
    refine List.filter_eq_nil_iff.mpr fun o ho => ?_
    have hother := hown o ho
    cases o <;> first | exact Bool.false_ne_true | cases hother
  have helements : Sends (m.observe (.handed (jsonString.map Buffer.bytes))) []
      (processElements fw (some table) calls.elements
        (m.observe (.handed (jsonString.map Buffer.bytes)))).2 := ⟨new, hlog, hnone⟩
  exact ((sends_observe rfl).trans helements).silent (sends_observe rfl)

theorem sends_exchangeAndUpdate (fw : Firmware) (url : Option Buffer) (state : LogicState)
    (table : ResponseTable) (async : AsyncCalls) (parse : ParseCalls) (doneProcessing : Bool)
    (m : Machine) :
    Sends m (transfersOf ⟨url, async, doneProcessing, m⟩)
      (exchangeAndUpdate fw url state table async parse doneProcessing m).machine := by
  have hexchange := sends_exchange ⟨url, async, doneProcessing, m⟩
  rw [exchangeAndUpdate]
  dsimp only
  split
  · exact hexchange
  · exact (hexchange.silent (sends_setLogicState _ _)).silent
      (sends_dfciUpdateFromJson fw _ table parse _)

variable (fw : Firmware) (identity : Identity)

theorem sends_recoveryPhase (calls : MainLogicCalls) (doneProcessing : Bool) (m : Machine) :
    Sends m (allTransfers (recoveryExchanges fw identity calls doneProcessing m))
      (recoveryPhase fw identity calls doneProcessing m).machine := by
  have hbuilt := (buildJsonRecoveryRequest_frame fw identity calls.recoveryEncode m).1
  rw [recoveryPhase, recoveryExchanges]
  dsimp only
  split
  · exact (sends_of_log hbuilt).silent (sends_observe rfl)
  · have hupdated := (sends_exchangeAndUpdate fw
      (buildJsonRecoveryRequest fw identity calls.recoveryEncode m).2.httpRequest.url .recovery
      mRecoveryResponse calls.recovery calls.recoveryParse doneProcessing _).of_log hbuilt
    rw [allTransfers_cons, allTransfers, List.flatMap_nil, List.append_nil]
    split
    · exact hupdated.silent (sends_setLogicState _ _)
    · split
      · exact hupdated.silent (sends_setLogicState _ _)
      · exact hupdated

theorem sends_dfciMainLogic (calls : MainLogicCalls) (m : Machine) :
    Sends m (allTransfers (mainLogicExchanges fw identity calls m))
      (dfciMainLogic fw identity calls m).machine := by
  have hbuilt : Sends m [] (buildJsonBootstrapRequest fw identity calls.bootstrapEncode
      (m.setLogicState .preBootstrap)).2 :=
    (sends_setLogicState m _).silent (sends_of_log (buildJsonBootstrapRequest_frame fw identity
      calls.bootstrapEncode (m.setLogicState .preBootstrap)).1)
  rw [dfciMainLogic, mainLogicExchanges]
  dsimp only
  split
  · exact hbuilt.silent (sends_observe rfl)
  · have hupdated := hbuilt.trans (sends_exchangeAndUpdate fw
      (buildJsonBootstrapRequest fw identity calls.bootstrapEncode
        (m.setLogicState .preBootstrap)).2.httpRequest.bootstrapUrl .bootstrap
      mRecoveryBootstrapResponse calls.bootstrap calls.bootstrapParse false _)
    rw [List.nil_append] at hupdated
    split
    · rw [allTransfers_cons]
      exact (hupdated.silent (sends_setLogicState _ _)).trans
        (sends_recoveryPhase fw identity calls _ _)
    · rw [allTransfers_cons, allTransfers, List.flatMap_nil, List.append_nil]
      split
      · exact hupdated.silent (sends_setLogicState _ _)
      · exact hupdated

theorem sends_unconfigureZone (calls : UnconfigureNicCalls) (m : Machine) :
    Sends m [] (unconfigureZone calls m) := by
  rcases unconfigureZone_cases calls m with h | ⟨handle, h⟩
  · exact sends_of_log (congrArg Machine.log h)
  · rw [h]
    exact sends_observe rfl

theorem sends_runOnNic (calls : NicCalls) (m : Machine) :
    Sends m (allTransfers (mainLogicExchanges fw identity calls.mainLogic
      (m.observe (.mainLogic calls.handle)))) (runOnNic .dfciMainLogic fw identity calls m).machine := by
  have hran := (sends_observe (a := m) rfl).trans (sends_dfciMainLogic fw identity calls.mainLogic
    (m.observe (.mainLogic calls.handle)))
  unfold runOnNic
  dsimp only
  split
  · exact hran.silent (sends_unconfigureZone calls.unconfigure _)
  · exact hran

theorem sends_tryNic (calls : NicCalls) (m : Machine) :
    Sends m (allTransfers (nicExchanges fw identity calls m))
      (tryNic .dfciMainLogic fw identity calls m).machine := by
  rw [tryNic, nicExchanges]
  dsimp only
  split
  · exact sends_of_log rfl
  · split
    · exact sends_of_log rfl
    · exact (sends_runOnNic fw identity calls _).of_log rfl

theorem sends_tryNics (nics : List NicCalls) :
    ∀ (status : EfiStatus) (doneProcessing : Bool) (m : Machine),
      Sends m (allTransfers (nicsExchanges fw identity nics doneProcessing m))
        (tryNics .dfciMainLogic fw identity nics status doneProcessing m).machine := by
  induction nics with
  | nil => exact fun status doneProcessing m => sends_of_log rfl
  | cons nic nics ih =>
      intro status doneProcessing m
      rw [tryNics, nicsExchanges]
      split
      · exact sends_of_log rfl
      · rw [allTransfers_append]
        exact (sends_tryNic fw identity nic m).trans (ih _ _ _)

theorem sends_tryEachNic (calls : TryEachNicCalls) (m : Machine) :
    Sends m (allTransfers (tryEachNicExchanges fw identity calls m))
      (tryEachNicThenProcessRequest .dfciMainLogic fw identity calls m).2 := by
  rw [tryEachNicThenProcessRequest, tryEachNicExchanges]
  split
  · exact sends_of_log rfl
  · dsimp only
    split
    · next hnone =>
        rw [hnone]
        exact sends_of_log rfl
    · have hallocated : { m with pool := (allocatePool true [] m.pool).2 }.log = m.log := rfl
      exact ((sends_tryNics fw identity calls.nics calls.locateHandles false _).of_log
        hallocated).silent (sends_of_log rfl)

/-- The requests that a run logs are those of the transfers of its exchanges, in their order. -/
theorem sends_processDfciNetworkRequest (ctx : Context) (calls : NetworkRequestCalls) (w : World) :
    Sends w.machine (allTransfers (requestExchanges ctx calls w))
      (processDfciNetworkRequest ctx calls w).world.machine := by
  have hinitialized := initializeNetworkRequest_log calls.settings w.machine
  rw [processDfciNetworkRequest, requestExchanges]
  dsimp only
  split
  · exact sends_of_log ((exitNetworkRequest_log _ _ _ _).trans hinitialized)
  · have henabled := (enableDfciCertificate_log ctx calls.certificate
      { w with machine := (initializeNetworkRequest calls.settings w.machine).2 }).trans
        hinitialized
    split
    · exact sends_of_log ((exitNetworkRequest_log _ _ _ _).trans henabled)
    · rw [tryAndReport]
      apply ((sends_tryEachNic ctx.fw ctx.identity calls.nics _).of_log henabled).silent
      exact sends_of_log
        ((exitNetworkRequest_log _ _ _ _).trans (assembleMessage_log calls.message _ _))

end MuTegra.Dfci.Requested
