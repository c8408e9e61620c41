/- Unit: MuTegra/Dfci/NicLoop
   source: NvidiaPkg/Applications/DfciMenu/DfciRequest.c, NvidiaPkg/Applications/DfciMenu/DfciCheck429.c
   digest: The loop over the network interfaces with any of the main logics. -/

import MuTegra.Dfci.Frees

/-!
`MainLogic` is set to one of three functions, and `TryEachNICThenProcessRequest` runs it on one
interface after another. Its passes are listed here from the state that each of them starts in.
-/

set_option autoImplicit false
set_option relaxedAutoImplicit false

namespace MuTegra.Dfci.NicLoop

open MuTegra.Foundation.Ownership
open MuTegra.Uefi.Status MuTegra.Uefi.Strings
open MuTegra.Dfci.State MuTegra.Dfci.Transport MuTegra.Dfci.Exchange MuTegra.Dfci.Frames
open MuTegra.Dfci.Update MuTegra.Dfci.MainLogic MuTegra.Dfci.Request MuTegra.Dfci.Settings
open MuTegra.Dfci.Holdings MuTegra.Dfci.Frees

/-! ## The nic zone in a main logic -/

/-- The interface is the same, and what was requested for it is not forgotten. -/
structure KeepsNic (before after : Machine) : Prop where
  nicHandle : after.httpNic.nicHandle = before.httpNic.nicHandle
  httpSbProtocol : after.httpNic.httpSbProtocol = before.httpNic.httpSbProtocol
  dhcpRequested : before.httpNic.dhcpRequested = true → after.httpNic.dhcpRequested = true

theorem keepsNic_of_eq {before after : Machine} (h : after.httpNic = before.httpNic) :
    KeepsNic before after := by
  constructor
  · rw [h]
  · rw [h]
  · rw [h]
    exact id

theorem KeepsNic.trans {a b c : Machine} (hab : KeepsNic a b) (hbc : KeepsNic b c) :
    KeepsNic a c :=
  ⟨hbc.nicHandle.trans hab.nicHandle, hbc.httpSbProtocol.trans hab.httpSbProtocol,
    fun h => hbc.dhcpRequested (hab.dhcpRequested h)⟩

variable {m : Machine}

theorem keepsNic_observe (m : Machine) (o : Observation) : KeepsNic m (m.observe o) :=
  keepsNic_of_eq rfl

theorem keepsNic_setLogicState (m : Machine) (state : LogicState) :
    KeepsNic m (m.setLogicState state) := keepsNic_of_eq rfl

theorem keepsNic_awaitDhcp (calls : ConfigureDhcpCalls) : KeepsNic m (awaitDhcp calls m).2 := by
  rw [awaitDhcp]
  split
  · exact ⟨rfl, rfl, id⟩
  · dsimp only
    split
    · exact ⟨rfl, rfl, id⟩
    · exact ⟨rfl, rfl, id⟩

theorem keepsNic_configureDhcp (calls : ConfigureDhcpCalls) :
    KeepsNic m (configureDhcp calls m).2 := by
  rw [configureDhcp]
  split
  · exact keepsNic_of_eq rfl
  · dsimp only
    split
    · exact ⟨rfl, rfl, id⟩
    · split
      · exact ⟨rfl, rfl, id⟩
      · refine KeepsNic.trans ?_ (keepsNic_awaitDhcp calls)
        exact ⟨rfl, rfl, fun _ => rfl⟩

theorem keepsNic_createHttpChild (calls : ConfigureHttpCalls) :
    KeepsNic m (createHttpChild calls m).2 := by
  rw [createHttpChild]
  split
  · exact keepsNic_of_eq rfl
  · dsimp only
    split
    · exact keepsNic_of_eq rfl
    · exact keepsNic_of_eq rfl

theorem keepsNic_configureHttp (calls : ConfigureHttpCalls) :
    KeepsNic m (configureHttp calls m).2 := by
  rw [configureHttp]
  split
  · exact keepsNic_of_eq rfl
  · split
    · dsimp only
      split
      · exact keepsNic_configureDhcp calls.dhcp
      · exact (keepsNic_configureDhcp calls.dhcp).trans (keepsNic_createHttpChild calls)
    · exact keepsNic_createHttpChild calls

theorem keepsNic_withRetries (method : HttpMethod) (url : Option Buffer) (retryOn202 : Bool)
    (calls : RetriesCalls) :
    KeepsNic m (processHttpRequestWithRetries method url retryOn202 calls m).2 := by
  have hplaced : KeepsNic m { m with http := { m.http with httpChildHandle := .image } } :=
    keepsNic_of_eq rfl
  have hconfigured := hplaced.trans (keepsNic_configureHttp calls.configure)
  rw [processHttpRequestWithRetries]
  dsimp only
  split
  · exact hconfigured
  · refine hconfigured.trans (keepsNic_of_eq ?_)
    generalize (configureHttp calls.configure
      { m with http := { m.http with httpChildHandle := .image } }).2 = configured
    have hsent : SameServices configured (processHttpRequestInternal method url retryOn202
        calls.attempts configured).2 := sameServices_processHttpRequestInternal configured
    rw [cleanupNetworkRequest_http]
    refine Eq.trans ?_ hsent.httpNic
    rw [destroyHttpChild]
    split
    · split <;> rfl
    · rfl

theorem keepsNic_processAsyncRequest (url : Option Buffer) (calls : AsyncCalls)
    (doneProcessing : Bool) :
    KeepsNic m (processAsyncRequest url calls doneProcessing m).machine := by
  have hposted : KeepsNic m (processHttpRequestWithRetries .post url false calls.post m).2 :=
    keepsNic_withRetries .post url false calls.post
  unfold processAsyncRequest
  dsimp only
  split
  · exact hposted.trans (keepsNic_observe _ _)
  · split
    · exact hposted.trans (keepsNic_observe _ _)
    · split
      · exact hposted.trans (keepsNic_observe _ _)
      · next header _ =>
          have hgot := hposted.trans (keepsNic_withRetries .get header.fieldValue true calls.get)
          rw [checkPackets]
          split
          · exact hgot.trans (keepsNic_observe _ _)
          · split
            · exact hgot.trans (keepsNic_observe _ _)
            · split
              · exact hgot.trans (keepsNic_observe _ _)
              · exact hgot

variable (fw : Firmware)

theorem setMailbox_httpNic (entry : JsonSetVariableTableEntry) (string : StringValue)
    (calls : ElementCalls) : (setMailbox entry string calls m).2.httpNic = m.httpNic := by
  unfold setMailbox
  dsimp only
  split
  · rfl
  · split <;> rfl

theorem processFunction_httpNic (table : Option ResponseTable) (rqst : Option JsonRequestElement)
    (calls : ElementCalls) : (processFunction fw table rqst calls m).2.httpNic = m.httpNic := by
  unfold processFunction
  split
  · split
    · rfl
    · next row _ =>
        unfold applyRow
        dsimp only
        split
        · rfl
        · cases row.action with
          | setVariable index => exact setMailbox_httpNic _ _ _
          | setReturnCode message => rfl
          | setHttpMessage message => rfl
          | other action => rfl
  · rfl

theorem processElements_httpNic (table : Option ResponseTable) (elements : List ElementRun) :
    ∀ m : Machine, (processElements fw table elements m).2.httpNic = m.httpNic := by
  induction elements with
  | nil => exact fun m => rfl
  | cons e elements ih =>
      intro m
      exact (ih _).trans (processFunction_httpNic fw table e.1 e.2)

theorem dfciUpdateFromJson_httpNic (jsonString : Option Buffer) (table : ResponseTable)
    (parse : ParseCalls) (m : Machine) :
    (dfciUpdateFromJson fw jsonString table parse m).2.httpNic = m.httpNic :=
  processElements_httpNic fw (some table) parse.elements _

theorem keepsNic_exchangeAndUpdate (url : Option Buffer) (state : LogicState)
    (table : ResponseTable) (async : AsyncCalls) (parse : ParseCalls) (doneProcessing : Bool) :
    KeepsNic m (exchangeAndUpdate fw url state table async parse doneProcessing m).machine := by
  have hreceived : KeepsNic m (processAsyncRequest url async doneProcessing m).machine :=
    keepsNic_processAsyncRequest url async doneProcessing
  rw [exchangeAndUpdate]
  dsimp only
  split
  · exact hreceived
  · have hstate := hreceived.trans (keepsNic_setLogicState _ state)
    exact hstate.trans (keepsNic_of_eq (dfciUpdateFromJson_httpNic fw _ table parse _))

variable (identity : Identity)

theorem buildJsonBootstrapRequest_httpNic (encode : EfiStatus) :
    (buildJsonBootstrapRequest fw identity encode m).2.httpNic = m.httpNic := by
  rw [buildJsonBootstrapRequest]
  dsimp only
  split <;> rfl

theorem buildJsonRecoveryRequest_httpNic (encode : EfiStatus) :
    (buildJsonRecoveryRequest fw identity encode m).2.httpNic = m.httpNic := by
  rw [buildJsonRecoveryRequest]
  dsimp only
  split <;> rfl

theorem keepsNic_recoveryPhase (calls : MainLogicCalls) (doneProcessing : Bool) :
    KeepsNic m (recoveryPhase fw identity calls doneProcessing m).machine := by
  have hbuilt : KeepsNic m (buildJsonRecoveryRequest fw identity calls.recoveryEncode m).2 :=
    keepsNic_of_eq (buildJsonRecoveryRequest_httpNic fw identity _)
  rw [recoveryPhase]
  dsimp only
  split
  · exact hbuilt.trans (keepsNic_observe _ _)
  · have hupdated := hbuilt.trans (keepsNic_exchangeAndUpdate fw (buildJsonRecoveryRequest fw
      identity calls.recoveryEncode m).2.httpRequest.url .recovery mRecoveryResponse
      calls.recovery calls.recoveryParse doneProcessing)
    split
    · exact hupdated.trans (keepsNic_setLogicState _ _)
    · split
      · exact hupdated.trans (keepsNic_setLogicState _ _)
      · exact hupdated

theorem keepsNic_dfciMainLogic (calls : MainLogicCalls) :
    KeepsNic m (dfciMainLogic fw identity calls m).machine := by
  have hbuilt : KeepsNic m (buildJsonBootstrapRequest fw identity calls.bootstrapEncode
      (m.setLogicState .preBootstrap)).2 :=
    keepsNic_of_eq (buildJsonBootstrapRequest_httpNic fw identity _)
  rw [dfciMainLogic]
  dsimp only
  split
  · exact hbuilt.trans (keepsNic_observe _ _)
  · have hupdated := hbuilt.trans (keepsNic_exchangeAndUpdate fw (buildJsonBootstrapRequest fw
      identity calls.bootstrapEncode (m.setLogicState .preBootstrap)).2.httpRequest.bootstrapUrl
      .bootstrap mRecoveryBootstrapResponse calls.bootstrap calls.bootstrapParse false)
    split
    · exact (hupdated.trans (keepsNic_setLogicState _ .preRecovery)).trans
        (keepsNic_recoveryPhase fw identity calls _)
    · split
      · exact hupdated.trans (keepsNic_setLogicState _ _)
      · exact hupdated

theorem keepsNic_runMainLogic (logic : MainLogicFunction) (calls : NicCalls) :
    KeepsNic m (runMainLogic logic fw identity calls m).machine := by
  cases logic with
  | simpleMainLogic => exact keepsNic_of_eq rfl
  | check429Logic =>
      have hstart : KeepsNic m (m.setLogicState .check429) := keepsNic_of_eq rfl
      have hsent := hstart.trans (keepsNic_withRetries .get m.httpRequest.url false calls.check429)
      unfold runMainLogic check429Logic
      dsimp only
      split
      · exact hsent
      · exact hsent.trans (keepsNic_of_eq rfl)
  | dfciMainLogic => exact keepsNic_dfciMainLogic fw identity calls.mainLogic

/-! ## Passes -/

structure Round where
  calls : NicCalls
  before : Machine

def Round.runs (r : Round) : Prop :=
  efiError r.calls.handleProtocol = false ∧ r.calls.mediaPresent = true

/-- The state in which the main logic starts: the nic zone names this interface and nothing else. -/
def Round.ready (r : Round) : Machine :=
  Machine.observe
    { r.before with httpNic := { nicHandle := some r.calls.handle, httpSbProtocol := true } }
    (.mainLogic r.calls.handle)

/-- `UnconfigureNIC` of the interface behind a request for an address. -/
def Round.unconfigured (r : Round) (m : Machine) : Machine :=
  if m.httpNic.dhcpRequested then
    m.observe (.unconfigured r.calls.handle (unconfigureNic r.calls.unconfigure).1
      (unconfigureNic r.calls.unconfigure).2)
  else m

/-- Where none of its calls fails, `UnconfigureNIC` takes the interface back to a static policy
without an address or a gateway. -/
theorem unconfigureNic_ok {calls : UnconfigureNicCalls}
    (h : efiError (unconfigureNic calls).1 = false) :
    (unconfigureNic calls).2 = [.policyStatic, .noManualAddress, .noGateway] := by
  rw [unconfigureNic] at h ⊢
  by_cases hprotocol : efiError calls.handleProtocol = true
  · rw [if_pos hprotocol] at h
    exact absurd (h.symm.trans hprotocol) Bool.false_ne_true
  · rw [if_neg hprotocol] at h ⊢
    by_cases hpolicy : efiError calls.setPolicy = true
    · rw [if_pos hpolicy] at h
      exact absurd (h.symm.trans hpolicy) Bool.false_ne_true
    · rw [if_neg hpolicy] at h ⊢
      by_cases haddress : efiError calls.setAddress = true
      · rw [if_pos haddress] at h
        exact absurd (h.symm.trans haddress) Bool.false_ne_true
      · rw [if_neg haddress]

section

variable (logic : MainLogicFunction) (fw : Firmware) (identity : Identity)

def Round.result (r : Round) : Outcome := tryNic logic fw identity r.calls r.before

def Round.ran (r : Round) : Outcome := runMainLogic logic fw identity r.calls r.ready

structure RoundOk (r : Round) : Prop where
  /-- An interface without the binding or without media is skipped: nothing but the nic zone
  changes, and the status says why. -/
  skipped : ¬ r.runs →
    r.result logic fw identity =
      { status := if efiError r.calls.handleProtocol then r.calls.handleProtocol else efiNoMedia
        doneProcessing := false
        machine :=
          { r.before with
            httpNic :=
              { nicHandle := some r.calls.handle
                httpSbProtocol := !efiError r.calls.handleProtocol } } }
  /-- Otherwise the pass ends as the main logic does, and behind a request for an address the same
  interface is unconfigured. -/
  ran : r.runs →
    r.result logic fw identity =
      { r.ran logic fw identity with machine := r.unconfigured (r.ran logic fw identity).machine }
  /-- Unless one of the calls for it fails, nothing of its configuration is left. -/
  released : efiError (unconfigureNic r.calls.unconfigure).1 = false →
    (unconfigureNic r.calls.unconfigure).2 = [.policyStatic, .noManualAddress, .noGateway]

theorem result_skipped {r : Round} (h : ¬ r.runs) :
    r.result logic fw identity =
      ⟨if efiError r.calls.handleProtocol then r.calls.handleProtocol else efiNoMedia, false,
        { r.before with
          httpNic :=
            { nicHandle := some r.calls.handle
              httpSbProtocol := !efiError r.calls.handleProtocol } }⟩ := by
  rw [Round.runs, not_and_or, Bool.not_eq_false, Bool.not_eq_true] at h
  rw [Round.result, tryNic, cleanupNetworkRequest_nic]
  dsimp only
  by_cases hbinding : efiError r.calls.handleProtocol = true
  · rw [if_pos hbinding, if_pos hbinding, hbinding]
    rfl
  · rw [if_neg hbinding, if_neg hbinding, if_pos (h.resolve_left hbinding),
      eq_false_of_ne_true hbinding]
    rfl

/-- `UnconfigureNIC` acts on the interface that the main logic ran on, since the main logic leaves
it in the nic zone. -/
theorem result_ran {r : Round} (h : r.runs) :
    r.result logic fw identity =
      { r.ran logic fw identity with
        machine := r.unconfigured (r.ran logic fw identity).machine } := by
  have hkept : KeepsNic r.ready (r.ran logic fw identity).machine :=
    keepsNic_runMainLogic fw identity logic r.calls
  have hhandle : (r.ran logic fw identity).machine.httpNic.nicHandle = some r.calls.handle :=
    hkept.nicHandle
  have hresult : r.result logic fw identity = runOnNic logic fw identity r.calls
      { r.before with httpNic := { nicHandle := some r.calls.handle, httpSbProtocol := true } } := by
    rw [Round.result, tryNic, cleanupNetworkRequest_nic]
    dsimp only
    rw [if_neg (ne_true_of_eq_false h.1), if_neg (by simp [h.2])]
  have hzone : unconfigureZone r.calls.unconfigure (r.ran logic fw identity).machine =
      (r.ran logic fw identity).machine.observe
        (.unconfigured r.calls.handle (unconfigureNic r.calls.unconfigure).1
          (unconfigureNic r.calls.unconfigure).2) := by
    rw [unconfigureZone, hhandle]
  rw [hresult, runOnNic, Round.unconfigured, ← hzone]
  change (if (r.ran logic fw identity).machine.httpNic.dhcpRequested then _
    else r.ran logic fw identity) = _
  split <;> rfl

theorem roundOk (r : Round) : RoundOk logic fw identity r :=
  ⟨result_skipped logic fw identity, result_ran logic fw identity, unconfigureNic_ok⟩

/-! ## Runs of the loop -/

def nicRounds : List NicCalls → Bool → Machine → List Round
  | [], _, _ => []
  | nic :: nics, doneProcessing, m =>
      if doneProcessing then []
      else
        let tried := Round.result logic fw identity ⟨nic, m⟩
        ⟨nic, m⟩ :: nicRounds nics tried.doneProcessing tried.machine

def withHandles (m : Machine) : Machine := { m with pool := m.pool.grant }

def eachNicRounds (calls : TryEachNicCalls) (m : Machine) : List Round :=
  if efiError calls.locateHandles then []
  else nicRounds logic fw identity calls.nics false (withHandles m)

theorem nicRounds_calls (nics : List NicCalls) :
    ∀ (doneProcessing : Bool) (m : Machine),
      (nicRounds logic fw identity nics doneProcessing m).map Round.calls <+: nics := by
  induction nics with
  | nil => exact fun doneProcessing m => List.prefix_rfl
  | cons nic nics ih =>
      intro doneProcessing m
      rw [nicRounds]
      split
      · exact List.nil_prefix
      · exact (List.prefix_cons_inj nic).mpr (ih _ _)

/-- The first pass starts in the state given, and none is made once the processing is done. -/
theorem nicRounds_head {nics : List NicCalls} {doneProcessing : Bool} {m : Machine}
    {next : Round}
    (h : (nicRounds logic fw identity nics doneProcessing m)[0]? = some next) :
    doneProcessing = false ∧ next.before = m := by
  cases nics with
  | nil => cases h
  | cons nic nics =>
      cases doneProcessing with
      | true => cases h
      | false =>
          cases h
          exact ⟨rfl, rfl⟩

/-- Two passes in a row: the first was not the last that was needed, and the second starts where
it ends. -/
theorem nicRounds_consecutive (nics : List NicCalls) :
    ∀ {doneProcessing : Bool} {m : Machine} {i : ℕ} {r next : Round},
      (nicRounds logic fw identity nics doneProcessing m)[i]? = some r →
      (nicRounds logic fw identity nics doneProcessing m)[i + 1]? = some next →
        (r.result logic fw identity).doneProcessing = false ∧
          next.before = (r.result logic fw identity).machine := by
  induction nics with
  | nil =>
      intro doneProcessing m i r next hr
      cases hr
  | cons nic nics ih =>
      intro doneProcessing m i r next hr hnext
      cases doneProcessing with
      | true => cases hr
      | false =>
          rw [nicRounds, if_neg Bool.false_ne_true] at hr hnext
          rw [List.getElem?_cons_succ] at hnext
          cases i with
          | zero =>
              cases hr
              exact nicRounds_head logic fw identity hnext
          | succ i => exact ih hr hnext

/-- The passes go on to the last interface unless the processing is done before it. -/
theorem nicRounds_complete (nics : List NicCalls) :
    ∀ (doneProcessing : Bool) (m : Machine),
      (nicRounds logic fw identity nics doneProcessing m).map Round.calls = nics ∨
        doneProcessing = true ∨
        ∃ r, (nicRounds logic fw identity nics doneProcessing m).getLast? = some r ∧
          (r.result logic fw identity).doneProcessing = true := by
  induction nics with
  | nil => exact fun doneProcessing m => Or.inl rfl
  | cons nic nics ih =>
      intro doneProcessing m
      cases doneProcessing with
      | true => exact Or.inr (Or.inl rfl)
      | false =>
          rw [nicRounds, if_neg Bool.false_ne_true]
          dsimp only
          rcases ih (Round.result logic fw identity ⟨nic, m⟩).doneProcessing
            (Round.result logic fw identity ⟨nic, m⟩).machine with hall | hdone | ⟨r, hlast, hdone⟩
          · left
            rw [List.map_cons, hall]
          · refine Or.inr (Or.inr ⟨⟨nic, m⟩, ?_, hdone⟩)
            rw [hdone]
            cases nics <;> rfl
          · refine Or.inr (Or.inr ⟨r, ?_, hdone⟩)
            rw [List.getLast?_cons, hlast]
            rfl

/-- The loop returns the status of its last pass and leaves the state behind it. -/
theorem tryNics_last (nics : List NicCalls) :
    ∀ (status : EfiStatus) (doneProcessing : Bool) (m : Machine),
      (tryNics logic fw identity nics status doneProcessing m).status =
          ((nicRounds logic fw identity nics doneProcessing m).getLast?.map fun r =>
            (r.result logic fw identity).status).getD status ∧
        (tryNics logic fw identity nics status doneProcessing m).machine =
          ((nicRounds logic fw identity nics doneProcessing m).getLast?.map fun r =>
            (r.result logic fw identity).machine).getD m := by
  induction nics with
  | nil => exact fun status doneProcessing m => ⟨rfl, rfl⟩
  | cons nic nics ih =>
      intro status doneProcessing m
      cases doneProcessing with
      | true => exact ⟨rfl, rfl⟩
      | false =>
          rw [nicRounds, tryNics, if_neg Bool.false_ne_true, if_neg Bool.false_ne_true]
          dsimp only
          obtain ⟨hstatus, hmachine⟩ := ih (Round.result logic fw identity ⟨nic, m⟩).status
            (Round.result logic fw identity ⟨nic, m⟩).doneProcessing
            (Round.result logic fw identity ⟨nic, m⟩).machine
          rw [List.getLast?_cons]
          constructor
          · refine hstatus.trans ?_
            cases (nicRounds logic fw identity nics
              (Round.result logic fw identity ⟨nic, m⟩).doneProcessing
              (Round.result logic fw identity ⟨nic, m⟩).machine).getLast? <;> rfl
          · refine hmachine.trans ?_
            cases (nicRounds logic fw identity nics
              (Round.result logic fw identity ⟨nic, m⟩).doneProcessing
              (Round.result logic fw identity ⟨nic, m⟩).machine).getLast? <;> rfl

/-! ## Custody of the zones -/

variable {n : ℕ} {urls rest : Multiset ℕ} {m : Machine}

theorem keepsUrls_runMainLogic (h : KeepsUrls n urls rest m) (calls : NicCalls) :
    KeepsUrls n urls rest (runMainLogic logic fw identity calls m).machine := by
  obtain ⟨request, hurls, hcustody⟩ := h
  cases logic with
  | simpleMainLogic => exact ⟨request, hurls, hcustody⟩
  | check429Logic =>
      have hsent := (custody_setLogicState hcustody .check429).withRetries .get m.httpRequest.url
        false calls.check429
      refine ⟨request, hurls, ?_⟩
      unfold runMainLogic check429Logic
      dsimp only
      split
      · exact hsent
      · exact custody_setLogicState hsent _
  | dfciMainLogic =>
      obtain ⟨request', hurls', hafter⟩ :=
        (accounts_dfciMainLogic hcustody fw identity calls.mainLogic).after
      exact ⟨request', hurls'.trans hurls, hafter.drop⟩

theorem KeepsUrls.observe (h : KeepsUrls n urls rest m) (o : Observation) :
    KeepsUrls n urls rest (m.observe o) := by
  obtain ⟨request, hurls, hcustody⟩ := h
  exact ⟨request, hurls, hcustody.observe o⟩

theorem KeepsUrls.setNic (h : KeepsUrls n urls rest m) (httpNic : HttpNic) :
    KeepsUrls n urls rest { m with httpNic := httpNic } := by
  obtain ⟨request, hurls, hcustody⟩ := h
  exact ⟨request, hurls, hcustody.zone, hcustody.pool⟩

theorem keepsUrls_result {r : Round} (h : KeepsUrls n urls rest r.before) :
    KeepsUrls n urls rest (r.result logic fw identity).machine := by
  by_cases hruns : r.runs
  · have hran : KeepsUrls n urls rest (r.ran logic fw identity).machine :=
      keepsUrls_runMainLogic logic fw identity
        (KeepsUrls.observe (KeepsUrls.setNic h _) _) r.calls
    rw [result_ran logic fw identity hruns]
    dsimp only
    rw [Round.unconfigured]
    split
    · exact KeepsUrls.observe hran _
    · exact hran
  · rw [result_skipped logic fw identity hruns]
    exact KeepsUrls.setNic h _

theorem keepsUrls_nicRounds (nics : List NicCalls) :
    ∀ (status : EfiStatus) (doneProcessing : Bool) {m : Machine}, KeepsUrls n urls rest m →
      (∀ r ∈ nicRounds logic fw identity nics doneProcessing m,
        KeepsUrls n urls rest r.before ∧
          KeepsUrls n urls rest (r.result logic fw identity).machine) ∧
      KeepsUrls n urls rest
        (tryNics logic fw identity nics status doneProcessing m).machine := by
  induction nics with
  | nil => exact fun status doneProcessing m h => ⟨fun r hr => absurd hr List.not_mem_nil, h⟩
  | cons nic nics ih =>
      intro status doneProcessing m h
      rw [nicRounds, tryNics]
      cases doneProcessing with
      | true => exact ⟨fun r hr => absurd hr List.not_mem_nil, h⟩
      | false =>
          have htried : KeepsUrls n urls rest
              (Round.result logic fw identity ⟨nic, m⟩).machine := keepsUrls_result _ _ _ h
          obtain ⟨hrounds, hend⟩ := ih (Round.result logic fw identity ⟨nic, m⟩).status
            (Round.result logic fw identity ⟨nic, m⟩).doneProcessing htried
          refine ⟨fun r hr => ?_, hend⟩
          rcases List.mem_cons.mp hr with rfl | hr
          · exact ⟨h, htried⟩
          · exact hrounds r hr

/-! ## The whole function -/

/-- The state behind the last pass, or behind the allocation of the handles where none is made. -/
def afterRounds (calls : TryEachNicCalls) (m : Machine) : Machine :=
  ((eachNicRounds logic fw identity calls m).getLast?.map fun r =>
    (r.result logic fw identity).machine).getD (withHandles m)

structure TriesEachNic (calls : TryEachNicCalls) (m : Machine) : Prop where
  /-- The interfaces are tried in the order of their handles. -/
  order : (eachNicRounds logic fw identity calls m).map Round.calls <+: calls.nics
  /-- The first pass starts behind the allocation of the handles. -/
  first : ∀ r, (eachNicRounds logic fw identity calls m)[0]? = some r → r.before = withHandles m
  /-- No pass follows one in which the processing was done, and a pass starts where the one before
  it ends. -/
  consecutive : ∀ i r next,
    (eachNicRounds logic fw identity calls m)[i]? = some r →
    (eachNicRounds logic fw identity calls m)[i + 1]? = some next →
      (r.result logic fw identity).doneProcessing = false ∧
        next.before = (r.result logic fw identity).machine
  /-- All handles that were found are tried unless the processing is done. -/
  complete : efiError calls.locateHandles = false →
    (eachNicRounds logic fw identity calls m).map Round.calls = calls.nics ∨
      ∃ r, (eachNicRounds logic fw identity calls m).getLast? = some r ∧
        (r.result logic fw identity).doneProcessing = true
  /-- No interface is tried where no handles are found. -/
  untried : efiError calls.locateHandles = true → eachNicRounds logic fw identity calls m = []
  rounds : ∀ r ∈ eachNicRounds logic fw identity calls m, RoundOk logic fw identity r
  /-- The status is that of the last interface tried, or says that there is none. -/
  status : (tryEachNicThenProcessRequest logic fw identity calls m).1 =
    ((eachNicRounds logic fw identity calls m).getLast?.map fun r =>
      (r.result logic fw identity).status).getD efiNotFound
  /-- What the passes left is left, with the handle buffer freed and the nic zone zeroed. -/
  machine : (tryEachNicThenProcessRequest logic fw identity calls m).2 =
    if efiError calls.locateHandles then { m with httpNic := {} }
    else
      { afterRounds logic fw identity calls m with
        pool := (afterRounds logic fw identity calls m).pool.release (some m.pool.next)
        httpNic := {} }
  zone : (tryEachNicThenProcessRequest logic fw identity calls m).2.httpNic = {}
  /-- The handle buffer is live before and after each pass, and not at the end. -/
  buffer : efiError calls.locateHandles = false →
    m.pool.next ∈ (withHandles m).pool.live ∧
    (∀ r ∈ eachNicRounds logic fw identity calls m,
      m.pool.next ∈ r.before.pool.live ∧
        m.pool.next ∈ (r.result logic fw identity).machine.pool.live) ∧
    m.pool.next ∉ (tryEachNicThenProcessRequest logic fw identity calls m).2.pool.live
  /-- Nothing is freed that is not live. -/
  faults : (tryEachNicThenProcessRequest logic fw identity calls m).2.pool.faults = m.pool.faults

def Sound (m : Machine) : Prop := Custody m.pool.faults m.httpRequest 0 m

theorem sound_of_custody {request : HttpRequest} (h : Custody n request rest m) : Sound m := by
  refine ⟨rfl, ⟨rfl, ?_⟩⟩
  rw [h.zone]
  refine le_trans ?_ h.pool.live
  gcongr
  exact Multiset.zero_le rest

theorem KeepsUrls.mem_live {b : Buffer} (h : KeepsUrls n urls (owned (some b) + rest) m) :
    b.address ∈ m.pool.live := by
  obtain ⟨request, -, hcustody⟩ := h
  apply Multiset.mem_of_le hcustody.pool.live
  simp

variable {logic fw identity} {calls : TryEachNicCalls}

theorem nicRounds_ne_nil {nics : List NicCalls} (h : nics ≠ []) (m : Machine) :
    nicRounds logic fw identity nics false m ≠ [] := by
  cases nics with
  | nil => exact absurd rfl h
  | cons nic nics =>
      rw [nicRounds, if_neg Bool.false_ne_true]
      exact List.cons_ne_nil _ _

theorem triesEachNic_none (h : efiError calls.locateHandles = true) :
    TriesEachNic logic fw identity calls m := by
  have hrounds : eachNicRounds logic fw identity calls m = [] := by rw [eachNicRounds, if_pos h]
  have hresult : tryEachNicThenProcessRequest logic fw identity calls m =
      (efiNotFound, freeHandles none m) := by rw [tryEachNicThenProcessRequest, if_pos h]
  constructor
  · rw [hrounds]
    exact List.nil_prefix
  · intro r hr
    rw [hrounds] at hr
    cases hr
  · intro i r next hr
    rw [hrounds] at hr
    cases hr
  · exact fun hok => absurd (hok.symm.trans h) Bool.false_ne_true
  · exact fun _ => hrounds
  · intro r hr
    rw [hrounds] at hr
    exact absurd hr List.not_mem_nil
  · rw [hresult, hrounds]
    rfl
  · rw [hresult, if_pos h]
    rfl
  · rw [hresult]
    rfl
  · exact fun hok => absurd (hok.symm.trans h) Bool.false_ne_true
  · rw [hresult]
    rfl

theorem eachNicRounds_some (hok : efiError calls.locateHandles = false) :
    eachNicRounds logic fw identity calls m =
      nicRounds logic fw identity calls.nics false (withHandles m) := by
  rw [eachNicRounds, if_neg (ne_true_of_eq_false hok)]

theorem tryEachNic_machine (hok : efiError calls.locateHandles = false) :
    (tryEachNicThenProcessRequest logic fw identity calls m).2 =
      freeHandles (some ⟨m.pool.next, []⟩) (tryNics logic fw identity calls.nics
        calls.locateHandles false (withHandles m)).machine := by
  obtain ⟨locateHandles, nics⟩ := calls
  rw [tryEachNicThenProcessRequest, if_neg (ne_true_of_eq_false hok)]
  cases nics <;> rfl

theorem tryNics_afterRounds (hok : efiError calls.locateHandles = false) :
    (tryNics logic fw identity calls.nics calls.locateHandles false (withHandles m)).machine =
      afterRounds logic fw identity calls m := by
  rw [afterRounds, eachNicRounds_some hok]
  exact (tryNics_last logic fw identity calls.nics calls.locateHandles false (withHandles m)).2

theorem tryEachNic_status (hok : efiError calls.locateHandles = false) :
    (tryEachNicThenProcessRequest logic fw identity calls m).1 =
      ((nicRounds logic fw identity calls.nics false (withHandles m)).getLast?.map fun r =>
        (r.result logic fw identity).status).getD efiNotFound := by
  obtain ⟨locateHandles, nics⟩ := calls
  rw [tryEachNicThenProcessRequest, if_neg (ne_true_of_eq_false hok)]
  cases nics with
  | nil => rfl
  | cons nic nics =>
      have hlast := (tryNics_last logic fw identity (nic :: nics) locateHandles false
        (withHandles m)).1
      obtain ⟨last, hgetLast⟩ := Option.ne_none_iff_exists'.mp
        (mt List.getLast?_eq_none_iff.mp
          (nicRounds_ne_nil (List.cons_ne_nil nic nics) (withHandles m)))
      rw [hgetLast] at hlast ⊢
      exact hlast

theorem triesEachNic_some (h : Sound m) (hok : efiError calls.locateHandles = false) :
    TriesEachNic logic fw identity calls m := by
  obtain ⟨buffer, hbuffer⟩ : ∃ buffer : Buffer, buffer = ⟨m.pool.next, []⟩ := ⟨_, rfl⟩
  have hrounds := @eachNicRounds_some logic fw identity m calls hok
  have hmachine := @tryEachNic_machine logic fw identity m calls hok
  have hcustody : KeepsUrls m.pool.faults (ownedRequest m.httpRequest) (owned (some buffer) + 0)
      (withHandles m) := by
    rw [hbuffer]
    exact ⟨m.httpRequest, rfl, h.setAside h.pool.grant⟩
  obtain ⟨hlive, hend⟩ := keepsUrls_nicRounds logic fw identity calls.nics calls.locateHandles
    false hcustody
  rw [← hbuffer] at hmachine
  have haddress : buffer.address = m.pool.next := by rw [hbuffer]
  constructor
  · rw [hrounds]
    exact nicRounds_calls logic fw identity calls.nics false (withHandles m)
  · intro r hr
    rw [hrounds] at hr
    exact (nicRounds_head logic fw identity hr).2
  · intro i r next hr hnext
    rw [hrounds] at hr hnext
    exact nicRounds_consecutive logic fw identity calls.nics hr hnext
  · intro _
    rw [hrounds]
    exact (nicRounds_complete logic fw identity calls.nics false (withHandles m)).imp_right
      fun hdone => hdone.resolve_left Bool.false_ne_true
  · exact fun herror => absurd (hok.symm.trans herror) Bool.false_ne_true
  · exact fun r _ => roundOk logic fw identity r
  · rw [hrounds]
    exact tryEachNic_status hok
  · rw [hmachine, if_neg (ne_true_of_eq_false hok), tryNics_afterRounds hok, hbuffer]
    rfl
  · rw [hmachine]
    rfl
  · intro _
    rw [hrounds, hmachine, ← haddress]
    exact ⟨KeepsUrls.mem_live hcustody, fun r hr =>
      ⟨KeepsUrls.mem_live (hlive r hr).1, KeepsUrls.mem_live (hlive r hr).2⟩,
      not_mem_release _ _⟩
  · obtain ⟨request, -, hend⟩ := hend
    rw [hmachine]
    exact (custody_freeHandles hend).pool.clean

end

/-! ## Callers -/

def check429State (url : List UInt8) : Machine :=
  { Machine.boot with
    pool := Ledger.empty.grant
    httpRequest := { url := some ⟨Ledger.empty.next, url⟩ } }

theorem sound_check429State (url : List UInt8) : Sound (check429State url) :=
  ⟨rfl, rfl, le_of_eq rfl⟩

theorem sound_initializeNetworkRequest (calls : InitializeCalls) (m : Machine)
    (h : ¬ efiError (initializeNetworkRequest calls m).1 = true) :
    Sound (initializeNetworkRequest calls m).2 := by
  have hbefore : Keeps m.pool.faults 0 m.pool := ⟨rfl, Multiset.zero_le _⟩
  exact sound_of_custody (custody_initializeNetworkRequest (leavesFreedUrl_of_ok h) hbefore)

/-- `ProcessDfciNetworkRequest` calls only after its certificate was installed as well. -/
theorem sound_enableDfciCertificate (ctx : Context) (calls : NetworkRequestCalls) {w : World}
    (hold : w.certificates.oldList = none)
    (h : ¬ efiError (initializeNetworkRequest calls.settings w.machine).1 = true) :
    Sound (enableDfciCertificate ctx calls.certificate
      { w with machine := (initializeNetworkRequest calls.settings w.machine).2 }).2.machine := by
  have hbefore : Keeps w.machine.pool.faults 0 w.machine.pool := ⟨rfl, Multiset.zero_le _⟩
  have hinitialized := custody_initializeNetworkRequest (leavesFreedUrl_of_ok h) hbefore
  exact sound_of_custody (holdsList_enableDfciCertificate
    (w := { w with machine := (initializeNetworkRequest calls.settings w.machine).2 })
    hinitialized hold ctx calls.certificate)

/-! ## Results -/

/-- For every main logic, every list of handles and every outcome of the calls made for them, from
every state in which the zones name what is live, `TryEachNICThenProcessRequest` does what is
intended. -/
theorem tryEachNic_ok (logic : MainLogicFunction) (fw : Firmware) (identity : Identity)
    (calls : TryEachNicCalls) {m : Machine} (h : Sound m) :
    TriesEachNic logic fw identity calls m := by
  cases hok : efiError calls.locateHandles with
  | true => exact triesEachNic_none hok
  | false => exact triesEachNic_some h hok

def aboutNic : Observation → Bool
  | .mainLogic _ => true
  | .unconfigured .. => true
  | _ => false

/-- The first interface has no media; the second gets an address but no answer, and its
configuration cannot be taken back whole; the third is answered, and the last is not tried. -/
def mixedNics : List NicCalls :=
  [{ handle := 7, mediaPresent := false },
    { handle := 8
      check429 :=
        { configure := { hasAddress := false }
          attempts := fun _ => { transfer := { issue := { request := efiDeviceError } } } }
      unconfigure := { setAddress := efiDeviceError } },
    { handle := 9 },
    { handle := 10 }]

example :
    let run := tryEachNicThenProcessRequest .check429Logic sampleContext.fw sampleContext.identity
      { nics := mixedNics } (check429State (ascii "http://h/return_429" ++ [0]))
    run.1 = efiSuccess ∧ run.2.log.filter aboutNic =
      [.mainLogic 8, .unconfigured 8 efiDeviceError [.policyStatic, .noManualAddress],
        .mainLogic 9] := by
  decide

theorem tryEachNic_ok_mixed :
    TriesEachNic .check429Logic sampleContext.fw sampleContext.identity { nics := mixedNics }
      (check429State (ascii "http://h/return_429" ++ [0])) :=
  tryEachNic_ok .check429Logic sampleContext.fw sampleContext.identity { nics := mixedNics }
    (sound_check429State _)

end MuTegra.Dfci.NicLoop
