/- Unit: MuTegra/Dfci/MainLogic
   source: NvidiaPkg/Applications/DfciMenu/DfciRequest.c, NvidiaPkg/Applications/DfciMenu/DfciCheck429.c
   digest: The main logics, and the loop that tries one on each network interface in turn. -/

import MuTegra.Dfci.Exchange
import MuTegra.Dfci.Update

set_option autoImplicit false
set_option relaxedAutoImplicit false

namespace MuTegra.Dfci.MainLogic

open MuTegra.Foundation.Ownership
open MuTegra.Uefi.Status
open MuTegra.Dfci.State MuTegra.Dfci.Transport MuTegra.Dfci.Exchange MuTegra.Dfci.Update

structure MainLogicCalls where
  bootstrapEncode : EfiStatus := efiSuccess
  bootstrap : AsyncCalls := {}
  bootstrapParse : ParseCalls := {}
  recoveryEncode : EfiStatus := efiSuccess
  recovery : AsyncCalls := {}
  recoveryParse : ParseCalls := {}

/-- The exchange of a phase and, when it succeeds, the processing of its response. -/
def exchangeAndUpdate (fw : Firmware) (url : Option Buffer) (state : LogicState)
    (responseTable : ResponseTable) (async : AsyncCalls) (parse : ParseCalls)
    (doneProcessing : Bool) (m : Machine) : Outcome :=
  let received := processAsyncRequest url async doneProcessing m
  if efiError received.status then received
  else
    let updated := dfciUpdateFromJson fw received.machine.httpResponse.body responseTable parse
      (received.machine.setLogicState state)
    ⟨updated.1, received.doneProcessing, updated.2⟩

def recoveryPhase (fw : Firmware) (identity : Identity) (calls : MainLogicCalls)
    (doneProcessing : Bool) (m : Machine) : Outcome :=
  let built := buildJsonRecoveryRequest fw identity calls.recoveryEncode m
  if efiError built.1 then ⟨built.1, doneProcessing, built.2.observe (.buildFailed built.1)⟩
  else
    let updated := exchangeAndUpdate fw built.2.httpRequest.url .recovery mRecoveryResponse
      calls.recovery calls.recoveryParse doneProcessing built.2
    if updated.status = efiSuccess ∨ updated.status = efiNotFound then
      ⟨efiSuccess, updated.doneProcessing, updated.machine.setLogicState .noRecoveryAvailable⟩
    else if updated.status = efiMediaChanged then
      ⟨efiMediaChanged, updated.doneProcessing, updated.machine.setLogicState .recoveryComplete⟩
    else updated

def dfciMainLogic (fw : Firmware) (identity : Identity) (calls : MainLogicCalls) (m : Machine) :
    Outcome :=
  let built := buildJsonBootstrapRequest fw identity calls.bootstrapEncode
    (m.setLogicState .preBootstrap)
  if efiError built.1 then ⟨built.1, false, built.2.observe (.buildFailed built.1)⟩
  else
    let updated := exchangeAndUpdate fw built.2.httpRequest.bootstrapUrl .bootstrap
      mRecoveryBootstrapResponse calls.bootstrap calls.bootstrapParse false built.2
    if updated.status = efiSuccess ∨ updated.status = efiNotFound then
      recoveryPhase fw identity calls updated.doneProcessing
        (updated.machine.setLogicState .preRecovery)
    else if updated.status = efiMediaChanged then
      ⟨efiMediaChanged, updated.doneProcessing, updated.machine.setLogicState .bootstrapComplete⟩
    else updated

/-- `DFCI_MAIN_LOGIC`: the functions that `MainLogic` is set to. -/
inductive MainLogicFunction where
  | simpleMainLogic
  | check429Logic
  | dfciMainLogic
  deriving DecidableEq

/-- `SimpleMainLogic`, which leaves `DoneProcessing` as it is. -/
def simpleMainLogic (doneProcessing : Bool) (m : Machine) : Outcome :=
  ⟨efiUnsupported, doneProcessing, m⟩

def check429Logic (calls : RetriesCalls) (m : Machine) : Outcome :=
  let sent := processHttpRequestWithRetries .get m.httpRequest.url false calls
    (m.setLogicState .check429)
  if efiError sent.1 then ⟨sent.1, false, sent.2⟩
  else ⟨sent.1, true, sent.2.setLogicState .check429Complete⟩

structure NicCalls where
  handle : ℕ := 0
  handleProtocol : EfiStatus := efiSuccess
  mediaPresent : Bool := true
  mainLogic : MainLogicCalls := {}
  check429 : RetriesCalls := {}
  unconfigure : UnconfigureNicCalls := {}

/-- `UnconfigureNIC` of the interface in the nic zone; its status is not looked at. -/
def unconfigureZone (calls : UnconfigureNicCalls) (m : Machine) : Machine :=
  match m.httpNic.nicHandle with
  | none => m
  | some handle =>
      let unconfigured := unconfigureNic calls
      m.observe (.unconfigured handle unconfigured.1 unconfigured.2)

theorem unconfigureZone_cases (calls : UnconfigureNicCalls) (m : Machine) :
    unconfigureZone calls m = m ∨ ∃ handle, unconfigureZone calls m =
      m.observe (.unconfigured handle (unconfigureNic calls).1 (unconfigureNic calls).2) := by
  unfold unconfigureZone
  cases m.httpNic.nicHandle with
  | none => exact Or.inl rfl
  | some handle => exact Or.inr ⟨handle, rfl⟩

variable (logic : MainLogicFunction) (fw : Firmware) (identity : Identity)

/-- A call of `MainLogic`, made while `DoneProcessing` is `FALSE`. -/
def runMainLogic (calls : NicCalls) (m : Machine) : Outcome :=
  match logic with
  | .simpleMainLogic => simpleMainLogic false m
  | .check429Logic => check429Logic calls.check429 m
  | .dfciMainLogic => dfciMainLogic fw identity calls.mainLogic m

/-- The main logic on an interface, and its unconfiguration when an address was requested. -/
def runOnNic (calls : NicCalls) (m : Machine) : Outcome :=
  let result := runMainLogic logic fw identity calls (m.observe (.mainLogic calls.handle))
  if result.machine.httpNic.dhcpRequested then
    ⟨result.status, result.doneProcessing, unconfigureZone calls.unconfigure result.machine⟩
  else result

def tryNic (calls : NicCalls) (m : Machine) : Outcome :=
  let cleaned := cleanupNetworkRequest cleanupNic m
  let m := { cleaned with httpNic := { cleaned.httpNic with nicHandle := some calls.handle } }
  if efiError calls.handleProtocol then ⟨calls.handleProtocol, false, m⟩
  else
    let m := { m with httpNic := { m.httpNic with httpSbProtocol := true } }
    if calls.mediaPresent = false then ⟨efiNoMedia, false, m⟩
    else runOnNic logic fw identity calls m

def tryNics : List NicCalls → EfiStatus → Bool → Machine → Outcome
  | [], status, doneProcessing, m => ⟨status, doneProcessing, m⟩
  | nic :: nics, status, doneProcessing, m =>
      if doneProcessing then ⟨status, doneProcessing, m⟩
      else
        let tried := tryNic logic fw identity nic m
        tryNics nics tried.status tried.doneProcessing tried.machine

/-- `locateHandles` is the status of `LocateHandleBuffer`, `nics` the handles it finds. -/
structure TryEachNicCalls where
  locateHandles : EfiStatus := efiSuccess
  nics : List NicCalls := []

def freeHandles (handleBuffer : Option Buffer) (m : Machine) : Machine :=
  cleanupNetworkRequest cleanupNic { m with pool := freeIfAny handleBuffer m.pool }

def tryEachNicThenProcessRequest (calls : TryEachNicCalls) (m : Machine) : EfiStatus × Machine :=
  if efiError calls.locateHandles then (efiNotFound, freeHandles none m)
  else
    let handleBuffer := allocatePool true [] m.pool
    let m := { m with pool := handleBuffer.2 }
    if calls.nics = [] then (efiNotFound, freeHandles handleBuffer.1 m)
    else
      let tried := tryNics logic fw identity calls.nics calls.locateHandles false m
      (tried.status, freeHandles handleBuffer.1 tried.machine)

end MuTegra.Dfci.MainLogic
