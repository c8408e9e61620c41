/- Unit: MuTegra/Dfci/Frees
   source: NvidiaPkg/Applications/DfciMenu/DfciRequest.c, NvidiaPkg/Applications/DfciMenu/DfciUpdate.c
   digest: When a whole request frees exactly what it owns. -/

import MuTegra.Dfci.Holdings
import MuTegra.Dfci.Mailbox
import MuTegra.Dfci.Restore
import MuTegra.Dfci.Trace

/-!
A setting that fails to be read after its buffer was allocated leaves a freed pointer in its slot,
and the cleanup at the end frees it again. Everything else that a request frees is its own.
-/

set_option autoImplicit false
set_option relaxedAutoImplicit false

namespace MuTegra.Dfci.Frees

open MuTegra.Foundation.Ownership
open MuTegra.Uefi.Status MuTegra.Uefi.Variables
open MuTegra.Dfci.State MuTegra.Dfci.Transport MuTegra.Dfci.Exchange MuTegra.Dfci.Update
open MuTegra.Dfci.MainLogic MuTegra.Dfci.Mailbox MuTegra.Dfci.Request MuTegra.Dfci.Settings
open MuTegra.Dfci.Restore MuTegra.Dfci.Holdings MuTegra.Dfci.Trace

variable {n : ℕ} {request : HttpRequest} {rest : Multiset ℕ} {m : Machine}

/-! ## Elements -/

theorem keeps_of_samePool {before after : Ledger} (h : Keeps n rest before)
    (same : SamePool before after) : Keeps n rest after :=
  ⟨same.faults.trans h.clean, same.live ▸ h.live⟩

theorem custody_freeString {string : StringValue}
    (h : Custody n request (owned (some string.buffer) + rest) m) :
    Custody n request rest (freeString string m) :=
  ⟨h.zone, keeps_freePool h.takeBack⟩

theorem custody_setMailbox {string : StringValue}
    (h : Custody n request (owned (some string.buffer) + rest) m)
    (entry : JsonSetVariableTableEntry) (calls : ElementCalls) :
    Custody n request rest (setMailbox entry string calls m).2 := by
  unfold Update.setMailbox
  dsimp only
  split
  · exact custody_freeString (h.observe _)
  · split
    · exact custody_freeString (h.observe _)
    · exact custody_freeString ⟨h.zone, h.pool⟩

theorem custody_storeMessage {string : StringValue}
    (h : Custody n request (owned (some string.buffer) + rest) m) (message : MessageSlot) :
    Custody n request rest (storeMessage message string m) := by
  refine Custody.of_le h.zone h.pool (owned (messageIn message m.httpStatus)) ?_
  cases message with
  | httpMessage =>
      change _ = ownedRequest request + (ownedResponse m.httpResponse +
        (owned (some string.buffer) + owned m.httpStatus.httpReturnCode + rest)) +
          owned m.httpStatus.httpMessage
      simp only [ownedStatus]
      abel
  | httpReturnCode =>
      change _ = ownedRequest request + (ownedResponse m.httpResponse +
        (owned m.httpStatus.httpMessage + owned (some string.buffer) + rest)) +
          owned m.httpStatus.httpReturnCode
      simp only [ownedStatus]
      abel

theorem custody_applyAction {string : StringValue}
    (h : Custody n request (owned (some string.buffer) + rest) m) (fw : Firmware)
    (action : JsonAction) (calls : ElementCalls) :
    Custody n request rest (applyAction fw action string calls m).2 := by
  cases action with
  | setVariable index => exact custody_setMailbox h _ calls
  | setReturnCode message => exact custody_storeMessage h message
  | setHttpMessage message => exact custody_storeMessage h message
  | other action => exact custody_freeString h

theorem custody_processFunction (h : Custody n request rest m) (fw : Firmware)
    (table : Option ResponseTable) (rqst : Option JsonRequestElement) (calls : ElementCalls) :
    Custody n request rest (processFunction fw table rqst calls m).2 := by
  rw [processFunction_eq]
  split
  · exact h
  · next target _ =>
      by_cases hfail : decodedPayload fw target.1 target.2 = none ∨ calls.allocated = false
      · obtain ⟨status, herror, hpool, -⟩ := decodeValue_error m.pool hfail
        rw [applyRow_error herror]
        exact ⟨h.zone, keeps_of_samePool h.pool hpool⟩
      · rw [not_or, Bool.not_eq_false] at hfail
        obtain ⟨payload, hpayload⟩ := Option.ne_none_iff_exists'.mp hfail.1
        obtain ⟨string, hok, hdec⟩ := decodeValue_ok m.pool hpayload hfail.2
        rw [applyRow_ok hok]
        apply custody_applyAction
        apply h.setAside
        rw [owned_some, hdec.address]
        exact h.pool.grant

theorem custody_processElements (fw : Firmware) (table : Option ResponseTable)
    (elements : List ElementRun) :
    ∀ {m : Machine}, Custody n request rest m →
      Custody n request rest (processElements fw table elements m).2 := by
  induction elements with
  | nil => exact fun h => h
  | cons e elements ih => exact fun h => ih (custody_processFunction h fw table e.1 e.2)

theorem custody_dfciUpdateFromJson (h : Custody n request rest m) (fw : Firmware)
    (jsonString : Option Buffer) (table : ResponseTable) (calls : ParseCalls) :
    Custody n request rest (dfciUpdateFromJson fw jsonString table calls m).2 := by
  rw [Update.dfciUpdateFromJson]
  exact (custody_processElements fw (some table) calls.elements (h.observe _)).observe _

/-! ## Phases -/

theorem custody_setLogicState (h : Custody n request rest m) (state : LogicState) :
    Custody n request rest (m.setLogicState state) := ⟨h.zone, h.pool⟩

theorem custody_exchangeAndUpdate (h : Custody n request rest m) (fw : Firmware)
    (url : Option Buffer) (state : LogicState) (table : ResponseTable) (async : AsyncCalls)
    (parse : ParseCalls) (doneProcessing : Bool) :
    Custody n request rest
      (exchangeAndUpdate fw url state table async parse doneProcessing m).machine := by
  have hreceived := h.processAsyncRequest url async doneProcessing
  rw [MainLogic.exchangeAndUpdate]
  dsimp only
  split
  · exact hreceived
  · exact custody_dfciUpdateFromJson (custody_setLogicState hreceived state) fw _ table parse

/-- Custody of a request zone that holds these urls, whatever its body. -/
def KeepsUrls (n : ℕ) (urls rest : Multiset ℕ) (m : Machine) : Prop :=
  ∃ request, ownedRequest request = urls ∧ Custody n request rest m

theorem custody_setRequestBody (h : Custody n request rest m) (body : Option Buffer)
    (bodySize : ℕ) :
    Custody n { request with body := body, bodySize := bodySize } rest
      (setRequestBody body bodySize m) := by
  refine ⟨?_, h.pool⟩
  rw [← h.zone]
  rfl

theorem buildJsonBootstrapRequest_error (fw : Firmware) (identity : Identity) {encode : EfiStatus}
    (m : Machine) (h : efiError encode = true) :
    buildJsonBootstrapRequest fw identity encode m = (encode, m) := by
  rw [buildJsonBootstrapRequest]
  dsimp only
  rw [if_pos h]

theorem buildJsonBootstrapRequest_status (fw : Firmware) (identity : Identity)
    (encode : EfiStatus) (m : Machine) :
    (buildJsonBootstrapRequest fw identity encode m).1 = encode := by
  rw [buildJsonBootstrapRequest]
  dsimp only
  split <;> rfl

/-- Custody of a request zone that holds these urls and a body, besides the body itself. -/
def SendsBody (n : ℕ) (urls rest : Multiset ℕ) (m : Machine) : Prop :=
  ∃ request, ownedRequest request = urls ∧ request.body ≠ none ∧
    Custody n request (owned request.body + rest) m

theorem sendsBody_buildJsonBootstrapRequest (h : Custody n request rest m) (fw : Firmware)
    (identity : Identity) {encode : EfiStatus} (hok : ¬ efiError encode = true) :
    SendsBody n (ownedRequest request) rest
      (buildJsonBootstrapRequest fw identity encode m).2 := by
  rw [buildJsonBootstrapRequest]
  dsimp only
  rw [if_neg hok]
  exact ⟨{ request with body := some ⟨m.pool.next, _⟩, bodySize := _ }, rfl, nofun,
    custody_setRequestBody (h.setAside h.pool.grant) _ _⟩

/-- The old body is never null when the recovery request is built after the bootstrap request. -/
theorem sendsBody_buildJsonRecoveryRequest (h : Custody n request rest m)
    (hbody : request.body ≠ none) (fw : Firmware) (identity : Identity) {encode : EfiStatus}
    (hok : ¬ efiError encode = true) :
    SendsBody n (ownedRequest request) rest
      (buildJsonRecoveryRequest fw identity encode m).2 := by
  rw [buildJsonRecoveryRequest]
  dsimp only
  rw [if_neg hok, if_neg (show ¬ m.httpRequest.body = none from h.zone ▸ hbody)]
  exact ⟨{ request with body := some ⟨m.pool.next, _⟩, bodySize := _ }, rfl, nofun,
    custody_setRequestBody (h.setAside h.pool.grant) _ _⟩

theorem buildJsonRecoveryRequest_error (fw : Firmware) (identity : Identity) {encode : EfiStatus}
    (m : Machine) (h : efiError encode = true) :
    buildJsonRecoveryRequest fw identity encode m = (encode, m) := by
  rw [buildJsonRecoveryRequest]
  dsimp only
  rw [if_pos h]

theorem buildJsonRecoveryRequest_status (fw : Firmware) (identity : Identity)
    (encode : EfiStatus) (m : Machine) :
    (buildJsonRecoveryRequest fw identity encode m).1 = encode := by
  rw [buildJsonRecoveryRequest]
  dsimp only
  split <;> rfl

/-! ## Exchanges -/

def bodies (exchanges : List AsyncRequest) : Multiset ℕ :=
  (exchanges.map fun e => owned e.before.httpRequest.body).sum

theorem bodies_append (es es' : List AsyncRequest) : bodies (es ++ es') = bodies es + bodies es' := by
  simp [bodies]

theorem body_le_bodies {e : AsyncRequest} {es : List AsyncRequest} (h : e ∈ es) :
    owned e.before.httpRequest.body ≤ bodies es := by
  obtain ⟨earlier, later, rfl⟩ := List.append_of_mem h
  rw [bodies_append]
  exact (Multiset.le_add_right _ (bodies later)).trans (Multiset.le_add_left _ _)

/-- Custody through a part of a run, before each of its exchanges and after it. Of the bodies that
were sent nothing is freed. -/
structure Accounts (n : ℕ) (urls rest : Multiset ℕ) (exchanges : List AsyncRequest)
    (after : Machine) : Prop where
  before : ∀ e ∈ exchanges, SendsBody n urls rest e.before
  after : KeepsUrls n urls (bodies exchanges + rest) after

variable {urls : Multiset ℕ} {es es' : List AsyncRequest} {m' : Machine}

theorem SendsBody.drop {aside : Multiset ℕ} (h : SendsBody n urls (aside + rest) m) :
    SendsBody n urls rest m := by
  obtain ⟨request, hurls, hbody, hcustody⟩ := h
  rw [add_left_comm] at hcustody
  exact ⟨request, hurls, hbody, hcustody.drop⟩

theorem accounts_nil (h : KeepsUrls n urls rest m) : Accounts n urls rest [] m :=
  ⟨fun _ he => absurd he List.not_mem_nil, by rwa [bodies, List.map_nil, List.sum_nil, zero_add]⟩

theorem Accounts.step (h : Accounts n urls rest es m)
    (hstep : ∀ {request : HttpRequest} {rest : Multiset ℕ}, Custody n request rest m →
      Custody n request rest m') : Accounts n urls rest es m' := by
  obtain ⟨request, hurls, hafter⟩ := h.after
  exact ⟨h.before, request, hurls, hstep hafter⟩

/-- More exchanges may follow; for them the bodies of the earlier ones are set aside. -/
theorem Accounts.append (h : Accounts n urls rest es m)
    (h' : Accounts n urls (bodies es + rest) es' m') : Accounts n urls rest (es ++ es') m' := by
  constructor
  · intro e he
    rcases List.mem_append.mp he with he | he
    · exact h.before e he
    · exact (h'.before e he).drop
  · rw [bodies_append, add_comm (bodies es), add_assoc]
    exact h'.after

theorem accounts_exchangeAndUpdate (h : SendsBody n urls rest m) (fw : Firmware)
    (url : Option Buffer) (state : LogicState) (table : ResponseTable) (async : AsyncCalls)
    (parse : ParseCalls) (doneProcessing : Bool) :
    Accounts n urls rest [⟨url, async, doneProcessing, m⟩]
        (exchangeAndUpdate fw url state table async parse doneProcessing m).machine ∧
      ∃ request, ownedRequest request = urls ∧ request.body ≠ none ∧
        Custody n request (bodies [⟨url, async, doneProcessing, m⟩] + rest)
          (exchangeAndUpdate fw url state table async parse doneProcessing m).machine := by
  have hbefore := h
  obtain ⟨request, hurls, hbody, hcustody⟩ := h
  have hafter := custody_exchangeAndUpdate hcustody fw url state table async parse doneProcessing
  have hsent : bodies [⟨url, async, doneProcessing, m⟩] = owned request.body := by
    rw [← hcustody.zone]
    exact add_zero _
  rw [← hsent] at hafter
  refine ⟨⟨fun e he => ?_, request, hurls, hafter⟩, request, hurls, hbody, hafter⟩
  rw [List.mem_singleton.mp he]
  exact hbefore

theorem accounts_recoveryPhase (h : Custody n request rest m) (hbody : request.body ≠ none)
    (fw : Firmware) (identity : Identity) (calls : MainLogicCalls) (doneProcessing : Bool) :
    Accounts n (ownedRequest request) rest (recoveryExchanges fw identity calls doneProcessing m)
      (recoveryPhase fw identity calls doneProcessing m).machine := by
  rw [recoveryPhase, recoveryExchanges]
  dsimp only
  rw [buildJsonRecoveryRequest_status]
  split
  · next herror =>
      rw [buildJsonRecoveryRequest_error fw identity m herror]
      exact accounts_nil ⟨request, rfl, h.observe _⟩
  · next hok =>
      have hbuilt := sendsBody_buildJsonRecoveryRequest h hbody fw identity hok
      obtain ⟨hupdated, -⟩ := accounts_exchangeAndUpdate hbuilt fw
        (buildJsonRecoveryRequest fw identity calls.recoveryEncode m).2.httpRequest.url .recovery
        mRecoveryResponse calls.recovery calls.recoveryParse doneProcessing
      split
      · exact hupdated.step fun hc => custody_setLogicState hc _
      · split
        · exact hupdated.step fun hc => custody_setLogicState hc _
        · exact hupdated

theorem accounts_dfciMainLogic (h : Custody n request rest m) (fw : Firmware)
    (identity : Identity) (calls : MainLogicCalls) :
    Accounts n (ownedRequest request) rest (mainLogicExchanges fw identity calls m)
      (dfciMainLogic fw identity calls m).machine := by
  have hstart := custody_setLogicState h .preBootstrap
  rw [dfciMainLogic, mainLogicExchanges]
  dsimp only
  rw [buildJsonBootstrapRequest_status]
  split
  · next herror =>
      rw [buildJsonBootstrapRequest_error fw identity _ herror]
      exact accounts_nil ⟨request, rfl, hstart.observe _⟩
  · next hok =>
      have hbuilt := sendsBody_buildJsonBootstrapRequest hstart fw identity hok
      obtain ⟨hupdated, request', hurls, hbody, hcustody⟩ := accounts_exchangeAndUpdate hbuilt fw
        (buildJsonBootstrapRequest fw identity calls.bootstrapEncode
          (m.setLogicState .preBootstrap)).2.httpRequest.bootstrapUrl .bootstrap
        mRecoveryBootstrapResponse calls.bootstrap calls.bootstrapParse false
      split
      · refine hupdated.append ?_
        rw [← hurls]
        exact accounts_recoveryPhase (custody_setLogicState hcustody _) hbody fw identity calls _
      · split
        · exact hupdated.step fun hc => custody_setLogicState hc _
        · exact hupdated

/-! ## Network interfaces -/

theorem custody_unconfigureZone (h : Custody n request rest m) (calls : UnconfigureNicCalls) :
    Custody n request rest (unconfigureZone calls m) := by
  rcases unconfigureZone_cases calls m with heq | ⟨handle, heq⟩
  · rwa [heq]
  · rw [heq]
    exact h.observe _

theorem accounts_tryNic (h : Custody n request rest m) (fw : Firmware) (identity : Identity)
    (calls : NicCalls) :
    Accounts n (ownedRequest request) rest (nicExchanges fw identity calls m)
      (tryNic .dfciMainLogic fw identity calls m).machine := by
  rw [tryNic, nicExchanges]
  dsimp only
  rw [cleanupNetworkRequest_nic]
  split
  · exact accounts_nil ⟨request, rfl, h.zone, h.pool⟩
  · split
    · exact accounts_nil ⟨request, rfl, h.zone, h.pool⟩
    · rw [runOnNic]
      dsimp only
      have hstart : Custody n request rest
          { m with
            httpNic := { nicHandle := some calls.handle, httpSbProtocol := true } } :=
        ⟨h.zone, h.pool⟩
      have hrun := accounts_dfciMainLogic (hstart.observe (.mainLogic calls.handle)) fw identity
        calls.mainLogic
      split
      · exact hrun.step fun hc => custody_unconfigureZone hc calls.unconfigure
      · exact hrun

theorem accounts_tryNics (fw : Firmware) (identity : Identity) (nics : List NicCalls) :
    ∀ (status : EfiStatus) (doneProcessing : Bool) {rest : Multiset ℕ} {m : Machine},
      KeepsUrls n urls rest m →
        Accounts n urls rest (nicsExchanges fw identity nics doneProcessing m)
          (tryNics .dfciMainLogic fw identity nics status doneProcessing m).machine := by
  induction nics with
  | nil => exact fun status doneProcessing rest m h => accounts_nil h
  | cons nic nics ih =>
      intro status doneProcessing rest m h
      rw [tryNics, nicsExchanges]
      split
      · exact accounts_nil h
      · obtain ⟨request, hurls, hcustody⟩ := h
        have htried := accounts_tryNic hcustody fw identity nic
        rw [hurls] at htried
        exact htried.append (ih _ _ htried.after)

theorem custody_freeHandles {handles : Option Buffer}
    (h : Custody n request (owned handles + rest) m) :
    Custody n request rest (freeHandles handles m) := ⟨h.zone, keeps_freeIfAny h.takeBack⟩

theorem accounts_freeHandles {handles : Option Buffer}
    (h : Accounts n urls (owned handles + rest) es m) :
    Accounts n urls rest es (freeHandles handles m) := by
  obtain ⟨request, hurls, hafter⟩ := h.after
  rw [add_left_comm] at hafter
  exact ⟨fun e he => (h.before e he).drop, request, hurls, custody_freeHandles hafter⟩

theorem accounts_tryEachNic (h : Custody n request rest m) (fw : Firmware)
    (identity : Identity) (calls : TryEachNicCalls) :
    Accounts n (ownedRequest request) rest (tryEachNicExchanges fw identity calls m)
      (tryEachNicThenProcessRequest .dfciMainLogic fw identity calls m).2 := by
  have hunallocated : Custody n request (owned none + rest) m := by
    rw [owned_none, zero_add]
    exact h
  rw [tryEachNicThenProcessRequest, tryEachNicExchanges]
  split
  · exact accounts_nil ⟨request, rfl, custody_freeHandles hunallocated⟩
  · dsimp only
    have hhandles := h.setAside (keeps_allocatePool h.pool true [])
    split
    · next hnone =>
        rw [hnone]
        exact accounts_nil ⟨request, rfl, custody_freeHandles hhandles⟩
    · have htried := accounts_tryNics fw identity calls.nics calls.locateHandles false
        ⟨request, rfl, hhandles⟩
      exact accounts_freeHandles htried

/-! ## Certificates -/

def HoldsList (n : ℕ) (request : HttpRequest) (rest : Multiset ℕ) (w : World) : Prop :=
  Custody n request (owned w.certificates.oldList + rest) w.machine

variable {w : World}

theorem custody_restoreCertificates (h : HoldsList n request rest w) (status : EfiStatus) :
    Custody n request rest (restoreCertificates status w).machine := by
  unfold HoldsList at h
  rw [restoreCertificates]
  split
  · next hnone =>
      rw [hnone] at h
      exact h.drop
  · next list hsome =>
      rw [hsome] at h
      exact ⟨h.zone, keeps_freePool h.takeBack⟩

theorem restoreCertificates_oldList (status : EfiStatus) (w : World) :
    (restoreCertificates status w).certificates.oldList = none := by
  rw [restoreCertificates_certificates, restored_oldList]

theorem holdsList_restoreCertificates (h : HoldsList n request rest w) (status : EfiStatus) :
    HoldsList n request rest (restoreCertificates status w) := by
  rw [HoldsList, restoreCertificates_oldList, owned_none, zero_add]
  exact custody_restoreCertificates h status

theorem holdsList_freePool {b : Buffer} (h : HoldsList n request (owned (some b) + rest) w) :
    HoldsList n request rest
      { w with machine := { w.machine with pool := freePool (some b) w.machine.pool } } := by
  refine ⟨h.zone, keeps_freePool ?_⟩
  refine h.pool.mono (le_of_eq ?_)
  abel

theorem holdsList_installCertificate (h : HoldsList n request rest w) (ctx : Context)
    (calls : EnableCertificateCalls) :
    HoldsList n request rest (installCertificate ctx calls w).2 := by
  rw [installCertificate]
  split
  · exact h
  · dsimp only
    have hcert : HoldsList n request
        (owned (some ⟨w.machine.pool.next, dfciCertificateList ctx⟩) + rest)
        { w with machine := { w.machine with pool := w.machine.pool.grant } } := by
      refine Custody.of_le h.zone h.pool.grant 0 ?_
      rw [owned_some]
      abel
    apply holdsList_freePool
    split
    · exact holdsList_restoreCertificates hcert _
    · exact hcert

theorem noteOldCertificate_oldList (calls : EnableCertificateCalls) (c : Certificates) :
    (noteOldCertificate calls c).oldList = c.oldList := by
  rw [noteOldCertificate]
  split
  · split <;> rfl
  · rfl

theorem writeCertificate_oldList (status : EfiStatus) (value : Option Variable)
    (c : Certificates) : (writeCertificate status value c).oldList = c.oldList := by
  rw [writeCertificate]
  split <;> rfl

theorem holdsList_saveOldCertificate {list : Buffer}
    (h : Custody n request (owned (some list) + rest) w.machine)
    (hold : w.certificates.oldList = none) (calls : EnableCertificateCalls) :
    HoldsList n request rest (saveOldCertificate calls (some list) w) := by
  rw [saveOldCertificate]
  split
  · rw [HoldsList, hold, owned_none, zero_add]
    exact ⟨h.zone, keeps_freePool h.takeBack⟩
  · exact h

theorem holdsList_enableDfciCertificate (h : Custody n request rest w.machine)
    (hold : w.certificates.oldList = none) (ctx : Context) (calls : EnableCertificateCalls) :
    HoldsList n request rest (enableDfciCertificate ctx calls w).2 := by
  have hnone : HoldsList n request rest w := by
    rw [HoldsList]
    rwa [hold, owned_none, zero_add]
  rw [enableDfciCertificate]
  dsimp only
  split
  · exact holdsList_installCertificate hnone ctx calls
  · split
    · rw [HoldsList, noteOldCertificate_oldList]
      exact hnone
    · apply holdsList_installCertificate
      rw [HoldsList, writeCertificate_oldList]
      apply holdsList_saveOldCertificate
      · exact h.setAside h.pool.grant
      · exact (noteOldCertificate_oldList _ _).trans hold

/-! ## Whole requests -/

def messageBuffer (message : Option Message) : Option Buffer := message.map Prod.snd

theorem custody_assembleMessage (h : Custody n request rest m) (calls : MessageCalls)
    (status : EfiStatus) :
    Custody n request (owned (messageBuffer (assembleMessage calls status m).1) + rest)
      (assembleMessage calls status m).2 := by
  have hnone : Custody n request (owned none + rest) m := by rwa [owned_none, zero_add]
  rw [assembleMessage, printMessage]
  split
  · exact hnone
  · have hmsg := h.setAside h.pool.grant
    split
    · refine ⟨h.zone, Keeps.release ?_⟩
      rw [messageBuffer, Option.map_none, owned_none, zero_add]
      exact hmsg.takeBack
    · exact hmsg

theorem keeps_exitNetworkRequest (h : HoldsList n request rest w) (calls : NetworkRequestCalls)
    (status : EfiStatus) (message : Option Message) :
    Keeps n rest (exitNetworkRequest calls status message w).world.machine.pool :=
  (custody_restoreCertificates h calls.restore).cleanupAll

theorem keeps_tryAndReport (h : HoldsList n request rest w) (ctx : Context)
    (calls : NetworkRequestCalls) :
    Keeps n (owned (messageBuffer (tryAndReport ctx calls w).message) +
        (bodies (tryEachNicExchanges ctx.fw ctx.identity calls.nics w.machine) + rest))
      (tryAndReport ctx calls w).world.machine.pool := by
  obtain ⟨request', -, htried⟩ := (accounts_tryEachNic h ctx.fw ctx.identity calls.nics).after
  have hreported := custody_assembleMessage htried calls.message
    (tryEachNicThenProcessRequest .dfciMainLogic ctx.fw ctx.identity calls.nics w.machine).1
  have hheld : HoldsList n request' (owned (messageBuffer (assembleMessage calls.message
        (tryEachNicThenProcessRequest .dfciMainLogic ctx.fw ctx.identity calls.nics w.machine).1
        (tryEachNicThenProcessRequest .dfciMainLogic ctx.fw ctx.identity calls.nics w.machine).2).1) +
      (bodies (tryEachNicExchanges ctx.fw ctx.identity calls.nics w.machine) + rest))
      { w with
        machine := (assembleMessage calls.message
          (tryEachNicThenProcessRequest .dfciMainLogic ctx.fw ctx.identity calls.nics w.machine).1
          (tryEachNicThenProcessRequest .dfciMainLogic ctx.fw ctx.identity calls.nics w.machine).2).2 } := by
    refine Custody.of_le hreported.zone hreported.pool 0 ?_
    abel
  exact keeps_exitNetworkRequest hheld calls _ _

/-- A request whose settings leave custody of their slots frees only what it owns, and no body of
an exchange. -/
theorem keeps_processDfciNetworkRequest {calls : NetworkRequestCalls}
    (h : Custody n request rest (initializeNetworkRequest calls.settings w.machine).2)
    (hold : w.certificates.oldList = none) (ctx : Context) :
    Keeps n (owned (messageBuffer (processDfciNetworkRequest ctx calls w).message) +
        (bodies (requestExchanges ctx calls w) + rest))
      (processDfciNetworkRequest ctx calls w).world.machine.pool := by
  have hinitialized : HoldsList n request rest
      { w with machine := (initializeNetworkRequest calls.settings w.machine).2 } := by
    rw [HoldsList]
    rwa [hold, owned_none, zero_add]
  have hfailed : ∀ (status : EfiStatus) {w' : World}, HoldsList n request rest w' →
      Keeps n (owned (messageBuffer (exitNetworkRequest calls status none w').message) +
          (bodies [] + rest))
        (exitNetworkRequest calls status none w').world.machine.pool := by
    intro status w' h'
    have hmessage : messageBuffer (exitNetworkRequest calls status none w').message = none := rfl
    have hbodies : bodies [] = 0 := rfl
    rw [hmessage, owned_none, hbodies, zero_add, zero_add]
    exact keeps_exitNetworkRequest h' calls status none
  rw [processDfciNetworkRequest, requestExchanges]
  dsimp only
  split
  · exact hfailed _ hinitialized
  · have henabled := holdsList_enableDfciCertificate
      (w := { w with machine := (initializeNetworkRequest calls.settings w.machine).2 }) h hold ctx
      calls.certificate
    split
    · exact hfailed _ henabled
    · exact keeps_tryAndReport henabled ctx calls

/-! ## The url slots -/

/-- A url setting fails to be read after its buffer was allocated. -/
def leavesFreedUrl (located : Bool) (calls : InitializeCalls) : Bool :=
  failsAfterAllocation located calls.recoveryUrl ||
    (!readFails located calls.recoveryUrl && decide (1 < calls.recoveryUrl.data.length) &&
      failsAfterAllocation true calls.bootstrapUrl)

def SlotOk (slot : Option Buffer) (m : Machine) : Prop :=
  ∀ b, slot = some b → b.address ∈ m.pool.live

/-- What is intended of the buffers in a request: no wrong release, everything that was live
before is live after it besides the message, and the url slots are null or live when the cleanup
may run. -/
structure FreesOwn (ctx : Context) (calls : NetworkRequestCalls) (w : World) : Prop where
  faults : (processDfciNetworkRequest ctx calls w).world.machine.pool.faults =
    w.machine.pool.faults
  kept : owned (messageBuffer (processDfciNetworkRequest ctx calls w).message) +
      w.machine.pool.live ≤ (processDfciNetworkRequest ctx calls w).world.machine.pool.live
  url : SlotOk (initializeNetworkRequest calls.settings w.machine).2.httpRequest.url
    (initializeNetworkRequest calls.settings w.machine).2
  bootstrapUrl : SlotOk (initializeNetworkRequest calls.settings w.machine).2.httpRequest.bootstrapUrl
    (initializeNetworkRequest calls.settings w.machine).2

variable {calls : InitializeCalls}

/-- A setting that does not fail after its allocation leaves a slot that is null or owned. -/
theorem keeps_dfciGetASetting {calls : GetASettingCalls}
    (h : failsAfterAllocation m.settingAccess calls = false) (hpool : Keeps n rest m.pool) :
    Keeps n (owned (dfciGetASetting calls m).value + rest)
      (dfciGetASetting calls m).machine.pool := by
  rcases readFails_cases m.settingAccess calls with hread | hread | hread
  · obtain ⟨-, hvalue, hsame⟩ := dfciGetASetting_noBuffer hread
    rw [hvalue, hsame, owned_none, zero_add]
    exact hpool
  · rw [h] at hread
    cases hread
  · rw [(dfciGetASetting_ok hread).2]
    exact hpool.grant

theorem dfciGetASetting_machine (calls : GetASettingCalls) (m : Machine) :
    ∃ access, (dfciGetASetting calls m).machine =
      { m with pool := (dfciGetASetting calls m).machine.pool, settingAccess := access } := by
  rw [dfciGetASetting, readSetting]
  split
  · exact ⟨_, rfl⟩
  · dsimp only
    split
    · exact ⟨true, rfl⟩
    · split
      · exact ⟨true, rfl⟩
      · split
        · exact ⟨true, rfl⟩
        · split <;> exact ⟨true, rfl⟩

theorem custody_of_urls (url bootstrapUrl : Option Buffer) (hzone : m.httpRequest.url = url)
    (hzone' : m.httpRequest.bootstrapUrl = bootstrapUrl) (hresponse : m.httpResponse = {})
    (hstatus : m.httpStatus = {})
    (h : Keeps n (owned bootstrapUrl + (owned url + rest)) m.pool) :
    Custody n m.httpRequest rest m := by
  refine Custody.of_le rfl h 0 ?_
  rw [ownedRequest, hzone, hzone', hresponse, hstatus]
  change _ = owned url + owned bootstrapUrl + (0 + (0 + rest)) + 0
  abel

theorem custody_readBootstrapUrl (hresponse : m.httpResponse = {}) (hstatus : m.httpStatus = {})
    (haccess : failsAfterAllocation m.settingAccess calls.bootstrapUrl = false)
    (hpool : Keeps n (owned m.httpRequest.url + rest) m.pool) :
    Custody n (readBootstrapUrl calls m).2.httpRequest rest (readBootstrapUrl calls m).2 := by
  have hslot := keeps_dfciGetASetting haccess hpool
  obtain ⟨access, hmachine⟩ := dfciGetASetting_machine calls.bootstrapUrl m
  refine custody_of_urls m.httpRequest.url (dfciGetASetting calls.bootstrapUrl m).value
    ?_ rfl ?_ ?_ hslot
  · rw [readBootstrapUrl, hmachine]
  · rw [readBootstrapUrl, hmachine]
    exact hresponse
  · rw [readBootstrapUrl, hmachine]
    exact hstatus

theorem custody_exit (hexit : readFails m.settingAccess calls.recoveryUrl = true ∨
      calls.recoveryUrl.data.length ≤ 1)
    (haccess : failsAfterAllocation m.settingAccess calls.recoveryUrl = false)
    (hpool : Keeps n rest m.pool) :
    Custody n (initializeNetworkRequest calls m).2.httpRequest rest
      (initializeNetworkRequest calls m).2 := by
  rw [initializeNetworkRequest_eq_exit hexit]
  have hurl := keeps_dfciGetASetting (m := cleanupNetworkRequest clearAll m) haccess hpool
  obtain ⟨access, hmachine⟩ := dfciGetASetting_machine calls.recoveryUrl
    (cleanupNetworkRequest clearAll m)
  refine custody_of_urls (dfciGetASetting calls.recoveryUrl
    (cleanupNetworkRequest clearAll m)).value none rfl ?_ ?_ ?_ ?_
  · dsimp only
    rw [hmachine]
    rfl
  · dsimp only
    rw [hmachine]
    rfl
  · dsimp only
    rw [hmachine]
    rfl
  · rw [owned_none, zero_add]
    exact hurl

theorem custody_initializeNetworkRequest (h : leavesFreedUrl m.settingAccess calls = false)
    (hpool : Keeps n rest m.pool) :
    Custody n (initializeNetworkRequest calls m).2.httpRequest rest
      (initializeNetworkRequest calls m).2 := by
  rw [leavesFreedUrl, Bool.or_eq_false_iff] at h
  by_cases hexit : readFails m.settingAccess calls.recoveryUrl = true ∨
      calls.recoveryUrl.data.length ≤ 1
  · exact custody_exit hexit h.1 hpool
  · rw [not_or, Bool.not_eq_true, not_le] at hexit
    have hbootstrap : failsAfterAllocation true calls.bootstrapUrl = false := by
      simpa [hexit.1, hexit.2] using h.2
    rw [initializeNetworkRequest_eq_readBootstrapUrl hexit.1 hexit.2]
    apply custody_readBootstrapUrl
    · rfl
    · rfl
    · exact hbootstrap
    · exact hpool.grant

theorem slotOk_of_le {slot : Option Buffer} (h : owned slot ≤ m.pool.live) : SlotOk slot m := by
  rintro b rfl
  exact Multiset.mem_of_le h (Multiset.mem_singleton_self _)

def FreedUrl (m : Machine) : Prop :=
  (∃ b, m.httpRequest.url = some b ∧ b.address ∉ m.pool.live) ∨
    ∃ b, m.httpRequest.bootstrapUrl = some b ∧ b.address ∉ m.pool.live

theorem freedUrl_initializeNetworkRequest (h : leavesFreedUrl m.settingAccess calls = true) :
    FreedUrl (initializeNetworkRequest calls m).2 ∧
      (initializeNetworkRequest calls m).2.pool.faults = m.pool.faults ∧
      efiError (initializeNetworkRequest calls m).1 = true := by
  rw [leavesFreedUrl, Bool.or_eq_true] at h
  rcases h with hrecovery | hbootstrap
  · have hfails : readFails m.settingAccess calls.recoveryUrl = true := by
      rw [failsAfterAllocation, Bool.and_eq_true] at hrecovery
      rw [readFails, hrecovery.2, Bool.or_true]
    obtain ⟨herror, hvalue, hpool⟩ := dfciGetASetting_badContents
      (m := cleanupNetworkRequest clearAll m) hrecovery
    rw [initializeNetworkRequest_eq_exit (.inl hfails)]
    refine ⟨.inl ⟨_, hvalue, ?_⟩, ?_, herror⟩
    · dsimp only
      rw [hpool]
      exact not_mem_release _ _
    · dsimp only
      rw [hpool, release_grant_faults]
      rfl
  · simp only [Bool.and_eq_true, Bool.not_eq_true', decide_eq_true_eq] at hbootstrap
    obtain ⟨⟨hok, hlen⟩, hbootstrap⟩ := hbootstrap
    rw [initializeNetworkRequest_eq_readBootstrapUrl hok hlen, readBootstrapUrl]
    generalize hread : ({ cleanupNetworkRequest clearAll m with
        pool := m.pool.grant
        settingAccess := true
        httpRequest :=
          { url := some ⟨m.pool.next, calls.recoveryUrl.data⟩
            urlSize := calls.recoveryUrl.data.length } } : Machine) = read
    have haccess : failsAfterAllocation read.settingAccess calls.bootstrapUrl = true := by
      rw [← hread]
      exact hbootstrap
    obtain ⟨herror, hvalue, hpool⟩ := dfciGetASetting_badContents haccess
    refine ⟨.inr ⟨_, hvalue, ?_⟩, ?_, herror⟩
    · dsimp only
      rw [hpool]
      exact not_mem_release _ _
    · dsimp only
      rw [hpool, release_grant_faults, ← hread]
      rfl

theorem faults_lt_freeIfAny {pool : Ledger} {b : Buffer} (h : b.address ∉ pool.live) :
    pool.faults < (freeIfAny (some b) pool).faults := faults_lt_release h

theorem faults_lt_cleanupAll (h : FreedUrl m) :
    m.pool.faults < (cleanupNetworkRequest cleanupAll m).pool.faults := by
  have hurls : m.pool.faults <
      (freeIfAny m.httpRequest.bootstrapUrl (freeIfAny m.httpRequest.url m.pool)).faults := by
    rcases h with ⟨b, hslot, hfreed⟩ | ⟨b, hslot, hfreed⟩
    · rw [hslot]
      exact (faults_lt_freeIfAny hfreed).trans_le (faults_le_releaseIfAny _ _)
    · rw [hslot]
      have hstill : b.address ∉ (freeIfAny m.httpRequest.url m.pool).live := by
        exact fun hmem => hfreed (Multiset.mem_of_le (releaseIfAny_live_le _ _) hmem)
      exact (faults_le_releaseIfAny m.pool _).trans_lt (faults_lt_freeIfAny hstill)
  apply hurls.trans_le
  change _ ≤ (freeIfAny m.httpStatus.httpReturnCode (freeIfAny m.httpStatus.httpMessage
    (httpFreeHeaderFields m.httpResponse.headers (freeIfAny m.httpResponse.body
      (freeIfAny m.httpRequest.bootstrapUrl (freeIfAny m.httpRequest.url m.pool)))))).faults
  apply le_trans _ (faults_le_releaseIfAny _ _)
  apply le_trans _ (faults_le_releaseIfAny _ _)
  apply le_trans _ (faults_le_releaseAll _ _)
  exact faults_le_releaseIfAny _ _

theorem leavesFreedUrl_of_ok {calls : InitializeCalls} {m : Machine}
    (h : ¬ efiError (initializeNetworkRequest calls m).1 = true) :
    leavesFreedUrl m.settingAccess calls = false := by
  by_contra hleaves
  rw [Bool.not_eq_false] at hleaves
  exact h (freedUrl_initializeNetworkRequest hleaves).2.2

/-- In every run each exchange starts with custody of its zones and a body of its own: a request
whose initialisation leaves a freed url makes none. -/
theorem sendsBody_requestExchanges (ctx : Context) (calls : NetworkRequestCalls) {w : World}
    (hold : w.certificates.oldList = none) :
    ∀ e ∈ requestExchanges ctx calls w, ∃ urls rest,
      SendsBody w.machine.pool.faults urls rest e.before := by
  rw [requestExchanges]
  dsimp only
  split
  · exact fun e he => absurd he List.not_mem_nil
  · next hok =>
      have hbefore : Keeps w.machine.pool.faults 0 w.machine.pool := ⟨rfl, Multiset.zero_le _⟩
      have hinitialized := custody_initializeNetworkRequest (leavesFreedUrl_of_ok hok) hbefore
      have henabled := holdsList_enableDfciCertificate
        (w := { w with machine := (initializeNetworkRequest calls.settings w.machine).2 })
        hinitialized hold ctx calls.certificate
      split
      · exact fun e he => absurd he List.not_mem_nil
      · intro e he
        exact ⟨_, _, (accounts_tryEachNic henabled ctx.fw ctx.identity calls.nics).before e he⟩

theorem faults_lt_processDfciNetworkRequest {calls : NetworkRequestCalls} {w : World}
    (h : leavesFreedUrl w.machine.settingAccess calls.settings = true)
    (hold : w.certificates.oldList = none) (ctx : Context) :
    w.machine.pool.faults <
      (processDfciNetworkRequest ctx calls w).world.machine.pool.faults := by
  obtain ⟨hfreed, hfaults, herror⟩ := freedUrl_initializeNetworkRequest h
  rw [processDfciNetworkRequest]
  dsimp only
  rw [if_pos herror, ← hfaults]
  rw [exitNetworkRequest, restoreCertificates]
  dsimp only
  rw [hold]
  exact faults_lt_cleanupAll hfreed

/-- A request frees exactly what it owns if and only if no url setting fails to be read after its
buffer was allocated. -/
theorem freesOwn_iff (ctx : Context) (certificate : Option Variable)
    (earlier : List NetworkRequestCalls) (calls : NetworkRequestCalls) :
    FreesOwn ctx calls (processRequests ctx earlier (World.boot certificate)) ↔
      leavesFreedUrl (processRequests ctx earlier (World.boot certificate)).machine.settingAccess
        calls.settings = false := by
  have hold := processRequests_oldList ctx earlier (World.boot certificate) rfl
  generalize processRequests ctx earlier (World.boot certificate) = w at hold ⊢
  constructor
  · intro h
    by_contra hleaves
    rw [Bool.not_eq_false] at hleaves
    have := faults_lt_processDfciNetworkRequest hleaves hold ctx
    rw [h.faults] at this
    exact lt_irrefl _ this
  · intro h
    have hbefore : Keeps w.machine.pool.faults w.machine.pool.live w.machine.pool :=
      ⟨rfl, le_rfl⟩
    have hinitialized := custody_initializeNetworkRequest h hbefore
    have hafter := keeps_processDfciNetworkRequest hinitialized hold ctx
    have hurls := (Multiset.le_add_right _ _).trans hinitialized.pool.live
    refine ⟨hafter.clean, le_trans ?_ hafter.live, ?_, ?_⟩
    · exact add_le_add le_rfl (Multiset.le_add_left _ _)
    · exact slotOk_of_le ((Multiset.le_add_right _ _).trans hurls)
    · exact slotOk_of_le ((Multiset.le_add_left _ _).trans hurls)

/-- The recovery url has a size, but the second `Get` fails. -/
def unreadableRequest : NetworkRequestCalls where
  settings := { recoveryUrl := { size := 10, get := efiDeviceError } }

theorem unreadableRequest_not_freesOwn :
    ¬ FreesOwn sampleContext unreadableRequest (World.boot none) := by
  intro h
  have := h.faults
  revert this
  decide

end MuTegra.Dfci.Frees
