/- Unit: MuTegra/Dfci/Leaks
   source: NvidiaPkg/Applications/DfciMenu/DfciRequest.c, NvidiaPkg/Applications/DfciMenu/DfciUpdate.c
   digest: What a request obtains for its exchanges, and when it is free of it at its end. -/

import MuTegra.Dfci.Frees

/-!
No cleanup names the JSON body of a request, and the check in front of the only call that would
free an old one is the wrong way round. So a request frees what it obtained exactly when it never
comes to an exchange.
-/

set_option autoImplicit false
set_option relaxedAutoImplicit false

namespace MuTegra.Dfci.Leaks

open MuTegra.Foundation.Ownership
open MuTegra.Uefi.Status MuTegra.Uefi.Variables
open MuTegra.Dfci.State MuTegra.Dfci.Exchange MuTegra.Dfci.MainLogic MuTegra.Dfci.Update
open MuTegra.Dfci.Trace MuTegra.Dfci.Request MuTegra.Dfci.Settings MuTegra.Dfci.Restore
open MuTegra.Dfci.Holdings MuTegra.Dfci.Frees

/-- The header array that a transfer receives, and the body that it leaves in the response zone;
a packet that cannot be filled is freed at once. -/
def transferObtained (t : Transfer) : Multiset ℕ :=
  ownedHeaders t.received + owned t.result.2.httpResponse.body

def obtained (e : AsyncRequest) : Multiset ℕ :=
  owned e.before.httpRequest.body + ((e.posts ++ e.gets).map transferObtained).sum

def FreesObtained (ctx : Context) (calls : NetworkRequestCalls) (w : World) : Prop :=
  ∀ e ∈ requestExchanges ctx calls w, ∀ id ∈ obtained e,
    id ∉ (processDfciNetworkRequest ctx calls w).world.machine.pool.live

/-- The interface has the service and a medium, and the bootstrap request can be built. -/
def reachesExchange (calls : NicCalls) : Bool :=
  !efiError calls.handleProtocol && calls.mediaPresent && !efiError calls.mainLogic.bootstrapEncode

def enableFails (calls : EnableCertificateCalls) (c : Certificates) : Bool :=
  (saves calls c && !calls.listAllocated) || !installs calls

/-- A request comes to an exchange: the settings are read, the certificate is installed, and one
of the interfaces that are found reaches it. -/
def requestReachesExchange (settingAccess : Bool) (c : Certificates) (calls : NetworkRequestCalls) :
    Bool :=
  !initializeFails settingAccess calls.settings && !enableFails calls.certificate c &&
    !efiError calls.nics.locateHandles && calls.nics.nics.any reachesExchange

variable (fw : Firmware) (identity : Identity)

theorem mainLogicExchanges_ne_nil {calls : MainLogicCalls}
    (h : ¬ efiError calls.bootstrapEncode = true) (m : Machine) :
    mainLogicExchanges fw identity calls m ≠ [] := by
  rw [mainLogicExchanges]
  dsimp only
  rw [buildJsonBootstrapRequest_status, if_neg h]
  split
  · exact List.cons_ne_nil _ _
  · exact List.cons_ne_nil _ _

theorem nicExchanges_ne_nil {calls : NicCalls} (h : reachesExchange calls = true) (m : Machine) :
    nicExchanges fw identity calls m ≠ [] := by
  simp only [reachesExchange, Bool.and_eq_true, Bool.not_eq_true'] at h
  obtain ⟨⟨hbinding, hmedia⟩, hencode⟩ := h
  rw [nicExchanges]
  dsimp only
  rw [if_neg (by simp [hbinding]), if_neg (by simp [hmedia])]
  exact mainLogicExchanges_ne_nil fw identity (by simp [hencode]) _

theorem mainLogicExchanges_eq_nil {calls : MainLogicCalls}
    (h : efiError calls.bootstrapEncode = true) (m : Machine) :
    mainLogicExchanges fw identity calls m = [] := by
  rw [mainLogicExchanges]
  dsimp only
  rw [buildJsonBootstrapRequest_status, if_pos h]

theorem dfciMainLogic_doneProcessing {calls : MainLogicCalls}
    (h : efiError calls.bootstrapEncode = true) (m : Machine) :
    (dfciMainLogic fw identity calls m).doneProcessing = false := by
  rw [dfciMainLogic]
  dsimp only
  rw [buildJsonBootstrapRequest_status, if_pos h]

theorem nicExchanges_eq_nil {calls : NicCalls} (h : reachesExchange calls = false) (m : Machine) :
    nicExchanges fw identity calls m = [] ∧
      (tryNic .dfciMainLogic fw identity calls m).doneProcessing = false := by
  rw [nicExchanges, tryNic]
  dsimp only
  split
  · exact ⟨rfl, rfl⟩
  · next hbinding =>
      split
      · exact ⟨rfl, rfl⟩
      · next hmedia =>
          have hencode : efiError calls.mainLogic.bootstrapEncode = true := by
            simpa [reachesExchange, hbinding, hmedia] using h
          refine ⟨mainLogicExchanges_eq_nil fw identity hencode _, ?_⟩
          rw [runOnNic]
          split
          · exact dfciMainLogic_doneProcessing fw identity hencode _
          · exact dfciMainLogic_doneProcessing fw identity hencode _

theorem nicsExchanges_eq_nil_iff (nics : List NicCalls) :
    ∀ m : Machine, nicsExchanges fw identity nics false m = [] ↔
      nics.any reachesExchange = false := by
  induction nics with
  | nil => exact fun m => ⟨fun _ => rfl, fun _ => rfl⟩
  | cons nic nics ih =>
      intro m
      rw [nicsExchanges, if_neg Bool.false_ne_true, List.any_cons, List.append_eq_nil_iff]
      cases hnic : reachesExchange nic with
      | true =>
          constructor
          · exact fun h => absurd h.1 (nicExchanges_ne_nil fw identity hnic m)
          · exact fun h => absurd h (by simp)
      | false =>
          obtain ⟨hnone, hdone⟩ := nicExchanges_eq_nil fw identity hnic m
          rw [hdone, Bool.false_or, ← ih]
          exact ⟨fun h => h.2, fun h => ⟨hnone, h⟩⟩

variable {w : World}

theorem efiError_installCertificate (ctx : Context) (calls : EnableCertificateCalls) :
    efiError (installCertificate ctx calls w).1 = !installs calls := by
  rw [installCertificate, installs]
  cases calls.certAllocated with
  | false => simp [efiOutOfResources]
  | true => simp

theorem efiError_enableDfciCertificate (ctx : Context) (calls : EnableCertificateCalls) :
    efiError (enableDfciCertificate ctx calls w).1 = enableFails calls w.certificates := by
  rw [enableDfciCertificate, enableFails, saves]
  dsimp only
  split
  · next hsmall =>
      rw [efiError_installCertificate, beq_false_of_ne hsmall, Bool.false_and, Bool.false_or]
  · next hsmall =>
      rw [not_not] at hsmall
      rw [hsmall, beq_self_eq_true, Bool.true_and]
      cases calls.listAllocated with
      | false => simp [efiOutOfResources]
      | true => simp [efiError_installCertificate]

theorem requestExchanges_eq_nil_iff (ctx : Context) (calls : NetworkRequestCalls) :
    requestExchanges ctx calls w = [] ↔
      requestReachesExchange w.machine.settingAccess w.certificates calls = false := by
  unfold requestExchanges requestReachesExchange tryEachNicExchanges
  dsimp only
  rw [efiError_initializeNetworkRequest, efiError_enableDfciCertificate]
  cases initializeFails w.machine.settingAccess calls.settings with
  | true => simp
  | false =>
      cases enableFails calls.certificate w.certificates with
      | true => simp
      | false =>
          cases efiError calls.nics.locateHandles with
          | true => simp
          | false => simp [nicsExchanges_eq_nil_iff]

theorem body_live {ctx : Context} {calls : NetworkRequestCalls} {w : World}
    (hold : w.certificates.oldList = none) {e : AsyncRequest}
    (he : e ∈ requestExchanges ctx calls w) :
    ∃ id ∈ owned e.before.httpRequest.body,
      id ∈ (processDfciNetworkRequest ctx calls w).world.machine.pool.live := by
  obtain ⟨_, _, request, -, hbody, hcustody⟩ := sendsBody_requestExchanges ctx calls hold e he
  obtain ⟨body, hsome⟩ := Option.ne_none_iff_exists'.mp hbody
  have howned : owned e.before.httpRequest.body = {body.address} := by
    rw [hcustody.zone, hsome, owned_some]
  have hok : ¬ efiError (initializeNetworkRequest calls.settings w.machine).1 = true := by
    intro herror
    rw [requestExchanges, if_pos herror] at he
    exact absurd he List.not_mem_nil
  have hbefore : Keeps w.machine.pool.faults 0 w.machine.pool := ⟨rfl, Multiset.zero_le _⟩
  have hinitialized := custody_initializeNetworkRequest (leavesFreedUrl_of_ok hok) hbefore
  have hafter := (keeps_processDfciNetworkRequest hinitialized hold ctx).live
  have hmem : body.address ∈ owned e.before.httpRequest.body := by
    rw [howned]
    exact Multiset.mem_singleton_self _
  refine ⟨body.address, hmem, Multiset.mem_of_le hafter ?_⟩
  refine Multiset.mem_add.mpr (Or.inr (Multiset.mem_add.mpr (Or.inl ?_)))
  exact Multiset.mem_of_le (body_le_bodies he) hmem

theorem not_freesObtained {ctx : Context} {calls : NetworkRequestCalls} {w : World}
    (hold : w.certificates.oldList = none) (hexchanges : requestExchanges ctx calls w ≠ []) :
    ¬ FreesObtained ctx calls w := by
  intro h
  obtain ⟨e, he⟩ := List.exists_mem_of_ne_nil _ hexchanges
  obtain ⟨id, hid, hlive⟩ := body_live hold he
  exact h e he id (Multiset.mem_add.mpr (Or.inl hid)) hlive

/-- A request frees what it obtained for its exchanges if and only if it does not come to one. -/
theorem freesObtained_iff (ctx : Context) (certificate : Option Variable)
    (earlier : List NetworkRequestCalls) (calls : NetworkRequestCalls) :
    FreesObtained ctx calls (processRequests ctx earlier (World.boot certificate)) ↔
      requestReachesExchange
        (processRequests ctx earlier (World.boot certificate)).machine.settingAccess
        (processRequests ctx earlier (World.boot certificate)).certificates calls = false := by
  have hold := processRequests_oldList ctx earlier (World.boot certificate) rfl
  generalize processRequests ctx earlier (World.boot certificate) = w at hold ⊢
  rw [← requestExchanges_eq_nil_iff ctx]
  constructor
  · intro h
    by_contra hexchanges
    exact not_freesObtained hold hexchanges h
  · intro h e he
    rw [h] at he
    exact absurd he List.not_mem_nil

def onlineRequest : NetworkRequestCalls where
  settings := sampleSettings
  nics := { nics := [{ mainLogic := { bootstrap := sampleExchange, recovery := sampleExchange } }] }

/-- The body of its bootstrap request is never freed. -/
theorem onlineRequest_not_freesObtained :
    ¬ FreesObtained sampleContext onlineRequest (World.boot none) := by
  intro h
  have hreaches : requestExchanges sampleContext onlineRequest (World.boot none) ≠ [] := by
    rw [Ne, requestExchanges_eq_nil_iff]
    decide
  exact not_freesObtained (w := World.boot none) rfl hreaches h

end MuTegra.Dfci.Leaks
