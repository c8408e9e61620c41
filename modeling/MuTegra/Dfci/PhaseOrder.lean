/- Unit: MuTegra/Dfci/PhaseOrder
   source: NvidiaPkg/Applications/DfciMenu/DfciRequest.c, NvidiaPkg/Applications/DfciMenu/DfciPrivate.h
   digest: When the main logic moves through its states in order and reports what happened. -/

import MuTegra.Dfci.Phases
import MuTegra.Dfci.Request

set_option autoImplicit false
set_option relaxedAutoImplicit false

namespace MuTegra.Dfci.PhaseOrder

open MuTegra.Foundation.Ownership
open MuTegra.Uefi.Status
open MuTegra.Dfci.State MuTegra.Dfci.Exchange MuTegra.Dfci.Update MuTegra.Dfci.MainLogic
open MuTegra.Dfci.Mailbox MuTegra.Dfci.Traffic MuTegra.Dfci.Phases MuTegra.Dfci.Request

/-! ## Reading a log -/

def states (log : List Observation) : List LogicState :=
  log.filterMap fun | .logicState state => some state | _ => none

def failures (log : List Observation) : List EfiStatus :=
  log.filterMap fun | .failed status => some status | _ => none

def buildFailures (log : List Observation) : List EfiStatus :=
  log.filterMap fun | .buildFailed status => some status | _ => none

structure Plain (log : List Observation) : Prop where
  states : states log = []
  failures : failures log = []
  buildFailures : buildFailures log = []

theorem plain_of_quiet {log : List Observation} (h : ∀ o ∈ log, quiet o = true) : Plain log := by
  constructor
  all_goals
    apply List.filterMap_eq_nil_iff.mpr
    intro o ho
    have := h o ho
    cases o <;> first | rfl | cases this

theorem plain_of_elementOnly {log : List Observation} (h : ∀ o ∈ log, elementOnly o = true) :
    Plain log := by
  constructor
  all_goals
    apply List.filterMap_eq_nil_iff.mpr
    intro o ho
    have := h o ho
    cases o <;> first | rfl | cases this

theorem not_mem_of_quiet {log : List Observation} (h : ∀ o ∈ log, quiet o = true)
    {o : Observation} (ho : quiet o = false) : o ∉ log := by
  intro hmem
  rw [h o hmem] at ho
  cases ho

theorem mem_states {log : List Observation} {state : LogicState} :
    state ∈ states log ↔ Observation.logicState state ∈ log := by
  rw [states, List.mem_filterMap]
  constructor
  · rintro ⟨o, ho, heq⟩
    cases o <;> cases heq
    exact ho
  · exact fun h => ⟨_, h, rfl⟩

section append

variable (a b : List Observation)

@[simp] theorem states_append : states (a ++ b) = states a ++ states b := List.filterMap_append

@[simp] theorem failures_append : failures (a ++ b) = failures a ++ failures b :=
  List.filterMap_append

@[simp] theorem buildFailures_append :
    buildFailures (a ++ b) = buildFailures a ++ buildFailures b := List.filterMap_append

variable {a}

theorem states_append_of_plain (h : Plain a) : states (a ++ b) = states b := by
  rw [states_append, h.states, List.nil_append]

theorem failures_append_of_plain (h : Plain a) : failures (a ++ b) = failures b := by
  rw [failures_append, h.failures, List.nil_append]

theorem buildFailures_append_of_plain (h : Plain a) : buildFailures (a ++ b) = buildFailures b := by
  rw [buildFailures_append, h.buildFailures, List.nil_append]

end append

/-! ## What is intended -/

@[mk_iff]
inductive LogicStep : LogicState → LogicState → Prop where
  | bootstrap : LogicStep .preBootstrap .bootstrap
  | bootstrapComplete : LogicStep .bootstrap .bootstrapComplete
  | preRecovery : LogicStep .bootstrap .preRecovery
  | recovery : LogicStep .preRecovery .recovery
  | recoveryComplete : LogicStep .recovery .recoveryComplete
  | noRecoveryAvailable : LogicStep .recovery .noRecoveryAvailable

/-- A bootstrap response was received and processed, without an error or a variable set. -/
structure BootstrapProcessed (log : List Observation) : Prop where
  received : ∃ text, Observation.handed (some text) ∈ log
  processed : ∃ status, Observation.parsed status ∈ log ∧
    (status = efiSuccess ∨ status = efiNotFound)
  noFailure : failures log = []
  noVariable : ∀ name, Observation.variableSet name ∉ log

/-- What is intended of the status and the state at the end of a run, and of the states and the
failures that the run logs. -/
@[mk_iff]
structure Orderly (status : EfiStatus) (state : LogicState) (states : List LogicState)
    (failures : List EfiStatus) : Prop where
  failure : failures ≠ [] → status ≠ efiSuccess
  changed : status = efiMediaChanged → state = .bootstrapComplete ∨ state = .recoveryComplete
  first : states.head? = some .preBootstrap
  order : states.IsChain LogicStep

structure Disciplined (before : Machine) (result : Outcome) : Prop where
  recovery : ∀ earlier later, newObservations before result.machine =
    earlier ++ .logicState .preRecovery :: later → BootstrapProcessed earlier
  orderly : Orderly result.status result.machine.logicState
    (states (newObservations before result.machine))
    (failures (newObservations before result.machine))

/-- No transfer fails with the status of a parser result, and no request that cannot be built
is reported like a change. -/
@[mk_iff]
structure Unmasked (failures builds : List EfiStatus) : Prop where
  transfers : ∀ status ∈ failures, status ≠ efiNotFound ∧ status ≠ efiMediaChanged
  builds : ∀ status ∈ builds, status ≠ efiMediaChanged

/-- No error of a run is taken for a parser result. -/
def NothingMasked (before : Machine) (result : Outcome) : Prop :=
  Unmasked (failures (newObservations before result.machine))
    (buildFailures (newObservations before result.machine))

/-! ## The course of a run -/

/-- What a phase adds to the log: a failed exchange, or a processed text. -/
inductive AddsPhase (state : LogicState) (parse : ParseCalls) (before : Machine)
    (result : Outcome) (new : List Observation) : Prop where
  | failed (status : efiError result.status = true) (states : states new = [])
      (failures : failures new = [result.status]) (builds : buildFailures new = [])
      (same : result.machine.logicState = before.logicState)
  | processed (status : result.status = parse.status) (states : states new = [state])
      (failures : failures new = []) (builds : buildFailures new = [])
      (entered : result.machine.logicState = state)
      (received : ∃ text, Observation.handed (some text) ∈ new)
      (parsed : Observation.parsed parse.status ∈ new)

theorem addsPhase_of_endsPhase {fw : Firmware} {state : LogicState} {table : ResponseTable}
    {parse : ParseCalls} {before : Machine} {result : Outcome}
    (h : EndsPhase fw state table parse before result) :
    ∃ new, result.machine.log = before.log ++ new ∧
      AddsPhase state parse before result new ∧
      (ReportsChanges fw table parse → failures new = [] →
        parse.status = efiSuccess ∨ parse.status = efiNotFound →
          ∀ name, Observation.variableSet name ∉ new) := by
  cases h with
  | failed earlier status same log silent =>
      have hplain := plain_of_quiet silent
      refine ⟨earlier ++ [.failed result.status], log.trans (List.append_assoc _ _ _), ?_, ?_⟩
      · exact .failed status (states_append_of_plain _ hplain) (failures_append_of_plain _ hplain)
          (buildFailures_append_of_plain _ hplain) same
      · intro _ hfailures
        rw [failures_append_of_plain _ hplain] at hfailures
        cases hfailures
  | refused earlier content stale status same log silent passes =>
      have hplain := plain_of_quiet silent
      refine ⟨earlier ++ [.answered .get .ok content stale, .failed efiProtocolError],
        log.trans (List.append_assoc _ _ _), ?_, ?_⟩
      · apply AddsPhase.failed (status ▸ efiError_encodeError _) (states_append_of_plain _ hplain) _
          (buildFailures_append_of_plain _ hplain) same
        rw [failures_append_of_plain _ hplain, status]
        rfl
      · intro _ hfailures
        rw [failures_append_of_plain _ hplain] at hfailures
        cases hfailures
  | processed earlier elements content stale text status entered log silent passes own reported =>
      have hplain := plain_of_quiet silent
      have helements := plain_of_elementOnly own
      refine ⟨earlier ++ ([.answered .get .ok content stale, .logicState state,
        .handed (some text)] ++ elements ++ [.parsed parse.status]),
        log.trans (List.append_assoc _ _ _), ?_, ?_⟩
      · apply AddsPhase.processed status _ _ _ entered ⟨text, _⟩
        · simp
        · rw [states_append_of_plain _ hplain, List.append_assoc, states_append,
            states_append_of_plain _ helements]
          rfl
        · rw [failures_append_of_plain _ hplain, List.append_assoc, failures_append,
            failures_append_of_plain _ helements]
          rfl
        · rw [buildFailures_append_of_plain _ hplain, List.append_assoc, buildFailures_append,
            buildFailures_append_of_plain _ helements]
          rfl
        · simp
      · intro hreports _ hstatus name hname
        have hearlier := not_mem_of_quiet silent (o := .variableSet name) rfl
        have := reported hreports hstatus name
        simp_all

/-- How the recovery phase ends: its status and state, then the states, failures and build
failures it logs. -/
inductive RecoveryRun : EfiStatus → LogicState → List LogicState → List EfiStatus →
    List EfiStatus → Prop where
  | notBuilt {s : EfiStatus} (error : efiError s = true) : RecoveryRun s .preRecovery [] [] [s]
  | failed {s : EfiStatus} (error : efiError s = true) (notFound : s ≠ efiNotFound)
      (changed : s ≠ efiMediaChanged) : RecoveryRun s .preRecovery [] [s] []
  | maskedNotFound :
      RecoveryRun efiSuccess .noRecoveryAvailable [.noRecoveryAvailable] [efiNotFound] []
  | maskedChange :
      RecoveryRun efiMediaChanged .recoveryComplete [.recoveryComplete] [efiMediaChanged] []
  | refused {s : EfiStatus} (success : s ≠ efiSuccess) (changed : s ≠ efiMediaChanged) :
      RecoveryRun s .recovery [.recovery] [] []
  | noUpdates : RecoveryRun efiSuccess .noRecoveryAvailable [.recovery, .noRecoveryAvailable] [] []
  | updated : RecoveryRun efiMediaChanged .recoveryComplete [.recovery, .recoveryComplete] [] []

variable {parse : ParseCalls} {before : Machine} {updated : Outcome} {new : List Observation}

theorem recoveryRun_noUpdates (hadds : AddsPhase .recovery parse before updated new)
    (hstatus : updated.status = efiSuccess ∨ updated.status = efiNotFound) :
    RecoveryRun efiSuccess .noRecoveryAvailable (states (new ++ [.logicState .noRecoveryAvailable]))
      (failures (new ++ [.logicState .noRecoveryAvailable]))
      (buildFailures (new ++ [.logicState .noRecoveryAvailable])) := by
  rw [states_append, failures_append, buildFailures_append]
  cases hadds with
  | failed status states failures builds same =>
      rw [states, failures, builds]
      rcases hstatus with h | h
      · rw [h] at status
        cases status
      · rw [h]
        exact .maskedNotFound
  | processed status states failures builds entered received parsed =>
      rw [states, failures, builds]
      exact .noUpdates

theorem recoveryRun_updated (hadds : AddsPhase .recovery parse before updated new)
    (hchanged : updated.status = efiMediaChanged) :
    RecoveryRun efiMediaChanged .recoveryComplete (states (new ++ [.logicState .recoveryComplete]))
      (failures (new ++ [.logicState .recoveryComplete]))
      (buildFailures (new ++ [.logicState .recoveryComplete])) := by
  rw [states_append, failures_append, buildFailures_append]
  cases hadds with
  | failed status states failures builds same =>
      rw [states, failures, builds, hchanged]
      exact .maskedChange
  | processed status states failures builds entered received parsed =>
      rw [states, failures, builds]
      exact .updated

theorem recoveryRun_refused (hadds : AddsPhase .recovery parse before updated new)
    (hstate : before.logicState = .preRecovery) (hsuccess : updated.status ≠ efiSuccess)
    (hnotFound : updated.status ≠ efiNotFound) (hchanged : updated.status ≠ efiMediaChanged) :
    RecoveryRun updated.status updated.machine.logicState (states new) (failures new)
      (buildFailures new) := by
  cases hadds with
  | failed status states failures builds same =>
      rw [states, failures, builds, same, hstate]
      exact .failed status hnotFound hchanged
  | processed status states failures builds entered received parsed =>
      rw [states, failures, builds, entered]
      exact .refused hsuccess hchanged

theorem recoveryPhase_run (fw : Firmware) (identity : Identity) (calls : MainLogicCalls)
    (doneProcessing : Bool) {m : Machine} (hstate : m.logicState = .preRecovery) :
    ∃ new, (recoveryPhase fw identity calls doneProcessing m).machine.log = m.log ++ new ∧
      RecoveryRun (recoveryPhase fw identity calls doneProcessing m).status
        (recoveryPhase fw identity calls doneProcessing m).machine.logicState
        (states new) (failures new) (buildFailures new) := by
  obtain ⟨hlog, hsame⟩ := buildJsonRecoveryRequest_frame fw identity calls.recoveryEncode m
  rw [recoveryPhase]
  dsimp only
  split
  · next herr =>
      refine ⟨[.buildFailed _], congrArg (· ++ _) hlog, ?_⟩
      change RecoveryRun _ (buildJsonRecoveryRequest fw identity calls.recoveryEncode m).2.logicState
        _ _ _
      rw [hsame, hstate]
      exact .notBuilt herr
  · obtain ⟨new, hnew, hadds, -⟩ := addsPhase_of_endsPhase (endsPhase_exchangeAndUpdate fw
      (buildJsonRecoveryRequest fw identity calls.recoveryEncode m).2.httpRequest.url .recovery
      mRecoveryResponse calls.recovery calls.recoveryParse doneProcessing
      (buildJsonRecoveryRequest fw identity calls.recoveryEncode m).2)
    rw [hlog] at hnew
    generalize exchangeAndUpdate fw _ _ _ _ _ _ _ = updated at hnew hadds ⊢
    split
    · next hstatus =>
        refine ⟨new ++ [.logicState .noRecoveryAvailable], ?_, ?_⟩
        · exact (congrArg (· ++ _) hnew).trans (List.append_assoc _ _ _)
        · exact recoveryRun_noUpdates hadds hstatus
    · next hstatus =>
        rw [not_or] at hstatus
        split
        · next hchanged =>
            refine ⟨new ++ [.logicState .recoveryComplete], ?_, ?_⟩
            · exact (congrArg (· ++ _) hnew).trans (List.append_assoc _ _ _)
            · exact recoveryRun_updated hadds hchanged
        · next hchanged =>
            exact ⟨new, hnew, recoveryRun_refused hadds (hsame.trans hstate) hstatus.1 hstatus.2
              hchanged⟩

/-- How a run ends that does not enter the recovery phase: its status and state, then the
states, failures and build failures it logs. -/
inductive BootstrapRun : EfiStatus → LogicState → List LogicState → List EfiStatus →
    List EfiStatus → Prop where
  | notBuilt {s : EfiStatus} (error : efiError s = true) :
      BootstrapRun s .preBootstrap [.preBootstrap] [] [s]
  | failed {s : EfiStatus} (error : efiError s = true) (notFound : s ≠ efiNotFound)
      (changed : s ≠ efiMediaChanged) : BootstrapRun s .preBootstrap [.preBootstrap] [s] []
  | maskedChange :
      BootstrapRun efiMediaChanged .bootstrapComplete [.preBootstrap, .bootstrapComplete]
        [efiMediaChanged] []
  | refused {s : EfiStatus} (success : s ≠ efiSuccess) (changed : s ≠ efiMediaChanged) :
      BootstrapRun s .bootstrap [.preBootstrap, .bootstrap] [] []
  | updated :
      BootstrapRun efiMediaChanged .bootstrapComplete
        [.preBootstrap, .bootstrap, .bootstrapComplete] [] []

/-- What a run logs before it enters the recovery phase: a bootstrap exchange that failed like a
parser that found nothing, or a bootstrap response that was processed. -/
inductive EntersRecovery (earlier : List Observation) : Prop where
  | maskedNotFound (states : states earlier = [.preBootstrap])
      (failures : failures earlier = [efiNotFound])
  | processed (states : states earlier = [.preBootstrap, .bootstrap])
      (failures : failures earlier = []) (builds : buildFailures earlier = [])
      (processed : BootstrapProcessed earlier)

inductive MainRun (before : Machine) (result : Outcome) : Prop where
  | ended (new : List Observation) (log : result.machine.log = before.log ++ new)
      (run : BootstrapRun result.status result.machine.logicState (states new) (failures new)
        (buildFailures new))
  | entered (earlier later : List Observation)
      (log : result.machine.log = before.log ++ (earlier ++ .logicState .preRecovery :: later))
      (enters : EntersRecovery earlier)
      (run : RecoveryRun result.status result.machine.logicState (states later) (failures later)
        (buildFailures later))

theorem entersRecovery_of_addsPhase (hadds : AddsPhase .bootstrap parse before updated new)
    (hvariables : failures new = [] → parse.status = efiSuccess ∨ parse.status = efiNotFound →
      ∀ name, Observation.variableSet name ∉ new)
    (hstatus : updated.status = efiSuccess ∨ updated.status = efiNotFound) :
    EntersRecovery ([.logicState .preBootstrap] ++ new) := by
  cases hadds with
  | failed status states failures builds same =>
      rcases hstatus with h | h
      · rw [h] at status
        cases status
      · apply EntersRecovery.maskedNotFound
        · rw [states_append, states]
          rfl
        · rw [failures_append, failures, h]
          rfl
  | processed status states failures builds entered received parsed =>
      rw [status] at hstatus
      apply EntersRecovery.processed
      · rw [states_append, states]
        rfl
      · rw [failures_append, failures]
        rfl
      · rw [buildFailures_append, builds]
        rfl
      · obtain ⟨text, htext⟩ := received
        refine ⟨⟨text, by simp [htext]⟩, ⟨_, by simp [parsed], hstatus⟩, ?_, ?_⟩
        · rw [failures_append, failures]
          rfl
        · intro name hname
          have hnone := hvariables failures hstatus name
          simp_all

theorem bootstrapRun_updated (hadds : AddsPhase .bootstrap parse before updated new)
    (hchanged : updated.status = efiMediaChanged) :
    BootstrapRun efiMediaChanged .bootstrapComplete
      (states ([.logicState .preBootstrap] ++ new ++ [.logicState .bootstrapComplete]))
      (failures ([.logicState .preBootstrap] ++ new ++ [.logicState .bootstrapComplete]))
      (buildFailures ([.logicState .preBootstrap] ++ new ++ [.logicState .bootstrapComplete])) := by
  rw [states_append, states_append, failures_append, failures_append, buildFailures_append,
    buildFailures_append]
  cases hadds with
  | failed status states failures builds same =>
      rw [states, failures, builds, hchanged]
      exact .maskedChange
  | processed status states failures builds entered received parsed =>
      rw [states, failures, builds]
      exact .updated

theorem bootstrapRun_refused (hadds : AddsPhase .bootstrap parse before updated new)
    (hstate : before.logicState = .preBootstrap) (hsuccess : updated.status ≠ efiSuccess)
    (hnotFound : updated.status ≠ efiNotFound) (hchanged : updated.status ≠ efiMediaChanged) :
    BootstrapRun updated.status updated.machine.logicState
      (states ([.logicState .preBootstrap] ++ new))
      (failures ([.logicState .preBootstrap] ++ new))
      (buildFailures ([.logicState .preBootstrap] ++ new)) := by
  rw [states_append, failures_append, buildFailures_append]
  cases hadds with
  | failed status states failures builds same =>
      rw [states, failures, builds, same, hstate]
      exact .failed status hnotFound hchanged
  | processed status states failures builds entered received parsed =>
      rw [states, failures, builds, entered]
      exact .refused hsuccess hchanged

theorem dfciMainLogic_run {fw : Firmware} {identity : Identity} {calls : MainLogicCalls}
    {m : Machine} (hparse : ReportsChanges fw mRecoveryBootstrapResponse calls.bootstrapParse) :
    MainRun m (dfciMainLogic fw identity calls m) := by
  obtain ⟨hlog, hsame⟩ := buildJsonBootstrapRequest_frame fw identity calls.bootstrapEncode
    (m.setLogicState .preBootstrap)
  rw [dfciMainLogic]
  dsimp only
  split
  · next herr =>
      refine .ended [.logicState .preBootstrap, .buildFailed (buildJsonBootstrapRequest fw identity
        calls.bootstrapEncode (m.setLogicState .preBootstrap)).1] ?_ ?_
      · exact (congrArg (· ++ [_]) hlog).trans (List.append_assoc _ _ _)
      · change BootstrapRun _ (buildJsonBootstrapRequest fw identity calls.bootstrapEncode
          (m.setLogicState .preBootstrap)).2.logicState _ _ _
        rw [hsame]
        exact .notBuilt herr
  · obtain ⟨new, hnew, hadds, hvariables⟩ := addsPhase_of_endsPhase (endsPhase_exchangeAndUpdate fw
      (buildJsonBootstrapRequest fw identity calls.bootstrapEncode
        (m.setLogicState .preBootstrap)).2.httpRequest.bootstrapUrl .bootstrap
      mRecoveryBootstrapResponse calls.bootstrap calls.bootstrapParse false
      (buildJsonBootstrapRequest fw identity calls.bootstrapEncode
        (m.setLogicState .preBootstrap)).2)
    generalize exchangeAndUpdate fw _ _ _ _ _ _ _ = updated at hnew hadds ⊢
    have hcourse : updated.machine.log = m.log ++ ([.logicState .preBootstrap] ++ new) := by
      rw [hnew, hlog]
      exact List.append_assoc _ _ _
    split
    · next hstatus =>
        obtain ⟨later, hlater, hrun⟩ := recoveryPhase_run fw identity calls updated.doneProcessing
          (m := updated.machine.setLogicState .preRecovery) rfl
        refine .entered ([.logicState .preBootstrap] ++ new) later ?_ ?_ hrun
        · rw [hlater]
          change updated.machine.log ++ [.logicState .preRecovery] ++ later = _
          rw [hcourse, List.append_assoc, List.append_assoc]
          rfl
        · exact entersRecovery_of_addsPhase hadds (hvariables hparse) hstatus
    · next hstatus =>
        rw [not_or] at hstatus
        split
        · next hchanged =>
            refine .ended ([.logicState .preBootstrap] ++ new ++ [.logicState .bootstrapComplete])
              ((congrArg (· ++ [_]) hcourse).trans (List.append_assoc _ _ _)) ?_
            exact bootstrapRun_updated hadds hchanged
        · next hchanged =>
            refine .ended ([.logicState .preBootstrap] ++ new) hcourse ?_
            exact bootstrapRun_refused hadds hsame hstatus.1 hstatus.2 hchanged

/-! ## When a run is disciplined -/

theorem orderly_iff_of_bootstrapRun {status : EfiStatus} {state : LogicState}
    {states : List LogicState} {failures builds : List EfiStatus}
    (h : BootstrapRun status state states failures builds) :
    Orderly status state states failures ↔ Unmasked failures builds := by
  rw [orderly_iff, unmasked_iff]
  cases h with
  | notBuilt error => simp
  | failed error notFound changed =>
      simp [notFound, changed, ne_success_of_error error]
  | maskedChange => simp [logicStep_iff]
  | refused success changed => simp [logicStep_iff, changed]
  | updated => simp [logicStep_iff]

theorem orderly_iff_of_recoveryRun {status : EfiStatus} {state : LogicState}
    {states : List LogicState} {failures builds : List EfiStatus}
    (h : RecoveryRun status state states failures builds) :
    Orderly status state ([.preBootstrap, .bootstrap, .preRecovery] ++ states) failures ↔
      Unmasked failures builds := by
  rw [orderly_iff, unmasked_iff]
  cases h with
  | notBuilt error => simp [logicStep_iff]
  | failed error notFound changed =>
      simp [logicStep_iff, notFound, changed, ne_success_of_error error]
  | maskedNotFound => simp
  | maskedChange => simp [logicStep_iff]
  | refused success changed => simp [logicStep_iff, changed]
  | noUpdates => simp [logicStep_iff, efiSuccess, efiMediaChanged, encodeError]
  | updated => simp [logicStep_iff]

theorem preRecovery_notMem_of_bootstrapRun {status : EfiStatus} {state : LogicState}
    {states : List LogicState} {failures builds : List EfiStatus}
    (h : BootstrapRun status state states failures builds) : .preRecovery ∉ states := by
  cases h <;> decide

theorem preRecovery_notMem_of_recoveryRun {status : EfiStatus} {state : LogicState}
    {states : List LogicState} {failures builds : List EfiStatus}
    (h : RecoveryRun status state states failures builds) : .preRecovery ∉ states := by
  cases h <;> decide

variable {result : Outcome} {earlier later : List Observation}

theorem disciplined_iff_of_bootstrapRun (hnew : newObservations before result.machine = new)
    (run : BootstrapRun result.status result.machine.logicState (states new) (failures new)
      (buildFailures new)) :
    Disciplined before result ↔ NothingMasked before result := by
  rw [NothingMasked, hnew, ← orderly_iff_of_bootstrapRun run]
  constructor
  · intro h
    exact hnew ▸ h.orderly
  · intro h
    refine ⟨fun earlier later heq => ?_, hnew.symm ▸ h⟩
    have hmem : Observation.logicState .preRecovery ∈ new := by
      rw [← hnew, heq]
      simp
    exact absurd (mem_states.mpr hmem) (preRecovery_notMem_of_bootstrapRun run)

theorem states_entered : states (earlier ++ .logicState .preRecovery :: later) =
    states earlier ++ .preRecovery :: states later := states_append _ _

theorem failures_entered : failures (earlier ++ .logicState .preRecovery :: later) =
    failures earlier ++ failures later := failures_append _ _

theorem buildFailures_entered : buildFailures (earlier ++ .logicState .preRecovery :: later) =
    buildFailures earlier ++ buildFailures later := buildFailures_append _ _

/-- The recovery phase is entered after a transfer has failed with the status of an object
without updates: both sides are false. -/
theorem disciplined_iff_of_maskedNotFound
    (hnew : newObservations before result.machine =
      earlier ++ .logicState .preRecovery :: later)
    (hstates : states earlier = [.preBootstrap]) (hfailures : failures earlier = [efiNotFound]) :
    Disciplined before result ↔ NothingMasked before result := by
  rw [NothingMasked, hnew, failures_entered, hfailures]
  constructor
  · intro h
    have horder := h.orderly.order
    rw [hnew, states_entered, hstates] at horder
    simp [logicStep_iff] at horder
  · intro h
    exact absurd rfl (h.transfers efiNotFound (by simp)).1

theorem disciplined_iff_of_processed
    (hnew : newObservations before result.machine =
      earlier ++ .logicState .preRecovery :: later)
    (hstates : states earlier = [.preBootstrap, .bootstrap]) (hfailures : failures earlier = [])
    (hbuilds : buildFailures earlier = []) (processed : BootstrapProcessed earlier)
    (run : RecoveryRun result.status result.machine.logicState (states later) (failures later)
      (buildFailures later)) :
    Disciplined before result ↔ NothingMasked before result := by
  have hcourse : states (newObservations before result.machine) =
      [.preBootstrap, .bootstrap, .preRecovery] ++ states later := by
    rw [hnew, states_entered, hstates]
    rfl
  have hfailed : failures (newObservations before result.machine) = failures later := by
    rw [hnew, failures_entered, hfailures, List.nil_append]
  have hbuilt : buildFailures (newObservations before result.machine) = buildFailures later := by
    rw [hnew, buildFailures_entered, hbuilds, List.nil_append]
  have hearlier : .preRecovery ∉ states earlier := by simp [hstates]
  rw [NothingMasked, hfailed, hbuilt, ← orderly_iff_of_recoveryRun run]
  constructor
  · intro h
    have horderly := h.orderly
    rwa [hcourse, hfailed] at horderly
  · intro h
    refine ⟨fun earlier' later' heq => ?_, by rwa [hcourse, hfailed]⟩
    have hlater := mt mem_states.mpr (preRecovery_notMem_of_recoveryRun run)
    obtain ⟨hsame, -⟩ := (List.append_cons_inj_of_notMem (mt mem_states.mpr hearlier) hlater).mp
      (hnew.symm.trans heq)
    exact hsame ▸ processed

/-- A run is disciplined exactly when none of its errors is taken for a parser result, given
that the parser reports the variables that its callback sets. -/
theorem dfciMainLogic_disciplined_iff (fw : Firmware) (identity : Identity) (calls : MainLogicCalls)
    (hparse : ReportsChanges fw mRecoveryBootstrapResponse calls.bootstrapParse) (m : Machine) :
    Disciplined m (dfciMainLogic fw identity calls m) ↔
      NothingMasked m (dfciMainLogic fw identity calls m) := by
  rcases dfciMainLogic_run hparse with ⟨new, log, run⟩ | ⟨earlier, later, log, enters, run⟩
  · exact disciplined_iff_of_bootstrapRun (newObservations_eq log) run
  · cases enters with
    | maskedNotFound states failures =>
        exact disciplined_iff_of_maskedNotFound (newObservations_eq log) states failures
    | processed states failures builds processed =>
        exact disciplined_iff_of_processed (newObservations_eq log) states failures builds
          processed run

def quietCalls : MainLogicCalls where
  bootstrap := sampleExchange
  recovery := sampleExchange

theorem dfciMainLogic_disciplined_iff_quiet :
    Disciplined (initializeNetworkRequest sampleSettings Machine.boot).2
      (dfciMainLogic sampleContext.fw sampleContext.identity quietCalls
        (initializeNetworkRequest sampleSettings Machine.boot).2) := by
  have hfailures : failures (newObservations (initializeNetworkRequest sampleSettings
      Machine.boot).2 (dfciMainLogic sampleContext.fw sampleContext.identity quietCalls
        (initializeNetworkRequest sampleSettings Machine.boot).2).machine) = [] := by
    decide +kernel
  have hbuilds : buildFailures (newObservations (initializeNetworkRequest sampleSettings
      Machine.boot).2 (dfciMainLogic sampleContext.fw sampleContext.identity quietCalls
        (initializeNetworkRequest sampleSettings Machine.boot).2).machine) = [] := by
    decide +kernel
  refine (dfciMainLogic_disciplined_iff sampleContext.fw sampleContext.identity quietCalls ?_
    (initializeNetworkRequest sampleSettings Machine.boot).2).mpr ?_
  · intro _ m h
    cases h
  · rw [NothingMasked, hfailures, hbuilds]
    exact ⟨nofun, nofun⟩

/-- Neither phase can be configured: the http service binding is not found. -/
def unboundCalls : MainLogicCalls where
  bootstrap := { post := { configure := { handleProtocol := efiNotFound } } }
  recovery := { post := { configure := { handleProtocol := efiNotFound } } }

/-- Two failed exchanges are reported as a success. -/
theorem unbound_not_disciplined :
    ¬ Disciplined (initializeNetworkRequest sampleSettings Machine.boot).2
      (dfciMainLogic sampleContext.fw sampleContext.identity unboundCalls
        (initializeNetworkRequest sampleSettings Machine.boot).2) := by
  intro h
  exact h.orderly.failure (by decide) (by decide)

end MuTegra.Dfci.PhaseOrder
