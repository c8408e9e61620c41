/- Unit: MuTegra/Dfci/OwnBody
   source: NvidiaPkg/Applications/DfciMenu/DfciRequest.c
   digest: Which text a phase hands to the parser, over whole runs of requests. -/

import MuTegra.Dfci.Phases
import MuTegra.Dfci.Request

/-!
The response zone is cleaned between the attempts of a series, not between the POST and the GET
and not between the phases. A final answer without content passes on what is left there.
-/

set_option autoImplicit false
set_option relaxedAutoImplicit false

namespace MuTegra.Dfci.OwnBody

open MuTegra.Foundation.Ownership
open MuTegra.Uefi.Status MuTegra.Uefi.Variables
open MuTegra.Dfci.State MuTegra.Dfci.Transport MuTegra.Dfci.Exchange MuTegra.Dfci.Update
open MuTegra.Dfci.MainLogic MuTegra.Dfci.Request
open MuTegra.Dfci.Traffic MuTegra.Dfci.Phases

/-! ## What is intended -/

/-- What is intended of the texts in a log: a text that is handed to the parser is the content of
the 200 answer to a GET right before it, with its terminator, and a 200 answer without content is
at once reported as a protocol error. -/
structure OwnBodies (log : List Observation) : Prop where
  own : ∀ earlier text later, log = earlier ++ .handed text :: later →
    ∃ before content stale state,
      earlier = before ++ [.answered .get .ok (some content) stale, .logicState state] ∧
      text = some (content ++ [0])
  empty : ∀ earlier stale later, log = earlier ++ .answered .get .ok none stale :: later →
    ∃ rest, later = .failed efiProtocolError :: rest

/-- No 200 answer to a GET comes without content while the response zone holds a text. -/
def NothingStale (log : List Observation) : Prop :=
  ∀ stale, Observation.answered .get .ok none (some stale) ∉ log

/-! ## Logs of exchanges -/

/-- An observation that neither ends a GET with 200 nor hands over a text. -/
def aside : Observation → Bool
  | .answered .get .ok _ _ => false
  | .handed _ => false
  | _ => true

/-- Logs in which every 200 answer to a GET is refused, or handed over, at once. -/
inductive Exchanges : List Observation → Prop where
  | nil : Exchanges []
  | aside (o : Observation) (later : List Observation) (side : aside o = true)
      (rest : Exchanges later) : Exchanges (o :: later)
  | refused (content stale : Option (List UInt8)) (later : List Observation)
      (passes : Passes content stale none) (rest : Exchanges later) :
      Exchanges (.answered .get .ok content stale :: .failed efiProtocolError :: later)
  | handed (content stale : Option (List UInt8)) (state : LogicState) (text : List UInt8)
      (later : List Observation) (passes : Passes content stale (some text))
      (rest : Exchanges later) :
      Exchanges (.answered .get .ok content stale :: .logicState state :: .handed (some text) ::
        later)

theorem Exchanges.append {a b : List Observation} (ha : Exchanges a) (hb : Exchanges b) :
    Exchanges (a ++ b) := by
  induction ha with
  | nil => exact hb
  | aside o later side rest ih => exact .aside o _ side ih
  | refused content stale later passes rest ih => exact .refused content stale _ passes ih
  | handed content stale state text later passes rest ih =>
      exact .handed content stale state text _ passes ih

theorem exchanges_of_aside {log : List Observation} (h : ∀ o ∈ log, aside o = true) :
    Exchanges log := by
  induction log with
  | nil => exact .nil
  | cons o later ih =>
      apply Exchanges.aside o later (h o List.mem_cons_self)
      exact ih fun o ho => h o (List.mem_cons_of_mem _ ho)

theorem exchanges_of_quiet {log : List Observation} (h : ∀ o ∈ log, quiet o = true) :
    Exchanges log := by
  apply exchanges_of_aside
  intro o ho
  have := h o ho
  cases o with
  | answered method status content stale =>
      cases method
      · cases status <;> first | rfl | cases this
      · rfl
  | _ => first | rfl | cases this

theorem exchanges_of_elementOnly {log : List Observation} (h : ∀ o ∈ log, elementOnly o = true) :
    Exchanges log := by
  apply exchanges_of_aside
  intro o ho
  have := h o ho
  cases o <;> first | rfl | cases this

/-- A text that is passed on is the answer's own unless it comes from before. -/
theorem text_of_passes {content stale : Option (List UInt8)} {text : List UInt8}
    (h : Passes content stale (some text)) :
    (∃ c, content = some c ∧ text = c ++ [0]) ∨ (content = none ∧ stale = some text) := by
  cases h with
  | kept => exact .inr ⟨rfl, rfl⟩
  | replaced content => exact .inl ⟨content, rfl, rfl⟩

/-- A text is handed over from the answer that is two observations before it. -/
def HandedFrom (earlier : List Observation) (text : Option (List UInt8)) : Prop :=
  ∃ before content stale state own,
    earlier = before ++ [.answered .get .ok content stale, .logicState state] ∧
    text = some own ∧ Passes content stale (some own)

theorem HandedFrom.append {earlier : List Observation} {text : Option (List UInt8)}
    (h : HandedFrom earlier text) (first : List Observation) :
    HandedFrom (first ++ earlier) text := by
  obtain ⟨before, content, stale, state, own, rfl, htext, hpasses⟩ := h
  exact ⟨first ++ before, content, stale, state, own, (List.append_assoc _ _ _).symm, htext,
    hpasses⟩

theorem Exchanges.handedFrom {log : List Observation} (h : Exchanges log) :
    ∀ {earlier text later}, log = earlier ++ .handed text :: later → HandedFrom earlier text := by
  induction h with
  | nil =>
      intro earlier text later heq
      simp at heq
  | aside o rest side _ ih =>
      intro earlier text later heq
      rcases earlier with _ | ⟨o', earlier⟩
      · cases heq
        cases side
      · exact (ih (List.cons.inj heq).2).append [o']
  | refused content stale rest passes _ ih =>
      intro earlier text later heq
      rcases earlier with _ | ⟨o, _ | ⟨o', earlier⟩⟩
      · cases heq
      · cases heq
      · exact (ih (List.cons.inj (List.cons.inj heq).2).2).append [o, o']
  | handed content stale state own rest passes _ ih =>
      intro earlier text later heq
      rcases earlier with _ | ⟨o, _ | ⟨o', _ | ⟨o'', earlier⟩⟩⟩
      · cases heq
      · cases heq
      · cases heq
        exact ⟨[], content, stale, state, own, rfl, rfl, passes⟩
      · exact (ih (List.cons.inj (List.cons.inj (List.cons.inj heq).2).2).2).append [o, o', o'']

/-- What follows a 200 answer to a GET: it is refused, or its text is handed over. -/
def AnsweredBy (content stale : Option (List UInt8)) (later : List Observation) : Prop :=
  (Passes content stale none ∧ ∃ rest, later = .failed efiProtocolError :: rest) ∨
    ∃ state text rest, Passes content stale (some text) ∧
      later = .logicState state :: .handed (some text) :: rest

theorem Exchanges.answeredBy {log : List Observation} (h : Exchanges log) :
    ∀ {earlier content stale later},
      log = earlier ++ .answered .get .ok content stale :: later →
        AnsweredBy content stale later := by
  induction h with
  | nil =>
      intro earlier content stale later heq
      simp at heq
  | aside o rest side _ ih =>
      intro earlier content stale later heq
      rcases earlier with _ | ⟨o', earlier⟩
      · cases heq
        cases side
      · exact ih (List.cons.inj heq).2
  | refused content stale rest passes _ ih =>
      intro earlier content' stale' later heq
      rcases earlier with _ | ⟨o, _ | ⟨o', earlier⟩⟩
      · cases heq
        exact .inl ⟨passes, rest, rfl⟩
      · cases heq
      · exact ih (List.cons.inj (List.cons.inj heq).2).2
  | handed content stale state own rest passes _ ih =>
      intro earlier content' stale' later heq
      rcases earlier with _ | ⟨o, _ | ⟨o', _ | ⟨o'', earlier⟩⟩⟩
      · cases heq
        exact .inr ⟨state, own, rest, passes, rfl⟩
      · cases heq
      · cases heq
      · exact ih (List.cons.inj (List.cons.inj (List.cons.inj heq).2).2).2

/-- In a log of exchanges every text is its answer's own exactly when nothing is stale. -/
theorem ownBodies_iff_nothingStale {log : List Observation} (h : Exchanges log) :
    OwnBodies log ↔ NothingStale log := by
  constructor
  · intro hown stale hmem
    obtain ⟨earlier, later, heq⟩ := List.append_of_mem hmem
    obtain ⟨rest, hrest⟩ := hown.empty earlier _ later heq
    rcases h.answeredBy heq with ⟨hpasses, -⟩ | ⟨state, text, rest', -, hlater⟩
    · cases hpasses
    · cases hrest.symm.trans hlater
  · intro hstale
    constructor
    · intro earlier text later heq
      obtain ⟨before, content, stale, state, own, hearlier, htext, hpasses⟩ := h.handedFrom heq
      rcases text_of_passes hpasses with ⟨c, rfl, rfl⟩ | ⟨rfl, rfl⟩
      · exact ⟨before, c, stale, state, hearlier, htext⟩
      · refine absurd ?_ (hstale own)
        rw [heq, hearlier]
        simp
    · intro earlier stale later heq
      rcases h.answeredBy heq with ⟨-, hrest⟩ | ⟨state, text, rest, hpasses, -⟩
      · exact hrest
      · rcases text_of_passes hpasses with ⟨c, hcontent, -⟩ | ⟨-, rfl⟩
        · cases hcontent
        · refine absurd ?_ (hstale text)
          rw [heq]
          simp

/-! ## Whole runs -/

def AddsExchanges (before after : Machine) : Prop :=
  ∃ new, after.log = before.log ++ new ∧ Exchanges new

theorem AddsExchanges.trans {a b c : Machine} (hab : AddsExchanges a b)
    (hbc : AddsExchanges b c) : AddsExchanges a c := by
  obtain ⟨first, hfirst, hexchanges⟩ := hab
  obtain ⟨later, hlater, hexchanges'⟩ := hbc
  refine ⟨first ++ later, ?_, hexchanges.append hexchanges'⟩
  rw [hlater, hfirst, List.append_assoc]

theorem addsExchanges_of_log {before after : Machine} (h : after.log = before.log) :
    AddsExchanges before after := ⟨[], h.trans (List.append_nil _).symm, .nil⟩

theorem addsExchanges_observe {m : Machine} {o : Observation} (side : aside o = true) :
    AddsExchanges m (m.observe o) := ⟨[o], rfl, .aside o [] side .nil⟩

theorem addsExchanges_of_endsPhase {fw : Firmware} {state : LogicState} {table : ResponseTable}
    {parse : ParseCalls} {before : Machine} {result : Outcome}
    (h : EndsPhase fw state table parse before result) : AddsExchanges before result.machine := by
  cases h with
  | failed earlier status same log silent =>
      refine ⟨earlier ++ [.failed result.status], log.trans (List.append_assoc _ _ _), ?_⟩
      exact (exchanges_of_quiet silent).append (.aside _ _ rfl .nil)
  | refused earlier content stale status same log silent passes =>
      refine ⟨_, log.trans (List.append_assoc _ _ _), ?_⟩
      exact (exchanges_of_quiet silent).append (.refused content stale [] passes .nil)
  | processed earlier elements content stale text status entered log silent passes own reported =>
      refine ⟨_, log.trans (List.append_assoc _ _ _), ?_⟩
      apply (exchanges_of_quiet silent).append
      apply Exchanges.handed content stale state text _ passes
      exact (exchanges_of_elementOnly own).append (.aside _ _ rfl .nil)

theorem addsExchanges_setLogicState (m : Machine) (state : LogicState) :
    AddsExchanges m (m.setLogicState state) := addsExchanges_observe (m := m) rfl

theorem addsExchanges_recoveryPhase (fw : Firmware) (identity : Identity) (calls : MainLogicCalls)
    (doneProcessing : Bool) (m : Machine) :
    AddsExchanges m (recoveryPhase fw identity calls doneProcessing m).machine := by
  have hbuilt : AddsExchanges m (buildJsonRecoveryRequest fw identity calls.recoveryEncode m).2 :=
    addsExchanges_of_log (buildJsonRecoveryRequest_frame fw identity calls.recoveryEncode m).1
  rw [recoveryPhase]
  dsimp only
  split
  · exact hbuilt.trans (addsExchanges_observe rfl)
  · have hupdated := hbuilt.trans (addsExchanges_of_endsPhase (endsPhase_exchangeAndUpdate fw
      (buildJsonRecoveryRequest fw identity calls.recoveryEncode m).2.httpRequest.url .recovery
      mRecoveryResponse calls.recovery calls.recoveryParse doneProcessing
      (buildJsonRecoveryRequest fw identity calls.recoveryEncode m).2))
    split
    · exact hupdated.trans (addsExchanges_setLogicState _ _)
    · split
      · exact hupdated.trans (addsExchanges_setLogicState _ _)
      · exact hupdated

theorem addsExchanges_dfciMainLogic (fw : Firmware) (identity : Identity) (calls : MainLogicCalls)
    (m : Machine) : AddsExchanges m (dfciMainLogic fw identity calls m).machine := by
  have hbuilt : AddsExchanges m (buildJsonBootstrapRequest fw identity calls.bootstrapEncode
      (m.setLogicState .preBootstrap)).2 :=
    (addsExchanges_setLogicState m _).trans (addsExchanges_of_log
      (buildJsonBootstrapRequest_frame fw identity calls.bootstrapEncode
        (m.setLogicState .preBootstrap)).1)
  rw [dfciMainLogic]
  dsimp only
  split
  · exact hbuilt.trans (addsExchanges_observe rfl)
  · have hupdated := hbuilt.trans (addsExchanges_of_endsPhase (endsPhase_exchangeAndUpdate fw
      (buildJsonBootstrapRequest fw identity calls.bootstrapEncode
        (m.setLogicState .preBootstrap)).2.httpRequest.bootstrapUrl .bootstrap
      mRecoveryBootstrapResponse calls.bootstrap calls.bootstrapParse false
      (buildJsonBootstrapRequest fw identity calls.bootstrapEncode
        (m.setLogicState .preBootstrap)).2))
    split
    · exact (hupdated.trans (addsExchanges_setLogicState _ _)).trans
        (addsExchanges_recoveryPhase fw identity calls _ _)
    · split
      · exact hupdated.trans (addsExchanges_setLogicState _ _)
      · exact hupdated

theorem addsExchanges_unconfigureZone (calls : UnconfigureNicCalls) (m : Machine) :
    AddsExchanges m (unconfigureZone calls m) := by
  rcases unconfigureZone_cases calls m with h | ⟨handle, h⟩
  · exact addsExchanges_of_log (congrArg Machine.log h)
  · rw [h]
    exact addsExchanges_observe rfl

theorem addsExchanges_runOnNic (fw : Firmware) (identity : Identity) (calls : NicCalls)
    (m : Machine) : AddsExchanges m (runOnNic .dfciMainLogic fw identity calls m).machine := by
  have hrun : AddsExchanges m
      (dfciMainLogic fw identity calls.mainLogic (m.observe (.mainLogic calls.handle))).machine :=
    (addsExchanges_observe rfl).trans (addsExchanges_dfciMainLogic fw identity calls.mainLogic _)
  unfold runOnNic
  dsimp only
  split
  · exact hrun.trans (addsExchanges_unconfigureZone calls.unconfigure _)
  · exact hrun

theorem addsExchanges_tryNic (fw : Firmware) (identity : Identity) (calls : NicCalls)
    (m : Machine) : AddsExchanges m (tryNic .dfciMainLogic fw identity calls m).machine := by
  rw [tryNic]
  dsimp only
  split
  · exact addsExchanges_of_log rfl
  · split
    · exact addsExchanges_of_log rfl
    · refine AddsExchanges.trans ?_ (addsExchanges_runOnNic fw identity calls _)
      exact addsExchanges_of_log rfl

theorem addsExchanges_tryNics (fw : Firmware) (identity : Identity) (nics : List NicCalls) :
    ∀ (status : EfiStatus) (doneProcessing : Bool) (m : Machine),
      AddsExchanges m (tryNics .dfciMainLogic fw identity nics status doneProcessing m).machine := by
  induction nics with
  | nil => exact fun status doneProcessing m => addsExchanges_of_log rfl
  | cons nic nics ih =>
      intro status doneProcessing m
      rw [tryNics]
      split
      · exact addsExchanges_of_log rfl
      · exact (addsExchanges_tryNic fw identity nic m).trans (ih _ _ _)

theorem addsExchanges_tryEachNic (fw : Firmware) (identity : Identity) (calls : TryEachNicCalls)
    (m : Machine) :
    AddsExchanges m (tryEachNicThenProcessRequest .dfciMainLogic fw identity calls m).2 := by
  rw [tryEachNicThenProcessRequest]
  split
  · exact addsExchanges_of_log rfl
  · dsimp only
    split
    · exact addsExchanges_of_log rfl
    · have hallocated : AddsExchanges m { m with pool := (allocatePool true [] m.pool).2 } :=
        addsExchanges_of_log rfl
      apply (hallocated.trans (addsExchanges_tryNics fw identity calls.nics calls.locateHandles
        false _)).trans
      exact addsExchanges_of_log rfl

theorem restoreCertificates_log (status : EfiStatus) (w : World) :
    (restoreCertificates status w).machine.log = w.machine.log := by
  rw [restoreCertificates]
  split <;> rfl

theorem installCertificate_log (ctx : Context) (calls : EnableCertificateCalls) (w : World) :
    (installCertificate ctx calls w).2.machine.log = w.machine.log := by
  rw [installCertificate]
  split
  · rfl
  · dsimp only
    split
    · exact restoreCertificates_log _ _
    · rfl

theorem saveOldCertificate_log (calls : EnableCertificateCalls) (list : Option Buffer)
    (w : World) : (saveOldCertificate calls list w).machine.log = w.machine.log := by
  rw [saveOldCertificate]
  split <;> rfl

theorem enableDfciCertificate_log (ctx : Context) (calls : EnableCertificateCalls) (w : World) :
    (enableDfciCertificate ctx calls w).2.machine.log = w.machine.log := by
  rw [enableDfciCertificate]
  dsimp only
  split
  · exact installCertificate_log ctx calls w
  · split
    · rfl
    · exact (installCertificate_log ctx calls _).trans (saveOldCertificate_log calls _ _)

theorem dfciGetASetting_log (calls : GetASettingCalls) (m : Machine) :
    (dfciGetASetting calls m).machine.log = m.log := by
  rw [dfciGetASetting, readSetting]
  split
  · rfl
  · dsimp only
    split
    · rfl
    · split
      · rfl
      · split
        · rfl
        · split <;> rfl

theorem initializeNetworkRequest_log (calls : InitializeCalls) (m : Machine) :
    (initializeNetworkRequest calls m).2.log = m.log := by
  rw [initializeNetworkRequest, readBootstrapUrl]
  dsimp only
  split
  · exact dfciGetASetting_log _ _
  · exact (dfciGetASetting_log _ _).trans (dfciGetASetting_log _ _)

theorem assembleMessage_log (calls : MessageCalls) (status : EfiStatus) (m : Machine) :
    (assembleMessage calls status m).2.log = m.log := by
  rw [assembleMessage, printMessage]
  split
  · rfl
  · dsimp only
    split <;> rfl

theorem exitNetworkRequest_log (calls : NetworkRequestCalls) (status : EfiStatus)
    (message : Option Message) (w : World) :
    (exitNetworkRequest calls status message w).world.machine.log = w.machine.log :=
  restoreCertificates_log calls.restore w

theorem addsExchanges_processDfciNetworkRequest (ctx : Context) (calls : NetworkRequestCalls)
    (w : World) :
    AddsExchanges w.machine (processDfciNetworkRequest ctx calls w).world.machine := by
  have hinitialized := initializeNetworkRequest_log calls.settings w.machine
  rw [processDfciNetworkRequest]
  dsimp only
  split
  · exact addsExchanges_of_log ((exitNetworkRequest_log _ _ _ _).trans hinitialized)
  · have henabled := (enableDfciCertificate_log ctx calls.certificate
      { w with machine := (initializeNetworkRequest calls.settings w.machine).2 }).trans
        hinitialized
    split
    · exact addsExchanges_of_log ((exitNetworkRequest_log _ _ _ _).trans henabled)
    · rw [tryAndReport]
      apply (addsExchanges_of_log henabled).trans
      apply (addsExchanges_tryEachNic ctx.fw ctx.identity calls.nics _).trans
      exact addsExchanges_of_log
        ((exitNetworkRequest_log _ _ _ _).trans (assembleMessage_log calls.message _ _))

theorem addsExchanges_processRequests (ctx : Context) (requests : List NetworkRequestCalls) :
    ∀ w : World, AddsExchanges w.machine (processRequests ctx requests w).machine := by
  induction requests with
  | nil => exact fun w => addsExchanges_of_log rfl
  | cons calls later ih =>
      exact fun w => (addsExchanges_processDfciNetworkRequest ctx calls w).trans (ih _)

theorem exchanges_processRequests (ctx : Context) (certificate : Option Variable)
    (requests : List NetworkRequestCalls) :
    Exchanges (processRequests ctx requests (World.boot certificate)).machine.log := by
  obtain ⟨new, hlog, hexchanges⟩ :=
    addsExchanges_processRequests ctx requests (World.boot certificate)
  rw [hlog]
  exact hexchanges

/-- Over any number of requests, every text handed to the parser is the phase's own, and every
answer without content is refused, exactly when no such answer comes while the response zone
holds a text. -/
theorem processRequests_ownBodies_iff (ctx : Context) (certificate : Option Variable)
    (requests : List NetworkRequestCalls) :
    OwnBodies (processRequests ctx requests (World.boot certificate)).machine.log ↔
      NothingStale (processRequests ctx requests (World.boot certificate)).machine.log :=
  ownBodies_iff_nothingStale (exchanges_processRequests ctx certificate requests)

/-- The server answers the POST with a text and the GET without content. -/
def staleRequest : NetworkRequestCalls where
  settings := sampleSettings
  nics :=
    { nics :=
        [{ mainLogic :=
            { bootstrap :=
                { post := sampleAnswer .accepted
                    [("Location", "https://p"), ("Content-Length", "2")] "\x7b\x7d"
                  get := sampleAnswer .ok [] "" } } }] }

/-- The body of the POST's answer is handed to the parser. -/
theorem staleRequest_not_ownBodies :
    ¬ OwnBodies (processRequests sampleContext [staleRequest] (World.boot none)).machine.log := by
  rw [ownBodies_iff_nothingStale (exchanges_processRequests sampleContext none [staleRequest])]
  intro h
  have hstale : Observation.answered .get .ok none (some [0x7B, 0x7D, 0]) ∈
      (processRequests sampleContext [staleRequest] (World.boot none)).machine.log := by
    decide +kernel
  exact h _ hstale

end MuTegra.Dfci.OwnBody
