/- Unit: MuTegra/Dfci/Phases
   source: NvidiaPkg/Applications/DfciMenu/DfciRequest.c, NvidiaPkg/Applications/DfciMenu/DfciUpdate.c
   digest: How the bootstrap and recovery phases of the main logic follow one another. -/

import MuTegra.Dfci.MainLogic
import MuTegra.Dfci.Mailbox
import MuTegra.Dfci.Traffic

/-!
One status carries transport errors and parser results alike. A transfer that fails with the
status of a parser result is taken for that result, and for nothing else the phases go wrong.
-/

set_option autoImplicit false
set_option relaxedAutoImplicit false

namespace MuTegra.Dfci.Phases

open MuTegra.Foundation.Ownership
open MuTegra.Uefi.Status
open MuTegra.Dfci.State MuTegra.Dfci.Exchange MuTegra.Dfci.Update MuTegra.Dfci.MainLogic
open MuTegra.Dfci.Mailbox MuTegra.Dfci.Traffic

def elementOnly : Observation → Bool
  | .signatureRead _ => true
  | .variableSet _ => true
  | _ => false

/-- What an element adds: its own observations, a variable only with its own status. -/
structure AddsElement (before : Machine) (result : EfiStatus × Machine)
    (new : List Observation) : Prop where
  log : result.2.log = before.log ++ new
  own : ∀ o ∈ new, elementOnly o = true
  reported : ∀ name, Observation.variableSet name ∈ new → result.1 = efiMediaChanged
  state : result.2.logicState = before.logicState

theorem addsElement_nothing {before after : Machine} {status : EfiStatus}
    (hlog : after.log = before.log) (hstate : after.logicState = before.logicState) :
    ∃ new, AddsElement before (status, after) new :=
  ⟨[], hlog.trans (List.append_nil _).symm, nofun, nofun, hstate⟩

theorem addsElement_setMailbox (entry : JsonSetVariableTableEntry) (string : StringValue)
    (calls : ElementCalls) (m : Machine) :
    ∃ new, AddsElement m (setMailbox entry string calls m) new := by
  unfold setMailbox
  dsimp only
  split
  · refine ⟨[.signatureRead string.valueSize], rfl, ?_, ?_, rfl⟩
    · simp [elementOnly]
    · simp
  · split
    · refine ⟨[.signatureRead string.valueSize], rfl, ?_, ?_, rfl⟩
      · simp [elementOnly]
      · simp
    · refine ⟨[.signatureRead string.valueSize, .variableSet entry.variableName],
        List.append_assoc _ _ _, ?_, fun _ _ => rfl, rfl⟩
      simp [elementOnly]

theorem addsElement_processFunction (fw : Firmware) (table : Option ResponseTable)
    (rqst : Option JsonRequestElement) (calls : ElementCalls) (m : Machine) :
    ∃ new, AddsElement m (processFunction fw table rqst calls m) new := by
  rw [processFunction_eq]
  split
  · exact addsElement_nothing rfl rfl
  · next target _ =>
      unfold applyRow
      dsimp only
      split
      · exact addsElement_nothing rfl rfl
      · next string _ =>
          unfold applyAction
          split
          · obtain ⟨new, log, own, reported, state⟩ := addsElement_setMailbox
              (mJsonSetVariableEntryMailbox fw.headers _) string calls
              { m with pool := (decodeValue fw target.1 target.2 calls m.pool).2 }
            exact ⟨new, log, own, reported, state⟩
          · exact addsElement_nothing rfl rfl
          · exact addsElement_nothing rfl rfl
          · exact addsElement_nothing rfl rfl

theorem processElements_log (fw : Firmware) (table : Option ResponseTable)
    (elements : List ElementRun) :
    ∀ m : Machine, ∃ new,
      (processElements fw table elements m).2.log = m.log ++ new ∧
      (∀ o ∈ new, elementOnly o = true) ∧
      (∀ name, Observation.variableSet name ∈ new →
        efiMediaChanged ∈ (processElements fw table elements m).1) ∧
      (processElements fw table elements m).2.logicState = m.logicState := by
  induction elements with
  | nil => exact fun m => ⟨[], (List.append_nil _).symm, nofun, nofun, rfl⟩
  | cons e elements ih =>
      intro m
      obtain ⟨first, hfirst⟩ := addsElement_processFunction fw table e.1 e.2 m
      obtain ⟨later, hlog, hown, hreported, hstate⟩ := ih (processFunction fw table e.1 e.2 m).2
      refine ⟨first ++ later, ?_, ?_, ?_, hstate.trans hfirst.state⟩
      · exact hlog.trans (hfirst.log ▸ List.append_assoc _ _ _)
      · intro o ho
        exact (List.mem_append.mp ho).elim (hfirst.own o) (hown o)
      · intro name hname
        rcases List.mem_append.mp hname with h | h
        · exact List.mem_cons.mpr (.inl (hfirst.reported name h).symm)
        · exact List.mem_cons.mpr (.inr (hreported name h))

/-- The parser reports success, or nothing found, only when no callback set a variable. -/
def ReportsChanges (fw : Firmware) (table : ResponseTable) (parse : ParseCalls) : Prop :=
  parse.status = efiSuccess ∨ parse.status = efiNotFound →
    ∀ m, efiMediaChanged ∉ (processElements fw (some table) parse.elements m).1

theorem buildJsonBootstrapRequest_frame (fw : Firmware) (identity : Identity) (encode : EfiStatus)
    (m : Machine) :
    (buildJsonBootstrapRequest fw identity encode m).2.log = m.log ∧
      (buildJsonBootstrapRequest fw identity encode m).2.logicState = m.logicState := by
  rw [buildJsonBootstrapRequest]
  dsimp only
  split
  · exact ⟨rfl, rfl⟩
  · exact ⟨rfl, rfl⟩

theorem buildJsonRecoveryRequest_frame (fw : Firmware) (identity : Identity) (encode : EfiStatus)
    (m : Machine) :
    (buildJsonRecoveryRequest fw identity encode m).2.log = m.log ∧
      (buildJsonRecoveryRequest fw identity encode m).2.logicState = m.logicState := by
  rw [buildJsonRecoveryRequest]
  dsimp only
  split
  · exact ⟨rfl, rfl⟩
  · exact ⟨rfl, rfl⟩

/-- How a phase ends: its exchange is given up or refused, or its text is processed. -/
inductive EndsPhase (fw : Firmware) (state : LogicState) (table : ResponseTable)
    (parse : ParseCalls) (before : Machine) (result : Outcome) : Prop where
  | failed (earlier : List Observation) (status : efiError result.status = true)
      (same : result.machine.logicState = before.logicState)
      (log : result.machine.log = before.log ++ earlier ++ [.failed result.status])
      (silent : ∀ o ∈ earlier, quiet o = true)
  | refused (earlier : List Observation) (content stale : Option (List UInt8))
      (status : result.status = efiProtocolError)
      (same : result.machine.logicState = before.logicState)
      (log : result.machine.log = before.log ++ earlier ++
        [.answered .get .ok content stale, .failed efiProtocolError])
      (silent : ∀ o ∈ earlier, quiet o = true) (passes : Passes content stale none)
  | processed (earlier elements : List Observation) (content stale : Option (List UInt8))
      (text : List UInt8) (status : result.status = parse.status)
      (entered : result.machine.logicState = state)
      (log : result.machine.log = before.log ++ earlier ++
        ([.answered .get .ok content stale, .logicState state, .handed (some text)] ++ elements ++
          [.parsed parse.status]))
      (silent : ∀ o ∈ earlier, quiet o = true) (passes : Passes content stale (some text))
      (own : ∀ o ∈ elements, elementOnly o = true)
      (reported : ReportsChanges fw table parse →
        parse.status = efiSuccess ∨ parse.status = efiNotFound →
          ∀ name, Observation.variableSet name ∉ elements)

theorem endsPhase_exchangeAndUpdate (fw : Firmware) (url : Option Buffer) (state : LogicState)
    (table : ResponseTable) (async : AsyncCalls) (parse : ParseCalls) (doneProcessing : Bool)
    (m : Machine) :
    EndsPhase fw state table parse m
      (exchangeAndUpdate fw url state table async parse doneProcessing m) := by
  rw [exchangeAndUpdate]
  have hexchange := endsExchange_processAsyncRequest url async doneProcessing m
  dsimp only
  cases hexchange with
  | failed earlier status same log silent =>
      rw [if_pos status]
      exact .failed earlier status same log silent
  | refused earlier content stale status same log silent passes =>
      rw [if_pos (by simp [status, efiProtocolError])]
      exact .refused earlier content stale status same log silent passes
  | received earlier content stale text status same log silent passes body =>
      rw [if_neg (by simp [status])]
      obtain ⟨elements, helements, hown, hreported, hstate⟩ := processElements_log fw (some table)
        parse.elements (((processAsyncRequest url async doneProcessing m).machine.setLogicState
          state).observe (.handed (some text)))
      rw [dfciUpdateFromJson]
      change EndsPhase fw state table parse m ⟨parse.status, _, Machine.observe (processElements fw
        (some table) parse.elements (((processAsyncRequest url async doneProcessing
          m).machine.setLogicState state).observe (.handed ((processAsyncRequest url async
            doneProcessing m).machine.httpResponse.body.map Buffer.bytes)))).2 _⟩
      rw [body]
      refine .processed earlier elements content stale text rfl hstate ?_ silent passes hown ?_
      · change _ ++ [Observation.parsed parse.status] = _
        rw [helements]
        change ((_ ++ [Observation.logicState state]) ++ [Observation.handed (some text)]) ++
          elements ++ [Observation.parsed parse.status] = _
        rw [log]
        simp only [List.append_assoc, List.cons_append, List.nil_append]
      · intro hreports hstatus name hname
        exact hreports hstatus _ (hreported name hname)

end MuTegra.Dfci.Phases
