/- Unit: MuTegra/Dfci/Mailbox
   source: NvidiaPkg/Applications/DfciMenu/DfciUpdate.c
   digest: Which elements reach a mailbox variable, and what happens to the others. -/

import MuTegra.Dfci.Update
import MuTegra.Foundation.Runs

/-!
The signature word is read before the size of the decoded payload is looked at, and a message
is stored over the one before it. An element is processed as intended unless a payload of fewer
than four bytes is checked, or a message is stored in a slot that holds one already.
-/

set_option autoImplicit false
set_option relaxedAutoImplicit false

namespace MuTegra.Dfci.Mailbox

open MuTegra.Foundation.Ownership MuTegra.Foundation.ByteFields MuTegra.Foundation.Runs
open MuTegra.Uefi.Status MuTegra.Uefi.Strings MuTegra.Uefi.Variables
open MuTegra.Dfci.State MuTegra.Dfci.Update

/-! ## Decoding -/

/-- The decoded payload of a value, when decoding as the row asks for succeeds. -/
def decodedPayload (fw : Firmware) (row : JsonResponseToActionEntry) (value : List UInt8) :
    Option (List UInt8) :=
  if row.decodeBase64 then
    if (fw.base64Query value).1 = efiBufferTooSmall ∧ efiError (fw.base64Decode value).1 = false
    then some (fw.base64Decode value).2
    else none
  else some (value ++ [0])

/-- The pool holds the same buffers and the same number of faults as before. -/
structure SamePool (before after : Ledger) : Prop where
  live : after.live = before.live
  faults : after.faults = before.faults

variable {fw : Firmware} {row : JsonResponseToActionEntry} {value : List UInt8}
    {calls : ElementCalls} {pool : Ledger}

structure Decodes (fw : Firmware) (row : JsonResponseToActionEntry) (value : List UInt8)
    (calls : ElementCalls) (pool : Ledger) (payload : List UInt8) (string : StringValue) :
    Prop where
  allocated : calls.allocated = true
  decoded : decodedPayload fw row value = some payload
  address : string.buffer.address = pool.next
  starts : payload <+: string.buffer.bytes
  valueSize : string.valueSize = payload.length

theorem decodes_take {payload : List UInt8} {string : StringValue}
    (h : Decodes fw row value calls pool payload string) :
    string.buffer.bytes.take string.valueSize = payload := by
  rw [h.valueSize]
  exact (List.prefix_iff_eq_take.mp h.starts).symm

theorem decodeValue_ok {payload : List UInt8} (pool : Ledger)
    (hpayload : decodedPayload fw row value = some payload) (halloc : calls.allocated = true) :
    ∃ string, decodeValue fw row value calls pool = (.ok string, pool.grant) ∧
      Decodes fw row value calls pool payload string := by
  unfold decodedPayload at hpayload
  rw [decodeValue]
  split at hpayload
  · next hrow =>
      split at hpayload
      · next hok =>
          cases hpayload
          rw [if_pos hrow]
          refine ⟨⟨⟨pool.next, (fw.base64Decode value).2 ++ [0]⟩, (fw.base64Decode value).2.length⟩,
            ?_, halloc, ?_, rfl, List.prefix_append _ _, rfl⟩
          · simp [decodeBase64Value, hok.1, hok.2, halloc, allocatePool, stringValue]
          · rw [decodedPayload, if_pos hrow, if_pos hok]
      · cases hpayload
  · next hrow =>
      cases hpayload
      rw [if_neg hrow]
      refine ⟨⟨⟨pool.next, value ++ [0]⟩, (value ++ [0]).length⟩, ?_, halloc, ?_, rfl,
        List.prefix_rfl, rfl⟩
      · simp [copyPlainValue, halloc, allocatePool, stringValue]
      · rw [decodedPayload, if_neg hrow]

theorem decodeValue_error (pool : Ledger)
    (hfail : decodedPayload fw row value = none ∨ calls.allocated = false) :
    ∃ status, (decodeValue fw row value calls pool).1 = .error status ∧
      SamePool pool (decodeValue fw row value calls pool).2 ∧
      ((∀ value, (fw.base64Decode value).1 ≠ efiMediaChanged) → status ≠ efiMediaChanged) := by
  rw [decodeValue]
  by_cases hrow : row.decodeBase64 = true
  · rw [if_pos hrow]
    by_cases hquery : (fw.base64Query value).1 = efiBufferTooSmall
    · cases halloc : calls.allocated with
      | false =>
          refine ⟨efiOutOfResources, ?_, ?_, fun _ => by decide⟩
          · simp [decodeBase64Value, hquery, halloc, allocatePool, stringValue]
          · constructor <;> simp [decodeBase64Value, hquery, halloc, allocatePool]
      | true =>
          have hdecode : efiError (fw.base64Decode value).1 = true := by
            simpa [decodedPayload, hrow, hquery, halloc] using hfail
          refine ⟨(fw.base64Decode value).1, ?_, ?_, fun h => h value⟩
          · simp [decodeBase64Value, hquery, halloc, hdecode, allocatePool]
          · constructor <;>
              simp [decodeBase64Value, hquery, halloc, hdecode, allocatePool, freeIfAny, addressOf]
    · refine ⟨efiInvalidParameter, ?_, ?_, fun _ => by decide⟩
      · simp [decodeBase64Value, hquery]
      · constructor <;> simp [decodeBase64Value, hquery]
  · rw [if_neg hrow]
    have halloc : calls.allocated = false := by simpa [decodedPayload, hrow] using hfail
    refine ⟨efiOutOfResources, ?_, ?_, fun _ => by decide⟩
    · simp [copyPlainValue, halloc, allocatePool, stringValue]
    · constructor <;> simp [copyPlainValue, halloc, allocatePool]

/-! ## The row an element is for -/

theorem rowMatches_iff {fieldName : List UInt8} {row : JsonResponseToActionEntry} :
    rowMatches fieldName row = true ↔ fieldName = row.fieldName.chars := by
  rw [rowMatches, decide_eq_true_iff]
  constructor
  · rintro ⟨hlen, hcmp⟩
    rw [hlen] at hcmp
    exact ((asciiStrnCmp_eq_zero_iff row.fieldName.noNull hlen).mp hcmp).symm
  · rintro rfl
    exact ⟨rfl, (asciiStrnCmp_eq_zero_iff row.fieldName.noNull rfl).mpr rfl⟩

def targetRow : Option ResponseTable → Option JsonRequestElement →
    Option (JsonResponseToActionEntry × List UInt8)
  | some rows, some ⟨some fieldName, some value⟩ =>
      (rows.find? (rowMatches fieldName)).map fun row => (row, value)
  | _, _ => none

theorem targetRow_eq_some {table : Option ResponseTable} {rqst : Option JsonRequestElement}
    {row : JsonResponseToActionEntry} {value : List UInt8}
    (h : targetRow table rqst = some (row, value)) :
    ∃ rows, table = some rows ∧ row ∈ rows ∧
      rqst = some ⟨some row.fieldName.chars, some value⟩ := by
  unfold targetRow at h
  split at h
  · next rows fieldName value' =>
      obtain ⟨row', hfind, heq⟩ := Option.map_eq_some_iff.mp h
      cases heq
      refine ⟨rows, rfl, List.mem_of_find?_eq_some hfind, ?_⟩
      rw [rowMatches_iff.mp (List.find?_some hfind)]
  · cases h

theorem processFunction_eq (fw : Firmware) (table : Option ResponseTable)
    (rqst : Option JsonRequestElement) (calls : ElementCalls) (m : Machine) :
    processFunction fw table rqst calls m =
      match targetRow table rqst with
      | none => (efiInvalidParameter, m)
      | some target => applyRow fw target.1 target.2 calls m := by
  rcases rqst with _ | ⟨_ | fieldName, _ | value⟩ <;> rcases table with _ | rows
  case some.some.some.some =>
    cases hfind : rows.find? (rowMatches fieldName) <;> simp [processFunction, targetRow, hfind]
  all_goals rfl

/-! ## What an element may do -/

def newObservations (before after : Machine) : List Observation :=
  after.log.drop before.log.length

def SetsVariable (before after : Machine) : Prop :=
  ∃ name, Observation.variableSet name ∈ newObservations before after

/-- A step writes the payload of an element to the mailbox of its row: the names agree, the
value decodes, and the payload starts with the mailbox's signature. -/
def WritesPayload (fw : Firmware) (table : Option ResponseTable)
    (rqst : Option JsonRequestElement) (before after : Machine) : Prop :=
  ∃ rows row value payload index,
    table = some rows ∧ row ∈ rows ∧ rqst = some ⟨some row.fieldName.chars, some value⟩ ∧
    row.action = .setVariable index ∧ decodedPayload fw row value = some payload ∧
    4 ≤ payload.length ∧
    field payload 0 4 = (mJsonSetVariableEntryMailbox fw.headers index).signature ∧
    after.mailboxes = Function.update before.mailboxes
      (mJsonSetVariableEntryMailbox fw.headers index).variableName
      (setVariable (mJsonSetVariableEntryMailbox fw.headers index).mailboxAttributes payload)

def messageIn (message : MessageSlot) (status : HttpStatus) : Option Buffer :=
  match message with
  | .httpMessage => status.httpMessage
  | .httpReturnCode => status.httpReturnCode

/-- A step keeps one new buffer, in a slot of the status zone that held none. -/
structure HandsOver (before after : Machine) : Prop where
  faults : after.pool.faults = before.pool.faults
  slot : ∃ message, ∃ b : Buffer, after.pool.live = b.address ::ₘ before.pool.live ∧
    messageIn message before.httpStatus = none ∧ messageIn message after.httpStatus = some b

structure ElementOk (fw : Firmware) (table : Option ResponseTable)
    (rqst : Option JsonRequestElement) (m : Machine) (result : EfiStatus × Machine) : Prop where
  written : (SetsVariable m result.2 ∧ WritesPayload fw table rqst m result.2) ∨
    (¬ SetsVariable m result.2 ∧ result.2.mailboxes = m.mailboxes)
  reads : ∀ size, Observation.signatureRead size ∈ newObservations m result.2 → 4 ≤ size
  buffers : SamePool m.pool result.2.pool ∨ HandsOver m result.2
  status : result.1 = efiMediaChanged ↔ SetsVariable m result.2

def checkedPayload (fw : Firmware) (table : Option ResponseTable)
    (rqst : Option JsonRequestElement) (calls : ElementCalls) : Option (List UInt8) :=
  match targetRow table rqst with
  | none => none
  | some target =>
      match target.1.action with
      | .setVariable _ =>
          if calls.allocated then decodedPayload fw target.1 target.2 else none
      | _ => none

/-- A payload that gets to the signature check is too short for a signature. -/
def shortPacket (fw : Firmware) (table : Option ResponseTable)
    (rqst : Option JsonRequestElement) (calls : ElementCalls) : Bool :=
  (checkedPayload fw table rqst calls).any fun payload => payload.length < 4

theorem checkedPayload_eq_some {fw : Firmware} {table : Option ResponseTable}
    {rqst : Option JsonRequestElement} {calls : ElementCalls} {payload : List UInt8}
    (h : checkedPayload fw table rqst calls = some payload) :
    ∃ row value index, targetRow table rqst = some (row, value) ∧
      row.action = .setVariable index ∧ calls.allocated = true ∧
      decodedPayload fw row value = some payload := by
  unfold checkedPayload at h
  split at h
  · cases h
  · next target htarget =>
      split at h
      · next index haction =>
          split at h
          · next halloc => exact ⟨target.1, target.2, index, htarget, haction, halloc, h⟩
          · cases h
      · cases h

def storedMessage (fw : Firmware) (table : Option ResponseTable)
    (rqst : Option JsonRequestElement) (calls : ElementCalls) : Option MessageSlot :=
  match targetRow table rqst with
  | none => none
  | some target =>
      if calls.allocated && (decodedPayload fw target.1 target.2).isSome then
        match target.1.action with
        | .setReturnCode message => some message
        | .setHttpMessage message => some message
        | _ => none
      else none

def replacesMessage (fw : Firmware) (table : Option ResponseTable)
    (rqst : Option JsonRequestElement) (calls : ElementCalls) (m : Machine) : Bool :=
  (storedMessage fw table rqst calls).any fun message => (messageIn message m.httpStatus).isSome

theorem storedMessage_eq_some {fw : Firmware} {table : Option ResponseTable}
    {rqst : Option JsonRequestElement} {calls : ElementCalls} {message : MessageSlot}
    (h : storedMessage fw table rqst calls = some message) :
    ∃ row value payload, targetRow table rqst = some (row, value) ∧
      (row.action = .setReturnCode message ∨ row.action = .setHttpMessage message) ∧
      calls.allocated = true ∧ decodedPayload fw row value = some payload := by
  unfold storedMessage at h
  split at h
  · cases h
  · next target htarget =>
      split at h
      · next hdecodes =>
          rw [Bool.and_eq_true] at hdecodes
          obtain ⟨payload, hpayload⟩ := Option.isSome_iff_exists.mp hdecodes.2
          refine ⟨target.1, target.2, payload, htarget, ?_, hdecodes.1, hpayload⟩
          split at h
          · next haction =>
              cases h
              exact .inl haction
          · next haction =>
              cases h
              exact .inr haction
          · cases h
      · cases h

/-! ## One element -/

variable {table : Option ResponseTable} {rqst : Option JsonRequestElement} {m : Machine}

theorem newObservations_eq {before after : Machine} {new : List Observation}
    (h : after.log = before.log ++ new) : newObservations before after = new := by
  rw [newObservations, h, List.drop_left]

theorem mem_newObservations_append {before after : Machine} {new : List Observation}
    (h : after.log = before.log ++ new) (o : Observation) :
    o ∈ newObservations before after ↔ o ∈ new := by
  rw [newObservations_eq h]

theorem elementOk_unchanged {status : EfiStatus} {after : Machine}
    (hmailboxes : after.mailboxes = m.mailboxes) (hlog : after.log = m.log)
    (hpool : SamePool m.pool after.pool ∨ HandsOver m after) (hstatus : status ≠ efiMediaChanged) :
    ElementOk fw table rqst m (status, after) := by
  have hnew : after.log = m.log ++ [] := by simpa using hlog
  have hsets : ¬ SetsVariable m after := by
    rintro ⟨name, hname⟩
    simpa using (mem_newObservations_append hnew _).mp hname
  refine ⟨.inr ⟨hsets, hmailboxes⟩, ?_, hpool, ?_⟩
  · intro size hsize
    simpa using (mem_newObservations_append hnew _).mp hsize
  · exact ⟨fun h => absurd h hstatus, fun h => absurd h hsets⟩

theorem elementOk_refused {status : EfiStatus} {after : Machine} {size : ℕ} (hsize : 4 ≤ size)
    (hmailboxes : after.mailboxes = m.mailboxes)
    (hlog : after.log = m.log ++ [.signatureRead size])
    (hpool : SamePool m.pool after.pool) (hstatus : status ≠ efiMediaChanged) :
    ElementOk fw table rqst m (status, after) := by
  have hsets : ¬ SetsVariable m after := by
    rintro ⟨name, hname⟩
    simpa using (mem_newObservations_append hlog _).mp hname
  refine ⟨.inr ⟨hsets, hmailboxes⟩, ?_, .inl hpool, ?_⟩
  · intro size' hmem
    have : size' = size := by simpa using (mem_newObservations_append hlog _).mp hmem
    exact this ▸ hsize
  · exact ⟨fun h => absurd h hstatus, fun h => absurd h hsets⟩

theorem packetSignature_eq {row : JsonResponseToActionEntry} {value payload : List UInt8}
    {pool : Ledger} {string : StringValue}
    (h : Decodes fw row value calls pool payload string) (hlen : 4 ≤ payload.length) :
    packetSignature string calls = field payload 0 4 := by
  obtain ⟨tail, htail⟩ := h.starts
  rw [packetSignature, field, field, ← htail, List.drop_zero, List.drop_zero, List.append_assoc,
    List.take_append_of_le_length hlen]

theorem samePool_freeString {pool : Ledger} {string : StringValue}
    (haddress : string.buffer.address = pool.next) :
    SamePool pool (freePool (some string.buffer) pool.grant) := by
  constructor <;> simp [freePool, addressOf, haddress]

theorem elementOk_setMailbox {row : JsonResponseToActionEntry} {value payload : List UInt8}
    {string : StringValue} {index : Fin 6} (htarget : targetRow table rqst = some (row, value))
    (haction : row.action = .setVariable index)
    (hdec : Decodes fw row value calls m.pool payload string) (hlen : 4 ≤ payload.length)
    (hset : calls.setVariable ≠ efiMediaChanged) :
    ElementOk fw table rqst m
      (setMailbox (mJsonSetVariableEntryMailbox fw.headers index) string calls
        { m with pool := m.pool.grant }) := by
  have hsize : 4 ≤ string.valueSize := hdec.valueSize ▸ hlen
  have hpool := samePool_freeString hdec.address
  rw [setMailbox]
  by_cases hsig : (mJsonSetVariableEntryMailbox fw.headers index).signature ≠
      packetSignature string calls
  · rw [if_pos hsig]
    exact elementOk_refused hsize rfl rfl hpool (by decide)
  · rw [if_neg hsig]
    by_cases hstatus : efiError calls.setVariable = true
    · rw [if_pos hstatus]
      exact elementOk_refused hsize rfl rfl hpool hset
    · rw [if_neg hstatus]
      obtain ⟨rows, htable, hrow, hrqst⟩ := targetRow_eq_some htarget
      have hlog := List.append_assoc m.log [.signatureRead string.valueSize]
        [.variableSet (mJsonSetVariableEntryMailbox fw.headers index).variableName]
      have hsets : SetsVariable m (freeString string (writeMailbox
          (mJsonSetVariableEntryMailbox fw.headers index)
          (string.buffer.bytes.take string.valueSize)
          (Machine.observe { m with pool := m.pool.grant } (.signatureRead string.valueSize)))) :=
        ⟨(mJsonSetVariableEntryMailbox fw.headers index).variableName,
          (mem_newObservations_append hlog _).mpr (by simp)⟩
      refine ⟨.inl ⟨hsets, rows, row, value, payload, index, htable, hrow, hrqst, haction,
        hdec.decoded, hlen, ?_, ?_⟩, ?_, .inl hpool, fun _ => hsets, fun _ => rfl⟩
      · rw [← packetSignature_eq hdec hlen, ← not_ne_iff.mp hsig]
      · rw [decodes_take hdec]
        rfl
      · intro size hmem
        have : size = string.valueSize := by
          simpa using (mem_newObservations_append hlog _).mp hmem
        exact this ▸ hsize

theorem messageIn_storeMessage (message other : MessageSlot) (string : StringValue) (m : Machine) :
    messageIn other (storeMessage message string m).httpStatus =
      if message = other then some string.buffer else messageIn other m.httpStatus := by
  cases message <;> cases other <;> rfl

theorem elementOk_storeMessage {message : MessageSlot} {string : StringValue}
    (haddress : string.buffer.address = m.pool.next)
    (hempty : messageIn message m.httpStatus = none) :
    ElementOk fw table rqst m
      (efiSuccess, storeMessage message string { m with pool := m.pool.grant }) := by
  have hlive : (storeMessage message string { m with pool := m.pool.grant }).pool.live =
      string.buffer.address ::ₘ m.pool.live := by
    rw [haddress]
    rfl
  have hfilled : messageIn message
      (storeMessage message string { m with pool := m.pool.grant }).httpStatus =
        some string.buffer := by
    rw [messageIn_storeMessage, if_pos rfl]
  exact elementOk_unchanged rfl rfl (.inr ⟨rfl, message, string.buffer, hlive, hempty, hfilled⟩)
    (by decide)

theorem not_elementOk_storeMessage {message : MessageSlot} {string : StringValue}
    (hfull : (messageIn message m.httpStatus).isSome) :
    ¬ ElementOk fw table rqst m
      (efiSuccess, storeMessage message string { m with pool := m.pool.grant }) := by
  intro h
  rcases h.buffers with hsame | ⟨-, other, b, -, hempty, hfilled⟩
  · have hlive : m.pool.next ::ₘ m.pool.live = m.pool.live := hsame.live
    simpa using congrArg Multiset.card hlive
  · rw [messageIn_storeMessage] at hfilled
    by_cases hother : message = other
    · rw [hother, hempty] at hfull
      cases hfull
    · rw [if_neg hother] at hfilled
      cases hempty.symm.trans hfilled

theorem applyRow_error {row : JsonResponseToActionEntry} {value : List UInt8} {status : EfiStatus}
    (h : (decodeValue fw row value calls m.pool).1 = .error status) :
    applyRow fw row value calls m =
      (status, { m with pool := (decodeValue fw row value calls m.pool).2 }) := by
  rw [applyRow, h]

theorem applyRow_ok {row : JsonResponseToActionEntry} {value : List UInt8} {string : StringValue}
    {pool : Ledger} (h : decodeValue fw row value calls m.pool = (.ok string, pool)) :
    applyRow fw row value calls m =
      applyAction fw row.action string calls { m with pool := pool } := by
  rw [applyRow, h]

theorem messageIn_eq_none_of_not_replaces {message : MessageSlot}
    (hreplaces : replacesMessage fw table rqst calls m = false)
    (hstored : storedMessage fw table rqst calls = some message) :
    messageIn message m.httpStatus = none := by
  rwa [replacesMessage, hstored, Option.any_some, Option.isSome_eq_false_iff,
    Option.isNone_iff_eq_none] at hreplaces

/-- Every element is processed as intended unless a short payload is checked or a message is
stored over another one. -/
theorem elementOk_of_not_mishandled
    (hdecode : ∀ value, (fw.base64Decode value).1 ≠ efiMediaChanged)
    (hset : calls.setVariable ≠ efiMediaChanged) (hshort : shortPacket fw table rqst calls = false)
    (hreplaces : replacesMessage fw table rqst calls m = false) :
    ElementOk fw table rqst m (processFunction fw table rqst calls m) := by
  rw [processFunction_eq]
  split
  · exact elementOk_unchanged rfl rfl (.inl ⟨rfl, rfl⟩) (by decide)
  · next target htarget =>
      obtain ⟨row, value⟩ := target
      by_cases hfail : decodedPayload fw row value = none ∨ calls.allocated = false
      · obtain ⟨status, herror, hpool, hstatus⟩ := decodeValue_error m.pool hfail
        rw [applyRow_error herror]
        exact elementOk_unchanged rfl rfl (.inl hpool) (hstatus hdecode)
      · rw [not_or, Bool.not_eq_false] at hfail
        obtain ⟨payload, hpayload⟩ := Option.ne_none_iff_exists'.mp hfail.1
        obtain ⟨string, hok, hdec⟩ := decodeValue_ok m.pool hpayload hfail.2
        rw [applyRow_ok hok]
        cases haction : row.action with
        | setVariable index =>
            have hlen : 4 ≤ payload.length := by
              simpa [shortPacket, checkedPayload, htarget, haction, hfail.2, hpayload] using hshort
            exact elementOk_setMailbox htarget haction hdec hlen hset
        | setReturnCode message =>
            refine elementOk_storeMessage hdec.address
              (messageIn_eq_none_of_not_replaces hreplaces ?_)
            simp [storedMessage, htarget, haction, hfail.2, hpayload]
        | setHttpMessage message =>
            refine elementOk_storeMessage hdec.address
              (messageIn_eq_none_of_not_replaces hreplaces ?_)
            simp [storedMessage, htarget, haction, hfail.2, hpayload]
        | other action =>
            exact elementOk_unchanged rfl rfl (.inl (samePool_freeString hdec.address)) (by decide)

theorem setMailbox_log (entry : JsonSetVariableTableEntry) (string : StringValue)
    (calls : ElementCalls) (m : Machine) : ∃ later,
    (setMailbox entry string calls m).2.log = m.log ++ (.signatureRead string.valueSize :: later) := by
  rw [setMailbox]
  split
  · exact ⟨[], rfl⟩
  · split
    · exact ⟨[], rfl⟩
    · exact ⟨[.variableSet entry.variableName], List.append_assoc _ _ _⟩

theorem not_elementOk_of_shortPacket (hshort : shortPacket fw table rqst calls = true) :
    ¬ ElementOk fw table rqst m (processFunction fw table rqst calls m) := by
  obtain ⟨payload, hchecked, hlen⟩ := (Option.any_eq_true _ _).mp hshort
  rw [decide_eq_true_iff] at hlen
  obtain ⟨row, value, index, htarget, haction, halloc, hpayload⟩ := checkedPayload_eq_some hchecked
  obtain ⟨string, hok, hdec⟩ := decodeValue_ok m.pool hpayload halloc
  intro h
  rw [processFunction_eq, htarget] at h
  change ElementOk fw table rqst m (applyRow fw row value calls m) at h
  rw [applyRow_ok hok, haction] at h
  obtain ⟨later, hlog⟩ := setMailbox_log (mJsonSetVariableEntryMailbox fw.headers index) string
    calls { m with pool := m.pool.grant }
  have hread : Observation.signatureRead string.valueSize ∈ newObservations m _ :=
    (mem_newObservations_append hlog _).mpr List.mem_cons_self
  have := h.reads _ hread
  have := hdec.valueSize
  omega

theorem not_elementOk_of_replacesMessage
    (hreplaces : replacesMessage fw table rqst calls m = true) :
    ¬ ElementOk fw table rqst m (processFunction fw table rqst calls m) := by
  obtain ⟨message, hstored, hfull⟩ := (Option.any_eq_true _ _).mp hreplaces
  obtain ⟨row, value, payload, htarget, haction, halloc, hpayload⟩ := storedMessage_eq_some hstored
  obtain ⟨string, hok, -⟩ := decodeValue_ok m.pool hpayload halloc
  rw [processFunction_eq, htarget]
  change ¬ ElementOk fw table rqst m (applyRow fw row value calls m)
  rw [applyRow_ok hok]
  rcases haction with haction | haction
  · rw [haction]
    exact not_elementOk_storeMessage hfull
  · rw [haction]
    exact not_elementOk_storeMessage hfull

/-! ## Lists of elements -/

/-- In a list of elements processed in order, every element is processed as intended exactly
when none brings a payload of fewer than four bytes to the signature check, or a message to a
slot that holds one. -/
theorem processElements_ok_iff (fw : Firmware)
    (hdecode : ∀ value, (fw.base64Decode value).1 ≠ efiMediaChanged)
    (table : Option ResponseTable) (elements : List ElementRun)
    (hset : ∀ e ∈ elements, e.2.setVariable ≠ efiMediaChanged) (m : Machine) :
    (∀ earlier e later, elements = earlier ++ e :: later →
      ElementOk fw table e.1 (processElements fw table earlier m).2
        (processFunction fw table e.1 e.2 (processElements fw table earlier m).2)) ↔
    ∀ earlier e later, elements = earlier ++ e :: later →
      shortPacket fw table e.1 e.2 = false ∧
        replacesMessage fw table e.1 e.2 (processElements fw table earlier m).2 = false := by
  constructor
  · intro h earlier e later heq
    have hok := h earlier e later heq
    constructor
    · by_contra hshort
      exact not_elementOk_of_shortPacket (eq_true_of_ne_false hshort) hok
    · by_contra hreplaces
      exact not_elementOk_of_replacesMessage (eq_true_of_ne_false hreplaces) hok
  · rintro h earlier e later rfl
    have he : e ∈ earlier ++ e :: later := by simp
    obtain ⟨hshort, hreplaces⟩ := h earlier e later rfl
    exact elementOk_of_not_mishandled hdecode (hset e he) hshort hreplaces

def settingsElement (value : String) : ElementRun :=
  (some ⟨some (ascii "SettingsPacket"), some (ascii value)⟩, {})

/-- A packet, a result code, an element without a row, and a second packet for the same mailbox. -/
def sampleElements : List ElementRun :=
  [settingsElement "QVNDRA==", (some ⟨some (ascii "ResultCode"), some (ascii "200")⟩, {}),
    (some ⟨some (ascii "Unknown"), some (ascii "1")⟩, {}), settingsElement "QVNDRA=="]

theorem processElements_ok_iff_sampleElements :
    (processElements sampleFirmware (some mRecoveryResponse) sampleElements
      Machine.boot).2.pool.faults = 0 ∧
    ∀ earlier e later, sampleElements = earlier ++ e :: later →
      ElementOk sampleFirmware (some mRecoveryResponse) e.1
        (processElements sampleFirmware (some mRecoveryResponse) earlier Machine.boot).2
        (processFunction sampleFirmware (some mRecoveryResponse) e.1 e.2
          (processElements sampleFirmware (some mRecoveryResponse) earlier Machine.boot).2) := by
  refine ⟨by decide, (processElements_ok_iff sampleFirmware ?_ (some mRecoveryResponse)
    sampleElements ?_ Machine.boot).mpr ?_⟩
  · intro value
    simp only [sampleFirmware]
    split
    · decide
    · split <;> decide
  · decide
  · rw [sampleElements, forall_split_cons, forall_split_cons, forall_split_cons,
      forall_split_cons]
    exact ⟨by decide, by decide, by decide, by decide, forall_split_nil⟩

/-- A settings packet that decodes to two bytes is read past its end. -/
theorem settings_of_two_bytes_not_ok :
    ¬ ElementOk sampleFirmware (some mRecoveryResponse) (settingsElement "QVM=").1 Machine.boot
      (processFunction sampleFirmware (some mRecoveryResponse) (settingsElement "QVM=").1
        (settingsElement "QVM=").2 Machine.boot) :=
  not_elementOk_of_shortPacket (by decide)

end MuTegra.Dfci.Mailbox
