/- Unit: MuTegra/Dfci/UsbUpdate
   source: NvidiaPkg/Applications/DfciMenu/DfciMenu.c
   digest: An update from a USB drive writes the packets of one file to their mailboxes. -/

import MuTegra.Dfci.Frees
import MuTegra.Dfci.Phases
import MuTegra.Dfci.UsbFrees
import MuTegra.Dfci.UsbSearch
import MuTegra.Foundation.LastWrites

/-!
The file named after the device is looked for first, then the file with the default name. The
text of the one found goes to the parser, whose callback writes mailbox variables.
-/

set_option autoImplicit false
set_option relaxedAutoImplicit false

namespace MuTegra.Dfci.UsbUpdate

open MuTegra.Foundation.Blocks MuTegra.Foundation.ByteFields
open MuTegra.Foundation.LastWrites MuTegra.Foundation.Ownership
open MuTegra.Uefi.Status MuTegra.Uefi.Strings MuTegra.Uefi.Variables
open MuTegra.Dfci.State MuTegra.Dfci.Update MuTegra.Dfci.Mailbox
open MuTegra.Dfci.UsbName MuTegra.Dfci.UsbFile MuTegra.Dfci.UsbFrees MuTegra.Dfci.UsbSearch
open MuTegra.Dfci.Frees (keeps_of_samePool)
open MuTegra.Dfci.Phases (elementOnly processElements_log)

def dfiExtension : UnicodeString := ⟨wide ".Dfi", by decide⟩

def defaultUsbFileName : List UInt16 := wide "DfciUpdate.Dfi"

structure Drives where
  locateHandleBuffer : EfiStatus
  handles : List HandleCalls

/-- A request for the packet file of a name, into variables of the caller. -/
def Drives.request (drives : Drives) (fileName : Option WideBuffer) : UsbFileCalls where
  fileName := fileName.isSome
  locateHandleBuffer := drives.locateHandleBuffer
  handles := drives.handles

def Drives.search (drives : Drives) : UsbFileCalls where
  locateHandleBuffer := drives.locateHandleBuffer
  handles := drives.handles

/-- What the calls of `IssueDfciUsbRequest` come to; `parse` is `JsonLibParse` on a text, or on
whatever an unset pointer points at. -/
structure UsbUpdateCalls where
  reads : SystemInfoReads
  allocated : Bool
  fresh : ℕ → UInt16
  /-- The search for the file named after the device. -/
  named : Drives
  /-- `AllocateCopyPool` of the default name. -/
  copied : Bool
  /-- The search for the file with the default name. -/
  backup : Drives
  parse : Option (List UInt8) → ParseCalls

/-- The calls of `BuildUsbRequest`; the extension is a constant outside the new buffer. -/
def UsbUpdateCalls.name (calls : UsbUpdateCalls) : UsbRequestCalls where
  reads := calls.reads
  allocated := calls.allocated
  fresh := calls.fresh

/-! ## The request -/

/-- The local variables of `IssueDfciUsbRequest`, the open files and the pool. -/
structure Loaded where
  status : EfiStatus
  fileName : Option WideBuffer
  jsonString : PacketPointer
  files : Ledger
  pool : Ledger

/-- `JsonString` behind a request that began with a null in it. -/
def jsonStringOf (request : JsonRequest) : PacketPointer :=
  request.json.elim .null Prod.fst

def freeName (fileName : Option WideBuffer) (pool : Ledger) : Ledger :=
  pool.release (fileName.map WideBuffer.address)

def keepName (fileName fileName2 : Option WideBuffer) (second : JsonRequest) : Loaded :=
  if efiError second.status then
    ⟨second.status, fileName, jsonStringOf second, second.files, freeName fileName2 second.pool⟩
  else
    ⟨second.status, fileName2, jsonStringOf second, second.files, freeName fileName second.pool⟩

/-- The search for the default file, in place of the one that was not found. -/
def loadBackup (limit : ApplyVarSize) (calls : UsbUpdateCalls) (fileName : Option WideBuffer)
    (first : JsonRequest) : Loaded :=
  let copy := first.pool.acquire calls.copied
  match copy.1 with
  | none => ⟨first.status, fileName, jsonStringOf first, first.files, copy.2⟩
  | some address =>
      let fileName2 : Option WideBuffer := some ⟨address, defaultUsbFileName ++ [0]⟩
      keepName fileName fileName2
        (dfciRequestJsonFromUsb limit (calls.backup.request fileName2) first.files copy.2)

def loadPacket (limit : ApplyVarSize) (calls : UsbUpdateCalls) (fileName : Option WideBuffer)
    (files pool : Ledger) : Loaded :=
  let first := dfciRequestJsonFromUsb limit (calls.named.request fileName) files pool
  if efiError first.status then loadBackup limit calls fileName first
  else ⟨first.status, fileName, jsonStringOf first, first.files, first.pool⟩

/-- The buffer behind `JsonString`, when it points to one. -/
def packetBuffer : PacketPointer → Option Buffer
  | .packet buffer => some buffer
  | _ => none

/-- `FreePool (JsonString)` under a null check, which an unset pointer passes. -/
def freeJsonString (jsonString : PacketPointer) (pool : Ledger) : Ledger :=
  match jsonString with
  | .unset => pool.fault
  | .null => pool
  | .packet buffer => freePool (some buffer) pool

/-- What the message box shows, and the state in which the system is reset. -/
structure Outcome where
  status : EfiStatus
  fileName : Option WideBuffer
  files : Ledger
  machine : Machine

def applyPacket (fw : Firmware) (calls : UsbUpdateCalls) (loaded : Loaded) (m : Machine) :
    Outcome :=
  let m := { m with pool := loaded.pool }
  if efiError loaded.status then
    ⟨loaded.status, loaded.fileName, loaded.files,
      { m with pool := freeJsonString loaded.jsonString m.pool }⟩
  else
    let json := packetBuffer loaded.jsonString
    let updated := dfciUpdateFromJson fw json mUsbRecovery (calls.parse (json.map Buffer.bytes)) m
    -- a mailbox that was updated is a good return
    let status := if updated.1 = efiMediaChanged then efiSuccess else updated.1
    ⟨status, loaded.fileName, loaded.files,
      { updated.2 with pool := freeJsonString loaded.jsonString updated.2.pool }⟩

def issueDfciUsbRequest (fw : Firmware) (limit : ApplyVarSize) (calls : UsbUpdateCalls)
    (files : Ledger) (m : Machine) : Option Outcome :=
  (buildUsbRequest dfiExtension calls.name m.pool).map fun request =>
    if efiError request.status then
      ⟨request.status, request.fileName, files, { m with pool := request.pool }⟩
    else
      applyPacket fw calls (loadPacket limit calls request.fileName files request.pool) m

/-! ## What it should do -/

def decodedBytes (row : JsonResponseToActionEntry) (payload : List UInt8) : List UInt8 :=
  if row.decodeBase64 then payload ++ [0] else payload

/-- The mailbox and the payload of an element that passes all checks of the callback. -/
def acceptedPacket (fw : Firmware) (table : ResponseTable) (e : ElementRun) :
    Option (Fin 6 × List UInt8) :=
  match targetRow (some table) e.1 with
  | none => none
  | some target =>
      match target.1.action, decodedPayload fw target.1 target.2 with
      | .setVariable index, some payload =>
          if e.2.allocated = true ∧ efiError e.2.setVariable = false ∧
              (mJsonSetVariableEntryMailbox fw.headers index).signature =
                field (decodedBytes target.1 payload ++ e.2.beyond) 0 4 then
            some (index, payload)
          else none
      | _, _ => none

def mailboxWrite (fw : Firmware) (packet : Fin 6 × List UInt8) :
    VariableName × Option Variable :=
  let entry := mJsonSetVariableEntryMailbox fw.headers packet.1
  (entry.variableName, setVariable entry.mailboxAttributes packet.2)

def mailboxWrites (fw : Firmware) (table : ResponseTable) (elements : List ElementRun) :
    List (VariableName × Option Variable) :=
  elements.filterMap fun e => (acceptedPacket fw table e).map (mailboxWrite fw)

namespace UsbUpdateCalls

variable (limit : ApplyVarSize) (calls : UsbUpdateCalls)

def Named : Prop := calls.reads.fails = false ∧ calls.allocated = true

instance : Decidable calls.Named := inferInstanceAs (Decidable (_ ∧ _))

def ownPacket : Option HandleCalls :=
  if calls.Named then calls.named.search.source limit else none

/-- The drive that the default file is read from, where there is no other. -/
def backupPacket : Option HandleCalls :=
  if calls.Named ∧ calls.named.search.source limit = none ∧ calls.copied = true then
    calls.backup.search.source limit
  else none

def packet : Option HandleCalls := (calls.ownPacket limit).or (calls.backupPacket limit)

def shownName : List UInt16 :=
  if (calls.backupPacket limit).isSome then defaultUsbFileName
  else calls.reads.baseName ++ dfiExtension.chars

def parsed : Option ParseCalls :=
  (calls.packet limit).map fun handle => calls.parse (some (handle.readData ++ [0]))

def ReadsOnce : Prop :=
  efiError calls.reads.serialNumber.status = true ∨ calls.reads.fails = false

def Settles : Prop :=
  calls.Named → calls.named.search.Settles limit ∧
    (calls.named.search.source limit = none → calls.copied = true →
      calls.backup.search.Settles limit)

end UsbUpdateCalls

/-- What an update owes: only the text of the packet file is parsed, each mailbox holds the packet
last accepted for it and no other variable changes, the status and the name shown are those of the
file, no file is left open, and nothing but the identity strings of a failed read is freed
twice. -/
structure Updates (fw : Firmware) (limit : ApplyVarSize) (calls : UsbUpdateCalls) (files : Ledger)
    (m : Machine) (outcome : Outcome) : Prop where
  handed : ∀ text, Observation.handed text ∈ newObservations m outcome.machine ↔
    ∃ handle, calls.packet limit = some handle ∧ text = some (handle.readData ++ [0])
  mailboxes : ∀ name, outcome.machine.mailboxes name =
    (lastWrite (mailboxWrites fw mUsbRecovery ((calls.parsed limit).elim [] ParseCalls.elements))
      name).getD (m.mailboxes name)
  others : ∀ name, (∀ index, (mJsonSetVariableEntryMailbox fw.headers index).variableName ≠ name) →
    outcome.machine.mailboxes name = m.mailboxes name
  failed : calls.packet limit = none → efiError outcome.status = true
  status : ∀ parse, calls.parsed limit = some parse →
    outcome.status = if parse.status = efiMediaChanged then efiSuccess else parse.status
  shown : calls.Named → ∃ buffer, outcome.fileName = some buffer ∧
    buffer.chars.takeWhile (· ≠ 0) = calls.shownName limit
  unnamed : ¬ calls.Named → outcome.fileName = none
  closed : Owns files 0 outcome.files
  freed : outcome.machine.pool.faults = m.pool.faults ↔ calls.ReadsOnce

/-! ## The elements -/

variable {fw : Firmware} {table : ResponseTable} {n : ℕ} {rest : Multiset ℕ} {m : Machine}

theorem decodeValue_eq {row : JsonResponseToActionEntry} {value payload : List UInt8}
    {calls : ElementCalls} (decoded : decodedPayload fw row value = some payload)
    (allocated : calls.allocated = true) (pool : Ledger) :
    decodeValue fw row value calls pool =
      (.ok ⟨⟨pool.next, decodedBytes row payload⟩, payload.length⟩, pool.grant) := by
  rw [decodedPayload] at decoded
  rw [decodeValue, decodedBytes]
  by_cases base64 : row.decodeBase64 = true
  · rw [if_pos base64] at decoded ⊢
    rw [if_pos base64]
    split at decoded
    · next ok =>
        cases decoded
        simp [decodeBase64Value, ok.1, ok.2, allocated, allocatePool, stringValue]
    · cases decoded
  · rw [if_neg base64] at decoded ⊢
    rw [if_neg base64]
    cases decoded
    simp [copyPlainValue, allocated, allocatePool, stringValue]

theorem setMailbox_mailboxes (entry : JsonSetVariableTableEntry) {bytes payload : List UInt8}
    (starts : payload <+: bytes) (address : ℕ) (calls : ElementCalls) (m : Machine) :
    (setMailbox entry ⟨⟨address, bytes⟩, payload.length⟩ calls m).2.mailboxes =
      if efiError calls.setVariable = false ∧
          entry.signature = field (bytes ++ calls.beyond) 0 4 then
        Function.update m.mailboxes entry.variableName
          (setVariable entry.mailboxAttributes payload)
      else m.mailboxes := by
  have same : bytes.take payload.length = payload := (List.prefix_iff_eq_take.mp starts).symm
  rw [setMailbox, packetSignature]
  dsimp only
  by_cases signed : entry.signature = field (bytes ++ calls.beyond) 0 4
  · cases failed : efiError calls.setVariable with
    | true => rw [if_neg (not_not.mpr signed)]; simp; rfl
    | false =>
        rw [if_neg (not_not.mpr signed)]
        simp only [Bool.false_eq_true, if_false, signed, and_self, if_true, writeMailbox, same]
        rfl
  · rw [if_pos signed, if_neg (fun both => signed both.2)]
    rfl

theorem processFunction_mailboxes (fw : Firmware) (table : ResponseTable) (e : ElementRun)
    (m : Machine) :
    (processFunction fw (some table) e.1 e.2 m).2.mailboxes =
      written m.mailboxes (((acceptedPacket fw table e).map (mailboxWrite fw)).toList) := by
  rw [processFunction_eq, acceptedPacket]
  cases targetRow (some table) e.1 with
  | none => rfl
  | some target =>
  dsimp only
  by_cases fails : decodedPayload fw target.1 target.2 = none ∨ e.2.allocated = false
  · obtain ⟨status, error, -, -⟩ := decodeValue_error m.pool fails
    rw [applyRow_error error]
    rcases fails with undecoded | refused
    · rw [undecoded]
      cases target.1.action <;> rfl
    · simp only [refused, Bool.false_eq_true, false_and, if_false]
      cases target.1.action <;> cases decodedPayload fw target.1 target.2 <;> rfl
  · rw [not_or, Bool.not_eq_false] at fails
    obtain ⟨payload, decoded⟩ := Option.ne_none_iff_exists'.mp fails.1
    rw [applyRow_ok (decodeValue_eq decoded fails.2 m.pool), decoded]
    cases target.1.action with
    | setVariable index =>
        have starts : payload <+: decodedBytes target.1 payload := by
          rw [decodedBytes]
          split
          · exact List.prefix_append _ _
          · exact List.prefix_rfl
        rw [applyAction, setMailbox_mailboxes _ starts]
        dsimp only
        simp only [fails.2, true_and]
        split
        · rfl
        · rfl
    | setReturnCode message => rfl
    | setHttpMessage message => rfl
    | other action => rfl

theorem processElements_mailboxes (fw : Firmware) (table : ResponseTable)
    (elements : List ElementRun) (m : Machine) :
    (processElements fw (some table) elements m).2.mailboxes =
      written m.mailboxes (mailboxWrites fw table elements) := by
  induction elements generalizing m with
  | nil => rfl
  | cons e elements ih =>
      rw [processElements, ih, processFunction_mailboxes, ← written_append, mailboxWrites,
        mailboxWrites, List.filterMap_cons]
      cases acceptedPacket fw table e with
      | none => rfl
      | some packet => rfl

theorem processElements_others (fw : Firmware) (table : ResponseTable) (elements : List ElementRun)
    (m : Machine) {name : VariableName}
    (other : ∀ index, (mJsonSetVariableEntryMailbox fw.headers index).variableName ≠ name) :
    (processElements fw (some table) elements m).2.mailboxes name = m.mailboxes name := by
  rw [processElements_mailboxes]
  apply written_of_forall_ne
  intro write member
  obtain ⟨e, -, accepted⟩ := List.mem_filterMap.mp member
  obtain ⟨packet, -, rfl⟩ := Option.map_eq_some_iff.mp accepted
  exact other packet.1

theorem keeps_freeString {string : StringValue} (address : string.buffer.address = m.pool.next)
    (h : Keeps n rest m.pool) :
    Keeps n rest (freePool (some string.buffer) m.pool.grant) := by
  apply keeps_freePool
  rw [owned_some, address]
  exact h.grant

theorem keeps_applyAction {string : StringValue} (address : string.buffer.address = m.pool.next)
    (h : Keeps n rest m.pool) (fw : Firmware) (action : JsonAction) (calls : ElementCalls) :
    Keeps n rest (applyAction fw action string calls { m with pool := m.pool.grant }).2.pool := by
  have freed : Keeps n rest (freePool (some string.buffer) m.pool.grant) :=
    keeps_freeString address h
  cases action with
  | setVariable index =>
      rw [applyAction, setMailbox]
      split
      · exact freed
      · split
        · exact freed
        · exact freed
  | setReturnCode message => exact h.grant.mono (Multiset.le_add_left _ _)
  | setHttpMessage message => exact h.grant.mono (Multiset.le_add_left _ _)
  | other action => exact freed

theorem keeps_processFunction (h : Keeps n rest m.pool) (fw : Firmware)
    (table : Option ResponseTable) (e : ElementRun) :
    Keeps n rest (processFunction fw table e.1 e.2 m).2.pool := by
  rw [processFunction_eq]
  split
  · exact h
  · next target _ =>
      by_cases fails : decodedPayload fw target.1 target.2 = none ∨ e.2.allocated = false
      · obtain ⟨status, error, pool, -⟩ := decodeValue_error m.pool fails
        rw [applyRow_error error]
        exact keeps_of_samePool h pool
      · rw [not_or, Bool.not_eq_false] at fails
        obtain ⟨payload, decoded⟩ := Option.ne_none_iff_exists'.mp fails.1
        rw [applyRow_ok (decodeValue_eq decoded fails.2 m.pool)]
        exact keeps_applyAction rfl h fw _ _

theorem keeps_processElements (fw : Firmware) (table : Option ResponseTable)
    (elements : List ElementRun) (h : Keeps n rest m.pool) :
    Keeps n rest (processElements fw table elements m).2.pool := by
  induction elements generalizing m with
  | nil => exact h
  | cons e elements ih => exact ih (keeps_processFunction h fw table e)

/-! ## The name -/

variable {text free : List UInt16}

theorem dfiExtension_length : dfiExtension.chars.length = 4 := rfl

theorem finishUsbRequest_dfi (pos : 0 < text.length) (short : text.length ≤ 251)
    (buffer : text.length + free.length + 1 = maxUsbFileNameLength) (info : SystemInformation)
    (address : ℕ) (pool : Ledger) :
    finishUsbRequest dfiExtension false info address (text ++ 0 :: free) text.length pool =
      some ⟨efiSuccess, some ⟨address, text.map fileNameChar ++ dfiExtension.chars ++
        0 :: (free.drop 4)⟩, pool⟩ := by
  have length : (text.map fileNameChar).length = text.length := List.length_map _
  have extension : dfiExtension.chars.length = 4 := dfiExtension_length
  have size : maxUsbFileNameLength = 256 := rfl
  have room : (dfiExtension.chars ++ [0]).length ≤ (0 :: free).length := by
    simp only [List.length_append, List.length_cons, List.length_nil]
    omega
  rw [finishUsbRequest_eq _ _ _ _ _ pos short, strCatS_text (null_not_mem_map text) (by omega),
    if_neg (by omega), overwrite_next room]
  simp [dfiExtension_length]

theorem buildUsbRequest_dfi {calls : UsbUpdateCalls} (named : calls.Named) (pool : Ledger) :
    ∃ address free l, buildUsbRequest dfiExtension calls.name pool =
        some ⟨efiSuccess, some ⟨address, calls.reads.baseName ++ dfiExtension.chars ++ 0 :: free⟩,
          l⟩ ∧
      Owns pool {address} l := by
  obtain ⟨reads, allocated⟩ := named
  obtain ⟨info, l, serial, result, -, owns⟩ := dfciGetSystemInfo_read reads pool
  have text := dfciGetSystemInfo_name reads pool
  rw [result] at text
  obtain ⟨free, buffer, printed⟩ := unicodeSPrintAsciiFormat_fresh calls.fresh calls.reads.fullName
  have pos : 0 < (calls.reads.fullName.take 251).length := by
    rw [List.length_take]
    exact Nat.lt_min.mpr ⟨by decide, fullName_length_pos calls.reads⟩
  have short : (calls.reads.fullName.take 251).length ≤ 251 := List.length_take_le _ _
  refine ⟨l.next, free.drop 4, dfciFreeSystemInfo info l.grant, ?_, ?_⟩
  · rw [buildUsbRequest, show calls.name.reads = calls.reads from rfl, result, if_neg (by simp),
      show calls.name.allocated = true from allocated]
    simp only [acquire_granted, Option.bind_eq_bind, text]
    rw [show calls.name.fresh = calls.fresh from rfl, printed, Option.bind_some]
    exact finishUsbRequest_dfi pos short buffer info l.next _
  · apply owns_dfciFreeSystemInfo
    rw [add_comm]
    exact owns.grant

/-- Without them nothing is handed out; the strings of a failed read are freed twice. -/
theorem buildUsbRequest_unnamed {calls : UsbUpdateCalls} (unnamed : ¬ calls.Named) (pool : Ledger) :
    ∃ status l, buildUsbRequest dfiExtension calls.name pool = some ⟨status, none, l⟩ ∧
      efiError status = true ∧ (l.faults = pool.faults ↔ calls.ReadsOnce) := by
  rw [buildUsbRequest, show calls.name.reads = calls.reads from rfl]
  cases serial : efiError calls.reads.serialNumber.status with
  | true =>
      have result : dfciGetSystemInfo calls.reads pool =
        (calls.reads.serialNumber.status, {}, pool) := if_pos serial
      rw [result, if_pos serial]
      exact ⟨_, _, rfl, serial, iff_of_true rfl (.inl serial)⟩
  | false =>
  cases reads : calls.reads.fails with
  | true =>
      obtain ⟨status, info, l, buffer, result, error, held, faults⟩ :=
        dfciGetSystemInfo_failed serial reads pool
      rw [result, if_pos error]
      refine ⟨_, _, rfl, error, iff_of_false ?_ ?_⟩
      · rw [← faults]
        exact (@usbRequestError_faults l _ _ status none held).ne'
      · rintro (failed | read)
        · exact Bool.false_ne_true (serial.symm.trans failed)
        · exact Bool.false_ne_true (read.symm.trans reads)
  | false =>
      obtain ⟨info, l, buffer, result, -, owns⟩ := dfciGetSystemInfo_read reads pool
      have refused : calls.name.allocated = false := by
        refine eq_false_of_ne_true fun allocated => ?_
        exact unnamed ⟨reads, allocated⟩
      rw [result, if_neg (by simp), refused]
      refine ⟨_, _, rfl, efiError_encodeError _, iff_of_true ?_ (.inr reads)⟩
      have all : Owns pool (strings info + 0) l := by rwa [add_zero]
      exact (owns_dfciFreeSystemInfo all).clean

/-! ## The searches -/

section Searches

variable {limit : ApplyVarSize} {calls : UsbFileCalls} {n : ℕ} {rest : Multiset ℕ}

theorem requested_of_settles (settles : calls.Settles limit) (files pool : Ledger) :
    Requested limit calls files (dfciRequestJsonFromUsb limit calls files pool) := by
  by_cases searches : calls.Searches
  · cases found : calls.handles.find? fun calls => decide (calls.Ends limit) with
    | some handle => exact requested_of_ends searches found files pool
    | none =>
        have absent : ∀ handle ∈ calls.handles, ¬ handle.Ends limit := by
          intro handle member
          simpa using List.find?_eq_none.mp found handle member
        apply (requested_exhausted_iff searches absent files pool).mpr
        rcases settles with idle | ⟨handle, member, ends⟩ | last
        · exact absurd searches idle
        · exact absurd ends (absent handle member)
        · exact last
  · exact requested_of_not_searches searches files pool

theorem searchHandles_unended {handles : List HandleCalls}
    (absent : ∀ handle ∈ handles, ¬ handle.Ends limit) {s : Search} (empty : s.buffer.owned = 0) :
    (searchHandles limit handles s).buffer.owned = 0 := by
  induction handles generalizing s with
  | nil => exact empty
  | cons calls handles ih =>
      have start : Keeps s.pool.faults 0 s.pool := ⟨rfl, Multiset.zero_le _⟩
      have pass : Allocates s.pool.faults 0 (tryHandle limit calls s) := tryHandle_pool start empty
      rw [searchHandles]
      split
      · next s' next =>
          exact ih (fun handle member => absent handle (List.mem_cons_of_mem _ member))
            (pass.next s' next)
      · next exit => exact absurd (tryHandle_exit exit) (absent calls List.mem_cons_self)

theorem packetBuffer_of_owned {jsonString : PacketPointer} (empty : jsonString.owned = 0) :
    packetBuffer jsonString = none := by
  cases jsonString with
  | unset => rfl
  | null => rfl
  | packet buffer => exact absurd empty (Multiset.singleton_ne_zero _)

theorem request_of_not_settles (unsettled : ¬ calls.Settles limit) (files pool : Ledger) :
    efiError (dfciRequestJsonFromUsb limit calls files pool).status = false ∧
      packetBuffer (jsonStringOf (dfciRequestJsonFromUsb limit calls files pool)) = none := by
  rw [UsbFileCalls.Settles, not_or, not_or, not_not] at unsettled
  obtain ⟨searches, absent, silent⟩ := unsettled
  have none_ends : ∀ handle ∈ calls.handles, ¬ handle.Ends limit :=
    fun handle member ends => absent ⟨handle, member, ends⟩
  obtain ⟨finalPool, result⟩ := @dfciRequestJsonFromUsb_searches limit calls searches files pool
  have started : efiError (calls.start files pool.grant).status = false := searches.2
  have quiet : efiError (searchHandles limit calls.handles
      (calls.start files pool.grant)).status = false := by
    apply eq_false_of_ne_true
    intro error
    rw [searchHandles_exhausted none_ends] at error
    cases last : lastTried calls.handles with
    | none =>
        rw [last, Option.elim_none, started] at error
        cases error
    | some handle =>
        rw [last] at error
        exact silent ⟨handle, last, error⟩
  rw [result, Search.handOut, if_neg (ne_true_of_eq_false quiet)]
  exact ⟨quiet, packetBuffer_of_owned (searchHandles_unended none_ends rfl)⟩

/-- A request frees nothing of its caller's, and the packet that it hands out is live. -/
theorem keeps_request {pool : Ledger} (h : Keeps n rest pool) (calls : UsbFileCalls)
    (files : Ledger) :
    Keeps n ((jsonStringOf (dfciRequestJsonFromUsb limit calls files pool)).owned + rest)
      (dfciRequestJsonFromUsb limit calls files pool).pool := by
  have nothing : Keeps n (PacketPointer.null.owned + rest) pool := by
    rw [PacketPointer.owned, zero_add]
    exact h
  have found : Keeps n ((findUsbDriveWithDfciUpdate limit calls files pool).buffer.owned + rest)
      (findUsbDriveWithDfciUpdate limit calls files pool).pool := by
    rw [findUsbDriveWithDfciUpdate]
    split
    · exact nothing
    · split
      · exact nothing
      · have search := @searchHandles_pool limit (calls.start files pool.grant) n
          ({pool.next} + rest) calls.handles h.grant rfl
        rw [add_left_comm] at search
        exact search.release
  rw [dfciRequestJsonFromUsb]
  split
  · exact nothing
  · rw [Search.handOut]
    split
    · apply found.mono
      rw [jsonStringOf, Option.elim_none, PacketPointer.owned, zero_add]
      exact Multiset.le_add_left _ _
    · exact found

theorem jsonStringOf_none {files : Ledger} {result : JsonRequest}
    (requested : Requested limit calls files result) (absent : calls.source limit = none) :
    efiError result.status = true ∧ jsonStringOf result = .null := by
  obtain ⟨error, empty⟩ := requested.failed absent
  refine ⟨error, ?_⟩
  rw [jsonStringOf, empty, Option.elim_none]

theorem jsonStringOf_some {files : Ledger} {result : JsonRequest} {handle : HandleCalls}
    (requested : Requested limit calls files result) (found : calls.source limit = some handle) :
    result.status = efiSuccess ∧
      ∃ address, jsonStringOf result = .packet ⟨address, handle.readData ++ [0]⟩ := by
  refine ⟨requested.succeeds.mpr (by rw [found, Option.isSome_some]), ?_⟩
  obtain ⟨address, handed⟩ := requested.handed handle found
  refine ⟨address, ?_⟩
  rw [jsonStringOf, handed, Option.elim_some]

end Searches

/-! ## The update -/

theorem dfciUpdateFromJson_handed (fw : Firmware) (json : Option Buffer) (table : ResponseTable)
    (parse : ParseCalls) (m : Machine) (text : Option (List UInt8)) :
    Observation.handed text ∈ newObservations m (dfciUpdateFromJson fw json table parse m).2 ↔
      text = json.map Buffer.bytes := by
  obtain ⟨new, log, own, -, -⟩ := processElements_log fw (some table) parse.elements
    (m.observe (.handed (json.map Buffer.bytes)))
  have whole : (dfciUpdateFromJson fw json table parse m).2.log =
      m.log ++ (.handed (json.map Buffer.bytes) :: new ++ [.parsed parse.status]) := by
    rw [dfciUpdateFromJson]
    change (processElements fw (some table) parse.elements _).2.log ++ _ = _
    rw [log]
    simp [Machine.observe]
  rw [newObservations_eq whole]
  constructor
  · intro member
    simp only [List.cons_append, List.mem_cons, List.mem_append, List.not_mem_nil, or_false,
      Observation.handed.injEq, reduceCtorEq] at member
    rcases member with same | member
    · exact same
    · exact absurd (own _ member) (by simp [elementOnly])
  · rintro rfl
    exact List.mem_cons_self

/-! ## Loading -/

/-- What is loaded: the packet file, if one was found, under the name that is shown. -/
structure Loads (limit : ApplyVarSize) (calls : UsbUpdateCalls) (files : Ledger) (n : ℕ)
    (loaded : Loaded) : Prop where
  absent : calls.packet limit = none →
    efiError loaded.status = true ∧ loaded.jsonString = .null
  found : ∀ handle, calls.packet limit = some handle → loaded.status = efiSuccess ∧
    ∃ address, loaded.jsonString = .packet ⟨address, handle.readData ++ [0]⟩
  shown : ∃ buffer, loaded.fileName = some buffer ∧
    buffer.chars.takeWhile (· ≠ 0) = calls.shownName limit
  closed : Owns files 0 loaded.files
  pool : Keeps n loaded.jsonString.owned loaded.pool

section Loading

variable {limit : ApplyVarSize} {calls : UsbUpdateCalls} {files pool : Ledger} {n : ℕ}
  {fileName : WideBuffer}

theorem text_terminated {name free : List UInt16} (noNull : 0 ∉ name) :
    (name ++ 0 :: free).takeWhile (· ≠ 0) = name := takeWhile_word 0 noNull free

theorem baseName_noNull (reads : SystemInfoReads) :
    0 ∉ reads.baseName ++ dfiExtension.chars := by
  rw [List.mem_append, not_or]
  exact ⟨null_not_mem_map _, dfiExtension.noNull⟩

theorem request_some (drives : Drives) (fileName : WideBuffer) :
    drives.request (some fileName) = drives.search := rfl

/-- The name of the file that was found stays allocated, the other one is freed. -/
theorem keepName_loads {fileName2 : WideBuffer} {second : JsonRequest} {middle : Ledger}
    (packet : calls.packet limit = calls.backupPacket limit)
    (backup : calls.backupPacket limit = calls.backup.search.source limit)
    (requested : Requested limit calls.backup.search middle second) (closed : Owns files 0 middle)
    (kept : Keeps n ((jsonStringOf second).owned + ({fileName2.address} + {fileName.address}))
      second.pool)
    (own : fileName.chars.takeWhile (· ≠ 0) = calls.reads.baseName ++ dfiExtension.chars)
    (default : fileName2.chars.takeWhile (· ≠ 0) = defaultUsbFileName) :
    Loads limit calls files n (keepName (some fileName) (some fileName2) second) := by
  have files : Owns files 0 second.files :=
    ⟨requested.closed.clean.trans closed.clean, by
      rw [requested.closed.live, closed.live, zero_add]⟩
  rw [keepName]
  cases source : calls.backup.search.source limit with
  | none =>
      obtain ⟨error, empty⟩ := jsonStringOf_none requested source
      rw [if_pos error]
      refine ⟨fun _ => ⟨error, empty⟩, ?_, ⟨fileName, rfl, ?_⟩, files, ?_⟩
      · intro handle found
        rw [packet, backup, source] at found
        cases found
      · rw [UsbUpdateCalls.shownName, backup, source, own]
        rfl
      · rw [add_left_comm] at kept
        exact kept.release.mono (Multiset.le_add_right _ _)
  | some handle =>
      obtain ⟨success, address, held⟩ := jsonStringOf_some requested source
      rw [if_neg (by simp [success])]
      refine ⟨?_, ?_, ⟨fileName2, rfl, ?_⟩, files, ?_⟩
      · intro absent
        rw [packet, backup, source] at absent
        cases absent
      · intro handle' found
        rw [packet, backup, source] at found
        obtain rfl := Option.some.inj found
        exact ⟨success, address, held⟩
      · rw [UsbUpdateCalls.shownName, backup, source, default]
        rfl
      · rw [add_comm ({fileName2.address} : Multiset ℕ), add_left_comm] at kept
        exact kept.release.mono (Multiset.le_add_right _ _)

theorem loadBackup_loads (named : calls.Named) (settles : calls.Settles limit)
    (missing : calls.named.search.source limit = none) {first : JsonRequest}
    (error : efiError first.status = true) (empty : jsonStringOf first = .null)
    (closed : Owns files 0 first.files) (kept : Keeps n {fileName.address} first.pool)
    (own : fileName.chars.takeWhile (· ≠ 0) = calls.reads.baseName ++ dfiExtension.chars) :
    Loads limit calls files n (loadBackup limit calls (some fileName) first) := by
  have ownPacket : calls.ownPacket limit = none := by
    rw [UsbUpdateCalls.ownPacket, if_pos named, missing]
  have packet : calls.packet limit = calls.backupPacket limit := by
    rw [UsbUpdateCalls.packet, ownPacket, Option.none_or]
  rw [loadBackup]
  cases copied : calls.copied with
  | false =>
      have backup : calls.backupPacket limit = none := by
        rw [UsbUpdateCalls.backupPacket, if_neg (by simp [copied])]
      refine ⟨fun _ => ⟨error, empty⟩, ?_, ⟨fileName, rfl, ?_⟩, closed, ?_⟩
      · intro handle found
        rw [packet, backup] at found
        cases found
      · rw [UsbUpdateCalls.shownName, backup, own]
        rfl
      · change Keeps n (jsonStringOf first).owned first.pool
        rw [empty]
        exact kept.mono (Multiset.zero_le _)
  | true =>
      have backup : calls.backupPacket limit = calls.backup.search.source limit := by
        rw [UsbUpdateCalls.backupPacket, if_pos ⟨named, missing, copied⟩]
      have requested := requested_of_settles ((settles named).2 missing copied) first.files
        first.pool.grant
      simp only [acquire_granted, request_some]
      refine keepName_loads packet backup requested closed ?_ own ?_
      · exact keeps_request kept.grant calls.backup.search first.files
      · exact text_terminated (by decide)

theorem loadPacket_loads (named : calls.Named) (settles : calls.Settles limit)
    (kept : Keeps n {fileName.address} pool)
    (own : fileName.chars.takeWhile (· ≠ 0) = calls.reads.baseName ++ dfiExtension.chars) :
    Loads limit calls files n (loadPacket limit calls (some fileName) files pool) := by
  have requested := requested_of_settles (settles named).1 files pool
  have held := @keeps_request limit n _ pool kept calls.named.search files
  rw [loadPacket, request_some]
  generalize dfciRequestJsonFromUsb limit calls.named.search files pool = first at requested held
  cases source : calls.named.search.source limit with
  | none =>
      obtain ⟨error, empty⟩ := jsonStringOf_none requested source
      simp only [error, if_true]
      refine loadBackup_loads named settles source error empty requested.closed ?_ own
      exact held.mono (Multiset.le_add_left _ _)
  | some handle =>
      have ownPacket : calls.ownPacket limit = some handle := by
        rw [UsbUpdateCalls.ownPacket, if_pos named, source]
      have backup : calls.backupPacket limit = none := by
        rw [UsbUpdateCalls.backupPacket, if_neg (by simp [source])]
      have packet : calls.packet limit = some handle := by
        rw [UsbUpdateCalls.packet, ownPacket, Option.some_or]
      obtain ⟨success, address, text⟩ := jsonStringOf_some requested source
      have quiet : efiError first.status = false := by rw [success]; rfl
      simp only [quiet, Bool.false_eq_true, if_false]
      refine ⟨?_, ?_, ⟨fileName, rfl, ?_⟩, requested.closed, ?_⟩
      · intro absent
        rw [packet] at absent
        cases absent
      · intro handle' found
        rw [packet] at found
        obtain rfl := Option.some.inj found
        exact ⟨success, address, text⟩
      · rw [UsbUpdateCalls.shownName, backup, own]
        rfl
      · exact held.mono (Multiset.le_add_right _ _)

end Loading

/-! ## The whole update -/

section Whole

variable {fw : Firmware} {limit : ApplyVarSize} {calls : UsbUpdateCalls} {files : Ledger}
  {m : Machine} {loaded : Loaded}

theorem applyPacket_failed (named : calls.Named)
    (loads : Loads limit calls files m.pool.faults loaded)
    (absent : calls.packet limit = none) :
    Updates fw limit calls files m (applyPacket fw calls loaded m) := by
  obtain ⟨error, empty⟩ := loads.absent absent
  have parsed : calls.parsed limit = none := by
    rw [UsbUpdateCalls.parsed, absent, Option.map_none]
  rw [applyPacket]
  simp only [error, if_true, empty, freeJsonString]
  constructor
  · intro text
    have log : m.log = m.log ++ [] := (List.append_nil _).symm
    rw [@newObservations_eq m { m with pool := loaded.pool } [] log, absent]
    simp
  · intro name
    rw [parsed]
    rfl
  · exact fun _ _ => rfl
  · exact fun _ => error
  · intro parse found
    rw [parsed] at found
    cases found
  · exact fun _ => loads.shown
  · exact fun unnamed => absurd named unnamed
  · exact loads.closed
  · exact iff_of_true loads.pool.clean (.inr named.1)

theorem applyPacket_found (named : calls.Named)
    (loads : Loads limit calls files m.pool.faults loaded) {handle : HandleCalls}
    (found : calls.packet limit = some handle) :
    Updates fw limit calls files m (applyPacket fw calls loaded m) := by
  obtain ⟨success, address, text⟩ := loads.found handle found
  have parsed : calls.parsed limit = some (calls.parse (some (handle.readData ++ [0]))) := by
    rw [UsbUpdateCalls.parsed, found, Option.map_some]
  have quiet : efiError loaded.status = false := by rw [success]; rfl
  have kept : Keeps m.pool.faults {address} loaded.pool := by
    have pool := loads.pool
    rwa [text] at pool
  rw [applyPacket]
  simp only [quiet, Bool.false_eq_true, if_false, text, packetBuffer, Option.map_some]
  generalize calls.parse (some (handle.readData ++ [0])) = parse at parsed
  constructor
  · intro observed
    have handed := dfciUpdateFromJson_handed fw (some ⟨address, handle.readData ++ [0]⟩)
      mUsbRecovery parse { m with pool := loaded.pool } observed
    refine Iff.trans handed ?_
    rw [found]
    simp
  · intro name
    rw [parsed, Option.elim_some, ← written_apply]
    exact congrFun (processElements_mailboxes fw mUsbRecovery parse.elements _) name
  · exact fun name other => processElements_others fw mUsbRecovery parse.elements _ other
  · intro absent
    rw [found] at absent
    cases absent
  · intro parse' same
    rw [parsed] at same
    obtain rfl := Option.some.inj same
    rfl
  · exact fun _ => loads.shown
  · exact fun unnamed => absurd named unnamed
  · exact loads.closed
  · refine iff_of_true ?_ (.inr named.1)
    have processed : Keeps m.pool.faults ({address} + 0)
        (dfciUpdateFromJson fw (some ⟨address, handle.readData ++ [0]⟩) mUsbRecovery parse
          { m with pool := loaded.pool }).2.pool := by
      rw [add_zero]
      exact @keeps_processElements _ _
        (Machine.observe { m with pool := loaded.pool } (.handed (some (handle.readData ++ [0]))))
        fw (some mUsbRecovery) parse.elements kept
    exact processed.release.clean

/-- With a search that does not settle, the parser is handed what is no packet file. -/
theorem not_updates_of_unset (quiet : efiError loaded.status = false)
    (unset : packetBuffer loaded.jsonString = none) :
    ¬ Updates fw limit calls files m (applyPacket fw calls loaded m) := by
  intro updates
  have handed := updates.handed none
  rw [applyPacket] at handed
  simp only [quiet, Bool.false_eq_true, if_false, unset, Option.map_none] at handed
  obtain ⟨handle, -, wrong⟩ := handed.mp
    ((dfciUpdateFromJson_handed fw none mUsbRecovery (calls.parse none)
      { m with pool := loaded.pool } none).mpr rfl)
  cases wrong

theorem updates_of_not_named (unnamed : ¬ calls.Named) {status : EfiStatus} {pool : Ledger}
    (error : efiError status = true) (freed : pool.faults = m.pool.faults ↔ calls.ReadsOnce) :
    Updates fw limit calls files m ⟨status, none, files, { m with pool := pool }⟩ := by
  have ownPacket : calls.ownPacket limit = none := if_neg unnamed
  have backup : calls.backupPacket limit = none := if_neg fun both => unnamed both.1
  have absent : calls.packet limit = none := by
    rw [UsbUpdateCalls.packet, ownPacket, backup, Option.or_none]
  have parsed : calls.parsed limit = none := by
    rw [UsbUpdateCalls.parsed, absent, Option.map_none]
  constructor
  · intro text
    have log : m.log = m.log ++ [] := (List.append_nil _).symm
    rw [@newObservations_eq m { m with pool := pool } [] log, absent]
    simp
  · intro name
    rw [parsed]
    rfl
  · exact fun _ _ => rfl
  · exact fun _ => error
  · intro parse found
    rw [parsed] at found
    cases found
  · exact fun named => absurd named unnamed
  · exact fun _ => rfl
  · exact Owns.refl files
  · exact freed

theorem loadPacket_of_not_settles (unsettled : ¬ calls.Settles limit)
    (fileName : WideBuffer) (files pool : Ledger) :
    efiError (loadPacket limit calls (some fileName) files pool).status = false ∧
      packetBuffer (loadPacket limit calls (some fileName) files pool).jsonString = none := by
  rw [loadPacket, request_some]
  by_cases first : calls.named.search.Settles limit
  · have second : calls.named.search.source limit = none ∧ calls.copied = true ∧
        ¬ calls.backup.search.Settles limit := by
      by_contra others
      apply unsettled
      intro _
      refine ⟨first, fun missing copied => ?_⟩
      by_contra still
      exact others ⟨missing, copied, still⟩
    obtain ⟨missing, copied, still⟩ := second
    obtain ⟨error, -⟩ := jsonStringOf_none (requested_of_settles first files pool) missing
    simp only [error, if_true, loadBackup, copied, acquire_granted, request_some, keepName]
    obtain ⟨quiet, unset⟩ := request_of_not_settles still
      (dfciRequestJsonFromUsb limit calls.named.search files pool).files
      (dfciRequestJsonFromUsb limit calls.named.search files pool).pool.grant
    rw [if_neg (ne_true_of_eq_false quiet)]
    exact ⟨quiet, unset⟩
  · obtain ⟨quiet, unset⟩ := request_of_not_settles first files pool
    rw [if_neg (ne_true_of_eq_false quiet)]
    exact ⟨quiet, unset⟩

/-- An update from a USB drive does what it owes exactly when the searches that it makes do not
run out of drives with no error left in the status. -/
theorem issueDfciUsbRequest_updates_iff (fw : Firmware) (limit : ApplyVarSize)
    (calls : UsbUpdateCalls) (files : Ledger) (m : Machine) :
    (∃ outcome, issueDfciUsbRequest fw limit calls files m = some outcome ∧
      Updates fw limit calls files m outcome) ↔ calls.Settles limit := by
  by_cases named : calls.Named
  · obtain ⟨address, free, pool, request, owns⟩ := buildUsbRequest_dfi named m.pool
    have own : (calls.reads.baseName ++ dfiExtension.chars ++ 0 :: free).takeWhile (· ≠ 0) =
        calls.reads.baseName ++ dfiExtension.chars := text_terminated (baseName_noNull calls.reads)
    generalize calls.reads.baseName ++ dfiExtension.chars ++ 0 :: free = chars at request own
    have issued : issueDfciUsbRequest fw limit calls files m = some (applyPacket fw calls
        (loadPacket limit calls (some ⟨address, chars⟩) files pool) m) := by
      rw [issueDfciUsbRequest, request, Option.map_some, if_neg (by simp)]
    have kept : Keeps m.pool.faults {address} pool := by
      refine ⟨owns.clean, ?_⟩
      rw [owns.live]
      exact Multiset.le_add_right _ _
    rw [issued]
    constructor
    · rintro ⟨outcome, same, updates⟩
      obtain rfl := Option.some.inj same
      by_contra unsettled
      obtain ⟨quiet, unset⟩ := loadPacket_of_not_settles unsettled ⟨address, chars⟩ files pool
      exact not_updates_of_unset quiet unset updates
    · intro settles
      have loads := @loadPacket_loads limit calls files pool _ ⟨address, chars⟩ named settles kept
        own
      refine ⟨_, rfl, ?_⟩
      cases found : calls.packet limit with
      | none => exact applyPacket_failed named loads found
      | some handle => exact applyPacket_found named loads found
  · obtain ⟨status, pool, request, error, freed⟩ := buildUsbRequest_unnamed named m.pool
    refine iff_of_true ⟨⟨status, none, files, { m with pool := pool }⟩, ?_, ?_⟩ ?_
    · rw [issueDfciUsbRequest, request, Option.map_some, if_pos error]
    · exact updates_of_not_named named error freed
    · exact fun other => absurd other named

end Whole

end MuTegra.Dfci.UsbUpdate
