/- Unit: MuTegra/Dfci/UsbFile
   source: NvidiaPkg/Applications/DfciMenu/DfciUsb.c
   digest: The search of the USB drives for a packet file and what each of them comes to. -/

import MuTegra.Dfci.State
import MuTegra.Foundation.MachineWords

/-!
A call made on a handle is represented by its outcome. `FileHandleClose` releases the file
or volume handle whatever it returns. The file information that `FileHandleGetInfo`
allocates is never freed.
-/

set_option autoImplicit false
set_option relaxedAutoImplicit false

namespace MuTegra.Dfci.UsbFile

open MuTegra.Foundation.MachineWords
open MuTegra.Foundation.Ownership
open MuTegra.Uefi.Status
open MuTegra.Dfci.State

/-- `MAX_ALLOWABLE_DFCI_APPLY_VAR_SIZE` of the DFCI package; the bound made of it is an `int`. -/
structure ApplyVarSize where
  size : ℕ
  small : size * 6 * 4 < 2147483648

def ApplyVarSize.packetBound (limit : ApplyVarSize) : ℕ := limit.size * 6 * 4 / 3 + 384

structure HandleCalls where
  devicePath : Bool
  usbIo : EfiStatus
  devicePathAgain : Bool
  blockIo : EfiStatus
  simpleFileSystem : EfiStatus
  openVolume : EfiStatus
  openFile : EfiStatus
  /-- `FileInfo->FileSize`, where there is file information. -/
  fileSize : Option ℕ
  allocated : Bool
  readStatus : EfiStatus
  /-- The bytes put into the buffer; their number is `ReadSize`. -/
  readData : List UInt8

/-- A `CHAR8 *` variable for the packet. -/
inductive PacketPointer
  | unset
  | null
  | packet (buffer : Buffer)
  deriving DecidableEq

def PacketPointer.owned : PacketPointer → Multiset ℕ
  | .unset => 0
  | .null => 0
  | .packet buffer => {buffer.address}

structure Search where
  status : EfiStatus
  buffer : PacketPointer
  bufferSize : Option ℕ
  files : Ledger
  pool : Ledger

/-- `FileHandleClose` of the file and of its volume. -/
def closeBoth (fileHandle volHandle : ℕ) (files : Ledger) : Ledger :=
  (files.release (some fileHandle)).release (some volHandle)

/-- From the allocation of the buffer on: the next handle, or the end of the search. -/
def readPacketFile (calls : HandleCalls) (fileSize fileHandle volHandle : ℕ) (s : Search) :
    Search ⊕ Search :=
  let allocation := allocatePool calls.allocated (calls.readData ++ [0]) s.pool
  match allocation.1 with
  | none => .inr { s with
      status := efiOutOfResources
      buffer := .null
      files := closeBoth fileHandle volHandle s.files
      pool := allocation.2 }
  | some buffer =>
      let readSize := calls.readData.length
      if efiError calls.readStatus ∨ readSize ≠ fileSize then
        .inl {
          status := if calls.readStatus = efiSuccess then efiBadBufferSize else calls.readStatus
          buffer := .null
          bufferSize := some (toUint32 (fileSize + 1))
          files := closeBoth fileHandle volHandle s.files
          pool := freePool (some buffer) allocation.2 }
      else
        .inr {
          status := efiSuccess
          buffer := .packet buffer
          bufferSize := some (toUint32 (fileSize + 1))
          files := closeBoth fileHandle volHandle s.files
          pool := allocation.2 }

def openPacketFile (limit : ApplyVarSize) (calls : HandleCalls) (volHandle : ℕ) (s : Search) :
    Search ⊕ Search :=
  let s := { s with status := calls.openFile }
  if efiError calls.openFile then .inl { s with files := s.files.release (some volHandle) }
  else
    let fileHandle := s.files.next
    let s := { s with files := s.files.grant }
    match calls.fileSize with
    | none => .inl { s with files := closeBoth fileHandle volHandle s.files }
    | some fileSize =>
        let s := { s with pool := s.pool.grant }
        if fileSize = 0 ∨ fileSize > limit.packetBound then
          .inl { s with
            status := efiBadBufferSize
            files := closeBoth fileHandle volHandle s.files }
        else readPacketFile calls fileSize fileHandle volHandle s

def tryHandle (limit : ApplyVarSize) (calls : HandleCalls) (s : Search) : Search ⊕ Search :=
  if calls.devicePath = false then .inl s
  else if efiError calls.usbIo then .inl { s with status := calls.usbIo }
  else if calls.devicePathAgain = false then .inl { s with status := calls.usbIo }
  else if efiError calls.blockIo then .inl { s with status := calls.blockIo }
  else if efiError calls.simpleFileSystem then .inl { s with status := calls.simpleFileSystem }
  else if efiError calls.openVolume then .inl { s with status := calls.openVolume }
  else openPacketFile limit calls s.files.next
    { s with status := calls.openVolume, files := s.files.grant }

def searchHandles (limit : ApplyVarSize) : List HandleCalls → Search → Search
  | [], s => s
  | calls :: rest, s =>
      match tryHandle limit calls s with
      | .inl s => searchHandles limit rest s
      | .inr s => s

structure UsbFileCalls where
  fileName : Bool := true
  jsonString : Bool := true
  jsonStringSize : Bool := true
  locateHandleBuffer : EfiStatus := efiSuccess
  handles : List HandleCalls

def UsbFileCalls.start (calls : UsbFileCalls) (files pool : Ledger) : Search :=
  ⟨calls.locateHandleBuffer, .unset, none, files, pool⟩

def findUsbDriveWithDfciUpdate (limit : ApplyVarSize) (calls : UsbFileCalls)
    (files pool : Ledger) : Search :=
  if calls.fileName = false then ⟨efiInvalidParameter, .unset, none, files, pool⟩
  else if efiError calls.locateHandleBuffer then calls.start files pool
  else
    let s := searchHandles limit calls.handles (calls.start files pool.grant)
    { s with pool := s.pool.releaseIfAny (some pool.next) }

structure JsonRequest where
  status : EfiStatus
  json : Option (PacketPointer × Option ℕ)
  files : Ledger
  pool : Ledger

def Search.handOut (s : Search) : JsonRequest :=
  if efiError s.status then ⟨s.status, none, s.files, s.pool⟩
  else ⟨s.status, some (s.buffer, s.bufferSize), s.files, s.pool⟩

def dfciRequestJsonFromUsb (limit : ApplyVarSize) (calls : UsbFileCalls) (files pool : Ledger) :
    JsonRequest :=
  if calls.fileName = false ∨ calls.jsonString = false ∨ calls.jsonStringSize = false then
    ⟨efiInvalidParameter, none, files, pool⟩
  else (findUsbDriveWithDfciUpdate limit calls files pool).handOut

/-! ## What a handle comes to -/

namespace HandleCalls

/-- The handle is a block device on USB, its volume can be opened and so can the packet file. -/
def Opens (calls : HandleCalls) : Prop :=
  (calls.devicePath = true ∧ efiError calls.usbIo = false ∧ calls.devicePathAgain = true ∧
    efiError calls.blockIo = false ∧ efiError calls.simpleFileSystem = false ∧
    efiError calls.openVolume = false) ∧ efiError calls.openFile = false

instance (calls : HandleCalls) : Decidable calls.Opens := inferInstanceAs (Decidable (_ ∧ _))

def packetSize (limit : ApplyVarSize) (calls : HandleCalls) : Option ℕ :=
  if calls.Opens then
    calls.fileSize.filter fun size => decide (size ≠ 0 ∧ size ≤ limit.packetBound)
  else none

def Reads (limit : ApplyVarSize) (calls : HandleCalls) : Prop :=
  calls.packetSize limit = some calls.readData.length ∧ calls.allocated = true ∧
    efiError calls.readStatus = false

/-- There is no buffer for the packet file, which ends the search. -/
def Refused (limit : ApplyVarSize) (calls : HandleCalls) : Prop :=
  calls.packetSize limit ≠ none ∧ calls.allocated = false

def Ends (limit : ApplyVarSize) (calls : HandleCalls) : Prop :=
  calls.Reads limit ∨ calls.Refused limit

def ShortRead (limit : ApplyVarSize) (calls : HandleCalls) : Prop :=
  calls.packetSize limit ≠ none ∧ calls.allocated = true ∧
    calls.packetSize limit ≠ some calls.readData.length ∧
    efiError calls.readStatus = false ∧ calls.readStatus ≠ efiSuccess

/-- The handle is left for the next one with no error to show for it. -/
def Silent (limit : ApplyVarSize) (calls : HandleCalls) : Prop :=
  efiError calls.usbIo = false ∧ (calls.devicePathAgain = false ∨
    (calls.Opens ∧ calls.fileSize = none) ∨ calls.ShortRead limit)

instance (limit : ApplyVarSize) (calls : HandleCalls) : Decidable (calls.Reads limit) :=
  inferInstanceAs (Decidable (_ ∧ _))

instance (limit : ApplyVarSize) (calls : HandleCalls) : Decidable (calls.Refused limit) :=
  inferInstanceAs (Decidable (_ ∧ _))

instance (limit : ApplyVarSize) (calls : HandleCalls) : Decidable (calls.Ends limit) :=
  inferInstanceAs (Decidable (_ ∨ _))

variable {limit : ApplyVarSize} {calls : HandleCalls} {fileSize : ℕ}

theorem packetSize_eq_some (hopens : calls.Opens) (hsize : calls.fileSize = some fileSize)
    (hpos : fileSize ≠ 0) (hbound : fileSize ≤ limit.packetBound) :
    calls.packetSize limit = some fileSize := by
  rw [packetSize, if_pos hopens, hsize, Option.filter_some, if_pos (by simp [hpos, hbound])]

theorem packetSize_of_refused (hopens : calls.Opens) (hsize : calls.fileSize = some fileSize)
    (hrefused : fileSize = 0 ∨ fileSize > limit.packetBound) :
    calls.packetSize limit = none := by
  have hbound : ¬ (fileSize ≠ 0 ∧ fileSize ≤ limit.packetBound) := by omega
  rw [packetSize, if_pos hopens, hsize, Option.filter_some, if_neg (by simpa using hbound)]

theorem packetSize_of_unknown (hsize : calls.fileSize = none) :
    calls.packetSize limit = none := by
  rw [packetSize, hsize, Option.filter_none, ite_self]

theorem packetSize_of_unopened (hopens : ¬ calls.Opens) : calls.packetSize limit = none :=
  if_neg hopens

theorem not_ends_of_packetSize (h : calls.packetSize limit = none) : ¬ calls.Ends limit := by
  rintro (⟨hread, -⟩ | ⟨hrefused, -⟩)
  · rw [h] at hread
    cases hread
  · exact hrefused h

theorem not_silent_of_unopened
    (hagain : efiError calls.usbIo = true ∨ calls.devicePathAgain = true)
    (hopens : ¬ calls.Opens) : ¬ calls.Silent limit := by
  rintro ⟨husb, hnone | ⟨hopened, -⟩ | ⟨hsize, -⟩⟩
  · rw [husb, hnone] at hagain
    simp at hagain
  · exact hopens hopened
  · exact hsize (packetSize_of_unopened hopens)

end HandleCalls

/-! ## What the request promises -/

/-- The handle whose packet file is read: the first on which all steps succeed, unless there
was no buffer for an earlier one's file. -/
def packetHandle (limit : ApplyVarSize) (handles : List HandleCalls) : Option HandleCalls :=
  (handles.find? fun calls => decide (calls.Ends limit)).filter fun calls =>
    decide (calls.Reads limit)

def lastTried (handles : List HandleCalls) : Option HandleCalls :=
  (handles.filter HandleCalls.devicePath).getLast?

def UsbFileCalls.Searches (calls : UsbFileCalls) : Prop :=
  (calls.fileName = true ∧ calls.jsonString = true ∧ calls.jsonStringSize = true) ∧
    efiError calls.locateHandleBuffer = false

instance (calls : UsbFileCalls) : Decidable calls.Searches := inferInstanceAs (Decidable (_ ∧ _))

def UsbFileCalls.source (limit : ApplyVarSize) (calls : UsbFileCalls) : Option HandleCalls :=
  if calls.Searches then packetHandle limit calls.handles else none

/-- What the request promises: the packet with a null and its size, or an error and nothing. -/
structure Requested (limit : ApplyVarSize) (calls : UsbFileCalls) (files : Ledger)
    (result : JsonRequest) : Prop where
  succeeds : result.status = efiSuccess ↔ (calls.source limit).isSome = true
  handed : ∀ handle, calls.source limit = some handle →
    ∃ address, result.json = some (.packet ⟨address, handle.readData ++ [0]⟩,
      some (handle.readData.length + 1))
  failed : calls.source limit = none → efiError result.status = true ∧ result.json = none
  closed : Owns files 0 result.files

/-- No handle is tried, or one of them ends the search, or the last one tried leaves an error. -/
def UsbFileCalls.Settles (limit : ApplyVarSize) (calls : UsbFileCalls) : Prop :=
  ¬ calls.Searches ∨ (∃ handle ∈ calls.handles, handle.Ends limit) ∨
    ∃ handle, lastTried calls.handles = some handle ∧ ¬ handle.Silent limit

/-! ## A pass of the loop -/

inductive Tried (limit : ApplyVarSize) (calls : HandleCalls) (s : Search) :
    Search ⊕ Search → Prop
  | absent : calls.devicePath = false → Tried limit calls s (.inl s)
  | skipped (s' : Search) : calls.devicePath = true → ¬ calls.Ends limit →
      (efiError s'.status = true ↔ ¬ calls.Silent limit) → Tried limit calls s (.inl s')
  | refused (s' : Search) : calls.Refused limit → efiError s'.status = true →
      Tried limit calls s (.inr s')
  | read (s' : Search) (address : ℕ) : calls.Reads limit → s'.status = efiSuccess →
      s'.buffer = .packet ⟨address, calls.readData ++ [0]⟩ →
      s'.bufferSize = some (calls.readData.length + 1) → Tried limit calls s (.inr s')

variable {limit : ApplyVarSize} {calls : HandleCalls} {s : Search}

theorem Tried.unopened {s' : Search} (hpath : calls.devicePath = true)
    (hagain : efiError calls.usbIo = true ∨ calls.devicePathAgain = true)
    (hopens : ¬ calls.Opens) (herror : efiError s'.status = true) :
    Tried limit calls s (.inl s') := by
  apply Tried.skipped s' hpath
  · exact HandleCalls.not_ends_of_packetSize (HandleCalls.packetSize_of_unopened hopens)
  · exact iff_of_true herror (HandleCalls.not_silent_of_unopened hagain hopens)

theorem ApplyVarSize.toUint32_size {size : ℕ} (h : size ≤ limit.packetBound) :
    toUint32 (size + 1) = size + 1 := by
  have hsmall := limit.small
  apply toUint32_of_lt
  rw [ApplyVarSize.packetBound] at h
  omega

/-- A read that fails leaves an error, unless it only falls short with a warning. -/
theorem failedRead_error {fileSize : ℕ} (hpacket : calls.packetSize limit = some fileSize)
    (hallocated : calls.allocated = true)
    (hfailed : efiError calls.readStatus = true ∨ calls.readData.length ≠ fileSize) :
    efiError (if calls.readStatus = efiSuccess then efiBadBufferSize else calls.readStatus) = true ↔
      ¬ calls.ShortRead limit := by
  by_cases hsuccess : calls.readStatus = efiSuccess
  · rw [if_pos hsuccess]
    exact iff_of_true (efiError_encodeError _) fun hshort => hshort.2.2.2.2 hsuccess
  · rw [if_neg hsuccess]
    cases herror : efiError calls.readStatus with
    | true =>
        refine iff_of_true rfl fun hshort => ?_
        rw [hshort.2.2.2.1] at herror
        cases herror
    | false =>
        rw [herror] at hfailed
        have hlength : calls.readData.length ≠ fileSize := by simpa using hfailed
        refine iff_of_false (by simp) fun hshort => hshort ⟨?_, hallocated, ?_, herror, hsuccess⟩
        · simp [hpacket]
        · rw [hpacket]
          exact fun heq => hlength (Option.some.inj heq).symm

theorem readPacketFile_tried {fileSize fileHandle volHandle : ℕ} {opened : Search}
    (hopens : calls.Opens) (hsize : calls.fileSize = some fileSize) (hpos : fileSize ≠ 0)
    (hbound : fileSize ≤ limit.packetBound) :
    Tried limit calls s (readPacketFile calls fileSize fileHandle volHandle opened) := by
  have hpacket := HandleCalls.packetSize_eq_some hopens hsize hpos hbound
  have ⟨⟨hpath, husb, hagain, _⟩, _⟩ := hopens
  have hsilent : calls.Silent limit ↔ calls.ShortRead limit := by
    simp [HandleCalls.Silent, husb, hagain, hsize]
  rw [readPacketFile]
  cases hallocated : calls.allocated with
  | false =>
      apply Tried.refused
      · exact ⟨by simp [hpacket], hallocated⟩
      · exact efiError_encodeError _
  | true =>
      change Tried limit calls s (if _ then _ else _)
      split
      · next hfailed =>
          apply Tried.skipped _ hpath
          · rintro (⟨hread, -, hstatus⟩ | ⟨-, hrefused⟩)
            · rw [hpacket, Option.some.injEq] at hread
              rcases hfailed with herror | hlength
              · rw [hstatus] at herror
                cases herror
              · exact hlength hread.symm
            · rw [hallocated] at hrefused
              cases hrefused
          · rw [hsilent]
            exact failedRead_error hpacket hallocated hfailed
      · next hread =>
          rw [not_or, Bool.not_eq_true, not_not] at hread
          obtain ⟨hstatus, hlength⟩ := hread
          apply Tried.read _ opened.pool.next
          · exact ⟨hlength ▸ hpacket, hallocated, hstatus⟩
          · rfl
          · rfl
          · rw [hlength]
            exact congrArg some (ApplyVarSize.toUint32_size hbound)

theorem openPacketFile_tried {volHandle : ℕ} {mounted : Search} (hpath : calls.devicePath = true)
    (husb : efiError calls.usbIo = false) (hagain : calls.devicePathAgain = true)
    (hopens : efiError calls.openFile = false → calls.Opens) :
    Tried limit calls s (openPacketFile limit calls volHandle mounted) := by
  rw [openPacketFile]
  split
  · next herror =>
      refine Tried.unopened hpath (Or.inr hagain) ?_ herror
      rintro ⟨-, hopened⟩
      rw [herror] at hopened
      cases hopened
  · next herror =>
      have hopened := hopens (Bool.eq_false_iff.mpr herror)
      split
      · next hsize =>
          apply Tried.skipped _ hpath
          · exact HandleCalls.not_ends_of_packetSize (HandleCalls.packetSize_of_unknown hsize)
          · exact iff_of_false herror (not_not.mpr ⟨husb, Or.inr (Or.inl ⟨hopened, hsize⟩)⟩)
      · next fileSize hsize =>
          split
          · next hrefused =>
              have hpacket := HandleCalls.packetSize_of_refused hopened hsize hrefused
              apply Tried.skipped _ hpath
              · exact HandleCalls.not_ends_of_packetSize hpacket
              · refine iff_of_true (efiError_encodeError _) ?_
                simp [HandleCalls.Silent, HandleCalls.ShortRead, hpacket, hagain, hsize]
          · next haccepted =>
              exact readPacketFile_tried hopened hsize (by omega) (by omega)

theorem tryHandle_tried (limit : ApplyVarSize) (calls : HandleCalls) (s : Search) :
    Tried limit calls s (tryHandle limit calls s) := by
  rw [tryHandle]
  split_ifs with hpath husb hagain hblock hsystem hvolume
  · exact Tried.absent hpath
  · rw [Bool.not_eq_false] at hpath
    exact Tried.unopened hpath (Or.inl husb) (by simp [HandleCalls.Opens, husb]) husb
  · -- the second device path is missing: the status is still the one of the USB lookup
    rw [Bool.not_eq_false] at hpath
    rw [Bool.not_eq_true] at husb
    have hopens : ¬ calls.Opens := by simp [HandleCalls.Opens, hagain]
    apply Tried.skipped _ hpath
    · exact HandleCalls.not_ends_of_packetSize (HandleCalls.packetSize_of_unopened hopens)
    · refine iff_of_false ?_ (not_not.mpr ⟨husb, Or.inl hagain⟩)
      simp [husb]
  · rw [Bool.not_eq_false] at hpath hagain
    exact Tried.unopened hpath (Or.inr hagain) (by simp [HandleCalls.Opens, hblock]) hblock
  · rw [Bool.not_eq_false] at hpath hagain
    exact Tried.unopened hpath (Or.inr hagain) (by simp [HandleCalls.Opens, hsystem]) hsystem
  · rw [Bool.not_eq_false] at hpath hagain
    exact Tried.unopened hpath (Or.inr hagain) (by simp [HandleCalls.Opens, hvolume]) hvolume
  · rw [Bool.not_eq_false] at hpath hagain
    rw [Bool.not_eq_true] at husb hblock hsystem hvolume
    apply openPacketFile_tried hpath husb hagain
    intro hopen
    exact ⟨⟨hpath, husb, hagain, hblock, hsystem, hvolume⟩, hopen⟩

end MuTegra.Dfci.UsbFile
