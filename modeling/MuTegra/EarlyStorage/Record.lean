/- Unit: MuTegra/EarlyStorage/Record
   source: NvidiaPkg/Library/MsWheaEarlyStorageLib/MsWheaEarlyStorageLib.c
   digest: Slot search, checksum and record insertion of the early error log. -/

import MuTegra.EarlyStorage.Storage
import MuTegra.Foundation.ByteFields

/-!
The header and entry structures are declared outside this tree. `Layout` names
what the code uses of them: their sizes, the offsets of two header fields and the
bytes of an entry.
-/

set_option autoImplicit false
set_option relaxedAutoImplicit false

namespace MuTegra.EarlyStorage.Record

open MuTegra.Foundation.MachineWords
open MuTegra.Foundation.ByteFields
open MuTegra.Uefi.Status
open MuTegra.EarlyStorage.Storage

abbrev Guid := BitVec 128

structure EntryV0 where
  rev : UInt8
  errorStatusValue : UInt32
  additionalInfo1 : UInt64
  additionalInfo2 : UInt64
  moduleID : Guid
  partitionID : Guid
  deriving DecidableEq, Repr

/-- The record format: `MS_WHEA_EARLY_STORAGE_HEADER` with its `UINT16 Checksum` and
`UINT32 ActiveRange`, and the stored form of an entry. -/
structure Layout where
  headerSize : ℕ
  entrySize : ℕ
  checksumPos : ℕ
  activeRangePos : ℕ
  /-- `MS_WHEA_REV_0`. -/
  rev0 : UInt8
  /-- `gEfiCallerIdGuid` of the module using the library. -/
  callerIdGuid : Guid
  encode : EntryV0 → List UInt8
  header_even : 2 ∣ headerSize
  header_small : headerSize < 256
  entry_even : 2 ∣ entrySize
  entry_small : entrySize < 256
  entry_pos : 0 < entrySize
  checksum_even : 2 ∣ checksumPos
  checksum_inside : checksumPos + 2 ≤ headerSize
  activeRange_inside : activeRangePos + 4 ≤ headerSize
  fields_apart : checksumPos + 2 ≤ activeRangePos ∨ activeRangePos + 4 ≤ checksumPos
  encode_length : ∀ entry, (encode entry).length = entrySize

def Layout.checksum (L : Layout) (header : List UInt8) : ℕ := field header L.checksumPos 2

def Layout.setChecksum (L : Layout) (header : List UInt8) (v : ℕ) : List UInt8 :=
  setField header L.checksumPos 2 v

def Layout.activeRange (L : Layout) (header : List UInt8) : ℕ := field header L.activeRangePos 4

def Layout.setActiveRange (L : Layout) (header : List UInt8) (v : ℕ) : List UInt8 :=
  setField header L.activeRangePos 4 v

structure Locals (L : Layout) where
  slotHeader : List UInt8
  header : List UInt8
  checksum : ℕ
  data : List UInt8
  slotHeader_length : slotHeader.length = L.headerSize
  header_length : header.length = L.headerSize
  data_length : data.length = 2

def msWheaESGetMaxDataCount (p : Platform) (L : Layout) : ℕ :=
  toUint8 (subUint32 (msWheaEarlyStorageGetMaxSize p) L.headerSize &&& 0xFF)

structure Slot where
  status : EfiStatus
  offset : ℕ
  store : Store

/-- `MsWheaESFindSlot`; the status of its header read is not looked at. -/
def msWheaESFindSlot (p : Platform) (L : Layout) (s : Store) (locals : Locals L)
    (size offset : ℕ) : Slot :=
  let out := msWheaEarlyStorageRead p s (some locals.slotHeader) L.headerSize 0
  let header := out.2.1.getD locals.slotHeader
  if toUint32 (L.activeRange header + size) ≤ msWheaESGetMaxDataCount p L then
    { status := efiSuccess, offset := toUint8 (L.activeRange header), store := out.2.2 }
  else
    { status := efiOutOfResources, offset := offset, store := out.2.2 }

def calculateSum16 (bytes : List UInt8) : ℕ := toUint16 (wordSum bytes)

structure DataSum where
  status : EfiStatus
  sum : ℕ
  store : Store

/-- The data loop from `index` on, with `passes` words left of the active range. -/
def sumData (p : Platform) (L : Layout) (locals : Locals L) :
    ℕ → ℕ → ℕ → Store → DataSum
  | 0, _, sum, s => { status := efiSuccess, sum := sum, store := s }
  | passes + 1, index, sum, s =>
      let out := msWheaEarlyStorageRead p s (some locals.data) 2 (toUint8 (L.headerSize + index))
      if efiError out.1 then { status := out.1, sum := sum, store := out.2.2 }
      else
        let data := decodeLe (out.2.1.getD locals.data)
        sumData p L locals passes (index + 2) (toUint16 (sum + data)) out.2.2

structure Checksum16 where
  status : EfiStatus
  header : Option (List UInt8)
  checksum : Option ℕ
  store : Store

/-- `MsWheaESCalculateChecksum16`; the checksum field is cleared and put back. -/
def msWheaESCalculateChecksum16 (p : Platform) (L : Layout) (s : Store) (locals : Locals L)
    (header : Option (List UInt8)) (checksum : Option ℕ) : Checksum16 :=
  match header, checksum with
  | some header, some checksum =>
      if L.activeRange header > msWheaEarlyStorageGetMaxSize p ∨
          L.activeRange header &&& 1 ≠ 0 then
        { status := efiBadBufferSize, header := some header, checksum := some checksum,
          store := s }
      else
        let saved := L.checksum header
        let cleared := L.setChecksum header 0
        let restored := L.setChecksum cleared saved
        let out := sumData p L locals (L.activeRange header / 2) 0 (calculateSum16 cleared) s
        if efiError out.status then
          { status := out.status, header := some restored, checksum := some saved,
            store := out.store }
        else
          { status := out.status, header := some restored,
            checksum := some (toUint16 (0x10000 - out.sum)), store := out.store }
  | _, _ =>
      { status := efiInvalidParameter, header := header, checksum := checksum, store := s }

/-- The last part of the insertion: write the header back and read it again. -/
def writeHeader (p : Platform) (L : Layout) (s : Store) (header : List UInt8) :
    EfiStatus × Store :=
  let written := msWheaEarlyStorageWrite p s (some header) L.headerSize 0
  let out := msWheaEarlyStorageRead p written.2 (some (List.replicate L.headerSize 0))
    L.headerSize 0
  (out.1, out.2.2)

/-- The middle part: extend the active range of the stored header and refresh its checksum. -/
def extendHeader (p : Platform) (L : Layout) (s : Store) (locals : Locals L) :
    EfiStatus × Store :=
  let out := msWheaEarlyStorageRead p s (some locals.header) L.headerSize 0
  if efiError out.1 then (out.1, out.2.2)
  else
    let header := out.2.1.getD locals.header
    let header := L.setActiveRange header (toUint32 (L.activeRange header + L.entrySize))
    let sum := msWheaESCalculateChecksum16 p L out.2.2 locals (some header) (some locals.checksum)
    if efiError sum.status then (sum.status, sum.store)
    else
      writeHeader p L sum.store
        (L.setChecksum (sum.header.getD header) (sum.checksum.getD locals.checksum))

def msWheaESAddRecordV0Internal (p : Platform) (L : Layout) (s : Store) (locals : Locals L)
    (msWheaEntry : Option EntryV0) : EfiStatus × Store :=
  match msWheaEntry with
  | none => (efiInvalidParameter, s)
  | some entry =>
      let slot := msWheaESFindSlot p L s locals L.entrySize 0
      if efiError slot.status then (slot.status, slot.store)
      else
        let written := msWheaEarlyStorageWrite p slot.store (some (L.encode entry)) L.entrySize
          (toUint8 (L.headerSize + slot.offset))
        if efiError written.1 then written
        else extendHeader p L written.2 locals

/-- The arguments of `MsWheaESAddRecordV0`; `none` for an omitted GUID. -/
structure Report where
  errorStatusValue : UInt32
  additionalInfo1 : UInt64
  additionalInfo2 : UInt64
  moduleId : Option Guid
  partitionId : Option Guid
  deriving DecidableEq, Repr

def Report.entry (L : Layout) (report : Report) : EntryV0 where
  rev := L.rev0
  errorStatusValue := report.errorStatusValue
  additionalInfo1 := report.additionalInfo1
  additionalInfo2 := report.additionalInfo2
  moduleID := report.moduleId.getD L.callerIdGuid
  partitionID := report.partitionId.getD 0

def msWheaESAddRecordV0 (p : Platform) (L : Layout) (s : Store) (locals : Locals L)
    (report : Report) : EfiStatus × Store :=
  msWheaESAddRecordV0Internal p L s locals (some (report.entry L))

variable {p : Platform} {s : Store} {base : ℕ}

/-- The log buffer is located at a nonzero address, and the store knows it or nothing. -/
structure Located (p : Platform) (base : ℕ) (s : Store) : Prop where
  buffer : p.logBuffer = some base
  nonzero : base ≠ 0
  address : s.address = 0 ∨ s.address = base

theorem Located.locate_address (h : Located p base s) : (s.locate p).address = base := by
  unfold Store.locate
  rcases h.address with hzero | hbase
  · rw [if_pos hzero, h.buffer]
    rfl
  · rw [if_neg (by rw [hbase]; exact h.nonzero), hbase]

theorem checks_pass (hcap : p.capacity ≤ 0x100) {size offset : ℕ} (hsize : 0 < size)
    (hfit : 0x40 + offset + size ≤ p.capacity) :
    ¬ offset ≥ msWheaEarlyStorageGetMaxSize p ∧
      toUint8 (msWheaEarlyStorageOffset + offset) = 0x40 + offset ∧
      ¬ (size = 0 ∨ overLength p size (0x40 + offset) = true) := by
  have hmax := getMaxSize_eq (p := p) (by omega)
  have hwrap : (0x40 + offset) % 256 = 0x40 + offset := Nat.mod_eq_of_lt (by omega)
  have hlimit : toUint8 (subUint32 p.capacity size) = p.capacity - size := by
    rw [subUint32_of_le (by omega) p.capacity_fits]
    exact Nat.mod_eq_of_lt (by omega)
  refine ⟨by omega, hwrap, ?_⟩
  rintro (hzero | hlong)
  · omega
  · unfold overLength at hlong
    rw [hlimit, decide_eq_true_iff] at hlong
    omega

private theorem indices_eq {offset : ℕ} (base : ℕ) {n : ℕ} (hfit : offset + n ≤ 256) :
    indices offset base n 0 = (List.range n).map fun i => base + offset + i := by
  rw [indices, List.range_eq_range']
  refine List.map_congr_left fun i hi => ?_
  have hlt := (List.mem_range'_1.mp hi).2
  rw [toUint8, Nat.mod_eq_of_lt (by omega), Nat.add_assoc]

theorem read_any_spec (h : Located p base s) (hcap : p.capacity ≤ 0x100) {size offset : ℕ}
    (hsize : 0 < size) (hfit : 0x40 + offset + size ≤ p.capacity) (mBuf : List UInt8) :
    ∃ s', msWheaEarlyStorageRead p s (some mBuf) size offset =
        (efiSuccess, some (bytesAt s.mem (base + 0x40 + offset) size ++ mBuf.drop size), s') ∧
      s'.mem = s.mem ∧ s'.address = base := by
  obtain ⟨hmax, hwrap, hcheck⟩ := checks_pass hcap hsize hfit
  have haddress := h.locate_address
  have hindices : indices (0x40 + offset) base size 0 =
      (List.range size).map fun i => base + (0x40 + offset) + i := indices_eq base (by omega)
  have hbytes : (indices (0x40 + offset) base size 0).map s.mem =
      bytesAt s.mem (base + 0x40 + offset) size := by
    rw [hindices, List.map_map, bytesAt, Nat.add_assoc base]
    rfl
  refine ⟨{ s.locate p with
    touched := s.touched ++ indices (0x40 + offset) base size 0 }, ?_, locate_mem p s, haddress⟩
  rw [msWheaEarlyStorageRead, if_neg hmax, hwrap, msWheaCMOSRawRead, if_neg hcheck]
  simp only [readLoop_eq, haddress, if_neg h.nonzero, locate_mem, locate_touched, hbytes]

theorem read_spec (h : Located p base s) (hcap : p.capacity ≤ 0x100) {size offset : ℕ}
    (hsize : 0 < size) (hfit : 0x40 + offset + size ≤ p.capacity) {mBuf : List UInt8}
    (hbuf : mBuf.length = size) :
    ∃ s', msWheaEarlyStorageRead p s (some mBuf) size offset =
        (efiSuccess, some (bytesAt s.mem (base + 0x40 + offset) size), s') ∧
      s'.mem = s.mem ∧ s'.address = base := by
  obtain ⟨s', hread, hrest⟩ := read_any_spec h hcap hsize hfit mBuf
  refine ⟨s', ?_, hrest⟩
  rw [hread, ← hbuf, List.drop_length, List.append_nil]

theorem write_spec (haddress : s.address = base) (hcap : p.capacity ≤ 0x100)
    (offset : ℕ) (mBuf : List UInt8) (hsize : 0 < mBuf.length)
    (hfit : 0x40 + offset + mBuf.length ≤ p.capacity) :
    ∃ s', msWheaEarlyStorageWrite p s (some mBuf) mBuf.length offset = (efiSuccess, s') ∧
      s'.mem = blit s.mem (base + 0x40 + offset) mBuf ∧ s'.address = base := by
  obtain ⟨hmax, hwrap, hcheck⟩ := checks_pass hcap hsize hfit
  refine ⟨writeLoop (0x40 + offset) (fun i => mBuf.getD i 0) mBuf.length 0 s, ?_, ?_, ?_⟩
  · rw [msWheaEarlyStorageWrite, if_neg hmax, hwrap, msWheaCMOSRawWrite, if_neg hcheck]
  · funext x
    rw [writeLoop_mem _ _ _ _ (by omega), haddress, ← Nat.add_assoc]
    by_cases hx : base + 0x40 + offset ≤ x ∧ x < base + 0x40 + offset + mBuf.length
    · obtain ⟨i, rfl⟩ := Nat.exists_eq_add_of_le hx.1
      have hi : i < mBuf.length := by omega
      rw [if_pos hx, Nat.add_sub_cancel_left, blit_inside hi]
      simp [hi]
    · rw [if_neg hx, blit_outside (by omega)]
  · rw [writeLoop_address, haddress]

end MuTegra.EarlyStorage.Record
