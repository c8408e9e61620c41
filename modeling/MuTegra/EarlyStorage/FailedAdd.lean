/- Unit: MuTegra/EarlyStorage/FailedAdd
   source: NvidiaPkg/Library/MsWheaEarlyStorageLib/MsWheaEarlyStorageLib.c
   digest: When a failing insertion leaves the header and the recorded active range alone. -/

import MuTegra.EarlyStorage.LogInvariant

/-!
The slot test adds the stored active range and the record size in 32 bits, and the place
of the record is the sum cut to eight bits. When the sum wraps the record goes over the
header, and only then is the header read again and judged.
-/

set_option autoImplicit false
set_option relaxedAutoImplicit false

namespace MuTegra.EarlyStorage.FailedAdd

open MuTegra.Foundation.MachineWords
open MuTegra.Foundation.ByteFields
open MuTegra.Uefi.Status
open MuTegra.EarlyStorage.Storage
open MuTegra.EarlyStorage.Record
open MuTegra.EarlyStorage.LogInvariant

def storedRange (L : Layout) (base : ℕ) (mem : ℕ → UInt8) : ℕ :=
  L.activeRange (headerAt L base mem)

def Protected (L : Layout) (base : ℕ) (mem : ℕ → UInt8) (x : ℕ) : Prop :=
  base + 0x40 ≤ x ∧ x < dataStart L base + storedRange L base mem

def FailureKeeps (p : Platform) (L : Layout) (base : ℕ) (s : Store) (locals : Locals L)
    (report : Report) : Prop :=
  efiError (msWheaESAddRecordV0 p L s locals report).1 = true →
    ∀ x, Protected L base s.mem x → (msWheaESAddRecordV0 p L s locals report).2.mem x = s.mem x

def recordPlace (L : Layout) (base : ℕ) (mem : ℕ → UInt8) : ℕ :=
  toUint8 (L.headerSize + toUint8 (storedRange L base mem))

def withRecord (L : Layout) (base : ℕ) (mem : ℕ → UInt8) (record : List UInt8) : ℕ → UInt8 :=
  (writeLoop (toUint8 (msWheaEarlyStorageOffset + recordPlace L base mem))
    (fun i => record.getD i 0) L.entrySize 0 { mem := mem, address := base, touched := [] }).mem

def extendedRange (L : Layout) (base : ℕ) (mem : ℕ → UInt8) (record : List UInt8) : ℕ :=
  toUint32 (storedRange L base (withRecord L base mem record) + L.entrySize)

/-- The 32-bit sum wraps, the wrapped sum passes the slot test, the eight-bit checks let
the record be written, it differs from the protected bytes there, and the header then
found is refused. -/
structure Overwrites (p : Platform) (L : Layout) (base : ℕ) (mem : ℕ → UInt8)
    (record : List UInt8) : Prop where
  wraps : 4294967296 ≤ storedRange L base mem + L.entrySize
  slot : toUint32 (storedRange L base mem + L.entrySize) ≤ msWheaESGetMaxDataCount p L
  below : recordPlace L base mem < msWheaEarlyStorageGetMaxSize p
  limit : overLength p L.entrySize
    (toUint8 (msWheaEarlyStorageOffset + recordPlace L base mem)) = false
  differs : ∃ x, Protected L base mem x ∧ withRecord L base mem record x ≠ mem x
  refused : ¬ (2 ∣ extendedRange L base mem record ∧
    extendedRange L base mem record ≤ msWheaESGetMaxDataCount p L)

variable {p : Platform} {L : Layout} {base : ℕ} {s : Store}

theorem writeLoop_mem_congr (offset : ℕ) (value : ℕ → UInt8) (n i : ℕ) {s t : Store}
    (hmem : s.mem = t.mem) (haddress : s.address = t.address) :
    (writeLoop offset value n i s).mem = (writeLoop offset value n i t).mem := by
  induction n generalizing i s t with
  | zero => exact hmem
  | succ n ih =>
      apply ih
      · simp only [Store.mmioWrite8, hmem, haddress]
      · exact haddress

theorem read_past (s : Store) (hcap : p.capacity ≤ 0x100) {size offset : ℕ}
    (hstart : 0x40 + offset ≤ p.capacity) (hend : p.capacity < 0x40 + offset + size)
    (hsize : size ≤ p.capacity) (mBuf : List UInt8) :
    msWheaEarlyStorageRead p s (some mBuf) size offset =
      (efiInvalidParameter, some mBuf, s) := by
  by_cases hmax : offset ≥ msWheaEarlyStorageGetMaxSize p
  · exact if_pos hmax
  · have hmax' := getMaxSize_eq (p := p) (by omega)
    have hwrap : toUint8 (msWheaEarlyStorageOffset + offset) = 0x40 + offset :=
      Nat.mod_eq_of_lt (by unfold msWheaEarlyStorageOffset; omega)
    have hlimit : overLength p size (0x40 + offset) = true := by
      rw [overLength, subUint32_of_le hsize p.capacity_fits, decide_eq_true_iff]
      exact lt_of_le_of_lt (Nat.mod_le _ _) (by omega)
    rw [msWheaEarlyStorageRead, if_neg hmax, hwrap, msWheaCMOSRawRead, if_pos (Or.inr hlimit)]

theorem sumData_past (h : Located p base s) (hcap : p.capacity ≤ 0x100) (locals : Locals L)
    (passes index sum : ℕ) (hstart : 0x40 + L.headerSize + index ≤ p.capacity)
    (hend : p.capacity < 0x40 + L.headerSize + index + 2 * passes) :
    efiError (sumData p L locals passes index sum s).status = true ∧
      (sumData p L locals passes index sum s).store.mem = s.mem := by
  induction passes generalizing index sum s with
  | zero => omega
  | succ passes ih =>
      have hwrap : toUint8 (L.headerSize + index) = L.headerSize + index :=
        Nat.mod_eq_of_lt (by omega)
      by_cases hfits : 0x40 + (L.headerSize + index) + 2 ≤ p.capacity
      · obtain ⟨s', hread, hmem, haddress⟩ :=
          read_spec h hcap Nat.zero_lt_two hfits locals.data_length
        have hnext : Located p base s' := ⟨h.buffer, h.nonzero, Or.inr haddress⟩
        obtain ⟨hstatus, hmem'⟩ := ih hnext (index + 2)
          (toUint16 (sum + decodeLe (bytesAt s.mem (base + 0x40 + (L.headerSize + index)) 2)))
          (by omega) (by omega)
        simp only [sumData, hwrap, hread, efiError_success, Bool.false_eq_true, if_false,
          Option.getD_some]
        exact ⟨hstatus, hmem'.trans hmem⟩
      · have hread := read_past s hcap
          (show 0x40 + (L.headerSize + index) ≤ p.capacity by omega)
          (show p.capacity < 0x40 + (L.headerSize + index) + 2 by omega) (by omega) locals.data
        have herror : efiError efiInvalidParameter = true := rfl
        simp only [sumData, hwrap, hread, herror, if_true, and_self]

theorem checksum_refused (h : Located p base s) (hcap : p.capacity ≤ 0x100)
    (hroom : 0x40 + L.headerSize ≤ p.capacity) (locals : Locals L) {header : List UInt8}
    (hrefused : ¬ (2 ∣ L.activeRange header ∧
      L.activeRange header ≤ msWheaESGetMaxDataCount p L)) :
    efiError (msWheaESCalculateChecksum16 p L s locals (some header)
        (some locals.checksum)).status = true ∧
      (msWheaESCalculateChecksum16 p L s locals (some header)
        (some locals.checksum)).store.mem = s.mem := by
  rw [maxDataCount_eq hcap hroom] at hrefused
  by_cases hguard : L.activeRange header > msWheaEarlyStorageGetMaxSize p ∨
      L.activeRange header &&& 1 ≠ 0
  · simp only [msWheaESCalculateChecksum16, if_pos hguard, and_true]
    rfl
  · have hmax := getMaxSize_eq (p := p) (by omega)
    rw [Nat.and_one_is_mod, hmax] at hguard
    obtain ⟨hstatus, hmem⟩ := sumData_past h hcap locals (L.activeRange header / 2) 0
      (calculateSum16 (L.setChecksum header 0)) (by omega) (by omega)
    rw [← Nat.and_one_is_mod, ← hmax] at hguard
    simp only [msWheaESCalculateChecksum16, if_neg hguard, hstatus, if_true, hmem, and_self]

theorem extendHeader_of_error {locals : Locals L} {header : List UInt8} {s₁ : Store}
    {sum : Checksum16}
    (hread : msWheaEarlyStorageRead p s (some locals.header) L.headerSize 0 =
      (efiSuccess, some header, s₁))
    (hsum : msWheaESCalculateChecksum16 p L s₁ locals
      (some (L.setActiveRange header (toUint32 (L.activeRange header + L.entrySize))))
      (some locals.checksum) = sum)
    (herror : efiError sum.status = true) {mem : ℕ → UInt8} (hmem : sum.store.mem = mem) :
    efiError (extendHeader p L s locals).1 = true ∧
      (extendHeader p L s locals).2.mem = mem := by
  have hstop : extendHeader p L s locals = (sum.status, sum.store) := by
    simp only [extendHeader, hread, hsum, efiError_success, Bool.false_eq_true, if_false,
      Option.getD_some]
    exact if_pos herror
  rw [hstop]
  exact ⟨herror, hmem⟩

/-- The header update succeeds exactly when the extended range is even and fits; a failing
one writes nothing. -/
theorem extendHeader_outcome (h : Located p base s) (hcap : p.capacity ≤ 0x100)
    (hroom : 0x40 + L.headerSize ≤ p.capacity) (locals : Locals L) {range : ℕ}
    (hrange : toUint32 (storedRange L base s.mem + L.entrySize) = range) :
    (2 ∣ range ∧ range ≤ msWheaESGetMaxDataCount p L →
        (extendHeader p L s locals).1 = efiSuccess) ∧
      (¬ (2 ∣ range ∧ range ≤ msWheaESGetMaxDataCount p L) →
        efiError (extendHeader p L s locals).1 = true ∧
          (extendHeader p L s locals).2.mem = s.mem) := by
  obtain ⟨s₁, hread, hmem₁, haddress₁⟩ := read_spec h hcap (headerSize_pos L)
    (show 0x40 + 0 + L.headerSize ≤ p.capacity by omega) locals.header_length
  have hlocated₁ : Located p base s₁ := ⟨h.buffer, h.nonzero, Or.inr haddress₁⟩
  have hlength := setActiveRange_length (headerAt_length L base s.mem) range
  have hactive : L.activeRange (L.setActiveRange (headerAt L base s.mem) range) = range := by
    rw [activeRange_setActiveRange (headerAt_length L base s.mem), ← hrange, toUint32, toUint32,
      Nat.mod_mod]
  have hread' : msWheaEarlyStorageRead p s (some locals.header) L.headerSize 0 =
      (efiSuccess, some (headerAt L base s.mem), s₁) := hread
  have hrange' : toUint32 (L.activeRange (headerAt L base s.mem) + L.entrySize) = range := hrange
  constructor
  · rintro ⟨heven, hle⟩
    rw [maxDataCount_eq hcap hroom] at hle
    obtain ⟨checksum, s₂, hrun, _, _, haddress₂⟩ :=
      checksum_spec hlocated₁ haddress₁ hcap locals hlength hactive heven (by omega)
    have hlength' := setChecksum_length (setChecksum_length hlength
      (L.checksum (L.setActiveRange (headerAt L base s.mem) range))) checksum
    obtain ⟨s₃, hwritten, -⟩ := writeHeader_spec ⟨h.buffer, h.nonzero, Or.inr haddress₂⟩ haddress₂
      hcap hroom hlength'
    simp only [extendHeader, hread', hrange', hrun, efiError_success, Bool.false_eq_true,
      if_false, Option.getD_some, hwritten]
  · intro hrefused
    rw [← hactive] at hrefused
    obtain ⟨herror, hmem⟩ := checksum_refused hlocated₁ hcap hroom locals hrefused
    rw [← hrange'] at herror hmem
    exact extendHeader_of_error hread' rfl herror (hmem.trans hmem₁)

theorem withRecord_protected (hcap : p.capacity ≤ 0x100)
    (hroom : 0x40 + L.headerSize ≤ p.capacity) {mem : ℕ → UInt8} (record : List UInt8)
    (hwraps : ¬ 4294967296 ≤ storedRange L base mem + L.entrySize)
    (hslot : toUint32 (storedRange L base mem + L.entrySize) ≤ msWheaESGetMaxDataCount p L)
    {x : ℕ} (hx : Protected L base mem x) : withRecord L base mem record x = mem x := by
  have hpos := L.entry_pos
  rw [maxDataCount_eq hcap hroom, toUint32_of_lt (Nat.lt_of_not_le hwraps)] at hslot
  have hplace : toUint8 (msWheaEarlyStorageOffset + recordPlace L base mem) =
      0x40 + L.headerSize + storedRange L base mem := by
    unfold recordPlace toUint8 msWheaEarlyStorageOffset
    omega
  have hbehind : x < base + (0x40 + L.headerSize + storedRange L base mem) := by
    have hlt := hx.2
    unfold dataStart at hlt
    omega
  rw [withRecord, hplace, writeLoop_mem _ _ _ _ (by omega)]
  apply if_neg
  rintro ⟨hle, _⟩
  exact absurd hbehind (Nat.not_lt.mpr hle)

section Add

variable (h : Located p base s) (hcap : p.capacity ≤ 0x100)
  (hroom : 0x40 + L.headerSize ≤ p.capacity) (locals : Locals L) (report : Report)

include h hcap hroom

theorem addRecord_noSlot (hslot : ¬ toUint32 (storedRange L base s.mem + L.entrySize) ≤
      msWheaESGetMaxDataCount p L) :
    (msWheaESAddRecordV0 p L s locals report).2.mem = s.mem := by
  obtain ⟨s₁, hmem₁, _, hfind⟩ := findSlot_stored h hcap hroom locals
  have hnone : ¬ toUint32 (L.activeRange (headerAt L base s.mem) + L.entrySize) ≤
      msWheaESGetMaxDataCount p L := hslot
  have herror : efiError efiOutOfResources = true := rfl
  rw [if_neg hnone] at hfind
  simp only [msWheaESAddRecordV0, msWheaESAddRecordV0Internal, hfind, herror, if_true]
  exact hmem₁

/-- With a slot, the record write is tried at the place cut to eight bits. -/
theorem addRecord_slot (hslot : toUint32 (storedRange L base s.mem + L.entrySize) ≤
      msWheaESGetMaxDataCount p L) :
    ∃ s₁, s₁.mem = s.mem ∧ s₁.address = base ∧
      msWheaESAddRecordV0 p L s locals report =
        let written := msWheaEarlyStorageWrite p s₁ (some (L.encode (report.entry L)))
          L.entrySize (recordPlace L base s.mem)
        if efiError written.1 then written else extendHeader p L written.2 locals := by
  obtain ⟨s₁, hmem₁, haddress₁, hfind⟩ := findSlot_stored h hcap hroom locals
  have hfound : toUint32 (L.activeRange (headerAt L base s.mem) + L.entrySize) ≤
      msWheaESGetMaxDataCount p L := hslot
  rw [if_pos hfound] at hfind
  refine ⟨s₁, hmem₁, haddress₁, ?_⟩
  simp only [msWheaESAddRecordV0, msWheaESAddRecordV0Internal, hfind, efiError_success,
    Bool.false_eq_true, if_false]
  rfl

end Add

def RecordAccepted (p : Platform) (L : Layout) (place : ℕ) : Prop :=
  place < msWheaEarlyStorageGetMaxSize p ∧
    overLength p L.entrySize (toUint8 (msWheaEarlyStorageOffset + place)) = false

theorem recordWrite_refused {place : ℕ} (hrefused : ¬ RecordAccepted p L place) (s : Store)
    (record : List UInt8) :
    msWheaEarlyStorageWrite p s (some record) L.entrySize place = (efiInvalidParameter, s) := by
  by_cases hbelow : place ≥ msWheaEarlyStorageGetMaxSize p
  · exact if_pos hbelow
  · have hlong : overLength p L.entrySize (toUint8 (msWheaEarlyStorageOffset + place)) = true :=
      Bool.of_not_eq_false fun hlimit => hrefused ⟨Nat.lt_of_not_ge hbelow, hlimit⟩
    rw [msWheaEarlyStorageWrite, if_neg hbelow, msWheaCMOSRawWrite, if_pos (Or.inr hlong)]

theorem recordWrite_accepted {place : ℕ} (haccepted : RecordAccepted p L place) (s : Store)
    (record : List UInt8) :
    msWheaEarlyStorageWrite p s (some record) L.entrySize place =
      (efiSuccess, writeLoop (toUint8 (msWheaEarlyStorageOffset + place))
        (fun i => record.getD i 0) L.entrySize 0 s) := by
  have hbelow : ¬ place ≥ msWheaEarlyStorageGetMaxSize p := Nat.not_le.mpr haccepted.1
  have hcheck : ¬ (L.entrySize = 0 ∨
      overLength p L.entrySize (toUint8 (msWheaEarlyStorageOffset + place)) = true) := by
    rw [haccepted.2]
    simpa using L.entry_pos.ne'
  rw [msWheaEarlyStorageWrite, if_neg hbelow, msWheaCMOSRawWrite, if_neg hcheck]

/-- The record is written: whether the protected bytes are kept is up to the header update. -/
theorem failureKeeps_accepted_iff (p : Platform) (L : Layout) (base : ℕ) (s : Store)
    (h : Located p base s) (hcap : p.capacity ≤ 0x100) (hroom : 0x40 + L.headerSize ≤ p.capacity)
    (locals : Locals L) (report : Report)
    (hslot : toUint32 (storedRange L base s.mem + L.entrySize) ≤ msWheaESGetMaxDataCount p L)
    (haccepted : RecordAccepted p L (recordPlace L base s.mem)) :
    FailureKeeps p L base s locals report ↔
      ¬ Overwrites p L base s.mem (L.encode (report.entry L)) := by
  obtain ⟨s₁, hmem₁, haddress₁, hadd⟩ := addRecord_slot h hcap hroom locals report hslot
  have hwritten := recordWrite_accepted haccepted s₁ (L.encode (report.entry L))
  simp only [hwritten, efiError_success, Bool.false_eq_true, if_false] at hadd
  -- The header update starts from the memory with the record in it.
  generalize hs₂ : writeLoop (toUint8 (msWheaEarlyStorageOffset + recordPlace L base s.mem))
    (fun i => (L.encode (report.entry L)).getD i 0) L.entrySize 0 s₁ = s₂ at hadd
  have hmem₂ : s₂.mem = withRecord L base s.mem (L.encode (report.entry L)) := by
    rw [← hs₂]
    exact writeLoop_mem_congr _ _ _ _ hmem₁ haddress₁
  have haddress₂ : s₂.address = base := by rw [← hs₂, writeLoop_address, haddress₁]
  have hextended : toUint32 (storedRange L base s₂.mem + L.entrySize) =
      extendedRange L base s.mem (L.encode (report.entry L)) := by rw [hmem₂, extendedRange]
  obtain ⟨hgood, hbad⟩ := extendHeader_outcome ⟨h.buffer, h.nonzero, Or.inr haddress₂⟩ hcap hroom
    locals hextended
  unfold FailureKeeps
  rw [hadd]
  by_cases hupdated : 2 ∣ extendedRange L base s.mem (L.encode (report.entry L)) ∧
      extendedRange L base s.mem (L.encode (report.entry L)) ≤ msWheaESGetMaxDataCount p L
  · refine iff_of_true ?_ fun hover => hover.refused hupdated
    intro herror
    rw [hgood hupdated] at herror
    cases herror
  · obtain ⟨herror, hmem⟩ := hbad hupdated
    rw [hmem, hmem₂]
    constructor
    · rintro hkeeps ⟨_, _, _, _, ⟨x, hx, hdiffers⟩, _⟩
      exact hdiffers (hkeeps herror x hx)
    · intro hnot _ x hx
      by_contra hdiffers
      refine hnot ⟨?_, hslot, haccepted.1, haccepted.2, ⟨x, hx, hdiffers⟩, hupdated⟩
      by_contra hwraps
      exact hdiffers (withRecord_protected hcap hroom _ hwraps hslot hx)

/-- For every content of a located store whose capacity of at most 0x100 holds the header:
a failing insertion leaves the header and the recorded active range as they were if and
only if it is not one whose wrapped sum lets the record overwrite them. -/
theorem failureKeeps_iff (p : Platform) (L : Layout) (base : ℕ) (s : Store)
    (h : Located p base s) (hcap : p.capacity ≤ 0x100) (hroom : 0x40 + L.headerSize ≤ p.capacity)
    (locals : Locals L) (report : Report) :
    FailureKeeps p L base s locals report ↔
      ¬ Overwrites p L base s.mem (L.encode (report.entry L)) := by
  by_cases hslot : toUint32 (storedRange L base s.mem + L.entrySize) ≤
      msWheaESGetMaxDataCount p L
  · by_cases haccepted : RecordAccepted p L (recordPlace L base s.mem)
    · exact failureKeeps_accepted_iff p L base s h hcap hroom locals report hslot haccepted
    · obtain ⟨s₁, hmem₁, -, hadd⟩ := addRecord_slot h hcap hroom locals report hslot
      have hrefused := recordWrite_refused haccepted s₁ (L.encode (report.entry L))
      have herror : efiError efiInvalidParameter = true := rfl
      simp only [hrefused, herror, if_true] at hadd
      refine iff_of_true (fun _ x _ => by rw [hadd, hmem₁]) ?_
      intro hover
      exact haccepted ⟨hover.below, hover.limit⟩
  · have hmem := addRecord_noSlot h hcap hroom locals report hslot
    refine iff_of_true (fun _ x _ => by rw [hmem]) ?_
    intro hover
    exact hslot hover.slot

def blankStore : Store := .boot fun _ => 0xFF

theorem failureKeeps_iff_blank :
    FailureKeeps logPlatform packedLayout 0x84849000 blankStore zeroLocals sampleReport ↔
      ¬ Overwrites logPlatform packedLayout 0x84849000 blankStore.mem
        (packedLayout.encode (sampleReport.entry packedLayout)) :=
  failureKeeps_iff logPlatform packedLayout 0x84849000 blankStore
    ⟨by decide, by decide, Or.inl rfl⟩ (by decide) (by decide) zeroLocals sampleReport

/-- On a blank store the insertion fails after writing over the header's last byte. -/
theorem blank_not_failureKeeps :
    ¬ FailureKeeps logPlatform packedLayout 0x84849000 blankStore zeroLocals sampleReport := by
  intro hkeeps
  have herror : efiError (msWheaESAddRecordV0 logPlatform packedLayout blankStore zeroLocals
      sampleReport).1 = true := by
    decide +kernel
  have hbyte := hkeeps herror (0x84849000 + 0x40 + 15) ⟨by decide, by decide +kernel⟩
  have hchanged : (msWheaESAddRecordV0 logPlatform packedLayout blankStore zeroLocals
      sampleReport).2.mem (0x84849000 + 0x40 + 15) = 0 := by
    decide +kernel
  rw [hchanged] at hbyte
  cases hbyte

end MuTegra.EarlyStorage.FailedAdd
