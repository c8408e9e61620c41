/- Unit: MuTegra/EarlyStorage/LogInvariant
   source: NvidiaPkg/Library/MsWheaEarlyStorageLib/MsWheaEarlyStorageLib.c
   digest: Every insertion keeps the early error log well formed, over any run. -/

import MuTegra.EarlyStorage.Record

set_option autoImplicit false
set_option relaxedAutoImplicit false

namespace MuTegra.EarlyStorage.LogInvariant

open MuTegra.Foundation.MachineWords
open MuTegra.Foundation.ByteFields
open MuTegra.Uefi.Status
open MuTegra.EarlyStorage.Storage
open MuTegra.EarlyStorage.Record

variable {p : Platform} {L : Layout} {base : ℕ}

def headerAt (L : Layout) (base : ℕ) (mem : ℕ → UInt8) : List UInt8 :=
  bytesAt mem (base + 0x40) L.headerSize

def dataStart (L : Layout) (base : ℕ) : ℕ := base + 0x40 + L.headerSize

/-- A well-formed log of `k` records in the log buffer at `base`: the active range
counts them, they fit, and header and records sum to zero in 16-bit words. -/
structure LogInv (p : Platform) (L : Layout) (base k : ℕ) (s : Store) : Prop where
  located : Located p base s
  room : 0x40 + L.headerSize + k * L.entrySize ≤ p.capacity
  range : L.activeRange (headerAt L base s.mem) = k * L.entrySize
  sum : wordSum (bytesAt s.mem (base + 0x40) (L.headerSize + k * L.entrySize)) % 65536 = 0

theorem headerSize_pos (L : Layout) : 0 < L.headerSize := by
  have := L.checksum_inside
  omega

theorem headerAt_length (L : Layout) (base : ℕ) (mem : ℕ → UInt8) :
    (headerAt L base mem).length = L.headerSize := bytesAt_length _ _ _

variable {header : List UInt8}

theorem setActiveRange_length (hlength : header.length = L.headerSize) (v : ℕ) :
    (L.setActiveRange header v).length = L.headerSize := by
  have hinside := L.activeRange_inside
  rw [Layout.setActiveRange, setField_length (by omega), hlength]

theorem setChecksum_length (hlength : header.length = L.headerSize) (v : ℕ) :
    (L.setChecksum header v).length = L.headerSize := by
  have hinside := L.checksum_inside
  rw [Layout.setChecksum, setField_length (by omega), hlength]

theorem activeRange_setActiveRange (hlength : header.length = L.headerSize) (v : ℕ) :
    L.activeRange (L.setActiveRange header v) = toUint32 v := by
  have hinside := L.activeRange_inside
  have hpow : 256 ^ 4 = 4294967296 := by norm_num
  rw [Layout.activeRange, Layout.setActiveRange, field_setField_self (by omega), hpow, toUint32]

theorem activeRange_setChecksum (hlength : header.length = L.headerSize) (v : ℕ) :
    L.activeRange (L.setChecksum header v) = L.activeRange header := by
  have hinside := L.checksum_inside
  rcases L.fields_apart with hbefore | hafter
  · exact field_setField_after (by omega) _ hbefore
  · exact field_setField_before (by omega) _ hafter

theorem even_mul_entrySize (L : Layout) (k : ℕ) : 2 ∣ k * L.entrySize :=
  Dvd.dvd.mul_left L.entry_even k

variable {s : Store}

theorem sumData_spec (h : Located p base s) (hknown : s.address = base)
    (hcap : p.capacity ≤ 0x100) (locals : Locals L) (passes index sum : ℕ)
    (hfit : 0x40 + L.headerSize + index + 2 * passes ≤ p.capacity) (hsum : sum < 65536) :
    (sumData p L locals passes index sum s).status = efiSuccess ∧
      (sumData p L locals passes index sum s).sum =
        (sum + wordSum (bytesAt s.mem (dataStart L base + index) (2 * passes))) % 65536 ∧
      (sumData p L locals passes index sum s).store.mem = s.mem ∧
      (sumData p L locals passes index sum s).store.address = base := by
  induction passes generalizing index sum s with
  | zero =>
      refine ⟨rfl, ?_, rfl, hknown⟩
      simp [sumData, bytesAt, wordSum, Nat.mod_eq_of_lt hsum]
  | succ passes ih =>
      have hwrap : toUint8 (L.headerSize + index) = L.headerSize + index :=
        Nat.mod_eq_of_lt (by omega)
      obtain ⟨s', hread, hmem, haddress⟩ := read_spec h hcap (Nat.zero_lt_two)
        (show 0x40 + (L.headerSize + index) + 2 ≤ p.capacity by omega) locals.data_length
      have hplace : base + 0x40 + (L.headerSize + index) = dataStart L base + index := by
        rw [dataStart]
        omega
      have hsplit : 2 * (passes + 1) = 2 + 2 * passes := by omega
      have hword : wordSum (bytesAt s.mem (dataStart L base + index) 2) =
          decodeLe (bytesAt s.mem (dataStart L base + index) 2) := rfl
      have hnext : Located p base s' := ⟨h.buffer, h.nonzero, Or.inr haddress⟩
      obtain ⟨hstatus, hvalue, hmem', hknown'⟩ := ih hnext haddress (index + 2)
        (toUint16 (sum + decodeLe (bytesAt s.mem (dataStart L base + index) 2)))
        (by omega) (Nat.mod_lt _ (by decide))
      rw [hplace] at hread
      simp only [sumData, hwrap, hread, efiError_success, Bool.false_eq_true, if_false,
        Option.getD_some]
      refine ⟨hstatus, ?_, hmem'.trans hmem, hknown'⟩
      rw [hvalue, hmem, hsplit, bytesAt_add, wordSum_append (by simp), hword, toUint16,
        Nat.mod_add_mod, Nat.add_assoc, Nat.add_assoc]

theorem checksum_spec (h : Located p base s) (hknown : s.address = base)
    (hcap : p.capacity ≤ 0x100) (locals : Locals L) {header : List UInt8}
    (hheader : header.length = L.headerSize) {range : ℕ}
    (hrange : L.activeRange header = range) (heven : 2 ∣ range)
    (hfit : 0x40 + L.headerSize + range ≤ p.capacity) :
    ∃ checksum s', msWheaESCalculateChecksum16 p L s locals (some header) (some locals.checksum) =
        { status := efiSuccess,
          header := some (L.setChecksum header (L.checksum header)),
          checksum := some checksum, store := s' } ∧
      (wordSum (L.setChecksum header checksum) +
        wordSum (bytesAt s.mem (dataStart L base) (range))) % 65536 = 0 ∧
      s'.mem = s.mem ∧ s'.address = base := by
  have hinside : L.checksumPos + 2 ≤ header.length := by
    rw [hheader]
    exact L.checksum_inside
  have hmax := getMaxSize_eq (p := p) (by omega)
  have hpasses : 2 * (range / 2) = range := Nat.mul_div_cancel' heven
  have hguard : ¬ (range > msWheaEarlyStorageGetMaxSize p ∨ range &&& 1 ≠ 0) := by
    rw [hmax, Nat.and_one_is_mod]
    omega
  obtain ⟨hstatus, hvalue, hmem, haddress⟩ := sumData_spec h hknown hcap locals (range / 2) 0
    (calculateSum16 (L.setChecksum header 0)) (by omega) (Nat.mod_lt _ (by decide))
  have hrestored : L.setChecksum (L.setChecksum header 0) (L.checksum header) =
      L.setChecksum header (L.checksum header) := setField_setField hinside _ _
  refine ⟨toUint16 (0x10000 - (sumData p L locals (range / 2) 0
    (calculateSum16 (L.setChecksum header 0)) s).sum), _, ?_, ?_, hmem, haddress⟩
  · simp only [msWheaESCalculateChecksum16, hrange, if_neg hguard, hstatus, efiError_success,
      Bool.false_eq_true, if_false, hrestored]
  · rw [hvalue, hpasses, Nat.add_zero, calculateSum16, toUint16, toUint16, Nat.mod_add_mod,
      Layout.setChecksum, Layout.setChecksum, wordSum_setField L.checksum_even hinside,
      wordSum_setField L.checksum_even hinside]
    omega

variable {k : ℕ}

theorem maxDataCount_eq (hcap : p.capacity ≤ 0x100) (hroom : 0x40 + L.headerSize ≤ p.capacity) :
    msWheaESGetMaxDataCount p L = p.capacity - 0x40 - L.headerSize := by
  have hpos := headerSize_pos L
  have hmax : msWheaEarlyStorageGetMaxSize p = p.capacity - 0x40 := by
    rw [getMaxSize_eq (by omega), Nat.mod_eq_of_lt (by omega)]
  have hmask (a : ℕ) : a &&& 0xFF = a % 256 := Nat.and_two_pow_sub_one_eq_mod a 8
  rw [msWheaESGetMaxDataCount, hmax, subUint32_of_le (by omega) (by omega), hmask, toUint8]
  omega

/-- The slot search tests the 32-bit sum of the stored active range and the record. -/
theorem findSlot_stored (h : Located p base s) (hcap : p.capacity ≤ 0x100)
    (hroom : 0x40 + L.headerSize ≤ p.capacity) (locals : Locals L) :
    ∃ s', s'.mem = s.mem ∧ s'.address = base ∧
      msWheaESFindSlot p L s locals L.entrySize 0 =
        if toUint32 (L.activeRange (headerAt L base s.mem) + L.entrySize) ≤
            msWheaESGetMaxDataCount p L then
          { status := efiSuccess, offset := toUint8 (L.activeRange (headerAt L base s.mem)),
            store := s' }
        else { status := efiOutOfResources, offset := 0, store := s' } := by
  obtain ⟨s', hread, hmem, haddress⟩ := read_spec h hcap (headerSize_pos L)
    (show 0x40 + 0 + L.headerSize ≤ p.capacity by omega) locals.slotHeader_length
  refine ⟨s', hmem, haddress, ?_⟩
  rw [msWheaESFindSlot]
  simp only [hread, Option.getD_some]
  rfl

theorem findSlot_spec (h : LogInv p L base k s) (hcap : p.capacity ≤ 0x100)
    (locals : Locals L) :
    ∃ s', s'.mem = s.mem ∧ s'.address = base ∧
      msWheaESFindSlot p L s locals L.entrySize 0 =
        if 0x40 + L.headerSize + k * L.entrySize + L.entrySize ≤ p.capacity then
          { status := efiSuccess, offset := k * L.entrySize, store := s' }
        else { status := efiOutOfResources, offset := 0, store := s' } := by
  have hroom := h.room
  have hsmall := L.entry_small
  obtain ⟨s', hmem, haddress, hslot⟩ := findSlot_stored h.located hcap (by omega) locals
  refine ⟨s', hmem, haddress, ?_⟩
  have hcount := maxDataCount_eq (L := L) hcap (by omega)
  have hsum : toUint32 (k * L.entrySize + L.entrySize) = k * L.entrySize + L.entrySize :=
    Nat.mod_eq_of_lt (by omega)
  have hoffset : toUint8 (k * L.entrySize) = k * L.entrySize := Nat.mod_eq_of_lt (by omega)
  rw [hslot, h.range, hsum, hcount, hoffset]
  by_cases hfits : 0x40 + L.headerSize + k * L.entrySize + L.entrySize ≤ p.capacity
  · rw [if_pos hfits, if_pos (by omega)]
  · rw [if_neg hfits, if_neg (by omega)]

theorem writeHeader_spec (h : Located p base s) (haddress : s.address = base)
    (hcap : p.capacity ≤ 0x100) (hroom : 0x40 + L.headerSize ≤ p.capacity) {header : List UInt8}
    (hlength : header.length = L.headerSize) :
    ∃ s', writeHeader p L s header = (efiSuccess, s') ∧
      s'.mem = blit s.mem (base + 0x40) header ∧ s'.address = base := by
  have hpos := headerSize_pos L
  obtain ⟨s₁, hwrite, hmem₁, haddress₁⟩ := write_spec haddress hcap 0 header (by omega) (by omega)
  rw [hlength] at hwrite
  obtain ⟨s₂, hread, hmem₂, haddress₂⟩ := read_any_spec
    ⟨h.buffer, h.nonzero, Or.inr haddress₁⟩ hcap hpos
    (show 0x40 + 0 + L.headerSize ≤ p.capacity by omega) (List.replicate L.headerSize 0)
  refine ⟨s₂, ?_, hmem₂.trans hmem₁, haddress₂⟩
  simp only [writeHeader, hwrite, hread]

/-- A header stored before unchanged records: what is read back is that header, and the records. -/
theorem header_stored {mem mem' : ℕ → UInt8} {header : List UInt8}
    (hlength : header.length = L.headerSize) (hmem : mem' = blit mem (base + 0x40) header) :
    bytesAt mem' (base + 0x40) L.headerSize = header ∧
      ∀ a n, dataStart L base ≤ a → bytesAt mem' a n = bytesAt mem a n := by
  rw [hmem]
  constructor
  · rw [← hlength]
    exact bytesAt_blit_self _
  · intro a n ha
    refine bytesAt_blit_disjoint (Or.inr ?_)
    rw [hlength]
    exact ha

theorem extendHeader_spec (h : LogInv p L base k s) (hcap : p.capacity ≤ 0x100)
    (hfits : 0x40 + L.headerSize + (k + 1) * L.entrySize ≤ p.capacity)
    {s₁ : Store} {bytes : List UInt8} (haddress : s₁.address = base)
    (hmem : s₁.mem = blit s.mem (dataStart L base + k * L.entrySize) bytes)
    (locals : Locals L) :
    ∃ s', extendHeader p L s₁ locals = (efiSuccess, s') ∧ LogInv p L base (k + 1) s' ∧
      ∀ a n, dataStart L base ≤ a → bytesAt s'.mem a n = bytesAt s₁.mem a n := by
  have hlocated : Located p base s₁ := ⟨h.located.buffer, h.located.nonzero, Or.inr haddress⟩
  have hgrow : (k + 1) * L.entrySize = k * L.entrySize + L.entrySize := Nat.succ_mul _ _
  have hpos := headerSize_pos L
  obtain ⟨s₂, hread, hmem₂, haddress₂⟩ := read_spec hlocated hcap hpos
    (show 0x40 + 0 + L.headerSize ≤ p.capacity by omega) locals.header_length
  have hlocated₂ : Located p base s₂ :=
    ⟨h.located.buffer, h.located.nonzero, Or.inr haddress₂⟩
  have hkept : bytesAt s₁.mem (base + 0x40 + 0) L.headerSize = headerAt L base s.mem := by
    rw [hmem]
    exact bytesAt_blit_disjoint (Or.inl (by unfold dataStart; omega))
  rw [hkept] at hread
  have hactive : toUint32 (L.activeRange (headerAt L base s.mem) + L.entrySize) =
      (k + 1) * L.entrySize := by
    rw [h.range, hgrow]
    exact Nat.mod_eq_of_lt (by omega)
  have hlength := setActiveRange_length (headerAt_length L base s.mem) ((k + 1) * L.entrySize)
  have hrange : L.activeRange (L.setActiveRange (headerAt L base s.mem)
      ((k + 1) * L.entrySize)) = (k + 1) * L.entrySize := by
    rw [activeRange_setActiveRange (headerAt_length L base s.mem), toUint32_of_lt (by omega)]
  generalize hset : L.setActiveRange (headerAt L base s.mem) ((k + 1) * L.entrySize) = header
    at hrange hlength
  obtain ⟨checksum, s₃, hrun, hzero, hmem₃, haddress₃⟩ :=
    checksum_spec hlocated₂ haddress₂ hcap locals hlength hrange
      (even_mul_entrySize L (k + 1)) hfits
  have hfinal : L.setChecksum (L.setChecksum header (L.checksum header)) checksum =
      L.setChecksum header checksum := by
    have hinside := L.checksum_inside
    exact setField_setField (by omega) _ _
  have hfinal_length := setChecksum_length hlength checksum
  have hfinal_range := (activeRange_setChecksum hlength checksum).trans hrange
  obtain ⟨s₄, hwritten, hmem₄, haddress₄⟩ := writeHeader_spec
    ⟨h.located.buffer, h.located.nonzero, Or.inr haddress₃⟩ haddress₃ hcap (by omega) hfinal_length
  have hmem' : s₄.mem = blit s₁.mem (base + 0x40) (L.setChecksum header checksum) := by
    rw [hmem₄, hmem₃, hmem₂]
  obtain ⟨hheader, hdata⟩ := header_stored hfinal_length hmem'
  refine ⟨s₄, ?_, ⟨⟨h.located.buffer, h.located.nonzero, Or.inr haddress₄⟩, hfits, ?_, ?_⟩, hdata⟩
  · simp only [extendHeader, hread, hactive, hset, hrun, efiError_success, Bool.false_eq_true,
      if_false, Option.getD_some, hfinal, hwritten]
  · rw [headerAt, hheader, hfinal_range]
  · have hstart : base + 0x40 + L.headerSize = dataStart L base := rfl
    rw [bytesAt_add, hheader, hstart, hdata _ _ (Nat.le_refl _),
      wordSum_append (by rw [hfinal_length]; exact L.header_even), ← hmem₂]
    exact hzero

/-- A call that adds the report: nothing before the new record changes but the header,
the record stands directly after the earlier ones, and the log is one record longer. -/
structure Added (p : Platform) (L : Layout) (base k : ℕ) (report : Report) (s s' : Store) :
    Prop where
  earlier : bytesAt s'.mem (dataStart L base) (k * L.entrySize) =
    bytesAt s.mem (dataStart L base) (k * L.entrySize)
  record : bytesAt s'.mem (dataStart L base + k * L.entrySize) L.entrySize =
    L.encode (report.entry L)
  range : L.activeRange (headerAt L base s'.mem) =
    L.activeRange (headerAt L base s.mem) + L.entrySize
  log : LogInv p L base (k + 1) s'

/-- The two outcomes of an insertion into a log of `k` records. -/
def AddOutcome (p : Platform) (L : Layout) (base k : ℕ) (report : Report) (s : Store)
    (out : EfiStatus × Store) : Prop :=
  if 0x40 + L.headerSize + k * L.entrySize + L.entrySize ≤ p.capacity then
    out.1 = efiSuccess ∧ Added p L base k report s out.2
  else
    out.1 = efiOutOfResources ∧ out.2.mem = s.mem ∧ LogInv p L base k out.2

theorem addRecord_step (h : LogInv p L base k s) (hcap : p.capacity ≤ 0x100)
    (locals : Locals L) (report : Report) :
    AddOutcome p L base k report s (msWheaESAddRecordV0 p L s locals report) := by
  obtain ⟨s₁, hmem₁, haddress₁, hslot⟩ := findSlot_spec h hcap locals
  have hlength := L.encode_length (report.entry L)
  have hpos := L.entry_pos
  rw [AddOutcome, msWheaESAddRecordV0, msWheaESAddRecordV0Internal]
  by_cases hfits : 0x40 + L.headerSize + k * L.entrySize + L.entrySize ≤ p.capacity
  · rw [if_pos hfits] at hslot ⊢
    have hwrap : toUint8 (L.headerSize + k * L.entrySize) = L.headerSize + k * L.entrySize :=
      Nat.mod_eq_of_lt (by omega)
    obtain ⟨s₂, hwrite, hmem₂, haddress₂⟩ := write_spec haddress₁ hcap
      (L.headerSize + k * L.entrySize) (L.encode (report.entry L)) (by omega) (by omega)
    rw [hlength] at hwrite
    have hplace : base + 0x40 + (L.headerSize + k * L.entrySize) =
        dataStart L base + k * L.entrySize := (Nat.add_assoc _ _ _).symm
    rw [hmem₁, hplace] at hmem₂
    have hgrow : (k + 1) * L.entrySize = k * L.entrySize + L.entrySize := Nat.succ_mul _ _
    obtain ⟨s₃, hextend, hlog, hdata⟩ := extendHeader_spec h hcap (by omega) haddress₂ hmem₂ locals
    simp only [hslot, hwrap, hwrite, hextend, efiError_success, Bool.false_eq_true, if_false,
      true_and]
    refine ⟨?_, ?_, ?_, hlog⟩
    · rw [hdata _ _ (Nat.le_refl _), hmem₂]
      exact bytesAt_blit_disjoint (Or.inl (Nat.le_refl _))
    · rw [hdata _ _ (Nat.le_add_right _ _), hmem₂, ← hlength]
      exact bytesAt_blit_self _
    · rw [hlog.range, h.range, hgrow]
  · rw [if_neg hfits] at hslot ⊢
    have herror : efiError efiOutOfResources = true := rfl
    simp only [hslot, herror, if_true, true_and]
    refine ⟨hmem₁, ⟨h.located.buffer, h.located.nonzero, Or.inr haddress₁⟩, h.room, ?_, ?_⟩
    · rw [hmem₁]
      exact h.range
    · rw [hmem₁]
      exact h.sum

def runReports (p : Platform) (L : Layout) (reports : List (Locals L × Report)) (s : Store) :
    Store :=
  reports.foldl (fun s call => (msWheaESAddRecordV0 p L s call.1 call.2).2) s

theorem AddOutcome.log {k : ℕ} {report : Report} {s : Store} {out : EfiStatus × Store}
    (h : AddOutcome p L base k report s out) : ∃ k', LogInv p L base k' out.2 := by
  unfold AddOutcome at h
  split at h
  · exact ⟨k + 1, h.2.log⟩
  · exact ⟨k, h.2.2⟩

theorem LogInv.runReports (hcap : p.capacity ≤ 0x100) (reports : List (Locals L × Report))
    {k : ℕ} {s : Store} (h : LogInv p L base k s) :
    ∃ k', LogInv p L base k' (runReports p L reports s) := by
  induction reports generalizing k s with
  | nil => exact ⟨k, h⟩
  | cons call reports ih =>
      obtain ⟨k', h'⟩ := (addRecord_step h hcap call.1 call.2).log
      exact ih h'

/-- From a well-formed log, after any insertions the log is well formed and the next
insertion has one of the two outcomes. -/
theorem addRecord_keeps_log (p : Platform) (L : Layout) (base k : ℕ) (s : Store)
    (hcap : p.capacity ≤ 0x100) (h : LogInv p L base k s) (reports : List (Locals L × Report)) :
    ∃ k', LogInv p L base k' (runReports p L reports s) ∧
      ∀ locals report, AddOutcome p L base k' report (runReports p L reports s)
        (msWheaESAddRecordV0 p L (runReports p L reports s) locals report) := by
  obtain ⟨k', h'⟩ := h.runReports hcap reports
  exact ⟨k', h', addRecord_step h' hcap⟩

/-- A 16-byte header with the active range at 4 and the checksum at 8, and 56-byte entries. -/
def packedLayout : Layout where
  headerSize := 16
  entrySize := 56
  checksumPos := 8
  activeRangePos := 4
  rev0 := 0
  callerIdGuid := 0
  encode entry := encodeLe 4 entry.rev.toNat ++ encodeLe 4 entry.errorStatusValue.toNat ++
    encodeLe 8 entry.additionalInfo1.toNat ++ encodeLe 8 entry.additionalInfo2.toNat ++
    encodeLe 16 entry.moduleID.toNat ++ encodeLe 16 entry.partitionID.toNat
  header_even := by decide
  header_small := by decide
  entry_even := by decide
  entry_small := by decide
  entry_pos := by decide
  checksum_even := by decide
  checksum_inside := by decide
  activeRange_inside := by decide
  fields_apart := by decide
  encode_length entry := by simp

def logPlatform : Platform where
  capacity := 0x100
  capacity_fits := by decide
  defaultValue := 0xFF
  memoryMap := [⟨['L', 'o', 'g', ' ', 'B', 'u', 'f', 'f', 'e', 'r'], 0x84849000, 0x8000⟩]

theorem emptyLog_inv : LogInv logPlatform packedLayout 0x84849000 0 (.boot fun _ => 0) where
  located := ⟨by decide, by decide, Or.inl rfl⟩
  room := by decide
  range := by decide
  sum := by decide

def zeroLocals : Locals packedLayout where
  slotHeader := List.replicate 16 0
  header := List.replicate 16 0
  checksum := 0
  data := [0, 0]
  slotHeader_length := by decide
  header_length := by decide
  data_length := by decide

def sampleReport : Report where
  errorStatusValue := 1
  additionalInfo1 := 0
  additionalInfo2 := 0
  moduleId := none
  partitionId := none

def oneRecordStore : Store :=
  runReports logPlatform packedLayout [(zeroLocals, sampleReport)] (.boot fun _ => 0)

theorem oneRecord_inv : LogInv logPlatform packedLayout 0x84849000 1 oneRecordStore where
  located := ⟨by decide, by decide, by decide +kernel⟩
  room := by decide
  range := by decide +kernel
  sum := by decide +kernel

def furtherReports : List (Locals packedLayout × Report) :=
  [(zeroLocals, { sampleReport with additionalInfo1 := 0xFFFF, moduleId := some 7 }),
    (zeroLocals, { sampleReport with errorStatusValue := 0x80000001 }), (zeroLocals, sampleReport)]

theorem addRecord_keeps_log_oneRecord :
    ∃ k', LogInv logPlatform packedLayout 0x84849000 k'
        (runReports logPlatform packedLayout furtherReports oneRecordStore) ∧
      ∀ locals report, AddOutcome logPlatform packedLayout 0x84849000 k' report
        (runReports logPlatform packedLayout furtherReports oneRecordStore)
        (msWheaESAddRecordV0 logPlatform packedLayout
          (runReports logPlatform packedLayout furtherReports oneRecordStore) locals report) :=
  addRecord_keeps_log logPlatform packedLayout 0x84849000 1 oneRecordStore (by decide)
    oneRecord_inv furtherReports

end MuTegra.EarlyStorage.LogInvariant
