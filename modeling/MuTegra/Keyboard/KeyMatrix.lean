/- Unit: MuTegra/Keyboard/KeyMatrix
   source: VenusPkg/GPLLibrary/TegraKeyboardDeviceImplLib/TegraKeyboardDeviceImplLib.c
   digest: What one call takes out of the keyboard controller's FIFO and which keys it pushes. -/

import MuTegra.Keyboard.Queue
import Mathlib.Data.List.Basic

/-!
An entry of the FIFO is two words of four key bytes. Both words of the head are read at fixed
addresses, and reading the second one takes the head out. The loop over the eight bytes adds
the byte index to the address of the first word, so its second half reads the second word's
address, and there takes out an entry with each of its two reads. No entry comes in while the
call runs, so its delays are left out.
-/

set_option autoImplicit false
set_option relaxedAutoImplicit false

namespace MuTegra.Keyboard.KeyMatrix

open MuTegra.Uefi.Status
open MuTegra.Keyboard.Queue

def keyMapScanCode : List (List UInt16) :=
  [[0, 0, 0, 0, 0, 0, 0, 0],
    [0, 0, 0, 0, 0, 0, 0, 0],
    [0, 0, 0, 0, 0, 0, 0, 0],
    [0x0C, 0x0B, 0x17, 0, 0, 0, 0, 0],
    [0, 0, 0, 0, 0, 0, 0, 0],
    [0, 0, 0, 0, 0, 0, 0, 0],
    [0, 0, 0, 0, 0, 0, 0, 0],
    [0, 0x15, 0x14, 0, 0, 0, 0, 0x02],
    [0, 0, 0, 0, 0, 0, 0, 0],
    [0x11, 0x10, 0x0F, 0, 0, 0, 0, 0],
    [0x12, 0x13, 0, 0, 0, 0x04, 0, 0],
    [0, 0, 0, 0, 0, 0, 0, 0],
    [0, 0, 0, 0, 0, 0, 0, 0],
    [0, 0, 0, 0, 0, 0, 0, 0x01],
    [0, 0, 0, 0, 0, 0, 0, 0],
    [0, 0, 0x08, 0x09, 0x07, 0x16, 0x0A, 0x03]]

def char16 (c : Char) : UInt16 := c.toNat.toUInt16

def keyMapUnicodeChar : List (List UInt16) :=
  [[0, 0x09, char16 '`', char16 '1', char16 'q', char16 'a', 0, 0],
    [0, 0, 0, 0, 0, 0, 0, 0],
    [0, 0, 0, char16 '3', char16 'e', char16 'd', char16 'c', char16 ' '],
    [0, 0, 0, char16 '2', char16 'w', char16 's', char16 'x', char16 'z'],
    [0, 0, 0, 0, 0, 0, 0, 0],
    [char16 'g', char16 't', char16 '5', char16 '4', char16 'r', char16 'f', char16 'v',
      char16 'b'],
    [char16 'h', char16 'y', char16 '6', char16 '7', char16 'u', char16 'j', char16 'm',
      char16 'n'],
    [0, 0, 0, char16 '9', char16 'o', char16 'l', char16 '.', 0],
    [0, 0, 0, 0, 0, 0, 0, 0],
    [0, 0, 0, char16 '8', char16 'i', char16 'k', char16 ',', 0],
    [0, 0, 0x5C, 0, 0, 0, 0, 0],
    [0, 0, 0, 0, 0, 0, 0, 0],
    [0, 0, 0, 0, 0, 0, 0, 0],
    [char16 '-', 0, char16 '0', char16 'p', 0, char16 ';', char16 '/', 0],
    [0, 0, char16 '=', 0x08, 0, 0, 0, 0x0D],
    [0, 0, 0, 0, 0, 0, 0, 0]]

/-- The cell of a map; rows and columns come masked to its size. -/
def cell (keyMap : List (List UInt16)) (row col : ℕ) : UInt16 := (keyMap.getD row []).getD col 0

def keyOf (row col : ℕ) : Option EfiKeyData :=
  if cell keyMapUnicodeChar row col ≠ 0 then some ⟨0, cell keyMapUnicodeChar row col, 0, 0⟩
  else if cell keyMapScanCode row col ≠ 0 then some ⟨cell keyMapScanCode row col, 0, 0, 0⟩
  else none

/-- `KBC_KP_ENT0_0` and `KBC_KP_ENT1_0` of an entry. -/
structure FifoEntry where
  ent0 : UInt32
  ent1 : UInt32
  deriving DecidableEq, Repr

def kbcBaseAddr : ℕ := 0x7000E200
def kbcKpEnt00 : ℕ := 0x30
def kbcKpEnt10 : ℕ := 0x34
def kbcInt0 : ℕ := 0x4

def kbcMaxKpent : ℕ := 8

/-- The registers beside the FIFO: the interrupt register, whose bits 4 to 7 are 0 exactly
when the FIFO is empty, and what the others show. -/
structure KeyController where
  int0 : List FifoEntry → UInt32
  fifoCnt : ∀ fifo, (int0 fifo >>> 4) &&& 0xf = 0 ↔ fifo = []
  emptyEnt0 : UInt32
  emptyEnt1 : UInt32
  other : ℕ → UInt32

def KeyController.mmioRead32 (kbc : KeyController) (address : ℕ) (fifo : List FifoEntry) :
    UInt32 × List FifoEntry :=
  if address = kbcBaseAddr + kbcInt0 then (kbc.int0 fifo, fifo)
  else if address = kbcBaseAddr + kbcKpEnt00 then
    ((fifo.head?.map FifoEntry.ent0).getD kbc.emptyEnt0, fifo)
  else if address = kbcBaseAddr + kbcKpEnt10 then
    ((fifo.head?.map FifoEntry.ent1).getD kbc.emptyEnt1, fifo.tail)
  else (kbc.other address, fifo)

/-- `kp_ent0`, `kp_ent1`, the FIFO and the keys pushed so far. -/
structure Scan where
  kpEnt0 : UInt32
  kpEnt1 : UInt32
  fifo : List FifoEntry
  pushed : List EfiKeyData

def readWord (kbc : KeyController) (i : ℕ) (s : Scan) : Scan :=
  if i % 4 = 0 then
    let kpEnt0 := kbc.mmioRead32 (kbcBaseAddr + kbcKpEnt00 + i) s.fifo
    let kpEnt1 := kbc.mmioRead32 (kbcBaseAddr + kbcKpEnt10) kpEnt0.2
    { s with kpEnt0 := kpEnt0.1, kpEnt1 := kpEnt1.1, fifo := kpEnt1.2 }
  else s

/-- The key of the low byte is pushed and the next byte shifted down. -/
def takeByte (s : Scan) : Scan :=
  let col := s.kpEnt0 &&& 0x7
  let row := (s.kpEnt0 >>> 3) &&& 0xf
  { s with
    pushed := s.pushed ++
      if s.kpEnt0 &&& 0x80 ≠ 0 then (keyOf row.toNat col.toNat).toList else []
    kpEnt0 := s.kpEnt0 >>> 8 }

def getKeysPass (kbc : KeyController) (s : Scan) (i : ℕ) : Scan := takeByte (readWord kbc i s)

def tegraKeyboardDeviceImplGetKeys (kbc : KeyController) (fifo : List FifoEntry) :
    EfiStatus × List EfiKeyData × List FifoEntry :=
  let fifoCnt := ((kbc.mmioRead32 (kbcBaseAddr + kbcInt0) fifo).1 >>> 4) &&& 0xf
  if fifoCnt ≠ 0 then
    let s := (List.range kbcMaxKpent).foldl (getKeysPass kbc) ⟨0, 0, fifo, []⟩
    (efiSuccess, s.pushed, s.fifo)
  else (efiSuccess, [], fifo)

def wordBytes (word : UInt32) : List UInt8 :=
  [word.toUInt8, (word >>> 8).toUInt8, (word >>> 16).toUInt8, (word >>> 24).toUInt8]

/-- The key a byte stands for: bit 7 marks it valid, bits 3 to 6 are the row and bits 0 to 2
the column. -/
def mappedKey (byte : UInt8) : Option EfiKeyData :=
  if byte &&& 0x80 ≠ 0 then keyOf (byte.toNat / 8 % 16) (byte.toNat % 8) else none

def wordKeys (word : UInt32) : List EfiKeyData := (wordBytes word).filterMap mappedKey

def FifoEntry.keys (entry : FifoEntry) : List EfiKeyData :=
  wordKeys entry.ent0 ++ wordKeys entry.ent1

/-- The head entry's keys are pushed and it alone is taken out; an empty FIFO gives nothing. -/
structure TakesHead (kbc : KeyController) (fifo : List FifoEntry) : Prop where
  pushed : (tegraKeyboardDeviceImplGetKeys kbc fifo).2.1 = (fifo.head?.map FifoEntry.keys).getD []
  removed : (tegraKeyboardDeviceImplGetKeys kbc fifo).2.2 = fifo.tail

theorem toUInt8_eq_zero {word : UInt32} (small : word.toNat < 256) :
    word.toUInt8 = 0 ↔ word = 0 := by
  rw [← UInt8.toNat_inj, ← UInt32.toNat_inj, UInt32.toNat_toUInt8]
  simp only [UInt8.toNat_zero, UInt32.toNat_zero]
  omega

theorem valid_iff (word : UInt32) : word.toUInt8 &&& 0x80 ≠ 0 ↔ word &&& 0x80 ≠ 0 := by
  have masked : (word &&& 0x80).toUInt8 = word.toUInt8 &&& 0x80 := by
    rw [UInt32.toUInt8_and]; rfl
  have small : (word &&& 0x80).toNat < 256 := by
    rw [UInt32.toNat_and]
    exact Nat.lt_of_le_of_lt Nat.and_le_right (by decide)
  rw [← masked, Ne, Ne, toUInt8_eq_zero small]

theorem col_of_word (word : UInt32) : (word &&& 0x7).toNat = word.toUInt8.toNat % 8 := by
  have masked : (word &&& 0x7).toNat = word.toNat % 8 := by
    rw [UInt32.toNat_and]
    exact Nat.and_two_pow_sub_one_eq_mod word.toNat 3
  rw [masked, UInt32.toNat_toUInt8]
  omega

theorem row_of_word (word : UInt32) :
    ((word >>> 3) &&& 0xf).toNat = word.toUInt8.toNat / 8 % 16 := by
  have masked : ((word >>> 3) &&& 0xf).toNat = word.toNat / 8 % 16 := by
    rw [UInt32.toNat_and, UInt32.toNat_shiftRight]
    change word.toNat >>> 3 &&& 15 = _
    rw [Nat.shiftRight_eq_div_pow]
    exact Nat.and_two_pow_sub_one_eq_mod (word.toNat / 8) 4
  rw [masked, UInt32.toNat_toUInt8]
  omega

theorem takeByte_eq (s : Scan) :
    takeByte s =
      { s with
        pushed := s.pushed ++ (mappedKey s.kpEnt0.toUInt8).toList
        kpEnt0 := s.kpEnt0 >>> 8 } := by
  have key : (if s.kpEnt0 &&& 0x80 ≠ 0 then
        (keyOf ((s.kpEnt0 >>> 3) &&& 0xf).toNat (s.kpEnt0 &&& 0x7).toNat).toList
      else []) = (mappedKey s.kpEnt0.toUInt8).toList := by
    rw [row_of_word, col_of_word, mappedKey]
    by_cases valid : s.kpEnt0 &&& 0x80 ≠ 0
    · rw [if_pos valid, if_pos ((valid_iff s.kpEnt0).mpr valid)]
    · rw [if_neg valid, if_neg fun h => valid ((valid_iff s.kpEnt0).mp h)]
      rfl
  rw [takeByte, key]

theorem shiftRight_shiftRight (word : UInt32) :
    word >>> 8 >>> 8 = word >>> 16 ∧ word >>> 16 >>> 8 = word >>> 24 := by
  constructor <;>
  · rw [← UInt32.toNat_inj]
    simp only [UInt32.toNat_shiftRight]
    exact (Nat.shiftRight_add _ _ _).symm

theorem takeWord (s : Scan) :
    takeByte (takeByte (takeByte (takeByte s))) =
      { s with pushed := s.pushed ++ wordKeys s.kpEnt0, kpEnt0 := s.kpEnt0 >>> 24 >>> 8 } := by
  obtain ⟨third, fourth⟩ := shiftRight_shiftRight s.kpEnt0
  simp only [takeByte_eq, third, fourth, wordKeys, wordBytes, List.filterMap_eq_flatMap_toList,
    List.flatMap_cons, List.flatMap_nil, List.append_assoc, List.append_nil]

theorem readWord_zero (kbc : KeyController) (s : Scan) :
    readWord kbc 0 s =
      { s with
        kpEnt0 := (s.fifo.head?.map FifoEntry.ent0).getD kbc.emptyEnt0
        kpEnt1 := (s.fifo.head?.map FifoEntry.ent1).getD kbc.emptyEnt1
        fifo := s.fifo.tail } := rfl

theorem readWord_four (kbc : KeyController) (s : Scan) :
    readWord kbc 4 s =
      { s with
        kpEnt0 := (s.fifo.head?.map FifoEntry.ent1).getD kbc.emptyEnt1
        kpEnt1 := (s.fifo.tail.head?.map FifoEntry.ent1).getD kbc.emptyEnt1
        fifo := s.fifo.tail.tail } := rfl

theorem getKeysPass_between (kbc : KeyController) (s : Scan) {i : ℕ} (between : i % 4 ≠ 0) :
    getKeysPass kbc s i = takeByte s := by
  rw [getKeysPass, readWord, if_neg between]

theorem passes_word (kbc : KeyController) (s : Scan) {i : ℕ} (read : i % 4 = 0) :
    [i, i + 1, i + 2, i + 3].foldl (getKeysPass kbc) s =
      { readWord kbc i s with
        pushed := (readWord kbc i s).pushed ++ wordKeys (readWord kbc i s).kpEnt0
        kpEnt0 := (readWord kbc i s).kpEnt0 >>> 24 >>> 8 } := by
  simp only [List.foldl_cons, List.foldl_nil]
  rw [getKeysPass_between kbc _ (by omega : (i + 3) % 4 ≠ 0),
    getKeysPass_between kbc _ (by omega : (i + 2) % 4 ≠ 0),
    getKeysPass_between kbc _ (by omega : (i + 1) % 4 ≠ 0), getKeysPass, takeWord]

theorem passes_eq (kbc : KeyController) (fifo : List FifoEntry) :
    ((List.range kbcMaxKpent).foldl (getKeysPass kbc) ⟨0, 0, fifo, []⟩).pushed =
        wordKeys ((fifo.head?.map FifoEntry.ent0).getD kbc.emptyEnt0) ++
          wordKeys ((fifo.tail.head?.map FifoEntry.ent1).getD kbc.emptyEnt1) ∧
      ((List.range kbcMaxKpent).foldl (getKeysPass kbc) ⟨0, 0, fifo, []⟩).fifo =
        fifo.tail.tail.tail := by
  have halves : List.range kbcMaxKpent = [0, 0 + 1, 0 + 2, 0 + 3] ++ [4, 4 + 1, 4 + 2, 4 + 3] :=
    rfl
  rw [halves, List.foldl_append, passes_word kbc _ rfl, passes_word kbc _ rfl, readWord_four,
    readWord_zero]
  exact ⟨rfl, rfl⟩

theorem getKeys_nil (kbc : KeyController) :
    tegraKeyboardDeviceImplGetKeys kbc [] = (efiSuccess, [], []) := by
  have empty : ((kbc.mmioRead32 (kbcBaseAddr + kbcInt0) []).1 >>> 4) &&& 0xf = 0 :=
    (kbc.fifoCnt []).mpr rfl
  rw [tegraKeyboardDeviceImplGetKeys]
  exact if_neg (not_not_intro empty)

theorem getKeys_cons (kbc : KeyController) (entry : FifoEntry) (rest : List FifoEntry) :
    tegraKeyboardDeviceImplGetKeys kbc (entry :: rest) =
      (efiSuccess,
        wordKeys entry.ent0 ++ wordKeys ((rest.head?.map FifoEntry.ent1).getD kbc.emptyEnt1),
        rest.tail.tail) := by
  have filled : ((kbc.mmioRead32 (kbcBaseAddr + kbcInt0) (entry :: rest)).1 >>> 4) &&& 0xf ≠ 0 :=
    fun h => List.cons_ne_nil entry rest ((kbc.fifoCnt (entry :: rest)).mp h)
  obtain ⟨pushed, left⟩ := passes_eq kbc (entry :: rest)
  rw [tegraKeyboardDeviceImplGetKeys]
  exact (if_pos filled).trans (congrArg (efiSuccess, ·) (Prod.ext pushed left))

/-- A call does what it should exactly on an empty FIFO, and on a single entry whose second word
has the keys that the register of an empty FIFO has. -/
theorem takesHead_iff (kbc : KeyController) (fifo : List FifoEntry) :
    TakesHead kbc fifo ↔
      fifo = [] ∨ ∃ entry, fifo = [entry] ∧ wordKeys kbc.emptyEnt1 = wordKeys entry.ent1 := by
  cases fifo with
  | nil =>
    refine iff_of_true ⟨?_, ?_⟩ (.inl rfl)
    · rw [getKeys_nil]
      rfl
    · rw [getKeys_nil]
      rfl
  | cons entry rest =>
    constructor
    · intro takes
      have removed : rest.tail.tail = rest := by
        have h := takes.removed
        rwa [getKeys_cons] at h
      have alone : rest = [] := by
        have shorter := congrArg List.length removed
        rw [List.length_tail, List.length_tail] at shorter
        exact List.length_eq_zero_iff.mp (by omega)
      subst alone
      have pushed := takes.pushed
      rw [getKeys_cons] at pushed
      exact .inr ⟨entry, rfl, List.append_cancel_left pushed⟩
    · rintro (empty | ⟨alone, single, same⟩)
      · exact absurd empty (List.cons_ne_nil entry rest)
      · obtain ⟨rfl, rfl⟩ := List.cons.inj single
        refine ⟨?_, ?_⟩
        · rw [getKeys_cons]
          exact congrArg _ same
        · rw [getKeys_cons]
          rfl

/-- A controller that counts one entry at most and shows 0 where there is none. -/
def plainController : KeyController where
  int0 fifo := if fifo = [] then 0 else 0x10
  fifoCnt fifo := by
    by_cases empty : fifo = []
    · rw [if_pos empty]
      exact iff_of_true rfl empty
    · rw [if_neg empty]
      exact iff_of_false (by decide) empty
  emptyEnt0 := 0
  emptyEnt1 := 0
  other _ := 0

/-- Of two entries, the second key of the first is lost, and so is the whole second entry but
the key of its second word. -/
theorem twoEntries_not_takesHead :
    ¬ TakesHead plainController [⟨0x9B, 0x9C⟩, ⟨0xB3, 0xB4⟩] := by
  intro takes
  have removed := takes.removed
  rw [getKeys_cons] at removed
  exact absurd removed (by decide)

end MuTegra.Keyboard.KeyMatrix
