/- Unit: MuTegra/EarlyStorage/Storage
   source: NvidiaPkg/Library/MsWheaEarlyStorageLib/MsWheaEarlyStorageLib.c
   digest: Raw and public access to the early error log, with every device access recorded. -/

import MuTegra.Foundation.MachineWords
import MuTegra.Uefi.Status
import Mathlib.Logic.Function.Basic

/-!
Physical memory maps addresses to bytes. `touched` lists the addresses given to
`MmioRead8` and `MmioWrite8`, oldest first. A buffer argument is `none` for NULL.
-/

set_option autoImplicit false
set_option relaxedAutoImplicit false

namespace MuTegra.EarlyStorage.Storage

open MuTegra.Foundation.MachineWords
open MuTegra.Uefi.Status

structure RegionDescriptor where
  name : List Char
  address : ℕ
  length : ℕ
  deriving DecidableEq, Repr

structure Platform where
  /-- `PcdMsWheaReportEarlyStorageCapacity`. -/
  capacity : ℕ
  capacity_fits : capacity < 4294967296
  /-- `PcdMsWheaEarlyStorageDefaultValue`. -/
  defaultValue : UInt8
  memoryMap : List RegionDescriptor

structure Store where
  mem : ℕ → UInt8
  address : ℕ
  touched : List ℕ

def Store.boot (mem : ℕ → UInt8) : Store := { mem := mem, address := 0, touched := [] }

def asciiStriCmp (a b : List Char) : Bool := a.map Char.toUpper == b.map Char.toUpper

def locateMemoryMapAreaByName (map : List RegionDescriptor) (name : List Char) :
    Option RegionDescriptor :=
  (map.takeWhile fun entry => entry.length != 0).find? fun entry => asciiStriCmp name entry.name

def Platform.logBuffer (p : Platform) : Option ℕ :=
  (locateMemoryMapAreaByName p.memoryMap
    ['L', 'o', 'g', ' ', 'B', 'u', 'f', 'f', 'e', 'r']).map RegionDescriptor.address

def Store.mmioRead8 (s : Store) (a : ℕ) : UInt8 × Store :=
  (s.mem a, { s with touched := s.touched ++ [a] })

def Store.mmioWrite8 (s : Store) (a : ℕ) (value : UInt8) : Store :=
  { s with mem := Function.update s.mem a value, touched := s.touched ++ [a] }

/-- The read loop from index `i` on, with `n` passes left. -/
def readLoop (offset : ℕ) : ℕ → ℕ → Store → List UInt8 × Store
  | 0, _, s => ([], s)
  | n + 1, i, s =>
      let mIndex := toUint8 (offset + i)
      let (b, s) := s.mmioRead8 (s.address + mIndex)
      let (rest, s) := readLoop offset n (i + 1) s
      (b :: rest, s)

/-- The write loop from index `i` on, with `n` passes left. -/
def writeLoop (offset : ℕ) (value : ℕ → UInt8) : ℕ → ℕ → Store → Store
  | 0, _, s => s
  | n + 1, i, s =>
      let mIndex := toUint8 (offset + i)
      writeLoop offset value n (i + 1) (s.mmioWrite8 (s.address + mIndex) (value i))

def overLength (p : Platform) (size offset : ℕ) : Bool :=
  toUint8 (subUint32 p.capacity size) < offset

def Store.locate (p : Platform) (s : Store) : Store :=
  if s.address = 0 then { s with address := p.logBuffer.getD s.address } else s

@[simp] theorem locate_touched (p : Platform) (s : Store) :
    (s.locate p).touched = s.touched := by
  unfold Store.locate
  split <;> rfl

@[simp] theorem locate_mem (p : Platform) (s : Store) : (s.locate p).mem = s.mem := by
  unfold Store.locate
  split <;> rfl

def msWheaCMOSRawRead (p : Platform) (s : Store) (ptr : Option (List UInt8))
    (size offset : ℕ) : EfiStatus × Option (List UInt8) × Store :=
  match ptr with
  | none => (efiInvalidParameter, none, s)
  | some mBuf =>
      if size = 0 ∨ overLength p size offset then (efiInvalidParameter, some mBuf, s)
      else
        let s := s.locate p
        if s.address = 0 then (efiInvalidParameter, some mBuf, s)
        else
          let (data, s) := readLoop offset size 0 s
          (efiSuccess, some (data ++ mBuf.drop size), s)

def msWheaCMOSRawWrite (p : Platform) (s : Store) (ptr : Option (List UInt8))
    (size offset : ℕ) : EfiStatus × Store :=
  match ptr with
  | none => (efiInvalidParameter, s)
  | some mBuf =>
      if size = 0 ∨ overLength p size offset then (efiInvalidParameter, s)
      else (efiSuccess, writeLoop offset (fun i => mBuf.getD i 0) size 0 s)

def msWheaCMOSRawClear (p : Platform) (s : Store) (size offset : ℕ) : EfiStatus × Store :=
  if size = 0 ∨ overLength p size offset then (efiInvalidParameter, s)
  else (efiSuccess, writeLoop offset (fun _ => p.defaultValue) size 0 s)

def msWheaEarlyStorageOffset : ℕ := 0x40

def msWheaEarlyStorageGetMaxSize (p : Platform) : ℕ :=
  toUint8 (subUint32 p.capacity msWheaEarlyStorageOffset &&& 0xFF)

def msWheaEarlyStorageRead (p : Platform) (s : Store) (ptr : Option (List UInt8))
    (size offset : ℕ) : EfiStatus × Option (List UInt8) × Store :=
  if offset ≥ msWheaEarlyStorageGetMaxSize p then (efiInvalidParameter, ptr, s)
  else msWheaCMOSRawRead p s ptr size (toUint8 (msWheaEarlyStorageOffset + offset))

def msWheaEarlyStorageWrite (p : Platform) (s : Store) (ptr : Option (List UInt8))
    (size offset : ℕ) : EfiStatus × Store :=
  if offset ≥ msWheaEarlyStorageGetMaxSize p then (efiInvalidParameter, s)
  else msWheaCMOSRawWrite p s ptr size (toUint8 (msWheaEarlyStorageOffset + offset))

def msWheaEarlyStorageClear (p : Platform) (s : Store) (size offset : ℕ) : EfiStatus × Store :=
  if offset ≥ msWheaEarlyStorageGetMaxSize p then (efiInvalidParameter, s)
  else msWheaCMOSRawClear p s size (toUint8 (msWheaEarlyStorageOffset + offset))

theorem getMaxSize_eq {p : Platform} (hlow : 0x40 ≤ p.capacity) :
    msWheaEarlyStorageGetMaxSize p = (p.capacity - 0x40) % 256 := by
  unfold msWheaEarlyStorageGetMaxSize
  rw [show msWheaEarlyStorageOffset = 0x40 from rfl, subUint32_of_le hlow p.capacity_fits]
  have hmask : (p.capacity - 0x40) &&& 0xFF = (p.capacity - 0x40) % 256 :=
    Nat.and_two_pow_sub_one_eq_mod (p.capacity - 0x40) 8
  rw [hmask, toUint8, Nat.mod_mod]

variable (offset : ℕ)

def indices (base n i : ℕ) : List ℕ :=
  (List.range' i n).map fun i => base + toUint8 (offset + i)

theorem readLoop_eq (n i : ℕ) (s : Store) :
    readLoop offset n i s =
      ((indices offset s.address n i).map s.mem,
        { s with touched := s.touched ++ indices offset s.address n i }) := by
  induction n generalizing i s with
  | zero => simp [readLoop, indices]
  | succ n ih =>
      simp only [readLoop, Store.mmioRead8, ih]
      simp [indices, List.range'_succ]

@[simp] theorem writeLoop_address (value : ℕ → UInt8) (n i : ℕ) (s : Store) :
    (writeLoop offset value n i s).address = s.address := by
  induction n generalizing i s with
  | zero => rfl
  | succ n ih => exact ih (i + 1) _

@[simp] theorem writeLoop_touched (value : ℕ → UInt8) (n i : ℕ) (s : Store) :
    (writeLoop offset value n i s).touched =
      s.touched ++ indices offset s.address n i := by
  induction n generalizing i s with
  | zero => simp [writeLoop, indices]
  | succ n ih =>
      simp only [writeLoop, ih]
      simp [indices, List.range'_succ, Store.mmioWrite8]

theorem writeLoop_frame (value : ℕ → UInt8) (n i : ℕ) (s : Store) {a : ℕ}
    (h : a ∉ indices offset s.address n i) : (writeLoop offset value n i s).mem a = s.mem a := by
  induction n generalizing i s with
  | zero => rfl
  | succ n ih =>
      simp only [indices, List.range'_succ, List.map_cons, List.mem_cons, not_or] at h
      have hrest := ih (i + 1) (s.mmioWrite8 (s.address + toUint8 (offset + i)) (value i)) h.2
      rw [writeLoop, hrest]
      exact Function.update_of_ne h.1 _ _

/-- Without a wrap of the byte index, pass `j` is the last to write its address. -/
theorem writeLoop_written (value : ℕ → UInt8) (n i : ℕ) (s : Store)
    (hfit : offset + i + n ≤ 256) {j : ℕ} (hij : i ≤ j) (hjn : j < i + n) :
    (writeLoop offset value n i s).mem (s.address + offset + j) = value j := by
  induction n generalizing i s with
  | zero => omega
  | succ n ih =>
      rw [writeLoop]
      rcases Nat.eq_or_lt_of_le hij with heq | hlt
      · subst heq
        have hwrap : toUint8 (offset + i) = offset + i := Nat.mod_eq_of_lt (by omega)
        have hfresh : s.address + offset + i ∉ indices offset s.address n (i + 1) := by
          simp only [indices, List.mem_map, List.mem_range'_1, toUint8]
          rintro ⟨m, hm, heq⟩
          omega
        rw [hwrap, ← Nat.add_assoc]
        refine (writeLoop_frame offset value n (i + 1)
          (s.mmioWrite8 (s.address + offset + i) (value i)) hfresh).trans ?_
        exact Function.update_self _ _ _
      · exact ih (i + 1) _ (by omega) hlt (by omega)

theorem writeLoop_mem (value : ℕ → UInt8) (n : ℕ) (s : Store) (hfit : offset + n ≤ 256) (x : ℕ) :
    (writeLoop offset value n 0 s).mem x =
      if s.address + offset ≤ x ∧ x < s.address + offset + n then
        value (x - (s.address + offset))
      else s.mem x := by
  by_cases hinside : s.address + offset ≤ x ∧ x < s.address + offset + n
  · obtain ⟨j, rfl⟩ := Nat.exists_eq_add_of_le hinside.1
    have hj : j < n := by omega
    rw [if_pos hinside, Nat.add_sub_cancel_left]
    exact writeLoop_written offset value n 0 s hfit (Nat.zero_le j) (by omega)
  · rw [if_neg hinside]
    apply writeLoop_frame
    simp only [indices, List.mem_map, List.mem_range'_1, toUint8]
    rintro ⟨i, hi, rfl⟩
    rw [Nat.mod_eq_of_lt (by omega)] at hinside
    omega

end MuTegra.EarlyStorage.Storage
