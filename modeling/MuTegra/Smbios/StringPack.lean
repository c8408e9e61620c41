/- Unit: MuTegra/Smbios/StringPack
   source: Tegra30Pkg/Drivers/SmBiosTableDxe/SmBiosTableDxe.c, NvidiaPkg/Applications/FrontPage/FrontPage.c
   digest: The record built from a template and its strings, and the walk that finds a string again. -/

import MuTegra.Foundation.Blocks
import MuTegra.Foundation.ByteFields
import MuTegra.Foundation.MachineWords
import MuTegra.Foundation.Ownership
import MuTegra.Uefi.Status
import MuTegra.Uefi.Strings

/-!
Offsets are counted from the start of a record. A read or a write outside the record is a
fault, and so is a null pointer followed. Sums of sizes are 32-bit sums.
-/

set_option autoImplicit false
set_option relaxedAutoImplicit false

namespace MuTegra.Smbios.StringPack

open MuTegra.Foundation.Blocks MuTegra.Foundation.ByteFields
open MuTegra.Foundation.MachineWords MuTegra.Foundation.Ownership
open MuTegra.Uefi.Status MuTegra.Uefi.Strings

/-! ## Structures and strings -/

/-- `Length` of an `EFI_SMBIOS_TABLE_HEADER`. -/
def lengthField (bytes : List UInt8) : ℕ := field bytes 1 1

/-- A fixed structure; `Length` is its size. -/
structure Template where
  bytes : List UInt8
  header : 4 ≤ bytes.length
  length : lengthField bytes = bytes.length

/-- `PcdMaximumAsciiStringLength` and `PcdMaximumUnicodeStringLength`. -/
def pcdMaximumStringLength : ℕ := 1000000

structure SmbiosString extends AsciiString where
  nonempty : chars ≠ []
  accepted : chars.length < pcdMaximumStringLength

def SmbiosString.size (s : SmbiosString) : ℕ := s.chars.length + 1

def texts (pack : List SmbiosString) : List UInt8 := terminated 0 (pack.map (·.chars))

/-- What stands behind the template: the texts and one more null, two when there are none. -/
def stringArea (pack : List SmbiosString) : List UInt8 :=
  texts pack ++ if pack.isEmpty then [0, 0] else [0]

/-! ## The record -/

def addStringSizes : List SmbiosString → ℕ → ℕ
  | [], size => size
  | s :: pack, size => addStringSizes pack (toUint32 (size + s.size))

def recordSize (length : ℕ) : Option (List SmbiosString) → ℕ
  | none => toUint32 (length + 2)
  | some pack =>
      let size := addStringSizes pack length
      toUint32 ((if pack.isEmpty then toUint32 (size + 1) else size) + 1)

/-- The loop that copies the strings: the record and where `Str` ends up. -/
def appendStrings : List SmbiosString → List UInt8 → ℕ → Option (List UInt8 × ℕ)
  | [], record, str => some (record, str)
  | s :: pack, record, str => do
      let record ← overwrite record str (s.chars ++ [0])
      appendStrings pack record (str + s.size)

/-- The part of `LogSmbiosData` that fills the record. -/
def fillRecord (template : Template) (stringPack : Option (List SmbiosString)) (size : ℕ) :
    Option (List UInt8) := do
  let record ← overwrite (List.replicate size 0) 0
    (template.bytes.take (lengthField template.bytes))
  -- the loop reads the first entry of the pack even when there is no pack
  let pack ← stringPack
  let appended ← appendStrings pack record (lengthField record)
  overwrite appended.1 appended.2 [0]

/-- `handle` is what a successful `Add` assigns. -/
structure LogCalls where
  locateProtocol : EfiStatus := efiSuccess
  allocated : Bool := true
  add : EfiStatus := efiSuccess
  handle : UInt16

/-- The status, the record given to `Add`, the handle stored for the caller and the pool. -/
structure Logged where
  status : EfiStatus
  record : Option (List UInt8)
  handle : Option UInt16
  pool : Ledger

def logSmbiosData (template : Template) (stringPack : Option (List SmbiosString))
    (calls : LogCalls) (pool : Ledger) : Option Logged :=
  if efiError calls.locateProtocol then some ⟨calls.locateProtocol, none, none, pool⟩
  else if calls.allocated = false then some ⟨efiOutOfResources, none, none, pool⟩
  else
    (fillRecord template stringPack (recordSize (lengthField template.bytes) stringPack)).map
      fun record =>
        { status := calls.add
          record := some record
          handle := if calls.add = efiSuccess then some calls.handle else none
          pool := pool.grant.release (some pool.next) }

/-! ## The string of an index -/

def asciiStrSize (block : List UInt8) (start : ℕ) : Option ℕ :=
  let text := asciiText (block.drop start)
  if start + text.length < block.length then some (text.length + 1) else none

/-- `AsciiStrToUnicodeStrS`; a destination that is refused keeps its contents. -/
def asciiStrToUnicodeStrS (source : List UInt8) (destination : List UInt16) (destMax : ℕ) :
    List UInt16 :=
  let text := asciiText source
  if destMax ≤ pcdMaximumStringLength ∧ text.length < destMax then
    text.map UInt8.toUInt16 ++ 0 :: destination.drop (text.length + 1)
  else destination

structure Walk where
  start : ℕ
  strSize : ℕ
  index : ℕ

/-- The walk over the texts, from `start` on and with the index after its decrement. -/
def walk (block : List UInt8) : ℕ → ℕ → Option Walk
  | 0, start => do
      let strSize ← asciiStrSize block start
      let _ ← block[start + strSize]?
      some ⟨start, strSize, 0⟩
  | index + 1, start => do
      let strSize ← asciiStrSize block start
      let next ← block[start + strSize]?
      if next ≠ 0 then walk block index (start + strSize)
      else some ⟨start, strSize, index + 1⟩

/-- `fresh` is what a new buffer holds. -/
structure StringCalls where
  allocated : Bool := true
  fresh : ℕ → UInt16 := fun _ => 0

/-- `GetOptionalStringByIndex`: the status, `*String` and the pool. -/
def getOptionalStringByIndex (block : List UInt8) (optionalStrStart : ℕ) (index : UInt8)
    (string : Option WideBuffer) (calls : StringCalls) (pool : Ledger) :
    Option (EfiStatus × Option WideBuffer × Ledger) :=
  let allocation := pool.acquire calls.allocated
  if index = 0 then some (efiSuccess, allocation.1.map (⟨·, [0]⟩), allocation.2)
  else do
    let found ← walk block (index.toNat - 1) optionalStrStart
    if found.index ≠ 0 ∨ found.strSize = 1 then
      some (efiNotFound, none, pool.release (string.map WideBuffer.address))
    else
      let contents := asciiStrToUnicodeStrS (block.drop found.start)
        ((List.range found.strSize).map calls.fresh) found.strSize
      some (efiSuccess, allocation.1.map (⟨·, contents⟩), allocation.2)

/-! ## The record is exactly filled -/

variable (template : Template) (pack : List SmbiosString)

theorem texts_cons (s : SmbiosString) : texts (s :: pack) = (s.chars ++ [0]) ++ texts pack := by
  simp [texts]

theorem Template.length_lt : template.bytes.length < 256 := by
  rw [← template.length]
  exact field_one_lt template.bytes 1

theorem SmbiosString.size_le (s : SmbiosString) : s.size ≤ pcdMaximumStringLength := s.accepted

theorem texts_length_le : (texts pack).length ≤ pack.length * pcdMaximumStringLength := by
  induction pack with
  | nil => simp [texts]
  | cons s pack ih =>
      have hsize : (s.chars ++ [0]).length ≤ pcdMaximumStringLength := by
        simpa [SmbiosString.size] using s.size_le
      rw [texts_cons, List.length_append, List.length_cons, Nat.succ_mul]
      omega

theorem addStringSizes_eq (size : ℕ) (h : size + (texts pack).length < 4294967296) :
    addStringSizes pack size = size + (texts pack).length := by
  induction pack generalizing size with
  | nil => rfl
  | cons s pack ih =>
      have hlength : (texts (s :: pack)).length = s.size + (texts pack).length := by
        rw [texts_cons, List.length_append]
        simp [SmbiosString.size]
      rw [hlength] at h ⊢
      have hword : toUint32 (size + s.size) = size + s.size := toUint32_of_lt (by omega)
      rw [addStringSizes, hword, ih (size + s.size) (by omega), Nat.add_assoc]

theorem recordSize_eq (hcount : pack.length ≤ 255) :
    recordSize (lengthField template.bytes) (some pack) =
      (template.bytes ++ stringArea pack).length := by
  have htemplate := template.length_lt
  have htexts : (texts pack).length ≤ 255 * pcdMaximumStringLength :=
    (texts_length_le pack).trans (Nat.mul_le_mul_right _ hcount)
  unfold pcdMaximumStringLength at htexts
  rw [recordSize, template.length, addStringSizes_eq pack _ (by omega)]
  cases pack with
  | nil => simp [stringArea, texts, toUint32]; omega
  | cons s pack =>
      have hsum : (template.bytes ++ stringArea (s :: pack)).length =
          template.bytes.length + (texts (s :: pack)).length + 1 := by
        simp [stringArea, Nat.add_assoc]
      rw [hsum, List.isEmpty_cons, if_neg (by simp)]
      exact toUint32_of_lt (by omega)

theorem appendStrings_eq (written free : List UInt8) (h : (texts pack).length ≤ free.length) :
    appendStrings pack (written ++ free) written.length =
      some (written ++ texts pack ++ free.drop (texts pack).length,
        (written ++ texts pack).length) := by
  induction pack generalizing written free with
  | nil => simp [appendStrings, texts]
  | cons s pack ih =>
      rw [texts_cons, List.length_append] at h
      have hnext : overwrite (written ++ free) written.length (s.chars ++ [0]) =
          some ((written ++ (s.chars ++ [0])) ++ free.drop (s.chars ++ [0]).length) :=
        overwrite_next (by omega)
      have hstr : written.length + s.size = (written ++ (s.chars ++ [0])).length := by
        simp [SmbiosString.size]
      have hrest := ih (written ++ (s.chars ++ [0])) (free.drop (s.chars ++ [0]).length)
        (by rw [List.length_drop]; omega)
      rw [appendStrings, hnext, hstr, Option.bind_eq_bind, Option.bind_some, hrest, texts_cons,
        List.drop_drop, ← List.length_append, List.append_assoc written]

/-- Everything between the template and the end of the record is the string area: the
terminating null lands on the first byte not copied, and an empty pack has a second one. -/
theorem terminated_record :
    overwrite (template.bytes ++ texts pack ++ List.replicate (if pack.isEmpty then 2 else 1) 0)
        (template.bytes ++ texts pack).length [0] =
      some (template.bytes ++ stringArea pack) := by
  cases pack with
  | nil =>
      have hnext := @overwrite_next UInt8 (template.bytes ++ texts []) [0, 0] [0] (by simp)
      simpa [stringArea, texts] using hnext
  | cons s pack =>
      have hnext := @overwrite_next UInt8 (template.bytes ++ texts (s :: pack)) [0] [0] (by simp)
      simpa [stringArea, texts] using hnext

theorem fillRecord_eq (hcount : pack.length ≤ 255) :
    fillRecord template (some pack) (recordSize (lengthField template.bytes) (some pack)) =
      some (template.bytes ++ stringArea pack) := by
  have harea : (stringArea pack).length =
      (texts pack).length + if pack.isEmpty then 2 else 1 := by
    cases pack <;> simp [stringArea]
  have hcopied : overwrite (List.replicate (template.bytes ++ stringArea pack).length 0) 0
      (template.bytes.take (lengthField template.bytes)) =
        some (template.bytes ++ List.replicate (stringArea pack).length 0) := by
    rw [template.length, List.take_length, overwrite_front (by simp)]
    simp
  have hlength : lengthField (template.bytes ++ List.replicate (stringArea pack).length 0) =
      template.bytes.length := by
    have hheader := template.header
    rw [lengthField, field_append_left (by omega)]
    exact template.length
  have happended := appendStrings_eq pack template.bytes
    (List.replicate (stringArea pack).length 0) (by simp [harea])
  rw [recordSize_eq template pack hcount, fillRecord, hcopied]
  simp only [Option.bind_eq_bind, Option.bind_some, hlength, happended]
  rw [List.drop_replicate, harea, Nat.add_sub_cancel_left]
  exact terminated_record template pack

theorem logSmbiosData_eq (hcount : pack.length ≤ 255) (calls : LogCalls) (pool : Ledger) :
    logSmbiosData template (some pack) calls pool =
      some (if efiError calls.locateProtocol then ⟨calls.locateProtocol, none, none, pool⟩
        else if calls.allocated = false then ⟨efiOutOfResources, none, none, pool⟩
        else
          { status := calls.add
            record := some (template.bytes ++ stringArea pack)
            handle := if calls.add = efiSuccess then some calls.handle else none
            pool := pool.grant.release (some pool.next) }) := by
  rw [logSmbiosData, fillRecord_eq template pack hcount]
  split
  · rfl
  · split <;> rfl

/-! ## Every string is found again -/

variable {block : List UInt8} {start : ℕ}

theorem read_string {s : AsciiString} {rest : List UInt8}
    (h : block.drop start = s.chars ++ 0 :: rest) :
    asciiStrSize block start = some (s.chars.length + 1) ∧
      asciiText (block.drop start) = s.chars ∧
      block.drop (start + (s.chars.length + 1)) = rest := by
  have htext : asciiText (block.drop start) = s.chars := by
    rw [h]
    exact takeWhile_word 0 s.noNull rest
  have hlength := congrArg List.length h
  rw [List.length_drop, List.length_append, List.length_cons] at hlength
  refine ⟨?_, htext, ?_⟩
  · rw [asciiStrSize, htext]
    exact if_pos (by omega)
  · have hsplit : s.chars ++ 0 :: rest = (s.chars ++ [0]) ++ rest := by simp
    have hsize : s.chars.length + 1 = (s.chars ++ [0]).length := by simp
    rw [← List.drop_drop, h, hsplit, hsize, List.drop_left]

theorem read_text {s : SmbiosString} {rest : List UInt8}
    (h : block.drop start = s.chars ++ 0 :: rest) :
    asciiStrSize block start = some s.size ∧ asciiText (block.drop start) = s.chars ∧
      block.drop (start + s.size) = rest := @read_string _ _ s.toAsciiString _ h

/-- The walk over a nonempty pack ends on the text of the index, or on the last text with
some of the index left. -/
theorem walk_texts (s : SmbiosString) (pack : List SmbiosString) (index : ℕ)
    (h : block.drop start = texts (s :: pack) ++ [0]) :
    ∃ found, walk block index start = some found ∧
      match (s :: pack)[index]? with
      | some t => found.index = 0 ∧ found.strSize = t.size ∧
          asciiText (block.drop found.start) = t.chars
      | none => found.index ≠ 0 := by
  induction index generalizing start s pack with
  | zero =>
      rw [texts_cons, List.append_assoc, List.append_assoc] at h
      obtain ⟨hsize, htext, hrest⟩ := read_text h
      have hnext : block[start + s.size]? = some ((texts pack ++ [0]).head (by simp)) := by
        rw [← List.head?_drop, hrest]
        exact List.head?_eq_some_head _
      refine ⟨⟨start, s.size, 0⟩, ?_, rfl, rfl, htext⟩
      rw [walk, hsize, Option.bind_eq_bind, Option.bind_some, hnext]
      rfl
  | succ index ih =>
      rw [texts_cons, List.append_assoc, List.append_assoc] at h
      obtain ⟨hsize, htext, hrest⟩ := read_text h
      cases pack with
      | nil =>
          have hnext : block[start + s.size]? = some 0 := by
            rw [← List.head?_drop, hrest]
            rfl
          refine ⟨⟨start, s.size, index + 1⟩, ?_, Nat.succ_ne_zero index⟩
          rw [walk, hsize, Option.bind_eq_bind, Option.bind_some, hnext]
          rfl
      | cons t pack =>
          obtain ⟨c, chars, hchars⟩ := List.exists_cons_of_ne_nil t.nonempty
          have hc : c ≠ 0 := fun h0 => t.noNull (by rw [hchars, h0]; exact List.mem_cons_self)
          have hnext : block[start + s.size]? = some c := by
            rw [← List.head?_drop, hrest, texts_cons, hchars]
            rfl
          obtain ⟨found, hwalk, hfound⟩ := ih t pack hrest
          refine ⟨found, ?_, hfound⟩
          rw [walk, hsize, Option.bind_eq_bind, Option.bind_some, hnext, Option.bind_eq_bind,
            Option.bind_some, if_pos hc, hwalk]

theorem walk_empty (index : ℕ) (h : block.drop start = stringArea []) :
    ∃ found, walk block index start = some found ∧ found.strSize = 1 := by
  have hlength : block.length - start = 2 := by
    rw [← List.length_drop, h]
    rfl
  have hsize : asciiStrSize block start = some 1 := by
    have htext : asciiText (block.drop start) = [] := by
      rw [h]
      rfl
    rw [asciiStrSize, htext]
    exact if_pos (by rw [List.length_nil]; omega)
  have hnext : block[start + 1]? = some 0 := by
    rw [← List.getElem?_drop, h]
    rfl
  refine ⟨⟨start, 1, index⟩, ?_, rfl⟩
  cases index with
  | zero => simp [walk, hsize, hnext]
  | succ index => simp [walk, hsize, hnext]

theorem asciiStrToUnicodeStrS_eq {source : List UInt8} {s : SmbiosString}
    (h : asciiText source = s.chars) (destination : List UInt16)
    (hroom : destination.length = s.size) :
    asciiStrToUnicodeStrS source destination s.size = s.chars.map UInt8.toUInt16 ++ [0] := by
  have hfits : s.size ≤ pcdMaximumStringLength ∧ s.chars.length < s.size :=
    ⟨s.size_le, Nat.lt_succ_self _⟩
  have hrest : destination.drop (s.chars.length + 1) = [] := List.drop_of_length_le hroom.le
  simp only [asciiStrToUnicodeStrS, h]
  rw [if_pos hfits, hrest]

/-- An index of the pack gives its text, widened, in a buffer of its own. -/
theorem getOptionalStringByIndex_found {pack : List SmbiosString} {i : ℕ} (hi : i < pack.length)
    (hcount : pack.length ≤ 255) (h : block.drop start = stringArea pack)
    (string : Option WideBuffer) (calls : StringCalls) (pool : Ledger) :
    getOptionalStringByIndex block start (UInt8.ofNat (i + 1)) string calls pool =
      some (efiSuccess,
        (pool.acquire calls.allocated).1.map (⟨·, pack[i].chars.map UInt8.toUInt16 ++ [0]⟩),
        (pool.acquire calls.allocated).2) := by
  have hindex : (UInt8.ofNat (i + 1)).toNat = i + 1 := UInt8.toNat_ofNat_of_lt' (by
    rw [show UInt8.size = 256 from rfl]
    omega)
  have hne : UInt8.ofNat (i + 1) ≠ 0 := by
    intro h0
    rw [h0] at hindex
    simp at hindex
  cases pack with
  | nil => cases hi
  | cons s pack =>
      obtain ⟨found, hwalk, hfound⟩ := walk_texts s pack i h
      rw [List.getElem?_eq_getElem hi] at hfound
      obtain ⟨hzero, hsize, htext⟩ := hfound
      have hkept : ¬ (found.index ≠ 0 ∨ found.strSize = 1) := by
        have hchars := List.length_pos_of_ne_nil (s :: pack)[i].nonempty
        unfold SmbiosString.size at hsize
        omega
      simp only [getOptionalStringByIndex, if_neg hne, hindex, Nat.add_sub_cancel, hwalk,
        Option.bind_eq_bind, Option.bind_some, if_neg hkept]
      rw [hsize, asciiStrToUnicodeStrS_eq htext _ (by simp)]

theorem getOptionalStringByIndex_missing {pack : List SmbiosString} {index : UInt8}
    (hindex : pack.length < index.toNat) (h : block.drop start = stringArea pack)
    (string : Option WideBuffer) (calls : StringCalls) (pool : Ledger) :
    getOptionalStringByIndex block start index string calls pool =
      some (efiNotFound, none, pool.release (string.map WideBuffer.address)) := by
  have hne : index ≠ 0 := by
    rintro rfl
    exact absurd hindex (by simp)
  have hfound : ∃ found, walk block (index.toNat - 1) start = some found ∧
      (found.index ≠ 0 ∨ found.strSize = 1) := by
    cases pack with
    | nil =>
        obtain ⟨found, hwalk, hsize⟩ := walk_empty (index.toNat - 1) h
        exact ⟨found, hwalk, Or.inr hsize⟩
    | cons s pack =>
        obtain ⟨found, hwalk, hfound⟩ := walk_texts s pack (index.toNat - 1) h
        rw [List.getElem?_eq_none (by simp only [List.length_cons] at hindex ⊢; omega)] at hfound
        exact ⟨found, hwalk, Or.inl hfound⟩
  obtain ⟨found, hwalk, hgone⟩ := hfound
  simp only [getOptionalStringByIndex, if_neg hne, hwalk, Option.bind_eq_bind, Option.bind_some,
    if_pos hgone]

/-- For every template and every pack of at most 255 strings, the record is the template
followed by the string area and nothing else, and from the end of the template on every index
of the pack gives its string while every index past it gives `EFI_NOT_FOUND`. -/
theorem stringPack_roundTrip (template : Template) (pack : List SmbiosString)
    (hcount : pack.length ≤ 255) :
    recordSize (lengthField template.bytes) (some pack) =
        (template.bytes ++ stringArea pack).length ∧
      (∀ (calls : LogCalls) (pool : Ledger),
        ∃ logged, logSmbiosData template (some pack) calls pool = some logged ∧
          (efiError calls.locateProtocol = false → calls.allocated = true →
            logged.status = calls.add ∧
              logged.record = some (template.bytes ++ stringArea pack))) ∧
      ∀ (owned : WideBuffer) (calls : StringCalls) (pool : Ledger), owned.address ∈ pool.live →
        (∀ (i : ℕ) (hi : i < pack.length),
          getOptionalStringByIndex (template.bytes ++ stringArea pack) template.bytes.length
              (UInt8.ofNat (i + 1)) (some owned) calls pool =
            some (efiSuccess,
              (pool.acquire calls.allocated).1.map (⟨·, pack[i].chars.map UInt8.toUInt16 ++ [0]⟩),
              (pool.acquire calls.allocated).2)) ∧
        ∀ index : UInt8, pack.length < index.toNat →
          getOptionalStringByIndex (template.bytes ++ stringArea pack) template.bytes.length index
              (some owned) calls pool =
            some (efiNotFound, none, pool.retire owned.address) := by
  have harea : (template.bytes ++ stringArea pack).drop template.bytes.length =
      stringArea pack := List.drop_left
  refine ⟨recordSize_eq template pack hcount, ?_, ?_⟩
  · intro calls pool
    refine ⟨_, logSmbiosData_eq template pack hcount calls pool, ?_⟩
    intro hlocated hgranted
    rw [if_neg (by rw [hlocated]; simp), if_neg (by rw [hgranted]; simp)]
    exact ⟨rfl, rfl⟩
  · intro owned calls pool howned
    constructor
    · intro i hi
      exact getOptionalStringByIndex_found hi hcount harea (some owned) calls pool
    · intro index hindex
      rw [getOptionalStringByIndex_missing hindex harea, Option.map_some, Ledger.release,
        if_pos howned]

def bareTemplate : Template := ⟨[126, 4, 0, 0], by decide, by decide⟩

def twoStrings : List SmbiosString :=
  [⟨⟨[65], by decide⟩, by decide, by decide⟩, ⟨⟨[66, 67], by decide⟩, by decide, by decide⟩]

theorem stringPack_roundTrip_two :
    getOptionalStringByIndex ([126, 4, 0, 0] ++ [65, 0, 66, 67, 0, 0]) 4 2 (some ⟨0, []⟩) {}
        Ledger.empty.grant =
      some (efiSuccess, some ⟨1, [66, 67, 0]⟩, Ledger.empty.grant.grant) :=
  ((stringPack_roundTrip bareTemplate twoStrings (by decide)).2.2 ⟨0, []⟩ {} Ledger.empty.grant
    (Multiset.mem_cons_self 0 0)).1 1 (by decide)

end MuTegra.Smbios.StringPack
