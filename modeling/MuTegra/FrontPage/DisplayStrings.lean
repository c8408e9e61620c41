/- Unit: MuTegra/FrontPage/DisplayStrings
   source: NvidiaPkg/Applications/FrontPage/FrontPage.c
   digest: One string pointer serves all lookups, and a lookup that fails frees what it was left with. -/

import MuTegra.Smbios.StringPack

/-!
`NewString` starts without a value, and keeps the address of a buffer that has been freed. A
lookup that finds no string passes it to `FreePool`. That `NULL` is passed is not counted.
-/

set_option autoImplicit false
set_option relaxedAutoImplicit false

namespace MuTegra.FrontPage.DisplayStrings

open MuTegra.Foundation.Ownership
open MuTegra.Uefi.Status MuTegra.Uefi.Strings
open MuTegra.Smbios.StringPack

/-! ## The pointer and the pool -/

inductive Pointer where
  | uninitialised
  | null
  | buffer (block : WideBuffer)
  deriving DecidableEq

def Pointer.contents : Pointer → Option (List UInt16)
  | .buffer block => some block.chars
  | _ => none

inductive Token where
  | uefiVersionValue
  | deviceMaintainerValue
  | uefiBuildDateValue
  | deviceManufacturerValue
  | deviceValue
  | pcUuidValue
  | pcSerialnumValue
  | pcAssetTagValue
  | socManufacturerValue
  | socModelValue
  deriving DecidableEq, Repr

/-- The pool, `NewString`, the calls of `FreePool` with a pointer that has no value or whose
buffer is not live, and the strings set. -/
structure Display where
  pool : Ledger
  newString : Pointer
  wrongFrees : ℕ
  strings : List (Token × Option (List UInt16))

def Display.freePool (d : Display) : Display :=
  match d.newString with
  | .uninitialised => { d with wrongFrees := d.wrongFrees + 1 }
  | .null => d
  | .buffer block =>
      if block.address ∈ d.pool.live then { d with pool := d.pool.release (some block.address) }
      else { d with wrongFrees := d.wrongFrees + 1 }

def Display.allocate (d : Display) (allocated : Bool) (contents : List UInt16) : Display :=
  if allocated then
    { d with pool := d.pool.grant, newString := .buffer ⟨d.pool.next, contents⟩ }
  else { d with newString := .null }

def Display.hiiSetString (d : Display) (token : Token) (string : Option (List UInt16)) : Display :=
  { d with strings := d.strings ++ [(token, string)] }

def Display.getOptionalStringByIndex (d : Display) (block : List UInt8) (index : UInt8)
    (calls : StringCalls) : Option (EfiStatus × Display) :=
  if index = 0 then some (efiSuccess, d.allocate calls.allocated [0])
  else do
    let found ← walk block (index.toNat - 1) 0
    if found.index ≠ 0 ∨ found.strSize = 1 then
      some (efiNotFound, { d.freePool with newString := .null })
    else
      some (efiSuccess, d.allocate calls.allocated
        (asciiStrToUnicodeStrS (block.drop found.start)
          ((List.range found.strSize).map calls.fresh) found.strSize))

/-! ## The records -/

structure RecordStrings where
  strings : List AsciiString
  behind : List UInt8

def RecordStrings.block (r : RecordStrings) : List UInt8 :=
  r.strings.flatMap (fun s => s.chars ++ [0]) ++ (if r.strings.isEmpty then [0, 0] else [0]) ++
    r.behind

structure Type0Record extends RecordStrings where
  biosReleaseDate : UInt8

structure Type1Record extends RecordStrings where
  manufacturer : UInt8
  productName : UInt8
  serialNumber : UInt8
  uuid : List UInt16

structure Type3Record extends RecordStrings where
  assetTag : UInt8

structure Type4Record extends RecordStrings where
  processorManufacturer : UInt8
  processorVersion : UInt8

/-- What the services return: a record is there when its `GetNext` does not fail, and `calls` are
the allocations made for a token. -/
structure Firmware where
  firmwareVersionString : List UInt16
  firmwareVendor : List UInt16
  locateProtocol : EfiStatus
  type0 : EfiStatus × Type0Record
  type1 : EfiStatus × Type1Record
  type3 : EfiStatus × Type3Record
  type4 : EfiStatus × Type4Record
  calls : Token → StringCalls

/-! ## The function -/

def displayString (f : Firmware) (token : Token) (r : RecordStrings) (index : UInt8) (d : Display) :
    Option (EfiStatus × Display) := do
  let (status, d) ← d.getOptionalStringByIndex r.block index (f.calls token)
  if efiError status then some (status, d)
  else some (status, (d.hiiSetString token d.newString.contents).freePool)

def displayType0 (f : Firmware) (d : Display) : Option (EfiStatus × Display) :=
  if efiError f.type0.1 then some (f.type0.1, d)
  else displayString f .uefiBuildDateValue f.type0.2.toRecordStrings f.type0.2.biosReleaseDate d

/-- The buffer the UUID is printed into; without one nothing is set. -/
def displayUuid (f : Firmware) (d : Display) : Display :=
  let d := d.allocate (f.calls .pcUuidValue).allocated f.type1.2.uuid
  if d.newString ≠ .null then (d.hiiSetString .pcUuidValue d.newString.contents).freePool else d

def displayType1 (f : Firmware) (d : Display) : Option (EfiStatus × Display) :=
  if efiError f.type1.1 then some (f.type1.1, d)
  else do
    let r := f.type1.2
    let (_, d) ← displayString f .deviceManufacturerValue r.toRecordStrings r.manufacturer d
    let (_, d) ← displayString f .deviceValue r.toRecordStrings r.productName d
    displayString f .pcSerialnumValue r.toRecordStrings r.serialNumber (displayUuid f d)

def displayType3 (f : Firmware) (d : Display) : Option (EfiStatus × Display) :=
  if efiError f.type3.1 then some (f.type3.1, d)
  else displayString f .pcAssetTagValue f.type3.2.toRecordStrings f.type3.2.assetTag d

def displayType4 (f : Firmware) (d : Display) : Option (EfiStatus × Display) :=
  if efiError f.type4.1 then some (f.type4.1, d)
  else do
    let r := f.type4.2
    let (_, d) ← displayString f .socManufacturerValue r.toRecordStrings r.processorManufacturer d
    displayString f .socModelValue r.toRecordStrings r.processorVersion d

def updateDisplayStrings (f : Firmware) (pool : Ledger) : Option (EfiStatus × Display) :=
  let d : Display := ⟨pool, .uninitialised, 0, []⟩
  let d := d.hiiSetString .uefiVersionValue f.firmwareVersionString
  let d := d.hiiSetString .deviceMaintainerValue f.firmwareVendor
  if efiError f.locateProtocol then some (f.locateProtocol, d)
  else do
    let (_, d) ← displayType0 f d
    let (_, d) ← displayType1 f d
    let (_, d) ← displayType3 f d
    displayType4 f d

/-! ## What must hold -/

/-- A walk meets the string at a place: it is not empty, and neither is one before it, but for
the first. -/
def Reachable (strings : List AsciiString) (place : ℕ) : Prop :=
  ∃ s, strings[place]? = some s ∧ s.chars ≠ [] ∧
    ∀ j t, 0 < j → j < place → strings[j]? = some t → t.chars ≠ []

/-- A lookup finds its string; index 0 is the empty one. -/
def Finds (strings : List AsciiString) (index : UInt8) : Prop :=
  index = 0 ∨ Reachable strings (index.toNat - 1)

/-- A use of `NewString`: it is a lookup that finds nothing, and it leaves `NULL`. -/
structure Use where
  missing : Prop
  leavesNull : Prop

def lookupUse (f : Firmware) (token : Token) (r : RecordStrings) (index : UInt8) : Use where
  missing := ¬ Finds r.strings index
  leavesNull := ¬ Finds r.strings index ∨ (f.calls token).allocated = false

def uuidUse (f : Firmware) : Use where
  missing := False
  leavesNull := (f.calls .pcUuidValue).allocated = false

def usesOf (status : EfiStatus) (uses : List Use) : List Use := if efiError status then [] else uses

def type0Uses (f : Firmware) : List Use :=
  usesOf f.type0.1
    [lookupUse f .uefiBuildDateValue f.type0.2.toRecordStrings f.type0.2.biosReleaseDate]

def type1Uses (f : Firmware) : List Use :=
  usesOf f.type1.1
    [lookupUse f .deviceManufacturerValue f.type1.2.toRecordStrings f.type1.2.manufacturer,
      lookupUse f .deviceValue f.type1.2.toRecordStrings f.type1.2.productName, uuidUse f,
      lookupUse f .pcSerialnumValue f.type1.2.toRecordStrings f.type1.2.serialNumber]

def type3Uses (f : Firmware) : List Use :=
  usesOf f.type3.1
    [lookupUse f .pcAssetTagValue f.type3.2.toRecordStrings f.type3.2.assetTag]

def type4Uses (f : Firmware) : List Use :=
  usesOf f.type4.1
    [lookupUse f .socManufacturerValue f.type4.2.toRecordStrings f.type4.2.processorManufacturer,
      lookupUse f .socModelValue f.type4.2.toRecordStrings f.type4.2.processorVersion]

def uses (f : Firmware) : List Use :=
  usesOf f.locateProtocol (type0Uses f ++ type1Uses f ++ type3Uses f ++ type4Uses f)

/-- Every lookup that finds nothing comes right after a use that leaves `NULL`. -/
def Guarded : Prop → List Use → Prop
  | _, [] => True
  | null, use :: rest => (use.missing → null) ∧ Guarded use.leavesNull rest

structure FreesOwned (base : Ledger) (d : Display) : Prop where
  wrongFrees : d.wrongFrees = 0
  keeps : Keeps base.faults base.live d.pool

/-! ## A walk over any strings -/

def area (strings : List AsciiString) (behind : List UInt8) : List UInt8 :=
  strings.flatMap (fun s => s.chars ++ [0]) ++ 0 :: behind

variable {block behind : List UInt8} {start : ℕ}

theorem area_cons (s : AsciiString) (strings : List AsciiString) :
    area (s :: strings) behind = s.chars ++ 0 :: area strings behind := by
  simp [area]

theorem reachable_zero {s : AsciiString} {strings : List AsciiString} :
    Reachable (s :: strings) 0 ↔ s.chars ≠ [] := by
  constructor
  · rintro ⟨t, first, nonempty, -⟩
    obtain rfl : s = t := Option.some.inj first
    exact nonempty
  · exact fun nonempty => ⟨s, rfl, nonempty, fun j _ _ lt => absurd lt (Nat.not_lt_zero j)⟩

/-- Past its first string, a walk goes on as long as the next one is not empty. -/
theorem reachable_succ {s t : AsciiString} {strings : List AsciiString} {place : ℕ} :
    Reachable (s :: t :: strings) (place + 1) ↔
      t.chars ≠ [] ∧ Reachable (t :: strings) place := by
  constructor
  · rintro ⟨u, here, nonempty, before⟩
    have next : t.chars ≠ [] := by
      cases place with
      | zero =>
          obtain rfl : t = u := Option.some.inj here
          exact nonempty
      | succ place => exact before 1 t Nat.one_pos (by omega) rfl
    refine ⟨next, u, here, nonempty, fun j v positive lt at_j => ?_⟩
    exact before (j + 1) v (Nat.succ_pos j) (Nat.succ_lt_succ lt) at_j
  · rintro ⟨next, u, here, nonempty, before⟩
    refine ⟨u, here, nonempty, fun j v positive lt at_j => ?_⟩
    obtain ⟨i, rfl⟩ : ∃ i, j = i + 1 := ⟨j - 1, by omega⟩
    cases i with
    | zero =>
        obtain rfl : t = v := Option.some.inj at_j
        exact next
    | succ i => exact before (i + 1) v (Nat.succ_pos i) (Nat.lt_of_succ_lt_succ lt) at_j

theorem area_head (strings : List AsciiString) (behind : List UInt8) :
    ∃ byte rest, area strings behind = byte :: rest ∧
      (byte ≠ 0 ↔ ∃ t, strings.head? = some t ∧ t.chars ≠ []) := by
  cases strings with
  | nil =>
      refine ⟨0, behind, rfl, iff_of_false (not_not_intro rfl) ?_⟩
      rintro ⟨t, first, -⟩
      cases first
  | cons t strings =>
      cases chars : t.chars with
      | nil =>
          refine ⟨0, area strings behind, by rw [area_cons, chars]; rfl, ?_⟩
          refine iff_of_false (not_not_intro rfl) ?_
          rintro ⟨u, first, nonempty⟩
          obtain rfl : t = u := Option.some.inj first
          exact nonempty chars
      | cons c rest =>
          refine ⟨c, rest ++ 0 :: area strings behind, by rw [area_cons, chars]; rfl, ?_⟩
          refine iff_of_true ?_ ⟨t, rfl, by rw [chars]; exact List.cons_ne_nil c rest⟩
          rintro rfl
          exact t.noNull (by rw [chars]; exact List.mem_cons_self)

theorem read_area {s : AsciiString} {strings : List AsciiString}
    (h : block.drop start = area (s :: strings) behind) :
    asciiStrSize block start = some (s.chars.length + 1) ∧
      block.drop (start + (s.chars.length + 1)) = area strings behind ∧
      ∃ byte, block[start + (s.chars.length + 1)]? = some byte ∧
        (byte ≠ 0 ↔ ∃ t, strings.head? = some t ∧ t.chars ≠ []) := by
  rw [area_cons] at h
  obtain ⟨size, -, rest⟩ := read_string h
  obtain ⟨byte, tail, head, another⟩ := area_head strings behind
  refine ⟨size, rest, byte, ?_, another⟩
  rw [← List.head?_drop, rest, head]
  rfl

/-- A walk stays within the set, and ends on a string exactly when that can be reached. -/
theorem walk_area (s : AsciiString) (strings : List AsciiString) (place : ℕ)
    (h : block.drop start = area (s :: strings) behind) :
    ∃ found, walk block place start = some found ∧
      ((found.index ≠ 0 ∨ found.strSize = 1) ↔ ¬ Reachable (s :: strings) place) := by
  induction place generalizing start s strings with
  | zero =>
      obtain ⟨size, -, byte, next, -⟩ := read_area h
      refine ⟨⟨start, s.chars.length + 1, 0⟩, ?_, ?_⟩
      · rw [walk, size, Option.bind_eq_bind, Option.bind_some, next]
        rfl
      · rw [reachable_zero, not_not, ← List.length_eq_zero_iff]
        simp
  | succ place ih =>
      obtain ⟨size, rest, byte, next, another⟩ := read_area h
      by_cases stops : byte = 0
      · refine ⟨⟨start, s.chars.length + 1, place + 1⟩, ?_, ?_⟩
        · rw [walk, size, Option.bind_eq_bind, Option.bind_some, next, Option.bind_eq_bind,
            Option.bind_some, if_neg (not_not_intro stops)]
        · refine iff_of_true (.inl (Nat.succ_ne_zero place)) fun reachable => ?_
          cases strings with
          | nil =>
              obtain ⟨u, here, -⟩ := reachable
              cases here
          | cons t strings =>
              exact another.mpr ⟨t, rfl, (reachable_succ.mp reachable).1⟩ stops
      · obtain ⟨t, first, nonempty⟩ := another.mp stops
        cases strings with
        | nil => cases first
        | cons u strings =>
            obtain rfl : u = t := Option.some.inj first
            obtain ⟨found, walked, ends⟩ := ih u strings rest
            refine ⟨found, ?_, ?_⟩
            · rw [walk, size, Option.bind_eq_bind, Option.bind_some, next, Option.bind_eq_bind,
                Option.bind_some, if_pos stops, walked]
            · rw [ends, reachable_succ, and_iff_right nonempty]

/-! ## A lookup -/

theorem walk_none (behind : List UInt8) (place : ℕ) :
    walk (0 :: 0 :: behind) place 0 = some ⟨0, 1, place⟩ := by
  have size : asciiStrSize (0 :: 0 :: behind) 0 = some 1 := by
    simp [asciiStrSize, asciiText]
  cases place with
  | zero => simp [walk, size]
  | succ place => simp [walk, size]

/-- A walk in a record ends on a string exactly when that can be reached. -/
theorem walk_block (r : RecordStrings) (place : ℕ) :
    ∃ found, walk r.block place 0 = some found ∧
      ((found.index ≠ 0 ∨ found.strSize = 1) ↔ ¬ Reachable r.strings place) := by
  cases strings : r.strings with
  | nil =>
      have block : r.block = 0 :: 0 :: r.behind := by simp [RecordStrings.block, strings]
      refine ⟨⟨0, 1, place⟩, block ▸ walk_none r.behind place, ?_⟩
      refine iff_of_true (.inr rfl) ?_
      rintro ⟨s, here, -⟩
      cases here
  | cons s rest =>
      have block : r.block.drop 0 = area (s :: rest) r.behind := by
        simp [RecordStrings.block, strings, area]
      exact walk_area s rest place block

theorem getOptionalStringByIndex_cases (d : Display) (r : RecordStrings) (index : UInt8)
    (calls : StringCalls) :
    (Finds r.strings index ∧ ∃ contents, d.getOptionalStringByIndex r.block index calls =
        some (efiSuccess, d.allocate calls.allocated contents)) ∨
      (¬ Finds r.strings index ∧ d.getOptionalStringByIndex r.block index calls =
        some (efiNotFound, { d.freePool with newString := .null })) := by
  rw [Display.getOptionalStringByIndex]
  by_cases zero : index = 0
  · exact .inl ⟨.inl zero, [0], if_pos zero⟩
  · obtain ⟨found, walked, ends⟩ := walk_block r (index.toNat - 1)
    rw [if_neg zero, walked, Option.bind_eq_bind, Option.bind_some]
    by_cases reachable : Reachable r.strings (index.toNat - 1)
    · refine .inl ⟨.inr reachable, _, if_neg fun failed => ends.mp failed reachable⟩
    · exact .inr ⟨not_or.mpr ⟨zero, reachable⟩, if_pos (ends.mpr reachable)⟩

variable {base : Ledger} {d d' d'' : Display} {before after : List Use}

/-- Between two uses: nothing is still to be freed, and `NewString` points to nothing live. -/
structure Rests (base : Ledger) (d : Display) : Prop where
  owns : Owns base 0 d.pool
  dead : ∀ block, d.newString = .buffer block → block.address ∉ d.pool.live

/-- `NewString` is `NULL` after some uses. -/
def endNull (null : Prop) (uses : List Use) : Prop := uses.foldl (fun _ use => use.leavesNull) null

/-- What uses do to the pointer and to the count of wrong calls of `FreePool`. -/
structure Ran (base : Ledger) (uses : List Use) (d d' : Display) : Prop where
  rests : Rests base d'
  null : d'.newString = .null ↔ endNull (d.newString = .null) uses
  le : d.wrongFrees ≤ d'.wrongFrees
  clean : d'.wrongFrees = d.wrongFrees ↔ Guarded (d.newString = .null) uses

theorem guarded_append (null : Prop) : Guarded null (before ++ after) ↔
    Guarded null before ∧ Guarded (endNull null before) after := by
  induction before generalizing null with
  | nil => exact (and_iff_right trivial).symm
  | cons use before ih => exact (and_congr_right fun _ => ih use.leavesNull).trans and_assoc.symm

theorem Ran.nil (rests : Rests base d) : Ran base [] d d :=
  ⟨rests, Iff.rfl, le_rfl, iff_of_true rfl trivial⟩

theorem Ran.append (first : Ran base before d d') (second : Ran base after d' d'') :
    Ran base (before ++ after) d d'' where
  rests := second.rests
  null := by
    have last := second.null
    rw [propext first.null] at last
    rwa [endNull, List.foldl_append]
  le := first.le.trans second.le
  clean := by
    rw [guarded_append, ← first.clean, ← propext first.null, ← second.clean]
    have le := first.le
    have le' := second.le
    omega

/-- With anything but `NULL` in `NewString`, a call of `FreePool` is wrong. -/
theorem Rests.freePool (h : Rests base d) (pointer : d.newString ≠ .null) :
    d.freePool = { d with wrongFrees := d.wrongFrees + 1 } := by
  rw [Display.freePool]
  cases value : d.newString with
  | uninitialised => rfl
  | null => exact absurd value pointer
  | buffer block => exact if_neg (h.dead block value)

theorem Rests.shown (h : Rests base d) (allocated : Bool) (contents : List UInt16) (token : Token)
    (string : Option (List UInt16)) :
    let d' := ((d.allocate allocated contents).hiiSetString token string).freePool
    Rests base d' ∧ d'.wrongFrees = d.wrongFrees ∧
      (d'.newString = .null ↔ allocated = false) := by
  cases allocated with
  | false => exact ⟨⟨h.owns, nofun⟩, rfl, iff_of_true rfl rfl⟩
  | true =>
      have live : d.pool.next ∈ d.pool.grant.live := Multiset.mem_cons_self _ _
      have freed : ((d.allocate true contents).hiiSetString token string).freePool =
          { d with
            pool := d.pool.grant.release (some d.pool.next)
            newString := .buffer ⟨d.pool.next, contents⟩
            strings := d.strings ++ [(token, string)] } := if_pos live
      rw [freed]
      refine ⟨⟨h.owns.grant.release, ?_⟩, rfl, iff_of_false nofun nofun⟩
      rintro block eq
      obtain rfl := Pointer.buffer.inj eq
      exact not_mem_release d.pool.grant d.pool.next

theorem displayString_ran (h : Rests base d) (f : Firmware) (token : Token) (r : RecordStrings)
    (index : UInt8) :
    ∃ status d', displayString f token r index d = some (status, d') ∧
      Ran base [lookupUse f token r index] d d' := by
  have one : Guarded (d.newString = .null) [lookupUse f token r index] ↔
      (¬ Finds r.strings index → d.newString = .null) := and_iff_left trivial
  rw [displayString]
  rcases getOptionalStringByIndex_cases d r index (f.calls token) with
    ⟨finds, contents, found⟩ | ⟨missing, found⟩
  · obtain ⟨rests, wrong, null⟩ := h.shown (f.calls token).allocated contents token
      (d.allocate (f.calls token).allocated contents).newString.contents
    refine ⟨_, _, by rw [found]; rfl, rests, ?_, wrong.ge, ?_⟩
    · exact null.trans (or_iff_right (not_not_intro finds)).symm
    · exact iff_of_true wrong (one.mpr fun missing => absurd finds missing)
  · refine ⟨_, _, by rw [found]; rfl, ?_⟩
    by_cases pointer : d.newString = .null
    · have same : d.freePool = d := by rw [Display.freePool, pointer]
      rw [same]
      exact ⟨⟨h.owns, nofun⟩, iff_of_true rfl (.inl missing), le_rfl,
        iff_of_true rfl (one.mpr fun _ => pointer)⟩
    · rw [h.freePool pointer]
      exact ⟨⟨h.owns, nofun⟩, iff_of_true rfl (.inl missing), Nat.le_succ _,
        iff_of_false (Nat.succ_ne_self _) fun guarded => pointer (one.mp guarded missing)⟩

theorem displayUuid_ran (h : Rests base d) (f : Firmware) :
    Ran base [uuidUse f] d (displayUuid f d) := by
  have guarded : Guarded (d.newString = .null) [uuidUse f] := ⟨False.elim, trivial⟩
  rw [displayUuid]
  cases allocated : (f.calls .pcUuidValue).allocated with
  | false =>
      exact ⟨⟨h.owns, nofun⟩, iff_of_true rfl allocated, le_rfl, iff_of_true rfl guarded⟩
  | true =>
      obtain ⟨rests, wrong, null⟩ := h.shown true f.type1.2.uuid .pcUuidValue
        (some f.type1.2.uuid)
      have refused : ¬ (f.calls .pcUuidValue).allocated = false :=
        ne_false_of_eq_true allocated
      exact ⟨rests, null.trans (iff_of_false nofun refused), wrong.ge, iff_of_true wrong guarded⟩

/-! ## The records -/

theorem displayType0_ran (h : Rests base d) (f : Firmware) :
    ∃ status d', displayType0 f d = some (status, d') ∧ Ran base (type0Uses f) d d' := by
  rw [displayType0, type0Uses, usesOf]
  cases efiError f.type0.1 with
  | true => exact ⟨_, _, rfl, .nil h⟩
  | false => exact displayString_ran h f _ _ _

theorem displayType1_ran (h : Rests base d) (f : Firmware) :
    ∃ status d', displayType1 f d = some (status, d') ∧ Ran base (type1Uses f) d d' := by
  rw [displayType1, type1Uses, usesOf]
  cases efiError f.type1.1 with
  | true => exact ⟨_, _, rfl, .nil h⟩
  | false =>
      obtain ⟨status, d₁, found₁, first⟩ := displayString_ran h f .deviceManufacturerValue
        f.type1.2.toRecordStrings f.type1.2.manufacturer
      obtain ⟨status, d₂, found₂, second⟩ := displayString_ran first.rests f .deviceValue
        f.type1.2.toRecordStrings f.type1.2.productName
      have third := displayUuid_ran second.rests f
      obtain ⟨status, d₄, found₄, fourth⟩ := displayString_ran third.rests f .pcSerialnumValue
        f.type1.2.toRecordStrings f.type1.2.serialNumber
      refine ⟨status, d₄, ?_, ((first.append second).append third).append fourth⟩
      simp only [Bool.false_eq_true, if_false, found₁, found₂, found₄, Option.bind_eq_bind,
        Option.bind_some]

theorem displayType3_ran (h : Rests base d) (f : Firmware) :
    ∃ status d', displayType3 f d = some (status, d') ∧ Ran base (type3Uses f) d d' := by
  rw [displayType3, type3Uses, usesOf]
  cases efiError f.type3.1 with
  | true => exact ⟨_, _, rfl, .nil h⟩
  | false => exact displayString_ran h f _ _ _

theorem displayType4_ran (h : Rests base d) (f : Firmware) :
    ∃ status d', displayType4 f d = some (status, d') ∧ Ran base (type4Uses f) d d' := by
  rw [displayType4, type4Uses, usesOf]
  cases efiError f.type4.1 with
  | true => exact ⟨_, _, rfl, .nil h⟩
  | false =>
      obtain ⟨status, d₁, found₁, first⟩ := displayString_ran h f .socManufacturerValue
        f.type4.2.toRecordStrings f.type4.2.processorManufacturer
      obtain ⟨status, d₂, found₂, second⟩ := displayString_ran first.rests f .socModelValue
        f.type4.2.toRecordStrings f.type4.2.processorVersion
      refine ⟨status, d₂, ?_, first.append second⟩
      simp only [Bool.false_eq_true, if_false, found₁, found₂, Option.bind_eq_bind,
        Option.bind_some]

/-- The update ends, and frees only what it owns exactly when every lookup that finds nothing
comes right after a use that left `NULL`. -/
theorem updateDisplayStrings_freesOwned_iff (f : Firmware) (pool : Ledger) :
    ∃ status d, updateDisplayStrings f pool = some (status, d) ∧
      (FreesOwned pool d ↔ Guarded False (uses f)) := by
  obtain ⟨d, hd⟩ : ∃ d : Display, d = ⟨pool, .uninitialised, 0,
      [(.uefiVersionValue, some f.firmwareVersionString),
        (.deviceMaintainerValue, some f.firmwareVendor)]⟩ := ⟨_, rfl⟩
  have start : Rests pool d := by
    rw [hd]
    exact ⟨Owns.refl pool, nofun⟩
  have ran : ∃ status d', updateDisplayStrings f pool = some (status, d') ∧
      Ran pool (uses f) d d' := by
    have init : updateDisplayStrings f pool =
        if efiError f.locateProtocol then some (f.locateProtocol, d)
        else (do
          let (_, d) ← displayType0 f d
          let (_, d) ← displayType1 f d
          let (_, d) ← displayType3 f d
          displayType4 f d) := by
      rw [hd]
      rfl
    rw [init, uses, usesOf]
    cases efiError f.locateProtocol with
    | true => exact ⟨_, _, rfl, .nil start⟩
    | false =>
        obtain ⟨_, d₀, found₀, ran₀⟩ := displayType0_ran start f
        obtain ⟨_, d₁, found₁, ran₁⟩ := displayType1_ran ran₀.rests f
        obtain ⟨_, d₃, found₃, ran₃⟩ := displayType3_ran ran₁.rests f
        obtain ⟨status, d₄, found₄, ran₄⟩ := displayType4_ran ran₃.rests f
        refine ⟨status, d₄, ?_, ((ran₀.append ran₁).append ran₃).append ran₄⟩
        simp only [Bool.false_eq_true, if_false, found₀, found₁, found₃, found₄,
          Option.bind_eq_bind, Option.bind_some]
  obtain ⟨status, d', updated, ran⟩ := ran
  refine ⟨status, d', updated, ?_⟩
  have clean := ran.clean
  rw [hd, show (Pointer.uninitialised = Pointer.null) = False from eq_false nofun] at clean
  constructor
  · exact fun owned => clean.mp owned.wrongFrees
  · intro guarded
    refine ⟨clean.mpr guarded, ran.rests.owns.clean, ?_⟩
    rw [ran.rests.owns.live, Multiset.zero_add]

/-- A record without strings whose release date is string 1, and no other record. -/
def noStrings : Firmware where
  firmwareVersionString := []
  firmwareVendor := []
  locateProtocol := efiSuccess
  type0 := (efiSuccess, { strings := [], behind := [], biosReleaseDate := 1 })
  type1 := (efiNotFound,
    { strings := [], behind := [], manufacturer := 0, productName := 0, serialNumber := 0,
      uuid := [] })
  type3 := (efiNotFound, { strings := [], behind := [], assetTag := 0 })
  type4 := (efiNotFound,
    { strings := [], behind := [], processorManufacturer := 0, processorVersion := 0 })
  calls _ := {}

/-- The first lookup finds nothing and frees a pointer that has no value. -/
theorem noStrings_not_freesOwned :
    ∃ status d, updateDisplayStrings noStrings .empty = some (status, d) ∧
      ¬ FreesOwned .empty d :=
  ⟨efiNotFound, ⟨.empty, .null, 1, [(.uefiVersionValue, some []),
    (.deviceMaintainerValue, some [])]⟩, rfl, fun owned => absurd owned.wrongFrees (by decide)⟩

end MuTegra.FrontPage.DisplayStrings
