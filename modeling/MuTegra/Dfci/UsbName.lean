/- Unit: MuTegra/Dfci/UsbName
   source: NvidiaPkg/Applications/DfciMenu/DfciUpdate.c, NvidiaPkg/Applications/DfciMenu/DfciUtility.c, NvidiaPkg/Applications/DfciMenu/DfciUsb.h
   digest: The name of the packet file on a USB drive, built in a buffer of fixed size. -/

import MuTegra.Dfci.State
import MuTegra.Foundation.Blocks

/-!
Sizes are counted in characters of 16 bits. A write or a search that leaves the buffer is
a fault.
-/

set_option autoImplicit false
set_option relaxedAutoImplicit false

namespace MuTegra.Dfci.UsbName

open MuTegra.Foundation.Blocks MuTegra.Foundation.Ownership
open MuTegra.Uefi.Status MuTegra.Uefi.Strings
open MuTegra.Dfci.State

/-! ## The system information -/

structure SystemInformation where
  serialNumber : Option Buffer := none
  manufacturer : Option Buffer := none
  productName : Option Buffer := none

def dfciFreeSystemInfo (info : SystemInformation) (pool : Ledger) : Ledger :=
  freeIfAny info.productName (freeIfAny info.manufacturer (freeIfAny info.serialNumber pool))

structure IdentityRead where
  status : EfiStatus := efiSuccess
  text : AsciiString

def IdentityRead.obtain (read : IdentityRead) (pool : Ledger) : Option Buffer × Ledger :=
  allocatePool true (read.text.chars ++ [0]) pool

structure SystemInfoReads where
  serialNumber : IdentityRead
  manufacturer : IdentityRead
  productName : IdentityRead

/-- `DfciGetSystemInfo`; after an error the pointers keep the values they had. -/
def dfciGetSystemInfo (reads : SystemInfoReads) (pool : Ledger) :
    EfiStatus × SystemInformation × Ledger :=
  if efiError reads.serialNumber.status then
    (reads.serialNumber.status, {}, dfciFreeSystemInfo {} pool)
  else
    let serialNumber := reads.serialNumber.obtain pool
    if efiError reads.manufacturer.status then
      let info : SystemInformation := { serialNumber := serialNumber.1 }
      (reads.manufacturer.status, info, dfciFreeSystemInfo info serialNumber.2)
    else
      let manufacturer := reads.manufacturer.obtain serialNumber.2
      if efiError reads.productName.status then
        let info : SystemInformation :=
          { serialNumber := serialNumber.1, manufacturer := manufacturer.1 }
        (reads.productName.status, info, dfciFreeSystemInfo info manufacturer.2)
      else
        let productName := reads.productName.obtain manufacturer.2
        (efiSuccess, ⟨serialNumber.1, manufacturer.1, productName.1⟩, productName.2)

/-! ## Strings of 16-bit characters -/

def maxUsbFileNameLength : ℕ := 256

def sizeofChar16 : ℕ := 2

def argumentText (argument : Option Buffer) : List UInt8 :=
  match argument with
  | none => ascii "<null string>"
  | some buffer => asciiText buffer.bytes

/-- The text that `"%a_%a_%a"` stands for. -/
def formatName (first second third : Option Buffer) : List UInt16 :=
  (argumentText first ++ ascii "_" ++ argumentText second ++ ascii "_" ++
    argumentText third).map UInt8.toUInt16

/-- `UnicodeSPrintAsciiFormat`: what fits into a number of bytes in front of the null is
printed, and its length is returned. -/
def unicodeSPrintAsciiFormat (buffer : List UInt16) (bufferSize : ℕ) (text : List UInt16) :
    Option (List UInt16 × ℕ) :=
  let printed := text.take (bufferSize / sizeofChar16 - 1)
  (overwrite buffer 0 (printed ++ [0])).map fun buffer => (buffer, printed.length)

def strnLenS (buffer : List UInt16) (maxSize : ℕ) : Option ℕ :=
  let length := ((buffer.take maxSize).takeWhile (· ≠ 0)).length
  if length < buffer.length ∨ maxSize ≤ buffer.length then some length else none

/-- `StrCatS`; `overlaps` tells whether the source lies in the destination's `destMax`
characters. -/
def strCatS (destination : List UInt16) (destMax : ℕ) (source : UnicodeString)
    (overlaps : Bool) : Option (EfiStatus × List UInt16) := do
  let destLen ← strnLenS destination destMax
  let copyLen := destMax - destLen
  if copyLen = 0 then some (efiBadBufferSize, destination)
  else if copyLen ≤ min source.chars.length copyLen then some (efiBufferTooSmall, destination)
  else if overlaps then some (efiAccessDenied, destination)
  else
    let joined ← overwrite destination destLen (source.chars ++ [0])
    some (efiSuccess, joined)

/-! ## The file name -/

def notInFileNames (c : UInt16) : Bool :=
  c ≤ 0x1F || c ∈ [0x22, 0x2A, 0x2F, 0x3A, 0x3C, 0x3E, 0x3F, 0x5C, 0x7C]

/-- A character as it stands in the file name: `@` for one that may not. -/
def fileNameChar (c : UInt16) : UInt16 := if notInFileNames c then 0x40 else c

def replaceChars : ℕ → List UInt16 → List UInt16
  | 0, buffer => buffer
  | _, [] => []
  | n + 1, c :: buffer => fileNameChar c :: replaceChars n buffer

/-- `fresh` is what the new buffer holds. -/
structure UsbRequestCalls where
  reads : SystemInfoReads
  allocated : Bool := true
  fresh : ℕ → UInt16 := fun _ => 0
  overlaps : Bool := false

structure UsbRequest where
  status : EfiStatus
  fileName : Option WideBuffer
  pool : Ledger

/-- The `Error` exit of `BuildUsbRequest`. -/
def usbRequestError (status : EfiStatus) (pktFileName : Option ℕ) (info : SystemInformation)
    (pool : Ledger) : UsbRequest :=
  ⟨status, none, dfciFreeSystemInfo info (pool.releaseIfAny pktFileName)⟩

/-- The part of `BuildUsbRequest` from the name's length on. -/
def finishUsbRequest (fileExtension : UnicodeString) (overlaps : Bool) (info : SystemInformation)
    (address : ℕ) (buffer : List UInt16) (pktNameLen : ℕ) (pool : Ledger) : Option UsbRequest :=
  if pktNameLen = 0 ∨ maxUsbFileNameLength - 4 ≤ pktNameLen then
    some (usbRequestError efiBadBufferSize (some address) info pool)
  else do
    -- the size is given in bytes where the function counts characters
    let joined ← strCatS (replaceChars pktNameLen buffer) (maxUsbFileNameLength * sizeofChar16)
      fileExtension overlaps
    if efiError joined.1 then some (usbRequestError joined.1 (some address) info pool)
    else some ⟨efiSuccess, some ⟨address, joined.2⟩, pool⟩

def buildUsbRequest (fileExtension : UnicodeString) (calls : UsbRequestCalls) (pool : Ledger) :
    Option UsbRequest :=
  let info := dfciGetSystemInfo calls.reads pool
  if efiError info.1 then some (usbRequestError info.1 none info.2.1 info.2.2)
  else
    let pktFileName := info.2.2.acquire calls.allocated
    match pktFileName.1 with
    | none => some (usbRequestError efiOutOfResources none info.2.1 pktFileName.2)
    | some address => do
        let printed ← unicodeSPrintAsciiFormat
          ((List.range maxUsbFileNameLength).map calls.fresh)
          ((maxUsbFileNameLength - 4) * sizeofChar16)
          (formatName info.2.1.serialNumber info.2.1.productName info.2.1.manufacturer)
        finishUsbRequest fileExtension calls.overlaps info.2.1 address printed.1 printed.2
          (dfciFreeSystemInfo info.2.1 pktFileName.2)

/-! ## What the name is -/

def SystemInfoReads.fails (reads : SystemInfoReads) : Bool :=
  efiError reads.serialNumber.status || efiError reads.manufacturer.status ||
    efiError reads.productName.status

def SystemInfoReads.fullName (reads : SystemInfoReads) : List UInt16 :=
  (reads.serialNumber.text.chars ++ ascii "_" ++ reads.productName.text.chars ++ ascii "_" ++
    reads.manufacturer.text.chars).map UInt8.toUInt16

/-- The name in front of the extension: the first 251 characters, made fit for a file name. -/
def SystemInfoReads.baseName (reads : SystemInfoReads) : List UInt16 :=
  (reads.fullName.take 251).map fileNameChar

theorem fullName_length_pos (reads : SystemInfoReads) : 0 < reads.fullName.length := by
  have hseparator : (ascii "_").length = 1 := rfl
  rw [SystemInfoReads.fullName, List.length_map]
  simp only [List.length_append, hseparator]
  omega

theorem argumentText_obtain (read : IdentityRead) (pool : Ledger) :
    argumentText (read.obtain pool).1 = read.text.chars :=
  takeWhile_word 0 read.text.noNull []

theorem dfciGetSystemInfo_error (reads : SystemInfoReads) (pool : Ledger) :
    efiError (dfciGetSystemInfo reads pool).1 = reads.fails := by
  unfold dfciGetSystemInfo SystemInfoReads.fails
  cases hserial : efiError reads.serialNumber.status with
  | true => simp [hserial]
  | false =>
      cases hmanufacturer : efiError reads.manufacturer.status with
      | true => simp [hmanufacturer]
      | false =>
          cases hproduct : efiError reads.productName.status with
          | true => simp [hproduct]
          | false => simp

theorem dfciGetSystemInfo_name {reads : SystemInfoReads} (hreads : reads.fails = false)
    (pool : Ledger) :
    let info := (dfciGetSystemInfo reads pool).2.1
    formatName info.serialNumber info.productName info.manufacturer = reads.fullName := by
  simp only [SystemInfoReads.fails, Bool.or_eq_false_iff] at hreads
  obtain ⟨⟨hserial, hmanufacturer⟩, hproduct⟩ := hreads
  simp only [dfciGetSystemInfo, hserial, hmanufacturer, hproduct, Bool.false_eq_true, if_false,
    formatName, argumentText_obtain, SystemInfoReads.fullName]

theorem fileNameChar_ne_zero (c : UInt16) : fileNameChar c ≠ 0 := by
  intro h
  unfold fileNameChar at h
  split at h
  · cases h
  · subst h
    contradiction

theorem replaceChars_append (text rest : List UInt16) :
    replaceChars text.length (text ++ rest) = text.map fileNameChar ++ rest := by
  induction text with
  | nil => rfl
  | cons c text ih => simp [replaceChars, ih]

/-! ## Appending the extension -/

variable {text free : List UInt16}

theorem strnLenS_text (htext : 0 ∉ text) {maxSize : ℕ} (hmax : text.length < maxSize) :
    strnLenS (text ++ 0 :: free) maxSize = some text.length := by
  have hsplit : (text ++ 0 :: free).take maxSize =
      text ++ 0 :: free.take (maxSize - text.length - 1) := by
    rw [List.take_append, List.take_of_length_le hmax.le]
    congr 1
    obtain ⟨k, hk⟩ := Nat.exists_eq_add_of_lt hmax
    have hrest : maxSize - text.length = k + 1 := by omega
    rw [hrest, List.take_succ_cons, Nat.add_sub_cancel]
  have hlength : (text ++ 0 :: free).length = text.length + free.length + 1 := by simp; omega
  rw [strnLenS, hsplit, takeWhile_word 0 htext]
  exact if_pos (Or.inl (by omega))

/-- The three outcomes of a concatenation that is granted `destMax` characters: a refusal when
they do not suffice, the joined text when the buffer suffices, and a fault in between. -/
theorem strCatS_text (htext : 0 ∉ text) {destMax : ℕ} (hmax : text.length < destMax)
    (source : UnicodeString) :
    strCatS (text ++ 0 :: free) destMax source false =
      if destMax ≤ text.length + source.chars.length then
        some (efiBufferTooSmall, text ++ 0 :: free)
      else (overwrite (text ++ 0 :: free) text.length (source.chars ++ [0])).map fun joined =>
        (efiSuccess, joined) := by
  rw [strCatS, strnLenS_text htext hmax, Option.bind_eq_bind, Option.bind_some]
  rw [if_neg (by omega)]
  by_cases hroom : destMax ≤ text.length + source.chars.length
  · rw [if_pos (by omega), if_pos hroom]
  · rw [if_neg (by omega), if_neg hroom, if_neg (by simp)]
    cases overwrite (text ++ 0 :: free) text.length (source.chars ++ [0]) <;> rfl

theorem strCatS_overlaps (htext : 0 ∉ text) {destMax : ℕ} (hmax : text.length < destMax)
    (source : UnicodeString) :
    ∃ status, strCatS (text ++ 0 :: free) destMax source true =
        some (status, text ++ 0 :: free) ∧ efiError status = true := by
  rw [strCatS, strnLenS_text htext hmax, Option.bind_eq_bind, Option.bind_some,
    if_neg (by omega)]
  by_cases hroom : destMax - text.length ≤ min source.chars.length (destMax - text.length)
  · exact ⟨efiBufferTooSmall, by rw [if_pos hroom], efiError_encodeError 5#32⟩
  · exact ⟨efiAccessDenied, by rw [if_neg hroom, if_pos rfl], efiError_encodeError 15#32⟩

/-! ## The whole request -/

theorem unicodeSPrintAsciiFormat_fresh (fresh : ℕ → UInt16) (text : List UInt16) :
    ∃ free, (text.take 251).length + free.length + 1 = maxUsbFileNameLength ∧
      unicodeSPrintAsciiFormat ((List.range maxUsbFileNameLength).map fresh)
          ((maxUsbFileNameLength - 4) * sizeofChar16) text =
        some (text.take 251 ++ 0 :: free, (text.take 251).length) := by
  have hnext := @overwrite_front UInt16 ((List.range maxUsbFileNameLength).map fresh)
    (text.take 251 ++ [0]) (by simp [maxUsbFileNameLength])
  refine ⟨((List.range maxUsbFileNameLength).map fresh).drop (text.take 251 ++ [0]).length, ?_, ?_⟩
  · simp [maxUsbFileNameLength]
  · have hsize : (maxUsbFileNameLength - 4) * sizeofChar16 / sizeofChar16 - 1 = 251 := rfl
    rw [unicodeSPrintAsciiFormat, hsize, hnext, Option.map_some]
    simp

/-- What is handed out, if anything is, is the name with its null in a buffer of 256 characters,
and nothing was written outside it. -/
def NamedOrFailed (name : List UInt16) (outcome : Option UsbRequest) : Prop :=
  ∃ request, outcome = some request ∧
    (efiError request.status = true ∨
      ∃ buffer free, request.fileName = some buffer ∧ buffer.chars = name ++ 0 :: free ∧
        buffer.chars.length = maxUsbFileNameLength ∧ name.length ≤ 255)

variable (fileExtension : UnicodeString) (overlaps : Bool) (info : SystemInformation) (address : ℕ)
    (pool : Ledger)

theorem finishUsbRequest_eq (hpos : 0 < text.length) (hlength : text.length ≤ 251) :
    finishUsbRequest fileExtension overlaps info address (text ++ 0 :: free) text.length pool =
      (strCatS (text.map fileNameChar ++ 0 :: free) 512 fileExtension overlaps).bind fun joined =>
        if efiError joined.1 then some (usbRequestError joined.1 (some address) info pool)
        else some ⟨efiSuccess, some ⟨address, joined.2⟩, pool⟩ := by
  have hkept : ¬ (text.length = 0 ∨ maxUsbFileNameLength - 4 ≤ text.length) := by
    unfold maxUsbFileNameLength
    omega
  rw [finishUsbRequest, if_neg hkept, replaceChars_append]
  rfl

theorem null_not_mem_map (text : List UInt16) : 0 ∉ text.map fileNameChar := by
  intro hmem
  obtain ⟨c, -, hc⟩ := List.mem_map.mp hmem
  exact fileNameChar_ne_zero c hc

theorem namedOrFailed_refused {status : EfiStatus} (herror : efiError status = true)
    (name chars : List UInt16) :
    NamedOrFailed name ((some (status, chars)).bind fun joined =>
      if efiError joined.1 then some (usbRequestError joined.1 (some address) info pool)
      else some ⟨efiSuccess, some ⟨address, joined.2⟩, pool⟩) := by
  rw [Option.bind_some, if_pos herror]
  exact ⟨_, rfl, Or.inl herror⟩

/-- The extension is written behind a name that, with its null, leaves `free` of the 256
characters: it fits, or the write leaves the buffer. -/
theorem namedOrFailed_joined_iff (hbuffer : text.length + free.length + 1 = 256) :
    NamedOrFailed (text ++ fileExtension.chars)
        (((overwrite (text ++ 0 :: free) text.length (fileExtension.chars ++ [0])).map
          fun joined => (efiSuccess, joined)).bind fun joined =>
            if efiError joined.1 then some (usbRequestError joined.1 (some address) info pool)
            else some ⟨efiSuccess, some ⟨address, joined.2⟩, pool⟩) ↔
      text.length + fileExtension.chars.length ≤ 255 := by
  have hnew : (fileExtension.chars ++ [0]).length = fileExtension.chars.length + 1 := by simp
  have hfree : (0 :: free).length = free.length + 1 := rfl
  by_cases hfits : text.length + fileExtension.chars.length ≤ 255
  · have hnext : overwrite (text ++ 0 :: free) text.length (fileExtension.chars ++ [0]) = some _ :=
      overwrite_next (by omega)
    refine iff_of_true ?_ hfits
    rw [hnext, Option.map_some, Option.bind_some, if_neg (by simp)]
    refine ⟨_, rfl, Or.inr ⟨_, (0 :: free).drop (fileExtension.chars ++ [0]).length, rfl,
      ?_, ?_, ?_⟩⟩
    · simp [List.append_assoc]
    · have hold : (text ++ 0 :: free).length = 256 := by
        rw [List.length_append, hfree]
        exact hbuffer
      exact (overwrite_length hnext).trans hold
    · rw [List.length_append]
      exact hfits
  · have hnone : overwrite (text ++ 0 :: free) text.length (fileExtension.chars ++ [0]) = none :=
      overwrite_next_eq_none (by rw [hnew, hfree]; omega)
    refine iff_of_false ?_ hfits
    rw [hnone, Option.map_none, Option.bind_none]
    rintro ⟨_, hsome, _⟩
    cases hsome

/-- With at most 251 characters in the buffer, the concatenation leaves the buffer exactly
when the characters together pass 255 but not the 511 that it was granted. -/
theorem finishUsbRequest_named (hpos : 0 < text.length) (hlength : text.length ≤ 251)
    (hbuffer : text.length + free.length + 1 = maxUsbFileNameLength) :
    NamedOrFailed (text.map fileNameChar ++ fileExtension.chars)
        (finishUsbRequest fileExtension overlaps info address (text ++ 0 :: free) text.length
          pool) ↔
      overlaps = true ∨ text.length + fileExtension.chars.length ≤ 255 ∨
        512 ≤ text.length + fileExtension.chars.length := by
  have hnull := null_not_mem_map text
  have hmap : (text.map fileNameChar).length = text.length := List.length_map _
  have hmax : (text.map fileNameChar).length < 512 := by omega
  rw [finishUsbRequest_eq fileExtension overlaps info address pool hpos hlength]
  cases overlaps with
  | true =>
      obtain ⟨status, hcat, herror⟩ := @strCatS_overlaps _ free hnull _ hmax fileExtension
      rw [hcat]
      exact iff_of_true (namedOrFailed_refused info address pool herror _ _) (Or.inl rfl)
  | false =>
      rw [strCatS_text hnull hmax, hmap, or_iff_right Bool.false_ne_true]
      by_cases hrefused : 512 ≤ text.length + fileExtension.chars.length
      · rw [if_pos hrefused]
        have herror : efiError efiBufferTooSmall = true := efiError_encodeError 5#32
        exact iff_of_true (namedOrFailed_refused info address pool herror _ _) (Or.inr hrefused)
      · have hjoined := @namedOrFailed_joined_iff (text.map fileNameChar) free fileExtension info
          address pool (by rw [hmap]; exact hbuffer)
        rw [hmap] at hjoined
        rw [if_neg hrefused, or_iff_left hrefused]
        exact hjoined

/-- The request fails or hands out the name in its buffer, with no write outside it, exactly
when it stops before the concatenation, the concatenation is refused, or the extension fits
behind the name. -/
theorem buildUsbRequest_named (fileExtension : UnicodeString) (calls : UsbRequestCalls)
    (pool : Ledger) :
    NamedOrFailed (calls.reads.baseName ++ fileExtension.chars)
        (buildUsbRequest fileExtension calls pool) ↔
      calls.reads.fails = true ∨ calls.allocated = false ∨ calls.overlaps = true ∨
        min 251 calls.reads.fullName.length + fileExtension.chars.length ≤ 255 ∨
          512 ≤ min 251 calls.reads.fullName.length + fileExtension.chars.length := by
  have herror := dfciGetSystemInfo_error calls.reads pool
  unfold buildUsbRequest
  cases hreads : calls.reads.fails with
  | true =>
      rw [hreads] at herror
      rw [if_pos herror]
      exact ⟨fun _ => Or.inl rfl, fun _ => ⟨_, rfl, Or.inl herror⟩⟩
  | false =>
      rw [hreads] at herror
      rw [if_neg (by rw [herror]; simp)]
      cases hallocated : calls.allocated with
      | false =>
          exact ⟨fun _ => Or.inr (Or.inl rfl),
            fun _ => ⟨_, rfl, Or.inl (efiError_encodeError 9#32)⟩⟩
      | true =>
          have hname := dfciGetSystemInfo_name hreads pool
          obtain ⟨free, hbuffer, hprinted⟩ :=
            unicodeSPrintAsciiFormat_fresh calls.fresh calls.reads.fullName
          have htake : (calls.reads.fullName.take 251).length =
              min 251 calls.reads.fullName.length := List.length_take
          have hpos : 0 < (calls.reads.fullName.take 251).length := by
            rw [htake]
            exact Nat.lt_min.mpr ⟨by decide, fullName_length_pos calls.reads⟩
          have hfinish := finishUsbRequest_named fileExtension calls.overlaps
            (dfciGetSystemInfo calls.reads pool).2.1 (dfciGetSystemInfo calls.reads pool).2.2.next
            (dfciFreeSystemInfo (dfciGetSystemInfo calls.reads pool).2.1
              (dfciGetSystemInfo calls.reads pool).2.2.grant)
            hpos (by omega) hbuffer
          rw [htake] at hfinish
          simp only [acquire_granted, hname, hprinted, Option.bind_eq_bind, Option.bind_some,
            SystemInfoReads.baseName, htake, hfinish, Bool.false_eq_true, Bool.true_eq_false,
            false_or]

def oneLetterReads : SystemInfoReads :=
  ⟨{ text := ⟨[83], by decide⟩ }, { text := ⟨[77], by decide⟩ }, { text := ⟨[80], by decide⟩ }⟩

def longExtension : UnicodeString := ⟨List.replicate 251 120, by decide⟩

set_option maxRecDepth 4000 in
/-- The five characters "S_P_M" and the 251 of the extension leave no room for the null. -/
theorem buildUsbRequest_longExtension :
    ¬ NamedOrFailed (oneLetterReads.baseName ++ longExtension.chars)
      (buildUsbRequest longExtension { reads := oneLetterReads } Ledger.empty) := by
  have hfault : buildUsbRequest longExtension { reads := oneLetterReads } Ledger.empty = none := rfl
  rw [hfault]
  rintro ⟨_, hsome, _⟩
  cases hsome

end MuTegra.Dfci.UsbName
