/- Unit: MuTegra/Smbios/Handles
   source: Tegra30Pkg/Drivers/SmBiosTableDxe/SmBiosTableDxe.c
   digest: The nine registration steps and the handles by which records refer to each other. -/

import MuTegra.Smbios.StringPack

/-!
The layouts of the structures are those of the SMBIOS specification; a template is known up to
the fields that the driver assigns. Handles are 16-bit values handed out by `Add`.
-/

set_option autoImplicit false
set_option relaxedAutoImplicit false

namespace MuTegra.Smbios.Handles

open MuTegra.Foundation.ByteFields MuTegra.Foundation.MachineWords MuTegra.Foundation.Ownership
open MuTegra.Uefi.Status MuTegra.Uefi.Strings
open MuTegra.Smbios.StringPack

/-! ## Templates -/

/-- A template with room for the fields up to `size`. -/
structure Table (size : ℕ) extends Template where
  room : size ≤ bytes.length

variable {size : ℕ} (t : Table size) {pos n : ℕ} (v : ℕ)

theorem Table.length_assigned (h : 4 ≤ pos ∧ pos + n ≤ size) :
    (setField t.bytes pos n v).length = t.bytes.length :=
  setField_length (h.2.trans t.room) v

theorem Table.lengthField_assigned (h : 4 ≤ pos ∧ pos + n ≤ size) :
    lengthField (setField t.bytes pos n v) = (setField t.bytes pos n v).length := by
  rw [t.length_assigned v h, lengthField,
    field_setField_before (h.2.trans t.room) v (show 1 + 1 ≤ pos by omega)]
  exact t.length

def Table.set {size : ℕ} (t : Table size) (pos n v : ℕ) (h : 4 ≤ pos ∧ pos + n ≤ size) :
    Table size where
  bytes := setField t.bytes pos n v
  header := t.header.trans_eq (t.length_assigned v h).symm
  length := t.lengthField_assigned v h
  room := t.room.trans_eq (t.length_assigned v h).symm

section Table

variable {size : ℕ} (t : Table size) {pos n v : ℕ} (h : 4 ≤ pos ∧ pos + n ≤ size)

theorem Table.field_set : field (t.set pos n v h).bytes pos n = v % 256 ^ n :=
  field_setField_self (h.2.trans t.room) v

theorem Table.field_set_before {pos' n' : ℕ} (hbefore : pos' + n' ≤ pos) :
    field (t.set pos n v h).bytes pos' n' = field t.bytes pos' n' :=
  field_setField_before (h.2.trans t.room) v hbefore

theorem Table.field_set_after {pos' n' : ℕ} (hafter : pos + n ≤ pos') :
    field (t.set pos n v h).bytes pos' n' = field t.bytes pos' n' :=
  field_setField_after (h.2.trans t.room) v hafter

end Table

/-- The offsets of the fields that are assigned at run time, with their widths. -/
def l1CacheHandle : ℕ := 0x1A
def l2CacheHandle : ℕ := 0x1C
def memoryArrayHandle17 : ℕ := 0x04
def size17 : ℕ := 0x0C
def startingAddress19 : ℕ := 0x04
def endingAddress19 : ℕ := 0x08
def memoryArrayHandle19 : ℕ := 0x0C

inductive TableName where
  | biosInfoType0
  | sysInfoType1
  | boardInfoType2
  | enclosureInfoType3
  | processorInfoType4
  | cacheInfoType7L1I
  | cacheInfoType7L1D
  | cacheInfoType7L2
  | phyMemArrayInfoType16
  | memDevInfoType17
  | memArrMapInfoType19
  deriving DecidableEq

structure Tables where
  biosInfoType0 : Template
  sysInfoType1 : Template
  boardInfoType2 : Template
  enclosureInfoType3 : Template
  processorInfoType4 : Table 0x20
  cacheInfoType7L1I : Template
  cacheInfoType7L1D : Template
  cacheInfoType7L2 : Template
  phyMemArrayInfoType16 : Template
  memDevInfoType17 : Table 0x0E
  memArrMapInfoType19 : Table 0x0E

/-- The templates as they are loaded: every reference that is assigned later is still 0. -/
structure LoadedTables extends Tables where
  l1Cache : field processorInfoType4.bytes l1CacheHandle 2 = 0
  l2Cache : field processorInfoType4.bytes l2CacheHandle 2 = 0
  memoryDevice : field memDevInfoType17.bytes memoryArrayHandle17 2 = 0
  memoryMap : field memArrMapInfoType19.bytes memoryArrayHandle19 2 = 0

/-! ## Strings -/

structure Pcds where
  firmwareVendor : SmbiosString
  firmwareVersionString : SmbiosString
  buildDate : SmbiosString
  systemVendor : SmbiosString
  systemModel : SmbiosString
  systemRetailModel : SmbiosString
  systemRetailSku : SmbiosString
  boardModel : SmbiosString
  processorModel : SmbiosString
  processorRetailModel : SmbiosString
  systemMemorySize : ℕ
  systemMemoryBase : ℕ

def notSpecified : SmbiosString := ⟨⟨ascii "Not Specified", by decide⟩, by decide, by decide⟩
def nvidia : SmbiosString := ⟨⟨ascii "Nvidia", by decide⟩, by decide, by decide⟩
def nvidiaCorporation : SmbiosString := ⟨⟨ascii "Nvidia Corporation", by decide⟩, by decide, by decide⟩
def l1Instruction : SmbiosString := ⟨⟨ascii "L1 Instruction", by decide⟩, by decide, by decide⟩
def l1Data : SmbiosString := ⟨⟨ascii "L1 Data", by decide⟩, by decide, by decide⟩
def l2 : SmbiosString := ⟨⟨ascii "L2", by decide⟩, by decide, by decide⟩
def builtin : SmbiosString := ⟨⟨ascii "Builtin", by decide⟩, by decide, by decide⟩
def bank0 : SmbiosString := ⟨⟨ascii "BANK 0", by decide⟩, by decide, by decide⟩

def cacheInfoType7Strings : List SmbiosString := [l1Instruction, l1Data, l2]

/-! ## Registration -/

/-- A record that `Add` took, with the template it was made of. -/
structure Registration where
  name : TableName
  handle : UInt16
  record : List UInt8

/-- The templates, what is registered, the calls of `LogSmbiosData` made and the pool. -/
structure World where
  tables : Tables
  registered : List Registration
  calls : ℕ
  pool : Ledger

/-- The registration that a call of `LogSmbiosData` made, if any. -/
def registrationOf (name : TableName) (logged : Logged) : List Registration :=
  match logged.handle, logged.record with
  | some handle, some record => [⟨name, handle, record⟩]
  | _, _ => []

/-- A call of `LogSmbiosData`: the caller's handle variable afterwards and the new world. -/
def register (outcome : ℕ → LogCalls) (name : TableName) (template : Template)
    (pack : List SmbiosString) (smbiosHandle : UInt16) (w : World) : Option (UInt16 × World) :=
  (logSmbiosData template (some pack) (outcome w.calls) w.pool).map fun logged =>
    (logged.handle.getD smbiosHandle,
      { w with
        registered := w.registered ++ registrationOf name logged
        calls := w.calls + 1
        pool := logged.pool })

def registerOnly (outcome : ℕ → LogCalls) (name : TableName) (template : Template)
    (pack : List SmbiosString) (w : World) : Option World :=
  (register outcome name template pack 0 w).map Prod.snd

variable (pcds : Pcds) (outcome : ℕ → LogCalls)

def biosInfoUpdateSmbiosType0 (w : World) : Option World :=
  registerOnly outcome .biosInfoType0 w.tables.biosInfoType0
    [pcds.firmwareVendor, pcds.firmwareVersionString, pcds.buildDate] w

def sysInfoUpdateSmbiosType1 (w : World) : Option World :=
  registerOnly outcome .sysInfoType1 w.tables.sysInfoType1
    [pcds.systemVendor, pcds.systemModel, pcds.systemRetailModel, notSpecified,
      pcds.systemRetailSku, notSpecified] w

def boardInfoUpdateSmbiosType2 (w : World) : Option World :=
  registerOnly outcome .boardInfoType2 w.tables.boardInfoType2
    [pcds.systemVendor, pcds.boardModel, notSpecified, notSpecified, notSpecified, notSpecified] w

def enclosureInfoUpdateSmbiosType3 (w : World) : Option World :=
  registerOnly outcome .enclosureInfoType3 w.tables.enclosureInfoType3
    [pcds.systemVendor, notSpecified, notSpecified, notSpecified] w

def processorInfoUpdateSmbiosType4 (w : World) : Option World :=
  registerOnly outcome .processorInfoType4 w.tables.processorInfoType4.toTemplate
    [nvidia, nvidiaCorporation, pcds.processorModel, pcds.processorRetailModel] w

def World.setProcessorInfo (w : World) (pos : ℕ) (h : 4 ≤ pos ∧ pos + 2 ≤ 0x20)
    (handle : UInt16) : World :=
  { w with
    tables := { w.tables with
      processorInfoType4 := w.tables.processorInfoType4.set pos 2 handle.toNat h } }

/-- A cache is registered and its handle, now in the variable, goes to the processor. -/
def registerCache (name : TableName) (template : Template) (pos : ℕ)
    (h : 4 ≤ pos ∧ pos + 2 ≤ 0x20) (smbiosHandle : UInt16) (w : World) :
    Option (UInt16 × World) :=
  (register outcome name template cacheInfoType7Strings smbiosHandle w).map fun logged =>
    (logged.1, logged.2.setProcessorInfo pos h logged.1)

/-- `smbiosHandle` is the variable before its first assignment. -/
def cacheInfoUpdateSmbiosType7 (smbiosHandle : UInt16) (w : World) : Option World := do
  let w ← registerOnly outcome .cacheInfoType7L1I w.tables.cacheInfoType7L1I
    cacheInfoType7Strings w
  let (smbiosHandle, w) ← registerCache outcome .cacheInfoType7L1D w.tables.cacheInfoType7L1D
    l1CacheHandle (by decide) smbiosHandle w
  let (_, w) ← registerCache outcome .cacheInfoType7L2 w.tables.cacheInfoType7L2
    l2CacheHandle (by decide) smbiosHandle w
  some w

def World.setMemDevInfo (w : World) (pos v : ℕ) (h : 4 ≤ pos ∧ pos + 2 ≤ 0x0E) : World :=
  { w with
    tables := { w.tables with
      memDevInfoType17 := w.tables.memDevInfoType17.set pos 2 v h } }

/-- `memArraySmbiosHande` is the variable before its assignment. -/
def phyMemArrayInfoUpdateSmbiosType16 (memArraySmbiosHande : UInt16) (w : World) :
    Option World := do
  let (memArraySmbiosHande, w) ← register outcome .phyMemArrayInfoType16
    w.tables.phyMemArrayInfoType16 [] memArraySmbiosHande w
  some (w.setMemDevInfo memoryArrayHandle17 memArraySmbiosHande.toNat (by decide))

def memDevInfoUpdateSmbiosType17 (w : World) : Option World :=
  let w := w.setMemDevInfo size17 (pcds.systemMemorySize / 0x100000) (by decide)
  registerOnly outcome .memDevInfoType17 w.tables.memDevInfoType17.toTemplate [builtin, bank0] w

def World.setMemArrMapInfo (w : World) (pos v : ℕ) (h : 4 ≤ pos ∧ pos + 4 ≤ 0x0E) : World :=
  { w with
    tables := { w.tables with
      memArrMapInfoType19 := w.tables.memArrMapInfoType19.set pos 4 v h } }

def memArrMapInfoUpdateSmbiosType19 (w : World) : Option World :=
  let w := w.setMemArrMapInfo startingAddress19 (pcds.systemMemoryBase / 1024) (by decide)
  let lastByte := toUint64
    (pcds.systemMemorySize + pcds.systemMemoryBase + 18446744073709551615)
  let w := w.setMemArrMapInfo endingAddress19 (lastByte / 1024) (by decide)
  registerOnly outcome .memArrMapInfoType19 w.tables.memArrMapInfoType19.toTemplate [] w

def smBiosTableDxeInitialize (smbiosHandle memArraySmbiosHande : UInt16) (w : World) :
    Option World := do
  let w ← biosInfoUpdateSmbiosType0 pcds outcome w
  let w ← sysInfoUpdateSmbiosType1 pcds outcome w
  let w ← boardInfoUpdateSmbiosType2 pcds outcome w
  let w ← enclosureInfoUpdateSmbiosType3 pcds outcome w
  let w ← processorInfoUpdateSmbiosType4 pcds outcome w
  let w ← cacheInfoUpdateSmbiosType7 outcome smbiosHandle w
  let w ← phyMemArrayInfoUpdateSmbiosType16 outcome memArraySmbiosHande w
  let w ← memDevInfoUpdateSmbiosType17 pcds outcome w
  memArrMapInfoUpdateSmbiosType19 pcds outcome w

/-! ## A run in which every record is taken -/

def assigning (handles : ℕ → UInt16) : ℕ → LogCalls := fun k => { handle := handles k }

/-- What the call with number `k` registers. -/
def taken (handles : ℕ → UInt16) (k : ℕ) (name : TableName) (template : Template)
    (pack : List SmbiosString) : Registration :=
  ⟨name, handles k, template.bytes ++ stringArea pack⟩

/-- The call with number `k` registers a template with some strings, and then `assign` is done
to the templates. -/
def Enters (handles : ℕ → UInt16) (k : ℕ) (name : TableName) (template : Template)
    (assign : Tables → Tables) (w w' : World) : Prop :=
  w'.tables = assign w.tables ∧ w'.calls = k + 1 ∧
    ∃ pack, w'.registered = w.registered ++ [taken handles k name template pack]

variable (handles : ℕ → UInt16) (name : TableName) (template : Template) {pack : List SmbiosString}
    {w : World} {k : ℕ}

theorem register_assigning (hcalls : w.calls = k) (hcount : pack.length ≤ 255)
    (smbiosHandle : UInt16) :
    ∃ w', register (assigning handles) name template pack smbiosHandle w = some (handles k, w') ∧
      Enters handles k name template id w w' := by
  subst hcalls
  have hlogged := logSmbiosData_eq template pack hcount (assigning handles w.calls) w.pool
  have hran : efiError (assigning handles w.calls).locateProtocol = false := efiError_success
  have hgranted : (assigning handles w.calls).allocated = true := rfl
  have hadded : (assigning handles w.calls).add = efiSuccess := rfl
  rw [hran, hgranted, hadded, if_neg (by simp), if_neg (by simp), if_pos rfl] at hlogged
  rw [register, hlogged]
  exact ⟨_, rfl, rfl, rfl, pack, rfl⟩

theorem registerOnly_assigning (hcalls : w.calls = k) (hcount : pack.length ≤ 255) :
    ∃ w', registerOnly (assigning handles) name template pack w = some w' ∧
      Enters handles k name template id w w' := by
  obtain ⟨w', hw', hentered⟩ := register_assigning handles name template hcalls hcount 0
  refine ⟨w', ?_, hentered⟩
  rw [registerOnly, hw', Option.map_some]

@[simp] theorem taken_name (handles : ℕ → UInt16) (k : ℕ) (name : TableName)
    (template : Template) (pack : List SmbiosString) :
    (taken handles k name template pack).name = name := rfl

theorem field_taken (handles : ℕ → UInt16) (k : ℕ) (name : TableName) {size : ℕ}
    (table : Table size) (pack : List SmbiosString) {pos : ℕ} (h : pos + 2 ≤ size) :
    field (taken handles k name table.toTemplate pack).record pos 2 = field table.bytes pos 2 :=
  field_append_left (h.trans table.room) _

/-! ## References -/

/-- Every record of one kind names, at an offset, the handle of every record of another. -/
def RefersTo (registered : List Registration) (source : TableName) (pos : ℕ)
    (target : TableName) : Prop :=
  ∀ r ∈ registered, ∀ t ∈ registered, r.name = source → t.name = target →
    field r.record pos 2 = t.handle.toNat

/-- The references are the handles of the records they are meant for. -/
structure CrossReferences (registered : List Registration) : Prop where
  l1Cache : RefersTo registered .processorInfoType4 l1CacheHandle .cacheInfoType7L1D
  l2Cache : RefersTo registered .processorInfoType4 l2CacheHandle .cacheInfoType7L2
  memoryDevice : RefersTo registered .memDevInfoType17 memoryArrayHandle17 .phyMemArrayInfoType16
  memoryMap : RefersTo registered .memArrMapInfoType19 memoryArrayHandle19 .phyMemArrayInfoType16

section Run

variable (pcds : Pcds) (handles : ℕ → UInt16) {w : World} {k : ℕ}

theorem unchanged_assigning (update : World → Option World) {name : TableName}
    {template : World → Template} {pack : List SmbiosString}
    (hupdate : ∀ w, update w = registerOnly (assigning handles) name (template w) pack w)
    (hcount : pack.length ≤ 255) (hcalls : w.calls = k) :
    ∃ w', update w = some w' ∧ Enters handles k name (template w) id w w' := by
  rw [hupdate]
  exact registerOnly_assigning handles name (template w) hcalls hcount

theorem registerCache_assigning (name : TableName) (template : Template) {pos : ℕ}
    (h : 4 ≤ pos ∧ pos + 2 ≤ 0x20) (smbiosHandle : UInt16) (hcalls : w.calls = k) :
    ∃ w', registerCache (assigning handles) name template pos h smbiosHandle w =
        some (handles k, w') ∧
      Enters handles k name template (fun tables => { tables with
        processorInfoType4 := tables.processorInfoType4.set pos 2 (handles k).toNat h }) w w' := by
  obtain ⟨w', hw', htables, hcalls', hregistered⟩ := register_assigning handles name template
    hcalls (show cacheInfoType7Strings.length ≤ 255 by decide) smbiosHandle
  refine ⟨w'.setProcessorInfo pos h (handles k), ?_, ?_, hcalls', hregistered⟩
  · rw [registerCache, hw', Option.map_some]
  · simp only [World.setProcessorInfo, htables, id]

theorem phyMemArrayInfo_assigning (memArraySmbiosHande : UInt16) (hcalls : w.calls = k) :
    ∃ w', phyMemArrayInfoUpdateSmbiosType16 (assigning handles) memArraySmbiosHande w = some w' ∧
      Enters handles k .phyMemArrayInfoType16 w.tables.phyMemArrayInfoType16
        (fun tables => { tables with
          memDevInfoType17 := tables.memDevInfoType17.set memoryArrayHandle17 2 (handles k).toNat
            (by decide) }) w w' := by
  obtain ⟨w', hw', htables, hcalls', hregistered⟩ := register_assigning handles
    .phyMemArrayInfoType16 w.tables.phyMemArrayInfoType16 hcalls
    (show ([] : List SmbiosString).length ≤ 255 by simp) memArraySmbiosHande
  refine ⟨w'.setMemDevInfo memoryArrayHandle17 (handles k).toNat (by decide), ?_, ?_, hcalls',
    hregistered⟩
  · rw [phyMemArrayInfoUpdateSmbiosType16, hw']
    rfl
  · simp only [World.setMemDevInfo, htables, id]

theorem memDevInfo_assigning (hcalls : w.calls = k) :
    ∃ w', memDevInfoUpdateSmbiosType17 pcds (assigning handles) w = some w' ∧
      Enters handles k .memDevInfoType17
        (w.tables.memDevInfoType17.set size17 2 (pcds.systemMemorySize / 0x100000)
          (by decide)).toTemplate
        (fun tables => { tables with
          memDevInfoType17 := tables.memDevInfoType17.set size17 2
            (pcds.systemMemorySize / 0x100000) (by decide) }) w w' :=
  registerOnly_assigning handles _ _ hcalls (by simp)

theorem memArrMapInfo_assigning (hcalls : w.calls = k) :
    ∃ w' starting ending assign,
      memArrMapInfoUpdateSmbiosType19 pcds (assigning handles) w = some w' ∧
        Enters handles k .memArrMapInfoType19
          ((w.tables.memArrMapInfoType19.set startingAddress19 4 starting (by decide)).set
            endingAddress19 4 ending (by decide)).toTemplate assign w w' := by
  obtain ⟨w', hw', hentered⟩ := registerOnly_assigning handles .memArrMapInfoType19
    ((w.tables.memArrMapInfoType19.set startingAddress19 4 _ (by decide)).set
      endingAddress19 4 _ (by decide)).toTemplate
    (show ((w.setMemArrMapInfo startingAddress19 (pcds.systemMemoryBase / 1024)
      (by decide)).setMemArrMapInfo endingAddress19 (toUint64 (pcds.systemMemorySize +
        pcds.systemMemoryBase + 18446744073709551615) / 1024) (by decide)).calls = k from hcalls)
    (show ([] : List SmbiosString).length ≤ 255 by simp)
  exact ⟨w', _, _, fun _ => _, hw', hentered⟩

def handedOutTo : List (TableName × UInt16) :=
  [(.biosInfoType0, handles 0), (.sysInfoType1, handles 1), (.boardInfoType2, handles 2),
    (.enclosureInfoType3, handles 3), (.processorInfoType4, handles 4),
    (.cacheInfoType7L1I, handles 5), (.cacheInfoType7L1D, handles 6),
    (.cacheInfoType7L2, handles 7), (.phyMemArrayInfoType16, handles 8),
    (.memDevInfoType17, handles 9), (.memArrMapInfoType19, handles 10)]

/-- The eleven records of a run and what their references say: of the four only the memory
device's is assigned before its template is copied. -/
structure Outcome (registered : List Registration) : Prop where
  handedOut : registered.map (fun r => (r.name, r.handle)) = handedOutTo handles
  l1Cache : ∀ r ∈ registered, r.name = .processorInfoType4 → field r.record l1CacheHandle 2 = 0
  l2Cache : ∀ r ∈ registered, r.name = .processorInfoType4 → field r.record l2CacheHandle 2 = 0
  memoryDevice : ∀ r ∈ registered, r.name = .memDevInfoType17 →
    field r.record memoryArrayHandle17 2 = (handles 8).toNat
  memoryMap : ∀ r ∈ registered, r.name = .memArrMapInfoType19 →
    field r.record memoryArrayHandle19 2 = 0

/-- The size that is set later leaves the reference of the memory device as it is. -/
theorem field_memoryDevice (table : Table 0x0E) (handle : UInt16) (size : ℕ) :
    field ((table.set memoryArrayHandle17 2 handle.toNat (by decide)).set size17 2 size
      (by decide)).bytes memoryArrayHandle17 2 = handle.toNat := by
  rw [Table.field_set_before _ _ (by decide), Table.field_set]
  exact Nat.mod_eq_of_lt handle.toNat_lt

theorem field_memoryMap (table : Table 0x0E) (starting ending : ℕ) :
    field ((table.set startingAddress19 4 starting (by decide)).set endingAddress19 4 ending
      (by decide)).bytes memoryArrayHandle19 2 = field table.bytes memoryArrayHandle19 2 := by
  rw [Table.field_set_after _ _ (by decide), Table.field_set_after _ _ (by decide)]

theorem smBiosTableDxeInitialize_outcome (loaded : LoadedTables)
    (smbiosHandle memArraySmbiosHande : UInt16) (pool : Ledger) :
    ∃ w, smBiosTableDxeInitialize pcds (assigning handles) smbiosHandle memArraySmbiosHande
        ⟨loaded.toTables, [], 0, pool⟩ = some w ∧ Outcome handles w.registered := by
  obtain ⟨w₀, h₀, t₀, c₀, p₀, r₀⟩ := unchanged_assigning handles
    (biosInfoUpdateSmbiosType0 pcds (assigning handles)) (fun _ => rfl) (by simp)
    (show (World.mk loaded.toTables [] 0 pool).calls = 0 from rfl)
  obtain ⟨w₁, h₁, t₁, c₁, p₁, r₁⟩ := unchanged_assigning handles
    (sysInfoUpdateSmbiosType1 pcds (assigning handles)) (fun _ => rfl) (by simp) c₀
  obtain ⟨w₂, h₂, t₂, c₂, p₂, r₂⟩ := unchanged_assigning handles
    (boardInfoUpdateSmbiosType2 pcds (assigning handles)) (fun _ => rfl) (by simp) c₁
  obtain ⟨w₃, h₃, t₃, c₃, p₃, r₃⟩ := unchanged_assigning handles
    (enclosureInfoUpdateSmbiosType3 pcds (assigning handles)) (fun _ => rfl) (by simp) c₂
  obtain ⟨w₄, h₄, t₄, c₄, p₄, r₄⟩ := unchanged_assigning handles
    (processorInfoUpdateSmbiosType4 pcds (assigning handles)) (fun _ => rfl) (by simp) c₃
  obtain ⟨w₅, h₅, t₅, c₅, p₅, r₅⟩ := registerOnly_assigning handles .cacheInfoType7L1I
    w₄.tables.cacheInfoType7L1I c₄ (show cacheInfoType7Strings.length ≤ 255 by decide)
  obtain ⟨w₆, h₆, t₆, c₆, p₆, r₆⟩ := registerCache_assigning handles .cacheInfoType7L1D
    w₅.tables.cacheInfoType7L1D (show 4 ≤ l1CacheHandle ∧ l1CacheHandle + 2 ≤ 0x20 by decide)
    smbiosHandle c₅
  obtain ⟨w₇, h₇, t₇, c₇, p₇, r₇⟩ := registerCache_assigning handles .cacheInfoType7L2
    w₆.tables.cacheInfoType7L2 (show 4 ≤ l2CacheHandle ∧ l2CacheHandle + 2 ≤ 0x20 by decide)
    (handles 6) c₆
  obtain ⟨w₈, h₈, t₈, c₈, p₈, r₈⟩ := phyMemArrayInfo_assigning handles memArraySmbiosHande c₇
  obtain ⟨w₉, h₉, t₉, c₉, p₉, r₉⟩ := memDevInfo_assigning pcds handles c₈
  obtain ⟨w₁₀, starting, ending, _, h₁₀, _, _, p₁₀, r₁₀⟩ := memArrMapInfo_assigning pcds handles c₉
  have hrun : smBiosTableDxeInitialize pcds (assigning handles) smbiosHandle memArraySmbiosHande
      ⟨loaded.toTables, [], 0, pool⟩ = some w₁₀ := by
    simp only [smBiosTableDxeInitialize, cacheInfoUpdateSmbiosType7, h₀, h₁, h₂, h₃, h₄, h₅, h₆,
      h₇, h₈, h₉, h₁₀, Option.bind_eq_bind, Option.bind_some]
  have hprocessor : w₃.tables.processorInfoType4 = loaded.processorInfoType4 := by
    rw [t₃, t₂, t₁, t₀]
    rfl
  have hdevice : w₈.tables.memDevInfoType17 = loaded.memDevInfoType17.set memoryArrayHandle17 2
      (handles 8).toNat (by decide) := by
    rw [t₈, t₇, t₆, t₅, t₄, t₃, t₂, t₁, t₀]
    rfl
  have hmap : w₉.tables.memArrMapInfoType19 = loaded.memArrMapInfoType19 := by
    rw [t₉, t₈, t₇, t₆, t₅, t₄, t₃, t₂, t₁, t₀]
    rfl
  rw [hprocessor] at r₄
  rw [hdevice] at r₉
  rw [hmap] at r₁₀
  rw [r₉, r₈, r₇, r₆, r₅, r₄, r₃, r₂, r₁, r₀] at r₁₀
  refine ⟨w₁₀, hrun, ?_⟩
  rw [r₁₀]
  constructor
  · rfl
  · have hfield := field_taken handles 4 .processorInfoType4 loaded.processorInfoType4 p₄
      (show l1CacheHandle + 2 ≤ 0x20 by decide)
    simpa using hfield.trans loaded.l1Cache
  · have hfield := field_taken handles 4 .processorInfoType4 loaded.processorInfoType4 p₄
      (show l2CacheHandle + 2 ≤ 0x20 by decide)
    simpa using hfield.trans loaded.l2Cache
  · have hfield := (field_taken handles 9 .memDevInfoType17 _ p₉
      (show memoryArrayHandle17 + 2 ≤ 0x0E by decide)).trans (field_memoryDevice
        loaded.memDevInfoType17 (handles 8) (pcds.systemMemorySize / 0x100000))
    simpa using hfield
  · have hfield := (field_taken handles 10 .memArrMapInfoType19 _ p₁₀
      (show memoryArrayHandle19 + 2 ≤ 0x0E by decide)).trans (field_memoryMap
        loaded.memArrMapInfoType19 starting ending)
    simpa using hfield.trans loaded.memoryMap

section Outcome

variable {handles} {registered : List Registration}

theorem Outcome.exists_registered (h : Outcome handles registered) (name : TableName)
    (handle : UInt16) (hmem : (name, handle) ∈ handedOutTo handles) :
    ∃ r ∈ registered, r.name = name ∧ r.handle = handle := by
  rw [← h.handedOut] at hmem
  obtain ⟨r, hr, heq⟩ := List.mem_map.mp hmem
  cases heq
  exact ⟨r, hr, rfl, rfl⟩

theorem Outcome.memoryArray_handle (h : Outcome handles registered) {r : Registration}
    (hr : r ∈ registered) (hname : r.name = .phyMemArrayInfoType16) : r.handle = handles 8 := by
  have hmem : (r.name, r.handle) ∈ handedOutTo handles := by
    rw [← h.handedOut]
    exact List.mem_map.mpr ⟨r, hr, rfl⟩
  rw [hname] at hmem
  simpa [handedOutTo] using hmem

theorem Outcome.not_crossReferences (h : Outcome handles registered)
    (hdistinct : handles 6 ≠ handles 7) : ¬ CrossReferences registered := by
  intro hrefs
  obtain ⟨cpu, hcpu, hname, -⟩ := h.exists_registered .processorInfoType4 (handles 4)
    (by simp [handedOutTo])
  obtain ⟨d, hd, hdname, hdhandle⟩ := h.exists_registered .cacheInfoType7L1D (handles 6)
    (by simp [handedOutTo])
  obtain ⟨c, hc, hcname, hchandle⟩ := h.exists_registered .cacheInfoType7L2 (handles 7)
    (by simp [handedOutTo])
  have hl1 := hrefs.l1Cache cpu hcpu d hd hname hdname
  have hl2 := hrefs.l2Cache cpu hcpu c hc hname hcname
  rw [h.l1Cache cpu hcpu hname, hdhandle] at hl1
  rw [h.l2Cache cpu hcpu hname, hchandle] at hl2
  exact hdistinct (UInt16.toNat_inj.mp (hl1.symm.trans hl2))

end Outcome

/-- For all distinct handles that `Add` hands out, the references do not all name the records
they are meant for; the memory device's does. -/
theorem smBiosTableDxeInitialize_references (loaded : LoadedTables)
    (smbiosHandle memArraySmbiosHande : UInt16) (pool : Ledger)
    (hdistinct : ∀ i < 11, ∀ j < 11, handles i = handles j → i = j) :
    ∃ w, smBiosTableDxeInitialize pcds (assigning handles) smbiosHandle memArraySmbiosHande
        ⟨loaded.toTables, [], 0, pool⟩ = some w ∧
      RefersTo w.registered .memDevInfoType17 memoryArrayHandle17 .phyMemArrayInfoType16 ∧
        ¬ CrossReferences w.registered := by
  obtain ⟨w, hrun, houtcome⟩ := smBiosTableDxeInitialize_outcome pcds handles loaded smbiosHandle
    memArraySmbiosHande pool
  refine ⟨w, hrun, ?_, houtcome.not_crossReferences ?_⟩
  · intro r hr t ht hrname htname
    rw [houtcome.memoryDevice r hr hrname, houtcome.memoryArray_handle ht htname]
  · intro heq
    cases hdistinct 6 (by decide) 7 (by decide) heq

end Run

def plainTables : LoadedTables where
  biosInfoType0 := bareTemplate
  sysInfoType1 := bareTemplate
  boardInfoType2 := bareTemplate
  enclosureInfoType3 := bareTemplate
  processorInfoType4 := ⟨⟨4 :: 0x20 :: List.replicate 30 0, by decide, by decide⟩, by decide⟩
  cacheInfoType7L1I := bareTemplate
  cacheInfoType7L1D := bareTemplate
  cacheInfoType7L2 := bareTemplate
  phyMemArrayInfoType16 := bareTemplate
  memDevInfoType17 := ⟨⟨17 :: 0x0E :: List.replicate 12 0, by decide, by decide⟩, by decide⟩
  memArrMapInfoType19 := ⟨⟨19 :: 0x0E :: List.replicate 12 0, by decide, by decide⟩, by decide⟩
  l1Cache := by decide
  l2Cache := by decide
  memoryDevice := by decide
  memoryMap := by decide

def plainPcds : Pcds where
  firmwareVendor := notSpecified
  firmwareVersionString := notSpecified
  buildDate := notSpecified
  systemVendor := notSpecified
  systemModel := notSpecified
  systemRetailModel := notSpecified
  systemRetailSku := notSpecified
  boardModel := notSpecified
  processorModel := notSpecified
  processorRetailModel := notSpecified
  systemMemorySize := 0x80000000
  systemMemoryBase := 0x80000000

def countingHandles (k : ℕ) : UInt16 := UInt16.ofNat (k + 1)

theorem smBiosTableDxeInitialize_references_counting :
    ∃ w, smBiosTableDxeInitialize plainPcds (assigning countingHandles) 0 0
        ⟨plainTables.toTables, [], 0, Ledger.empty⟩ = some w ∧
      RefersTo w.registered .memDevInfoType17 memoryArrayHandle17 .phyMemArrayInfoType16 ∧
        ¬ CrossReferences w.registered :=
  smBiosTableDxeInitialize_references plainPcds countingHandles plainTables 0 0 Ledger.empty
    (by decide)

/-- With the handles 1 to 11 the processor's references stay 0. -/
theorem countingHandles_not_crossReferences :
    (∀ i < 11, ∀ j < 11, countingHandles i = countingHandles j → i = j) ∧
      ∃ w, smBiosTableDxeInitialize plainPcds (assigning countingHandles) 0 0
          ⟨plainTables.toTables, [], 0, Ledger.empty⟩ = some w ∧
        ¬ CrossReferences w.registered := by
  obtain ⟨w, hrun, houtcome⟩ := smBiosTableDxeInitialize_outcome plainPcds countingHandles
    plainTables 0 0 Ledger.empty
  exact ⟨by decide, w, hrun, houtcome.not_crossReferences (by decide)⟩

end MuTegra.Smbios.Handles
