/- Unit: MuTegra/BootManager/ReadyToBoot
   source: NvidiaPkg/Library/DeviceBootManagerLib/DeviceBootManagerLib.c
   digest: Boot options as stored, the test for the internal shell, ready-to-boot signals. -/

import MuTegra.BootManager.BootLock
import MuTegra.BootManager.PriorityBoot
import MuTegra.BootPolicy.LoadImage
import MuTegra.Foundation.RecordWalks

/-!
A boot option is stored as its attributes, the length of its path, its description, the
path and data of its own. The test reads it without a bound: it relies on the two ends
that the description and the path have.
-/

set_option autoImplicit false
set_option relaxedAutoImplicit false

namespace MuTegra.BootManager.ReadyToBoot

open MuTegra.Foundation.ByteFields MuTegra.Foundation.Loops MuTegra.Foundation.Records
open MuTegra.Foundation.RecordWalks MuTegra.Foundation.Runs
open MuTegra.Uefi.Status MuTegra.Uefi.Strings
open MuTegra.BootPolicy.DevicePath
open MuTegra.BootManager.BootLock (optionName)
open MuTegra.BootManager.PriorityBoot

/-! ## The test -/

structure ShellFiles where
  pcdShellFile : Guid
  uefiShellFile : Guid

/-- The variable `BootCurrent` when it can be read, the other global variables, and the memory
with the place of the buffer that an option is read into. -/
structure Globals where
  bootCurrent : Option UInt16
  stored : List UInt16 → Option (List UInt8)
  memory : Memory
  buffer : ℕ

def strSize (mem : Memory) (fuel str : ℕ) : Option ℕ :=
  loop (fun p => some (if mem p = 0 ∧ mem (p + 1) = 0 then .inr (p + 2 - str) else .inl (p + 2)))
    fuel str

/-- The loop over the nodes, with the node before the one at hand. -/
def lastDeviceNode (lib : DevicePathLib) (mem : Memory) (fuel devicePath : ℕ) : Option ℕ :=
  loop (fun node : ℕ × ℕ => some (
    if lib.isDevicePathEnd mem node.1 then .inr node.2
    else .inl (lib.nextDevicePathNode mem node.1, node.1))) fuel (devicePath, devicePath)

def nameGuidFromFwVolDevicePathNode (lib : DevicePathLib) (mem : Memory) (node : ℕ) : Option ℕ :=
  if lib.devicePathType mem node = mediaDevicePath ∧
      lib.devicePathSubType mem node = mediaPiwgFwFileDp then some (node + 4)
  else none

def compareGuid (mem : Memory) (guidPoint : ℕ) (guid : Guid) : Bool :=
  bytesAt mem guidPoint 16 == guid.bytes

def isShellGuid (files : ShellFiles) (mem : Memory) (guidPoint : Option ℕ) : Bool :=
  guidPoint.any fun guidPoint =>
    compareGuid mem guidPoint files.pcdShellFile || compareGuid mem guidPoint files.uefiShellFile

def optionIsInternalShell (lib : DevicePathLib) (files : ShellFiles) (mem : Memory)
    (fuel bootOption : ℕ) : Option Bool := do
  let ptr := bootOption + 4 + 2
  let size ← strSize mem fuel ptr
  let node ← lastDeviceNode lib mem fuel (ptr + size)
  some (isShellGuid files mem (nameGuidFromFwVolDevicePathNode lib mem node))

def bootCurrentIsInternalShell (lib : DevicePathLib) (files : ShellFiles) (fuel : ℕ)
    (globals : Globals) : Option Bool :=
  match globals.bootCurrent with
  | none => some false
  | some bootCurrent =>
      match globals.stored (optionName bootCurrent) with
      | none => some false
      | some [] => some false
      | some data =>
          optionIsInternalShell lib files (blit globals.memory globals.buffer data) fuel
            globals.buffer

/-! ## The signal -/

inductive ReadyAction where
  | connectAll
  | lowResolution
  | startNetworking
  | printMemoryMap
  | updateFacsHardwareSignature
  deriving DecidableEq, Repr

/-- What a signal finds: the variables, the two settings and the status that one is read with. -/
structure ReadySignal where
  globals : Globals
  pcdLowResolutionInternalShell : Bool
  settingStatus : EfiStatus
  startNetworkStack : Bool

def ReadySignal.shellActions (signal : ReadySignal) (isShell : Bool) : List ReadyAction :=
  if isShell then
    .connectAll :: if signal.pcdLowResolutionInternalShell then [.lowResolution] else []
  else []

def ReadySignal.firstActions (signal : ReadySignal) : List ReadyAction :=
  (if efiError signal.settingStatus then []
    else if signal.startNetworkStack then [.startNetworking, .connectAll] else []) ++
    [.printMemoryMap, .updateFacsHardwareSignature]

/-- `PostReadyToBoot`, from its static flag to what it does and the flag. -/
def postReadyToBoot (lib : DevicePathLib) (files : ShellFiles) (fuel : ℕ) (firstPass : Bool)
    (signal : ReadySignal) : Option (List ReadyAction) × Bool :=
  match bootCurrentIsInternalShell lib files fuel signal.globals with
  | none => (none, firstPass)
  | some isShell =>
      let actions := signal.shellActions isShell
      if firstPass then (some (actions ++ signal.firstActions), false)
      else (some actions, false)

/-! ## Options as they are stored -/

def isFwFileNode (node : List UInt8) : Bool :=
  node[0]? == some mediaDevicePath && node[1]? == some mediaPiwgFwFileDp

/-- An option with the nodes of its path; the node of a firmware file has a whole GUID. -/
structure StoredOption where
  attributes : ℕ
  description : UnicodeString
  nodes : List (List UInt8)
  optionalData : List UInt8
  records : ∀ node ∈ nodes, IsRecord devicePathLayout node
  guids : ∀ node ∈ nodes, isFwFileNode node = true → node.length = 20

def wideBytes (chars : List UInt16) : List UInt8 := chars.flatMap fun c => encodeLe 2 c.toNat

def StoredOption.encode (o : StoredOption) : List UInt8 :=
  encodeLe 4 o.attributes ++ encodeLe 2 (o.nodes.flatten.length + 4) ++
    wideBytes o.description.chars ++ [0, 0] ++ o.nodes.flatten ++ endDevicePath ++ o.optionalData

def StoredOption.bootsShell (files : ShellFiles) (o : StoredOption) : Bool :=
  o.nodes.getLast?.any fun node =>
    isFwFileNode node &&
      (node.drop 4 == files.pcdShellFile.bytes || node.drop 4 == files.uefiShellFile.bytes)

def Globals.current (globals : Globals) : Option (List UInt8) :=
  globals.bootCurrent.bind fun bootCurrent => globals.stored (optionName bootCurrent)

/-! ## Reading an option -/

variable {mem : Memory} {a fuel : ℕ}

theorem holds_pair {x y : UInt8} (h : Holds mem a [x, y]) : mem a = x ∧ mem (a + 1) = y := by
  have bytes : [mem a, mem (a + 1)] = [x, y] := h
  simpa using bytes

theorem wideBytes_cons (c : UInt16) (chars : List UInt16) :
    wideBytes (c :: chars) = encodeLe 2 c.toNat ++ wideBytes chars := rfl

theorem wideBytes_length (chars : List UInt16) : (wideBytes chars).length = 2 * chars.length := by
  induction chars with
  | nil => rfl
  | cons c chars ih =>
      rw [wideBytes_cons, List.length_append, ih, encodeLe_length, List.length_cons]
      omega

theorem char_ne_zero {c : UInt16} (h : Holds mem a (encodeLe 2 c.toNat)) (notNull : c ≠ 0) :
    ¬ (mem a = 0 ∧ mem (a + 1) = 0) := by
  rintro ⟨low, high⟩
  have bytes : bytesAt mem a 2 = encodeLe 2 c.toNat := by
    rw [Holds, encodeLe_length] at h
    exact h
  have both : bytesAt mem a 2 = [0, 0] := by
    change [mem a, mem (a + 1)] = [0, 0]
    rw [low, high]
  have value := decodeLe_encodeLe 2 c.toNat
  rw [← bytes, both] at value
  have small : c.toNat < 65536 := c.toNat_lt
  have null : c.toNat = 0 := by
    rw [Nat.mod_eq_of_lt (by omega)] at value
    exact value.symm
  exact notNull (UInt16.toNat_inj.mp null)

theorem strSize_loop (str : ℕ) {chars : List UInt16} (noNull : 0 ∉ chars)
    (h : Holds mem a (wideBytes chars ++ [0, 0])) (enough : chars.length < fuel) :
    loop (fun p => some (if mem p = 0 ∧ mem (p + 1) = 0 then .inr (p + 2 - str)
      else .inl (p + 2))) fuel a = some (a + 2 * chars.length + 2 - str) := by
  induction chars generalizing a fuel with
  | nil =>
      obtain ⟨fuel, rfl⟩ := Nat.exists_eq_add_of_lt enough
      exact loop_done _ (by rw [if_pos (holds_pair h)]; rfl)
  | cons c chars ih =>
      obtain ⟨fuel, rfl⟩ : ∃ k, fuel = k + 1 := ⟨fuel - 1, by omega⟩
      rw [List.length_cons] at enough
      rw [List.mem_cons, not_or] at noNull
      rw [wideBytes_cons, List.append_assoc] at h
      obtain ⟨char, rest⟩ := h.append
      rw [encodeLe_length] at rest
      have later := ih noNull.2 rest (by omega : chars.length < fuel)
      have open_ : ¬ (mem a = 0 ∧ mem (a + 1) = 0) := char_ne_zero char (Ne.symm noNull.1)
      rw [loop_next _ (by rw [if_neg open_]), later, List.length_cons]
      congr 2
      omega

theorem strSize_eq {chars : List UInt16} (noNull : 0 ∉ chars)
    (h : Holds mem a (wideBytes chars ++ [0, 0])) (enough : chars.length < fuel) :
    strSize mem fuel a = some (2 * chars.length + 2) := by
  rw [strSize, strSize_loop a noNull h enough]
  congr 1
  omega

variable {lib : DevicePathLib} {path p : ℕ}

theorem lastDeviceNode_spec (hlib : DevicePathLibSpec lib) {nodes : List (List UInt8)}
    (records : ∀ node ∈ nodes, IsRecord devicePathLayout node)
    (h : Holds mem path (nodes.flatten ++ endDevicePath)) (enough : nodes.length < fuel) :
    ∃ p, lastDeviceNode lib mem fuel path = some p ∧ LastAt mem nodes path p := by
  have spells := spells_of_holds records (by decide) (by decide) h
  apply walk_last spells
  · intro x last closes
    rw [hlib.endNode, if_pos closes]
  · intro x last opens
    rw [hlib.endNode, if_neg (by rw [opens]; exact Bool.false_ne_true), hlib.next]
  · exact enough

theorem isFwFileNode_iff {node : List UInt8} (held : Holds mem p node) (long : 4 ≤ node.length) :
    isFwFileNode node = true ↔ mem p = mediaDevicePath ∧ mem (p + 1) = mediaPiwgFwFileDp := by
  have first : node[0]? = some (mem p) := by
    rw [← held]
    exact bytesAt_getElem? (by omega)
  have second : node[1]? = some (mem (p + 1)) := by
    rw [← held]
    exact bytesAt_getElem? (by omega)
  simp [isFwFileNode, first, second]

theorem compareGuid_eq {node : List UInt8} (held : Holds mem p node) (length : node.length = 20)
    (guid : Guid) : compareGuid mem (p + 4) guid = (node.drop 4 == guid.bytes) := by
  have split : node = node.take 4 ++ node.drop 4 := (List.take_append_drop 4 node).symm
  rw [split] at held
  have second : bytesAt mem (p + 4) 16 = node.drop 4 := by
    simpa [Holds, length] using held.append.2
  rw [compareGuid, second]

theorem lastNode_isShell (hlib : DevicePathLibSpec lib) (files : ShellFiles) (o : StoredOption)
    (held : Holds mem path (o.nodes.flatten ++ endDevicePath)) (last : LastAt mem o.nodes path p) :
    isShellGuid files mem (nameGuidFromFwVolDevicePathNode lib mem p) = o.bootsShell files := by
  rw [nameGuidFromFwVolDevicePathNode, hlib.type, hlib.subType, StoredOption.bootsShell]
  rw [LastAt] at last
  cases found : o.nodes.getLast? with
  | none =>
      rw [found] at last
      dsimp only at last
      rw [List.getLast?_eq_none_iff.mp found, List.flatten_nil, List.nil_append] at held
      have type : mem path = 0x7f := by
        have bytes : [mem path, mem (path + 1), mem (path + 2), mem (path + 3)] = endDevicePath :=
          held
        exact (List.cons.inj bytes).1
      rw [last, type, if_neg (fun types => absurd types.1 (by decide))]
      rfl
  | some node =>
      rw [found] at last
      have member : node ∈ o.nodes := List.mem_of_getLast? found
      have long : 4 ≤ node.length := (o.records node member).fits
      rw [Option.any_some]
      by_cases file : isFwFileNode node = true
      · rw [if_pos ((isFwFileNode_iff last long).mp file), file, Bool.true_and]
        have length := o.guids node member file
        rw [isShellGuid, Option.any_some, compareGuid_eq last length, compareGuid_eq last length]
      · rw [if_neg (fun types => file ((isFwFileNode_iff last long).mpr types)),
          eq_false_of_ne_true file, Bool.false_and]
        rfl

theorem optionIsInternalShell_encode (hlib : DevicePathLibSpec lib) (files : ShellFiles)
    (o : StoredOption) (h : Holds mem a o.encode) (text : o.description.chars.length < fuel)
    (count : o.nodes.length < fuel) :
    optionIsInternalShell lib files mem fuel a = some (o.bootsShell files) := by
  have parts : o.encode =
      (encodeLe 4 o.attributes ++ encodeLe 2 (o.nodes.flatten.length + 4)) ++
        ((wideBytes o.description.chars ++ [0, 0]) ++
          ((o.nodes.flatten ++ endDevicePath) ++ o.optionalData)) := by
    simp only [StoredOption.encode, List.append_assoc]
  rw [parts] at h
  have behind := h.append.2
  have path := behind.append.2
  have start : (encodeLe 4 o.attributes ++ encodeLe 2 (o.nodes.flatten.length + 4)).length = 6 := by
    rw [List.length_append, encodeLe_length, encodeLe_length]
  have described : (wideBytes o.description.chars ++ [0, 0]).length =
      2 * o.description.chars.length + 2 := by
    rw [List.length_append, wideBytes_length]
    rfl
  rw [start] at behind path
  rw [described] at path
  have nodes := path.append.1
  obtain ⟨p, walk, last⟩ := lastDeviceNode_spec hlib o.records nodes count
  have size : strSize mem fuel (a + 4 + 2) = some (2 * o.description.chars.length + 2) :=
    strSize_eq o.description.noNull behind.append.1 text
  rw [optionIsInternalShell, size, Option.bind_eq_bind, Option.bind_some]
  change (lastDeviceNode lib mem fuel _).bind _ = _
  rw [walk, Option.bind_some, lastNode_isShell hlib files o nodes last]

/-! ## The signals -/

variable {files : ShellFiles}

/-- The option that `BootCurrent` names, if any, is stored as options are. -/
def StoresOptions (globals : Globals) (current : Option StoredOption) (fuel : ℕ) : Prop :=
  globals.current = current.map StoredOption.encode ∧
    ∀ o ∈ current, o.description.chars.length < fuel ∧ o.nodes.length < fuel

def currentBootsShell (files : ShellFiles) (current : Option StoredOption) : Bool :=
  current.any fun o => o.bootsShell files

theorem encode_ne_nil (o : StoredOption) : o.encode ≠ [] := by
  intro empty
  have length := congrArg List.length empty
  simp only [StoredOption.encode, List.length_append, encodeLe_length, List.length_nil] at length
  omega

theorem bootCurrentIsInternalShell_eq (hlib : DevicePathLibSpec lib) {globals : Globals}
    {current : Option StoredOption} (stores : StoresOptions globals current fuel) :
    bootCurrentIsInternalShell lib files fuel globals = some (currentBootsShell files current) := by
  obtain ⟨stored, enough⟩ := stores
  rw [Globals.current] at stored
  rw [bootCurrentIsInternalShell]
  cases named : globals.bootCurrent with
  | none =>
      rw [named, Option.bind_none] at stored
      rw [Option.map_eq_none_iff.mp stored.symm]
      rfl
  | some bootCurrent =>
      rw [named, Option.bind_some] at stored
      dsimp only
      cases current with
      | none =>
          rw [stored]
          rfl
      | some o =>
          rw [stored, Option.map_some]
          obtain ⟨text, count⟩ := enough o rfl
          cases data : o.encode with
          | nil => exact absurd data (encode_ne_nil o)
          | cons byte bytes =>
              rw [← data]
              exact optionIsInternalShell_encode hlib files o (holds_blit _ _ _) text count

/-- What each signal of a run should do: the first one does its part once. -/
def expectedActions (files : ShellFiles) :
    Bool → List (ReadySignal × Option StoredOption) → List (List ReadyAction)
  | _, [] => []
  | firstPass, (signal, current) :: later =>
      (signal.shellActions (currentBootsShell files current) ++
        if firstPass then signal.firstActions else []) :: expectedActions files false later

theorem fwVolDevicePathNode_length (nameGuid : Guid) :
    (fwVolDevicePathNode nameGuid).length = 20 := by
  rw [fwVolDevicePathNode, List.length_append, nameGuid.size]
  rfl

theorem fwVolDevicePathNode_isRecord (nameGuid : Guid) :
    IsRecord devicePathLayout (fwVolDevicePathNode nameGuid) where
  fits := by
    rw [fwVolDevicePathNode_length]
    decide
  length := by
    rw [fwVolDevicePathNode_length]
    rfl
  opens := rfl

/-- The option for a firmware file in a volume whose path has these nodes. -/
def storedFwOption (description : UnicodeString) (image : List (List UInt8)) (fwFile : Guid)
    (parameter : String) (records : ∀ node ∈ image, IsRecord devicePathLayout node)
    (guids : ∀ node ∈ image, isFwFileNode node = true → node.length = 20) : StoredOption where
  attributes := fwOptionAttributes.toNat
  description := description
  nodes := image ++ [fwVolDevicePathNode fwFile]
  optionalData := ascii parameter ++ [0]
  records := by
    intro node member
    rcases List.mem_append.mp member with member | member
    · exact records node member
    · rw [List.mem_singleton.mp member]
      exact fwVolDevicePathNode_isRecord fwFile
  guids := by
    intro node member file
    rcases List.mem_append.mp member with member | member
    · exact guids node member file
    · rw [List.mem_singleton.mp member]
      exact fwVolDevicePathNode_length fwFile

/-- Of the priority boot options, the test takes those for a shell that name a shell's file. -/
theorem storedFwOption_bootsShell (files : ShellFiles) (description : UnicodeString)
    (image : List (List UInt8)) (fwFile : Guid) (parameter : String)
    (records : ∀ node ∈ image, IsRecord devicePathLayout node)
    (guids : ∀ node ∈ image, isFwFileNode node = true → node.length = 20) :
    (storedFwOption description image fwFile parameter records guids).bootsShell files =
      (fwFile.bytes == files.pcdShellFile.bytes || fwFile.bytes == files.uefiShellFile.bytes) := by
  rw [StoredOption.bootsShell, storedFwOption, List.getLast?_append, List.getLast?_singleton,
    Option.some_or, Option.any_some]
  rfl

def uefiShellGuid : Guid where
  bytes := [0x83, 0xa5, 0x04, 0x7c, 0x3e, 0x9e, 0x1c, 0x4f, 0xad, 0x65, 0xe0, 0x52, 0x68, 0xd0,
    0xb4, 0xd1]
  size := rfl

def shellOption : StoredOption :=
  storedFwOption ⟨wide "Shell", by decide⟩ [] uefiShellGuid "VOL-" nofun nofun

def shellSignal : ReadySignal where
  globals := ⟨some 0, fun _ => some shellOption.encode, fun _ => 0, 0x1000⟩
  pcdLowResolutionInternalShell := true
  settingStatus := efiNotFound
  startNetworkStack := false

end MuTegra.BootManager.ReadyToBoot
