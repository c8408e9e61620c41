/- Unit: MuTegra/BootPolicy/LoadImage
   source: NvidiaPkg/Library/MsBootPolicyLib/MsBootPolicyLib.c
   digest: Which device paths the boot policy refuses and what its LoadImage hook lets through. -/

import MuTegra.BootPolicy.DevicePath
import MuTegra.Foundation.MachineWords
import MuTegra.MemorySearch.Memory
import MuTegra.Uefi.Status

set_option autoImplicit false
set_option relaxedAutoImplicit false

namespace MuTegra.BootPolicy.LoadImage

open MuTegra.BootPolicy.DevicePath
open MuTegra.Foundation.ByteFields
open MuTegra.Foundation.Loops
open MuTegra.Foundation.MachineWords
open MuTegra.Foundation.Records
open MuTegra.MemorySearch.Memory (BaseMemoryLib CompareMemSpec)
open MuTegra.Uefi.Status

def efiAccessDenied : EfiStatus := encodeError 15#32

/-- What the policy finds when it is asked: memory with the platform's SD-card path in it,
the length limit of the build and the answers about the `ENABLE_USB_BOOT` setting. -/
structure Machine where
  memory : Memory
  sdcard : ℕ
  sdcard_ne_null : sdcard ≠ 0
  sdcard_stored : bytesAt memory sdcard sdcardDevicePath.length = sdcardDevicePath
  maxDevicePathSize : ℕ
  /-- `LocateProtocol` for the setting access protocol. -/
  locateSettingAccess : EfiStatus
  /-- `SettingsAccess->Get`: its status and the byte it stores as the value, if any. -/
  getEnableUsbBoot : EfiStatus × Option UInt8

def getSdCardDevicePath (m : Machine) : ℕ := m.sdcard

/-- A pass of the loop of `MsBootPolicyLibIsDevicePathBootable` over the nodes. -/
def bootableUsbPass (lib : DevicePathLib) (mem : Memory) (node : ℕ) : Option (ℕ ⊕ Bool) :=
  if lib.isDevicePathEnd mem node then some (.inr true)
  else if mem node = messagingDevicePath ∧
      (mem (node + 1) = msgUsbDp ∨ mem (node + 1) = msgUsbWwidDp ∨
        mem (node + 1) = msgUsbClassDp) then
    some (.inr false)
  else some (.inl (lib.nextDevicePathNode mem node))

/-- `EnableUsbBoot` after the setting was asked for. A failed `Get` is only reported. -/
def enableUsbBoot (m : Machine) : UInt8 :=
  if efiError m.locateSettingAccess then 1
  else m.getEnableUsbBoot.2.getD 1

/-- The SD-card test: `FALSE` for a path longer than the SD card's that begins like it. -/
def sdCardCheck (lib : DevicePathLib) (base : BaseMemoryLib) (m : Machine)
    (devicePath size : ℕ) : Bool :=
  let sdCardDevicePath := getSdCardDevicePath m
  if sdCardDevicePath ≠ 0 then
    let sdSize := lib.getDevicePathSize m.memory sdCardDevicePath
    let compared := subUint32 sdSize endDevicePathLength
    if size > sdSize then
      if base.compareMem (bytesAt m.memory devicePath compared)
          (bytesAt m.memory sdCardDevicePath compared) = 0 then false
      else true
    else true
  else true

/-- `MsBootPolicyLibIsDevicePathBootable`, on `fuel` passes at most. -/
def msBootPolicyLibIsDevicePathBootable (lib : DevicePathLib) (base : BaseMemoryLib)
    (m : Machine) (fuel devicePath : ℕ) : Option Bool :=
  if devicePath = 0 then some true
  else if lib.isDevicePathValid m.memory devicePath m.maxDevicePathSize = false then some false
  else
    let size := lib.getDevicePathSize m.memory devicePath
    if sdCardCheck lib base m devicePath size then
      if enableUsbBoot m = 0 then loop (bootableUsbPass lib m.memory) fuel devicePath
      else some true
    else some false

def msBootPolicyLibIsDevicePathUsb (lib : DevicePathLib) (m : Machine) (fuel devicePath : ℕ) :
    Option Bool :=
  platformIsDevicePathUsb lib m.memory fuel devicePath

structure ImageLoad where
  bootPolicy : Bool
  parentImageHandle : ℕ
  devicePath : ℕ
  sourceBuffer : ℕ
  sourceSize : ℕ
  imageHandle : ℕ

def localLoadImage {World : Type} (lib : DevicePathLib) (base : BaseMemoryLib) (m : Machine)
    (gSystemLoadImage : ImageLoad → World → EfiStatus × World) (fuel : ℕ) (call : ImageLoad)
    (world : World) : Option (EfiStatus × World) :=
  if call.devicePath ≠ 0 then
    match msBootPolicyLibIsDevicePathBootable lib base m fuel call.devicePath with
    | none => none
    | some false => some (efiAccessDenied, world)
    | some true => some (gSystemLoadImage call world)
  else some (gSystemLoadImage call world)

/-- The path's nodes are those of the SD-card path, with or without further ones. -/
def OnSdCard (m : Machine) (path : ℕ) : Prop :=
  ∃ nodes sdNodes, IsPath m.memory path nodes ∧
    IsPath m.memory (getSdCardDevicePath m) sdNodes ∧ sdNodes <+: nodes

/-- The setting could be asked for and its value came back `FALSE`. -/
def SettingReadsFalse (m : Machine) : Prop :=
  efiError m.locateSettingAccess = false ∧ m.getEnableUsbBoot.2 = some 0

def IsUsb (lib : DevicePathLib) (m : Machine) (path : ℕ) : Prop :=
  ∃ fuel, msBootPolicyLibIsDevicePathUsb lib m fuel path = some true

def Excluded (lib : DevicePathLib) (m : Machine) (path : ℕ) : Prop :=
  lib.isDevicePathValid m.memory path m.maxDevicePathSize = false ∨
    OnSdCard m path ∨ (SettingReadsFalse m ∧ IsUsb lib m path)

/-- The policy answers `FALSE` on exactly the excluded paths, and the hook stops the loads
of those and of no others. -/
structure GuardsBoot (lib : DevicePathLib) (base : BaseMemoryLib) (m : Machine) (path : ℕ) :
    Prop where
  decides : ∃ enough, ∀ fuel ≥ enough, ∃ rc,
    msBootPolicyLibIsDevicePathBootable lib base m fuel path = some rc ∧
      (rc = false ↔ Excluded lib m path)
  denies : Excluded lib m path → ∃ enough, ∀ fuel ≥ enough, ∀ (World : Type)
    (gSystemLoadImage : ImageLoad → World → EfiStatus × World) call world,
    call.devicePath = path →
      localLoadImage lib base m gSystemLoadImage fuel call world = some (efiAccessDenied, world)
  passes : ¬ Excluded lib m path → ∃ enough, ∀ fuel ≥ enough, ∀ (World : Type)
    (gSystemLoadImage : ImageLoad → World → EfiStatus × World) call world,
    call.devicePath = path →
      localLoadImage lib base m gSystemLoadImage fuel call world =
        some (gSystemLoadImage call world)
  passesNull : ∀ fuel (World : Type)
    (gSystemLoadImage : ImageLoad → World → EfiStatus × World) call world,
    call.devicePath = 0 →
      localLoadImage lib base m gSystemLoadImage fuel call world =
        some (gSystemLoadImage call world)

variable {lib : DevicePathLib} {base : BaseMemoryLib} {m : Machine} {path : ℕ}
    {nodes : List (List UInt8)}

theorem enableUsbBoot_eq_zero_iff : enableUsbBoot m = 0 ↔ SettingReadsFalse m := by
  have hpreset : (1 : UInt8) ≠ 0 := by decide
  rw [enableUsbBoot, SettingReadsFalse]
  cases efiError m.locateSettingAccess with
  | true => simp
  | false =>
      cases m.getEnableUsbBoot.2 with
      | none => simp
      | some value => simp

theorem isPath_getSdCardDevicePath (m : Machine) :
    IsPath m.memory (getSdCardDevicePath m) [sdcardVendorNode] :=
  isPath_sdcard m.sdcard_stored

theorem onSdCard_iff (h : IsPath m.memory path nodes) :
    OnSdCard m path ↔ [sdcardVendorNode] <+: nodes := by
  constructor
  · rintro ⟨nodes', sdNodes, h', hsd, hwithin⟩
    obtain rfl := h.unique h'
    obtain rfl := hsd.unique (isPath_getSdCardDevicePath m)
    exact hwithin
  · intro hwithin
    exact ⟨nodes, _, h, isPath_getSdCardDevicePath m, hwithin⟩

theorem bootableUsb_spec (hlib : DevicePathLibSpec lib) (h : IsPath m.memory path nodes)
    {fuel : ℕ} (enough : nodes.length < fuel) :
    loop (bootableUsbPass lib m.memory) fuel path = some (!nodes.any isUsbNode) := by
  have hwalk : loop (bootableUsbPass lib m.memory) fuel path =
      some (nodes.any isUsbNode == false) := by
    apply usbWalk_spec hlib h false ?_ enough
    intro node
    rfl
  rw [hwalk, beq_false]

theorem isUsb_iff (hlib : DevicePathLibSpec lib) (h : IsPath m.memory path nodes) :
    IsUsb lib m path ↔ nodes.any isUsbNode = true := by
  constructor
  · rintro ⟨fuel, hfuel⟩
    have hall := platformIsDevicePathUsb_spec hlib h
      (Nat.lt_of_lt_of_le (Nat.lt_succ_self nodes.length) (Nat.le_max_right fuel _))
    have hmore := loop_mono hfuel (Nat.le_max_left fuel (nodes.length + 1))
    exact Option.some_inj.mp (hall.symm.trans hmore)
  · intro husb
    exact ⟨nodes.length + 1, (platformIsDevicePathUsb_spec hlib h (Nat.lt_succ_self _)).trans
      (congrArg some husb)⟩

/-- The code's SD-card test fires on the paths that go on after the SD card's nodes. -/
theorem sdCardCheck_spec (hlib : DevicePathLibSpec lib) (hbase : CompareMemSpec base)
    (h : IsPath m.memory path nodes)
    (hsize : nodes.flatten.length + endDevicePathLength < 4294967296) :
    sdCardCheck lib base m path (lib.getDevicePathSize m.memory path) = false ↔
      [sdcardVendorNode] <+: nodes ∧ nodes ≠ [sdcardVendorNode] := by
  have hsd := isPath_getSdCardDevicePath m
  have hsdlen : [sdcardVendorNode].flatten.length = 20 := rfl
  have hcompared : subUint32 ([sdcardVendorNode].flatten.length + endDevicePathLength)
      endDevicePathLength = [sdcardVendorNode].flatten.length := rfl
  rw [sdCardCheck, if_pos (show getSdCardDevicePath m ≠ 0 from m.sdcard_ne_null),
    hlib.size _ _ _ h hsize, hlib.size _ _ _ hsd (by decide)]
  dsimp only
  rw [hcompared]
  have hcompare := hbase (bytesAt m.memory path [sdcardVendorNode].flatten.length)
    (bytesAt m.memory (getSdCardDevicePath m) [sdcardVendorNode].flatten.length)
    (by rw [bytesAt_length, bytesAt_length])
  obtain ⟨e, hspells, -⟩ := h
  obtain ⟨f, hsdSpells, -⟩ := hsd
  constructor
  · intro hfires
    have hlong : nodes.flatten.length + endDevicePathLength >
        [sdcardVendorNode].flatten.length + endDevicePathLength := by
      by_contra hshort
      rw [if_neg hshort] at hfires
      cases hfires
    rw [if_pos hlong] at hfires
    have hsame : bytesAt m.memory path [sdcardVendorNode].flatten.length =
        bytesAt m.memory (getSdCardDevicePath m) [sdcardVendorNode].flatten.length := by
      by_contra hdiffer
      rw [if_neg (fun hzero => hdiffer (hcompare.mp hzero))] at hfires
      cases hfires
    refine ⟨hspells.prefix_of_bytes hsdSpells (by omega) hsame, ?_⟩
    rintro rfl
    omega
  · rintro ⟨hwithin, hne⟩
    obtain ⟨hlong, hsame⟩ := hspells.bytes_of_prefix hsdSpells hwithin
    have hlonger : [sdcardVendorNode].flatten.length < nodes.flatten.length := by
      by_contra hshort
      exact hne (hspells.eq_of_prefix hwithin (by omega)).symm
    rw [if_pos (by omega), if_pos (hcompare.mpr hsame)]

def Refused (lib : DevicePathLib) (m : Machine) (path : ℕ) : Prop :=
  lib.isDevicePathValid m.memory path m.maxDevicePathSize = false ∨
    (OnSdCard m path ∧ bytesAt m.memory path sdcardDevicePath.length ≠ sdcardDevicePath) ∨
    (SettingReadsFalse m ∧ IsUsb lib m path)

theorem bootable_spec (hlib : DevicePathLibSpec lib) (hbase : CompareMemSpec base)
    (hpath : path ≠ 0) :
    ∃ enough, ∀ fuel ≥ enough, ∃ rc,
      msBootPolicyLibIsDevicePathBootable lib base m fuel path = some rc ∧
        (rc = false ↔ Refused lib m path) := by
  cases hvalid : lib.isDevicePathValid m.memory path m.maxDevicePathSize with
  | false =>
      refine ⟨0, fun fuel _ => ⟨false, ?_, by simp [Refused, hvalid]⟩⟩
      rw [msBootPolicyLibIsDevicePathBootable, if_neg hpath, if_pos hvalid]
  | true =>
      obtain ⟨nodes, h, hsize⟩ := hlib.valid _ _ _ hvalid
      have hrefused : Refused lib m path ↔
          ([sdcardVendorNode] <+: nodes ∧ nodes ≠ [sdcardVendorNode]) ∨
            (SettingReadsFalse m ∧ nodes.any isUsbNode = true) := by
        rw [Refused, hvalid, onSdCard_iff h, isUsb_iff hlib h, ne_eq, ← h.eq_sdcard_iff]
        simp
      have hsd := sdCardCheck_spec hlib hbase h hsize
      refine ⟨nodes.length + 1, fun fuel enough => ?_⟩
      rw [msBootPolicyLibIsDevicePathBootable, if_neg hpath, hvalid, if_neg (by simp), hrefused,
        ← hsd]
      cases hcheck : sdCardCheck lib base m path (lib.getDevicePathSize m.memory path) with
      | false => exact ⟨false, by simp [hcheck], by simp⟩
      | true =>
          by_cases husb : enableUsbBoot m = 0
          · refine ⟨!nodes.any isUsbNode, ?_, ?_⟩
            · simp [hcheck, husb, bootableUsb_spec hlib h (by omega : nodes.length < fuel)]
            · have hoff := enableUsbBoot_eq_zero_iff.mp husb
              simp [hoff]
          · refine ⟨true, by simp [hcheck, husb], ?_⟩
            have hon : ¬ SettingReadsFalse m := fun hoff => husb (enableUsbBoot_eq_zero_iff.mpr hoff)
            simp [hon]

theorem refused_iff_excluded (hlib : DevicePathLibSpec lib) :
    (Refused lib m path ↔ Excluded lib m path) ↔
      (lib.isDevicePathValid m.memory path m.maxDevicePathSize = true →
        bytesAt m.memory path sdcardDevicePath.length ≠ sdcardDevicePath) := by
  constructor
  · rintro hsame hvalid hexact
    obtain ⟨nodes, h, -⟩ := hlib.valid _ _ _ hvalid
    obtain rfl := h.eq_sdcard_iff.mpr hexact
    have hsd : OnSdCard m path := (onSdCard_iff h).mpr (List.prefix_refl _)
    rcases hsame.mpr (.inr (.inl hsd)) with hinvalid | ⟨-, hne⟩ | ⟨-, husb⟩
    · simp [hvalid] at hinvalid
    · exact hne hexact
    · have hnone := (isUsb_iff hlib h).mp husb
      revert hnone
      decide
  · intro hne
    rw [Refused, Excluded]
    cases hvalid : lib.isDevicePathValid m.memory path m.maxDevicePathSize with
    | false => simp
    | true => simp [hne hvalid]

theorem localLoadImage_of_bootable {World : Type} {rc : Bool} {fuel : ℕ} {call : ImageLoad}
    (gSystemLoadImage : ImageLoad → World → EfiStatus × World) (world : World)
    (hpath : call.devicePath ≠ 0)
    (hrc : msBootPolicyLibIsDevicePathBootable lib base m fuel call.devicePath = some rc) :
    localLoadImage lib base m gSystemLoadImage fuel call world =
      some (if rc then gSystemLoadImage call world else (efiAccessDenied, world)) := by
  rw [localLoadImage, if_pos hpath, hrc]
  cases rc with
  | true => rfl
  | false => rfl

/-- The policy and its hook do as they should for exactly the paths that are not the
SD-card path itself. -/
theorem guardsBoot_iff (lib : DevicePathLib) (base : BaseMemoryLib) (m : Machine) (path : ℕ)
    (hlib : DevicePathLibSpec lib) (hbase : CompareMemSpec base) (hpath : path ≠ 0) :
    GuardsBoot lib base m path ↔
      (lib.isDevicePathValid m.memory path m.maxDevicePathSize = true →
        bytesAt m.memory path sdcardDevicePath.length ≠ sdcardDevicePath) := by
  rw [← refused_iff_excluded hlib]
  obtain ⟨enough, hdecides⟩ := bootable_spec (m := m) hlib hbase hpath
  constructor
  · rintro ⟨⟨enough', hclaimed⟩, -, -, -⟩
    obtain ⟨rc, hrc, hrefused⟩ := hdecides (max enough enough') (Nat.le_max_left _ _)
    obtain ⟨rc', hrc', hexcluded⟩ := hclaimed (max enough enough') (Nat.le_max_right _ _)
    obtain rfl := Option.some_inj.mp (hrc.symm.trans hrc')
    exact hrefused.symm.trans hexcluded
  · intro hsame
    refine ⟨⟨enough, ?_⟩, fun hexcluded => ⟨enough, ?_⟩, fun hexcluded => ⟨enough, ?_⟩, ?_⟩
    · intro fuel hfuel
      obtain ⟨rc, hrc, hrefused⟩ := hdecides fuel hfuel
      exact ⟨rc, hrc, hrefused.trans hsame⟩
    · rintro fuel hfuel World gSystemLoadImage call world rfl
      obtain ⟨rc, hrc, hrefused⟩ := hdecides fuel hfuel
      obtain rfl := hrefused.mpr (hsame.mpr hexcluded)
      exact localLoadImage_of_bootable gSystemLoadImage world hpath hrc
    · rintro fuel hfuel World gSystemLoadImage call world rfl
      obtain ⟨rc, hrc, hrefused⟩ := hdecides fuel hfuel
      rw [localLoadImage_of_bootable gSystemLoadImage world hpath hrc]
      cases rc with
      | true => rfl
      | false => exact absurd (hsame.mp (hrefused.mp rfl)) hexcluded
    · intro fuel World gSystemLoadImage call world hnull
      rw [localLoadImage, if_neg (by simp [hnull])]

/-- A device path library that refuses paths of sixteen nodes or more, as it does where
`PcdMaximumDevicePathNodeCount` is 16. -/
def sampleLib : DevicePathLib where
  isDevicePathValid mem path maxSize :=
    match closing devicePathLayout mem 16 path with
    | none => false
    | some e => devicePathLayout.lengthAt mem e == endDevicePathLength &&
        decide (e - path + endDevicePathLength < 4294967296) &&
        (maxSize == 0 || decide (e - path + endDevicePathLength ≤ maxSize))
  getDevicePathSize mem path :=
    match closing devicePathLayout mem 1073741824 path with
    | none => 0
    | some e => e - path + devicePathLayout.lengthAt mem e
  isDevicePathEnd mem node := devicePathLayout.closes (devicePathLayout.headAt mem node)
  nextDevicePathNode mem node := node + devicePathLayout.lengthAt mem node
  devicePathType mem node := mem node
  devicePathSubType mem node := mem (node + 1)

theorem sampleLib_spec : DevicePathLibSpec sampleLib where
  endNode _ _ := rfl
  next _ _ := rfl
  type _ _ := rfl
  subType _ _ := rfl
  size mem path nodes h hsize := by
    obtain ⟨e, hspells, hlen⟩ := h
    have hcount := hspells.header_mul_length_le
    rw [show devicePathLayout.header = 4 from rfl] at hcount
    rw [show endDevicePathLength = 4 from rfl] at hsize
    have hend := hspells.length_flatten
    have hclosing : closing devicePathLayout mem 1073741824 path = some e :=
      hspells.closing_eq (by omega)
    simp only [sampleLib, hclosing, hlen]
    omega
  valid mem path maxSize hvalid := by
    cases hclosing : closing devicePathLayout mem 16 path with
    | none => simp [sampleLib, hclosing] at hvalid
    | some e =>
        simp only [sampleLib, hclosing, Bool.and_eq_true, beq_iff_eq, decide_eq_true_eq] at hvalid
        obtain ⟨nodes, hspells⟩ := spells_of_closing hclosing
        have hend := hspells.length_flatten
        exact ⟨nodes, ⟨e, hspells, hvalid.1.1⟩, by omega⟩

/-- A memory library whose `CompareMem` subtracts the first bytes that differ. -/
def sampleBase : BaseMemoryLib where
  scanMem8 bytes value := bytes.findIdx? (· == value)
  compareMem a b := (((a.zip b).find? fun p => p.1 != p.2).map fun p =>
    (p.1.toNat : ℤ) - p.2.toNat).getD 0

theorem sampleBase_compareMem : CompareMemSpec sampleBase := by
  intro a b hlen
  induction a generalizing b with
  | nil =>
      cases b with
      | nil => simp [sampleBase]
      | cons y b => simp at hlen
  | cons x a ih =>
      cases b with
      | nil => simp at hlen
      | cons y b =>
          have hrest := ih b (by simpa using hlen)
          by_cases hxy : x = y
          · subst hxy
            simpa [sampleBase] using hrest
          · have hne : (x.toNat : ℤ) - y.toNat ≠ 0 := by
              intro hzero
              exact hxy (UInt8.toNat_inj.mp (by omega))
            simp [sampleBase, hxy, hne]

/-- The SD-card path at every multiple of 4096, no setting to ask for. -/
def sdMachine : Machine where
  memory i := sdcardDevicePath.getD (i % 4096) 0
  sdcard := 8192
  sdcard_ne_null := by decide
  sdcard_stored := by decide
  maxDevicePathSize := 0
  locateSettingAccess := efiNotFound
  getEnableUsbBoot := (efiSuccess, none)

/-- The SD-card path itself boots. -/
theorem sdcardPath_not_guarded : ¬ GuardsBoot sampleLib sampleBase sdMachine 4096 := by
  intro h
  obtain ⟨enough, hdecides⟩ := h.decides
  obtain ⟨rc, hrc, hexcluded⟩ := hdecides enough (Nat.le_refl _)
  have hboots : msBootPolicyLibIsDevicePathBootable sampleLib sampleBase sdMachine enough 4096 =
      some true := by
    rw [msBootPolicyLibIsDevicePathBootable, if_neg (by decide), if_neg (by decide +kernel)]
    dsimp only
    rw [if_pos (by decide +kernel), if_neg (by decide)]
  have hsd : OnSdCard sdMachine 4096 :=
    ⟨_, _, isPath_sdcard (by decide), isPath_getSdCardDevicePath _, List.prefix_refl _⟩
  obtain rfl := Option.some_inj.mp (hboots.symm.trans hrc)
  cases hexcluded.mpr (.inr (.inl hsd))

/-- A USB path at 4096, the SD-card path at 8192, booting from USB switched off. -/
def usbMachine : Machine where
  memory i :=
    if i < 8192 then [3, 5, 6, 0, 1, 0, 0x7f, 0xff, 4, 0].getD (i - 4096) 0
    else sdcardDevicePath.getD (i - 8192) 0
  sdcard := 8192
  sdcard_ne_null := by decide
  sdcard_stored := by decide
  maxDevicePathSize := 0
  locateSettingAccess := efiSuccess
  getEnableUsbBoot := (efiSuccess, some 0)

theorem guardsBoot_iff_usb : GuardsBoot sampleLib sampleBase usbMachine 4096 :=
  (guardsBoot_iff sampleLib sampleBase usbMachine 4096 sampleLib_spec sampleBase_compareMem
    (by decide)).mpr fun _ => by decide

end MuTegra.BootPolicy.LoadImage
