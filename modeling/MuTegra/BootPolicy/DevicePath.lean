/- Unit: MuTegra/BootPolicy/DevicePath
   source: NvidiaPkg/Library/MsPlatformDevicesLib/MsPlatformDevicesLib.c, Include/Configuration/BootDevices.h
   digest: Device paths in memory, the SD-card path of the platform and its USB test. -/

import MuTegra.Foundation.Records

/-!
A device path is an address: nodes of a type, a subtype and a 16-bit length, closed by
the end node. Whether an address holds a path at all, how long it is and how to go
from node to node is what the device path library answers.
-/

set_option autoImplicit false
set_option relaxedAutoImplicit false

namespace MuTegra.BootPolicy.DevicePath

open MuTegra.Foundation.ByteFields
open MuTegra.Foundation.Loops
open MuTegra.Foundation.Records

abbrev Memory := ℕ → UInt8

def hardwareDevicePath : UInt8 := 0x01
def hwVendorDp : UInt8 := 0x04
def messagingDevicePath : UInt8 := 0x03
def msgUsbDp : UInt8 := 0x05
def msgUsbClassDp : UInt8 := 0x0f
def msgUsbWwidDp : UInt8 := 0x10
def endDevicePathType : UInt8 := 0x7f
def endEntireDevicePathSubtype : UInt8 := 0xff

def endDevicePathLength : ℕ := 4

/-- `EFI_DEVICE_PATH_PROTOCOL`: `Type`, `SubType` and `Length[2]`. -/
def devicePathLayout : Layout where
  header := endDevicePathLength
  header_pos := by decide
  length node := field node 2 2
  closes node := node[0]? == some endDevicePathType && node[1]? == some endEntireDevicePathSubtype

def IsPath (mem : Memory) (path : ℕ) (nodes : List (List UInt8)) : Prop :=
  ∃ e, Spells devicePathLayout mem path nodes e ∧
    devicePathLayout.lengthAt mem e = endDevicePathLength

structure DevicePathLib where
  isDevicePathValid : Memory → ℕ → ℕ → Bool
  getDevicePathSize : Memory → ℕ → ℕ
  isDevicePathEnd : Memory → ℕ → Bool
  nextDevicePathNode : Memory → ℕ → ℕ
  devicePathType : Memory → ℕ → UInt8
  devicePathSubType : Memory → ℕ → UInt8

/-- What `DevicePathLib` documents. A path found valid is a path whose size is a `UINTN`;
nothing is said of what the validity test refuses. -/
structure DevicePathLibSpec (lib : DevicePathLib) : Prop where
  endNode : ∀ mem node, lib.isDevicePathEnd mem node =
    devicePathLayout.closes (devicePathLayout.headAt mem node)
  next : ∀ mem node, lib.nextDevicePathNode mem node = node + devicePathLayout.lengthAt mem node
  type : ∀ mem node, lib.devicePathType mem node = mem node
  subType : ∀ mem node, lib.devicePathSubType mem node = mem (node + 1)
  size : ∀ mem path nodes, IsPath mem path nodes →
    nodes.flatten.length + endDevicePathLength < 4294967296 →
    lib.getDevicePathSize mem path = nodes.flatten.length + endDevicePathLength
  valid : ∀ mem path maxSize, lib.isDevicePathValid mem path maxSize = true →
    ∃ nodes, IsPath mem path nodes ∧ nodes.flatten.length + endDevicePathLength < 4294967296

/-- The vendor node of `SdcardDevicePath`, with `EFI_SDCARD_DEVICE_PATH_GUID`. -/
def sdcardVendorNode : List UInt8 :=
  [hardwareDevicePath, hwVendorDp, 20, 0, 0x41, 0x1D, 0x53, 0xD1, 0x80, 0x3F, 0x91, 0x40,
    0x8D, 0x0A, 0x54, 0x1F, 0x59, 0x23, 0x6D, 0x66]

def sdcardDevicePath : List UInt8 :=
  sdcardVendorNode ++ [endDevicePathType, endEntireDevicePathSubtype, 4, 0]

def platformUsbPass (lib : DevicePathLib) (mem : Memory) (node : ℕ) : Option (ℕ ⊕ Bool) :=
  if lib.isDevicePathEnd mem node then some (.inr false)
  else if lib.devicePathType mem node = messagingDevicePath ∧
      (lib.devicePathSubType mem node = msgUsbClassDp ∨
        lib.devicePathSubType mem node = msgUsbWwidDp ∨
        lib.devicePathSubType mem node = msgUsbDp) then
    some (.inr true)
  else some (.inl (lib.nextDevicePathNode mem node))

def platformIsDevicePathUsb (lib : DevicePathLib) (mem : Memory) (fuel devicePath : ℕ) :
    Option Bool :=
  loop (platformUsbPass lib mem) fuel devicePath

def isUsbNode (node : List UInt8) : Bool :=
  node[0]? == some messagingDevicePath &&
    (node[1]? == some msgUsbDp || node[1]? == some msgUsbWwidDp || node[1]? == some msgUsbClassDp)

variable {mem : Memory} {path : ℕ} {nodes : List (List UInt8)}

theorem isUsbNode_bytesAt {node n : ℕ} (hn : devicePathLayout.header ≤ n) :
    isUsbNode (bytesAt mem node n) = true ↔
      mem node = messagingDevicePath ∧
        (mem (node + 1) = msgUsbDp ∨ mem (node + 1) = msgUsbWwidDp ∨
          mem (node + 1) = msgUsbClassDp) := by
  have hheader : devicePathLayout.header = 4 := rfl
  rw [isUsbNode, bytesAt_getElem? (by omega : 0 < n), bytesAt_getElem? (by omega : 1 < n)]
  simp [or_assoc]

theorem IsPath.unique {nodes' : List (List UInt8)} (h : IsPath mem path nodes)
    (h' : IsPath mem path nodes') : nodes = nodes' := by
  obtain ⟨e, hspells, -⟩ := h
  obtain ⟨e', hspells', -⟩ := h'
  exact (hspells.unique hspells').1

theorem usbWalk_spec {lib : DevicePathLib} (hlib : DevicePathLibSpec lib)
    (h : IsPath mem path nodes) (found : Bool) {body : ℕ → Option (ℕ ⊕ Bool)}
    (hbody : ∀ node, body node =
      if lib.isDevicePathEnd mem node then some (.inr (!found))
      else if mem node = messagingDevicePath ∧
          (mem (node + 1) = msgUsbDp ∨ mem (node + 1) = msgUsbWwidDp ∨
            mem (node + 1) = msgUsbClassDp) then
        some (.inr found)
      else some (.inl (lib.nextDevicePathNode mem node)))
    {fuel : ℕ} (enough : nodes.length < fuel) :
    loop body fuel path = some (nodes.any isUsbNode == found) := by
  obtain ⟨e, hspells, -⟩ := h
  apply hspells.walk found ?_ ?_ enough
  · intro node hclose
    rw [hbody, hlib.endNode, if_pos hclose]
  · intro node hopen hfits
    have htest : isUsbNode (bytesAt mem node _) = true ↔ _ := isUsbNode_bytesAt hfits
    rw [hbody, hlib.endNode, hopen, if_neg Bool.false_ne_true, hlib.next]
    by_cases husb : isUsbNode (bytesAt mem node (devicePathLayout.lengthAt mem node)) = true
    · rw [if_pos husb, if_pos (htest.mp husb)]
    · rw [if_neg husb, if_neg (fun hkind => husb (htest.mpr hkind))]

theorem platformIsDevicePathUsb_spec {lib : DevicePathLib} (hlib : DevicePathLibSpec lib)
    (h : IsPath mem path nodes) {fuel : ℕ} (enough : nodes.length < fuel) :
    platformIsDevicePathUsb lib mem fuel path = some (nodes.any isUsbNode) := by
  have hwalk : platformIsDevicePathUsb lib mem fuel path =
      some (nodes.any isUsbNode == true) := by
    apply usbWalk_spec hlib h true ?_ enough
    intro node
    -- The platform names the three kinds in the other order.
    rw [platformUsbPass, hlib.type, hlib.subType]
    congr 1
    exact if_congr (and_congr_right' (or_rotate.trans or_left_comm)) rfl rfl
  rw [hwalk, beq_true]

theorem isPath_sdcard (h : bytesAt mem path sdcardDevicePath.length = sdcardDevicePath) :
    IsPath mem path [sdcardVendorNode] := by
  let image : Memory := fun i => sdcardDevicePath.getD i 0
  have hvendor : bytesAt image 0 20 = sdcardVendorNode := by decide
  have hspells : Spells devicePathLayout image 0 [sdcardVendorNode] 20 := by
    rw [← hvendor]
    exact .record (by decide) (by decide) (by decide) (.close (by decide))
  have hbytes : bytesAt mem path 24 = bytesAt image 0 24 := h
  refine ⟨path + 20, hspells.transfer hbytes, ?_⟩
  obtain ⟨-, hend⟩ := bytesAt_split (m := 20) (n := 4) hbytes
  rw [Layout.lengthAt, Layout.headAt, show devicePathLayout.header = 4 from rfl, hend]
  decide

theorem endNode_bytes {e : ℕ} (hclose : devicePathLayout.closes (devicePathLayout.headAt mem e) = true)
    (hlen : devicePathLayout.lengthAt mem e = endDevicePathLength) :
    bytesAt mem e 4 = [endDevicePathType, endEntireDevicePathSubtype, 4, 0] := by
  have hhead : devicePathLayout.headAt mem e = [mem e, mem (e + 1), mem (e + 2), mem (e + 3)] := rfl
  rw [hhead] at hclose
  rw [Layout.lengthAt, hhead] at hlen
  obtain ⟨htype, hsubtype⟩ : mem e = endDevicePathType ∧ mem (e + 1) = endEntireDevicePathSubtype := by
    simpa [devicePathLayout] using hclose
  have hfield : (mem (e + 2)).toNat + 256 * (mem (e + 3)).toNat = 4 := by
    simpa [devicePathLayout, field, decodeLe, endDevicePathLength] using hlen
  have hlow : mem (e + 2) = 4 := UInt8.toNat_inj.mp (by change _ = 4; omega)
  have hhigh : mem (e + 3) = 0 := UInt8.toNat_inj.mp (by change _ = 0; omega)
  change [mem e, mem (e + 1), mem (e + 2), mem (e + 3)] = _
  rw [htype, hsubtype, hlow, hhigh]

/-- A path has the SD card's nodes and no more exactly when it has its bytes. -/
theorem IsPath.eq_sdcard_iff (h : IsPath mem path nodes) :
    nodes = [sdcardVendorNode] ↔
      bytesAt mem path sdcardDevicePath.length = sdcardDevicePath := by
  constructor
  · rintro rfl
    obtain ⟨e, hspells, hlen⟩ := h
    have hbytes : sdcardVendorNode = bytesAt mem path 20 := hspells.flatten
    have hend : path + 20 = e := hspells.length_flatten
    have hclose := endNode_bytes hspells.closed hlen
    rw [← hend] at hclose
    rw [show sdcardDevicePath.length = 20 + 4 from rfl, bytesAt_add, ← hbytes, hclose]
    rfl
  · intro hbytes
    exact h.unique (isPath_sdcard hbytes)

end MuTegra.BootPolicy.DevicePath
