/- Unit: MuTegra/Pei/VolumeHobs
   source: Tegra30Pkg/Library/PlatformPeiLib/PlatformPeiLib.c
   digest: Every firmware volume gets an allocation HOB, in a list that is walked as it grows. -/

import MuTegra.Foundation.ByteFields
import MuTegra.Foundation.GrowingWalks

/-!
A pointer into the HOB list is the number of HOBs before it. The end-of-list HOB is not written out:
it stands behind the last one of the list.
-/

set_option autoImplicit false
set_option relaxedAutoImplicit false

namespace MuTegra.Pei.VolumeHobs

open MuTegra.Foundation.ByteFields
open MuTegra.Foundation.GrowingWalks
open MuTegra.Foundation.Loops

def efiHobTypeMemoryAllocation : UInt16 := 2

def efiHobTypeGuidExtension : UInt16 := 4

def efiHobTypeFv2 : UInt16 := 9

def efiBootServicesData : UInt32 := 4

inductive HobGuid
  | infoBlk
  | shLib
  deriving DecidableEq, Repr

inductive Hob
  | memoryAllocation (baseAddress length : UInt64) (memoryType : UInt32)
  | firmwareVolume2 (baseAddress length : UInt64)
  | guidExtension (name : HobGuid) (data : List UInt8)
  | other (type : UInt16) (body : List UInt8)
      (distinct : type ∉ [efiHobTypeMemoryAllocation, efiHobTypeGuidExtension, efiHobTypeFv2])

def Hob.hobType : Hob → UInt16
  | .memoryAllocation .. => efiHobTypeMemoryAllocation
  | .firmwareVolume2 .. => efiHobTypeFv2
  | .guidExtension .. => efiHobTypeGuidExtension
  | .other type .. => type

structure HobLib where
  getNextHob : UInt16 → List Hob → ℕ → Option ℕ
  buildMemoryAllocationHob : UInt64 → UInt64 → UInt32 → List Hob → List Hob
  buildGuidDataHob : HobGuid → List UInt8 → List Hob → List Hob

/-- `GetNextHob` returns the first HOB of the type at or after the given one. -/
def GetNextHobSpec (lib : HobLib) : Prop :=
  ∀ type hobs start, lib.getNextHob type hobs start =
    ((hobs.drop start).findIdx? fun hob => hob.hobType = type).map (start + ·)

/-- `BuildMemoryAllocationHob` adds one HOB before the end of the list. -/
def BuildMemoryAllocationHobSpec (lib : HobLib) : Prop :=
  ∀ baseAddress length memoryType hobs,
    lib.buildMemoryAllocationHob baseAddress length memoryType hobs =
      hobs ++ [.memoryAllocation baseAddress length memoryType]

def efiSizeToPages (size : UInt64) : UInt64 :=
  (size >>> 12) + if size &&& 0xfff ≠ 0 then 1 else 0

def efiPageSize : UInt64 := 0x1000

def markVolume (lib : HobLib) (hob : Hob) (hobs : List Hob) : Option (List Hob) :=
  match hob with
  | .firmwareVolume2 baseAddress length =>
      some (lib.buildMemoryAllocationHob baseAddress (efiSizeToPages length * efiPageSize)
        efiBootServicesData hobs)
  | _ => none

/-- A pass of the loop of `BuildMemHobForFv`; a HOB of another kind is no volume to read. -/
def fvPass (lib : HobLib) (type : UInt16) (walk : Walk Hob) : Option (Walk Hob ⊕ List Hob) :=
  match lib.getNextHob type walk.items walk.place with
  | none => some (.inr walk.items)
  | some place => do
      let hob ← walk.items[place]?
      let hobs ← if type = efiHobTypeFv2 then markVolume lib hob walk.items else some walk.items
      some (.inl ⟨place + 1, hobs⟩)

def buildMemHobForFv (lib : HobLib) (type : UInt16) (fuel : ℕ) (hobs : List Hob) :
    Option (List Hob) :=
  loop (fvPass lib type) fuel ⟨0, hobs⟩

/-- `InstallPlatformHob`, from its static flag; the addresses are stored as `UINTN`. -/
def installPlatformHob (lib : HobLib) (fuel : ℕ) (infoBlkAddress shLibAddress : ℕ)
    (initialized : Bool) (hobs : List Hob) : Option (Bool × List Hob) :=
  if !initialized then do
    let hobs ← buildMemHobForFv lib efiHobTypeFv2 fuel hobs
    let hobs := lib.buildGuidDataHob .infoBlk (encodeLe 4 infoBlkAddress) hobs
    let hobs := lib.buildGuidDataHob .shLib (encodeLe 4 shLibAddress) hobs
    some (true, hobs)
  else some (initialized, hobs)

def wholePages (size : ℕ) : ℕ := (size + 4095) / 4096 * 4096

structure Volume where
  baseAddress : UInt64
  length : UInt64

def Hob.volume? : Hob → Option Volume
  | .firmwareVolume2 baseAddress length => some ⟨baseAddress, length⟩
  | _ => none

/-- A HOB list whose volumes have, in whole pages, lengths of 64 bits. -/
structure HobList where
  hobs : List Hob
  volumes_fit : ∀ volume ∈ hobs.filterMap Hob.volume?, wholePages volume.length.toNat < 2 ^ 64

/-- The allocation HOB of a volume: boot services data at its base, as long as its pages. -/
def Marks (volume : Volume) (hob : Hob) : Prop :=
  ∃ length : UInt64, hob = .memoryAllocation volume.baseAddress length efiBootServicesData ∧
    length.toNat = wholePages volume.length.toNat

def marks : Hob → List Hob
  | .firmwareVolume2 baseAddress length =>
      [.memoryAllocation baseAddress (efiSizeToPages length * efiPageSize) efiBootServicesData]
  | _ => []

def emitted (type : UInt16) (hob : Hob) : List Hob :=
  if type = efiHobTypeFv2 then marks hob else []

theorem hobType_eq_fv2 {hob : Hob} (h : hob.hobType = efiHobTypeFv2) :
    ∃ baseAddress length, hob = .firmwareVolume2 baseAddress length := by
  cases hob with
  | memoryAllocation =>
      exact absurd (show efiHobTypeMemoryAllocation = efiHobTypeFv2 from h) (by decide)
  | firmwareVolume2 baseAddress length => exact ⟨baseAddress, length, rfl⟩
  | guidExtension =>
      exact absurd (show efiHobTypeGuidExtension = efiHobTypeFv2 from h) (by decide)
  | other type body distinct =>
      refine absurd ?_ distinct
      rw [show type = efiHobTypeFv2 from h]
      decide

theorem filter_emitted (type : UInt16) (hob : Hob) :
    (emitted type hob).filter (fun hob => hob.hobType = type) = [] := by
  rw [emitted]
  by_cases htype : type = efiHobTypeFv2
  · subst htype
    rw [if_pos rfl]
    cases hob <;> rfl
  · rw [if_neg htype]
    rfl

theorem fvPass_eq {lib : HobLib} (hnext : GetNextHobSpec lib)
    (hbuild : BuildMemoryAllocationHobSpec lib) (type : UInt16) (walk : Walk Hob) :
    fvPass lib type walk =
      growPass (fun hob => hob.hobType = type) (emitted type) walk := by
  rw [fvPass, growPass, hnext]
  cases hfound : (walk.items.drop walk.place).findIdx? fun hob => hob.hobType = type with
  | none => rfl
  | some skipped =>
      obtain ⟨before, hob, after, hsplit, hlength, htype, -⟩ := findIdx?_split hfound
      have hread : walk.items[walk.place + skipped]? = some hob := by
        rw [← List.getElem?_drop, hsplit, ← hlength, List.getElem?_append_right (Nat.le_refl _),
          Nat.sub_self, List.getElem?_cons_zero]
      simp only [Option.map_some, hread, Option.bind_eq_bind, Option.bind_some]
      by_cases hfv : type = efiHobTypeFv2
      · subst hfv
        obtain ⟨baseAddress, length, rfl⟩ := hobType_eq_fv2 (of_decide_eq_true htype)
        rw [if_pos rfl, markVolume, hbuild]
        rfl
      · rw [if_neg hfv, emitted, if_neg hfv, List.append_nil]

theorem buildMemHobForFv_eq {lib : HobLib} (hnext : GetNextHobSpec lib)
    (hbuild : BuildMemoryAllocationHobSpec lib) (type : UInt16) (hobs : List Hob) {fuel : ℕ}
    (enough : hobs.length < fuel) :
    buildMemHobForFv lib type fuel hobs =
      some (hobs ++ (hobs.filter fun hob => hob.hobType = type).flatMap (emitted type)) := by
  rw [buildMemHobForFv, funext (fvPass_eq hnext hbuild type)]
  apply growPass_total
  · intro hob _
    exact filter_emitted type hob
  · exact Nat.lt_of_le_of_lt List.countP_le_length enough

theorem wholePages_eq (size : ℕ) :
    wholePages size = (size / 4096 + if size % 4096 ≠ 0 then 1 else 0) * 4096 := by
  rw [wholePages]
  split <;> omega

theorem pages_toNat {size : UInt64} (h : wholePages size.toNat < 2 ^ 64) :
    (efiSizeToPages size * efiPageSize).toNat = wholePages size.toNat := by
  have hshift : (size >>> 12).toNat = size.toNat / 4096 := by
    rw [UInt64.toNat_shiftRight]
    exact Nat.shiftRight_eq_div_pow _ _
  have hmask : (size &&& 0xfff).toNat = size.toNat % 4096 := by
    rw [UInt64.toNat_and]
    exact Nat.and_two_pow_sub_one_eq_mod _ 12
  have hrest : size &&& 0xfff ≠ 0 ↔ size.toNat % 4096 ≠ 0 := by
    rw [← hmask, not_iff_not]
    exact UInt64.toNat_inj.symm
  have hextra : (if size &&& 0xfff ≠ 0 then (1 : UInt64) else 0).toNat =
      if size.toNat % 4096 ≠ 0 then 1 else 0 := by
    by_cases hzero : size.toNat % 4096 ≠ 0
    · rw [if_pos hzero, if_pos (hrest.mpr hzero)]
      rfl
    · rw [if_neg hzero, if_neg (fun hne => hzero (hrest.mp hne))]
      rfl
  have hlt := size.toNat_lt
  rw [wholePages_eq] at h ⊢
  rw [efiSizeToPages, UInt64.toNat_mul, UInt64.toNat_add, hshift, hextra]
  change (_ % 2 ^ 64 * 4096) % 2 ^ 64 = _
  generalize (if size.toNat % 4096 ≠ 0 then 1 else 0) = extra at h ⊢
  omega

theorem volume?_eq_none {hob : Hob} (h : hob.hobType ≠ efiHobTypeFv2) : hob.volume? = none := by
  cases hob with
  | firmwareVolume2 => exact absurd rfl h
  | memoryAllocation => rfl
  | guidExtension => rfl
  | other => rfl

theorem forall₂_marks {hobs : List Hob}
    (h : ∀ volume ∈ hobs.filterMap Hob.volume?, wholePages volume.length.toNat < 2 ^ 64) :
    List.Forall₂ Marks (hobs.filterMap Hob.volume?)
      ((hobs.filter fun hob => hob.hobType = efiHobTypeFv2).flatMap (emitted efiHobTypeFv2)) := by
  induction hobs with
  | nil => exact .nil
  | cons hob hobs ih =>
      by_cases hvolume : hob.hobType = efiHobTypeFv2
      · obtain ⟨baseAddress, length, rfl⟩ := hobType_eq_fv2 hvolume
        have hsome : (Hob.firmwareVolume2 baseAddress length).volume? =
            some ⟨baseAddress, length⟩ := rfl
        rw [List.filterMap_cons_some hsome] at h ⊢
        rw [List.filter_cons_of_pos (by simpa using hvolume), List.flatMap_cons]
        have hpages := pages_toNat (h _ List.mem_cons_self)
        apply List.Forall₂.cons ⟨_, rfl, hpages⟩
        apply ih
        intro volume hmem
        exact h volume (List.mem_cons_of_mem _ hmem)
      · rw [List.filterMap_cons_none (volume?_eq_none hvolume)] at h ⊢
        rw [List.filter_cons_of_neg (by simpa using hvolume)]
        exact ih h

/-- The walk over a HOB list ends, keeps the HOBs that are there and adds, in order, one boot
services data allocation for each firmware volume, over its whole pages. -/
theorem buildMemHobForFv_spec (lib : HobLib) (hnext : GetNextHobSpec lib)
    (hbuild : BuildMemoryAllocationHobSpec lib) (list : HobList) (fuel : ℕ)
    (enough : list.hobs.length < fuel) :
    ∃ allocations, buildMemHobForFv lib efiHobTypeFv2 fuel list.hobs =
        some (list.hobs ++ allocations) ∧
      List.Forall₂ Marks (list.hobs.filterMap Hob.volume?) allocations := by
  refine ⟨_, buildMemHobForFv_eq hnext hbuild efiHobTypeFv2 list.hobs enough, ?_⟩
  exact forall₂_marks list.volumes_fit

def listHobLib : HobLib where
  getNextHob type hobs start :=
    ((hobs.drop start).findIdx? fun hob => hob.hobType = type).map (start + ·)
  buildMemoryAllocationHob baseAddress length memoryType hobs :=
    hobs ++ [.memoryAllocation baseAddress length memoryType]
  buildGuidDataHob name data hobs := hobs ++ [.guidExtension name data]

def twoVolumes : HobList where
  hobs := [.firmwareVolume2 0x80108000 0x200000, .guidExtension .shLib [],
    .firmwareVolume2 0x84000000 0x1001]
  volumes_fit := by decide

theorem buildMemHobForFv_spec_twoVolumes :
    ∃ allocations, buildMemHobForFv listHobLib efiHobTypeFv2 4 twoVolumes.hobs =
        some (twoVolumes.hobs ++ allocations) ∧
      List.Forall₂ Marks (twoVolumes.hobs.filterMap Hob.volume?) allocations :=
  buildMemHobForFv_spec listHobLib (fun _ _ _ => rfl) (fun _ _ _ _ => rfl) twoVolumes 4 (by decide)

theorem installPlatformHob_again {lib : HobLib} {fuel infoBlkAddress shLibAddress : ℕ}
    {initialized initialized' : Bool} {hobs hobs' : List Hob}
    (h : installPlatformHob lib fuel infoBlkAddress shLibAddress initialized hobs =
      some (initialized', hobs')) :
    installPlatformHob lib fuel infoBlkAddress shLibAddress initialized' hobs' =
      some (initialized', hobs') := by
  cases initialized' with
  | true => rfl
  | false =>
      cases initialized with
      | true => cases h
      | false =>
          rw [installPlatformHob] at h
          obtain ⟨walked, -, hlast⟩ := Option.bind_eq_some_iff.mp h
          cases hlast

end MuTegra.Pei.VolumeHobs
