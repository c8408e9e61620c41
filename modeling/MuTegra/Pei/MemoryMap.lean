/- Unit: MuTegra/Pei/MemoryMap
   source: NvidiaPkg/Library/MemoryInitPeiLib/MemoryInitPeiLib.c,
     NvidiaPkg/Library/ArmPlatformLib/ArmPlatformLibMem.c,
     NvidiaPkg/Include/Library/PlatformMemoryMapLib.h
   digest: The platform memory map becomes an MMU table and the hand-off blocks of its regions. -/

import Mathlib.Data.List.Basic
import Mathlib.Data.List.TakeWhile

set_option autoImplicit false
set_option relaxedAutoImplicit false

namespace MuTegra.Pei.MemoryMap

inductive DeviceMemoryAddHob
  | noHob
  | addMem
  | addDev
  | allocOnly
  | maxMem
  deriving DecidableEq, Repr

def efiResourceSystemMemory : UInt32 := 0

def efiRuntimeServicesData : UInt32 := 6

structure DescriptorEx where
  address : UInt64
  length : UInt64
  hobOption : DeviceMemoryAddHob
  resourceType : UInt32
  resourceAttribute : UInt32
  memoryType : UInt32
  armAttributes : UInt32
  deriving DecidableEq

structure Region where
  physicalBase : UInt64
  virtualBase : UInt64
  length : UInt64
  attributes : UInt32
  deriving DecidableEq

def maxArmMemoryRegionDescriptorCount : ℕ := 128

abbrev Table := Vector Region maxArmMemoryRegionDescriptorCount

inductive PeimCall
  | buildResourceDescriptorHob (resourceType resourceAttribute : UInt32) (address length : UInt64)
  | buildMemoryAllocationHob (address length : UInt64) (memoryType : UInt32)
  | armConfigureMmu (table : Table)
  | buildMemoryTypeInformationHob
  deriving DecidableEq

/-- `MemoryTable[Index]` is assigned; a store outside the table is a fault. -/
def store (table : Table) (index : ℕ) (region : Region) : Option Table :=
  if h : index < maxArmMemoryRegionDescriptorCount then some (table.set index region h) else none

def addHob (desc : DescriptorEx) : List PeimCall :=
  (if desc.hobOption ≠ .allocOnly then
    [.buildResourceDescriptorHob desc.resourceType desc.resourceAttribute desc.address desc.length]
  else []) ++
  (if desc.resourceType = efiResourceSystemMemory ∨ desc.memoryType = efiRuntimeServicesData then
    [.buildMemoryAllocationHob desc.address desc.length desc.memoryType]
  else [])

def switchHob (desc : DescriptorEx) : List PeimCall :=
  match desc.hobOption with
  | .addMem | .addDev | .allocOnly => addHob desc
  | .noHob | .maxMem => []

structure Walk where
  index : ℕ
  table : Table
  calls : List PeimCall

/-- The loop of `MemoryPeim` from a descriptor on; past the list it reads what is not there. -/
def memoryPeimLoop : List DescriptorEx → Walk → Option Walk
  | [], _ => none
  | desc :: rest, walk =>
      if desc.length ≠ 0 then do
        let calls := walk.calls ++ switchHob desc
        let table ← store walk.table walk.index
          ⟨desc.address, desc.address, desc.length, desc.armAttributes⟩
        memoryPeimLoop rest ⟨walk.index + 1, table, calls⟩
      else some walk

/-- `MemoryPeim` on a table with whatever is on the stack: the calls it makes. -/
def memoryPeim (platformMemoryMap : List DescriptorEx) (stack : Table)
    (prePiProduceMemoryTypeInformationHob : Bool) : Option (List PeimCall) := do
  let walk ← memoryPeimLoop platformMemoryMap ⟨0, stack, []⟩
  let table ← store walk.table walk.index ⟨0, 0, 0, 0⟩
  let calls := walk.calls ++ [.armConfigureMmu table]
  some (if prePiProduceMemoryTypeInformationHob then calls ++ [.buildMemoryTypeInformationHob]
    else calls)

def virtualMemoryMapLoop : List DescriptorEx → ℕ → Table → Option (ℕ × Table)
  | [], _, _ => none
  | desc :: rest, index, table =>
      if desc.length ≠ 0 then do
        let table ← store table index
          ⟨desc.address, desc.address, desc.length, desc.armAttributes⟩
        virtualMemoryMapLoop rest (index + 1) table
      else some (index, table)

def armPlatformGetVirtualMemoryMap (platformMemoryMap : List DescriptorEx) (stack : Table) :
    Option Table := do
  let (index, table) ← virtualMemoryMapLoop platformMemoryMap 0 stack
  store table index ⟨0, 0, 0, 0⟩

/-- A platform memory map: regions, fewer than a table has entries, a terminator of length zero,
and what happens to follow it in memory. -/
structure TerminatedMap where
  regions : List DescriptorEx
  terminator : DescriptorEx
  following : List DescriptorEx
  nonempty : ∀ desc ∈ regions, desc.length ≠ 0
  terminates : terminator.length = 0
  short : regions.length < maxArmMemoryRegionDescriptorCount

def TerminatedMap.entries (map : TerminatedMap) : List DescriptorEx :=
  map.regions ++ map.terminator :: map.following

def identityMapped (desc : DescriptorEx) : Region :=
  ⟨desc.address, desc.address, desc.length, desc.armAttributes⟩

/-- The table starts with one identity-mapped entry for each region, and an all-zero entry. -/
def Maps (regions : List DescriptorEx) (table : Table) : Prop :=
  table.toList.take (regions.length + 1) = regions.map identityMapped ++ [⟨0, 0, 0, 0⟩]

def resourceHob (desc : DescriptorEx) : List PeimCall :=
  if desc.hobOption = .addMem ∨ desc.hobOption = .addDev then
    [.buildResourceDescriptorHob desc.resourceType desc.resourceAttribute desc.address desc.length]
  else []

/-- The allocation HOB of system memory and of runtime data, unless the region has no HOB. -/
def allocationHob (desc : DescriptorEx) : List PeimCall :=
  if (desc.hobOption = .addMem ∨ desc.hobOption = .addDev ∨ desc.hobOption = .allocOnly) ∧
      (desc.resourceType = efiResourceSystemMemory ∨ desc.memoryType = efiRuntimeServicesData) then
    [.buildMemoryAllocationHob desc.address desc.length desc.memoryType]
  else []

theorem switchHob_eq (desc : DescriptorEx) :
    switchHob desc = resourceHob desc ++ allocationHob desc := by
  rw [switchHob, resourceHob, allocationHob]
  cases hoption : desc.hobOption with
  | noHob => rfl
  | maxMem => rfl
  | addMem => simp [addHob, hoption]
  | addDev => simp [addHob, hoption]
  | allocOnly => simp [addHob, hoption]

variable {table : Table} {index : ℕ} {region : Region}

theorem store_spec (table : Table) (region : Region)
    (h : index < maxArmMemoryRegionDescriptorCount) :
    ∃ table', store table index region = some table' ∧
      table'.toList.take (index + 1) = table.toList.take index ++ [region] := by
  refine ⟨table.set index region h, dif_pos h, ?_⟩
  have hlen : index < (table.toList.set index region).length := by
    rwa [List.length_set, Vector.length_toList]
  rw [Vector.toList_set, List.take_succ_eq_append_getElem hlen, List.getElem_set_self,
    List.take_set_of_le (Nat.le_refl index)]

theorem virtualMemoryMapLoop_spec (regions : List DescriptorEx) {terminator : DescriptorEx}
    (following : List DescriptorEx) (hregions : ∀ desc ∈ regions, desc.length ≠ 0)
    (hterminator : terminator.length = 0) (index : ℕ) (table : Table)
    (hshort : index + regions.length < maxArmMemoryRegionDescriptorCount) :
    ∃ table', virtualMemoryMapLoop (regions ++ terminator :: following) index table =
        some (index + regions.length, table') ∧
      table'.toList.take (index + regions.length) =
        table.toList.take index ++ regions.map identityMapped := by
  induction regions generalizing index table with
  | nil =>
      refine ⟨table, ?_, ?_⟩
      · rw [List.nil_append, virtualMemoryMapLoop, if_neg (not_not_intro hterminator)]
        rfl
      · rw [List.map_nil, List.append_nil]
        rfl
  | cons desc regions ih =>
      rw [List.length_cons] at hshort
      obtain ⟨stored, hstore, hprefix⟩ :=
        store_spec table (identityMapped desc) (show index < _ by omega)
      obtain ⟨table', hloop, htable'⟩ :=
        ih (fun other hother => hregions other (List.mem_cons_of_mem _ hother)) (index + 1) stored
          (by omega)
      have hcount : index + (desc :: regions).length = index + 1 + regions.length := by
        rw [List.length_cons]
        omega
      refine ⟨table', ?_, ?_⟩
      · rw [hcount, ← hloop, List.cons_append, virtualMemoryMapLoop,
          if_pos (hregions desc List.mem_cons_self)]
        change (store table index (identityMapped desc)).bind _ = _
        rw [hstore]
        rfl
      · rw [hcount, htable', hprefix, List.append_assoc]
        rfl

def mapped (platformMemoryMap : List DescriptorEx) : List DescriptorEx :=
  platformMemoryMap.takeWhile fun desc => desc.length ≠ 0

/-- On any list the walk of `MemoryPeim` fills the table the other walk fills, and makes the calls
for the regions it passes. -/
theorem memoryPeimLoop_eq (platformMemoryMap : List DescriptorEx) (walk : Walk) :
    memoryPeimLoop platformMemoryMap walk =
      (virtualMemoryMapLoop platformMemoryMap walk.index walk.table).map fun (index, table) =>
        ⟨index, table, walk.calls ++ (mapped platformMemoryMap).flatMap switchHob⟩ := by
  induction platformMemoryMap generalizing walk with
  | nil => rfl
  | cons desc rest ih =>
      rw [memoryPeimLoop, virtualMemoryMapLoop, mapped]
      by_cases hlength : desc.length = 0
      · rw [if_neg (not_not_intro hlength), if_neg (not_not_intro hlength),
          List.takeWhile_cons_of_neg (by simpa using hlength), List.flatMap_nil, List.append_nil]
        rfl
      · rw [if_pos hlength, if_pos hlength, List.takeWhile_cons_of_pos (by simpa using hlength),
          List.flatMap_cons]
        change (store walk.table walk.index _).bind _ =
          ((store walk.table walk.index _).bind _).map _
        cases store walk.table walk.index
            ⟨desc.address, desc.address, desc.length, desc.armAttributes⟩ with
        | none => rfl
        | some table =>
            rw [Option.bind_some, Option.bind_some, ih, List.append_assoc]
            rfl

theorem TerminatedMap.mapped_entries (map : TerminatedMap) : mapped map.entries = map.regions := by
  rw [mapped, TerminatedMap.entries, List.takeWhile_append_of_pos]
  · rw [List.takeWhile_cons_of_neg (by simpa using map.terminates), List.append_nil]
  · intro desc hdesc
    simpa using map.nonempty desc hdesc

/-- The walk over a terminated map ends at its terminator, with the table filled so far. -/
theorem TerminatedMap.virtualMemoryMapLoop_eq (map : TerminatedMap) (stack : Table) :
    ∃ table, virtualMemoryMapLoop map.entries 0 stack = some (map.regions.length, table) ∧
      table.toList.take map.regions.length = map.regions.map identityMapped := by
  obtain ⟨table, hloop, htable⟩ := virtualMemoryMapLoop_spec map.regions map.following map.nonempty
    map.terminates 0 stack (by rw [Nat.zero_add]; exact map.short)
  rw [Nat.zero_add] at hloop htable
  exact ⟨table, hloop, htable⟩

theorem store_terminator {regions : List DescriptorEx} {table : Table}
    (hshort : regions.length < maxArmMemoryRegionDescriptorCount)
    (htable : table.toList.take regions.length = regions.map identityMapped) :
    ∃ table', store table regions.length ⟨0, 0, 0, 0⟩ = some table' ∧ Maps regions table' := by
  obtain ⟨table', hstore, htable'⟩ := store_spec table ⟨0, 0, 0, 0⟩ hshort
  rw [htable] at htable'
  exact ⟨table', hstore, htable'⟩

theorem armPlatformGetVirtualMemoryMap_spec (map : TerminatedMap) (stack : Table) :
    ∃ table, armPlatformGetVirtualMemoryMap map.entries stack = some table ∧
      Maps map.regions table := by
  obtain ⟨filled, hloop, hfilled⟩ := map.virtualMemoryMapLoop_eq stack
  obtain ⟨table, hstore, hmaps⟩ := store_terminator map.short hfilled
  refine ⟨table, ?_, hmaps⟩
  rw [armPlatformGetVirtualMemoryMap, hloop]
  exact hstore

/-- What the MMU set-up reads of a table, up to its zero entry, is the map. -/
theorem Maps.read {map : TerminatedMap} {table : Table} (h : Maps map.regions table) :
    table.toList.takeWhile (fun region => region.length ≠ 0) =
      map.regions.map identityMapped := by
  rw [← List.take_append_drop (map.regions.length + 1) table.toList, h, List.append_assoc,
    List.takeWhile_append_of_pos]
  · rw [List.singleton_append, List.takeWhile_cons_of_neg (by decide), List.append_nil]
  · intro region hregion
    obtain ⟨desc, hdesc, rfl⟩ := List.mem_map.mp hregion
    exact decide_eq_true (map.nonempty desc hdesc)

/-- `MemoryPeim` hands the MMU set-up a table that maps every region to itself, the table that
`ArmPlatformGetVirtualMemoryMap` builds, and before that makes the HOBs of the regions in order. -/
theorem memoryPeim_spec (map : TerminatedMap) (stack stack' : Table)
    (prePiProduceMemoryTypeInformationHob : Bool) :
    ∃ table table',
      memoryPeim map.entries stack prePiProduceMemoryTypeInformationHob =
        some (map.regions.flatMap (fun desc => resourceHob desc ++ allocationHob desc) ++
          .armConfigureMmu table ::
            if prePiProduceMemoryTypeInformationHob then [.buildMemoryTypeInformationHob]
            else []) ∧
      armPlatformGetVirtualMemoryMap map.entries stack' = some table' ∧
      Maps map.regions table ∧ Maps map.regions table' := by
  obtain ⟨filled, hloop, hfilled⟩ := map.virtualMemoryMapLoop_eq stack
  obtain ⟨table, hstore, hmaps⟩ := store_terminator map.short hfilled
  obtain ⟨table', hother, hmaps'⟩ := armPlatformGetVirtualMemoryMap_spec map stack'
  refine ⟨table, table', ?_, hother, hmaps, hmaps'⟩
  have hhobs : (fun desc => resourceHob desc ++ allocationHob desc) = switchHob :=
    funext fun desc => (switchHob_eq desc).symm
  rw [memoryPeim, memoryPeimLoop_eq, hloop, map.mapped_entries, hhobs]
  change (store filled map.regions.length ⟨0, 0, 0, 0⟩).bind _ = _
  rw [hstore, Option.bind_some]
  cases prePiProduceMemoryTypeInformationHob with
  | false => rfl
  | true => simp

/-- A map with a region for every HOB option, and behind its terminator whatever is there. -/
def sampleMap : TerminatedMap where
  regions :=
    [⟨0x80000000, 0x00108000, .addMem, 0, 0x703C07, 7, 1⟩,
      ⟨0x84849000, 0x00008000, .addMem, 0, 0x703C07, 6, 1⟩,
      ⟨0x00000000, 0x80000000, .addDev, 1, 0x400, 11, 6⟩,
      ⟨0x84851000, 0x00001000, .allocOnly, 0, 0x703C07, 6, 1⟩,
      ⟨0xFC159000, 0x01000000, .noHob, 5, 0x703C07, 0, 5⟩,
      ⟨0xFD159000, 0x02D27000, .maxMem, 0, 0x703C07, 7, 1⟩]
  terminator := ⟨0, 0, .noHob, 0, 0, 0, 0⟩
  following := [⟨0x12345678, 0x10, .addMem, 0, 0, 6, 0⟩]
  nonempty := by decide
  terminates := rfl
  short := by decide

def usedStack : Table := Vector.replicate _ ⟨0xAF, 0xAF, 0xAF, 0xAF⟩

theorem memoryPeim_spec_sampleMap :
    ∃ table table',
      memoryPeim sampleMap.entries usedStack true =
        some [.buildResourceDescriptorHob 0 0x703C07 0x80000000 0x00108000,
          .buildMemoryAllocationHob 0x80000000 0x00108000 7,
          .buildResourceDescriptorHob 0 0x703C07 0x84849000 0x00008000,
          .buildMemoryAllocationHob 0x84849000 0x00008000 6,
          .buildResourceDescriptorHob 1 0x400 0x00000000 0x80000000,
          .buildMemoryAllocationHob 0x84851000 0x00001000 6,
          .armConfigureMmu table, .buildMemoryTypeInformationHob] ∧
      armPlatformGetVirtualMemoryMap sampleMap.entries usedStack = some table' ∧
      Maps sampleMap.regions table ∧ Maps sampleMap.regions table' :=
  memoryPeim_spec sampleMap usedStack usedStack true

end MuTegra.Pei.MemoryMap
