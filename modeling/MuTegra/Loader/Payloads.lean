/- Unit: MuTegra/Loader/Payloads
   source: Tegra30Pkg/Applications/UEFILoader/UEFILoader.c
   digest: Payloads that are read one after the other all stay whole, each at its own address. -/

import MuTegra.Foundation.ByteFields
import MuTegra.Foundation.Plotting
import MuTegra.Uefi.Status

/-!
A service is represented by its answer, a file that is read by the bytes it gives. Nothing that is
opened or allocated is given back, so the services see each request once. The pages granted lie in
the 32-bit address space.
-/

set_option autoImplicit false
set_option relaxedAutoImplicit false

namespace MuTegra.Loader.Payloads

open MuTegra.Foundation.ByteFields
open MuTegra.Foundation.MachineWords
open MuTegra.Foundation.Plotting
open MuTegra.Uefi.Status

/-- A call of `LoadUEFIIntoMemory` by `UEFILoaderMain`. -/
structure Load where
  address : ℕ
  name : String
  /-- `FileSize` points to the caller's variable; otherwise it is NULL. -/
  wantsSize : Bool
  deriving DecidableEq

structure LoadCalls where
  loadedImage : EfiStatus
  simpleFileSystem : EfiStatus
  openVolume : EfiStatus
  openFile : EfiStatus
  /-- `GetInfo` without a buffer. -/
  getInfo : EfiStatus
  allocatePool : EfiStatus
  getInfoAgain : EfiStatus
  /-- `FileInfo->FileSize` -/
  fileSize : UInt64
  allocatePages : EfiStatus
  read : EfiStatus
  /-- The bytes that `Read` puts into the buffer; their number replaces `FileInfo->FileSize`. -/
  data : List UInt8

structure Machine where
  mem : ℕ → UInt8
  fileSize : UInt32

def efiSizeToPages (size : ℕ) : ℕ := size / 0x1000 + if size % 0x1000 = 0 then 0 else 1

def loadPayload (load : Load) (calls : LoadCalls) (m : Machine) : EfiStatus × Machine :=
  if calls.fileSize > 0xFFFFFFFF then (efiOutOfResources, m)
  else if efiError calls.allocatePages then (calls.allocatePages, m)
  else
    let mem := blit m.mem load.address (List.replicate calls.fileSize.toNat 0xFF)
    let mem := blit mem load.address calls.data
    if efiError calls.read then (calls.read, { m with mem := mem })
    else if load.wantsSize then
      (calls.read, { mem := mem, fileSize := UInt32.ofNat calls.data.length })
    else
      -- a NULL pointer is stored through
      (calls.read, { m with mem := storeWord mem 0 calls.data.length })

/-- No value when there is no file information to read the size from. -/
def loadUEFIIntoMemory (load : Load) (calls : LoadCalls) (m : Machine) :
    Option (EfiStatus × Machine) :=
  if efiError calls.loadedImage then some (calls.loadedImage, m)
  else if efiError calls.simpleFileSystem then some (calls.simpleFileSystem, m)
  else if efiError calls.openVolume then some (calls.openVolume, m)
  else if efiError calls.openFile then some (calls.openFile, m)
  else if calls.getInfo = efiBufferTooSmall then
    if efiError calls.allocatePool then some (calls.allocatePool, m)
    else if efiError calls.getInfoAgain then some (calls.getInfoAgain, m)
    else some (loadPayload load calls m)
  else if efiError calls.getInfo then some (calls.getInfo, m)
  else none

def loads : List Load :=
  [⟨0x93000000, "ExploitSecureWorld.bin", true⟩, ⟨0x93110000, "SecondaryCores.bin", false⟩,
    ⟨0x93120000, "SecondaryCores.bin", false⟩, ⟨0x93130000, "SecondaryCores.bin", false⟩,
    ⟨0x93200000, "Smc.bin", false⟩, ⟨0x93300000, "Smc.bin", false⟩,
    ⟨0x93400000, "Smc.bin", false⟩, ⟨0x84000000, "ProjectMu.bin", false⟩]

def loadAll (calls : Load → LoadCalls) : List Load → Machine → Option (EfiStatus × Machine)
  | [], m => some (efiSuccess, m)
  | load :: rest, m =>
      match loadUEFIIntoMemory load (calls load) m with
      | none => none
      | some (status, m) => if efiError status then some (status, m) else loadAll calls rest m

/-- No step of a load fails, and the file is not too large. -/
structure LoadCalls.Succeeds (calls : LoadCalls) : Prop where
  services : ∀ status ∈ [calls.loadedImage, calls.simpleFileSystem, calls.openVolume,
    calls.openFile, calls.allocatePool, calls.getInfoAgain, calls.allocatePages, calls.read],
      efiError status = false
  needsBuffer : calls.getInfo = efiBufferTooSmall
  small : calls.fileSize.toNat < 4294967296

/-- `GetInfo` and `Read` give the size and the bytes of the file. -/
structure Serves (file : List UInt8) (calls : LoadCalls) : Prop where
  fileSize : calls.fileSize.toNat = file.length
  data : calls.data = file

def pagesEnd (load : Load) (calls : LoadCalls) : ℕ :=
  load.address + efiSizeToPages calls.fileSize.toNat * 0x1000

/-- `AllocatePages` grants pages that are not in use, so no two loads get the same one. -/
def GrantsFree (calls : Load → LoadCalls) : Prop :=
  ∀ load ∈ loads, ∀ other ∈ loads, load ≠ other →
    efiError (calls load).allocatePages = false → efiError (calls other).allocatePages = false →
      pagesEnd load (calls load) ≤ other.address ∨ pagesEnd other (calls other) ≤ load.address

variable {load : Load} {calls : LoadCalls} {m m' : Machine} {status : EfiStatus}

theorem le_pages (size : ℕ) : size ≤ efiSizeToPages size * 0x1000 := by
  rw [efiSizeToPages]
  split <;> omega

structure Placed (load : Load) (calls : LoadCalls) (m m' : Machine) : Prop where
  granted : efiError calls.allocatePages = false
  read : efiError calls.read = false
  small : calls.fileSize.toNat < 4294967296
  mem : m'.mem =
    (let mem := blit (blit m.mem load.address (List.replicate calls.fileSize.toNat 0xFF))
      load.address calls.data
    if load.wantsSize then mem else storeWord mem 0 calls.data.length)
  fileSize : m'.fileSize = if load.wantsSize then UInt32.ofNat calls.data.length else m.fileSize

theorem placed_of_loadPayload (h : loadPayload load calls m = (status, m'))
    (hstatus : efiError status = false) : Placed load calls m m' := by
  rw [loadPayload] at h
  split at h
  · cases h
    cases hstatus
  split at h
  · next hrefused =>
      cases h
      rw [hrefused] at hstatus
      cases hstatus
  next hsmall hgranted =>
    dsimp only at h
    split at h
    · next hread =>
        cases h
        rw [hread] at hstatus
        cases hstatus
    next hread =>
    rw [Bool.not_eq_true] at hgranted hread
    have hlt : calls.fileSize.toNat < 4294967296 := by
      have hle := UInt64.le_iff_toNat_le.mp (UInt64.not_lt.mp hsmall)
      exact Nat.lt_succ_of_le hle
    split at h <;> next hwants =>
      cases h
      exact ⟨hgranted, hread, hlt, by simp [hwants], by simp [hwants]⟩

theorem placed_of_load (h : loadUEFIIntoMemory load calls m = some (status, m'))
    (hstatus : efiError status = false) : Placed load calls m m' := by
  have hexit : ∀ {refused : EfiStatus}, efiError refused = true →
      some (refused, m) = some (status, m') → Placed load calls m m' := by
    intro refused hrefused heq
    cases heq
    rw [hrefused] at hstatus
    cases hstatus
  rw [loadUEFIIntoMemory] at h
  split at h
  · exact hexit ‹_› h
  split at h
  · exact hexit ‹_› h
  split at h
  · exact hexit ‹_› h
  split at h
  · exact hexit ‹_› h
  split at h
  · split at h
    · exact hexit ‹_› h
    split at h
    · exact hexit ‹_› h
    exact placed_of_loadPayload (Option.some.inj h) hstatus
  · split at h
    · exact hexit ‹_› h
    · cases h

theorem storeWord_off {mem : ℕ → UInt8} {p w a : ℕ} (hp : p + 4 ≤ 4294967296)
    (h : a < p ∨ p + 4 ≤ a) : storeWord mem p w a = mem a := by
  apply storeBytes_off
  intro i hi
  rw [encodeLe_length] at hi
  rw [toUint32_of_lt (by omega)]
  omega

theorem bytesAt_congr {mem mem' : ℕ → UInt8} {a n : ℕ}
    (h : ∀ x, a ≤ x → x < a + n → mem' x = mem x) : bytesAt mem' a n = bytesAt mem a n := by
  apply List.map_congr_left
  intro i hi
  rw [List.mem_range] at hi
  exact h (a + i) (Nat.le_add_right a i) (by omega)

variable {file : List UInt8}

theorem Placed.frame (h : Placed load calls m m') (hserves : Serves file calls) {a : ℕ}
    (ha : 4 ≤ a) (hout : a < load.address ∨ load.address + file.length ≤ a) :
    m'.mem a = m.mem a := by
  have hblank : blit m.mem load.address (List.replicate calls.fileSize.toNat 0xFF) a = m.mem a := by
    apply blit_outside
    rwa [List.length_replicate, hserves.fileSize]
  have hread : blit (blit m.mem load.address (List.replicate calls.fileSize.toNat 0xFF))
      load.address calls.data a = m.mem a := by
    rw [← hblank]
    apply blit_outside
    rwa [hserves.data]
  rw [h.mem]
  dsimp only
  split
  · exact hread
  · rw [storeWord_off (by decide) (.inr ha)]
    exact hread

theorem Placed.bytes (h : Placed load calls m m') (hserves : Serves file calls)
    (hload : 4 ≤ load.address) : bytesAt m'.mem load.address file.length = file := by
  have hdata := @bytesAt_blit_self
    (blit m.mem load.address (List.replicate calls.fileSize.toNat 0xFF)) load.address calls.data
  rw [hserves.data] at hdata
  rw [h.mem, hserves.data]
  dsimp only
  split
  · exact hdata
  · refine (bytesAt_congr ?_).trans hdata
    intro x hx _
    exact storeWord_off (by decide) (.inr (by omega))

section Runs

variable {files : String → List UInt8} {calls : Load → LoadCalls} {m m' : Machine}

theorem le_address {load : Load} (hload : load ∈ loads) : 0x84000000 ≤ load.address := by
  revert load
  decide

def sizeAfter (files : String → List UInt8) (size : UInt32) (done : List Load) : UInt32 :=
  done.foldl
    (fun size load => if load.wantsSize then UInt32.ofNat (files load.name).length else size) size

structure InMemory (files : String → List UInt8) (calls : Load → LoadCalls) (before : Machine)
    (done : List Load) (m : Machine) : Prop where
  placed : ∀ load ∈ done, load ∈ loads ∧ efiError (calls load).allocatePages = false ∧
    Serves (files load.name) (calls load)
  small : ∀ load ∈ done, (files load.name).length < 4294967296
  whole : ∀ load ∈ done, bytesAt m.mem load.address (files load.name).length = files load.name
  frame : ∀ a, 4 ≤ a → a < 0x84000000 → m.mem a = before.mem a
  fileSize : m.fileSize = sizeAfter files before.fileSize done

theorem InMemory.next {before : Machine} {done : List Load} {load : Load}
    (h : InMemory files calls before done m) (hplaced : Placed load (calls load) m m')
    (hserves : Serves (files load.name) (calls load)) (hload : load ∈ loads)
    (hapart : ∀ other ∈ done, pagesEnd other (calls other) ≤ load.address ∨
      pagesEnd load (calls load) ≤ other.address) :
    InMemory files calls before (done ++ [load]) m' := by
  have haddress := le_address hload
  have hall : ∀ {P : Load → Prop}, (∀ other ∈ done, P other) → P load →
      ∀ other ∈ done ++ [load], P other := by
    intro P hdone hlast other hother
    rcases List.mem_append.mp hother with hother | hother
    · exact hdone other hother
    · rw [List.mem_singleton.mp hother]
      exact hlast
  constructor
  · exact hall h.placed ⟨hload, hplaced.granted, hserves⟩
  · exact hall h.small (by rw [← hserves.fileSize]; exact hplaced.small)
  · apply hall
    · intro other hother
      refine (bytesAt_congr ?_).trans (h.whole other hother)
      intro x hx hlt
      obtain ⟨hmem, -, hother'⟩ := h.placed other hother
      have hlow := le_address hmem
      have hpages := le_pages (calls other).fileSize.toNat
      have hpages' := le_pages (calls load).fileSize.toNat
      have hfree := hapart other hother
      rw [pagesEnd, pagesEnd] at hfree
      rw [hother'.fileSize] at hpages hfree
      rw [hserves.fileSize] at hpages' hfree
      exact hplaced.frame hserves (by omega) (by omega)
    · exact hplaced.bytes hserves (by omega)
  · intro a ha hlt
    rw [hplaced.frame hserves ha (.inl (by omega))]
    exact h.frame a ha hlt
  · rw [hplaced.fileSize, h.fileSize, sizeAfter, sizeAfter, List.foldl_append, hserves.data]
    rfl

theorem loadAll_inMemory (hfree : GrantsFree calls)
    (hserves : ∀ load ∈ loads, efiError (calls load).read = false →
      Serves (files load.name) (calls load))
    {before : Machine} {status : EfiStatus} (hstatus : efiError status = false) {rest : List Load} :
    ∀ {done : List Load} {m : Machine}, done ++ rest = loads →
      InMemory files calls before done m → loadAll calls rest m = some (status, m') →
        InMemory files calls before loads m' := by
  induction rest with
  | nil =>
      intro done m hall h hrun
      rw [List.append_nil] at hall
      cases hrun
      rwa [← hall]
  | cons load rest ih =>
      intro done m hall h hrun
      have hload : load ∈ loads := by
        rw [← hall]
        exact List.mem_append_right _ List.mem_cons_self
      have hnodup : (done ++ load :: rest).Nodup := by
        rw [hall]
        decide
      rw [loadAll] at hrun
      cases hout : loadUEFIIntoMemory load (calls load) m with
      | none =>
          rw [hout] at hrun
          cases hrun
      | some out =>
          obtain ⟨answer, m₁⟩ := out
          rw [hout] at hrun
          dsimp only at hrun
          split at hrun
          · next hfailed =>
              cases hrun
              rw [hfailed] at hstatus
              cases hstatus
          next hanswer =>
          rw [Bool.not_eq_true] at hanswer
          have hplaced := placed_of_load hout hanswer
          refine @ih (done ++ [load]) m₁ ?_ ?_ hrun
          · rw [List.append_assoc]
            exact hall
          apply h.next hplaced (hserves load hload hplaced.read) hload
          intro other hother
          obtain ⟨hmem, hgranted, -⟩ := h.placed other hother
          apply hfree other hmem load hload _ hgranted hplaced.granted
          rintro rfl
          exact (List.nodup_append.mp hnodup).2.2 other hother other List.mem_cons_self rfl

theorem loadAll_total {rest : List Load}
    (hbuffer : ∀ load ∈ rest, efiError (calls load).getInfo = true) (m : Machine) :
    ∃ status m', loadAll calls rest m = some (status, m') := by
  induction rest generalizing m with
  | nil => exact ⟨_, _, rfl⟩
  | cons load rest ih =>
      have hload : ∃ status m₁, loadUEFIIntoMemory load (calls load) m = some (status, m₁) := by
        have hinfo := hbuffer load List.mem_cons_self
        rw [loadUEFIIntoMemory]
        split
        · exact ⟨_, _, rfl⟩
        split
        · exact ⟨_, _, rfl⟩
        split
        · exact ⟨_, _, rfl⟩
        split
        · exact ⟨_, _, rfl⟩
        split
        · split
          · exact ⟨_, _, rfl⟩
          split
          · exact ⟨_, _, rfl⟩
          exact ⟨_, _, rfl⟩
        · exact ⟨_, _, rfl⟩
      obtain ⟨status, m₁, hload⟩ := hload
      rw [loadAll, hload]
      dsimp only
      split
      · exact ⟨_, _, rfl⟩
      · exact ih (fun other hother => hbuffer other (List.mem_cons_of_mem load hother)) m₁

theorem load_succeeds (load : Load) {answers : LoadCalls} (h : answers.Succeeds) (m : Machine) :
    ∃ status m', loadUEFIIntoMemory load answers m = some (status, m') ∧
      efiError status = false := by
  have services := h.services
  simp only [List.forall_mem_cons, List.not_mem_nil, false_imp_iff, implies_true, and_true]
    at services
  obtain ⟨image, fileSystem, volume, file, pool, info, pages, read⟩ := services
  have small : ¬ answers.fileSize > 0xFFFFFFFF := by
    rw [gt_iff_lt, UInt64.not_lt, UInt64.le_iff_toNat_le]
    exact Nat.lt_succ_iff.mp h.small
  simp only [loadUEFIIntoMemory, image, fileSystem, volume, file, h.needsBuffer, pool, info,
    loadPayload, if_neg small, pages, read, Bool.false_eq_true, if_true, if_false]
  split <;> exact ⟨_, _, rfl, read⟩

theorem loadAll_succeeds {rest : List Load} (h : ∀ load ∈ rest, (calls load).Succeeds)
    (m : Machine) :
    ∃ status m', loadAll calls rest m = some (status, m') ∧ efiError status = false := by
  induction rest generalizing m with
  | nil => exact ⟨_, _, rfl, rfl⟩
  | cons load rest ih =>
      obtain ⟨status, m₁, hload, hstatus⟩ := load_succeeds load (h load List.mem_cons_self) m
      rw [loadAll, hload]
      dsimp only
      rw [hstatus, if_neg Bool.false_ne_true]
      exact ih (fun other hother => h other (List.mem_cons_of_mem load hother)) m₁

end Runs

end MuTegra.Loader.Payloads
