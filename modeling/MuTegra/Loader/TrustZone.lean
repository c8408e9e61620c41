/- Unit: MuTegra/Loader/TrustZone
   source: Tegra30Pkg/Applications/UEFILoader/UEFILoader.c
   digest: The trust-zone patch stays inside its window where the handler occurs with room left. -/

import MuTegra.Foundation.ByteFields
import MuTegra.MemorySearch.Memmem
import Mathlib.Logic.Function.Basic

/-!
Addresses are 32 bits wide, and the MMU is off: memory is a function of the address. The index of
the copy is an `int` compared with a `UINTN`, so it counts modulo `2 ^ 32`.
-/

set_option autoImplicit false
set_option relaxedAutoImplicit false

namespace MuTegra.Loader.TrustZone

open MuTegra.Foundation.ByteFields
open MuTegra.Foundation.Loops (loop loop_total PassOk)
open MuTegra.Foundation.MachineWords
open MuTegra.Foundation.Words.Occurrence
open MuTegra.MemorySearch.Memory
open MuTegra.MemorySearch.Memmem (memmem_nonempty listLib listLib_scanMem8 listLib_compareMem)

structure CopyState where
  i : ℕ
  mem : ℕ → UInt8
  written : List ℕ

/-- `dest_char[i] = src_char[i]`, and the step to the next index. -/
def copyByte (dest src : ℕ) (s : CopyState) : CopyState where
  i := toUint32 (s.i + 1)
  mem := Function.update s.mem (toUint32 (dest + s.i)) (s.mem (toUint32 (src + s.i)))
  written := s.written ++ [toUint32 (dest + s.i)]

/-- A pass of `for (int i=0; i<n; i++)`. -/
def copyPass (dest src n : ℕ) (s : CopyState) : Option (CopyState ⊕ CopyState) :=
  if s.i < n then some (.inl (copyByte dest src s)) else some (.inr s)

def memcpyUsr (fuel dest src n : ℕ) (mem : ℕ → UInt8) : Option CopyState :=
  loop (copyPass dest src n) fuel ⟨0, mem, []⟩

def smcHandlerString : Buffer := ⟨[0x02, 0x00, 0x50, 0xe3, 0xc8], by decide⟩

def window (mem : ℕ → UInt8) : Buffer :=
  ⟨bytesAt mem 0x80000000 0x200000, by rw [bytesAt_length]; decide⟩

def foundAddress : Option ℕ → ℕ
  | some offset => 0x80000000 + offset
  | none => 0

/-- The patch step of `UEFILoaderMain`: the copy goes wherever the search points. -/
def patchTrustZone (lib : BaseMemoryLib) (fuel : ℕ) (mem : ℕ → UInt8) (fileSize : UInt32) :
    Option CopyState := do
  let found ← memmem lib fuel (window mem) smcHandlerString
  let mTZSmcHandlerString := foundAddress found
  memcpyUsr fuel mTZSmcHandlerString 0x93000000 fileSize.toNat mem

/-- What the patch owes: stores inside the window only, the payload in one piece from the first
occurrence of the handler on, and no store when the handler does not occur. -/
structure Patched (mem : ℕ → UInt8) (fileSize : UInt32) (after : CopyState) : Prop where
  inside : ∀ a ∈ after.written, 0x80000000 ≤ a ∧ a < 0x80200000
  frame : ∀ a, a ∉ after.written → after.mem a = mem a
  payload : ∀ offset, FirstOccurrence (window mem).bytes smcHandlerString.bytes (some offset) →
    after.written = (List.range fileSize.toNat).map (0x80000000 + offset + ·) ∧
      bytesAt after.mem (0x80000000 + offset) fileSize.toNat =
        bytesAt mem 0x93000000 fileSize.toNat
  absent : FirstOccurrence (window mem).bytes smcHandlerString.bytes none → after.written = []

/-- The payload is empty, or fits between the first occurrence of the handler and the window's
end. -/
def FitsWindow (mem : ℕ → UInt8) (fileSize : UInt32) : Prop :=
  fileSize = 0 ∨
    ∃ offset, FirstOccurrence (window mem).bytes smcHandlerString.bytes (some offset) ∧
      offset + fileSize.toNat ≤ 0x200000

variable {dest src n : ℕ} {mem : ℕ → UInt8} {s : CopyState}

def Apart (dest src n : ℕ) : Prop :=
  ∀ j < n, ∀ k < n, toUint32 (dest + j) ≠ toUint32 (src + k)

structure Copied (mem : ℕ → UInt8) (dest src n : ℕ) (s : CopyState) : Prop where
  bound : s.i ≤ n
  written : s.written = (List.range s.i).map fun k => toUint32 (dest + k)
  frame : ∀ a, a ∉ s.written → s.mem a = mem a
  bytes : Apart dest src n → ∀ k < s.i, s.mem (toUint32 (dest + k)) = mem (toUint32 (src + k))

theorem copied_start (mem : ℕ → UInt8) (dest src n : ℕ) : Copied mem dest src n ⟨0, mem, []⟩ where
  bound := Nat.zero_le n
  written := rfl
  frame _ _ := rfl
  bytes _ k hk := absurd hk (Nat.not_lt_zero k)

theorem toUint32_add_ne {p j k : ℕ} (hjk : j < k) (hk : k < 4294967296) :
    toUint32 (p + j) ≠ toUint32 (p + k) := by
  unfold toUint32
  omega

theorem Copied.source_not_written (h : Copied mem dest src n s) (hapart : Apart dest src n)
    (hi : s.i < n) : toUint32 (src + s.i) ∉ s.written := by
  intro hmem
  rw [h.written, List.mem_map] at hmem
  obtain ⟨j, hj, heq⟩ := hmem
  apply hapart j _ s.i hi heq
  exact Nat.lt_trans (List.mem_range.mp hj) hi

theorem copyByte_i (dest src : ℕ) (hi : s.i < n) (hn : n < 4294967296) :
    (copyByte dest src s).i = s.i + 1 := by
  apply toUint32_of_lt
  omega

theorem copyByte_mem_before (src : ℕ) {k : ℕ} (hk : k < s.i) (hi : s.i < 4294967296) :
    (copyByte dest src s).mem (toUint32 (dest + k)) = s.mem (toUint32 (dest + k)) :=
  Function.update_of_ne (toUint32_add_ne hk hi) _ _

theorem copyByte_mem_here (dest src : ℕ) (s : CopyState) :
    (copyByte dest src s).mem (toUint32 (dest + s.i)) = s.mem (toUint32 (src + s.i)) :=
  Function.update_self _ _ _

theorem Copied.next (h : Copied mem dest src n s) (hi : s.i < n) (hn : n < 4294967296) :
    Copied mem dest src n (copyByte dest src s) := by
  have hnext := copyByte_i dest src hi hn
  constructor
  · rw [hnext]
    exact hi
  · rw [hnext, List.range_succ, List.map_append, ← h.written]
    rfl
  · intro a ha
    change a ∉ s.written ++ [toUint32 (dest + s.i)] at ha
    rw [List.mem_append, not_or, List.mem_singleton] at ha
    rw [← h.frame a ha.1]
    exact Function.update_of_ne ha.2 _ _
  · intro hapart k hk
    rw [hnext] at hk
    rcases Nat.lt_succ_iff_lt_or_eq.mp hk with hbefore | rfl
    · rw [copyByte_mem_before src hbefore (hi.trans hn)]
      exact h.bytes hapart k hbefore
    · rw [copyByte_mem_here]
      exact h.frame _ (h.source_not_written hapart hi)

theorem copyPass_ok (hn : n < 4294967296) (h : Copied mem dest src n s) :
    PassOk (copyPass dest src n) (Copied mem dest src n) (fun s => n - s.i)
      (fun s => Copied mem dest src n s ∧ s.i = n) s := by
  by_cases hi : s.i < n
  · left
    refine ⟨copyByte dest src s, by rw [copyPass, if_pos hi], h.next hi hn, ?_⟩
    change n - (copyByte dest src s).i < n - s.i
    rw [copyByte_i dest src hi hn]
    omega
  · right
    have hend := h.bound
    exact ⟨s, by rw [copyPass, if_neg hi], h, by omega⟩

theorem memcpyUsr_spec (mem : ℕ → UInt8) (dest src : ℕ) (hn : n < 4294967296) {fuel : ℕ}
    (enough : n < fuel) :
    ∃ s, memcpyUsr fuel dest src n mem = some s ∧ Copied mem dest src n s ∧ s.i = n := by
  apply loop_total (Copied mem dest src n) (fun s => n - s.i)
  · intro s hs
    exact copyPass_ok hn hs
  · exact copied_start mem dest src n
  · exact Nat.lt_of_le_of_lt (Nat.sub_le n 0) enough

variable {lib : BaseMemoryLib} {fileSize : UInt32}

theorem window_length (mem : ℕ → UInt8) : (window mem).bytes.length = 0x200000 := by
  rw [window, bytesAt_length]

theorem smcHandlerString_length : smcHandlerString.bytes.length = 5 := rfl

structure PatchedAt (mem : ℕ → UInt8) (fileSize : UInt32) (found : Option ℕ) (s : CopyState) :
    Prop where
  first : FirstOccurrence (window mem).bytes smcHandlerString.bytes found
  copied : Copied mem (foundAddress found) 0x93000000 fileSize.toNat s
  finished : s.i = fileSize.toNat

theorem patchTrustZone_spec (hscan : ScanMem8Spec lib) (hcompare : CompareMemSpec lib)
    (mem : ℕ → UInt8) (fileSize : UInt32) {fuel : ℕ} (hsearch : 0x20000a < fuel)
    (hcopy : fileSize.toNat < fuel) :
    ∃ found s, patchTrustZone lib fuel mem fileSize = some s ∧ PatchedAt mem fileSize found s := by
  have henough : 2 * smcHandlerString.bytes.length + (window mem).bytes.length < fuel := by
    rw [window_length, smcHandlerString_length]
    exact hsearch
  obtain ⟨found, hrun, hfirst⟩ := memmem_nonempty hscan hcompare (window mem).fits
    smcHandlerString.fits henough (by decide)
  obtain ⟨s, hcopied, hs, hend⟩ :=
    memcpyUsr_spec mem (foundAddress found) 0x93000000 fileSize.toNat_lt hcopy
  refine ⟨found, s, ?_, hfirst, hs, hend⟩
  rw [patchTrustZone, hrun, Option.bind_eq_bind, Option.bind_some]
  exact hcopied

theorem PatchedAt.written {found : Option ℕ} (h : PatchedAt mem fileSize found s) :
    s.written = (List.range fileSize.toNat).map fun k => toUint32 (foundAddress found + k) := by
  rw [h.copied.written, h.finished]

theorem PatchedAt.written_of_empty {found : Option ℕ} (h : PatchedAt mem fileSize found s)
    (hempty : fileSize = 0) : s.written = [] := by
  rw [h.written, hempty]
  rfl

/-- A target that fits the window has the addresses it would have without a bound. -/
theorem PatchedAt.written_inside {offset : ℕ} (h : PatchedAt mem fileSize (some offset) s)
    (hfit : offset + fileSize.toNat ≤ 0x200000) :
    s.written = (List.range fileSize.toNat).map (0x80000000 + offset + ·) := by
  rw [h.written]
  apply List.map_congr_left
  intro k hk
  rw [List.mem_range] at hk
  exact toUint32_of_lt (by rw [foundAddress]; omega)

theorem apart_payload {offset n : ℕ} (hfit : offset + n ≤ 0x200000) :
    Apart (0x80000000 + offset) 0x93000000 n := by
  intro j hj k hk
  rw [toUint32_of_lt (by omega), toUint32_of_lt (by omega)]
  omega

theorem PatchedAt.bytes_inside {offset : ℕ} (h : PatchedAt mem fileSize (some offset) s)
    (hfit : offset + fileSize.toNat ≤ 0x200000) :
    bytesAt s.mem (0x80000000 + offset) fileSize.toNat =
      bytesAt mem 0x93000000 fileSize.toNat := by
  apply List.map_congr_left
  intro k hk
  rw [List.mem_range] at hk
  have hbyte := h.copied.bytes (apart_payload hfit) k (by rw [h.finished]; exact hk)
  rw [foundAddress, toUint32_of_lt (by omega), toUint32_of_lt (by omega)] at hbyte
  exact hbyte

theorem PatchedAt.patched_of_empty {found : Option ℕ} (h : PatchedAt mem fileSize found s)
    (hempty : fileSize = 0) : Patched mem fileSize s := by
  have hwritten := h.written_of_empty hempty
  constructor
  · intro a ha
    rw [hwritten] at ha
    exact absurd ha List.not_mem_nil
  · exact h.copied.frame
  · intro offset _
    rw [hwritten, hempty]
    exact ⟨rfl, rfl⟩
  · intro _
    exact hwritten

theorem PatchedAt.patched_of_fits {offset : ℕ} (h : PatchedAt mem fileSize (some offset) s)
    (hfit : offset + fileSize.toNat ≤ 0x200000) : Patched mem fileSize s := by
  constructor
  · intro a ha
    rw [h.written_inside hfit, List.mem_map] at ha
    obtain ⟨k, hk, rfl⟩ := ha
    rw [List.mem_range] at hk
    omega
  · exact h.copied.frame
  · intro offset' hfirst
    obtain rfl := Option.some_inj.mp (hfirst.unique h.first)
    exact ⟨h.written_inside hfit, h.bytes_inside hfit⟩
  · intro habsent
    exact absurd h.first.1 (habsent offset)

theorem PatchedAt.mem_written {found : Option ℕ} (h : PatchedAt mem fileSize found s) {k : ℕ}
    (hk : k < fileSize.toNat) : toUint32 (foundAddress found + k) ∈ s.written := by
  rw [h.written]
  exact List.mem_map.mpr ⟨k, List.mem_range.mpr hk, rfl⟩

theorem PatchedAt.fits_of_patched {found : Option ℕ} (h : PatchedAt mem fileSize found s)
    (hpatched : Patched mem fileSize s) : FitsWindow mem fileSize := by
  by_cases hempty : fileSize = 0
  · exact .inl hempty
  have hpos : 0 < fileSize.toNat :=
    Nat.pos_of_ne_zero fun hzero => hempty (UInt32.toNat_inj.mp hzero)
  right
  cases found with
  | none =>
      have hstore := h.mem_written hpos
      rw [hpatched.absent h.first] at hstore
      exact absurd hstore List.not_mem_nil
  | some offset =>
      refine ⟨offset, h.first, ?_⟩
      by_contra hlong
      have hinside := (occursAt_iff.mp h.first.1).1
      rw [window_length] at hinside
      -- the first store behind the window
      have hstore := h.mem_written (show 0x200000 - offset < fileSize.toNat by omega)
      have hend : toUint32 (foundAddress (some offset) + (0x200000 - offset)) = 0x80200000 := by
        rw [foundAddress, toUint32_of_lt (by omega)]
        omega
      rw [hend] at hstore
      exact absurd (hpatched.inside _ hstore).2 (Nat.lt_irrefl _)

/-- The patch step ends, and does what it owes exactly when the payload is empty or fits between
the first occurrence of the handler and the end of the window. -/
theorem patchTrustZone_patched_iff (lib : BaseMemoryLib) (hscan : ScanMem8Spec lib)
    (hcompare : CompareMemSpec lib) (mem : ℕ → UInt8) (fileSize : UInt32) (fuel : ℕ)
    (hsearch : 0x20000a < fuel) (hcopy : fileSize.toNat < fuel) :
    ∃ after, patchTrustZone lib fuel mem fileSize = some after ∧
      (Patched mem fileSize after ↔ FitsWindow mem fileSize) := by
  obtain ⟨found, after, hrun, hat⟩ := patchTrustZone_spec hscan hcompare mem fileSize hsearch hcopy
  refine ⟨after, hrun, hat.fits_of_patched, ?_⟩
  rintro (hempty | ⟨offset, hfirst, hfit⟩)
  · exact hat.patched_of_empty hempty
  · obtain rfl := hfirst.unique hat.first
    exact hat.patched_of_fits hfit

def blankMemory : ℕ → UInt8 := fun _ => 0

theorem patchTrustZone_patched_iff_blank :
    ∃ after, patchTrustZone listLib 0x300000 blankMemory 1 = some after ∧
      (Patched blankMemory 1 after ↔ FitsWindow blankMemory 1) :=
  patchTrustZone_patched_iff listLib listLib_scanMem8 listLib_compareMem blankMemory 1 0x300000
    (by decide) (by decide)

theorem blankMemory_absent (i : ℕ) :
    ¬ OccursAt (window blankMemory).bytes smcHandlerString.bytes i := by
  intro hocc
  obtain ⟨hfit, hbytes⟩ := occursAt_iff.mp hocc
  have hfirst := hbytes 0 (by decide)
  rw [smcHandlerString_length, window_length] at hfit
  have hread : (window blankMemory).bytes[i]? = some 0 := by
    rw [window, bytesAt_getElem? (show i < 0x200000 by omega)]
    rfl
  rw [Nat.add_zero, hread] at hfirst
  exact absurd hfirst (by decide)

/-- In a blank trust zone the patch stores its first byte at address 0. -/
theorem not_patched_blankMemory :
    ∃ after, patchTrustZone listLib 0x300000 blankMemory 1 = some after ∧
      ¬ Patched blankMemory 1 after := by
  obtain ⟨found, after, hrun, hat⟩ := patchTrustZone_spec listLib_scanMem8 listLib_compareMem
    blankMemory 1 (show 0x20000a < 0x300000 by decide) (by decide)
  refine ⟨after, hrun, ?_⟩
  intro hpatched
  rcases hat.fits_of_patched hpatched with hempty | ⟨offset, hfirst, -⟩
  · exact absurd hempty (by decide)
  · exact blankMemory_absent offset hfirst.1

end MuTegra.Loader.TrustZone
