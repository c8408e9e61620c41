/- Unit: MuTegra/EarlyStorage/Region
   source: NvidiaPkg/Library/MsWheaEarlyStorageLib/MsWheaEarlyStorageLib.c,
   NvidiaPkg/Library/MemoryMapHelperLib/MemoryMapHelperLib.c
   digest: Which runs of public calls since boot stay inside the log buffer's region. -/

import MuTegra.EarlyStorage.Bounds
import Mathlib.Data.List.Induction

/-!
Only a read locates the log buffer. A write or clear before the first read that passes
its checks goes to address zero.
-/

set_option autoImplicit false
set_option relaxedAutoImplicit false

namespace MuTegra.EarlyStorage.Region

open MuTegra.Foundation.MachineWords
open MuTegra.Uefi.Status
open MuTegra.EarlyStorage.Storage
open MuTegra.EarlyStorage.Bounds

def logRegion (p : Platform) : Option RegionDescriptor :=
  locateMemoryMapAreaByName p.memoryMap ['L', 'o', 'g', ' ', 'B', 'u', 'f', 'f', 'e', 'r']

def locates : Request → Bool
  | .read _ => true
  | .write _ => false
  | .clear => false

/-- The checks made before any access, which do not look at the store. -/
structure PassesChecks (p : Platform) (call : Call) : Prop where
  below : call.offset.toNat < msWheaEarlyStorageGetMaxSize p
  buffer : call.request.HasBuffer
  nonempty : call.size.toNat ≠ 0
  limit : overLength p call.size.toNat
    (toUint8 (msWheaEarlyStorageOffset + call.offset.toNat)) = false

/-- The eight-bit index of byte `i` of a request. -/
def byteIndex (call : Call) (i : ℕ) : ℕ := toUint8 (0x40 + call.offset.toNat + i)

def afterBoot (p : Platform) (mem : ℕ → UInt8) (calls : List Call) : Store :=
  runCalls p calls (.boot mem)

/-- The contract over a run: accesses stay in the region, a write or clear makes none
before the region is located, and without a region every call fails without access. -/
structure StaysInRegion (p : Platform) (mem : ℕ → UInt8) (calls : List Call) : Prop where
  inside : ∀ a ∈ (afterBoot p mem calls).touched, ∃ region, logRegion p = some region ∧
    region.address ≤ a ∧ a < region.address + region.length
  waits : ∀ before call, before ++ [call] <+: calls → locates call.request = false →
    (afterBoot p mem before).address = 0 →
    (perform p (afterBoot p mem before) call).2.touched = (afterBoot p mem before).touched
  fails : logRegion p = none → ∀ before call, before ++ [call] <+: calls →
    efiError (perform p (afterBoot p mem before) call).1 = true ∧
      (perform p (afterBoot p mem before) call).2.touched = (afterBoot p mem before).touched

def HasRegion (p : Platform) : Prop := ∃ region, logRegion p = some region ∧ region.address ≠ 0

/-- Each write and clear that passes its checks comes after a read that does, on a
platform with a log buffer, and no request that passes its checks has a byte index past
the region. -/
structure LocatedFirst (p : Platform) (calls : List Call) : Prop where
  first : ∀ before call, before ++ [call] <+: calls → PassesChecks p call →
    locates call.request = false →
    HasRegion p ∧ ∃ earlier ∈ before, PassesChecks p earlier ∧ locates earlier.request = true
  fits : ∀ call ∈ calls, PassesChecks p call → ∀ region, logRegion p = some region →
    region.address ≠ 0 → ∀ i < call.size.toNat, byteIndex call i < region.length

variable {p : Platform} {s : Store} {call : Call}

theorem locate_address (h : Known p s) : (s.locate p).address = p.logBuffer.getD 0 := by
  unfold Store.locate
  rcases h with hzero | hbuffer
  · rw [if_pos hzero, hzero]
  · rw [hbuffer]
    split <;> rfl

theorem accepted_iff : Accepted p s call ↔ PassesChecks p call ∧
    (locates call.request = true → (s.locate p).address ≠ 0) := by
  constructor
  · intro h
    refine ⟨⟨h.below, h.buffer, h.nonempty, h.limit⟩, ?_⟩
    intro hlocates
    cases hrequest : call.request with
    | read ptr => exact h.located ptr hrequest
    | write ptr => simp [hrequest, locates] at hlocates
    | clear => simp [hrequest, locates] at hlocates
  · rintro ⟨hpasses, hlocated⟩
    refine ⟨hpasses.below, hpasses.buffer, hpasses.nonempty, hpasses.limit, ?_⟩
    intro ptr hrequest
    exact hlocated (by rw [hrequest]; rfl)

theorem perform_address_locates (hpasses : PassesChecks p call)
    (hlocates : locates call.request = true) :
    (perform p s call).2.address = (s.locate p).address := by
  obtain ⟨request, size, offset⟩ := call
  have hbelow : ¬ offset.toNat ≥ msWheaEarlyStorageGetMaxSize p := Nat.not_le.mpr hpasses.below
  have hcheck : ¬ (size.toNat = 0 ∨
      overLength p size.toNat (toUint8 (msWheaEarlyStorageOffset + offset.toNat)) = true) := by
    rw [hpasses.limit]
    simpa using hpasses.nonempty
  cases request with
  | read ptr =>
      cases ptr with
      | none => exact absurd rfl hpasses.buffer
      | some mBuf =>
          simp only [perform, msWheaEarlyStorageRead, msWheaCMOSRawRead, if_neg hbelow,
            if_neg hcheck, readLoop_eq]
          split <;> rfl
  | write ptr => cases hlocates
  | clear => cases hlocates

theorem perform_address_other (hother : locates call.request = false) :
    (perform p s call).2.address = s.address := by
  obtain ⟨request, size, offset⟩ := call
  cases request with
  | read ptr => cases hother
  | write ptr =>
      cases ptr with
      | none =>
          simp only [perform, msWheaEarlyStorageWrite, msWheaCMOSRawWrite]
          split_ifs <;> rfl
      | some mBuf =>
          simp only [perform, msWheaEarlyStorageWrite, msWheaCMOSRawWrite]
          split_ifs
          · rfl
          · rfl
          · exact writeLoop_address _ _ _ _ _
  | clear =>
      simp only [perform, msWheaEarlyStorageClear, msWheaCMOSRawClear]
      split_ifs
      · rfl
      · rfl
      · exact writeLoop_address _ _ _ _ _

theorem perform_of_not_passes (hstopped : ¬ PassesChecks p call) : (perform p s call).2 = s := by
  obtain ⟨request, size, offset⟩ := call
  by_cases hbelow : offset.toNat ≥ msWheaEarlyStorageGetMaxSize p
  · cases request <;>
      simp only [perform, msWheaEarlyStorageRead, msWheaEarlyStorageWrite,
        msWheaEarlyStorageClear, if_pos hbelow]
  by_cases hcheck : size.toNat = 0 ∨
      overLength p size.toNat (toUint8 (msWheaEarlyStorageOffset + offset.toNat)) = true
  · cases request with
    | read ptr =>
        cases ptr <;>
          simp only [perform, msWheaEarlyStorageRead, msWheaCMOSRawRead, if_neg hbelow,
            if_pos hcheck]
    | write ptr =>
        cases ptr <;>
          simp only [perform, msWheaEarlyStorageWrite, msWheaCMOSRawWrite, if_neg hbelow,
            if_pos hcheck]
    | clear =>
        simp only [perform, msWheaEarlyStorageClear, msWheaCMOSRawClear, if_neg hbelow,
          if_pos hcheck]
  have hnoBuffer : ¬ request.HasBuffer := by
    intro hbuffer
    rw [not_or] at hcheck
    exact hstopped ⟨Nat.lt_of_not_ge hbelow, hbuffer, hcheck.1, Bool.eq_false_iff.mpr hcheck.2⟩
  cases request with
  | read ptr =>
      cases ptr with
      | none => simp only [perform, msWheaEarlyStorageRead, msWheaCMOSRawRead, if_neg hbelow]
      | some mBuf => exact absurd (Option.some_ne_none mBuf) hnoBuffer
  | write ptr =>
      cases ptr with
      | none => simp only [perform, msWheaEarlyStorageWrite, msWheaCMOSRawWrite, if_neg hbelow]
      | some mBuf => exact absurd (Option.some_ne_none mBuf) hnoBuffer
  | clear => exact absurd trivial hnoBuffer

variable {mem : ℕ → UInt8}

theorem afterBoot_known (p : Platform) (mem : ℕ → UInt8) (calls : List Call) :
    Known p (afterBoot p mem calls) :=
  Known.runCalls (Or.inl rfl) calls

theorem afterBoot_append (p : Platform) (mem : ℕ → UInt8) (calls : List Call) (call : Call) :
    afterBoot p mem (calls ++ [call]) = (perform p (afterBoot p mem calls) call).2 := by
  rw [afterBoot, runCalls, List.foldl_append]
  rfl

def Looked (p : Platform) (calls : List Call) : Prop :=
  ∃ earlier ∈ calls, PassesChecks p earlier ∧ locates earlier.request = true

theorem looked_append {calls : List Call} {call : Call} :
    Looked p (calls ++ [call]) ↔
      Looked p calls ∨ PassesChecks p call ∧ locates call.request = true := by
  simp [Looked, or_and_right, exists_or]

theorem afterBoot_address (p : Platform) (mem : ℕ → UInt8) (calls : List Call) :
    (Looked p calls → (afterBoot p mem calls).address = p.logBuffer.getD 0) ∧
      (¬ Looked p calls → (afterBoot p mem calls).address = 0) := by
  induction calls using List.reverseRecOn with
  | nil =>
      refine ⟨?_, fun _ => rfl⟩
      rintro ⟨earlier, hmem, _⟩
      cases hmem
  | append_singleton calls call ih =>
      rw [afterBoot_append, looked_append]
      by_cases hread : PassesChecks p call ∧ locates call.request = true
      · refine ⟨fun _ => ?_, fun hnot => absurd (Or.inr hread) hnot⟩
        rw [perform_address_locates hread.1 hread.2]
        exact locate_address (afterBoot_known p mem calls)
      · have hsame : (perform p (afterBoot p mem calls) call).2.address =
            (afterBoot p mem calls).address := by
          cases hlocates : locates call.request with
          | false => exact perform_address_other hlocates
          | true =>
              rw [perform_of_not_passes fun hpasses => hread ⟨hpasses, hlocates⟩]
        rw [hsame]
        exact ⟨fun h => ih.1 (h.resolve_right hread), fun h => ih.2 fun h' => h (Or.inl h')⟩

theorem afterBoot_touched_mono {before calls : List Call} (hbefore : before <+: calls) :
    (afterBoot p mem before).touched ⊆ (afterBoot p mem calls).touched := by
  obtain ⟨after, rfl⟩ := hbefore
  induction after using List.reverseRecOn with
  | nil => simp
  | append_singleton after call ih =>
      rw [← List.append_assoc, afterBoot_append]
      rcases perform_cases p (afterBoot p mem (before ++ after)) call with
        ⟨_, _, htouched, _⟩ | ⟨_, _, _, htouched⟩
      · rw [htouched]
        exact ih
      · rw [htouched]
        exact List.subset_append_of_subset_left _ ih

theorem mem_indices {call : Call} {base a : ℕ} :
    a ∈ indices (toUint8 (msWheaEarlyStorageOffset + call.offset.toNat)) base call.size.toNat 0 ↔
      ∃ i < call.size.toNat, a = base + byteIndex call i := by
  have hindex (i : ℕ) : toUint8 (toUint8 (msWheaEarlyStorageOffset + call.offset.toNat) + i) =
      byteIndex call i := Nat.mod_add_mod _ 256 i
  simp only [indices, List.mem_map, List.mem_range'_1, hindex, Nat.zero_le, true_and,
    Nat.zero_add, eq_comm]

/-- After a read has looked for it, or for a read, the address in use is the buffer's. -/
theorem baseInUse_eq (mem : ℕ → UInt8) {before : List Call} {call : Call}
    (hlooked : locates call.request = false → Looked p before) :
    baseInUse p (afterBoot p mem before) call.request = p.logBuffer.getD 0 := by
  cases hrequest : call.request with
  | read ptr => exact locate_address (afterBoot_known p mem before)
  | write ptr => exact (afterBoot_address p mem before).1 (hlooked (by rw [hrequest]; rfl))
  | clear => exact (afterBoot_address p mem before).1 (hlooked (by rw [hrequest]; rfl))

theorem logBuffer_of_region {region : RegionDescriptor} (hregion : logRegion p = some region) :
    p.logBuffer.getD 0 = region.address := by
  have hbuffer : p.logBuffer = (logRegion p).map RegionDescriptor.address := rfl
  rw [hbuffer, hregion]
  rfl

theorem hasRegion_iff : HasRegion p ↔ p.logBuffer.getD 0 ≠ 0 := by
  have hbuffer : p.logBuffer = (logRegion p).map RegionDescriptor.address := rfl
  rw [HasRegion, hbuffer]
  cases logRegion p with
  | none => simp
  | some region => simp

theorem touched_of_accepted {calls before : List Call} {call : Call}
    (hwithin : before ++ [call] <+: calls) (haccepted : Accepted p (afterBoot p mem before) call)
    {i : ℕ} (hi : i < call.size.toNat) :
    baseInUse p (afterBoot p mem before) call.request + byteIndex call i ∈
      (afterBoot p mem calls).touched := by
  apply afterBoot_touched_mono hwithin
  rw [afterBoot_append]
  rcases perform_cases p (afterBoot p mem before) call with ⟨hrefused, _⟩ | ⟨_, _, _, htouched⟩
  · exact absurd haccepted hrefused
  · rw [htouched]
    exact List.mem_append_right _ (mem_indices.mpr ⟨i, hi, rfl⟩)

theorem LocatedFirst.of_prefix {before calls : List Call} (h : LocatedFirst p calls)
    (hbefore : before <+: calls) : LocatedFirst p before where
  first earlier call hwithin := h.first earlier call (hwithin.trans hbefore)
  fits call hmem := h.fits call (hbefore.subset hmem)

theorem LocatedFirst.hasRegion {calls before : List Call} {call : Call} (h : LocatedFirst p calls)
    (hwithin : before ++ [call] <+: calls) (haccepted : Accepted p (afterBoot p mem before) call) :
    HasRegion p := by
  obtain ⟨hpasses, hlocated⟩ := accepted_iff.mp haccepted
  cases hlocates : locates call.request with
  | false => exact (h.first before call hwithin hpasses hlocates).1
  | true =>
      rw [hasRegion_iff, ← locate_address (afterBoot_known p mem before)]
      exact hlocated hlocates

theorem LocatedFirst.inside {calls : List Call} (h : LocatedFirst p calls) :
    ∀ a ∈ (afterBoot p mem calls).touched, ∃ region, logRegion p = some region ∧
      region.address ≤ a ∧ a < region.address + region.length := by
  induction calls using List.reverseRecOn with
  | nil =>
      intro a ha
      cases ha
  | append_singleton calls call ih =>
      have hearlier := ih (h.of_prefix (List.prefix_append calls [call]))
      intro a ha
      rw [afterBoot_append] at ha
      rcases perform_cases p (afterBoot p mem calls) call with
        ⟨_, _, htouched, _⟩ | ⟨haccepted, _, _, htouched⟩
      · rw [htouched] at ha
        exact hearlier a ha
      · rw [htouched] at ha
        rcases List.mem_append.mp ha with hold | hnew
        · exact hearlier a hold
        · obtain ⟨hpasses, _⟩ := accepted_iff.mp haccepted
          have hfirst := h.first calls call (List.prefix_refl _) hpasses
          have hbase := baseInUse_eq mem fun hother => (hfirst hother).2
          obtain ⟨region, hregion, hnonzero⟩ := h.hasRegion (List.prefix_refl _) haccepted
          obtain ⟨i, hi, rfl⟩ := mem_indices.mp hnew
          have hfits := h.fits call (List.mem_append_right _ List.mem_cons_self) hpasses region
            hregion hnonzero i hi
          rw [hbase, logBuffer_of_region hregion]
          exact ⟨region, hregion, Nat.le_add_right _ _, Nat.add_lt_add_left hfits _⟩

theorem StaysInRegion.first {calls : List Call} (h : StaysInRegion p mem calls)
    (before : List Call) (call : Call) (hwithin : before ++ [call] <+: calls)
    (hpasses : PassesChecks p call) (hother : locates call.request = false) :
    HasRegion p ∧ Looked p before := by
  have haccepted : Accepted p (afterBoot p mem before) call :=
    accepted_iff.mpr ⟨hpasses, fun hlocates => by rw [hother] at hlocates; cases hlocates⟩
  have hnonzero : (afterBoot p mem before).address ≠ 0 := by
    intro hzero
    have hsame := h.waits before call hwithin hother hzero
    rcases perform_cases p (afterBoot p mem before) call with
      ⟨hrefused, _⟩ | ⟨_, _, _, htouched⟩
    · exact hrefused haccepted
    · rw [htouched, List.append_right_eq_self] at hsame
      have hlength := congrArg List.length hsame
      rw [indices, List.length_map, List.length_range', List.length_nil] at hlength
      exact hpasses.nonempty hlength
  have hlooked : Looked p before := by
    by_contra hnot
    exact hnonzero ((afterBoot_address p mem before).2 hnot)
  rw [(afterBoot_address p mem before).1 hlooked] at hnonzero
  exact ⟨hasRegion_iff.mpr hnonzero, hlooked⟩

theorem StaysInRegion.locatedFirst {calls : List Call} (h : StaysInRegion p mem calls) :
    LocatedFirst p calls := by
  refine ⟨h.first, ?_⟩
  intro call hmem hpasses region hregion hnonzero i hi
  obtain ⟨before, after, rfl⟩ := List.append_of_mem hmem
  have hwithin : before ++ [call] <+: before ++ call :: after :=
    ⟨after, by rw [List.append_assoc, List.singleton_append]⟩
  have haddress : (afterBoot p mem before |>.locate p).address = region.address :=
    (locate_address (afterBoot_known p mem before)).trans (logBuffer_of_region hregion)
  have haccepted : Accepted p (afterBoot p mem before) call :=
    accepted_iff.mpr ⟨hpasses, fun _ => by rw [haddress]; exact hnonzero⟩
  have htouched := touched_of_accepted hwithin haccepted hi
  rw [baseInUse_eq mem fun hother => (h.first before call hwithin hpasses hother).2,
    logBuffer_of_region hregion] at htouched
  obtain ⟨region', hregion', _, hlt⟩ := h.inside _ htouched
  rw [hregion, Option.some_inj] at hregion'
  subst hregion'
  exact Nat.lt_of_add_lt_add_left hlt

theorem LocatedFirst.staysInRegion {calls : List Call} (h : LocatedFirst p calls) :
    StaysInRegion p mem calls := by
  refine ⟨h.inside, ?_, ?_⟩
  · intro before call hwithin hother hzero
    have hstopped : ¬ PassesChecks p call := by
      intro hpasses
      obtain ⟨hregion, hlooked⟩ := h.first before call hwithin hpasses hother
      rw [(afterBoot_address p mem before).1 hlooked] at hzero
      exact hasRegion_iff.mp hregion hzero
    rw [perform_of_not_passes hstopped]
  · intro hnone before call hwithin
    rcases perform_cases p (afterBoot p mem before) call with
      ⟨_, hstatus, htouched, _⟩ | ⟨haccepted, _⟩
    · rw [hstatus]
      exact ⟨rfl, htouched⟩
    · obtain ⟨region, hregion, _⟩ := h.hasRegion hwithin haccepted
      rw [hnone] at hregion
      cases hregion

/-- From boot, over every run of public calls: accesses stay in the log buffer's region,
writes and clears wait for it, and without it every call fails, if and only if each write
and clear comes after a read and every request fits the region. -/
theorem staysInRegion_iff (p : Platform) (mem : ℕ → UInt8) (calls : List Call) :
    StaysInRegion p mem calls ↔ LocatedFirst p calls :=
  ⟨fun h => h.locatedFirst, fun h => h.staysInRegion⟩

def firstWrite : Call where
  request := .write (some [0x5A])
  size := 1
  offset := 0

/-- On a platform with a log buffer, a write before any read goes to address 0x40. -/
theorem firstWrite_not_staysInRegion :
    ¬ StaysInRegion shortPlatform (fun _ => 0) [firstWrite] := by
  intro h
  have htouched : 0x40 ∈ (afterBoot shortPlatform (fun _ => 0) [firstWrite]).touched := by decide
  obtain ⟨region, hregion, hle, _⟩ := h.inside 0x40 htouched
  cases hregion
  exact absurd hle (by decide)

end MuTegra.EarlyStorage.Region
