/- Unit: MuTegra/EarlyStorage/AppendLog
   source: NvidiaPkg/Library/MsWheaEarlyStorageLib/MsWheaEarlyStorageLib.c
   digest: The early error log refines a bounded log, and what it took can be read back. -/

import MuTegra.EarlyStorage.LogInvariant
import MuTegra.Foundation.AppendLog

set_option autoImplicit false
set_option relaxedAutoImplicit false

namespace MuTegra.EarlyStorage.AppendLog

open MuTegra.Foundation.AppendLog
open MuTegra.Foundation.ByteFields
open MuTegra.Foundation.Runs
open MuTegra.Uefi.Status
open MuTegra.EarlyStorage.Storage
open MuTegra.EarlyStorage.Record
open MuTegra.EarlyStorage.LogInvariant

variable {p : Platform} {L : Layout} {base : ℕ} {s : Store}

/-- A call of `MsWheaESAddRecordV0` with what its locals held. -/
abbrev AddCall (L : Layout) := Locals L × Report

def addStep (p : Platform) (L : Layout) (s : Store) (call : AddCall L) : EfiStatus × Store :=
  msWheaESAddRecordV0 p L s call.1 call.2

def maxRecords (p : Platform) (L : Layout) : ℕ := (p.capacity - 0x40 - L.headerSize) / L.entrySize

def addStatus (taken : Bool) : EfiStatus := if taken then efiSuccess else efiOutOfResources

/-- The buffer is a well-formed log of these calls' records, one behind the other. -/
structure Holds (p : Platform) (L : Layout) (base : ℕ) (s : Store) (calls : List (AddCall L)) :
    Prop where
  log : LogInv p L base calls.length s
  records : bytesAt s.mem (dataStart L base) (calls.length * L.entrySize) =
    calls.flatMap fun call => L.encode (call.2.entry L)

theorem room_iff (hcap : 0x40 + L.headerSize ≤ p.capacity) (k : ℕ) :
    0x40 + L.headerSize + k * L.entrySize + L.entrySize ≤ p.capacity ↔ k < maxRecords p L := by
  rw [maxRecords, Nat.lt_iff_add_one_le, Nat.le_div_iff_mul_le L.entry_pos, Nat.add_mul,
    Nat.one_mul]
  omega

theorem addStep_simulates (hcap : p.capacity ≤ 0x100) :
    Simulates (addStep p L) (appendStep (maxRecords p L)) (Holds p L base) addStatus := by
  intro s calls call h
  have hroom := h.log.room
  have hout := addRecord_step h.log hcap call.1 call.2
  rw [AddOutcome] at hout
  rw [appendStep]
  by_cases hfits : calls.length < maxRecords p L
  · rw [if_pos ((room_iff (by omega) _).mpr hfits)] at hout
    obtain ⟨hstatus, hadded⟩ := hout
    have hlength : (calls ++ [call]).length = calls.length + 1 := by
      rw [List.length_append, List.length_singleton]
    rw [if_pos hfits]
    refine ⟨hstatus, ?_, ?_⟩
    · rw [hlength]
      exact hadded.log
    · rw [hlength, Nat.succ_mul, bytesAt_add, List.flatMap_append, List.flatMap_singleton,
        ← h.records, ← hadded.earlier, ← hadded.record]
      rfl
  · rw [if_neg fun hroom' => hfits ((room_iff (by omega) _).mp hroom')] at hout
    obtain ⟨hstatus, hmem, hlog⟩ := hout
    rw [if_neg hfits]
    refine ⟨hstatus, hlog, ?_⟩
    exact (congrArg (fun mem => bytesAt mem _ _) hmem).trans h.records

theorem bytesAt_slice {mem : ℕ → UInt8} {a n i m : ℕ} (hfit : i + m ≤ n) :
    ((bytesAt mem a n).drop i).take m = bytesAt mem (a + i) m := by
  obtain ⟨rest, rfl⟩ := Nat.exists_eq_add_of_le hfit
  rw [Nat.add_assoc, bytesAt_add, List.drop_left' (bytesAt_length mem a i), bytesAt_add,
    List.take_left' (bytesAt_length mem (a + i) m)]

/-- From an empty log: the first calls are taken, as many as there is room for, all later ones are
refused for lack of resources, and every record taken reads back, in order. -/
theorem addRecords_keepFirst (p : Platform) (L : Layout) (base : ℕ) (s : Store)
    (hcap : p.capacity ≤ 0x100) (h : LogInv p L base 0 s) (calls : List (AddCall L)) :
    answers (addStep p L) s calls =
        List.replicate (min (maxRecords p L) calls.length) efiSuccess ++
          List.replicate (calls.length - maxRecords p L) efiOutOfResources ∧
      ∀ (i : ℕ) (call : AddCall L) (buffer : List UInt8),
        (calls.take (maxRecords p L))[i]? = some call → buffer.length = L.entrySize → ∃ s',
          msWheaEarlyStorageRead p (stateAfter (addStep p L) s calls) (some buffer) L.entrySize
            (L.headerSize + i * L.entrySize) =
              (efiSuccess, some (L.encode (call.2.entry L)), s') := by
  have hempty : Holds p L base s [] := ⟨h, by rw [List.length_nil, Nat.zero_mul]; rfl⟩
  obtain ⟨hanswers, hholds⟩ := (addStep_simulates hcap).run hempty calls
  obtain ⟨hlog, hlogAnswers⟩ := @append_run _ (maxRecords p L) [] calls
    (Nat.zero_le _)
  rw [List.length_nil, Nat.sub_zero] at hlog hlogAnswers
  rw [hlog, List.nil_append] at hholds
  refine ⟨?_, fun i call buffer hcall hbuffer => ?_⟩
  · rw [hanswers, hlogAnswers, List.map_append, List.map_replicate, List.map_replicate]
    rfl
  · generalize stateAfter (addStep p L) s calls = s₁ at hholds
    generalize calls.take (maxRecords p L) = taken at hholds hcall
    obtain ⟨hinv, hrecords⟩ := hholds
    have hi : i < taken.length := (List.getElem?_eq_some_iff.mp hcall).1
    have hroom := hinv.room
    have hinside : i * L.entrySize + L.entrySize ≤ taken.length * L.entrySize := by
      rw [← Nat.succ_mul]
      exact Nat.mul_le_mul_right _ hi
    have hend : 0x40 + (L.headerSize + i * L.entrySize) + L.entrySize ≤ p.capacity := by omega
    obtain ⟨s', hread, -, -⟩ := read_spec hinv.located hcap L.entry_pos hend hbuffer
    refine ⟨s', ?_⟩
    have hslice := flatMap_slice (fun call : AddCall L => L.encode_length (call.2.entry L)) hcall
    rw [hread, ← hslice, ← hrecords, bytesAt_slice hinside, dataStart,
      Nat.add_assoc (base + 0x40)]

def sampleCall : AddCall packedLayout := (zeroLocals, sampleReport)

theorem addRecords_keepFirst_packed :
    answers (addStep logPlatform packedLayout) (.boot fun _ => 0) (List.replicate 4 sampleCall) =
      List.replicate 3 efiSuccess ++ List.replicate 1 efiOutOfResources :=
  (addRecords_keepFirst logPlatform packedLayout 0x84849000 (.boot fun _ => 0) (by decide)
    emptyLog_inv (List.replicate 4 sampleCall)).1

end MuTegra.EarlyStorage.AppendLog
