/- Unit: MuTegra/EarlyStorage/ArrayLaw
   source: NvidiaPkg/Library/MsWheaEarlyStorageLib/MsWheaEarlyStorageLib.c
   digest: Over in-range writes and clears the located store is an array of bytes. -/

import MuTegra.EarlyStorage.Bounds
import MuTegra.EarlyStorage.Record
import MuTegra.Foundation.Overlay
import MuTegra.Foundation.Runs

set_option autoImplicit false
set_option relaxedAutoImplicit false

namespace MuTegra.EarlyStorage.ArrayLaw

open MuTegra.Foundation.Runs
open MuTegra.Foundation.Overlay
open MuTegra.Foundation.MachineWords
open MuTegra.Foundation.ByteFields
open MuTegra.Uefi.Status
open MuTegra.EarlyStorage.Storage
open MuTegra.EarlyStorage.Bounds
open MuTegra.EarlyStorage.Record

def Stores : Request → Prop
  | .read _ => False
  | .write ptr => ptr ≠ none
  | .clear => True

structure InRange (p : Platform) (call : Call) : Prop where
  stores : Stores call.request
  nonempty : 1 ≤ call.size.toNat
  fits : call.limit ≤ p.capacity

def storedByte (p : Platform) (request : Request) (i : ℕ) : UInt8 :=
  match request with
  | .write (some mBuf) => mBuf.getD i 0
  | .write none => p.defaultValue
  | .read _ => p.defaultValue
  | .clear => p.defaultValue

def callPatch (p : Platform) (call : Call) : Patch ℕ UInt8 := fun j =>
  if call.offset.toNat ≤ j ∧ j < call.offset.toNat + call.size.toNat then
    some (storedByte p call.request (j - call.offset.toNat))
  else none

def cells (base : ℕ) (s : Store) : ℕ → UInt8 := fun j => s.mem (base + 0x40 + j)

def OutsideCall (base : ℕ) (call : Call) (x : ℕ) : Prop :=
  x < base + 0x40 + call.offset.toNat ∨
    base + 0x40 + call.offset.toNat + call.size.toNat ≤ x

variable {p : Platform} {base : ℕ} {s : Store} {call : Call}

theorem perform_eq (hcap : p.capacity ≤ 0x100) (hrange : InRange p call) :
    perform p s call = (efiSuccess, writeLoop (0x40 + call.offset.toNat)
      (storedByte p call.request) call.size.toNat 0 s) := by
  obtain ⟨hmax, hwrap, hcheck⟩ := checks_pass hcap hrange.nonempty hrange.fits
  obtain ⟨request, size, offset⟩ := call
  cases request with
  | read ptr => exact absurd hrange.stores id
  | write ptr =>
      cases ptr with
      | none => exact absurd rfl hrange.stores
      | some mBuf =>
          have hcall : perform p s ⟨.write (some mBuf), size, offset⟩ =
              msWheaEarlyStorageWrite p s (some mBuf) size.toNat offset.toNat := rfl
          rw [hcall, msWheaEarlyStorageWrite, if_neg hmax, hwrap, msWheaCMOSRawWrite,
            if_neg hcheck]
          rfl
  | clear =>
      have hcall : perform p s ⟨.clear, size, offset⟩ =
          msWheaEarlyStorageClear p s size.toNat offset.toNat := rfl
      rw [hcall, msWheaEarlyStorageClear, if_neg hmax, hwrap, msWheaCMOSRawClear, if_neg hcheck]
      rfl

theorem perform_spec (hcap : p.capacity ≤ 0x100) (hrange : InRange p call)
    (haddress : s.address = base) :
    (perform p s call).1 = efiSuccess ∧ (perform p s call).2.address = base ∧
      cells base (perform p s call).2 = applyPatch (cells base s) (callPatch p call) ∧
      ∀ x, OutsideCall base call x → (perform p s call).2.mem x = s.mem x := by
  have hfits := hrange.fits
  unfold Call.limit at hfits
  have hmem := writeLoop_mem (0x40 + call.offset.toNat) (storedByte p call.request)
    call.size.toNat s (by omega)
  rw [perform_eq hcap hrange]
  refine ⟨rfl, ?_, ?_, ?_⟩
  · rw [writeLoop_address, haddress]
  · funext j
    simp only [cells, hmem, haddress, applyPatch, callPatch]
    by_cases hj : call.offset.toNat ≤ j ∧ j < call.offset.toNat + call.size.toNat
    · have hplace : base + 0x40 + j - (base + (0x40 + call.offset.toNat)) =
          j - call.offset.toNat := by omega
      rw [if_pos hj, if_pos (by omega), hplace]
      rfl
    · rw [if_neg hj, if_neg (by omega)]
      rfl
  · intro x hx
    unfold OutsideCall at hx
    rw [hmem, haddress, if_neg (by omega)]

theorem perform_run (hcap : p.capacity ≤ 0x100) (haddress : s.address = base) (calls : List Call)
    (hcalls : ∀ call ∈ calls, InRange p call) :
    (∀ status ∈ answers (perform p) s calls, status = efiSuccess) ∧
      (stateAfter (perform p) s calls).address = base ∧
      cells base (stateAfter (perform p) s calls) =
        (calls.map (callPatch p)).foldl applyPatch (cells base s) := by
  induction calls generalizing s with
  | nil =>
      refine ⟨?_, haddress, rfl⟩
      intro status hmem
      cases hmem
  | cons call calls ih =>
      obtain ⟨hstatus, haddress', hcells, _⟩ :=
        perform_spec hcap (hcalls call List.mem_cons_self) haddress
      obtain ⟨hrest, hlast, hpatched⟩ :=
        ih haddress' fun later hlater => hcalls later (List.mem_cons_of_mem call hlater)
      refine ⟨?_, hlast, ?_⟩
      · rw [answers, List.forall_mem_cons]
        exact ⟨hstatus, hrest⟩
      · rw [stateAfter, hpatched, hcells]
        rfl

/-- With the log buffer located and a capacity of at most 0x100, over every run of in-range
writes and clears: each call succeeds and changes nothing outside its range, and a read
then returns at each index the latest byte stored there, or the initial one. -/
theorem arrayLaw (p : Platform) (hcap : p.capacity ≤ 0x100) (base : ℕ) (s : Store)
    (hlocated : Located p base s) (haddress : s.address = base) (calls : List Call)
    (hcalls : ∀ call ∈ calls, InRange p call) :
    (∀ status ∈ answers (perform p) s calls, status = efiSuccess) ∧
    (∀ (mBuf : List UInt8) (size offset : ℕ), 1 ≤ size → 0x40 + offset + size ≤ p.capacity →
      ∃ out s', msWheaEarlyStorageRead p (stateAfter (perform p) s calls) (some mBuf) size offset =
          (efiSuccess, some out, s') ∧
        ∀ i < size, out[i]? = some ((latest (calls.map (callPatch p)) (offset + i)).getD
          (s.mem (base + 0x40 + (offset + i))))) ∧
    ∀ before call, before ++ [call] <+: calls → ∀ x, OutsideCall base call x →
      (stateAfter (perform p) s (before ++ [call])).mem x =
        (stateAfter (perform p) s before).mem x := by
  obtain ⟨hstatus, hlast, hcells⟩ := perform_run hcap haddress calls hcalls
  refine ⟨hstatus, ?_, ?_⟩
  · intro mBuf size offset hsize hfit
    have hlocated' : Located p base (stateAfter (perform p) s calls) :=
      ⟨hlocated.buffer, hlocated.nonzero, Or.inr hlast⟩
    obtain ⟨s', hread, _⟩ := read_any_spec hlocated' hcap hsize hfit mBuf
    refine ⟨_, s', hread, ?_⟩
    intro i hi
    have hcell := congrFun hcells (offset + i)
    rw [applyPatches_eq_latest] at hcell
    have hinside : i < (bytesAt (stateAfter (perform p) s calls).mem (base + 0x40 + offset)
        size).length := by
      rw [bytesAt_length]
      exact hi
    rw [List.getElem?_append_left hinside, bytesAt_getElem? hi, Nat.add_assoc (base + 0x40)]
    exact congrArg some hcell
  · intro before call hwithin x hx
    have hbefore : before <+: calls := (List.prefix_append before [call]).trans hwithin
    obtain ⟨_, haddress', _⟩ := perform_run hcap haddress before
      fun earlier hearlier => hcalls earlier (hbefore.subset hearlier)
    have hrange := hcalls call (hwithin.subset (List.mem_append_right _ List.mem_cons_self))
    rw [stateAfter_append]
    exact (perform_spec hcap hrange haddress').2.2.2 x hx

def locatedStore : Store where
  mem := fun _ => 0
  address := 0x84849000
  touched := []

def clearThenWrite : List Call := [⟨.clear, 1, 0⟩, ⟨.write (some [0x5A]), 1, 0⟩]

theorem arrayLaw_clearThenWrite :
    ∃ out s', msWheaEarlyStorageRead shortPlatform
        (stateAfter (perform shortPlatform) locatedStore clearThenWrite) (some [0]) 1 0 =
          (efiSuccess, some out, s') ∧
      ∀ i < 1, out[i]? = some ((latest (clearThenWrite.map (callPatch shortPlatform))
        (0 + i)).getD (locatedStore.mem (0x84849000 + 0x40 + (0 + i)))) := by
  have hcalls : ∀ call ∈ clearThenWrite, InRange shortPlatform call := by
    intro call hmem
    rcases List.mem_cons.mp hmem with rfl | hmem
    · exact ⟨trivial, by decide, by decide⟩
    · rw [List.mem_singleton] at hmem
      subst hmem
      exact ⟨Option.some_ne_none _, by decide, by decide⟩
  exact (arrayLaw shortPlatform (by decide) 0x84849000 locatedStore
    ⟨by decide, by decide, Or.inr rfl⟩ rfl clearThenWrite hcalls).2.1 [0] 1 0 (by decide)
    (by decide)

end MuTegra.EarlyStorage.ArrayLaw
