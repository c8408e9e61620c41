/- Unit: MuTegra/EarlyStorage/Bounds
   source: NvidiaPkg/Library/MsWheaEarlyStorageLib/MsWheaEarlyStorageLib.c
   digest: Which public calls touch exactly the requested bytes of the log buffer. -/

import MuTegra.EarlyStorage.Storage

/-!
The limit checks work in eight bits on a 32-bit capacity. A call touches the
requested bytes exactly when its checks refuse it or the request ends below the
capacity and below the 256 bytes an index can reach, in a buffer already located.
-/

set_option autoImplicit false
set_option relaxedAutoImplicit false

namespace MuTegra.EarlyStorage.Bounds

open MuTegra.Foundation.MachineWords
open MuTegra.Uefi.Status
open MuTegra.EarlyStorage.Storage

inductive Request where
  | read (ptr : Option (List UInt8))
  | write (ptr : Option (List UInt8))
  | clear
  deriving DecidableEq, Repr

structure Call where
  request : Request
  size : UInt8
  offset : UInt8
  deriving DecidableEq, Repr

def perform (p : Platform) (s : Store) (call : Call) : EfiStatus × Store :=
  match call.request with
  | .read ptr =>
      let out := msWheaEarlyStorageRead p s ptr call.size.toNat call.offset.toNat
      (out.1, out.2.2)
  | .write ptr => msWheaEarlyStorageWrite p s ptr call.size.toNat call.offset.toNat
  | .clear => msWheaEarlyStorageClear p s call.size.toNat call.offset.toNat

def runCalls (p : Platform) (calls : List Call) (s : Store) : Store :=
  calls.foldl (fun s call => (perform p s call).2) s

def Request.HasBuffer : Request → Prop
  | .read ptr => ptr ≠ none
  | .write ptr => ptr ≠ none
  | .clear => True

/-- The address a call adds its byte index to: a read locates the log buffer first. -/
def baseInUse (p : Platform) (s : Store) : Request → ℕ
  | .read _ => (s.locate p).address
  | .write _ => s.address
  | .clear => s.address

structure Accepted (p : Platform) (s : Store) (call : Call) : Prop where
  below : call.offset.toNat < msWheaEarlyStorageGetMaxSize p
  buffer : call.request.HasBuffer
  nonempty : call.size.toNat ≠ 0
  limit : overLength p call.size.toNat
    (toUint8 (msWheaEarlyStorageOffset + call.offset.toNat)) = false
  located : ∀ ptr, call.request = .read ptr → (s.locate p).address ≠ 0

/-- The end of the requested bytes, counted from the start of the log buffer. -/
def Call.limit (call : Call) : ℕ := 0x40 + call.offset.toNat + call.size.toNat

/-- The contract of a public call: success means that exactly the requested bytes
were touched, each once and all below the capacity, and a request past the capacity
is an error that touches nothing. -/
def TouchesExactly (p : Platform) (s : Store) (call : Call) : Prop :=
  ∃ accesses, (perform p s call).2.touched = s.touched ++ accesses ∧
    ((perform p s call).1 = efiSuccess → call.limit ≤ p.capacity ∧
      ∃ buffer, p.logBuffer = some buffer ∧
        accesses.Perm ((List.range call.size.toNat).map
          fun i => buffer + (0x40 + call.offset.toNat + i))) ∧
    (p.capacity < call.limit → efiError (perform p s call).1 = true ∧ accesses = [])

/-- A request that passes the checks ends below the capacity and below `0x100`, and
the address in use is the log buffer's. -/
def Confined (p : Platform) (s : Store) (call : Call) : Prop :=
  Accepted p s call → p.logBuffer = some (baseInUse p s call.request) ∧
    call.limit ≤ p.capacity ∧ call.limit ≤ 0x100

variable {p : Platform} {s : Store} {call : Call}

def Known (p : Platform) (s : Store) : Prop := s.address = 0 ∨ p.logBuffer = some s.address

theorem Known.locate (h : Known p s) : Known p (s.locate p) := by
  unfold Store.locate
  by_cases hzero : s.address = 0
  · rw [if_pos hzero]
    cases hbuffer : p.logBuffer with
    | none => exact Or.inl hzero
    | some a => exact Or.inr hbuffer
  · rw [if_neg hzero]
    exact h

theorem perform_refusedOffset (hbelow : call.offset.toNat ≥ msWheaEarlyStorageGetMaxSize p) :
    perform p s call = (efiInvalidParameter, s) := by
  obtain ⟨request, size, offset⟩ := call
  cases request with
  | read ptr => simp only [perform, msWheaEarlyStorageRead, if_pos hbelow]
  | write ptr => simp only [perform, msWheaEarlyStorageWrite, if_pos hbelow]
  | clear => simp only [perform, msWheaEarlyStorageClear, if_pos hbelow]

theorem perform_refusedSize (hbelow : ¬ call.offset.toNat ≥ msWheaEarlyStorageGetMaxSize p)
    (hcheck : call.size.toNat = 0 ∨ overLength p call.size.toNat
      (toUint8 (msWheaEarlyStorageOffset + call.offset.toNat)) = true) :
    perform p s call = (efiInvalidParameter, s) := by
  obtain ⟨request, size, offset⟩ := call
  cases request with
  | read ptr =>
      cases ptr <;>
        simp only [perform, msWheaEarlyStorageRead, msWheaCMOSRawRead, if_neg hbelow,
          if_pos hcheck]
  | write ptr =>
      cases ptr <;>
        simp only [perform, msWheaEarlyStorageWrite, msWheaCMOSRawWrite, if_neg hbelow,
          if_pos hcheck]
  | clear =>
      simp only [perform, msWheaEarlyStorageClear, msWheaCMOSRawClear, if_neg hbelow,
        if_pos hcheck]

theorem perform_noBuffer (hbelow : ¬ call.offset.toNat ≥ msWheaEarlyStorageGetMaxSize p)
    (hbuffer : ¬ call.request.HasBuffer) : perform p s call = (efiInvalidParameter, s) := by
  obtain ⟨request, size, offset⟩ := call
  cases request with
  | read ptr =>
      obtain rfl := of_not_not hbuffer
      simp only [perform, msWheaEarlyStorageRead, msWheaCMOSRawRead, if_neg hbelow]
  | write ptr =>
      obtain rfl := of_not_not hbuffer
      simp only [perform, msWheaEarlyStorageWrite, msWheaCMOSRawWrite, if_neg hbelow]
  | clear => exact absurd trivial hbuffer

theorem perform_unlocated {ptr : Option (List UInt8)} {size offset : UInt8}
    (hbelow : ¬ offset.toNat ≥ msWheaEarlyStorageGetMaxSize p)
    (hcheck : ¬ (size.toNat = 0 ∨ overLength p size.toNat
      (toUint8 (msWheaEarlyStorageOffset + offset.toNat)) = true))
    (hbuffer : ptr ≠ none) (hlocated : (s.locate p).address = 0) :
    perform p s ⟨.read ptr, size, offset⟩ = (efiInvalidParameter, s.locate p) := by
  obtain ⟨mBuf, rfl⟩ := Option.ne_none_iff_exists'.mp hbuffer
  simp only [perform, msWheaEarlyStorageRead, msWheaCMOSRawRead, if_neg hbelow, if_neg hcheck,
    if_pos hlocated]

theorem perform_accepted (h : Accepted p s call) :
    (perform p s call).1 = efiSuccess ∧
      (perform p s call).2.address = baseInUse p s call.request ∧
      (perform p s call).2.touched = s.touched ++
        indices (toUint8 (msWheaEarlyStorageOffset + call.offset.toNat))
          (baseInUse p s call.request) call.size.toNat 0 := by
  obtain ⟨request, size, offset⟩ := call
  have hbelow : ¬ offset.toNat ≥ msWheaEarlyStorageGetMaxSize p := Nat.not_le.mpr h.below
  have hcheck : ¬ (size.toNat = 0 ∨ overLength p size.toNat
      (toUint8 (msWheaEarlyStorageOffset + offset.toNat)) = true) :=
    not_or.mpr ⟨h.nonempty, ne_true_of_eq_false h.limit⟩
  cases request with
  | read ptr =>
      obtain ⟨mBuf, rfl⟩ := Option.ne_none_iff_exists'.mp h.buffer
      simp only [perform, msWheaEarlyStorageRead, msWheaCMOSRawRead, if_neg hbelow,
        if_neg hcheck, if_neg (h.located _ rfl), readLoop_eq, baseInUse, locate_touched, and_self]
  | write ptr =>
      obtain ⟨mBuf, rfl⟩ := Option.ne_none_iff_exists'.mp h.buffer
      simp only [perform, msWheaEarlyStorageWrite, msWheaCMOSRawWrite, if_neg hbelow,
        if_neg hcheck, baseInUse, writeLoop_address, writeLoop_touched, and_self]
  | clear =>
      simp only [perform, msWheaEarlyStorageClear, msWheaCMOSRawClear, if_neg hbelow,
        if_neg hcheck, baseInUse, writeLoop_address, writeLoop_touched, and_self]

/-- What a call does: its checks refuse it and nothing is touched, or they accept it
and one access is made for each byte. -/
theorem perform_cases (p : Platform) (s : Store) (call : Call) :
    (¬ Accepted p s call ∧ (perform p s call).1 = efiInvalidParameter ∧
      (perform p s call).2.touched = s.touched ∧
      ((perform p s call).2 = s ∨ (perform p s call).2 = s.locate p)) ∨
    (Accepted p s call ∧ (perform p s call).1 = efiSuccess ∧
      (perform p s call).2.address = baseInUse p s call.request ∧
      (perform p s call).2.touched = s.touched ++
        indices (toUint8 (msWheaEarlyStorageOffset + call.offset.toNat))
          (baseInUse p s call.request) call.size.toNat 0) := by
  by_cases accepted : Accepted p s call
  · exact Or.inr ⟨accepted, perform_accepted accepted⟩
  refine Or.inl ⟨accepted, ?_⟩
  by_cases hbelow : call.offset.toNat ≥ msWheaEarlyStorageGetMaxSize p
  · rw [perform_refusedOffset hbelow]
    exact ⟨rfl, rfl, Or.inl rfl⟩
  by_cases hcheck : call.size.toNat = 0 ∨ overLength p call.size.toNat
      (toUint8 (msWheaEarlyStorageOffset + call.offset.toNat)) = true
  · rw [perform_refusedSize hbelow hcheck]
    exact ⟨rfl, rfl, Or.inl rfl⟩
  by_cases hbuffer : call.request.HasBuffer
  · -- only a read can still be refused, for want of a log buffer
    obtain ⟨ptr, hread, hlocated⟩ :
        ∃ ptr, call.request = .read ptr ∧ (s.locate p).address = 0 := by
      by_contra hnone
      apply accepted
      obtain ⟨hsize, hlimit⟩ := not_or.mp hcheck
      refine ⟨Nat.lt_of_not_ge hbelow, hbuffer, hsize, Bool.eq_false_of_not_eq_true hlimit, ?_⟩
      exact fun ptr hread hzero => hnone ⟨ptr, hread, hzero⟩
    obtain ⟨request, size, offset⟩ := call
    obtain rfl := hread
    rw [perform_unlocated hbelow hcheck hbuffer hlocated]
    exact ⟨rfl, locate_touched p s, Or.inr rfl⟩
  · rw [perform_noBuffer hbelow hbuffer]
    exact ⟨rfl, rfl, Or.inl rfl⟩

theorem Known.baseInUse (h : Known p s) (request : Request) :
    baseInUse p s request = 0 ∨ p.logBuffer = some (baseInUse p s request) := by
  cases request with
  | read ptr => exact h.locate
  | write ptr => exact h
  | clear => exact h

theorem Known.perform (h : Known p s) (call : Call) : Known p (perform p s call).2 := by
  rcases perform_cases p s call with ⟨_, _, _, hsame | hlocate⟩ | ⟨_, _, haddress, _⟩
  · rw [hsame]
    exact h
  · rw [hlocate]
    exact h.locate
  · unfold Known
    rw [haddress]
    exact h.baseInUse call.request

theorem Known.runCalls (h : Known p s) (calls : List Call) : Known p (runCalls p calls s) := by
  induction calls generalizing s with
  | nil => exact h
  | cons call calls ih => exact ih (h.perform call)

/-- The touched addresses are the requested ones, each once, exactly when no byte
index wraps and the address in use is the log buffer's. -/
theorem indices_perm_iff {base buffer start size : ℕ} (hsize : size ≠ 0)
    (hbase : base = 0 ∨ base = buffer) :
    (indices (toUint8 start) base size 0).Perm
        ((List.range size).map fun i => buffer + (start + i)) ↔
      base = buffer ∧ start + size ≤ 0x100 := by
  have hindex (i : ℕ) : toUint8 (toUint8 start + i) = (start + i) % 256 :=
    Nat.mod_add_mod start 256 i
  constructor
  · intro hperm
    have hlast : buffer + (start + (size - 1)) ∈ indices (toUint8 start) base size 0 := by
      apply hperm.mem_iff.mpr
      exact List.mem_map.mpr ⟨size - 1, List.mem_range.mpr (by omega), rfl⟩
    simp only [indices, List.mem_map, hindex] at hlast
    obtain ⟨i, _, hi⟩ := hlast
    have hfit : start + size ≤ 0x100 := by omega
    have hfirst : base + start ∈ indices (toUint8 start) base size 0 := by
      simp only [indices, List.mem_map, hindex]
      refine ⟨0, List.mem_range'_1.mpr ⟨le_rfl, by omega⟩, ?_⟩
      rw [Nat.add_zero, Nat.mod_eq_of_lt (by omega)]
    obtain ⟨j, _, hj⟩ := List.mem_map.mp (hperm.mem_iff.mp hfirst)
    exact ⟨by omega, hfit⟩
  · rintro ⟨rfl, hfit⟩
    have heq : indices (toUint8 start) base size 0 =
        (List.range size).map fun i => base + (start + i) := by
      rw [List.range_eq_range', indices]
      refine List.map_congr_left fun i hi => ?_
      obtain ⟨_, hlt⟩ := List.mem_range'_1.mp hi
      rw [hindex, Nat.mod_eq_of_lt (by omega)]
    rw [heq]

/-- After any calls since boot, a call keeps its contract exactly when its own checks
refuse it or it is confined. -/
theorem touchesExactly_iff (p : Platform) (mem : ℕ → UInt8) (calls : List Call)
    (call : Call) :
    TouchesExactly p (runCalls p calls (.boot mem)) call ↔
      Confined p (runCalls p calls (.boot mem)) call := by
  have hknown : Known p (runCalls p calls (.boot mem)) := Known.runCalls (Or.inl rfl) calls
  generalize runCalls p calls (.boot mem) = s at hknown
  rcases perform_cases p s call with ⟨hrefused, hstatus, htouched, _⟩ |
    ⟨haccepted, hstatus, _, htouched⟩
  · refine iff_of_true ⟨[], by rw [htouched, List.append_nil], ?_, ?_⟩
      fun h => absurd h hrefused
    · rw [hstatus]
      intro h
      exact absurd h (ne_success_of_error rfl)
    · intro _
      rw [hstatus]
      exact ⟨rfl, rfl⟩
  · have hbase := hknown.baseInUse call.request
    constructor
    · rintro ⟨accesses, heq, hsuccess, _⟩ _
      obtain ⟨hlimit, buffer, hbuffer, hperm⟩ := hsuccess hstatus
      rw [htouched, List.append_cancel_left_eq] at heq
      subst heq
      have hbase' : baseInUse p s call.request = 0 ∨ baseInUse p s call.request = buffer :=
        hbase.imp_right fun h => Option.some.inj (h.symm.trans hbuffer)
      obtain ⟨hsame, hwrap⟩ := (indices_perm_iff haccepted.nonempty hbase').mp hperm
      exact ⟨hsame ▸ hbuffer, hlimit, hwrap⟩
    · intro hconfined
      obtain ⟨hbuffer, hlimit, hwrap⟩ := hconfined haccepted
      refine ⟨_, htouched, fun _ => ⟨hlimit, _, hbuffer, ?_⟩, fun hpast => by omega⟩
      exact (indices_perm_iff haccepted.nonempty (Or.inr rfl)).mpr ⟨rfl, hwrap⟩

/-- A platform whose capacity leaves one byte after the reserved ones. -/
def shortPlatform : Platform where
  capacity := 0x41
  capacity_fits := by decide
  defaultValue := 0xFF
  memoryMap := [⟨['L', 'o', 'g', ' ', 'B', 'u', 'f', 'f', 'e', 'r'], 0x84849000, 0x8000⟩]

/-- A size just above that capacity wraps the eight-bit check and reads past the end. -/
def shortRead : Call where
  request := .read (some [])
  size := 0x42
  offset := 0

theorem shortRead_not_touchesExactly :
    0x40 < shortPlatform.capacity ∧
      ¬ TouchesExactly shortPlatform (runCalls shortPlatform [] (.boot fun _ => 0)) shortRead := by
  refine ⟨by decide, ?_⟩
  rintro ⟨accesses, _, hsuccess, _⟩
  have hlimit := (hsuccess (by decide)).1
  exact absurd hlimit (by decide)

end MuTegra.EarlyStorage.Bounds
