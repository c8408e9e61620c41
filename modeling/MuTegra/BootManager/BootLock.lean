/- Unit: MuTegra/BootManager/BootLock
   source: NvidiaPkg/Library/DeviceBootManagerLib/DeviceBootManagerLib.c
   digest: The boot variables are locked at every ready-to-boot signal: no lock is recorded. -/

import MuTegra.Foundation.ByteFields
import MuTegra.Foundation.Runs
import MuTegra.Uefi.Status
import MuTegra.Uefi.Strings

set_option autoImplicit false
set_option relaxedAutoImplicit false

namespace MuTegra.BootManager.BootLock

open MuTegra.Foundation.ByteFields
open MuTegra.Foundation.Runs
open MuTegra.Uefi.Status
open MuTegra.Uefi.Strings (wide)

def efiBootOrderVariableName : List UInt16 := wide "BootOrder"

def efiBootNextVariableName : List UInt16 := wide "BootNext"

/-- What a call asks of the variable services. Every policy it registers is of the lock-now type,
with no limit on sizes and attributes, and every variable it sets it deletes. -/
inductive Request
  | lockNow (name : List UInt16)
  | deleteVariable (name : List UInt16)
  deriving DecidableEq, Repr

/-- What the services answer during a call: the boot order lock setting, the search for the
variable policy protocol, and the contents of BootOrder when there is one. -/
structure Call where
  settingStatus : EfiStatus
  enableBootOrderLock : Bool
  locateStatus : EfiStatus
  bootOrder : Option (List UInt8)

/-- A digit of `%x`, in upper case. -/
def hexDigit (value : ℕ) : UInt16 :=
  if value < 10 then (48 + value).toUInt16 else (55 + value).toUInt16

/-- `L"Boot%04x"`; it leaves room for the terminator in a buffer for `Boot####`. -/
def optionName (bootOption : UInt16) : List UInt16 :=
  wide "Boot" ++
    [hexDigit (bootOption.toNat / 4096 % 16), hexDigit (bootOption.toNat / 256 % 16),
      hexDigit (bootOption.toNat / 16 % 16), hexDigit (bootOption.toNat % 16)]

/-- The loop over the entries from `i` on, with `left` of them to go. -/
def lockOptions (bootOrder : List UInt8) (i : ℕ) : ℕ → List Request
  | 0 => []
  | left + 1 =>
      .lockNow (optionName (field bootOrder (2 * i) 2).toUInt16) ::
        lockOptions bootOrder (i + 1) left

/-- `BdsBootLockBootVariables`, from its static flag to the requests it makes and the flag. -/
def bdsBootLockBootVariables (alreadyLocked : Bool) (call : Call) : List Request × Bool :=
  if alreadyLocked then ([], alreadyLocked)
  else if efiError call.settingStatus then ([], alreadyLocked)
  else if !call.enableBootOrderLock then ([], alreadyLocked)
  else if efiError call.locateStatus then ([], alreadyLocked)
  else
    let requests :=
      [.lockNow efiBootOrderVariableName, .deleteVariable efiBootNextVariableName,
        .lockNow efiBootNextVariableName]
    match call.bootOrder with
    | none => (requests, alreadyLocked)
    | some bootOrder =>
        (requests ++ lockOptions bootOrder 0 (bootOrder.length / 2), alreadyLocked)

def Call.finds (call : Call) : Bool :=
  !efiError call.settingStatus && call.enableBootOrderLock && !efiError call.locateStatus

/-- The boot options a BootOrder names, in order; a byte that is left over names none. -/
def namedOptions : List UInt8 → List UInt16
  | low :: high :: rest => (decodeLe [low, high]).toUInt16 :: namedOptions rest
  | _ => []

def bootLocks (bootOrder : Option (List UInt8)) : List Request :=
  [.lockNow efiBootOrderVariableName, .deleteVariable efiBootNextVariableName,
    .lockNow efiBootNextVariableName] ++
    (namedOptions (bootOrder.getD [])).map fun bootOption => .lockNow (optionName bootOption)

/-- The first call that finds the protocol makes the locks, and no other call asks for anything. -/
def LocksOnce (calls : List Call) : Prop :=
  ∀ before first later, calls = before ++ first :: later → (∀ call ∈ before, ¬ call.finds) →
    first.finds →
      answers bdsBootLockBootVariables false calls =
        before.map (fun _ => []) ++ bootLocks first.bootOrder :: later.map fun _ => []

theorem namedOptions_drop (bootOrder : List UInt8) (i : ℕ) (h : 2 * i + 2 ≤ bootOrder.length) :
    namedOptions (bootOrder.drop (2 * i)) =
      (field bootOrder (2 * i) 2).toUInt16 :: namedOptions (bootOrder.drop (2 * (i + 1))) := by
  have hlen : (bootOrder.drop (2 * i)).length = bootOrder.length - 2 * i := List.length_drop
  have hnext : bootOrder.drop (2 * (i + 1)) = (bootOrder.drop (2 * i)).drop 2 := by
    rw [List.drop_drop]
    rfl
  rw [hnext, field]
  cases hrest : bootOrder.drop (2 * i) with
  | nil =>
      rw [hrest, List.length_nil] at hlen
      omega
  | cons low tail =>
      cases tail with
      | nil =>
          rw [hrest, List.length_singleton] at hlen
          omega
      | cons high rest => rfl

theorem lockOptions_eq (bootOrder : List UInt8) (left i : ℕ)
    (h : i + left = bootOrder.length / 2) :
    lockOptions bootOrder i left =
      (namedOptions (bootOrder.drop (2 * i))).map fun bootOption =>
        .lockNow (optionName bootOption) := by
  induction left generalizing i with
  | zero =>
      have hlen : (bootOrder.drop (2 * i)).length < 2 := by
        rw [List.length_drop]
        omega
      match hrest : bootOrder.drop (2 * i) with
      | [] => rfl
      | [_] => rfl
      | low :: high :: rest =>
          rw [hrest] at hlen
          simp only [List.length_cons] at hlen
          omega
  | succ left ih =>
      rw [lockOptions, ih (i + 1) (by omega), namedOptions_drop bootOrder i (by omega),
        List.map_cons]

def requestsOf (call : Call) : List Request :=
  if call.finds then bootLocks call.bootOrder else []

/-- The flag is never set, so a call does what it would do as the first. -/
theorem bdsBootLockBootVariables_eq (call : Call) :
    bdsBootLockBootVariables false call = (requestsOf call, false) := by
  rw [bdsBootLockBootVariables, requestsOf, Call.finds]
  cases efiError call.settingStatus with
  | true => rfl
  | false =>
      cases call.enableBootOrderLock with
      | false => rfl
      | true =>
          cases efiError call.locateStatus with
          | true => rfl
          | false =>
              cases hbootOrder : call.bootOrder with
              | none => rfl
              | some bootOrder =>
                  have hall := lockOptions_eq bootOrder (bootOrder.length / 2) 0 (Nat.zero_add _)
                  change (_ ++ lockOptions bootOrder 0 (bootOrder.length / 2), false) = _
                  rw [hall]
                  rfl

theorem answers_eq (calls : List Call) :
    answers bdsBootLockBootVariables false calls = calls.map requestsOf := by
  induction calls with
  | nil => rfl
  | cons call calls ih => rw [answers, bdsBootLockBootVariables_eq, ih, List.map_cons]

theorem requestsOf_eq_nil_iff {call : Call} : requestsOf call = [] ↔ ¬ call.finds := by
  rw [requestsOf]
  split
  · next hfinds => exact iff_of_false (List.cons_ne_nil _ _) (not_not_intro hfinds)
  · next hfinds => exact iff_of_true rfl hfinds

theorem map_requestsOf_iff {calls : List Call} :
    calls.map requestsOf = calls.map (fun _ => []) ↔ ∀ call ∈ calls, ¬ call.finds := by
  rw [List.map_inj_left]
  exact forall₂_congr fun _ _ => requestsOf_eq_nil_iff

/-- After the first call that finds the protocol, the run is as it should be exactly when no
other call finds it. -/
theorem answers_split_iff {before later : List Call} {first : Call}
    (hbefore : ∀ call ∈ before, ¬ call.finds) (hfirst : first.finds) :
    answers bdsBootLockBootVariables false (before ++ first :: later) =
        before.map (fun _ => []) ++ bootLocks first.bootOrder :: later.map (fun _ => []) ↔
      ∀ call ∈ later, ¬ call.finds := by
  have hrequests : requestsOf first = bootLocks first.bootOrder := if_pos hfirst
  rw [answers_eq, List.map_append, List.map_cons, map_requestsOf_iff.mpr hbefore, hrequests,
    List.append_cancel_left_eq, List.cons_inj_right, map_requestsOf_iff]

theorem countP_split {before later : List Call} {first : Call}
    (hbefore : ∀ call ∈ before, ¬ call.finds) (hfirst : first.finds) :
    (before ++ first :: later).countP Call.finds ≤ 1 ↔ ∀ call ∈ later, ¬ call.finds := by
  rw [List.countP_append, List.countP_cons_of_pos hfirst, List.countP_eq_zero.mpr hbefore,
    ← List.countP_eq_zero]
  omega

theorem exists_first {calls : List Call} (h : ∃ call ∈ calls, call.finds) :
    ∃ before first later, calls = before ++ first :: later ∧
      (∀ call ∈ before, ¬ call.finds) ∧ first.finds := by
  obtain ⟨first, hfind⟩ := Option.isSome_iff_exists.mp (List.find?_isSome.mpr h)
  obtain ⟨hfirst, before, later, hsplit, hbefore⟩ := List.find?_eq_some_iff_append.mp hfind
  refine ⟨before, first, later, hsplit, ?_, hfirst⟩
  intro call hcall hfinds
  have hnot := hbefore call hcall
  rw [hfinds] at hnot
  exact Bool.false_ne_true hnot

/-- A signal with the lock enabled, the protocol there and one boot option in the order. -/
def lockedSignal : Call := ⟨efiSuccess, true, efiSuccess, some [0x1a, 0]⟩

example : requestsOf lockedSignal =
    [.lockNow (wide "BootOrder"), .deleteVariable (wide "BootNext"),
      .lockNow (wide "BootNext"), .lockNow (wide "Boot001A")] := by
  decide

end MuTegra.BootManager.BootLock
