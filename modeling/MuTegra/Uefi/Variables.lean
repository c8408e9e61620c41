/- Unit: MuTegra/Uefi/Variables
   scope: the variable services of the firmware
   digest: Variables with their attributes, read in two calls and written in one. -/

import MuTegra.Uefi.Status

set_option autoImplicit false
set_option relaxedAutoImplicit false

namespace MuTegra.Uefi.Variables

open MuTegra.Uefi.Status

def efiVariableNonVolatile : BitVec 32 := 1#32

def efiVariableBootserviceAccess : BitVec 32 := 2#32

def efiVariableRuntimeAccess : BitVec 32 := 4#32

/-- The access attributes; a variable with none of them does not exist. -/
def accessMask : BitVec 32 := efiVariableBootserviceAccess ||| efiVariableRuntimeAccess

structure Variable where
  attributes : BitVec 32
  data : List UInt8
  accessible : attributes &&& accessMask ≠ 0#32
  nonempty : data ≠ []
  deriving DecidableEq

/-- What a successful `SetVariable` leaves: a write of nothing, or without access, deletes. -/
def setVariable (attributes : BitVec 32) (data : List UInt8) : Option Variable :=
  if h : attributes &&& accessMask ≠ 0#32 ∧ data ≠ [] then some ⟨attributes, data, h.1, h.2⟩
  else none

@[simp] theorem setVariable_self (v : Variable) :
    setVariable v.attributes v.data = some v := by
  rw [setVariable, dif_pos ⟨v.accessible, v.nonempty⟩]

@[simp] theorem setVariable_nil (attributes : BitVec 32) : setVariable attributes [] = none := by
  simp [setVariable]

/-- The status of a read that fails for a reason of the store, not of the caller. -/
structure ReadFailure where
  status : EfiStatus
  isError : efiError status = true
  notSmall : status ≠ efiBufferTooSmall

/-- `GetVariable` into a buffer of the given capacity, or into none: its status. -/
def getVariable (failure : Option ReadFailure) (stored : Option Variable) (capacity : ℕ)
    (hasBuffer : Bool) : EfiStatus :=
  match failure, stored with
  | some failed, _ => failed.status
  | none, none => efiNotFound
  | none, some v =>
      if capacity < v.data.length then efiBufferTooSmall
      else if hasBuffer then efiSuccess
      else efiInvalidParameter

theorem getVariable_eq_bufferTooSmall_iff {failure : Option ReadFailure}
    {stored : Option Variable} {capacity : ℕ} {hasBuffer : Bool} :
    getVariable failure stored capacity hasBuffer = efiBufferTooSmall ↔
      failure = none ∧ ∃ v, stored = some v ∧ capacity < v.data.length := by
  cases failure with
  | some failed => simp [getVariable, failed.notSmall]
  | none =>
      cases stored with
      | none => simp [getVariable, efiNotFound, efiBufferTooSmall, encodeError]
      | some v =>
          by_cases hsmall : capacity < v.data.length
          · simp [getVariable, hsmall]
          · cases hasBuffer <;>
              simp [getVariable, hsmall, efiSuccess, efiInvalidParameter, efiBufferTooSmall,
                encodeError]

end MuTegra.Uefi.Variables
