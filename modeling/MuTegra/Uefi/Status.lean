/- Unit: MuTegra/Uefi/Status
   scope: status values of the UEFI firmware interface on a 32-bit target
   digest: EFI_STATUS as a machine word with the error bit on top. -/

import Mathlib.Data.Nat.Basic

set_option autoImplicit false
set_option relaxedAutoImplicit false

namespace MuTegra.Uefi.Status

abbrev EfiStatus := BitVec 32

def encodeError (code : BitVec 32) : EfiStatus := 0x80000000#32 ||| code

def efiError (status : EfiStatus) : Bool := status.msb

def efiSuccess : EfiStatus := 0#32
def efiInvalidParameter : EfiStatus := encodeError 2#32
def efiUnsupported : EfiStatus := encodeError 3#32
def efiBadBufferSize : EfiStatus := encodeError 4#32
def efiBufferTooSmall : EfiStatus := encodeError 5#32
def efiNotReady : EfiStatus := encodeError 6#32
def efiDeviceError : EfiStatus := encodeError 7#32
def efiOutOfResources : EfiStatus := encodeError 9#32
def efiNoMedia : EfiStatus := encodeError 12#32
def efiMediaChanged : EfiStatus := encodeError 13#32
def efiNotFound : EfiStatus := encodeError 14#32
def efiAccessDenied : EfiStatus := encodeError 15#32
def efiTimeout : EfiStatus := encodeError 18#32
def efiProtocolError : EfiStatus := encodeError 24#32

@[simp] theorem efiError_success : efiError efiSuccess = false := rfl

@[simp] theorem efiError_encodeError (code : BitVec 32) : efiError (encodeError code) = true := by
  rw [efiError, encodeError, BitVec.msb_or, show (0x80000000#32).msb = true from rfl, Bool.true_or]

theorem ne_success_of_error {status : EfiStatus} (h : efiError status = true) :
    status ≠ efiSuccess := by
  rintro rfl
  cases h

end MuTegra.Uefi.Status
