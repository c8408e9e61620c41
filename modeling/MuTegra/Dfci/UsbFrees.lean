/- Unit: MuTegra/Dfci/UsbFrees
   source: NvidiaPkg/Applications/DfciMenu/DfciUpdate.c, NvidiaPkg/Applications/DfciMenu/DfciUtility.c
   digest: Which failures of the file-name request free the identity strings twice. -/

import MuTegra.Dfci.UsbName
import Mathlib.Tactic.Abel

/-!
The request is run here over every outcome of the calls it makes, whatever texts lie
behind them. The strings are numbered by the pool, which never reuses a number, so a
pool without faults in which nothing new is live has freed each of them exactly once.
-/

set_option autoImplicit false
set_option relaxedAutoImplicit false

namespace MuTegra.Dfci.UsbFrees

open MuTegra.Foundation.Ownership
open MuTegra.Uefi.Status
open MuTegra.Uefi.Strings
open MuTegra.Dfci.State
open MuTegra.Dfci.UsbName

/-- What the calls of `BuildUsbRequest` come to. -/
structure RequestOutcomes where
  reads : SystemInfoReads
  allocated : Bool
  pktNameLen : ℕ
  strCatS : EfiStatus
  /-- The buffer after the concatenation. -/
  chars : List UInt16

/-- `BuildUsbRequest` from the allocated buffer on. -/
def RequestOutcomes.finish (o : RequestOutcomes) (info : SystemInformation) (address : ℕ)
    (pool : Ledger) : UsbRequest :=
  let pool := dfciFreeSystemInfo info pool
  if o.pktNameLen = 0 ∨ maxUsbFileNameLength - 4 ≤ o.pktNameLen then
    usbRequestError efiBadBufferSize (some address) info pool
  else if efiError o.strCatS then usbRequestError o.strCatS (some address) info pool
  else ⟨efiSuccess, some ⟨address, o.chars⟩, pool⟩

def RequestOutcomes.request (o : RequestOutcomes) (pool : Ledger) : UsbRequest :=
  let info := dfciGetSystemInfo o.reads pool
  if efiError info.1 then usbRequestError info.1 none info.2.1 info.2.2
  else
    let pktFileName := info.2.2.acquire o.allocated
    match pktFileName.1 with
    | none => usbRequestError efiOutOfResources none info.2.1 pktFileName.2
    | some address => o.finish info.2.1 address pktFileName.2

/-- On an error nothing is handed out and everything obtained has been freed once; on success
only the file name handed out is still allocated. -/
structure FreedOnce (before : Ledger) (request : UsbRequest) : Prop where
  failed : efiError request.status = true →
    request.fileName = none ∧ Owns before 0 request.pool
  succeeded : efiError request.status = false →
    ∃ buffer, request.fileName = some buffer ∧ Owns before {buffer.address} request.pool

/-- The name has a length that is accepted and its extension can be appended. -/
def RequestOutcomes.named (o : RequestOutcomes) : Prop :=
  o.pktNameLen ≠ 0 ∧ o.pktNameLen < maxUsbFileNameLength - 4 ∧ efiError o.strCatS = false

/-- No string has been obtained, or all three have and no later failure follows their release. -/
def RequestOutcomes.ReleasesOnce (o : RequestOutcomes) : Prop :=
  efiError o.reads.serialNumber.status = true ∨
    (o.reads.fails = false ∧ (o.allocated = false ∨ o.named))

theorem finishUsbRequest_outcome {fileExtension : UnicodeString} {overlaps : Bool}
    {info : SystemInformation} {address : ℕ} {buffer : List UInt16} {pktNameLen : ℕ}
    {pool : Ledger} {request : UsbRequest}
    (h : finishUsbRequest fileExtension overlaps info address buffer pktNameLen
      (dfciFreeSystemInfo info pool) = some request) :
    ∃ status chars, ∀ reads allocated, request =
      (RequestOutcomes.mk reads allocated pktNameLen status chars).finish info address pool := by
  unfold finishUsbRequest at h
  split at h
  · next hlength =>
      refine ⟨efiSuccess, [], fun reads allocated => ?_⟩
      rw [RequestOutcomes.finish, if_pos hlength]
      exact (Option.some.inj h).symm
  · next hlength =>
      rw [Option.bind_eq_bind, Option.bind_eq_some_iff] at h
      obtain ⟨⟨status, chars⟩, -, hjoined⟩ := h
      refine ⟨status, chars, fun reads allocated => ?_⟩
      rw [RequestOutcomes.finish, if_neg hlength]
      split at hjoined
      · next herror =>
          rw [if_pos herror]
          exact (Option.some.inj hjoined).symm
      · next herror =>
          rw [if_neg herror]
          exact (Option.some.inj hjoined).symm

theorem buildUsbRequest_outcomes {fileExtension : UnicodeString} {calls : UsbRequestCalls}
    {pool : Ledger} {request : UsbRequest}
    (h : buildUsbRequest fileExtension calls pool = some request) :
    ∃ o : RequestOutcomes, o.reads = calls.reads ∧ o.allocated = calls.allocated ∧
      request = o.request pool := by
  unfold buildUsbRequest at h
  dsimp only at h
  split at h
  · next herror =>
      refine ⟨⟨calls.reads, calls.allocated, 0, efiSuccess, []⟩, rfl, rfl, ?_⟩
      rw [RequestOutcomes.request, if_pos herror]
      exact (Option.some.inj h).symm
  · next herror =>
      cases hallocated : calls.allocated with
      | false =>
          rw [hallocated] at h
          refine ⟨⟨calls.reads, false, 0, efiSuccess, []⟩, rfl, rfl, ?_⟩
          rw [RequestOutcomes.request, if_neg herror]
          exact (Option.some.inj h).symm
      | true =>
          rw [hallocated, acquire_granted, Option.bind_eq_bind, Option.bind_eq_some_iff] at h
          obtain ⟨⟨buffer, pktNameLen⟩, -, hfinish⟩ := h
          obtain ⟨status, chars, hrequest⟩ := finishUsbRequest_outcome hfinish
          refine ⟨⟨calls.reads, true, pktNameLen, status, chars⟩, rfl, rfl, ?_⟩
          rw [RequestOutcomes.request, if_neg herror]
          exact hrequest calls.reads true

variable {before pool : Ledger} {info : SystemInformation} {rest : Multiset ℕ}

def strings (info : SystemInformation) : Multiset ℕ :=
  owned info.serialNumber + (owned info.manufacturer + owned info.productName)

theorem owns_dfciFreeSystemInfo (h : Owns before (strings info + rest) pool) :
    Owns before rest (dfciFreeSystemInfo info pool) := by
  apply Owns.releaseIfAny
  apply Owns.releaseIfAny
  apply Owns.releaseIfAny
  unfold strings at h
  simpa only [owned, add_assoc] using h

theorem faults_le_dfciFreeSystemInfo (info : SystemInformation) (pool : Ledger) :
    pool.faults ≤ (dfciFreeSystemInfo info pool).faults :=
  (faults_le_releaseIfAny _ _).trans
    ((faults_le_releaseIfAny _ _).trans (faults_le_releaseIfAny _ _))

variable {serial : Buffer}

theorem faults_lt_dfciFreeSystemInfo (hserial : info.serialNumber = some serial)
    (hdead : serial.address ∉ pool.live) :
    pool.faults < (dfciFreeSystemInfo info pool).faults := by
  have hfirst : pool.faults < (freeIfAny info.serialNumber pool).faults := by
    rw [hserial]
    exact faults_lt_release hdead
  exact hfirst.trans_le ((faults_le_releaseIfAny _ _).trans (faults_le_releaseIfAny _ _))

theorem not_mem_dfciFreeSystemInfo (hserial : info.serialNumber = some serial) :
    serial.address ∉ (dfciFreeSystemInfo info pool).live := by
  have hfirst : serial.address ∉ (freeIfAny info.serialNumber pool).live := by
    rw [hserial]
    exact not_mem_release pool serial.address
  intro hlive
  have hle : (dfciFreeSystemInfo info pool).live ≤ (freeIfAny info.serialNumber pool).live :=
    (releaseIfAny_live_le _ _).trans (releaseIfAny_live_le _ _)
  exact hfirst (Multiset.mem_of_le hle hlive)

theorem usbRequestError_faults (status : EfiStatus) (pktFileName : Option ℕ)
    (hserial : info.serialNumber = some serial) :
    pool.faults < (usbRequestError status pktFileName info
      (dfciFreeSystemInfo info pool)).pool.faults := by
  have hdead : serial.address ∉ ((dfciFreeSystemInfo info pool).releaseIfAny pktFileName).live :=
    fun hlive => not_mem_dfciFreeSystemInfo hserial
      (Multiset.mem_of_le (releaseIfAny_live_le _ _) hlive)
  calc pool.faults ≤ (dfciFreeSystemInfo info pool).faults := faults_le_dfciFreeSystemInfo _ _
    _ ≤ ((dfciFreeSystemInfo info pool).releaseIfAny pktFileName).faults :=
        faults_le_releaseIfAny _ _
    _ < _ := faults_lt_dfciFreeSystemInfo hserial hdead

variable {reads : SystemInfoReads}

theorem owns_obtain {before pool : Ledger} {rest : Multiset ℕ} (h : Owns before rest pool)
    (read : IdentityRead) : Owns before (owned (read.obtain pool).1 + rest) (read.obtain pool).2 :=
  h.grant

theorem dfciGetSystemInfo_read (hreads : reads.fails = false) (pool : Ledger) :
    ∃ info l serial, dfciGetSystemInfo reads pool = (efiSuccess, info, l) ∧
      info.serialNumber = some serial ∧ Owns pool (strings info) l := by
  simp only [SystemInfoReads.fails, Bool.or_eq_false_iff] at hreads
  obtain ⟨⟨hserial, hmanufacturer⟩, hproduct⟩ := hreads
  let serial := reads.serialNumber.obtain pool
  let manufacturer := reads.manufacturer.obtain serial.2
  let product := reads.productName.obtain manufacturer.2
  have howns : Owns pool (owned product.1 + (owned manufacturer.1 + (owned serial.1 + 0)))
      product.2 :=
    owns_obtain (owns_obtain (owns_obtain (Owns.refl pool) _) _) _
  refine ⟨⟨serial.1, manufacturer.1, product.1⟩, product.2,
    ⟨pool.next, reads.serialNumber.text.chars ++ [0]⟩, ?_, rfl, ?_⟩
  · rw [dfciGetSystemInfo, if_neg (by simp [hserial]), if_neg (by simp [hmanufacturer]),
      if_neg (by simp [hproduct])]
  · have hsame : strings ⟨serial.1, manufacturer.1, product.1⟩ =
        owned product.1 + (owned manufacturer.1 + (owned serial.1 + 0)) := by
      rw [strings]
      abel
    rw [hsame]
    exact howns

theorem dfciGetSystemInfo_failed (hserial : efiError reads.serialNumber.status = false)
    (hreads : reads.fails = true) (pool : Ledger) :
    ∃ status info l serial, dfciGetSystemInfo reads pool =
        (status, info, dfciFreeSystemInfo info l) ∧ efiError status = true ∧
      info.serialNumber = some serial ∧ l.faults = pool.faults := by
  let serial : Buffer := ⟨pool.next, reads.serialNumber.text.chars ++ [0]⟩
  by_cases hmanufacturer : efiError reads.manufacturer.status = true
  · refine ⟨reads.manufacturer.status, { serialNumber := some serial },
      (reads.serialNumber.obtain pool).2, serial, ?_, hmanufacturer, rfl, rfl⟩
    rw [dfciGetSystemInfo, if_neg (by simp [hserial]), if_pos hmanufacturer]
    rfl
  · have hproduct : efiError reads.productName.status = true := by
      simpa [SystemInfoReads.fails, hserial, hmanufacturer] using hreads
    let obtained := reads.manufacturer.obtain (reads.serialNumber.obtain pool).2
    refine ⟨reads.productName.status, { serialNumber := some serial, manufacturer := obtained.1 },
      obtained.2, serial, ?_, hproduct, rfl, rfl⟩
    rw [dfciGetSystemInfo, if_neg (by simp [hserial]), if_neg hmanufacturer, if_pos hproduct]
    rfl

variable {o : RequestOutcomes}

theorem freedOnce_finish_iff {before : Ledger} (hserial : info.serialNumber = some serial)
    (howns : Owns before (strings info) pool) :
    FreedOnce before (o.finish info pool.next pool.grant) ↔ o.named := by
  have hfreed : Owns before {pool.next} (dfciFreeSystemInfo info pool.grant) := by
    apply owns_dfciFreeSystemInfo
    rw [add_comm]
    exact howns.grant
  have hdouble : ∀ status, efiError status = true → ¬ FreedOnce before
      (usbRequestError status (some pool.next) info (dfciFreeSystemInfo info pool.grant)) := by
    intro status herror hfreed
    have hfaults := @usbRequestError_faults pool.grant _ _ status (some pool.next) hserial
    have hclean := (hfreed.failed herror).2.clean
    rw [hclean, grant_faults, howns.clean] at hfaults
    exact lt_irrefl _ hfaults
  rw [RequestOutcomes.finish, RequestOutcomes.named]
  split
  · next hlength =>
      refine iff_of_false (hdouble _ (efiError_encodeError _)) ?_
      rintro ⟨hpos, hshort, _⟩
      omega
  · next hlength =>
      split
      · next herror =>
          refine iff_of_false (hdouble _ herror) ?_
          rintro ⟨_, _, hjoined⟩
          rw [herror] at hjoined
          cases hjoined
      · next herror =>
          refine iff_of_true ⟨fun hfailed => ?_, fun _ => ⟨_, rfl, hfreed⟩⟩ ?_
          · exact absurd hfailed (by simp)
          · exact ⟨by omega, by omega, Bool.eq_false_iff.mpr herror⟩

theorem freedOnce_noSerial (hserial : efiError o.reads.serialNumber.status = true)
    (pool : Ledger) : FreedOnce pool (o.request pool) := by
  have hinfo : dfciGetSystemInfo o.reads pool = (o.reads.serialNumber.status, {}, pool) :=
    if_pos hserial
  rw [RequestOutcomes.request, hinfo, if_pos hserial]
  refine ⟨fun _ => ⟨rfl, Owns.refl pool⟩, fun hsuccess => ?_⟩
  exact absurd (hserial.symm.trans hsuccess) (by simp)

/-- A later read fails: the serial number is freed by it and by its caller. -/
theorem not_freedOnce_failed (hserial : efiError o.reads.serialNumber.status = false)
    (hreads : o.reads.fails = true) (pool : Ledger) : ¬ FreedOnce pool (o.request pool) := by
  intro hfreed
  obtain ⟨status, info, l, serial, hinfo, herror, hstring, hfaults⟩ :=
    dfciGetSystemInfo_failed hserial hreads pool
  rw [RequestOutcomes.request, hinfo, if_pos herror] at hfreed
  have hdouble := @usbRequestError_faults l _ _ status none hstring
  rw [(hfreed.failed herror).2.clean, hfaults] at hdouble
  exact lt_irrefl _ hdouble

theorem freedOnce_read_iff (hreads : o.reads.fails = false) (pool : Ledger) :
    FreedOnce pool (o.request pool) ↔ o.allocated = false ∨ o.named := by
  obtain ⟨info, l, serial, hinfo, hstring, howns⟩ := dfciGetSystemInfo_read hreads pool
  rw [RequestOutcomes.request, hinfo, if_neg (by simp)]
  cases hallocated : o.allocated with
  | false =>
      refine iff_of_true ?_ (Or.inl rfl)
      refine ⟨fun _ => ⟨rfl, ?_⟩, fun hsuccess => ?_⟩
      · have hall : Owns pool (strings info + 0) l := by rwa [add_zero]
        exact owns_dfciFreeSystemInfo hall
      · exact absurd hsuccess (by simp [usbRequestError, efiOutOfResources])
  | true =>
      simp only [acquire_granted, Bool.true_eq_false, false_or]
      exact freedOnce_finish_iff hstring howns

/-- Every string obtained and the file name are freed exactly when they should be if and only
if no string was obtained, or all were and nothing failed after they were freed. -/
theorem request_freedOnce_iff (o : RequestOutcomes) (pool : Ledger) :
    FreedOnce pool (o.request pool) ↔ o.ReleasesOnce := by
  cases hserial : efiError o.reads.serialNumber.status with
  | true => exact iff_of_true (freedOnce_noSerial hserial pool) (Or.inl hserial)
  | false =>
      cases hreads : o.reads.fails with
      | true =>
          refine iff_of_false (not_freedOnce_failed hserial hreads pool) ?_
          simp [RequestOutcomes.ReleasesOnce, hserial, hreads]
      | false =>
          rw [freedOnce_read_iff hreads]
          simp [RequestOutcomes.ReleasesOnce, hserial, hreads]

def noManufacturer : RequestOutcomes where
  reads := ⟨{ text := ⟨[84], by decide⟩ }, ⟨efiNotFound, ⟨[86], by decide⟩⟩,
    { text := ⟨[85], by decide⟩ }⟩
  allocated := true
  pktNameLen := 3
  strCatS := efiSuccess
  chars := []

/-- The serial number is freed by the read that fails and again by its caller. -/
theorem noManufacturer_not_freedOnce :
    ¬ FreedOnce Ledger.empty (noManufacturer.request Ledger.empty) := by
  intro hfreed
  have hfaults : (noManufacturer.request Ledger.empty).pool.faults = 1 := by decide
  have hclean := (hfreed.failed (by decide)).2.clean
  rw [hfaults] at hclean
  cases hclean

end MuTegra.Dfci.UsbFrees
