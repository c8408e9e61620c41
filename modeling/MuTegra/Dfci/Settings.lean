/- Unit: MuTegra/Dfci/Settings
   source: NvidiaPkg/Applications/DfciMenu/DfciUtility.c, NvidiaPkg/Applications/DfciMenu/DfciRequest.c
   digest: When the url settings are read, and what their slots hold afterwards. -/

import MuTegra.Dfci.Request

set_option autoImplicit false
set_option relaxedAutoImplicit false

namespace MuTegra.Dfci.Settings

open MuTegra.Foundation.Ownership
open MuTegra.Uefi.Status MuTegra.Uefi.Strings
open MuTegra.Dfci.State MuTegra.Dfci.Request

/-- The buffer of a setting is not allocated; `located` when the protocol is known already. -/
def noBuffer (located : Bool) (calls : GetASettingCalls) : Bool :=
  (!located && efiError calls.locateProtocol) || checkedSize calls == 0 || !calls.allocated

def badContents (calls : GetASettingCalls) : Bool := efiError calls.get || !calls.data.contains 0

def readFails (located : Bool) (calls : GetASettingCalls) : Bool :=
  noBuffer located calls || badContents calls

def failsAfterAllocation (located : Bool) (calls : GetASettingCalls) : Bool :=
  !noBuffer located calls && badContents calls

def initializeFails (located : Bool) (calls : InitializeCalls) : Bool :=
  readFails located calls.recoveryUrl ||
    (decide (1 < calls.recoveryUrl.data.length) && readFails true calls.bootstrapUrl)

variable {calls : GetASettingCalls} {m : Machine}

theorem contains_iff_terminated :
    calls.data.contains 0 = true ↔
      calls.data.length ≠ asciiStrnLenS calls.data calls.data.length := by
  rw [List.contains_iff_mem, ne_comm, Ne, asciiStrnLenS_eq_iff, not_not]

theorem dfciGetASetting_noBuffer (h : noBuffer m.settingAccess calls = true) :
    efiError (dfciGetASetting calls m).status = true ∧ (dfciGetASetting calls m).value = none ∧
      (dfciGetASetting calls m).machine.pool = m.pool := by
  unfold dfciGetASetting
  by_cases hlocate : m.settingAccess = false ∧ efiError calls.locateProtocol = true
  · rw [if_pos hlocate]
    exact ⟨hlocate.2, rfl, rfl⟩
  · rw [if_neg hlocate]
    unfold readSetting
    by_cases hsize : checkedSize calls = 0
    · rw [if_pos hsize]
      exact ⟨efiError_encodeError _, rfl, rfl⟩
    · have halloc : calls.allocated = false := by
        rw [not_and, Bool.not_eq_true] at hlocate
        cases hm : m.settingAccess <;> simp_all [noBuffer]
      rw [if_neg hsize, halloc]
      exact ⟨efiError_encodeError _, rfl, rfl⟩

theorem dfciGetASetting_allocated (h : noBuffer m.settingAccess calls = false) :
    dfciGetASetting calls m =
      let read : Machine := { m with pool := m.pool.grant, settingAccess := true }
      let value : Buffer := ⟨m.pool.next, calls.data⟩
      if efiError calls.get then settingExit (some value) calls.sizeOnError read
      else if calls.data.length = asciiStrnLenS calls.data calls.data.length then
        settingExit (some value) calls.data.length read
      else ⟨calls.get, some value, calls.data.length, read⟩ := by
  simp only [noBuffer, Bool.or_eq_false_iff, Bool.and_eq_false_iff, Bool.not_eq_false',
    beq_eq_false_iff_ne] at h
  obtain ⟨⟨hlocate, hsize⟩, halloc⟩ := h
  have hlocate' : ¬ (m.settingAccess = false ∧ efiError calls.locateProtocol = true) := by
    rintro ⟨h1, h2⟩
    simp [h1, h2] at hlocate
  rw [dfciGetASetting, if_neg hlocate', readSetting, if_neg hsize, halloc]
  rfl

/-- With an allocated buffer that is of no use the slot points to what was freed. -/
theorem dfciGetASetting_badContents (h : failsAfterAllocation m.settingAccess calls = true) :
    efiError (dfciGetASetting calls m).status = true ∧
      (dfciGetASetting calls m).value = some ⟨m.pool.next, calls.data⟩ ∧
      (dfciGetASetting calls m).machine.pool = m.pool.grant.release (some m.pool.next) := by
  rw [failsAfterAllocation, Bool.and_eq_true, Bool.not_eq_true'] at h
  rw [dfciGetASetting_allocated h.1]
  have hbad := h.2
  rw [badContents, Bool.or_eq_true] at hbad
  by_cases hget : efiError calls.get = true
  · simp only [if_pos hget]
    exact ⟨efiError_encodeError _, rfl, rfl⟩
  · have hlen : calls.data.length = asciiStrnLenS calls.data calls.data.length := by
      by_contra hne
      have := hbad.resolve_left hget
      rw [contains_iff_terminated.mpr hne] at this
      cases this
    simp only [if_neg hget, if_pos hlen]
    exact ⟨efiError_encodeError _, rfl, rfl⟩

theorem dfciGetASetting_ok (h : readFails m.settingAccess calls = false) :
    efiError (dfciGetASetting calls m).status = false ∧
      dfciGetASetting calls m = ⟨calls.get, some ⟨m.pool.next, calls.data⟩, calls.data.length,
        { m with pool := m.pool.grant, settingAccess := true }⟩ := by
  rw [readFails, Bool.or_eq_false_iff, badContents, Bool.or_eq_false_iff, Bool.not_eq_false'] at h
  have hget : ¬ efiError calls.get = true := by simp [h.2.1]
  rw [dfciGetASetting_allocated h.1]
  simp only [if_neg hget, if_neg (contains_iff_terminated.mp h.2.2)]
  exact ⟨h.2.1, trivial⟩

theorem readFails_cases (located : Bool) (calls : GetASettingCalls) :
    noBuffer located calls = true ∨ failsAfterAllocation located calls = true ∨
      readFails located calls = false := by
  unfold failsAfterAllocation readFails
  cases noBuffer located calls <;> cases badContents calls <;> simp

theorem efiError_dfciGetASetting :
    efiError (dfciGetASetting calls m).status = readFails m.settingAccess calls := by
  rcases readFails_cases m.settingAccess calls with h | h | h
  · rw [(dfciGetASetting_noBuffer h).1, readFails, h, Bool.true_or]
  · rw [(dfciGetASetting_badContents h).1]
    rw [failsAfterAllocation, Bool.and_eq_true] at h
    rw [readFails, h.2, Bool.or_true]
  · rw [(dfciGetASetting_ok h).1, h]

section

variable {calls : InitializeCalls} {m : Machine}

/-- The bootstrap url is read only after a recovery url of more than its terminator. -/
theorem initializeNetworkRequest_eq_readBootstrapUrl
    (hok : readFails m.settingAccess calls.recoveryUrl = false)
    (hlen : 1 < calls.recoveryUrl.data.length) :
    initializeNetworkRequest calls m = readBootstrapUrl calls
      { cleanupNetworkRequest clearAll m with
        pool := m.pool.grant
        settingAccess := true
        httpRequest :=
          { url := some ⟨m.pool.next, calls.recoveryUrl.data⟩
            urlSize := calls.recoveryUrl.data.length } } := by
  have hread := dfciGetASetting_ok (m := cleanupNetworkRequest clearAll m) hok
  rw [initializeNetworkRequest, hread.2]
  have hcontinue : ¬ (efiError calls.recoveryUrl.get = true ∨ calls.recoveryUrl.data.length ≤ 1) := by
    rw [hread.2] at hread
    rw [not_or]
    exact ⟨by simpa using hread.1, not_le.mpr hlen⟩
  simp only [if_neg hcontinue]
  rfl

theorem initializeNetworkRequest_eq_exit
    (h : readFails m.settingAccess calls.recoveryUrl = true ∨
      calls.recoveryUrl.data.length ≤ 1) :
    initializeNetworkRequest calls m =
      let recovery := dfciGetASetting calls.recoveryUrl (cleanupNetworkRequest clearAll m)
      (recovery.status,
        { recovery.machine with
          httpRequest :=
            { recovery.machine.httpRequest with
              url := recovery.value, urlSize := recovery.valueSize } }) := by
  have hexit : efiError (dfciGetASetting calls.recoveryUrl
        (cleanupNetworkRequest clearAll m)).status = true ∨
      (dfciGetASetting calls.recoveryUrl (cleanupNetworkRequest clearAll m)).valueSize ≤ 1 := by
    cases hread : readFails m.settingAccess calls.recoveryUrl with
    | true => exact .inl (efiError_dfciGetASetting.trans hread)
    | false =>
        have hvalue := (dfciGetASetting_ok (m := cleanupNetworkRequest clearAll m) hread).2
        rw [hvalue]
        exact .inr (h.resolve_left (by simp [hread]))
  rw [initializeNetworkRequest]
  simp only [if_pos hexit]

theorem efiError_initializeNetworkRequest :
    efiError (initializeNetworkRequest calls m).1 = initializeFails m.settingAccess calls := by
  by_cases h : readFails m.settingAccess calls.recoveryUrl = true ∨
      calls.recoveryUrl.data.length ≤ 1
  · rw [initializeNetworkRequest_eq_exit h]
    refine efiError_dfciGetASetting.trans ?_
    change readFails m.settingAccess calls.recoveryUrl = _
    rcases h with h | h
    · rw [initializeFails, h, Bool.true_or]
    · rw [initializeFails, decide_eq_false (not_lt.mpr h), Bool.false_and, Bool.or_false]
  · rw [not_or, Bool.not_eq_true, not_le] at h
    rw [initializeNetworkRequest_eq_readBootstrapUrl h.1 h.2]
    refine efiError_dfciGetASetting.trans ?_
    change readFails true calls.bootstrapUrl = _
    rw [initializeFails, h.1, decide_eq_true h.2, Bool.false_or, Bool.true_and]

end

end MuTegra.Dfci.Settings
