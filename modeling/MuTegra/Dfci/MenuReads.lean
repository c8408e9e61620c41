/- Unit: MuTegra/Dfci/MenuReads
   source: NvidiaPkg/Applications/DfciMenu/DfciMenu.c
   digest: What the driver of the menu has after its reads, by which it loses nothing live. -/

import MuTegra.Dfci.Frees
import MuTegra.Dfci.Menu

set_option autoImplicit false
set_option relaxedAutoImplicit false

namespace MuTegra.Dfci.MenuReads

open MuTegra.Foundation.Ownership
open MuTegra.Uefi.Status
open MuTegra.Dfci.State MuTegra.Dfci.Request MuTegra.Dfci.Settings MuTegra.Dfci.UsbName
open MuTegra.Dfci.UsbFrees
open MuTegra.Dfci.MenuForms MuTegra.Dfci.Menu

/-! ## Pools that lose nothing -/

def Extends (before after : Ledger) : Prop := Keeps before.faults before.live after

variable {a b c : Ledger}

theorem Extends.refl (a : Ledger) : Extends a a := ⟨rfl, le_rfl⟩

theorem Extends.trans (h : Extends a b) (h' : Extends b c) : Extends a c :=
  ⟨h'.clean.trans h.clean, h.live.trans h'.live⟩

theorem Extends.grant (h : Extends a b) : Extends a b.grant :=
  (Keeps.grant h).mono (Multiset.le_add_left _ _)

theorem extends_of_owns {rest : Multiset ℕ} (h : Owns a rest b) : Extends a b :=
  ⟨h.clean, h.live ▸ Multiset.le_add_left _ _⟩

theorem extends_transient (obtained : Bool) (pool : Ledger) :
    Extends pool (transient obtained pool) := by
  rw [transient]
  split
  · exact (Keeps.grant (Extends.refl pool)).release
  · exact .refl pool

theorem textOf_extends {p : Option Buffer} {text : List UInt8} (h : Extends a b)
    (known : textOf a p = some text) : textOf b p = some text := by
  cases p with
  | none => cases known
  | some buffer =>
      rw [textOf, Option.bind_some] at known ⊢
      split at known
      · next live =>
          rw [if_pos (Multiset.mem_of_le h.live live)]
          exact known
      · cases known

theorem textOf_grant (pool : Ledger) (bytes : List UInt8) :
    textOf pool.grant (some ⟨pool.next, bytes⟩) = some bytes := by
  rw [textOf, Option.bind_some, if_pos (by simp)]

/-! ## Single reads -/

variable {calls : GetASettingCalls} {m : Machine}

theorem extends_dfciGetASetting (calls : GetASettingCalls) (m : Machine) :
    Extends m.pool (dfciGetASetting calls m).machine.pool := by
  rcases readFails_cases m.settingAccess calls with read | read | read
  · rw [(dfciGetASetting_noBuffer read).2.2]
    exact .refl _
  · rw [(dfciGetASetting_badContents read).2.2]
    exact (Keeps.grant (Extends.refl m.pool)).release
  · rw [(dfciGetASetting_ok read).2]
    exact (Extends.refl m.pool).grant

def certificateFails (located : Bool) (calls : GetASettingCalls) : Bool :=
  noBuffer located calls || efiError calls.get

theorem dfciGetACertificate_noBuffer (h : noBuffer m.settingAccess calls = true) :
    efiError (dfciGetACertificate calls m).status = true ∧
      (dfciGetACertificate calls m).machine.pool = m.pool := by
  unfold dfciGetACertificate
  by_cases unlocated : m.settingAccess = false ∧ efiError calls.locateProtocol = true
  · rw [if_pos unlocated]
    exact ⟨unlocated.2, rfl⟩
  · rw [if_neg unlocated]
    dsimp only
    by_cases size : checkedSize calls = 0
    · rw [if_pos size]
      exact ⟨efiError_encodeError _, rfl⟩
    · have refused : calls.allocated = false := by
        rw [not_and, Bool.not_eq_true] at unlocated
        cases access : m.settingAccess <;> simp_all [noBuffer]
      rw [if_neg size, refused]
      exact ⟨efiError_encodeError _, rfl⟩

theorem dfciGetACertificate_allocated (h : noBuffer m.settingAccess calls = false) :
    dfciGetACertificate calls m =
      let read : Machine := { m with pool := m.pool.grant, settingAccess := true }
      let value : Buffer := ⟨m.pool.next, calls.data⟩
      if efiError calls.get then settingExit (some value) calls.sizeOnError read
      else ⟨calls.get, some value, calls.data.length, read⟩ := by
  simp only [noBuffer, Bool.or_eq_false_iff, Bool.and_eq_false_iff, Bool.not_eq_false',
    beq_eq_false_iff_ne] at h
  obtain ⟨⟨located, size⟩, granted⟩ := h
  have located' : ¬ (m.settingAccess = false ∧ efiError calls.locateProtocol = true) := by
    rintro ⟨h1, h2⟩
    simp [h1, h2] at located
  rw [dfciGetACertificate, if_neg located']
  dsimp only
  rw [if_neg size, granted]
  rfl

theorem efiError_dfciGetACertificate :
    efiError (dfciGetACertificate calls m).status = certificateFails m.settingAccess calls := by
  rw [certificateFails]
  cases absent : noBuffer m.settingAccess calls with
  | true => rw [(dfciGetACertificate_noBuffer absent).1, Bool.true_or]
  | false =>
      rw [dfciGetACertificate_allocated absent, Bool.false_or]
      dsimp only
      split
      · next failed => exact (efiError_encodeError _).trans failed.symm
      · rfl

theorem dfciGetACertificate_ok (h : certificateFails m.settingAccess calls = false) :
    dfciGetACertificate calls m = ⟨calls.get, some ⟨m.pool.next, calls.data⟩, calls.data.length,
      { m with pool := m.pool.grant, settingAccess := true }⟩ := by
  rw [certificateFails, Bool.or_eq_false_iff] at h
  rw [dfciGetACertificate_allocated h.1]
  exact if_neg (by simp [h.2])

theorem extends_dfciGetACertificate (calls : GetASettingCalls) (m : Machine) :
    Extends m.pool (dfciGetACertificate calls m).machine.pool := by
  cases absent : noBuffer m.settingAccess calls with
  | true =>
      rw [(dfciGetACertificate_noBuffer absent).2]
      exact .refl _
  | false =>
      rw [dfciGetACertificate_allocated absent]
      dsimp only
      split
      · exact (Keeps.grant (Extends.refl m.pool)).release
      · exact (Extends.refl m.pool).grant

def delivers (calls : CertInfoCalls) : Bool := !efiError calls.status && calls.value.isSome

theorem extends_getCertInfo (calls : CertInfoCalls) (slot : Option Buffer) (pool : Ledger) :
    Extends pool (getCertInfo calls slot pool).2.2 := by
  rw [getCertInfo]
  split
  · exact .refl pool
  · split
    · exact .refl pool
    · exact (Extends.refl pool).grant

theorem getCertInfo_available (calls : CertInfoCalls) (slot : Option Buffer) (pool : Ledger) :
    (!efiError (getCertInfo calls slot pool).1 && (getCertInfo calls slot pool).2.1.isSome) =
      delivers calls := by
  rw [getCertInfo, delivers]
  cases status : efiError calls.status with
  | true => simp [status]
  | false =>
      cases value : calls.value with
      | none => simp
      | some bytes => simp [status, allocatePool]

theorem getCertInfo_text {calls : CertInfoCalls} (h : delivers calls = true)
    (slot : Option Buffer) (pool : Ledger) :
    textOf (getCertInfo calls slot pool).2.2 (getCertInfo calls slot pool).2.1 =
      some (calls.value.getD []) := by
  rw [delivers, Bool.and_eq_true, Bool.not_eq_true'] at h
  obtain ⟨bytes, value⟩ := Option.isSome_iff_exists.mp h.2
  rw [getCertInfo, if_neg (by simp [h.1]), value]
  exact textOf_grant pool bytes

structure ReadsThumbprint (enrolled : Bool) (calls : CertInfoCalls) (slot : Option Buffer)
    (pool : Ledger) (read : Thumbprint) : Prop where
  grows : Extends pool read.pool
  available : read.available = (enrolled && delivers calls)
  text : read.available = true → textOf read.pool read.slot = some (calls.value.getD [])
  absent : read.available = false → slot = none → read.slot = none

theorem readThumbprint_reads (enrolled : Bool) (calls : CertInfoCalls) (slot : Option Buffer)
    (pool : Ledger) :
    ReadsThumbprint enrolled calls slot pool (readThumbprint enrolled calls slot pool) := by
  cases enrolled with
  | false => exact ⟨.refl pool, rfl, fun h => Bool.noConfusion h, fun _ null => null⟩
  | true =>
      have available := getCertInfo_available calls slot pool
      refine ⟨extends_getCertInfo calls slot pool, available, fun h => ?_, fun absent null => ?_⟩
      · exact getCertInfo_text (available.symm.trans h) slot pool
      · subst null
        change (!efiError (getCertInfo calls none pool).1 &&
          (getCertInfo calls none pool).2.1.isSome) = false at absent
        change (getCertInfo calls none pool).2.1 = none
        rw [getCertInfo] at absent ⊢
        split at absent
        · next failed => rw [if_pos failed]
        · next ok =>
            rw [if_neg ok]
            cases value : calls.value with
            | none => rfl
            | some bytes =>
                rw [value] at absent
                simp [ok, allocatePool] at absent

theorem extends_dfciGetSystemInfo (reads : SystemInfoReads) (pool : Ledger) :
    Extends pool (dfciGetSystemInfo reads pool).2.2 := by
  have serial := owns_obtain (Owns.refl pool) reads.serialNumber
  have manufacturer := owns_obtain serial reads.manufacturer
  have product := owns_obtain manufacturer reads.productName
  rw [dfciGetSystemInfo]
  split
  · exact .refl pool
  · dsimp only
    split
    · dsimp only
      refine extends_of_owns (@owns_dfciFreeSystemInfo _ _ _ 0 ?_)
      simpa [strings] using serial
    · split
      · dsimp only
        refine extends_of_owns (@owns_dfciFreeSystemInfo _ _ _ 0 ?_)
        simpa [strings, add_comm] using manufacturer
      · exact extends_of_owns product

theorem dfciGetSystemInfo_texts (reads : SystemInfoReads) (pool : Ledger) :
    let read := dfciGetSystemInfo reads pool
    if reads.fails then read.2.1.productName = none
    else
      textOf read.2.2 read.2.1.serialNumber = some (reads.serialNumber.text.chars ++ [0]) ∧
        textOf read.2.2 read.2.1.manufacturer = some (reads.manufacturer.text.chars ++ [0]) ∧
        textOf read.2.2 read.2.1.productName = some (reads.productName.text.chars ++ [0]) := by
  rw [SystemInfoReads.fails, dfciGetSystemInfo]
  cases serial : efiError reads.serialNumber.status with
  | true => simp
  | false =>
      cases manufacturer : efiError reads.manufacturer.status with
      | true => simp
      | false =>
          cases product : efiError reads.productName.status with
          | true => simp
          | false =>
              have first := textOf_grant pool (reads.serialNumber.text.chars ++ [0])
              have second := textOf_grant pool.grant (reads.manufacturer.text.chars ++ [0])
              have once (p : Ledger) : Extends p p.grant := (Extends.refl p).grant
              simp only [Bool.or_false, Bool.false_eq_true, if_false]
              refine ⟨?_, ?_, ?_⟩
              · exact textOf_extends (once _) (textOf_extends (once _) first)
              · exact textOf_extends (once _) second
              · exact textOf_grant _ _

/-! ## What http recovery needs -/

def settingThere (located : Bool) (calls : GetASettingCalls) : Bool :=
  !readFails located calls && decide (1 < calls.data.length)

def certificateThere (located : Bool) (calls : GetASettingCalls) : Bool :=
  !certificateFails located calls && decide (1 < calls.data.length)

def httpThere (located : Bool) (calls : ParameterCalls) : Bool :=
  settingThere located calls.url && (certificateThere true calls.httpsCert &&
    (settingThere true calls.tenantId && (settingThere true calls.registrationId &&
      (delivers calls.httpsThumbprint &&
        (!efiError calls.httpParseUrl && !efiError calls.httpUrlGetHostName)))))

def withSetting (driver : Driver) : Driver :=
  { driver with
    machine := { driver.machine with pool := driver.machine.pool.grant, settingAccess := true } }

variable {driver : Driver} {keep : Option Buffer → Driver → Driver}

theorem andThen_fst {first : Bool × Driver} {next : Driver → Bool × Driver} {a b : Bool}
    (h : first.1 = a) (h' : a = true → (next first.2).1 = b) :
    (andThen first next).1 = (a && b) := by
  subst h
  rw [andThen]
  split
  · next ok =>
      rw [h' ok, ok, Bool.true_and]
  · next failed =>
      rw [Bool.eq_false_of_not_eq_true failed, Bool.false_and]

theorem keepSetting_setting (calls : GetASettingCalls) :
    (keepSetting (dfciGetASetting calls driver.machine) keep driver).1 =
      settingThere driver.machine.settingAccess calls := by
  rw [keepSetting, settingThere, efiError_dfciGetASetting]
  cases fails : readFails driver.machine.settingAccess calls with
  | true => rfl
  | false => rw [(dfciGetASetting_ok fails).2]

theorem keepSetting_setting_ok {calls : GetASettingCalls}
    (h : settingThere driver.machine.settingAccess calls = true) :
    (keepSetting (dfciGetASetting calls driver.machine) keep driver).2 =
      keep (some ⟨driver.machine.pool.next, calls.data⟩) (withSetting driver) := by
  rw [settingThere, Bool.and_eq_true, Bool.not_eq_true'] at h
  rw [keepSetting, (dfciGetASetting_ok h.1).2]
  rfl

theorem keepSetting_certificate (calls : GetASettingCalls) :
    (keepSetting (dfciGetACertificate calls driver.machine) keep driver).1 =
      certificateThere driver.machine.settingAccess calls := by
  rw [keepSetting, certificateThere, efiError_dfciGetACertificate]
  cases fails : certificateFails driver.machine.settingAccess calls with
  | true => rfl
  | false => rw [dfciGetACertificate_ok fails]

theorem keepSetting_certificate_ok {calls : GetASettingCalls}
    (h : certificateThere driver.machine.settingAccess calls = true) :
    (keepSetting (dfciGetACertificate calls driver.machine) keep driver).2 =
      keep (some ⟨driver.machine.pool.next, calls.data⟩) (withSetting driver) := by
  rw [certificateThere, Bool.and_eq_true, Bool.not_eq_true'] at h
  rw [keepSetting, dfciGetACertificate_ok h.1]
  rfl

theorem parseHost_fst (httpParseUrl httpUrlGetHostName : EfiStatus) :
    (parseHost httpParseUrl httpUrlGetHostName driver).1 =
      (!efiError httpParseUrl && !efiError httpUrlGetHostName) := by
  rw [parseHost]
  cases efiError httpParseUrl <;> cases efiError httpUrlGetHostName <;> rfl

theorem parseHost_inputs (httpParseUrl httpUrlGetHostName : EfiStatus) :
    (parseHost httpParseUrl httpUrlGetHostName driver).2.inputs = driver.inputs := by
  rw [parseHost]
  cases efiError httpParseUrl <;> cases efiError httpUrlGetHostName <;> rfl

/-- The steps of `GetDfciParameters` change pointers, and the pool only by what stays. -/
structure Continues (before after : Driver) : Prop where
  pool : Extends before.machine.pool after.machine.pool
  configuration : after.configuration = before.configuration
  alreadyRun : after.alreadyRun = before.alreadyRun
  owner : after.inputs.ownerThumbprint = before.inputs.ownerThumbprint
  info : after.inputs.dfciInfo = before.inputs.dfciInfo

theorem Continues.trans {a b c : Driver} (h : Continues a b) (h' : Continues b c) :
    Continues a c where
  pool := h.pool.trans h'.pool
  configuration := h'.configuration.trans h.configuration
  alreadyRun := h'.alreadyRun.trans h.alreadyRun
  owner := h'.owner.trans h.owner
  info := h'.info.trans h.info

theorem andThen_continues {first : Bool × Driver} {next : Driver → Bool × Driver}
    (h : Continues driver first.2) (h' : Continues first.2 (next first.2).2) :
    Continues driver (andThen first next).2 := by
  rw [andThen]
  split
  · exact h.trans h'
  · exact h

theorem parseHost_continues (httpParseUrl httpUrlGetHostName : EfiStatus) (driver : Driver) :
    Continues driver (parseHost httpParseUrl httpUrlGetHostName driver).2 := by
  have parsed : Keeps driver.machine.pool.faults
      ({driver.machine.pool.next} + driver.machine.pool.live) driver.machine.pool.grant :=
    Keeps.grant (Extends.refl driver.machine.pool)
  rw [parseHost]
  split
  · exact ⟨.refl _, rfl, rfl, rfl, rfl⟩
  · dsimp only
    split
    · exact ⟨parsed.release, rfl, rfl, rfl, rfl⟩
    · refine ⟨Keeps.release (Keeps.release ?_), rfl, rfl, rfl, rfl⟩
      rw [add_left_comm]
      exact parsed.grant

theorem readHttpRecovery_continues (calls : ParameterCalls) (driver : Driver) :
    Continues driver (readHttpRecovery calls driver).2 := by
  rw [readHttpRecovery]
  refine andThen_continues ⟨extends_dfciGetASetting _ _, rfl, rfl, rfl, rfl⟩ ?_
  refine andThen_continues ⟨extends_dfciGetACertificate _ _, rfl, rfl, rfl, rfl⟩ ?_
  refine andThen_continues ⟨extends_dfciGetASetting _ _, rfl, rfl, rfl, rfl⟩ ?_
  refine andThen_continues ⟨extends_dfciGetASetting _ _, rfl, rfl, rfl, rfl⟩ ?_
  refine andThen_continues ⟨extends_getCertInfo _ _ _, rfl, rfl, rfl, rfl⟩ ?_
  exact parseHost_continues _ _ _

theorem readHttpRecovery_fst (calls : ParameterCalls) (driver : Driver) :
    (readHttpRecovery calls driver).1 = httpThere driver.machine.settingAccess calls := by
  rw [readHttpRecovery, httpThere]
  refine andThen_fst (keepSetting_setting _) fun there => ?_
  have access : (readUrl calls.url driver).2.machine.settingAccess = true := by
    rw [readUrl, keepSetting_setting_ok there]
    rfl
  generalize (readUrl calls.url driver).2 = driver at access
  refine andThen_fst ((keepSetting_certificate _).trans (by rw [access])) fun there => ?_
  replace access : (readHttpsCert calls.httpsCert driver).2.machine.settingAccess = true := by
    rw [readHttpsCert, keepSetting_certificate_ok (access ▸ there)]
    rfl
  generalize (readHttpsCert calls.httpsCert driver).2 = driver at access
  refine andThen_fst ((keepSetting_setting _).trans (by rw [access])) fun there => ?_
  replace access : (readTenantId calls.tenantId driver).2.machine.settingAccess = true := by
    rw [readTenantId, keepSetting_setting_ok (access ▸ there)]
    rfl
  generalize (readTenantId calls.tenantId driver).2 = driver at access
  refine andThen_fst ((keepSetting_setting _).trans (by rw [access])) fun there => ?_
  refine andThen_fst (getCertInfo_available _ _ _) fun _ => ?_
  exact parseHost_fst _ _

structure HttpReady (calls : ParameterCalls) (driver : Driver) : Prop where
  httpsCert : textOf driver.machine.pool driver.inputs.httpsCert = some calls.httpsCert.data
  tenantId : textOf driver.machine.pool driver.inputs.tenantId = some calls.tenantId.data
  registrationId :
    textOf driver.machine.pool driver.inputs.registrationId = some calls.registrationId.data
  httpsThumbprint :
    textOf driver.machine.pool driver.inputs.httpsThumbprint =
      some (calls.httpsThumbprint.value.getD [])

theorem andThen_ready {first : Bool × Driver} {next : Driver → Bool × Driver}
    {P : Driver → Prop} (ok : first.1 = true) (h : P (next first.2).2) :
    P (andThen first next).2 := by
  rw [andThen, if_pos ok]
  exact h

theorem readHttpRecovery_ready {calls : ParameterCalls}
    (h : httpThere driver.machine.settingAccess calls = true) :
    HttpReady calls (readHttpRecovery calls driver).2 := by
  simp only [httpThere, Bool.and_eq_true] at h
  obtain ⟨url, cert, tenant, registration, thumbprint, -⟩ := h
  rw [readHttpRecovery]
  refine andThen_ready ((keepSetting_setting _).trans url) ?_
  rw [readUrl, keepSetting_setting_ok url]
  refine andThen_ready ((keepSetting_certificate _).trans cert) ?_
  rw [readHttpsCert, keepSetting_certificate_ok cert]
  refine andThen_ready ((keepSetting_setting _).trans tenant) ?_
  rw [readTenantId, keepSetting_setting_ok tenant]
  refine andThen_ready ((keepSetting_setting _).trans registration) ?_
  rw [readRegistrationId, keepSetting_setting_ok registration]
  refine andThen_ready ((getCertInfo_available _ _ _).trans thumbprint) ?_
  let pool := driver.machine.pool.grant
  have kept : ∀ {p : Option Buffer} {text : List UInt8} (slot : Option Buffer),
      textOf pool.grant.grant.grant p = some text →
        textOf (getCertInfo calls.httpsThumbprint slot pool.grant.grant.grant).2.2 p = some text :=
    fun slot => textOf_extends (extends_getCertInfo _ slot _)
  have once (p : Ledger) : Extends p p.grant := (Extends.refl p).grant
  generalize hread : (readHttpsThumbprint calls.httpsThumbprint _).2 = ready
  have parsed := parseHost_continues calls.httpParseUrl calls.httpUrlGetHostName ready
  have inputs := @parseHost_inputs ready calls.httpParseUrl calls.httpUrlGetHostName
  subst hread
  constructor
  · rw [inputs]
    refine textOf_extends parsed.pool (kept _ ?_)
    exact textOf_extends ((once _).trans (once _)) (textOf_grant pool _)
  · rw [inputs]
    refine textOf_extends parsed.pool (kept _ ?_)
    exact textOf_extends (once _) (textOf_grant pool.grant _)
  · rw [inputs]
    refine textOf_extends parsed.pool (kept _ ?_)
    exact textOf_grant pool.grant.grant _
  · rw [inputs]
    refine textOf_extends parsed.pool ?_
    exact getCertInfo_text thumbprint driver.inputs.httpsThumbprint pool.grant.grant.grant

theorem HttpReady.mono {calls : ParameterCalls} {after : Driver} (h : HttpReady calls driver)
    (grows : Extends driver.machine.pool after.machine.pool)
    (same : after.inputs = driver.inputs) : HttpReady calls after := by
  obtain ⟨cert, tenant, registration, thumbprint⟩ := h
  constructor
  · exact same ▸ textOf_extends grows cert
  · exact same ▸ textOf_extends grows tenant
  · exact same ▸ textOf_extends grows registration
  · exact same ▸ textOf_extends grows thumbprint

/-! ## Identities -/

section Identities

variable (calls : EnrolledCalls)

def ownerKnown : Bool :=
  !efiError calls.getEnrolledIdentities && (calls.mask.owner && delivers calls.ownerThumbprint)

/-- The device is enrolled in zero touch, with a thumbprint that can be read. -/
def zeroTouchKnown : Bool :=
  !efiError calls.getEnrolledIdentities &&
    (calls.mask.zeroTouch && delivers calls.zeroTouchThumbprint)

def certificateKnown : Bool :=
  !efiError calls.getEnrolledIdentities && !efiError calls.zeroTouchCertificate

/-- The identity strings of the device, unless one of them could not be read. -/
def InfoReady (reads : SystemInfoReads) (pool : Ledger) (info : SystemInformation) : Prop :=
  if reads.fails then info.productName = none
  else
    textOf pool info.serialNumber = some (reads.serialNumber.text.chars ++ [0]) ∧
      textOf pool info.manufacturer = some (reads.manufacturer.text.chars ++ [0]) ∧
      textOf pool info.productName = some (reads.productName.text.chars ++ [0])

theorem InfoReady.mono {reads : SystemInfoReads} {before after : Ledger}
    {info : SystemInformation} (h : InfoReady reads before info) (grows : Extends before after) :
    InfoReady reads after info := by
  rw [InfoReady] at h ⊢
  split
  · next fails => rwa [if_pos fails] at h
  · next read =>
      rw [if_neg read] at h
      exact ⟨textOf_extends grows h.1, textOf_extends grows h.2.1, textOf_extends grows h.2.2⟩

structure KnowsIdentities (before after : Driver) : Prop where
  pool : Extends before.machine.pool after.machine.pool
  access : after.machine.settingAccess = before.machine.settingAccess
  alreadyRun : after.alreadyRun = before.alreadyRun
  owned : after.configuration.dfciOwnerEnabled = ownerKnown calls
  zeroTouch : after.configuration.dfciZeroTouchEnabled = zeroTouchKnown calls
  certificate : after.configuration.dfciZeroTouchCertAvailable = certificateKnown calls
  unlocked : after.configuration.dfciZeroTouchOptGrayOut = false
  http : after.configuration.dfciHttpRecoveryEnabled =
    before.configuration.dfciHttpRecoveryEnabled
  thumbprint : ownerKnown calls = true →
    textOf after.machine.pool after.inputs.ownerThumbprint =
      some (calls.ownerThumbprint.value.getD [])
  nameless : ownerKnown calls = false → before.inputs.ownerThumbprint = none →
    after.inputs.ownerThumbprint = none
  info : efiError calls.getEnrolledIdentities = false →
    InfoReady calls.systemInfo after.machine.pool after.inputs.dfciInfo
  ready : ∀ {first : ParameterCalls}, HttpReady first before → HttpReady first after

theorem checkIfDfciEnrolled_knows (driver : Driver) :
    KnowsIdentities calls driver (checkIfDfciEnrolled calls driver).2 := by
  rw [checkIfDfciEnrolled]
  cases failed : efiError calls.getEnrolledIdentities with
  | true =>
      have unowned : ownerKnown calls = false := by rw [ownerKnown, failed]; rfl
      have unsigned : zeroTouchKnown calls = false := by rw [zeroTouchKnown, failed]; rfl
      have none : certificateKnown calls = false := by rw [certificateKnown, failed]; rfl
      rw [if_pos rfl]
      exact ⟨.refl _, rfl, rfl, unowned.symm, unsigned.symm, none.symm, rfl, rfl,
        fun known => absurd (unowned.symm.trans known) Bool.false_ne_true, fun _ null => null,
        fun enrolled => absurd (failed.symm.trans enrolled) Bool.true_eq_false.mp,
        fun ready => ready.mono (.refl _) rfl⟩
  | false =>
      have owned : ownerKnown calls = (calls.mask.owner && delivers calls.ownerThumbprint) := by
        rw [ownerKnown, failed]
        rfl
      have signed : zeroTouchKnown calls =
          (calls.mask.zeroTouch && delivers calls.zeroTouchThumbprint) := by
        rw [zeroTouchKnown, failed]
        rfl
      have available : certificateKnown calls = !efiError calls.zeroTouchCertificate := by
        rw [certificateKnown, failed]
        rfl
      let pool := transient (!efiError calls.zeroTouchCertificate) driver.machine.pool
      have zeroTouch := readThumbprint_reads calls.mask.zeroTouch calls.zeroTouchThumbprint
        driver.inputs.zeroTouchThumbprint pool
      have owner := readThumbprint_reads calls.mask.owner calls.ownerThumbprint
        driver.inputs.ownerThumbprint (readThumbprint calls.mask.zeroTouch
          calls.zeroTouchThumbprint driver.inputs.zeroTouchThumbprint pool).pool
      have info := extends_dfciGetSystemInfo calls.systemInfo (readThumbprint calls.mask.owner
        calls.ownerThumbprint driver.inputs.ownerThumbprint (readThumbprint calls.mask.zeroTouch
          calls.zeroTouchThumbprint driver.inputs.zeroTouchThumbprint pool).pool).pool
      rw [if_neg Bool.false_ne_true, readIdentities]
      constructor
      · exact (((extends_transient _ _).trans zeroTouch.grows).trans owner.grows).trans info
      · rfl
      · rfl
      · exact owner.available.trans owned.symm
      · exact zeroTouch.available.trans signed.symm
      · exact available.symm
      · rfl
      · rfl
      · intro known
        refine textOf_extends info ?_
        exact owner.text (owner.available.trans (owned.symm.trans known))
      · exact fun unknown null =>
          owner.absent (owner.available.trans (owned.symm.trans unknown)) null
      · exact fun _ => dfciGetSystemInfo_texts calls.systemInfo _
      · rintro first ⟨cert, tenant, registration, thumbprint⟩
        have grows := (((extends_transient _ _).trans zeroTouch.grows).trans owner.grows).trans info
        exact ⟨textOf_extends grows cert, textOf_extends grows tenant,
          textOf_extends grows registration, textOf_extends grows thumbprint⟩

/-- The device counts as managed when it is enrolled in zero touch or has a user; its owner does
not count. -/
theorem checkIfDfciEnrolled_fst (driver : Driver) :
    (checkIfDfciEnrolled calls driver).1 =
      (!efiError calls.getEnrolledIdentities &&
        (calls.mask.zeroTouch && delivers calls.zeroTouchThumbprint || calls.mask.user)) := by
  rw [checkIfDfciEnrolled]
  cases efiError calls.getEnrolledIdentities with
  | true => rfl
  | false =>
      rw [if_neg Bool.false_ne_true, Bool.not_false, Bool.true_and]
      exact congrArg (· || calls.mask.user) (readThumbprint_reads _ _ _ _).available

end Identities

/-! ## Parameters -/

section Parameters

variable {calls : ParameterCalls} {driver : Driver}

theorem extends_readCertFields (certInfo : SignerIdentity × CertRequest → CertInfoCalls)
    (pool : Ledger) : Extends pool (readCertFields certInfo pool) := by
  rw [readCertFields]
  induction mCertInitTable generalizing pool with
  | nil => exact .refl pool
  | cons row rows ih => exact (extends_transient _ pool).trans (ih _)

structure KnowsParameters (calls : ParameterCalls) (before after : Driver) : Prop where
  pool : Extends before.machine.pool after.machine.pool
  alreadyRun : after.alreadyRun = true
  owned : after.configuration.dfciOwnerEnabled = before.configuration.dfciOwnerEnabled
  zeroTouch : after.configuration.dfciZeroTouchEnabled = before.configuration.dfciZeroTouchEnabled
  certificate : after.configuration.dfciZeroTouchCertAvailable =
    before.configuration.dfciZeroTouchCertAvailable
  reduced : after.configuration.dfciZeroTouchOptGrayOut =
    (calls.pcdSetupUiReducedFunction || before.configuration.dfciZeroTouchOptGrayOut)
  http : after.configuration.dfciHttpRecoveryEnabled =
    httpThere before.machine.settingAccess calls
  recovery : after.configuration.dfciRecoveryEnabled =
    (calls.recoveryHandle || calls.recoveryMask != 0#32)
  owner : after.inputs.ownerThumbprint = before.inputs.ownerThumbprint
  info : after.inputs.dfciInfo = before.inputs.dfciInfo
  ready : httpThere before.machine.settingAccess calls = true → HttpReady calls after

theorem extends_readNames (calls : ParameterCalls) (driver : Driver) :
    Extends driver.machine.pool (readNames calls driver).machine.pool :=
  (extends_dfciGetASetting _ _).trans (extends_dfciGetASetting _ _)

theorem getDfciParameters_knows (first : driver.alreadyRun = false) :
    KnowsParameters calls driver (getDfciParameters calls driver) := by
  rw [getDfciParameters, if_neg (by simp [first])]
  have started : Extends driver.machine.pool (startParameters calls driver).machine.pool :=
    (extends_readCertFields _ _).trans (extends_transient _ _)
  have http := readHttpRecovery_continues calls (startParameters calls driver)
  have there := readHttpRecovery_fst calls (startParameters calls driver)
  have ready := @readHttpRecovery_ready (startParameters calls driver) calls
  dsimp only
  generalize readHttpRecovery calls (startParameters calls driver) = read at http there ready
  obtain ⟨found, after⟩ := read
  obtain ⟨pool, config, run, owner, info⟩ := http
  dsimp only at pool config run owner info there ready
  constructor
  · exact (started.trans pool).trans (extends_readNames _ _)
  · exact run
  · change after.configuration.dfciOwnerEnabled = _
    rw [config]
    rfl
  · change after.configuration.dfciZeroTouchEnabled = _
    rw [config]
    rfl
  · change after.configuration.dfciZeroTouchCertAvailable = _
    rw [config]
    rfl
  · change after.configuration.dfciZeroTouchOptGrayOut = _
    rw [config]
    rfl
  · exact there
  · change after.configuration.dfciRecoveryEnabled = _
    rw [config]
    rfl
  · exact owner
  · exact info
  · intro known
    exact (ready known).mono (extends_readNames _ _) rfl

theorem getDfciParameters_again (again : driver.alreadyRun = true) :
    getDfciParameters calls driver = driver := if_pos again

end Parameters

end MuTegra.Dfci.MenuReads
