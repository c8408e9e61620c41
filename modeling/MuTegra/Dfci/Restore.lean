/- Unit: MuTegra/Dfci/Restore
   source: NvidiaPkg/Applications/DfciMenu/DfciRequest.c
   digest: What a request leaves in the certificate variable. -/

import MuTegra.Dfci.Settings
import MuTegra.Foundation.Runs

/-!
A request saves the certificate variable only when the sizing read finds it larger than the
size that an earlier request left behind. Whatever was not saved is not restored.
-/

set_option autoImplicit false
set_option relaxedAutoImplicit false

namespace MuTegra.Dfci.Restore

open MuTegra.Foundation.Ownership MuTegra.Foundation.Runs
open MuTegra.Uefi.Status MuTegra.Uefi.Variables
open MuTegra.Dfci.State MuTegra.Dfci.Request MuTegra.Dfci.Settings

structure RestoringSucceeds (calls : NetworkRequestCalls) : Prop where
  delete : efiError calls.certificate.delete = false
  restoreEarly : efiError calls.certificate.restore = false
  restore : efiError calls.restore = false

/-- The sizing read finds a variable larger than the size left by an earlier request. -/
def saves (calls : EnableCertificateCalls) (c : Certificates) : Bool :=
  getVariable calls.readSize c.tlsCaCertificate c.oldSize false == efiBufferTooSmall

def installs (calls : EnableCertificateCalls) : Bool :=
  calls.certAllocated && !efiError calls.set

/-- A request leaves the certificate variable as it found it: it fails before touching it, or
it saves it, or it installs nothing, or what it installs was there already. -/
def keepsCertificate (ctx : Context) (calls : NetworkRequestCalls) (w : World) : Bool :=
  initializeFails w.machine.settingAccess calls.settings ||
    if saves calls.certificate w.certificates then
      !calls.certificate.listAllocated || calls.certificate.readList.isNone ||
        (installs calls.certificate && w.certificates.tlsCaCertificate == dfciCertificate ctx)
    else
      !installs calls.certificate || w.certificates.tlsCaCertificate == dfciCertificate ctx

def restored (status : EfiStatus) (c : Certificates) : Certificates :=
  match c.oldList with
  | none => c
  | some list =>
      { writeCertificate status (setVariable c.oldAttr list.bytes) c with oldList := none }

theorem restoreCertificates_certificates (status : EfiStatus) (w : World) :
    (restoreCertificates status w).certificates = restored status w.certificates := by
  unfold restoreCertificates restored
  cases w.certificates.oldList <;> rfl

theorem restored_oldList (status : EfiStatus) (c : Certificates) :
    (restored status c).oldList = none := by
  unfold restored
  cases h : c.oldList with
  | none => exact h
  | some list => rfl

theorem restored_of_none {c : Certificates} (status : EfiStatus) (h : c.oldList = none) :
    restored status c = c := by
  rw [restored, h]

theorem processDfciNetworkRequest_certificates (ctx : Context) (calls : NetworkRequestCalls)
    (w : World) :
    (processDfciNetworkRequest ctx calls w).world.certificates =
      if initializeFails w.machine.settingAccess calls.settings then
        restored calls.restore w.certificates
      else
        restored calls.restore (enableDfciCertificate ctx calls.certificate
          { w with machine := (initializeNetworkRequest calls.settings w.machine).2 }).2.certificates := by
  rw [processDfciNetworkRequest, efiError_initializeNetworkRequest]
  split
  · exact restoreCertificates_certificates _ _
  · dsimp only
    split
    · exact restoreCertificates_certificates _ _
    · exact restoreCertificates_certificates _ _

theorem processDfciNetworkRequest_oldList (ctx : Context) (calls : NetworkRequestCalls)
    (w : World) : (processDfciNetworkRequest ctx calls w).world.certificates.oldList = none := by
  rw [processDfciNetworkRequest_certificates]
  split
  · exact restored_oldList _ _
  · exact restored_oldList _ _

theorem processRequests_oldList (ctx : Context) (requests : List NetworkRequestCalls) :
    ∀ w : World, w.certificates.oldList = none →
      (processRequests ctx requests w).certificates.oldList = none := by
  induction requests with
  | nil => exact fun w h => h
  | cons calls later ih =>
      exact fun w _ => ih _ (processDfciNetworkRequest_oldList ctx calls w)

variable {ctx : Context} {calls : EnableCertificateCalls} {w : World} {status : EfiStatus}

theorem installCertificate_certificates :
    (installCertificate ctx calls w).2.certificates =
      if calls.certAllocated = false then w.certificates
      else if efiError calls.set then restored calls.restore w.certificates
      else { w.certificates with tlsCaCertificate := dfciCertificate ctx } := by
  unfold installCertificate
  split
  · rfl
  · dsimp only
    split
    · exact restoreCertificates_certificates _ _
    · rfl

/-- Without a saved copy the variable ends as what was installed, or as it was. -/
theorem restored_install_of_unsaved (h : w.certificates.oldList = none) :
    (restored status (installCertificate ctx calls w).2.certificates).tlsCaCertificate =
      if installs calls then dfciCertificate ctx else w.certificates.tlsCaCertificate := by
  rw [installCertificate_certificates, installs]
  cases calls.certAllocated with
  | false => simp [restored_of_none _ h]
  | true =>
      cases efiError calls.set with
      | true => simp [restored_of_none _ h]
      | false => simp [restored, h]

theorem restored_install_of_saved {list : Buffer} (h : w.certificates.oldList = some list)
    (hearly : efiError calls.restore = false) (hstatus : efiError status = false) :
    (restored status (installCertificate ctx calls w).2.certificates).tlsCaCertificate =
      setVariable w.certificates.oldAttr list.bytes := by
  rw [installCertificate_certificates]
  cases calls.certAllocated with
  | false => simp [restored, h, writeCertificate, hstatus]
  | true =>
      cases efiError calls.set with
      | true => simp [restored, h, writeCertificate, hearly]
      | false => simp [restored, h, writeCertificate, hstatus]

theorem restored_enable_of_not_saves (hold : w.certificates.oldList = none)
    (hsaves : saves calls w.certificates = false) :
    (restored status (enableDfciCertificate ctx calls w).2.certificates).tlsCaCertificate =
      if installs calls then dfciCertificate ctx else w.certificates.tlsCaCertificate := by
  have hsmall : getVariable calls.readSize w.certificates.tlsCaCertificate
      w.certificates.oldSize false ≠ efiBufferTooSmall := by
    simpa [saves] using hsaves
  rw [enableDfciCertificate, if_pos hsmall]
  exact restored_install_of_unsaved hold

theorem noteOldCertificate_of_saves {c : Certificates} {v : Variable}
    (hsaves : saves calls c = true) (hv : c.tlsCaCertificate = some v) :
    noteOldCertificate calls c = { c with oldSize := v.data.length, oldAttr := v.attributes } := by
  have hsmall : getVariable calls.readSize c.tlsCaCertificate c.oldSize false =
      efiBufferTooSmall := by
    simpa [saves] using hsaves
  unfold noteOldCertificate
  rw [if_pos hsmall]
  split
  · next h => cases h.symm.trans hv
  · next v' h =>
      cases h.symm.trans hv
      rfl

theorem saveOldCertificate_ok {list : Option Buffer} {v : Variable}
    (hread : calls.readList = none) (hv : w.certificates.tlsCaCertificate = some v)
    (hsize : w.certificates.oldSize = v.data.length) :
    (saveOldCertificate calls list w).certificates =
      { w.certificates with oldList := list } := by
  have hok : getVariable calls.readList w.certificates.tlsCaCertificate w.certificates.oldSize
      true = efiSuccess := by
    rw [hread, hv, hsize]
    simp [getVariable]
  rw [saveOldCertificate, hok]
  rfl

theorem saveOldCertificate_failed {list : Option Buffer} (hread : calls.readList ≠ none) :
    (saveOldCertificate calls list w).certificates = w.certificates := by
  obtain ⟨failed, hfailed⟩ := Option.ne_none_iff_exists'.mp hread
  have herr : efiError (getVariable calls.readList w.certificates.tlsCaCertificate
      w.certificates.oldSize true) = true := by
    rw [hfailed]
    exact failed.isError
  rw [saveOldCertificate, if_pos herr]

theorem enableDfciCertificate_of_saves (ctx : Context) {v : Variable} (hsaves : saves calls w.certificates = true)
    (hv : w.certificates.tlsCaCertificate = some v) (halloc : calls.listAllocated = true)
    (hdelete : efiError calls.delete = false) :
    ∃ m : Machine, enableDfciCertificate ctx calls w = installCertificate ctx calls
      ⟨m, { tlsCaCertificate := none
            oldList :=
              if calls.readList = none then some ⟨w.machine.pool.next, v.data⟩
              else w.certificates.oldList
            oldSize := v.data.length
            oldAttr := v.attributes }⟩ := by
  have hsmall : ¬ getVariable calls.readSize w.certificates.tlsCaCertificate
      w.certificates.oldSize false ≠ efiBufferTooSmall := by
    simpa [saves] using hsaves
  have hnote := noteOldCertificate_of_saves hsaves hv
  have hwrite : ∀ c : Certificates,
      writeCertificate calls.delete none c = { c with tlsCaCertificate := none } := by
    intro c
    rw [writeCertificate, hdelete]
    rfl
  rw [enableDfciCertificate, if_neg hsmall, if_neg (by simp [halloc])]
  dsimp only
  rw [hwrite]
  refine ⟨_, congrArg (installCertificate ctx calls) (congrArg (World.mk _) ?_)⟩
  by_cases hread : calls.readList = none
  · rw [saveOldCertificate_ok hread ((congrArg _ hnote).trans hv) (congrArg _ hnote), if_pos hread,
      hnote, hv]
    rfl
  · rw [saveOldCertificate_failed hread, if_neg hread, hnote]

theorem restored_enable_of_saves (hold : w.certificates.oldList = none)
    (hsaves : saves calls w.certificates = true) (hdelete : efiError calls.delete = false)
    (hearly : efiError calls.restore = false) (hstatus : efiError status = false) :
    (restored status (enableDfciCertificate ctx calls w).2.certificates).tlsCaCertificate =
      if calls.listAllocated = false ∨ calls.readList = none then w.certificates.tlsCaCertificate
      else if installs calls then dfciCertificate ctx
      else none := by
  have hsmall : getVariable calls.readSize w.certificates.tlsCaCertificate
      w.certificates.oldSize false = efiBufferTooSmall := by
    simpa [saves] using hsaves
  obtain ⟨-, v, hv, -⟩ := getVariable_eq_bufferTooSmall_iff.mp hsmall
  cases halloc : calls.listAllocated with
  | false =>
      have hnote := noteOldCertificate_of_saves hsaves hv
      rw [enableDfciCertificate, if_neg (not_not.mpr hsmall), halloc, if_pos rfl,
        if_pos (.inl rfl), restored_of_none]
      · rw [hnote]
      · rw [hnote]
        exact hold
  | true =>
      obtain ⟨m, henable⟩ := enableDfciCertificate_of_saves ctx hsaves hv halloc hdelete
      rw [henable]
      by_cases hread : calls.readList = none
      · rw [if_pos (show true = false ∨ calls.readList = none from .inr hread), hv]
        exact (restored_install_of_saved (if_pos hread) hearly hstatus).trans (setVariable_self v)
      · rw [if_neg (show ¬ (true = false ∨ calls.readList = none) by simp [hread])]
        exact restored_install_of_unsaved ((if_neg hread).trans hold)

theorem keepsCertificate_iff {ctx : Context} {calls : NetworkRequestCalls} {w : World}
    (hold : w.certificates.oldList = none) (h : RestoringSucceeds calls) :
    (processDfciNetworkRequest ctx calls w).world.certificates.tlsCaCertificate =
        w.certificates.tlsCaCertificate ↔
      keepsCertificate ctx calls w = true := by
  rw [processDfciNetworkRequest_certificates, keepsCertificate]
  cases initializeFails w.machine.settingAccess calls.settings with
  | true => simp [restored_of_none _ hold]
  | false =>
      rw [if_neg Bool.false_ne_true, Bool.false_or]
      generalize (initializeNetworkRequest calls.settings w.machine).2 = m
      cases hsaves : saves calls.certificate w.certificates with
      | false =>
          rw [restored_enable_of_not_saves (w := ⟨m, w.certificates⟩) hold hsaves,
            if_neg Bool.false_ne_true]
          cases installs calls.certificate with
          | false => simp
          | true =>
              simp only [if_true, Bool.not_true, Bool.false_or, beq_iff_eq]
              exact eq_comm
      | true =>
          obtain ⟨-, v, hv, -⟩ := getVariable_eq_bufferTooSmall_iff.mp (eq_of_beq hsaves)
          rw [restored_enable_of_saves (w := ⟨m, w.certificates⟩) hold hsaves h.delete h.restoreEarly
            h.restore, if_pos rfl]
          cases hlist : calls.certificate.listAllocated with
          | false => simp
          | true =>
              cases hread : calls.certificate.readList with
              | none => simp
              | some failed =>
                  cases installs calls.certificate with
                  | false => simp [hv]
                  | true =>
                      simp only [Bool.true_eq_false, false_or, reduceCtorEq, if_false, if_true,
                        Bool.not_true, Option.isNone_some, Bool.false_or, Bool.true_and,
                        beq_iff_eq]
                      exact eq_comm

/-- Over any number of requests, the certificate variable is after each request what it was
before it exactly when each request keeps it. -/
theorem certificate_restored_iff (ctx : Context) (certificate : Option Variable)
    (requests : List NetworkRequestCalls) (h : ∀ calls ∈ requests, RestoringSucceeds calls) :
    (∀ earlier calls later, requests = earlier ++ calls :: later →
      (processDfciNetworkRequest ctx calls
          (processRequests ctx earlier (World.boot certificate))).world.certificates.tlsCaCertificate =
        (processRequests ctx earlier (World.boot certificate)).certificates.tlsCaCertificate) ↔
    ∀ earlier calls later, requests = earlier ++ calls :: later →
      keepsCertificate ctx calls (processRequests ctx earlier (World.boot certificate)) = true := by
  have hone : ∀ earlier calls later, requests = earlier ++ calls :: later →
      ((processDfciNetworkRequest ctx calls (processRequests ctx earlier
          (World.boot certificate))).world.certificates.tlsCaCertificate =
        (processRequests ctx earlier (World.boot certificate)).certificates.tlsCaCertificate ↔
      keepsCertificate ctx calls (processRequests ctx earlier (World.boot certificate)) = true) := by
    rintro earlier calls later rfl
    exact keepsCertificate_iff (processRequests_oldList ctx earlier _ rfl) (h calls (by simp))
  constructor
  · intro hkept earlier calls later heq
    exact (hone earlier calls later heq).mp (hkept earlier calls later heq)
  · intro hkeeps earlier calls later heq
    exact (hone earlier calls later heq).mpr (hkeeps earlier calls later heq)

def offlineRequest : NetworkRequestCalls where
  settings := sampleSettings
  nics := { locateHandles := efiNotFound }

def platformCertificate : Variable where
  attributes := 3#32
  data := [1, 2, 3]
  accessible := by decide
  nonempty := by decide

/-- A request without a recovery url, one that finds two interfaces of which neither has media,
and one without a bootstrap url. -/
def sampleRequests : List NetworkRequestCalls :=
  [{ settings := { recoveryUrl := { getSize := efiNotFound } } },
    { settings := sampleSettings
      nics :=
        { nics := [{ handle := 1, mediaPresent := false }, { handle := 2, mediaPresent := false }] } },
    { settings := { sampleSettings with bootstrapUrl := { getSize := efiNotFound } } }]

theorem certificate_restored_iff_sampleRequests :
    (processRequests sampleContext sampleRequests
        (World.boot (some platformCertificate))).certificates.tlsCaCertificate =
      some platformCertificate ∧
    ∀ earlier calls later, sampleRequests = earlier ++ calls :: later →
      (processDfciNetworkRequest sampleContext calls (processRequests sampleContext earlier
          (World.boot (some platformCertificate)))).world.certificates.tlsCaCertificate =
        (processRequests sampleContext earlier
          (World.boot (some platformCertificate))).certificates.tlsCaCertificate := by
  refine ⟨by decide, (certificate_restored_iff sampleContext (some platformCertificate)
    sampleRequests ?_).mpr ?_⟩
  · rw [sampleRequests, List.forall_mem_cons, List.forall_mem_cons, List.forall_mem_singleton]
    exact ⟨⟨rfl, rfl, rfl⟩, ⟨rfl, rfl, rfl⟩, rfl, rfl, rfl⟩
  · rw [sampleRequests, forall_split_cons, forall_split_cons, forall_split_cons]
    exact ⟨by decide, by decide, by decide, forall_split_nil⟩

/-- Where there was no certificate, the https certificate stays after the request. -/
theorem offlineRequest_leaves_certificate :
    (processDfciNetworkRequest sampleContext offlineRequest
        (World.boot none)).world.certificates.tlsCaCertificate ≠
      (World.boot none).certificates.tlsCaCertificate := by
  intro h
  have := (keepsCertificate_iff rfl ⟨rfl, rfl, rfl⟩).mp h
  revert this
  decide

end MuTegra.Dfci.Restore
