/- Unit: MuTegra/SiPolicy/Provisioning
   source: NvidiaPkg/Drivers/SystemIntegrityPolicyProvisioningDxe/SystemIntegrityPolicyProvisioningDxe.c
   digest: What the driver leaves on every file system that is handed to it, over whole runs. -/

import MuTegra.Foundation.FrontWrites
import MuTegra.Foundation.Ownership
import MuTegra.Uefi.Status
import Mathlib.Data.List.Induction
import Mathlib.Logic.Function.Basic

/-!
A service that is called on a visit is represented by its answer. An open file is closed by `Close`
and by `Delete` whatever they return. `Delete` answers with a warning when the file stays.
-/

set_option autoImplicit false
set_option relaxedAutoImplicit false

namespace MuTegra.SiPolicy.Provisioning

open MuTegra.Foundation.FrontWrites
open MuTegra.Foundation.Ownership
open MuTegra.Uefi.Status

/-! ## The driver -/

abbrev Volume := String → Option (List UInt8)

def bootManagerName : String := "\\EFI\\Microsoft\\Boot\\bootmgfw.efi"

def siPolicyName : String := "\\EFI\\Microsoft\\Boot\\SiPolicy.p7b"

structure VisitCalls where
  handleProtocol : EfiStatus
  openVolume : EfiStatus
  openBootManager : EfiStatus
  closeBootManager : EfiStatus
  openPolicy : EfiStatus
  delete : EfiStatus
  createPolicy : EfiStatus
  write : EfiStatus
  /-- The bytes that a failing `Write` has written. -/
  written : ℕ
  closePolicy : EfiStatus

structure System (Handle : Type) where
  volumes : Handle → Volume
  /-- The open files and roots. -/
  files : Ledger
  pool : Ledger
  events : Ledger

/-- `Open` without `EFI_FILE_MODE_CREATE`. -/
def openFile (answer : EfiStatus) (file : Option (List UInt8)) : EfiStatus :=
  if efiError answer then answer
  else if file = none then efiNotFound
  else answer

variable {Handle : Type} [DecidableEq Handle] (mSiPolicyDefault : List UInt8)

/-- A file of the file system on a handle is there with these contents, or it is not there. -/
def System.putFile (s : System Handle) (handle : Handle) (name : String)
    (file : Option (List UInt8)) : System Handle :=
  { s with volumes :=
      Function.update s.volumes handle (Function.update (s.volumes handle) name file) }

def writePolicy (calls : VisitCalls) (sfsHandle : Handle) (s : System Handle) :
    EfiStatus × System Handle :=
  if efiError calls.createPolicy then (calls.createPolicy, s)
  else
    let contents := (s.volumes sfsHandle siPolicyName).getD []
    let data :=
      if efiError calls.write then mSiPolicyDefault.take calls.written else mSiPolicyDefault
    let payloadFileProtocol := s.files.next
    let s := { s with files := s.files.grant }
    let s := s.putFile sfsHandle siPolicyName (some (writeFront data contents))
    -- the status of `Write` is lost here
    (calls.closePolicy, { s with files := s.files.release (some payloadFileProtocol) })

def replacePolicy (calls : VisitCalls) (sfsHandle : Handle) (s : System Handle) :
    EfiStatus × System Handle :=
  let status := openFile calls.openPolicy (s.volumes sfsHandle siPolicyName)
  if efiError status ∧ status ≠ efiNotFound then (status, s)
  else if status ≠ efiNotFound then
    let payloadFileProtocol := s.files.next
    let s := { s with files := s.files.grant }
    let s := if calls.delete = efiSuccess then s.putFile sfsHandle siPolicyName none else s
    writePolicy mSiPolicyDefault calls sfsHandle
      { s with files := s.files.release (some payloadFileProtocol) }
  else writePolicy mSiPolicyDefault calls sfsHandle s

def tryWritePlatformSiPolicy (calls : VisitCalls) (sfsHandle : Handle) (s : System Handle) :
    EfiStatus × System Handle :=
  if efiError calls.handleProtocol then (calls.handleProtocol, s)
  else if efiError calls.openVolume then (calls.openVolume, s)
  else
    -- the root that is opened here is never closed
    let s := { s with files := s.files.grant }
    let status := openFile calls.openBootManager (s.volumes sfsHandle bootManagerName)
    if efiError status then (status, s)
    else
      let payloadFileProtocol := s.files.next
      let s := { s with files := s.files.grant }
      replacePolicy mSiPolicyDefault calls sfsHandle
        { s with files := s.files.release (some payloadFileProtocol) }

/-- A handle that `LocateHandleBuffer` finds, in a buffer of its own. -/
structure Found (Handle : Type) where
  handle : Handle
  calls : VisitCalls

def visitHandle (s : System Handle) (found : Found Handle) : System Handle :=
  let handleBuffer := s.pool.next
  let s := { s with pool := s.pool.grant }
  let s := (tryWritePlatformSiPolicy mSiPolicyDefault found.calls found.handle s).2
  { s with pool := s.pool.release (some handleBuffer) }

/-- The handles found until a call of `LocateHandleBuffer` fails. -/
def onFileSystemNotification (found : List (Found Handle)) (s : System Handle) : System Handle :=
  found.foldl (visitHandle mSiPolicyDefault) s

def processFileSystemRegistration (createEvent registerProtocolNotify : EfiStatus)
    (present : List (Found Handle)) (s : System Handle) : EfiStatus × System Handle :=
  if efiError createEvent then (createEvent, s)
  else
    let fileSystemCallBackEvent := s.events.next
    let s := { s with events := s.events.grant }
    if efiError registerProtocolNotify then
      (registerProtocolNotify,
        { s with events := s.events.release (some fileSystemCallBackEvent) })
    else (registerProtocolNotify, onFileSystemNotification mSiPolicyDefault present s)

structure DriverRun (Handle : Type) where
  createEvent : EfiStatus
  registerProtocolNotify : EfiStatus
  present : List (Found Handle)
  notifications : List (List (Found Handle))

/-- The driver from its entry point on; without a registration it is never notified. -/
def systemIntegrityPolicyProvisioningDxe (run : DriverRun Handle) (s : System Handle) :
    System Handle :=
  let started := processFileSystemRegistration mSiPolicyDefault run.createEvent
    run.registerProtocolNotify run.present s
  if efiError started.1 then started.2
  else run.notifications.foldl (fun s found => onFileSystemNotification mSiPolicyDefault found s)
    started.2

def DriverRun.visits (run : DriverRun Handle) : List (Found Handle) :=
  if efiError run.createEvent ∨ efiError run.registerProtocolNotify then []
  else run.present ++ run.notifications.flatten

def visitsTo (handle : Handle) (visits : List (Found Handle)) : List VisitCalls :=
  (visits.filter fun found => found.handle = handle).map Found.calls

/-! ## A visit to a file system -/

/-- Nothing that the policy depends on fails. The closing of files may, and `Delete` may keep the
old file. -/
structure VisitCalls.Undisturbed (calls : VisitCalls) : Prop where
  handleProtocol : efiError calls.handleProtocol = false
  openVolume : efiError calls.openVolume = false
  openBootManager : efiError calls.openBootManager = false
  openPolicy : efiError calls.openPolicy = false
  createPolicy : efiError calls.createPolicy = false
  write : efiError calls.write = false

def writtenData (policy : List UInt8) (calls : VisitCalls) : List UInt8 :=
  if efiError calls.write then policy.take calls.written else policy

/-- A file that is opened with `EFI_FILE_MODE_CREATE` and written. -/
def writtenBehind (policy : List UInt8) (calls : VisitCalls) (file : Option (List UInt8)) :
    Option (List UInt8) :=
  if efiError calls.createPolicy then file
  else some (writeFront (writtenData policy calls) (file.getD []))

def policyBehind (policy : List UInt8) (calls : VisitCalls) (file : Option (List UInt8)) :
    Option (List UInt8) :=
  let status := openFile calls.openPolicy file
  if efiError status ∧ status ≠ efiNotFound then file
  else writtenBehind policy calls
    (if status ≠ efiNotFound ∧ calls.delete = efiSuccess then none else file)

def volumeBehind (policy : List UInt8) (volume : Volume) (calls : VisitCalls) : Volume :=
  if efiError calls.handleProtocol ∨ efiError calls.openVolume ∨
      efiError (openFile calls.openBootManager (volume bootManagerName)) then volume
  else Function.update volume siPolicyName (policyBehind policy calls (volume siPolicyName))

variable (policy : List UInt8) (calls : VisitCalls) (handle : Handle) (s : System Handle)

theorem writePolicy_volumes :
    (writePolicy policy calls handle s).2.volumes =
      Function.update s.volumes handle (Function.update (s.volumes handle) siPolicyName
        (writtenBehind policy calls (s.volumes handle siPolicyName))) := by
  rw [writePolicy, writtenBehind]
  by_cases hcreate : efiError calls.createPolicy
  · rw [if_pos hcreate, if_pos hcreate, Function.update_eq_self, Function.update_eq_self]
  · rw [if_neg hcreate, if_neg hcreate]
    rfl

theorem replacePolicy_volumes :
    (replacePolicy policy calls handle s).2.volumes =
      Function.update s.volumes handle (Function.update (s.volumes handle) siPolicyName
        (policyBehind policy calls (s.volumes handle siPolicyName))) := by
  rw [replacePolicy, policyBehind]
  dsimp only
  generalize openFile calls.openPolicy (s.volumes handle siPolicyName) = status
  by_cases hfailed : efiError status ∧ status ≠ efiNotFound
  · rw [if_pos hfailed, if_pos hfailed, Function.update_eq_self, Function.update_eq_self]
  · rw [if_neg hfailed, if_neg hfailed]
    by_cases hthere : status ≠ efiNotFound
    · rw [if_pos hthere, writePolicy_volumes]
      by_cases hdelete : calls.delete = efiSuccess
      · simp [hdelete, hthere, System.putFile]
      · simp [hdelete]
    · rw [if_neg hthere, writePolicy_volumes]
      simp [hthere]

theorem visitHandle_volumes (found : Found Handle) :
    (visitHandle policy s found).volumes = Function.update s.volumes found.handle
      (volumeBehind policy (s.volumes found.handle) found.calls) := by
  obtain ⟨handle, calls⟩ := found
  rw [visitHandle, volumeBehind]
  dsimp only
  rw [tryWritePlatformSiPolicy]
  by_cases hhandle : efiError calls.handleProtocol
  · rw [if_pos hhandle, if_pos (.inl hhandle), Function.update_eq_self]
  by_cases hvolume : efiError calls.openVolume
  · rw [if_neg hhandle, if_pos hvolume, if_pos (.inr (.inl hvolume)), Function.update_eq_self]
  rw [if_neg hhandle, if_neg hvolume]
  dsimp only
  by_cases hboot : efiError (openFile calls.openBootManager (s.volumes handle bootManagerName))
  · rw [if_pos hboot, if_pos (.inr (.inr hboot)), Function.update_eq_self]
  · rw [if_neg hboot, replacePolicy_volumes]
    rw [if_neg fun h => h.elim hhandle fun h => h.elim hvolume hboot]

theorem visitsTo_cons (found : Found Handle) (visits : List (Found Handle)) :
    visitsTo handle (found :: visits) =
      if found.handle = handle then found.calls :: visitsTo handle visits
      else visitsTo handle visits := by
  rw [visitsTo, List.filter_cons]
  by_cases hsame : found.handle = handle <;> simp [visitsTo, hsame]

theorem visits_volume (visits : List (Found Handle)) :
    (visits.foldl (visitHandle policy) s).volumes handle =
      (visitsTo handle visits).foldl (volumeBehind policy) (s.volumes handle) := by
  induction visits generalizing s with
  | nil => rfl
  | cons found visits ih =>
      rw [List.foldl_cons, ih, visitHandle_volumes, visitsTo_cons]
      by_cases hsame : found.handle = handle
      · rw [if_pos hsame, hsame, Function.update_self, List.foldl_cons]
      · rw [if_neg hsame, Function.update_of_ne (Ne.symm hsame)]

/-! ## The visits to one file system -/

section Visits

variable {policy : List UInt8} {calls : VisitCalls} {file : Option (List UInt8)} {volume : Volume}

/-- The policy file is the old one up to a start of the policy, or such a start alone. -/
def Pieced (policy : List UInt8) (before after : Option (List UInt8)) : Prop :=
  ∀ contents, after = some contents →
    Started policy [] contents ∨ ∃ old, before = some old ∧ Started policy old contents

theorem bootManager_ne_siPolicy : bootManagerName ≠ siPolicyName := by decide

theorem volumeBehind_other {name : String} (hname : name ≠ siPolicyName) :
    volumeBehind policy volume calls name = volume name := by
  rw [volumeBehind]
  split
  · rfl
  · exact Function.update_of_ne hname _ _

theorem volumeBehind_noBootManager (hnone : volume bootManagerName = none) :
    volumeBehind policy volume calls = volume := by
  have hrefused : efiError (openFile calls.openBootManager none) = true := by
    rw [openFile]
    split
    · assumption
    · rw [if_pos rfl]
      rfl
  rw [volumeBehind, hnone, if_pos (.inr (.inr hrefused))]

theorem Pieced.written {before : Option (List UInt8)} (h : Pieced policy before file) :
    Pieced policy before (writtenBehind policy calls file) := by
  have hdata : ∃ n, writtenData policy calls = policy.take n := by
    rw [writtenData]
    split
    · exact ⟨_, rfl⟩
    · exact ⟨policy.length, List.take_length.symm⟩
  obtain ⟨n, hdata⟩ := hdata
  rw [writtenBehind]
  split
  · exact h
  · intro contents hcontents
    obtain rfl := Option.some.inj hcontents
    rw [hdata]
    cases file with
    | none => exact .inl ((started_refl policy []).write n)
    | some held =>
        rcases h held rfl with hstarted | ⟨old, hold, hstarted⟩
        · exact .inl (hstarted.write n)
        · exact .inr ⟨old, hold, hstarted.write n⟩

theorem Pieced.policyBehind {before : Option (List UInt8)} (h : Pieced policy before file) :
    Pieced policy before (policyBehind policy calls file) := by
  rw [Provisioning.policyBehind]
  split
  · exact h
  · apply Pieced.written
    split
    · exact nofun
    · exact h

theorem Pieced.volumeBehind {before : Option (List UInt8)}
    (h : Pieced policy before (volume siPolicyName)) :
    Pieced policy before (volumeBehind policy volume calls siPolicyName) := by
  rw [Provisioning.volumeBehind]
  split
  · exact h
  · rw [Function.update_self]
    exact h.policyBehind

theorem VisitCalls.Undisturbed.volumeBehind (h : calls.Undisturbed)
    (hboot : volume bootManagerName ≠ none) :
    volumeBehind policy volume calls siPolicyName =
      some (writeFront policy
        (if calls.delete = efiSuccess then [] else (volume siPolicyName).getD [])) := by
  have hopened : efiError (openFile calls.openBootManager (volume bootManagerName)) = false := by
    rw [openFile, h.openBootManager, if_neg Bool.false_ne_true, if_neg hboot, h.openBootManager]
  rw [Provisioning.volumeBehind, h.handleProtocol, h.openVolume, hopened]
  rw [if_neg (by simp), Function.update_self, policyBehind, openFile, h.openPolicy]
  rw [writtenBehind, writtenData, h.createPolicy, h.write]
  have hopen : calls.openPolicy ≠ efiNotFound := by
    intro hnot
    have := h.openPolicy
    rw [hnot] at this
    cases this
  cases volume siPolicyName with
  | none => simp
  | some old => by_cases hdelete : calls.delete = efiSuccess <;> simp [hopen, hdelete, h.openPolicy]

variable {visits : List VisitCalls}

theorem visits_other {name : String} (hname : name ≠ siPolicyName) :
    visits.foldl (volumeBehind policy) volume name = volume name := by
  induction visits generalizing volume with
  | nil => rfl
  | cons calls visits ih => rw [List.foldl_cons, ih, volumeBehind_other hname]

theorem visits_noBootManager (hnone : volume bootManagerName = none) :
    visits.foldl (volumeBehind policy) volume = volume := by
  induction visits with
  | nil => rfl
  | cons calls visits ih => rw [List.foldl_cons, volumeBehind_noBootManager hnone, ih]

theorem visits_pieced {before : Option (List UInt8)}
    (h : Pieced policy before (volume siPolicyName)) :
    Pieced policy before (visits.foldl (volumeBehind policy) volume siPolicyName) := by
  induction visits generalizing volume with
  | nil => exact h
  | cons calls visits ih => exact ih h.volumeBehind

/-- Undisturbed visits leave the policy, and behind it what no visit deleted of a longer file. -/
theorem visits_undisturbed (hboot : volume bootManagerName ≠ none)
    (h : ∀ calls ∈ visits, calls.Undisturbed) (hvisited : visits ≠ []) :
    visits.foldl (volumeBehind policy) volume siPolicyName =
      some (writeFront policy
        (if ∃ calls ∈ visits, calls.delete = efiSuccess then []
        else (volume siPolicyName).getD [])) := by
  induction visits using List.reverseRecOn with
  | nil => exact absurd rfl hvisited
  | append_singleton visits last ih =>
      have hlast : last.Undisturbed := h last (by simp)
      have hearlier : ∀ calls ∈ visits, calls.Undisturbed := fun calls hcalls =>
        h calls (List.mem_append_left _ hcalls)
      rw [List.foldl_append, List.foldl_cons, List.foldl_nil,
        hlast.volumeBehind (by rwa [visits_other bootManager_ne_siPolicy])]
      by_cases hdelete : last.delete = efiSuccess
      · rw [if_pos hdelete, if_pos ⟨last, by simp, hdelete⟩]
      · have hiff : (∃ calls ∈ visits ++ [last], calls.delete = efiSuccess) ↔
            ∃ calls ∈ visits, calls.delete = efiSuccess := by
          simp [or_and_right, exists_or, hdelete]
        rw [if_neg hdelete]
        by_cases hfirst : visits = []
        · subst hfirst
          simp [hdelete]
        · rw [ih hearlier hfirst, Option.getD_some, writeFront_writeFront]
          simp only [hiff]

end Visits

/-! ## Open files -/

def VisitCalls.opensRoot (calls : VisitCalls) : Bool :=
  !efiError calls.handleProtocol && !efiError calls.openVolume

section Files

variable {Handle : Type} [DecidableEq Handle] {policy : List UInt8} {calls : VisitCalls}
  {handle : Handle} {s : System Handle} {base : Ledger} {owned : Multiset ℕ}

theorem writePolicy_owns (h : Owns base owned s.files) :
    Owns base owned (writePolicy policy calls handle s).2.files := by
  rw [writePolicy]
  split
  · exact h
  · exact h.grant.release

theorem replacePolicy_owns (h : Owns base owned s.files) :
    Owns base owned (replacePolicy policy calls handle s).2.files := by
  rw [replacePolicy]
  dsimp only
  split
  · exact h
  · split
    · apply writePolicy_owns
      split
      · exact h.grant.release
      · exact h.grant.release
    · exact writePolicy_owns h

theorem tryWritePlatformSiPolicy_owns (h : Owns base owned s.files) :
    Owns base (held (if calls.opensRoot then some s.files.next else none) + owned)
      (tryWritePlatformSiPolicy policy calls handle s).2.files := by
  rw [tryWritePlatformSiPolicy]
  by_cases hhandle : efiError calls.handleProtocol
  · simpa [VisitCalls.opensRoot, hhandle] using h
  by_cases hvolume : efiError calls.openVolume
  · simpa [VisitCalls.opensRoot, hhandle, hvolume] using h
  have hroot : calls.opensRoot = true := by simp [VisitCalls.opensRoot, hhandle, hvolume]
  rw [if_neg hhandle, if_neg hvolume, if_pos hroot]
  dsimp only
  split
  · exact h.grant
  · exact replacePolicy_owns h.grant.grant.release

theorem tryWritePlatformSiPolicy_pool :
    (tryWritePlatformSiPolicy policy calls handle s).2.pool = s.pool := by
  have hwrite : ∀ s : System Handle, (writePolicy policy calls handle s).2.pool = s.pool := by
    intro s
    rw [writePolicy]
    split <;> rfl
  have hreplace : ∀ s : System Handle, (replacePolicy policy calls handle s).2.pool = s.pool := by
    intro s
    rw [replacePolicy]
    dsimp only
    split
    · rfl
    · split
      · rw [hwrite]
        dsimp only
        split <;> rfl
      · exact hwrite s
  rw [tryWritePlatformSiPolicy]
  split
  · rfl
  · split
    · rfl
    · dsimp only
      split
      · rfl
      · exact hreplace _

end Files

/-! ## Runs of the driver -/

structure Provisioned (policy : List UInt8) (visits : List VisitCalls) (before after : Volume) :
    Prop where
  others : ∀ name, name ≠ siPolicyName → after name = before name
  noBootManager : before bootManagerName = none → after = before
  unvisited : visits = [] → after = before
  pieced : Pieced policy (before siPolicyName) (after siPolicyName)
  undisturbed : before bootManagerName ≠ none → visits ≠ [] →
    (∀ calls ∈ visits, calls.Undisturbed) →
      (after siPolicyName = some policy ↔
        (∃ calls ∈ visits, calls.delete = efiSuccess) ∨
          ((before siPolicyName).getD []).length ≤ policy.length)

theorem driver_visits (policy : List UInt8) (run : DriverRun Handle) (s : System Handle) :
    ∃ events,
      systemIntegrityPolicyProvisioningDxe policy run s =
          run.visits.foldl (visitHandle policy) { s with events := events } ∧
        Owns s.events
          (if efiError run.createEvent ∨ efiError run.registerProtocolNotify then 0
          else {s.events.next}) events := by
  rw [systemIntegrityPolicyProvisioningDxe, processFileSystemRegistration, DriverRun.visits]
  by_cases hcreate : efiError run.createEvent
  · simp only [hcreate, true_or, if_true]
    exact ⟨s.events, rfl, Owns.refl _⟩
  by_cases hregister : efiError run.registerProtocolNotify
  · rw [Bool.not_eq_true] at hcreate
    simp only [hcreate, hregister, Bool.false_eq_true, if_true, if_false, or_true]
    exact ⟨_, rfl, (Owns.refl s.events).grant.release⟩
  · rw [Bool.not_eq_true] at hcreate hregister
    simp only [hcreate, hregister, Bool.false_eq_true, if_false, or_self]
    refine ⟨s.events.grant, ?_, (Owns.refl s.events).grant⟩
    rw [List.foldl_append, List.foldl_flatten]
    rfl

/-- Over any run the driver touches nothing but the policy files of file systems with a boot
manager, and these hold a start of the policy followed by the rest of the old file or by nothing. A
file system whose visits are undisturbed ends up with exactly the policy, unless its old file was
longer and never deleted. -/
theorem provisioning_provisioned (policy : List UInt8) (run : DriverRun Handle)
    (s : System Handle) (handle : Handle) :
    Provisioned policy (visitsTo handle run.visits) (s.volumes handle)
      ((systemIntegrityPolicyProvisioningDxe policy run s).volumes handle) := by
  obtain ⟨events, hrun, -⟩ := driver_visits policy run s
  rw [hrun, visits_volume]
  dsimp only
  generalize s.volumes handle = before
  generalize visitsTo handle run.visits = visits
  constructor
  · exact fun name hname => visits_other hname
  · exact visits_noBootManager
  · rintro rfl
    rfl
  · apply visits_pieced
    exact fun contents hcontents => .inr ⟨contents, hcontents, started_refl policy contents⟩
  · intro hboot hvisited hundisturbed
    rw [visits_undisturbed hboot hundisturbed hvisited, Option.some_inj, writeFront_eq_self_iff]
    split
    · next hdeleted => exact iff_of_true (Nat.zero_le _) (.inl hdeleted)
    · next hkept => exact (or_iff_right hkept).symm

/-- What visits hold on to: the root of each file system they opened, and nothing else. -/
structure HoldsRoots (visits : List (Found Handle)) (before after : System Handle) : Prop where
  files : ∃ roots : Multiset ℕ, Owns before.files roots after.files ∧
    roots.card = visits.countP fun found => found.calls.opensRoot
  pool : Owns before.pool 0 after.pool

theorem visits_holdsRoots (policy : List UInt8) (visits : List (Found Handle))
    (s : System Handle) : HoldsRoots visits s (visits.foldl (visitHandle policy) s) := by
  induction visits using List.reverseRecOn with
  | nil => exact ⟨⟨0, Owns.refl _, rfl⟩, Owns.refl _⟩
  | append_singleton visits last ih =>
      obtain ⟨⟨roots, hroots, hcard⟩, hpool⟩ := ih
      rw [List.foldl_append, List.foldl_cons, List.foldl_nil, visitHandle]
      generalize visits.foldl (visitHandle policy) s = s₁ at hroots hpool
      refine ⟨⟨_, @tryWritePlatformSiPolicy_owns _ _ policy last.calls last.handle
        { s₁ with pool := s₁.pool.grant } _ _ hroots, ?_⟩, ?_⟩
      · rw [Multiset.card_add, hcard, List.countP_append, List.countP_singleton, Nat.add_comm]
        split <;> rfl
      · dsimp only
        rw [tryWritePlatformSiPolicy_pool]
        exact hpool.grant.release

/-- A run leaves open the roots of all the volumes it opened, one for each visit, and no other
file; the buffers of the handles found are all freed, and nothing is closed or freed twice. -/
theorem provisioning_holdsRoots (policy : List UInt8) (run : DriverRun Handle)
    (s : System Handle) :
    HoldsRoots run.visits s (systemIntegrityPolicyProvisioningDxe policy run s) := by
  obtain ⟨events, hrun, -⟩ := driver_visits policy run s
  obtain ⟨files, pool⟩ := visits_holdsRoots policy run.visits { s with events := events }
  rw [hrun]
  exact ⟨files, pool⟩

end MuTegra.SiPolicy.Provisioning
