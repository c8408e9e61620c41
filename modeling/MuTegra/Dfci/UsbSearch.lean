/- Unit: MuTegra/Dfci/UsbSearch
   source: NvidiaPkg/Applications/DfciMenu/DfciUsb.c
   digest: When the request for a packet file returns what it has read, and what it leaves open. -/

import MuTegra.Dfci.UsbFile

/-!
One status goes through the whole search, so without a packet it tells an error only if the
last handle that has assigned it has left one.
-/

set_option autoImplicit false
set_option relaxedAutoImplicit false

namespace MuTegra.Dfci.UsbSearch

open MuTegra.Foundation.Ownership
open MuTegra.Uefi.Status
open MuTegra.Dfci.State
open MuTegra.Dfci.UsbFile

variable {base : Ledger} {limit : ApplyVarSize} {calls : HandleCalls} {s mounted : Search}

theorem owns_closeBoth {files : Ledger} (h : Owns base 0 files) :
    Owns base 0 (closeBoth files.grant.next files.next files.grant.grant) :=
  Owns.release (Owns.release h.grant.grant)

def after : Search ⊕ Search → Search := Sum.elim id id

theorem openPacketFile_files (h : Owns base 0 s.files) (hmounted : mounted.files = s.files.grant) :
    Owns base 0 (after (openPacketFile limit calls s.files.next mounted)).files := by
  have hclosed := owns_closeBoth h
  rw [← hmounted] at hclosed
  rw [openPacketFile]
  split
  · change Owns base 0 (mounted.files.release (some s.files.next))
    rw [hmounted]
    exact Owns.release h.grant
  · split
    · exact hclosed
    · split
      · exact hclosed
      · rw [readPacketFile]
        split
        · exact hclosed
        · dsimp only
          split
          · exact hclosed
          · exact hclosed

theorem tryHandle_files (h : Owns base 0 s.files) :
    Owns base 0 (after (tryHandle limit calls s)).files := by
  rw [tryHandle]
  split_ifs
  · exact h
  · exact h
  · exact h
  · exact h
  · exact h
  · exact h
  · exact openPacketFile_files h rfl

theorem searchHandles_files (handles : List HandleCalls) (h : Owns base 0 s.files) :
    Owns base 0 (searchHandles limit handles s).files := by
  induction handles generalizing s with
  | nil => exact h
  | cons calls rest ih =>
      have hpass : Owns base 0 (after (tryHandle limit calls s)).files := tryHandle_files h
      rw [searchHandles]
      split
      · next hnext =>
          rw [hnext] at hpass
          exact ih hpass
      · next hexit =>
          rw [hexit] at hpass
          exact hpass

/-- A pass frees nothing wrongly; a packet it leaves is live, and none is left to the next pass. -/
structure Allocates (n : ℕ) (rest : Multiset ℕ) (result : Search ⊕ Search) : Prop where
  keeps : Keeps n ((after result).buffer.owned + rest) (after result).pool
  next : ∀ s', result = .inl s' → s'.buffer.owned = 0

variable {n : ℕ} {rest : Multiset ℕ}

theorem Allocates.unchanged (h : Keeps n rest s.pool)
    (hbuffer : s.buffer.owned = 0) : Allocates n rest (.inl s) where
  keeps := by
    change Keeps n (s.buffer.owned + rest) s.pool
    rw [hbuffer, zero_add]
    exact h
  next := by
    intro s' hs'
    rw [← Sum.inl.inj hs']
    exact hbuffer

theorem Allocates.exit (h : Keeps n (s.buffer.owned + rest) s.pool) : Allocates n rest (.inr s) where
  keeps := h
  next := by
    intro s' hs'
    cases hs'

theorem readPacketFile_pool {fileSize fileHandle volHandle : ℕ} (h : Keeps n rest mounted.pool) :
    Allocates n rest (readPacketFile calls fileSize fileHandle volHandle mounted) := by
  have hbuffer := keeps_allocatePool h calls.allocated (calls.readData ++ [0])
  rw [readPacketFile]
  split
  · next hnone =>
      rw [hnone, owned_none] at hbuffer
      exact Allocates.exit hbuffer
  · next buffer hsome =>
      rw [hsome] at hbuffer
      dsimp only
      split
      · exact Allocates.unchanged (keeps_freePool hbuffer) rfl
      · exact Allocates.exit hbuffer

theorem openPacketFile_pool {volHandle : ℕ} (h : Keeps n rest mounted.pool)
    (hbuffer : mounted.buffer.owned = 0) :
    Allocates n rest (openPacketFile limit calls volHandle mounted) := by
  have hinfo : Keeps n rest mounted.pool.grant := h.grant.mono (Multiset.le_add_left _ _)
  rw [openPacketFile]
  split
  · exact Allocates.unchanged h hbuffer
  · split
    · exact Allocates.unchanged h hbuffer
    · dsimp only
      split
      · exact Allocates.unchanged hinfo hbuffer
      · exact readPacketFile_pool hinfo

theorem tryHandle_pool (h : Keeps n rest s.pool) (hbuffer : s.buffer.owned = 0) :
    Allocates n rest (tryHandle limit calls s) := by
  rw [tryHandle]
  split_ifs
  · exact Allocates.unchanged h hbuffer
  · exact Allocates.unchanged h hbuffer
  · exact Allocates.unchanged h hbuffer
  · exact Allocates.unchanged h hbuffer
  · exact Allocates.unchanged h hbuffer
  · exact Allocates.unchanged h hbuffer
  · exact openPacketFile_pool h hbuffer

theorem searchHandles_pool (handles : List HandleCalls) (h : Keeps n rest s.pool)
    (hbuffer : s.buffer.owned = 0) :
    Keeps n ((searchHandles limit handles s).buffer.owned + rest)
      (searchHandles limit handles s).pool := by
  induction handles generalizing s with
  | nil =>
      rw [searchHandles, hbuffer, zero_add]
      exact h
  | cons calls handles ih =>
      have hpass : Allocates n rest (tryHandle limit calls s) := tryHandle_pool h hbuffer
      rw [searchHandles]
      split
      · next s' hnext =>
          rw [hnext] at hpass
          have hnone := hpass.next s' rfl
          have hkeeps : Keeps n (s'.buffer.owned + rest) s'.pool := hpass.keeps
          rw [hnone, zero_add] at hkeeps
          exact ih hkeeps hnone
      · next hexit =>
          rw [hexit] at hpass
          exact hpass.keeps

variable {handles : List HandleCalls} {s' : Search}

theorem tryHandle_next (h : tryHandle limit calls s = .inl s') : ¬ calls.Ends limit := by
  have htried := tryHandle_tried limit calls s
  rw [h] at htried
  cases htried with
  | absent hpath =>
      apply HandleCalls.not_ends_of_packetSize
      apply HandleCalls.packetSize_of_unopened
      simp [HandleCalls.Opens, hpath]
  | skipped _ _ hends _ => exact hends

theorem tryHandle_exit (h : tryHandle limit calls s = .inr s') : calls.Ends limit := by
  have htried := tryHandle_tried limit calls s
  rw [h] at htried
  cases htried with
  | refused _ hrefused _ => exact Or.inr hrefused
  | read _ _ hreads _ _ _ => exact Or.inl hreads

theorem searchHandles_find
    (h : (handles.find? fun calls => decide (calls.Ends limit)) = some calls) (s : Search) :
    ∃ before, Tried limit calls before (.inr (searchHandles limit handles s)) := by
  induction handles generalizing s with
  | nil => cases h
  | cons first rest ih =>
      rw [searchHandles]
      split
      · next hnext =>
          rw [List.find?_cons_of_neg (by simpa using tryHandle_next hnext)] at h
          exact ih h _
      · next hexit =>
          rw [List.find?_cons_of_pos (by simpa using tryHandle_exit hexit)] at h
          obtain rfl := Option.some.inj h
          exact ⟨s, hexit ▸ tryHandle_tried limit first s⟩

theorem searchHandles_exhausted (h : ∀ calls ∈ handles, ¬ calls.Ends limit) (s : Search) :
    efiError (searchHandles limit handles s).status = true ↔
      (lastTried handles).elim (efiError s.status = true) fun calls => ¬ calls.Silent limit := by
  induction handles generalizing s with
  | nil => exact Iff.rfl
  | cons first rest ih =>
      have hrest := ih fun calls hcalls => h calls (List.mem_cons_of_mem first hcalls)
      rw [searchHandles]
      split
      · next hnext =>
          have htried := tryHandle_tried limit first s
          rw [hnext] at htried
          rw [hrest]
          cases htried with
          | absent hpath => rw [lastTried, lastTried, List.filter_cons_of_neg (by simp [hpath])]
          | skipped _ hpath _ hstatus =>
              rw [lastTried, lastTried, List.filter_cons_of_pos hpath, List.getLast?_cons]
              cases (rest.filter HandleCalls.devicePath).getLast? with
              | none => exact hstatus
              | some last => exact Iff.rfl
      · next hexit => exact absurd (tryHandle_exit hexit) (h first List.mem_cons_self)

section Requests

variable {limit : ApplyVarSize} {calls : UsbFileCalls}

theorem requested_error {files files' pool : Ledger} {status : EfiStatus}
    (hsource : calls.source limit = none) (herror : efiError status = true)
    (hclosed : Owns files 0 files') : Requested limit calls files ⟨status, none, files', pool⟩ where
  succeeds := iff_of_false (ne_success_of_error herror) (by simp [hsource])
  handed handle hhandle := by
    rw [hsource] at hhandle
    cases hhandle
  failed _ := ⟨herror, rfl⟩
  closed := hclosed

theorem requested_handOut_iff {files pool : Ledger} {s : Search}
    (hsource : calls.source limit = none) (hclosed : Owns files 0 s.files) :
    Requested limit calls files (Search.handOut { s with pool := pool }) ↔
      efiError s.status = true := by
  constructor
  · intro hrequested
    by_contra herror
    have hnothing := (hrequested.failed hsource).2
    rw [Search.handOut, if_neg herror] at hnothing
    cases hnothing
  · intro herror
    rw [Search.handOut, if_pos herror]
    exact requested_error hsource herror hclosed

theorem requested_packet {files pool : Ledger} {s : Search} {handle : HandleCalls} {address : ℕ}
    (hsource : calls.source limit = some handle) (hstatus : s.status = efiSuccess)
    (hbuffer : s.buffer = .packet ⟨address, handle.readData ++ [0]⟩)
    (hsize : s.bufferSize = some (handle.readData.length + 1)) (hclosed : Owns files 0 s.files) :
    Requested limit calls files (Search.handOut { s with pool := pool }) := by
  rw [Search.handOut, hstatus, if_neg (by simp), hbuffer, hsize]
  constructor
  · exact iff_of_true rfl (by simp [hsource])
  · intro handle' hhandle'
    obtain rfl := Option.some.inj (hsource.symm.trans hhandle')
    exact ⟨address, rfl⟩
  · intro hnone
    rw [hsource] at hnone
    cases hnone
  · exact hclosed

theorem requested_of_not_searches (h : ¬ calls.Searches) (files pool : Ledger) :
    Requested limit calls files (dfciRequestJsonFromUsb limit calls files pool) := by
  have hsource : calls.source limit = none := if_neg h
  rw [dfciRequestJsonFromUsb]
  split
  · exact requested_error hsource (efiError_encodeError _) (Owns.refl files)
  · next hgiven =>
      simp only [not_or, Bool.not_eq_false] at hgiven
      have hlocate : efiError calls.locateHandleBuffer = true := by
        by_contra hlocate
        exact h ⟨hgiven, Bool.eq_false_iff.mpr hlocate⟩
      rw [findUsbDriveWithDfciUpdate, if_neg (by simp [hgiven.1]), if_pos hlocate]
      have hiff := @requested_handOut_iff limit calls files pool (calls.start files pool) hsource
        (Owns.refl files)
      exact hiff.mpr hlocate

theorem dfciRequestJsonFromUsb_searches (h : calls.Searches) (files pool : Ledger) :
    ∃ finalPool, dfciRequestJsonFromUsb limit calls files pool =
      Search.handOut { searchHandles limit calls.handles (calls.start files pool.grant) with
        pool := finalPool } := by
  obtain ⟨⟨hname, hstring, hsize⟩, hlocate⟩ := h
  refine ⟨(searchHandles limit calls.handles (calls.start files pool.grant)).pool.releaseIfAny
    (some pool.next), ?_⟩
  rw [dfciRequestJsonFromUsb, if_neg (by simp [hname, hstring, hsize]),
    findUsbDriveWithDfciUpdate, if_neg (by simp [hname]), if_neg (by simp [hlocate])]

theorem requested_of_ends (h : calls.Searches) {handle : HandleCalls}
    (hfind : (calls.handles.find? fun calls => decide (calls.Ends limit)) = some handle)
    (files pool : Ledger) :
    Requested limit calls files (dfciRequestJsonFromUsb limit calls files pool) := by
  have hsource : calls.source limit = packetHandle limit calls.handles := if_pos h
  rw [packetHandle, hfind, Option.filter_some] at hsource
  have hclosed := @searchHandles_files files limit (calls.start files pool.grant) calls.handles
    (Owns.refl files)
  obtain ⟨before, htried⟩ := searchHandles_find hfind (calls.start files pool.grant)
  obtain ⟨finalPool, hresult⟩ := @dfciRequestJsonFromUsb_searches limit calls h files pool
  rw [hresult]
  cases htried with
  | refused _ hrefused herror =>
      have hreads : ¬ handle.Reads limit := by
        rintro ⟨-, hallocated, -⟩
        rw [hrefused.2] at hallocated
        cases hallocated
      rw [if_neg (by simpa using hreads)] at hsource
      exact (requested_handOut_iff hsource hclosed).mpr herror
  | read _ address hreads hstatus hbuffer hsize =>
      rw [if_pos (by simpa using hreads)] at hsource
      exact requested_packet hsource hstatus hbuffer hsize hclosed

theorem requested_exhausted_iff (h : calls.Searches)
    (hends : ∀ handle ∈ calls.handles, ¬ handle.Ends limit) (files pool : Ledger) :
    Requested limit calls files (dfciRequestJsonFromUsb limit calls files pool) ↔
      ∃ handle, lastTried calls.handles = some handle ∧ ¬ handle.Silent limit := by
  have hfind : (calls.handles.find? fun calls => decide (calls.Ends limit)) = none :=
    List.find?_eq_none.mpr fun handle hhandle => by simpa using hends handle hhandle
  have hsource : calls.source limit = packetHandle limit calls.handles := if_pos h
  rw [packetHandle, hfind, Option.filter_none] at hsource
  have hclosed := @searchHandles_files files limit (calls.start files pool.grant) calls.handles
    (Owns.refl files)
  obtain ⟨finalPool, hresult⟩ := @dfciRequestJsonFromUsb_searches limit calls h files pool
  rw [hresult, requested_handOut_iff hsource hclosed, searchHandles_exhausted hends]
  cases lastTried calls.handles with
  | none => simp [UsbFileCalls.start, h.2]
  | some handle => simp

/-- The request keeps its promise unless the search of the handles runs out with no error left
in the status. -/
theorem dfciRequestJsonFromUsb_requested_iff (limit : ApplyVarSize) (calls : UsbFileCalls)
    (files pool : Ledger) :
    Requested limit calls files (dfciRequestJsonFromUsb limit calls files pool) ↔
      calls.Settles limit := by
  rw [UsbFileCalls.Settles]
  by_cases hsearches : calls.Searches
  · cases hfind : calls.handles.find? fun calls => decide (calls.Ends limit) with
    | some handle =>
        have hends : handle.Ends limit := by simpa using List.find?_some hfind
        exact iff_of_true (requested_of_ends hsearches hfind files pool)
          (Or.inr (Or.inl ⟨handle, List.mem_of_find?_eq_some hfind, hends⟩))
    | none =>
        have hends : ∀ handle ∈ calls.handles, ¬ handle.Ends limit := fun handle hhandle => by
          simpa using List.find?_eq_none.mp hfind handle hhandle
        have hnone : ¬ ∃ handle ∈ calls.handles, handle.Ends limit := by
          rintro ⟨handle, hhandle, hended⟩
          exact hends handle hhandle hended
        rw [requested_exhausted_iff hsearches hends, or_iff_right (not_not.mpr hsearches),
          or_iff_right hnone]
  · exact iff_of_true (requested_of_not_searches hsearches files pool) (Or.inl hsearches)

end Requests

def noDevicePath : UsbFileCalls where
  handles := [⟨false, efiNotFound, false, efiNotFound, efiNotFound, efiNotFound, efiNotFound, none,
    false, efiNotFound, []⟩]

/-- Success and a packet pointer that has never been set are handed out. -/
theorem noDevicePath_not_requested : ¬ Requested ⟨24576, by decide⟩ noDevicePath Ledger.empty
    (dfciRequestJsonFromUsb ⟨24576, by decide⟩ noDevicePath Ledger.empty Ledger.empty) := by
  intro hrequested
  have hjson : (dfciRequestJsonFromUsb ⟨24576, by decide⟩ noDevicePath Ledger.empty
    Ledger.empty).json = some (.unset, none) := by decide
  have hnothing := (hrequested.failed (by decide)).2
  rw [hjson] at hnothing
  cases hnothing

end MuTegra.Dfci.UsbSearch
