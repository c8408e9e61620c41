/- Unit: MuTegra/EarlyGraphics/FrameBufferInfo
   source: NvidiaPkg/Library/MsPlatformEarlyGraphicsLib/MsEarlyGraphicsLib.c
   digest: The mode set is the first of the largest; only calls before the first success store. -/

import MuTegra.Foundation.Ownership
import MuTegra.Foundation.Runs
import MuTegra.Uefi.Status
import Mathlib.Data.List.MinMax
import Mathlib.Data.Prod.Lex

/-!
A query that does not fail gives an information buffer to the caller. The override GOP keeps
its mode through the queries; what setting a mode makes of it is up to the GOP.
-/

set_option autoImplicit false
set_option relaxedAutoImplicit false

namespace MuTegra.EarlyGraphics.FrameBufferInfo

open MuTegra.Foundation.Ownership
open MuTegra.Foundation.Runs
open MuTegra.Uefi.Status

/-! ## Modes -/

structure PixelBitmask where
  redMask : UInt32
  greenMask : UInt32
  blueMask : UInt32
  reservedMask : UInt32
  deriving DecidableEq, Repr

structure ModeInformation where
  version : UInt32
  horizontalResolution : UInt32
  verticalResolution : UInt32
  pixelFormat : UInt32
  pixelInformation : PixelBitmask
  pixelsPerScanLine : UInt32
  deriving DecidableEq, Repr

structure GopMode where
  maxMode : UInt32
  mode : UInt32
  info : ModeInformation
  sizeOfInfo : UInt32
  frameBufferBase : UInt64
  frameBufferSize : UInt32
  deriving DecidableEq, Repr

/-- The override GOP: its mode, what `QueryMode` answers, and `SetMode` with the mode it
leaves. -/
structure Gop where
  mode : GopMode
  queryMode : UInt32 → EfiStatus × ModeInformation
  setMode : UInt32 → EfiStatus × GopMode

def invalidMode : UInt32 := 0xFFFFFFFF

/-! ## The search -/

structure Search where
  currentModeNumber : UInt32
  currentHorizontalResolution : UInt32
  currentVerticalResolution : UInt32
  pool : Ledger

/-- A queried mode takes the place of the current one when it is wider, or as wide and higher. -/
def compareMode (s : Search) (modeNumber : UInt32) (info : ModeInformation) : Search :=
  let take : Search :=
    { s with
      currentModeNumber := modeNumber
      currentHorizontalResolution := info.horizontalResolution
      currentVerticalResolution := info.verticalResolution }
  if info.horizontalResolution ≤ s.currentHorizontalResolution then
    if info.horizontalResolution ≠ s.currentHorizontalResolution then s
    else if info.verticalResolution ≤ s.currentVerticalResolution then s
    else take
  else take

/-- A pass over the modes; the buffer of a query that does not fail is freed. -/
def queryPass (gop : Gop) (s : Search) (modeNumber : ℕ) : Search :=
  let query := gop.queryMode modeNumber.toUInt32
  if efiError query.1 then s
  else
    let compared := compareMode { s with pool := s.pool.grant } modeNumber.toUInt32 query.2
    { compared with pool := compared.pool.release (some s.pool.next) }

def searchModes (gop : Gop) (pool : Ledger) : Search :=
  (List.range gop.mode.maxMode.toNat).foldl (queryPass gop) ⟨0, 0, 0, pool⟩

/-! ## The function -/

def zeroMode : GopMode := ⟨0, 0, ⟨0, 0, 0, 0, ⟨0, 0, 0, 0⟩, 0⟩, 0, 0, 0⟩

/-- A call: whether `GraphicsMode` points somewhere, whether the two allocations are granted,
what `LocateProtocol` returns, and the GOP as the call finds it. -/
structure Call where
  graphicsMode : Bool
  modeAllocated : Bool
  infoAllocated : Bool
  locateProtocol : EfiStatus
  gop : Gop

/-- What a call did: its status, the structure it stored in `*GraphicsMode`, the modes it passed
to `SetMode`, and the mode it left the GOP in. -/
structure Outcome where
  status : EfiStatus
  stored : Option GopMode
  setModes : List UInt32
  gopMode : GopMode

structure Library where
  isInitialized : Bool
  pool : Ledger

def copyMode (mode : GopMode) : GopMode :=
  { maxMode := mode.maxMode
    mode := mode.mode
    sizeOfInfo := mode.sizeOfInfo
    frameBufferSize := mode.frameBufferSize
    frameBufferBase := mode.frameBufferBase
    info :=
      { version := mode.info.version
        horizontalResolution := mode.info.horizontalResolution
        verticalResolution := mode.info.verticalResolution
        pixelFormat := mode.info.pixelFormat
        pixelInformation := mode.info.pixelInformation
        pixelsPerScanLine := mode.info.pixelsPerScanLine } }

/-- From `LABEL_33` on: the copy, and the flag once the mode is valid. -/
def storeMode (status : EfiStatus) (setModes : List UInt32) (mode : GopMode) (l : Library) :
    Outcome × Library :=
  (⟨status, some (copyMode mode), setModes, mode⟩,
    if (copyMode mode).mode = invalidMode then l else { l with isInitialized := true })

/-- A GOP without a mode is set to the mode searched for. -/
def initialiseMode (status : EfiStatus) (gop : Gop) (l : Library) : Outcome × Library :=
  if gop.mode.mode ≠ invalidMode then storeMode status [] gop.mode l
  else
    let found := searchModes gop l.pool
    let l := { l with pool := found.pool }
    if found.currentModeNumber ≠ gop.mode.mode then
      let set := gop.setMode found.currentModeNumber
      storeMode set.1 [found.currentModeNumber] set.2 l
    else storeMode status [] gop.mode l

def msEarlyGraphicsGetFrameBufferInfo (l : Library) (call : Call) : Outcome × Library :=
  if call.graphicsMode = false then (⟨efiInvalidParameter, none, [], call.gop.mode⟩, l)
  else if l.isInitialized then (⟨efiSuccess, none, [], call.gop.mode⟩, l)
  else
    let mode := l.pool.acquire call.modeAllocated
    if mode.1 = none then
      (⟨efiOutOfResources, none, [], call.gop.mode⟩, { l with pool := mode.2 })
    else
      let info := mode.2.acquire call.infoAllocated
      let l := { l with pool := info.2 }
      if info.1 = none then (⟨efiOutOfResources, some zeroMode, [], call.gop.mode⟩, l)
      else if efiError call.locateProtocol then
        (⟨call.locateProtocol, some zeroMode, [], call.gop.mode⟩, l)
      else initialiseMode call.locateProtocol call.gop l

/-! ## The largest mode -/

def resolutionOf (info : ModeInformation) : ℕ ×ₗ ℕ :=
  toLex (info.horizontalResolution.toNat, info.verticalResolution.toNat)

def resolution (gop : Gop) (modeNumber : ℕ) : ℕ ×ₗ ℕ :=
  resolutionOf (gop.queryMode modeNumber.toUInt32).2

def isCandidate (gop : Gop) (modeNumber : ℕ) : Bool :=
  !efiError (gop.queryMode modeNumber.toUInt32).1 &&
    decide (toLex (0, 0) < resolution gop modeNumber)

def candidates (gop : Gop) (count : ℕ) : List ℕ := (List.range count).filter (isCandidate gop)

def largestMode (gop : Gop) : ℕ :=
  ((candidates gop gop.mode.maxMode.toNat).argmax (resolution gop)).getD 0

structure Call.Reaches (call : Call) (l : Library) : Prop where
  graphicsMode : call.graphicsMode = true
  uninitialised : l.isInitialized = false
  modeAllocated : call.modeAllocated = true
  infoAllocated : call.infoAllocated = true
  located : efiError call.locateProtocol = false

/-- The call sets the largest mode once, and of all it allocated only `*GraphicsMode` and its
information stay live. -/
structure SetsLargest (l : Library) (call : Call) : Prop where
  setModes : (msEarlyGraphicsGetFrameBufferInfo l call).1.setModes =
    [(largestMode call.gop).toUInt32]
  freed : Owns l.pool.grant.grant 0 (msEarlyGraphicsGetFrameBufferInfo l call).2.pool

variable {gop : Gop} {base : Ledger} {count : ℕ} {s : Search}

def Search.current (s : Search) : ℕ ×ₗ ℕ :=
  toLex (s.currentHorizontalResolution.toNat, s.currentVerticalResolution.toNat)

theorem compareMode_eq (s : Search) (modeNumber : UInt32) (info : ModeInformation) :
    compareMode s modeNumber info =
      if s.current < resolutionOf info then
        { s with
          currentModeNumber := modeNumber
          currentHorizontalResolution := info.horizontalResolution
          currentVerticalResolution := info.verticalResolution }
      else s := by
  have larger : s.current < resolutionOf info ↔
      s.currentHorizontalResolution.toNat < info.horizontalResolution.toNat ∨
        s.currentHorizontalResolution.toNat = info.horizontalResolution.toNat ∧
          s.currentVerticalResolution.toNat < info.verticalResolution.toNat := by
    rw [Search.current, resolutionOf, Prod.Lex.toLex_lt_toLex]
  rw [compareMode]
  simp only [UInt32.le_iff_toNat_le, ne_eq, ← UInt32.toNat_inj, larger]
  split_ifs <;> first | rfl | omega

/-- After some modes: the search has come to the first of the largest candidates, and every
buffer is freed. -/
structure SearchAt (gop : Gop) (base : Ledger) (count : ℕ) (s : Search) : Prop where
  owns : Owns base 0 s.pool
  number : s.currentModeNumber =
    (((candidates gop count).argmax (resolution gop)).getD 0).toUInt32
  current : s.current =
    (((candidates gop count).argmax (resolution gop)).map (resolution gop)).getD (toLex (0, 0))

theorem candidates_succ (gop : Gop) (count : ℕ) :
    candidates gop (count + 1) =
      candidates gop count ++ if isCandidate gop count then [count] else [] := by
  rw [candidates, List.range_succ, List.filter_append, List.filter_singleton]
  cases isCandidate gop count <;> rfl

theorem argmax_candidates_succ (current : ℕ ×ₗ ℕ)
    (readable : efiError (gop.queryMode count.toUInt32).1 = false)
    (hcurrent : current = (((candidates gop count).argmax (resolution gop)).map
      (resolution gop)).getD (toLex (0, 0))) :
    (candidates gop (count + 1)).argmax (resolution gop) =
      if current < resolution gop count then some count
      else (candidates gop count).argmax (resolution gop) := by
  have least (r : ℕ ×ₗ ℕ) : toLex (0, 0) ≤ r := by
    change toLex (0, 0) ≤ toLex (ofLex r)
    rw [Prod.Lex.toLex_le_toLex]
    exact (Nat.eq_zero_or_pos (ofLex r).1).elim (fun zero => .inr ⟨zero.symm, Nat.zero_le _⟩) .inl
  rw [candidates_succ, isCandidate, readable]
  by_cases candidate : toLex (0, 0) < resolution gop count
  · simp only [candidate, decide_true, Bool.not_false, Bool.and_self, if_true]
    rw [List.argmax_concat]
    cases best : (candidates gop count).argmax (resolution gop) with
    | none =>
        rw [best] at hcurrent
        rw [hcurrent]
        exact (if_pos candidate).symm
    | some c =>
        rw [best] at hcurrent
        rw [hcurrent]
        rfl
  · have smaller : ¬ current < resolution gop count := fun larger =>
      candidate ((least current).trans_lt larger)
    simp [candidate, smaller]

theorem SearchAt.pass (h : SearchAt gop base count s) :
    SearchAt gop base (count + 1) (queryPass gop s count) := by
  rw [queryPass]
  cases failed : efiError (gop.queryMode count.toUInt32).1 with
  | true =>
      have same : candidates gop (count + 1) = candidates gop count := by
        rw [candidates_succ, isCandidate, failed]
        exact List.append_nil _
      rw [if_pos rfl]
      exact ⟨h.owns, same ▸ h.number, same ▸ h.current⟩
  | false =>
      have next := argmax_candidates_succ s.current failed h.current
      have freed : Owns base 0 (s.pool.grant.release (some s.pool.next)) := h.owns.grant.release
      have compared := compareMode_eq { s with pool := s.pool.grant } count.toUInt32
        (gop.queryMode count.toUInt32).2
      rw [if_neg Bool.false_ne_true]
      by_cases larger : s.current < resolution gop count
      · rw [if_pos larger] at next
        simp only [compared.trans (if_pos larger)]
        exact ⟨freed, by rw [next]; rfl, by rw [next]; rfl⟩
      · rw [if_neg larger] at next
        simp only [compared.trans (if_neg larger)]
        exact ⟨freed, by rw [next]; exact h.number, by rw [next]; exact h.current⟩

theorem searchModes_spec (gop : Gop) (pool : Ledger) :
    SearchAt gop pool gop.mode.maxMode.toNat (searchModes gop pool) := by
  rw [searchModes]
  induction gop.mode.maxMode.toNat with
  | zero => exact ⟨Owns.refl pool, rfl, rfl⟩
  | succ count ih =>
      rw [List.range_succ, List.foldl_append]
      exact ih.pass

theorem largestMode_ne (gop : Gop) : (largestMode gop).toUInt32 ≠ invalidMode := by
  have bound : largestMode gop < 4294967295 := by
    have below := gop.mode.maxMode.toNat_lt
    rw [largestMode]
    cases best : (candidates gop gop.mode.maxMode.toNat).argmax (resolution gop) with
    | none => exact Nat.succ_pos _
    | some n =>
        have member := List.mem_range.mp (List.mem_filter.mp (List.argmax_mem best)).1
        change n < 4294967295
        omega
  intro eq
  have value := congrArg UInt32.toNat eq
  change (UInt32.ofNat (largestMode gop)).toNat = 4294967295 at value
  rw [UInt32.toNat_ofNat_of_lt' (bound.trans (by decide))] at value
  exact absurd value (Nat.ne_of_lt bound)

/-! ## A call -/

variable {l : Library} {call : Call}

theorem Call.Reaches.eq (h : call.Reaches l) :
    msEarlyGraphicsGetFrameBufferInfo l call =
      initialiseMode call.locateProtocol call.gop { l with pool := l.pool.grant.grant } := by
  simp [msEarlyGraphicsGetFrameBufferInfo, h.graphicsMode, h.uninitialised, h.modeAllocated,
    h.infoAllocated, h.located]

theorem initialiseMode_invalid {gop : Gop} (status : EfiStatus) (l : Library)
    (invalid : gop.mode.mode = invalidMode) :
    initialiseMode status gop l =
      storeMode (gop.setMode (largestMode gop).toUInt32).1 [(largestMode gop).toUInt32]
        (gop.setMode (largestMode gop).toUInt32).2
        { l with pool := (searchModes gop l.pool).pool } := by
  have number := (searchModes_spec gop l.pool).number
  have set : (searchModes gop l.pool).currentModeNumber = (largestMode gop).toUInt32 := number
  have other : (searchModes gop l.pool).currentModeNumber ≠ gop.mode.mode := by
    rw [set, invalid]
    exact largestMode_ne gop
  rw [initialiseMode, if_neg (not_not_intro invalid)]
  simp only [set]
  exact if_pos (set ▸ other)

theorem storeMode_pool (status : EfiStatus) (setModes : List UInt32) (mode : GopMode)
    (l : Library) : (storeMode status setModes mode l).2.pool = l.pool := by
  rw [storeMode]
  split <;> rfl

/-- A call that finds the override GOP without a mode sets the largest one. -/
theorem setsLargest (l : Library) (call : Call) (reaches : call.Reaches l)
    (invalid : call.gop.mode.mode = invalidMode) : SetsLargest l call where
  setModes := by
    rw [reaches.eq, initialiseMode_invalid _ _ invalid]
    rfl
  freed := by
    rw [reaches.eq, initialiseMode_invalid _ _ invalid, storeMode_pool]
    exact (searchModes_spec call.gop l.pool.grant.grant).owns

/-- Three modes of which the second and the third are the largest, and the first cannot be
queried. -/
def threeModes : Gop where
  mode := { zeroMode with maxMode := 3, mode := invalidMode }
  queryMode n := (if n = 0 then efiDeviceError else efiSuccess,
    ⟨0, 800, 1280, 0, ⟨0, 0, 0, 0⟩, 800⟩)
  setMode n := (efiSuccess, { zeroMode with maxMode := 3, mode := n })

theorem setsLargest_threeModes :
    SetsLargest ⟨false, .empty⟩ ⟨true, true, true, efiSuccess, threeModes⟩ ∧
      largestMode threeModes = 1 :=
  ⟨setsLargest _ _ ⟨rfl, rfl, rfl, rfl, rfl⟩ rfl, by decide⟩

/-! ## Sequences of calls -/

/-- `IsInitialized` is clear when the module is loaded. -/
def Library.start (pool : Ledger) : Library := ⟨false, pool⟩

/-- A stored structure has the GOP's mode number, resolution, format and frame buffer. -/
structure Describes (stored gopMode : GopMode) : Prop where
  mode : stored.mode = gopMode.mode
  horizontalResolution : stored.info.horizontalResolution = gopMode.info.horizontalResolution
  verticalResolution : stored.info.verticalResolution = gopMode.info.verticalResolution
  pixelFormat : stored.info.pixelFormat = gopMode.info.pixelFormat
  frameBufferBase : stored.frameBufferBase = gopMode.frameBufferBase
  frameBufferSize : stored.frameBufferSize = gopMode.frameBufferSize

/-- A call that returns success has stored a structure for the mode it leaves the GOP in. -/
def Outcome.Ok (outcome : Outcome) : Prop :=
  outcome.status = efiSuccess → ∃ stored, outcome.stored = some stored ∧
    Describes stored outcome.gopMode

def afterCalls (pool : Ledger) (calls : List Call) : Library :=
  stateAfter msEarlyGraphicsGetFrameBufferInfo (.start pool) calls

def CallsOk (pool : Ledger) (calls : List Call) : Prop :=
  ∀ before call, before ++ [call] <+: calls →
    (msEarlyGraphicsGetFrameBufferInfo (afterCalls pool before) call).1.Ok

/-- The call finds a GOP that has a mode, or that has one once the largest is set. -/
structure Call.Initialises (call : Call) : Prop where
  graphicsMode : call.graphicsMode = true
  modeAllocated : call.modeAllocated = true
  infoAllocated : call.infoAllocated = true
  located : efiError call.locateProtocol = false
  valid : call.gop.mode.mode ≠ invalidMode ∨
    (call.gop.setMode (largestMode call.gop).toUInt32).2.mode ≠ invalidMode

variable {pool : Ledger} {calls : List Call}

theorem storeMode_ok (status : EfiStatus) (setModes : List UInt32) (mode : GopMode)
    (l : Library) : (storeMode status setModes mode l).1.Ok :=
  fun _ => ⟨copyMode mode, rfl, rfl, rfl, rfl, rfl, rfl, rfl⟩

theorem storeMode_isInitialized {status : EfiStatus} {setModes : List UInt32} {mode : GopMode}
    (clear : l.isInitialized = false) :
    (storeMode status setModes mode l).2.isInitialized = true ↔ mode.mode ≠ invalidMode := by
  rw [storeMode]
  by_cases invalid : (copyMode mode).mode = invalidMode
  · rw [if_pos invalid, clear]
    exact iff_of_false Bool.false_ne_true (not_not_intro invalid)
  · rw [if_neg invalid]
    exact iff_of_true rfl invalid

theorem Outcome.ok_of_error {outcome : Outcome} (failed : efiError outcome.status = true) :
    outcome.Ok :=
  fun success => absurd success (ne_success_of_error failed)

/-- A call that does not get as far as the GOP fails, and leaves the flag clear. -/
theorem call_of_not_reaches (clear : l.isInitialized = false) (stops : ¬ call.Reaches l) :
    efiError (msEarlyGraphicsGetFrameBufferInfo l call).1.status = true ∧
      (msEarlyGraphicsGetFrameBufferInfo l call).2.isInitialized = false := by
  rw [msEarlyGraphicsGetFrameBufferInfo, clear]
  cases graphicsMode : call.graphicsMode with
  | false => exact ⟨efiError_encodeError _, clear⟩
  | true =>
  cases modeAllocated : call.modeAllocated with
  | false => exact ⟨efiError_encodeError _, rfl⟩
  | true =>
  cases infoAllocated : call.infoAllocated with
  | false => exact ⟨efiError_encodeError _, rfl⟩
  | true =>
  cases located : efiError call.locateProtocol with
  | true => exact ⟨located, rfl⟩
  | false => exact absurd ⟨graphicsMode, clear, modeAllocated, infoAllocated, located⟩ stops

theorem call_of_initialised (set : l.isInitialized = true) (call : Call) :
    (msEarlyGraphicsGetFrameBufferInfo l call).2 = l ∧
      ((msEarlyGraphicsGetFrameBufferInfo l call).1.Ok ↔ call.graphicsMode = false) := by
  rw [msEarlyGraphicsGetFrameBufferInfo, set]
  cases call.graphicsMode with
  | false => exact ⟨rfl, iff_of_true (Outcome.ok_of_error (efiError_encodeError _)) rfl⟩
  | true =>
      refine ⟨rfl, iff_of_false (fun ok => ?_) nofun⟩
      obtain ⟨stored, nothing, -⟩ := ok rfl
      cases nothing

theorem initialiseMode_spec (status : EfiStatus) (gop : Gop) (clear : l.isInitialized = false) :
    (initialiseMode status gop l).1.Ok ∧
      ((initialiseMode status gop l).2.isInitialized = true ↔ gop.mode.mode ≠ invalidMode ∨
        (gop.setMode (largestMode gop).toUInt32).2.mode ≠ invalidMode) := by
  by_cases invalid : gop.mode.mode = invalidMode
  · rw [initialiseMode_invalid status l invalid]
    refine ⟨storeMode_ok _ _ _ _, Iff.trans (storeMode_isInitialized ?_) ?_⟩
    · exact clear
    · exact (or_iff_right (not_not_intro invalid)).symm
  · rw [initialiseMode, if_pos invalid]
    refine ⟨storeMode_ok _ _ _ _, (storeMode_isInitialized clear).trans ?_⟩
    exact iff_of_true invalid (.inl invalid)

theorem call_of_clear (clear : l.isInitialized = false) (call : Call) :
    (msEarlyGraphicsGetFrameBufferInfo l call).1.Ok ∧
      ((msEarlyGraphicsGetFrameBufferInfo l call).2.isInitialized = true ↔ call.Initialises) := by
  by_cases reaches : call.Reaches l
  · rw [reaches.eq]
    obtain ⟨ok, set⟩ := @initialiseMode_spec { l with pool := l.pool.grant.grant }
      call.locateProtocol call.gop clear
    refine ⟨ok, set.trans ⟨fun valid => ?_, fun h => h.valid⟩⟩
    exact ⟨reaches.graphicsMode, reaches.modeAllocated, reaches.infoAllocated, reaches.located,
      valid⟩
  · obtain ⟨failed, still⟩ := call_of_not_reaches clear reaches
    refine ⟨Outcome.ok_of_error failed, ?_⟩
    rw [still]
    exact iff_of_false Bool.false_ne_true fun h =>
      reaches ⟨h.graphicsMode, clear, h.modeAllocated, h.infoAllocated, h.located⟩

theorem afterCalls_append (pool : Ledger) (calls : List Call) (call : Call) :
    afterCalls pool (calls ++ [call]) =
      (msEarlyGraphicsGetFrameBufferInfo (afterCalls pool calls) call).2 := by
  rw [afterCalls, stateAfter_append]
  rfl

theorem isInitialized_iff (pool : Ledger) (calls : List Call) :
    (afterCalls pool calls).isInitialized = true ↔ ∃ call ∈ calls, call.Initialises := by
  induction calls using List.reverseRecOn with
  | nil =>
      refine iff_of_false Bool.false_ne_true ?_
      rintro ⟨call, member, -⟩
      cases member
  | append_singleton calls call ih =>
      rw [afterCalls_append]
      simp only [List.mem_append, List.mem_singleton, or_and_right, exists_or, exists_eq_left]
      cases set : (afterCalls pool calls).isInitialized with
      | true =>
          rw [(call_of_initialised set call).1]
          exact iff_of_true set (.inl (ih.mp set))
      | false =>
          have none : ¬ ∃ call ∈ calls, call.Initialises := fun some =>
            absurd (set.symm.trans (ih.mpr some)) (by decide)
          exact (call_of_clear set call).2.trans (or_iff_right none).symm

/-- Every call stores what it should exactly when none with somewhere to store to comes after
one that initialises the library. -/
theorem callsOk_iff (pool : Ledger) (calls : List Call) :
    CallsOk pool calls ↔
      calls.Pairwise fun call call' => call.Initialises → call'.graphicsMode = false := by
  induction calls using List.reverseRecOn with
  | nil =>
      refine iff_of_true (fun before call pre => ?_) List.Pairwise.nil
      exact absurd (List.prefix_nil.mp pre) (List.append_ne_nil_of_right_ne_nil _ nofun)
  | append_singleton calls call ih =>
      have last : (msEarlyGraphicsGetFrameBufferInfo (afterCalls pool calls) call).1.Ok ↔
          ∀ call' ∈ calls, call'.Initialises → call.graphicsMode = false := by
        cases set : (afterCalls pool calls).isInitialized with
        | true =>
            obtain ⟨call', member, initialises⟩ := (isInitialized_iff pool calls).mp set
            rw [(call_of_initialised set call).2]
            exact ⟨fun none _ _ _ => none, fun h => h call' member initialises⟩
        | false =>
            refine iff_of_true (call_of_clear set call).1 fun call' member initialises => ?_
            have set' := (isInitialized_iff pool calls).mpr ⟨call', member, initialises⟩
            exact absurd (set.symm.trans set') (by decide)
      rw [List.pairwise_append, ← ih]
      simp only [List.mem_singleton, forall_eq, List.pairwise_singleton, true_and]
      rw [← last]
      constructor
      · intro ok
        exact ⟨fun before other pre => ok before other (pre.trans (List.prefix_append _ _)),
          ok calls call List.prefix_rfl⟩
      · rintro ⟨earlier, ok⟩ before other pre
        rcases List.prefix_concat_iff.mp pre with whole | within
        · obtain ⟨rfl, single⟩ := List.append_inj' whole rfl
          obtain rfl := List.singleton_inj.mp single
          exact ok
        · exact earlier before other within

def oneMode : Gop where
  mode := { zeroMode with maxMode := 1 }
  queryMode _ := (efiSuccess, zeroMode.info)
  setMode _ := (efiSuccess, { zeroMode with maxMode := 1 })

/-- The second of two calls succeeds without storing anything. -/
theorem secondCall_not_ok :
    ¬ CallsOk .empty
      [⟨true, true, true, efiSuccess, oneMode⟩, ⟨true, true, true, efiSuccess, oneMode⟩] := by
  intro ok
  obtain ⟨stored, nothing, -⟩ :=
    ok [⟨true, true, true, efiSuccess, oneMode⟩] ⟨true, true, true, efiSuccess, oneMode⟩
      List.prefix_rfl rfl
  cases nothing

end MuTegra.EarlyGraphics.FrameBufferInfo
