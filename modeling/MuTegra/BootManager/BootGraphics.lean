/- Unit: MuTegra/BootManager/BootGraphics
   source: NvidiaPkg/Library/BootGraphicsLib/BootGraphicsLib.c,
     NvidiaPkg/Library/BootGraphicsProviderLib/BootGraphicsProviderLib.c,
     NvidiaPkg/Library/DeviceBootManagerLib/DeviceBootManagerLib.c
   digest: Where boot graphics are drawn, and which of them colour the background first. -/

import MuTegra.Foundation.Ownership
import MuTegra.Foundation.Runs
import MuTegra.Uefi.Status

/-!
Positions are differences of unsigned words, which the code takes for signed ones. The cursor, the
state of the device that is drawn beside the graphic and the pixels are left out.
-/

set_option autoImplicit false
set_option relaxedAutoImplicit false

namespace MuTegra.BootManager.BootGraphics

open MuTegra.Foundation.Ownership MuTegra.Foundation.Runs
open MuTegra.Uefi.Status

/-! ## The functions -/

inductive BootGraphic where
  | systemLogo
  | criticalOverTemp
  | criticalLowBattery
  | noBootOs
  | other
  deriving DecidableEq

def BootGraphic.isBootGraphic : BootGraphic → Bool
  | .systemLogo | .criticalOverTemp | .criticalLowBattery => true
  | _ => false

def BootGraphic.isPostBootGraphic : BootGraphic → Bool
  | .noBootOs => true
  | _ => false

/-- What the calls of a function come to; `sizeOfX` and `sizeOfY` are the resolution, `width` and
`height` the size of the picture. -/
structure GraphicCalls where
  handleProtocol : EfiStatus := efiSuccess
  locateProtocol : EfiStatus := efiSuccess
  locateBootLogo2 : EfiStatus := efiSuccess
  sizeOfX : BitVec 32
  sizeOfY : BitVec 32
  pcdSet : Bool := true
  sectionFromAnyFv : EfiStatus := efiSuccess
  translateBmp : EfiStatus := efiSuccess
  width : BitVec 32
  height : BitVec 32
  blt : EfiStatus := efiSuccess

structure Place where
  x : BitVec 32
  y : BitVec 32
  width : BitVec 32
  height : BitVec 32

/-- What is done to the screen, the boot logo that is registered, and the signal. -/
inductive Event where
  | background (sizeOfX sizeOfY : BitVec 32)
  | image (place : Place) (status : EfiStatus)
  | bootLogo (place : Place)
  | logoDisplayed

structure State where
  skipCount : UInt8
  pool : Ledger

abbrev Drawn := (EfiStatus × List Event) × State

def GraphicCalls.gopFound (calls : GraphicCalls) : Bool :=
  !efiError calls.handleProtocol || !efiError calls.locateProtocol

/-- The coloring of the background, which is skipped as long as the counter is not zero. -/
def colorBackground (calls : GraphicCalls) (s : State) : List Event × State :=
  if s.skipCount = 0 then ([.background calls.sizeOfX calls.sizeOfY], s)
  else if calls.pcdSet then ([], { s with skipCount := s.skipCount - 1 })
  else ([], s)

/-- The graphic at its destination, which has to be no negative `INTN`. -/
def bltToScreen (graphic : BootGraphic) (calls : GraphicCalls) (destX destY : BitVec 32) :
    EfiStatus × List Event :=
  let place : Place := ⟨destX, destY, calls.width, calls.height⟩
  if destX.msb || destY.msb then (calls.translateBmp, [])
  else if efiError calls.blt then (calls.blt, [.image place calls.blt])
  else
    (efiSuccess, .image place calls.blt ::
      (if graphic = .systemLogo ∧ efiError calls.locateBootLogo2 = false then [.bootLogo place]
        else []) ++ [.logoDisplayed])

/-- The picture from the file and as pixels, which are freed at `CleanUp`. -/
def withPicture (supported : Bool) (calls : GraphicCalls) (draw : EfiStatus × List Event)
    (s : State) : Drawn :=
  if supported = false then ((efiUnsupported, []), s)
  else if efiError calls.sectionFromAnyFv then ((calls.sectionFromAnyFv, []), s)
  else
    let imageData := s.pool.next
    let pool := s.pool.grant
    if efiError calls.translateBmp then
      ((calls.translateBmp, []), { s with pool := pool.release (some imageData) })
    else
      let blt := pool.next
      (draw, { s with pool := (pool.grant.release (some blt)).release (some imageData) })

def GraphicCalls.oversized (calls : GraphicCalls) : Bool :=
  decide (calls.sizeOfX * 40 / 100 < calls.width ∨ calls.sizeOfY * 40 / 100 < calls.height)

/-- A boot graphic of the right size goes to the middle of the screen. -/
def drawCentered (graphic : BootGraphic) (calls : GraphicCalls) : EfiStatus × List Event :=
  if graphic = .systemLogo ∧ calls.oversized = true then (efiInvalidParameter, [])
  else
    bltToScreen graphic calls ((calls.sizeOfX - calls.width) / 2)
      ((calls.sizeOfY - calls.height) / 2)

def displayBootGraphic (graphic : BootGraphic) (calls : GraphicCalls) (s : State) : Drawn :=
  if calls.gopFound = false then ((calls.locateProtocol, []), s)
  else
    let colored := colorBackground calls s
    let drawn := withPicture graphic.isBootGraphic calls (drawCentered graphic calls) colored.2
    ((drawn.1.1, colored.1 ++ drawn.1.2), drawn.2)

def displayPostBootGraphic (graphic : BootGraphic) (destX destY : BitVec 32)
    (calls : GraphicCalls) (s : State) : Drawn :=
  if calls.gopFound = false then ((calls.locateProtocol, []), s)
  else
    withPicture graphic.isPostBootGraphic calls (bltToScreen graphic calls destX destY) s

inductive Request where
  | boot (graphic : BootGraphic) (calls : GraphicCalls)
  | postBoot (graphic : BootGraphic) (destX destY : BitVec 32) (calls : GraphicCalls)

def display (s : State) : Request → Drawn
  | .boot graphic calls => displayBootGraphic graphic calls s
  | .postBoot graphic destX destY calls => displayPostBootGraphic graphic destX destY calls s

def noBootOsRequest (calls : GraphicCalls) : Request :=
  .postBoot .noBootOs ((calls.sizeOfX - 334) / 2) 20 calls

/-- `DeviceBootManagerUnableToBoot` up to its dead loop; without a graphics output protocol of its
own it reads the resolution through a pointer that was not set. -/
def deviceBootManagerUnableToBoot (gopFound : Bool) (calls : GraphicCalls) (s : State) :
    Option Drawn :=
  if gopFound then some (display s (noBootOsRequest calls)) else none

/-! ## Places -/

def Place.Inside (place : Place) (calls : GraphicCalls) : Prop :=
  place.x.toNat + place.width.toNat ≤ calls.sizeOfX.toNat ∧
    place.y.toNat + place.height.toNat ≤ calls.sizeOfY.toNat

/-- The rectangle is as far from the left and the top as from the right and the bottom. -/
def Place.Centered (place : Place) (calls : GraphicCalls) : Prop :=
  place.x.toNat = (calls.sizeOfX.toNat - place.width.toNat) / 2 ∧
    place.y.toNat = (calls.sizeOfY.toNat - place.height.toNat) / 2

def GraphicCalls.fits (calls : GraphicCalls) : Prop :=
  calls.width ≤ calls.sizeOfX ∧ calls.height ≤ calls.sizeOfY

def GraphicCalls.middle (calls : GraphicCalls) : Place where
  x := (calls.sizeOfX - calls.width) / 2
  y := (calls.sizeOfY - calls.height) / 2
  width := calls.width
  height := calls.height

variable (size extent : BitVec 32)

theorem half_toNat :
    ((size - extent) / 2).toNat = (4294967296 - extent.toNat + size.toNat) % 4294967296 / 2 := by
  rw [BitVec.toNat_udiv, BitVec.toNat_sub]
  rfl

theorem half_nonneg : ((size - extent) / 2).msb = false := by
  rw [BitVec.msb_eq_false_iff_two_mul_lt, half_toNat]
  omega

theorem half_inside :
    ((size - extent) / 2).toNat + extent.toNat ≤ size.toNat ↔ extent ≤ size := by
  have small := extent.isLt
  have bound := size.isLt
  rw [BitVec.le_def, half_toNat]
  omega

theorem half_centered (h : extent ≤ size) :
    ((size - extent) / 2).toNat = (size.toNat - extent.toNat) / 2 := by
  have bound := size.isLt
  rw [BitVec.le_def] at h
  rw [half_toNat]
  omega

theorem le_of_not_oversized (h : ¬ size * 40 / 100 < extent) : extent ≤ size := by
  have percent : (size * 40 / 100).toNat = size.toNat * 40 % 4294967296 / 100 := by
    rw [BitVec.toNat_udiv, BitVec.toNat_mul]
    rfl
  have less : size.toNat * 40 % 4294967296 ≤ size.toNat * 40 := Nat.mod_le _ _
  rw [BitVec.lt_def, percent] at h
  rw [BitVec.le_def]
  generalize size.toNat * 40 % 4294967296 = product at h less
  omega

/-! ## Single drawings -/

def GraphicCalls.registers (graphic : BootGraphic) (calls : GraphicCalls) : Prop :=
  graphic = .systemLogo ∧ efiError calls.locateBootLogo2 = false

instance (graphic : BootGraphic) (calls : GraphicCalls) : Decidable (calls.registers graphic) :=
  inferInstanceAs (Decidable (_ ∧ _))

/-- What comes of a graphic at a place: nothing and an error where it is not to be drawn, and else an
error of `Blt` or the picture, with the boot logo where it is one. -/
inductive Draws (graphic : BootGraphic) (calls : GraphicCalls) (place : Place) :
    Bool → EfiStatus × List Event → Prop where
  | nothing {status : EfiStatus} (failed : efiError status = true) :
      Draws graphic calls place false (status, [])
  | refused (failed : efiError calls.blt = true) :
      Draws graphic calls place true (calls.blt, [.image place calls.blt])
  | shown (ok : efiError calls.blt = false) :
      Draws graphic calls place true
        (efiSuccess, .image place calls.blt ::
          (if calls.registers graphic then [.bootLogo place] else []) ++ [.logoDisplayed])

section Drawings

variable {graphic : BootGraphic} {calls : GraphicCalls} {destX destY : BitVec 32}

theorem bltToScreen_draws (x : destX.msb = false) (y : destY.msb = false) :
    Draws graphic calls ⟨destX, destY, calls.width, calls.height⟩ true
      (bltToScreen graphic calls destX destY) := by
  rw [bltToScreen, x, y, if_neg (by decide)]
  split
  · next failed => exact .refused failed
  · next ok => exact .shown (Bool.eq_false_of_not_eq_true ok)

def GraphicCalls.accepts (graphic : BootGraphic) (calls : GraphicCalls) : Bool :=
  !(decide (graphic = .systemLogo) && calls.oversized)

/-- A boot graphic is put into the middle, a system logo only if it is not too large. -/
theorem drawCentered_draws :
    Draws graphic calls calls.middle (calls.accepts graphic) (drawCentered graphic calls) := by
  rw [drawCentered, GraphicCalls.accepts]
  split
  · next large =>
      rw [large.1, large.2]
      exact .nothing (efiError_encodeError _)
  · next right =>
      have accepted : (!(decide (graphic = .systemLogo) && calls.oversized)) = true := by
        rwa [Bool.not_eq_true', Bool.and_eq_false_iff, decide_eq_false_iff_not,
          ← Bool.not_eq_true, ← not_and_or]
      rw [accepted]
      exact bltToScreen_draws (half_nonneg _ _) (half_nonneg _ _)

theorem fits_of_accepts (logo : graphic = .systemLogo) (accepted : calls.accepts graphic = true) :
    calls.fits := by
  have small : ¬ calls.oversized = true := by
    intro large
    rw [GraphicCalls.accepts, logo, large] at accepted
    cases accepted
  rw [GraphicCalls.oversized, decide_eq_true_eq, not_or] at small
  exact ⟨le_of_not_oversized _ _ small.1, le_of_not_oversized _ _ small.2⟩

def GraphicCalls.loaded (supported : Bool) (calls : GraphicCalls) : Bool :=
  supported && !efiError calls.sectionFromAnyFv && !efiError calls.translateBmp

theorem withPicture_loaded {supported : Bool} {draw : EfiStatus × List Event} {s : State}
    (h : calls.loaded supported = true) : (withPicture supported calls draw s).1 = draw := by
  simp only [GraphicCalls.loaded, Bool.and_eq_true, Bool.not_eq_true'] at h
  obtain ⟨⟨file, section'⟩, translated⟩ := h
  rw [withPicture, if_neg (by simp [file]), if_neg (by simp [section'])]
  dsimp only
  rw [if_neg (by simp [translated])]

theorem withPicture_unloaded {supported : Bool} {draw : EfiStatus × List Event} {s : State}
    (h : calls.loaded supported = false) :
    efiError (withPicture supported calls draw s).1.1 = true ∧
      (withPicture supported calls draw s).1.2 = [] := by
  rw [withPicture]
  split
  · exact ⟨efiError_encodeError _, rfl⟩
  · next file =>
      split
      · next failed => exact ⟨failed, rfl⟩
      · next found =>
          dsimp only
          split
          · next failed => exact ⟨failed, rfl⟩
          · next translated => simp_all [GraphicCalls.loaded]

theorem withPicture_draws {place : Place} {drawn : Bool} {draw : EfiStatus × List Event}
    (h : Draws graphic calls place drawn draw) (supported : Bool) (s : State) :
    Draws graphic calls place (calls.loaded supported && drawn)
      (withPicture supported calls draw s).1 := by
  cases loaded : calls.loaded supported with
  | true => rwa [withPicture_loaded loaded]
  | false =>
      obtain ⟨failed, none⟩ := @withPicture_unloaded calls supported draw s loaded
      rw [← Prod.mk.eta (p := (withPicture supported calls draw s).1), none]
      exact .nothing failed

theorem withPicture_state (supported : Bool) (draw : EfiStatus × List Event) (s : State) :
    (withPicture supported calls draw s).2.skipCount = s.skipCount ∧
      Owns s.pool 0 (withPicture supported calls draw s).2.pool := by
  rw [withPicture]
  split
  · exact ⟨rfl, .refl _⟩
  · split
    · exact ⟨rfl, .refl _⟩
    · dsimp only
      split
      · exact ⟨rfl, (Owns.refl s.pool).grant.release⟩
      · exact ⟨rfl, (Owns.refl s.pool).grant.grant.release.release⟩

section

variable {place spot : Place} {drawn : Bool} {out : EfiStatus × List Event}

theorem Draws.displayed_iff (h : Draws graphic calls place drawn out) :
    .logoDisplayed ∈ out.2 ↔ drawn = true ∧ efiError calls.blt = false := by
  cases h with
  | nothing failed => simp
  | refused failed => simp [failed]
  | shown ok => simp [ok]

theorem Draws.success_iff (h : Draws graphic calls place drawn out) :
    efiError out.1 = false ↔ drawn = true ∧ efiError calls.blt = false := by
  cases h with
  | nothing failed => simp [failed]
  | refused failed => simp [failed]
  | shown ok => simp [ok]

theorem Draws.image_iff (h : Draws graphic calls place drawn out) {status : EfiStatus} :
    .image spot status ∈ out.2 ↔ drawn = true ∧ spot = place ∧ status = calls.blt := by
  cases h with
  | nothing failed => simp
  | refused failed => simp
  | shown ok =>
      by_cases logo : calls.registers graphic <;> simp [logo]

theorem Draws.bootLogo_iff (h : Draws graphic calls place drawn out) :
    .bootLogo spot ∈ out.2 ↔
      drawn = true ∧ efiError calls.blt = false ∧ calls.registers graphic ∧ spot = place := by
  cases h with
  | nothing failed => simp
  | refused failed => simp [failed]
  | shown ok =>
      by_cases logo : calls.registers graphic <;> simp [logo, ok]

theorem Draws.not_background (h : Draws graphic calls place drawn out) {x y : BitVec 32} :
    .background x y ∉ out.2 := by
  cases h with
  | nothing failed => simp
  | refused failed => simp
  | shown ok =>
      by_cases logo : calls.registers graphic <;> simp [logo]

end

end Drawings

/-! ## Runs -/

namespace Request

def calls : Request → GraphicCalls
  | .boot _ calls | .postBoot _ _ _ calls => calls

def bootGraphic : Request → Option BootGraphic
  | .boot graphic _ => some graphic
  | .postBoot .. => none

def colors (r : Request) : Bool := r.bootGraphic.isSome && r.calls.gopFound

def counts (r : Request) : Bool := r.colors && r.calls.pcdSet

def place : Request → Place
  | .boot _ calls => calls.middle
  | .postBoot _ destX destY calls => ⟨destX, destY, calls.width, calls.height⟩

def graphic : Request → BootGraphic
  | .boot graphic _ | .postBoot graphic _ _ _ => graphic

/-- The picture gets as far as `Blt`. -/
def drawn : Request → Bool
  | .boot graphic calls =>
      calls.gopFound && (calls.loaded graphic.isBootGraphic && calls.accepts graphic)
  | .postBoot graphic destX destY calls =>
      calls.gopFound && (calls.loaded graphic.isPostBootGraphic && !(destX.msb || destY.msb))

def displayed (r : Request) : Bool := r.drawn && !efiError r.calls.blt

def misplaced : Request → Bool
  | .boot .. => false
  | .postBoot graphic destX destY calls =>
      calls.gopFound && calls.loaded graphic.isPostBootGraphic && (destX.msb || destY.msb)

end Request

/-- What a request draws after some others, with the counter of skipped colorings as it was before
all of them. -/
structure DrawsAsDue (skipCount : ℕ) (before : List Request) (r : Request)
    (answer : EfiStatus × List Event) : Prop where
  background : (∃ x y, .background x y ∈ answer.2) ↔
    r.colors = true ∧ skipCount ≤ before.countP Request.counts
  success : efiError answer.1 = false ↔ r.displayed = true ∨ r.misplaced = true
  signal : .logoDisplayed ∈ answer.2 ↔ r.displayed = true
  image : ∀ place status, .image place status ∈ answer.2 ↔
    r.drawn = true ∧ place = r.place ∧ status = r.calls.blt
  bootLogo : ∀ place, .bootLogo place ∈ answer.2 ↔
    r.displayed = true ∧ r.calls.registers r.graphic ∧ place = r.place
  middle : r.bootGraphic.isSome = true →
    (r.place.Inside r.calls ↔ r.calls.fits) ∧ (r.calls.fits → r.place.Centered r.calls)
  inside : ∀ place, .bootLogo place ∈ answer.2 →
    place.Inside r.calls ∧ place.Centered r.calls

variable {s : State}

/-- A boot graphic is on the screen exactly when it is no larger, and then in the middle. -/
theorem place_of_boot {r : Request} (boot : r.bootGraphic.isSome = true) :
    (r.place.Inside r.calls ↔ r.calls.fits) ∧ (r.calls.fits → r.place.Centered r.calls) := by
  cases r with
  | boot graphic calls =>
      constructor
      · exact and_congr (half_inside _ _) (half_inside _ _)
      · exact fun fits => ⟨half_centered _ _ fits.1, half_centered _ _ fits.2⟩
  | postBoot graphic destX destY calls => cases boot

theorem colorBackground_state (calls : GraphicCalls) :
    (colorBackground calls s).2.skipCount.toNat = s.skipCount.toNat - calls.pcdSet.toNat ∧
      (colorBackground calls s).2.pool = s.pool := by
  rw [colorBackground]
  split
  · next zero =>
      refine ⟨?_, rfl⟩
      rw [zero]
      exact (Nat.zero_sub _).symm
  · next left =>
      have one : (1 : UInt8) ≤ s.skipCount := by
        rw [UInt8.le_iff_toNat_le]
        exact Nat.one_le_iff_ne_zero.mpr fun zero => left (UInt8.toNat_inj.mp zero)
      cases calls.pcdSet with
      | false => exact ⟨rfl, rfl⟩
      | true => exact ⟨UInt8.toNat_sub_of_le _ _ one, rfl⟩

theorem colorBackground_events (calls : GraphicCalls) :
    (colorBackground calls s).1 =
      if s.skipCount = 0 then [.background calls.sizeOfX calls.sizeOfY] else [] := by
  rw [colorBackground]
  split
  · rfl
  · split <;> rfl

theorem display_state (r : Request) :
    (display s r).2.skipCount.toNat = s.skipCount.toNat - r.counts.toNat ∧
      Owns s.pool 0 (display s r).2.pool := by
  cases r with
  | boot graphic calls =>
      have colored := @colorBackground_state s calls
      have drawn := @withPicture_state calls graphic.isBootGraphic (drawCentered graphic calls)
        (colorBackground calls s).2
      rw [display, displayBootGraphic, Request.counts, Request.colors, Request.calls]
      cases calls.gopFound with
      | false => exact ⟨rfl, .refl _⟩
      | true => exact ⟨(congrArg UInt8.toNat drawn.1).trans colored.1, colored.2 ▸ drawn.2⟩
  | postBoot graphic destX destY calls =>
      have drawn := @withPicture_state calls graphic.isPostBootGraphic
        (bltToScreen graphic calls destX destY) s
      rw [display, displayPostBootGraphic]
      cases calls.gopFound with
      | false => exact ⟨rfl, .refl _⟩
      | true => exact ⟨congrArg UInt8.toNat drawn.1, drawn.2⟩

theorem stateAfter_state (requests : List Request) :
    (stateAfter display s requests).skipCount.toNat =
        s.skipCount.toNat - requests.countP Request.counts ∧
      Owns s.pool 0 (stateAfter display s requests).pool := by
  induction requests generalizing s with
  | nil => exact ⟨rfl, .refl _⟩
  | cons r requests ih =>
      have first := @display_state s r
      have rest := @ih (display s r).2
      constructor
      · rw [stateAfter, rest.1, first.1, List.countP_cons, Nat.sub_sub, Nat.add_comm]
        cases r.counts <;> rfl
      · constructor
        · exact rest.2.clean.trans first.2.clean
        · rw [stateAfter, rest.2.live, first.2.live]
          simp

theorem colored_iff {skipCount : ℕ} {before : List Request} (calls : GraphicCalls)
    (h : s.skipCount.toNat = skipCount - before.countP Request.counts) :
    (∃ x y, Event.background x y ∈ (colorBackground calls s).1) ↔
      skipCount ≤ before.countP Request.counts := by
  rw [colorBackground_events]
  split
  · next zero =>
      rw [zero] at h
      exact iff_of_true ⟨_, _, List.mem_singleton_self _⟩ (Nat.sub_eq_zero_iff_le.mp h.symm)
  · next left =>
      refine iff_of_false (fun ⟨_, _, colored⟩ => by cases colored) fun reached => left ?_
      exact UInt8.toNat_inj.mp (h.trans (Nat.sub_eq_zero_iff_le.mpr reached))

/-- What is drawn at the place of a request, behind the background. -/
theorem Draws.due {skipCount : ℕ} {before : List Request} {r : Request}
    {out : EfiStatus × List Event} {front : List Event}
    (h : Draws r.graphic r.calls r.place r.drawn out)
    (colored : ∀ event ∈ front, ∃ x y, event = .background x y)
    (background : (∃ x y, .background x y ∈ front) ↔
      r.colors = true ∧ skipCount ≤ before.countP Request.counts)
    (placed : r.misplaced = false)
    (logo : r.graphic = .systemLogo → r.drawn = true →
      r.bootGraphic.isSome = true ∧ r.calls.fits) :
    DrawsAsDue skipCount before r (out.1, front ++ out.2) := by
  have behind : ∀ {event : Event}, (∀ x y, event ≠ .background x y) →
      (event ∈ front ++ out.2 ↔ event ∈ out.2) := by
    intro event other
    rw [List.mem_append]
    refine or_iff_right fun mem => ?_
    obtain ⟨x, y, rfl⟩ := colored event mem
    exact other x y rfl
  have displayed : r.displayed = true ↔ r.drawn = true ∧ efiError r.calls.blt = false := by
    rw [Request.displayed, Bool.and_eq_true, Bool.not_eq_true']
  have bootLogo : ∀ place, .bootLogo place ∈ front ++ out.2 ↔
      r.displayed = true ∧ r.calls.registers r.graphic ∧ place = r.place := by
    intro place
    rw [behind (fun _ _ same => by cases same), h.bootLogo_iff, displayed, and_assoc]
  constructor
  · rw [← background]
    constructor
    · rintro ⟨x, y, mem⟩
      rcases List.mem_append.mp mem with mem | drawn
      · exact ⟨x, y, mem⟩
      · exact absurd drawn h.not_background
    · rintro ⟨x, y, mem⟩
      exact ⟨x, y, List.mem_append_left _ mem⟩
  · rw [placed, or_iff_left Bool.false_ne_true, displayed]
    exact h.success_iff
  · rw [behind (fun _ _ same => by cases same), displayed]
    exact h.displayed_iff
  · intro place status
    rw [behind (fun _ _ same => by cases same)]
    exact h.image_iff
  · exact bootLogo
  · exact place_of_boot
  · intro place drawn
    obtain ⟨shown, registered, rfl⟩ := (bootLogo place).mp drawn
    obtain ⟨boot, fits⟩ := logo registered.1 (displayed.mp shown).1
    exact ⟨(place_of_boot boot).1.mpr fits, (place_of_boot boot).2 fits⟩

theorem displayBootGraphic_due {skipCount : ℕ} {before : List Request} (graphic : BootGraphic)
    (calls : GraphicCalls) (h : s.skipCount.toNat = skipCount - before.countP Request.counts) :
    DrawsAsDue skipCount before (.boot graphic calls) (displayBootGraphic graphic calls s).1 := by
  let r : Request := .boot graphic calls
  rw [displayBootGraphic]
  cases found : calls.gopFound with
  | false =>
      have failed : efiError calls.locateProtocol = true := by
        simp only [GraphicCalls.gopFound, Bool.or_eq_false_iff, Bool.not_eq_false'] at found
        exact found.2
      have uncolored : r.colors = false := found
      have undrawn : r.drawn = false := by rw [Request.drawn, found, Bool.false_and]
      have nothing : Draws graphic calls r.place r.drawn (calls.locateProtocol, []) := by
        rw [undrawn]
        exact .nothing failed
      refine @Draws.due _ _ r _ [] nothing nofun ?_ rfl fun _ drawn => ?_
      · rw [uncolored]
        exact iff_of_false (fun ⟨_, _, mem⟩ => List.not_mem_nil mem) fun due => nomatch due.1
      · rw [undrawn] at drawn
        cases drawn
  | true =>
      have colors : r.colors = true := found
      have drawn : r.drawn =
          (calls.loaded graphic.isBootGraphic && calls.accepts graphic) := by
        rw [Request.drawn, found, Bool.true_and]
      have draws := withPicture_draws (@drawCentered_draws graphic calls) graphic.isBootGraphic
        (colorBackground calls s).2
      rw [← drawn] at draws
      refine @Draws.due _ _ r _ _ draws ?_ ?_ rfl ?_
      · intro event mem
        rw [colorBackground_events] at mem
        split at mem
        · exact ⟨_, _, List.mem_singleton.mp mem⟩
        · cases mem
      · rw [colors]
        exact (colored_iff calls h).trans (and_iff_right rfl).symm
      · intro logo shown
        rw [drawn, Bool.and_eq_true] at shown
        exact ⟨rfl, fits_of_accepts logo shown.2⟩

theorem displayPostBootGraphic_due (skipCount : ℕ) (before : List Request) (graphic : BootGraphic)
    (destX destY : BitVec 32) (calls : GraphicCalls) :
    DrawsAsDue skipCount before (.postBoot graphic destX destY calls)
      (displayPostBootGraphic graphic destX destY calls s).1 := by
  let r : Request := .postBoot graphic destX destY calls
  have uncolored : (∃ x y, Event.background x y ∈ []) ↔
      r.colors = true ∧ skipCount ≤ before.countP Request.counts :=
    iff_of_false (fun ⟨_, _, mem⟩ => List.not_mem_nil mem) fun due => nomatch due.1
  -- no graphic has both a boot and a post-boot file, so a system logo is never drawn here
  have unregistered : r.graphic = .systemLogo → r.drawn = true →
      r.bootGraphic.isSome = true ∧ r.calls.fits := by
    rintro rfl shown
    have unsupported : BootGraphic.systemLogo.isPostBootGraphic = false := rfl
    rw [Request.drawn, GraphicCalls.loaded, unsupported, Bool.false_and, Bool.false_and,
      Bool.false_and, Bool.and_false] at shown
    cases shown
  have due : ∀ {out : EfiStatus × List Event}, Draws graphic calls r.place r.drawn out →
      r.misplaced = false → DrawsAsDue skipCount before r out :=
    fun draws placed => @Draws.due _ _ r _ [] draws nofun uncolored placed unregistered
  rw [displayPostBootGraphic]
  cases found : calls.gopFound with
  | false =>
      have failed : efiError calls.locateProtocol = true := by
        simp only [GraphicCalls.gopFound, Bool.or_eq_false_iff, Bool.not_eq_false'] at found
        exact found.2
      refine due ?_ (by rw [Request.misplaced, found]; rfl)
      rw [Request.drawn, found, Bool.false_and]
      exact .nothing failed
  | true =>
      rw [if_neg Bool.true_eq_false.mp]
      cases negative : destX.msb || destY.msb with
      | false =>
          have placed : r.misplaced = false := by
            rw [Request.misplaced, negative, Bool.and_false]
          refine due ?_ placed
          rw [Request.drawn, found, negative, Bool.true_and]
          rw [Bool.or_eq_false_iff] at negative
          exact withPicture_draws (bltToScreen_draws negative.1 negative.2) _ _
      | true =>
          have undrawn : r.drawn = false := by
            rw [Request.drawn, negative, Bool.not_true, Bool.and_false, Bool.and_false]
          cases loaded : calls.loaded graphic.isPostBootGraphic with
          | false =>
              obtain ⟨failed, none⟩ := @withPicture_unloaded calls graphic.isPostBootGraphic
                (bltToScreen graphic calls destX destY) s loaded
              refine due ?_ (by rw [Request.misplaced, found, loaded]; rfl)
              rw [← Prod.mk.eta (p := (withPicture _ calls _ s).1), none, undrawn]
              exact .nothing failed
          | true =>
              -- nothing is drawn, under the status of the picture
              have placed : r.misplaced = true := by
                rw [Request.misplaced, found, loaded, negative]
                rfl
              have translated : efiError calls.translateBmp = false := by
                simp only [GraphicCalls.loaded, Bool.and_eq_true, Bool.not_eq_true'] at loaded
                exact loaded.2
              have undisplayed : r.displayed = false := by
                rw [Request.displayed, undrawn, Bool.false_and]
              rw [withPicture_loaded loaded, bltToScreen, if_pos negative]
              refine ⟨uncolored, iff_of_true translated (.inr placed), ?_, fun _ _ => ?_,
                fun _ => ?_, place_of_boot, nofun⟩
              · exact iff_of_false List.not_mem_nil (by rw [undisplayed]; decide)
              · exact iff_of_false List.not_mem_nil fun shown => by
                  rw [undrawn] at shown
                  exact Bool.false_ne_true shown.1
              · exact iff_of_false List.not_mem_nil fun shown => by
                  rw [undisplayed] at shown
                  exact Bool.false_ne_true shown.1

/-- When no system can be booted the picture is drawn as due; on a screen narrower than its supposed
width it lies beyond the screen. -/
theorem deviceBootManagerUnableToBoot_drawn (start : State) (before : List Request)
    (calls : GraphicCalls) :
    ∀ drawn ∈ deviceBootManagerUnableToBoot true calls (stateAfter display start before),
      DrawsAsDue start.skipCount.toNat before (noBootOsRequest calls) drawn.1 ∧
        (noBootOsRequest calls).misplaced = false ∧
        ((noBootOsRequest calls).place.Inside calls → 334 ≤ calls.sizeOfX) := by
  rintro drawn ⟨⟩
  refine ⟨displayPostBootGraphic_due _ before .noBootOs _ _ calls, ?_, fun inside => ?_⟩
  · rw [noBootOsRequest, Request.misplaced, half_nonneg]
    exact Bool.and_false _
  · have beyond : ((calls.sizeOfX - 334) / 2).toNat ≤ calls.sizeOfX.toNat :=
      (Nat.le_add_right _ _).trans inside.1
    have bound := calls.sizeOfX.isLt
    have width : (334 : BitVec 32).toNat = 334 := rfl
    rw [half_toNat, width] at beyond
    rw [BitVec.le_def, width]
    omega

end MuTegra.BootManager.BootGraphics
