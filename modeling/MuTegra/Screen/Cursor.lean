/- Unit: MuTegra/Screen/Cursor
   source: NvidiaPkg/Library/FrameBufferSerialPortLib/FrameBufferSerialPortLib.c
   digest: The console's cursor stays on the screen and its pixels in the frame buffer. -/

import MuTegra.Screen.Glyph

set_option autoImplicit false
set_option relaxedAutoImplicit false

namespace MuTegra.Screen.Cursor

open MuTegra.Foundation.Loops
open MuTegra.Foundation.MachineWords
open MuTegra.Foundation.Plotting
open MuTegra.Screen.Framebuffer
open MuTegra.Screen.Glyph

def frameBytes (g : Geometry) : ℕ := g.gWidth * g.gHeight * g.gBpp / 8

def InFrame (g : Geometry) (a : ℕ) : Prop :=
  ∃ off < frameBytes g, a = toUint32 (g.displayAddress + off)

def OnCell (g : Geometry) (a : ℕ) : Prop := ∃ i < 8, a = toUint32 (positionCell g + i)

structure Fits (g : Geometry) (scale : ℕ) : Prop where
  scale_pos : 1 ≤ scale
  whole_bytes : 8 ∣ g.gBpp
  columns : scale ≤ g.gWidth / 6
  lines : 2 * scale < (g.gHeight - 1) / 12

/-- The console as it is set up: limits computed, cursor at the origin, nothing plotted. -/
structure AtOrigin (g : Geometry) (c : Console) : Prop where
  maxX : c.maxX = (fbConReset g c).maxX
  maxY : c.maxY = (fbConReset g c).maxY
  x : c.x g = 0
  y : c.y g = 0
  stores : c.canvas.stores = []

/-- The cursor is on the screen; what was plotted is in the frame buffer and off the cursor. -/
structure Sound (g : Geometry) (scale : ℕ) (c : Console) : Prop where
  x_nonneg : 0 ≤ intn (c.x g)
  x_lt : intn (c.x g) < (g.gWidth / 6 / scale : ℕ)
  y_nonneg : 0 ≤ intn (c.y g)
  y_lt : intn (c.y g) < ((g.gHeight - 1) / 12 - scale : ℕ)
  inFrame : ∀ a ∈ c.canvas.stores, InFrame g a
  offCell : ∀ a ∈ c.canvas.stores, ¬ OnCell g a

/-- Whatever is sent, every call returns, without a fault, and leaves the console sound. -/
def KeepsToScreen (g : Geometry) (scale : ℕ) : Prop :=
  ∀ c, AtOrigin g c → ∀ calls, ∃ enough, ∀ fuel ≥ enough,
    ∃ c', putChars g scale fuel calls c = some c' ∧ Sound g scale c'

def blankConsole (g : Geometry) : Console :=
  fbConReset g ⟨⟨fun _ => 0, []⟩, 0, 0, 0, 0, false⟩

theorem blankConsole_atOrigin (g : Geometry) : AtOrigin g (blankConsole g) :=
  ⟨rfl, rfl, rfl, rfl, rfl⟩

variable (g : Geometry) (c : Console) (v : ℕ) (intstate : Bool)

@[simp] theorem x_setX : (c.setX g v).x g = toUint32 v := loadWord_storeWord_self

@[simp] theorem y_setY : (c.setY g v).y g = toUint32 v := loadWord_storeWord_self

@[simp] theorem y_setX : (c.setX g v).y g = c.y g := by
  apply loadWord_storeWord_other
  intro i hi j hj
  unfold toUint32
  omega

@[simp] theorem x_setY : (c.setY g v).x g = c.x g := by
  apply loadWord_storeWord_other
  intro i hi j hj
  unfold toUint32
  omega

@[simp] theorem restoreInterrupts_canvas :
    (restoreInterrupts intstate c).canvas = c.canvas := by
  cases intstate <;> rfl

@[simp] theorem restoreInterrupts_maxX : (restoreInterrupts intstate c).maxX = c.maxX := by
  cases intstate <;> rfl

@[simp] theorem restoreInterrupts_maxY : (restoreInterrupts intstate c).maxY = c.maxY := by
  cases intstate <;> rfl

@[simp] theorem restoreInterrupts_x : (restoreInterrupts intstate c).x g = c.x g := by
  cases intstate <;> rfl

@[simp] theorem restoreInterrupts_y : (restoreInterrupts intstate c).y g = c.y g := by
  cases intstate <;> rfl

@[simp] theorem disableInterrupts_canvas :
    (disableInterrupts intstate c).canvas = c.canvas := by
  cases intstate <;> rfl

@[simp] theorem disableInterrupts_maxX : (disableInterrupts intstate c).maxX = c.maxX := by
  cases intstate <;> rfl

@[simp] theorem disableInterrupts_maxY : (disableInterrupts intstate c).maxY = c.maxY := by
  cases intstate <;> rfl

@[simp] theorem disableInterrupts_foreground :
    (disableInterrupts intstate c).foreground = c.foreground := by
  cases intstate <;> rfl

@[simp] theorem disableInterrupts_background :
    (disableInterrupts intstate c).background = c.background := by
  cases intstate <;> rfl

@[simp] theorem disableInterrupts_x : (disableInterrupts intstate c).x g = c.x g := by
  cases intstate <;> rfl

@[simp] theorem disableInterrupts_y : (disableInterrupts intstate c).y g = c.y g := by
  cases intstate <;> rfl

theorem intn_of_lt {w : ℕ} (h : w < 2147483648) : intn w = w := if_pos h

section Layout

variable {g : Geometry} {scale x y a : ℕ}

theorem frameBytes_eq (h : Fits g scale) :
    frameBytes g = g.gWidth * (g.gHeight * (g.gBpp / 8)) := by
  rw [frameBytes, Nat.mul_div_assoc _ h.whole_bytes, Nat.mul_assoc]

/-- While the size in bits fits a word, the cursor lies behind the frame buffer. -/
theorem InFrame.offCell (hsmall : g.gWidth * g.gHeight * g.gBpp < 4294967296)
    (h : InFrame g a) : ¬ OnCell g a := by
  obtain ⟨off, hoff, rfl⟩ := h
  rintro ⟨i, hi, heq⟩
  rw [positionCell, toUint32_of_lt hsmall] at heq
  rw [frameBytes] at hoff
  unfold toUint32 at heq
  omega

theorem pitch_eq (hcolumns : 5 * scale ≤ g.gWidth) (bpp : ℕ) :
    pitch (subUint32 g.gWidth (toUint32 (fontWidth * scale))) bpp scale = g.gWidth * bpp :=
  pitch_stride bpp scale g.gWidth_lt hcolumns

theorem column_lt (h : Fits g scale) (hx : x < g.gWidth / 6 / scale) {bpp c : ℕ}
    (hc : c < glyphWidth bpp scale) : 6 * (x * scale) * bpp + c < g.gWidth * bpp := by
  have hcells : (x + 1) * scale ≤ g.gWidth / 6 :=
    (Nat.le_div_iff_mul_le h.scale_pos).mp (Nat.succ_le_of_lt hx)
  have hfit : 6 * (x * scale) + 5 * scale ≤ g.gWidth := by
    rw [Nat.add_mul] at hcells
    omega
  calc 6 * (x * scale) * bpp + c < 6 * (x * scale) * bpp + 5 * (scale * bpp) :=
        Nat.add_lt_add_left hc _
    _ = (6 * (x * scale) + 5 * scale) * bpp := by ring
    _ ≤ g.gWidth * bpp := Nat.mul_le_mul_right bpp hfit

theorem glyph_inFrame (h : Fits g scale) (hx : x < g.gWidth / 6 / scale)
    (hy : y < (g.gHeight - 1) / 12 - scale) {d : ℕ}
    (hd : GlyphRows (subUint32 g.gWidth (toUint32 (fontWidth * scale))) (g.gBpp / 8) scale
      (fontHeight * scale) d) :
    InFrame g (toUint32 (g.displayAddress + y * (g.gBpp / 8 * fontHeight * g.gWidth) +
      x * scale * (g.gBpp / 8 * (fontWidth + 1)) + d)) := by
  have hcolumns := h.columns
  obtain ⟨r, hr, c, hc, rfl⟩ := hd
  rw [pitch_eq (by omega)]
  have hcolumn := column_lt h hx hc
  have hrow : 12 * y + r < g.gHeight := by
    rw [show fontHeight = 12 from rfl] at hr
    omega
  have hinside := (rows_adjacent _).mp ⟨12 * y + r, hrow, _, hcolumn, rfl⟩
  refine ⟨(12 * y + r) * (g.gWidth * (g.gBpp / 8)) + (6 * (x * scale) * (g.gBpp / 8) + c), ?_, ?_⟩
  · rw [frameBytes_eq h]
    calc _ < g.gHeight * (g.gWidth * (g.gBpp / 8)) := hinside
      _ = g.gWidth * (g.gHeight * (g.gBpp / 8)) := by ring
  · rw [show fontHeight = 12 from rfl, show fontWidth + 1 = 6 from rfl]
    congr 1
    ring

end Layout

structure LineInv (g : Geometry) (scale : ℕ) (c : Console) : Prop where
  maxX : c.maxX = g.gWidth / 6
  maxY : c.maxY = (g.gHeight - 1) / 12
  y_lt : c.y g < (g.gHeight - 1) / 12 - scale
  inFrame : ∀ a ∈ c.canvas.stores, InFrame g a

structure CursorInv (g : Geometry) (scale : ℕ) (c : Console) : Prop extends LineInv g scale c where
  x_lt : c.x g < g.gWidth / 6 / scale

section Steps

variable {g : Geometry} {scale : ℕ} {c c' : Console} {intstate : Bool}

theorem cursor_of_plotted (hsmall : g.gWidth * g.gHeight * g.gBpp < 4294967296) {p : ℕ}
    {must may : ℕ → Prop} (hplotted : Plotted c.canvas c'.canvas p must may)
    (hmay : ∀ d, may d → InFrame g (toUint32 (p + d))) : c'.x g = c.x g ∧ c'.y g = c.y g := by
  have hcell : ∀ i < 8, c'.canvas.memory (toUint32 (positionCell g + i)) =
      c.canvas.memory (toUint32 (positionCell g + i)) := by
    intro i hi
    apply hplotted.frame
    intro d hd heq
    exact (hmay d hd).offCell hsmall ⟨i, hi, heq.symm⟩
  constructor
  · apply loadWord_congr
    intro i hi
    exact hcell i (by omega)
  · apply loadWord_congr
    intro i hi
    rw [Nat.add_assoc]
    exact hcell (4 + i) (by omega)

theorem stores_of_plotted {p : ℕ} {must may : ℕ → Prop}
    (hplotted : Plotted c.canvas c'.canvas p must may)
    (hmay : ∀ d, may d → InFrame g (toUint32 (p + d)))
    (hin : ∀ a ∈ c.canvas.stores, InFrame g a) : ∀ a ∈ c'.canvas.stores, InFrame g a := by
  intro a ha
  rcases hplotted.stores_cases ha with hold | ⟨d, hd, rfl⟩
  · exact hin a hold
  · exact hmay d hd

def nextLine (g : Geometry) (scale : ℕ) (c : Console) : Console :=
  (c.setY g (c.y g + scale)).setX g 0

theorem nextLine_y (hy : c.y g + scale < 4294967296) :
    (nextLine g scale c).y g = c.y g + scale := by
  rw [nextLine, y_setX, y_setY, toUint32_of_lt hy]

theorem nextLine_x : (nextLine g scale c).x g = 0 := by
  rw [nextLine, x_setX]
  rfl

theorem newline2_fits (hmax : scale ≤ c.maxY) (hmax_lt : c.maxY < 4294967296)
    (hy : c.y g + scale < c.maxY - scale) :
    newline2 g scale intstate c = .inr (restoreInterrupts intstate (nextLine g scale c)) := by
  rw [newline2]
  refine if_neg ?_
  change ¬ (nextLine g scale c).y g ≥ subUint32 c.maxY scale
  rw [nextLine_y (by omega), subUint32_of_le hmax hmax_lt]
  omega

theorem newline2_full (hmax : scale ≤ c.maxY) (hmax_lt : c.maxY < 4294967296)
    (hy_lt : c.y g + scale < 4294967296) (hy : c.maxY - scale ≤ c.y g + scale) :
    newline2 g scale intstate c = .inl (intstate,
      restoreInterrupts intstate ((resetFb g (nextLine g scale c)).setY g 0)) := by
  rw [newline2]
  refine if_pos ?_
  change (nextLine g scale c).y g ≥ subUint32 c.maxY scale
  rw [nextLine_y hy_lt, subUint32_of_le hmax hmax_lt]
  exact hy

theorem CursorInv.congr (h : CursorInv g scale c) (hcanvas : c'.canvas = c.canvas)
    (hmaxX : c'.maxX = c.maxX) (hmaxY : c'.maxY = c.maxY) : CursorInv g scale c' := by
  have hx : c'.x g = c.x g := by rw [Console.x, Console.x, hcanvas]
  have hy : c'.y g = c.y g := by rw [Console.y, Console.y, hcanvas]
  refine ⟨⟨hmaxX.trans h.maxX, hmaxY.trans h.maxY, ?_, ?_⟩, ?_⟩
  · rw [hy]
    exact h.y_lt
  · rw [hcanvas]
    exact h.inFrame
  · rw [hx]
    exact h.x_lt

theorem CursorInv.restore (h : CursorInv g scale c) :
    CursorInv g scale (restoreInterrupts intstate c) := by
  apply h.congr <;> simp

theorem LineInv.setX (h : LineInv g scale c) (v : ℕ) : LineInv g scale (c.setX g v) :=
  ⟨h.maxX, h.maxY, by simpa using h.y_lt, h.inFrame⟩

theorem LineInv.cursorInv_setX (h : LineInv g scale c) {v : ℕ} (hv : v < g.gWidth / 6 / scale) :
    CursorInv g scale (c.setX g v) := by
  refine ⟨h.setX v, ?_⟩
  have hwidth := g.gWidth_lt
  have hle : g.gWidth / 6 / scale ≤ g.gWidth / 6 := Nat.div_le_self _ _
  rw [x_setX, toUint32_of_lt (by omega)]
  exact hv

theorem Fits.cells_pos (h : Fits g scale) : 0 < g.gWidth / 6 / scale :=
  Nat.div_pos h.columns h.scale_pos

theorem newline2_spec (hfits : Fits g scale)
    (hsmall : g.gWidth * g.gHeight * g.gBpp < 4294967296) (h : LineInv g scale c)
    (intstate : Bool) :
    (∃ c', newline2 g scale intstate c = .inr c' ∧ CursorInv g scale c') ∨
      ∃ c', newline2 g scale intstate c = .inl (intstate, c') ∧ CursorInv g scale c' ∧
        c'.x g = 0 ∧ c'.y g = 0 ∧ 0 < c.y g := by
  have hlines := hfits.lines
  have hheight := g.gHeight_lt
  have hmaxY := h.maxY
  have hy := h.y_lt
  have hy_lt : c.y g + scale < 4294967296 := by omega
  by_cases hfull : c.maxY - scale ≤ c.y g + scale
  · right
    have hnext : LineInv g scale ((resetFb g (nextLine g scale c)).setY g 0) := by
      refine ⟨h.maxX, h.maxY, ?_, ?_⟩
      · rw [y_setY]
        change 0 < _
        omega
      · apply stores_of_plotted (resetFb_plotted g (nextLine g scale c))
        · intro d hd
          rw [← frameBytes_eq hfits] at hd
          exact ⟨d, hd, rfl⟩
        · exact h.inFrame
    have hx : ((resetFb g (nextLine g scale c)).setY g 0).x g = 0 := by
      have hkept := cursor_of_plotted hsmall (resetFb_plotted g (nextLine g scale c)) ?_
      · rw [x_setY, hkept.1, nextLine_x]
      · intro d hd
        rw [← frameBytes_eq hfits] at hd
        exact ⟨d, hd, rfl⟩
    refine ⟨_, newline2_full (by omega) (by omega) hy_lt hfull, CursorInv.restore ⟨hnext, ?_⟩,
      ?_, ?_, by omega⟩
    · rw [hx]
      exact hfits.cells_pos
    · rw [restoreInterrupts_x, hx]
    · rw [restoreInterrupts_y, y_setY]
      rfl
  · left
    refine ⟨_, newline2_fits (by omega) (by omega) (by omega), CursorInv.restore ⟨?_, ?_⟩⟩
    · refine ⟨h.maxX, h.maxY, ?_, h.inFrame⟩
      rw [nextLine_y hy_lt]
      omega
    · rw [nextLine_x]
      exact hfits.cells_pos

theorem font5x12_lookup {ch : ℕ} (hhigh : ch ≤ 127) (k : ℕ) (hk : k < 2) :
    ∃ word, font5x12[(ch - 32) * 2 + k]? = some word := by
  have hlength : font5x12.length = 192 := rfl
  exact ⟨_, List.getElem?_eq_getElem (by omega)⟩

theorem paintPass_draws {ch : UInt8} {type : FbConMsgType} (junk : Bool)
    (hhigh : ¬ 127 < ch.toNat) (hcontrol : ¬ ch.toNat < 32)
    (hspace : ¬ (c.x g = 0 ∧ ch = 0x20 ∧ type ≠ .subtitleMsg ∧ type ≠ .titleMsg)) :
    ∃ c₁ : Console, c₁.maxX = c.maxX ∧ c₁.maxY = c.maxY ∧
      Plotted c.canvas c₁.canvas
        (g.displayAddress + c.y g * (g.gBpp / 8 * fontHeight * g.gWidth) +
          c.x g * scale * (g.gBpp / 8 * (fontWidth + 1)))
        (GlyphRows (subUint32 g.gWidth (toUint32 (fontWidth * scale))) (g.gBpp / 8) scale
          (fontHeight * scale))
        (GlyphRows (subUint32 g.gWidth (toUint32 (fontWidth * scale))) (g.gBpp / 8) scale
          (fontHeight * scale)) ∧
      paintPass g scale ch type (junk, c) =
        if intn (toUint32 (c₁.x g + 1)) ≥ intn (c₁.maxX / scale) then
          some (newline2 g scale c.interrupts (c₁.setX g (c₁.x g + 1)))
        else some (.inr (restoreInterrupts c.interrupts (c₁.setX g (c₁.x g + 1)))) := by
  obtain ⟨word0, hword0⟩ := font5x12_lookup (Nat.le_of_not_lt hhigh) 0 (by decide)
  obtain ⟨word1, hword1⟩ := font5x12_lookup (Nat.le_of_not_lt hhigh) 1 (by decide)
  have hplotted := fbConDrawglyph_plotted c.foreground c.background (g.gBpp / 8) scale
    (g.displayAddress + c.y g * (g.gBpp / 8 * fontHeight * g.gWidth) +
      c.x g * scale * (g.gBpp / 8 * (fontWidth + 1))) g.gWidth word0 word1 c.canvas
  generalize hcanvas : fbConDrawglyph _ _ _ _ _ _ _ _ _ = canvas at hplotted
  refine ⟨{ disableInterrupts c.interrupts c with canvas := canvas }, ?_, ?_, hplotted, ?_⟩
  · exact disableInterrupts_maxX c c.interrupts
  · exact disableInterrupts_maxY c c.interrupts
  · rw [paintPass, if_neg hhigh, if_neg hcontrol, if_neg hspace]
    rw [Nat.add_zero] at hword0
    simp only [disableInterrupts_x, disableInterrupts_y, disableInterrupts_canvas,
      disableInterrupts_foreground, disableInterrupts_background, hword0, hword1, hcanvas,
      Option.bind_eq_bind, Option.bind_some, x_setX]
    rfl

def repaints (g : Geometry) (st : Bool × Console) : ℕ := if st.2.y g = 0 then 0 else 1

theorem paintPass_spec (hfits : Fits g scale)
    (hsmall : g.gWidth * g.gHeight * g.gBpp < 4294967296) (ch : UInt8) (type : FbConMsgType)
    (st : Bool × Console) (h : CursorInv g scale st.2) :
    PassOk (paintPass g scale ch type) (fun st => CursorInv g scale st.2) (repaints g)
      (CursorInv g scale) st := by
  obtain ⟨junk, c⟩ := st
  have hnewline : ∀ {c₁ : Console} {intstate : Bool}, LineInv g scale c₁ → c₁.y g = c.y g →
      paintPass g scale ch type (junk, c) = some (newline2 g scale intstate c₁) →
      PassOk (paintPass g scale ch type) (fun st => CursorInv g scale st.2) (repaints g)
        (CursorInv g scale) (junk, c) := by
    intro c₁ intstate hline hsame hpass
    rcases newline2_spec hfits hsmall hline intstate with
      ⟨c', hout, hinv⟩ | ⟨c', hout, hinv, -, hzero, hpos⟩
    · exact .inr ⟨c', hpass.trans (congrArg some hout), hinv⟩
    · refine .inl ⟨(intstate, c'), hpass.trans (congrArg some hout), hinv, ?_⟩
      rw [hsame] at hpos
      simp [repaints, hzero, Nat.ne_of_gt hpos]
  by_cases hhigh : 127 < ch.toNat
  · exact .inr ⟨c, by rw [paintPass, if_pos hhigh], h⟩
  by_cases hcontrol : ch.toNat < 32
  · by_cases hlf : ch = 0x0a
    · apply hnewline h.toLineInv rfl
      rw [paintPass, if_neg hhigh, if_pos hcontrol, if_pos hlf]
    by_cases hcr : ch = 0x0d
    · refine .inr ⟨c.setX g 0, ?_, h.toLineInv.cursorInv_setX hfits.cells_pos⟩
      rw [paintPass, if_neg hhigh, if_pos hcontrol, if_neg hlf, if_pos hcr]
    · exact .inr ⟨c, by rw [paintPass, if_neg hhigh, if_pos hcontrol, if_neg hlf, if_neg hcr], h⟩
  by_cases hspace : c.x g = 0 ∧ ch = 0x20 ∧ type ≠ .subtitleMsg ∧ type ≠ .titleMsg
  · exact .inr ⟨c, by rw [paintPass, if_neg hhigh, if_neg hcontrol, if_pos hspace], h⟩
  obtain ⟨c₁, hmaxX, hmaxY, hplotted, hpass⟩ := paintPass_draws junk hhigh hcontrol hspace
  have hglyph := fun d hd => glyph_inFrame hfits h.x_lt h.y_lt (d := d) hd
  obtain ⟨hx, hy⟩ := cursor_of_plotted hsmall hplotted hglyph
  have hline : LineInv g scale c₁ :=
    ⟨hmaxX.trans h.maxX, hmaxY.trans h.maxY, by rw [hy]; exact h.y_lt,
      stores_of_plotted hplotted hglyph h.inFrame⟩
  have hwidth := g.gWidth_lt
  have hcells : g.gWidth / 6 / scale ≤ g.gWidth / 6 := Nat.div_le_self _ _
  have hx_lt : c₁.x g < g.gWidth / 6 / scale := hx ▸ h.x_lt
  rw [toUint32_of_lt (by omega), hline.maxX, intn_of_lt (by omega), intn_of_lt (by omega)] at hpass
  by_cases hwrap : ((c₁.x g + 1 : ℕ) : ℤ) ≥ (g.gWidth / 6 / scale : ℕ)
  · apply hnewline (hline.setX (c₁.x g + 1))
    · rw [y_setX, hy]
    · rw [hpass, if_pos hwrap]
  · refine .inr ⟨_, hpass.trans (if_neg hwrap), (hline.cursorInv_setX ?_).restore⟩
    omega

theorem fbConPutCharWithFactor_spec (hfits : Fits g scale)
    (hsmall : g.gWidth * g.gHeight * g.gBpp < 4294967296) {fuel : ℕ} (enough : 2 ≤ fuel)
    (call : Call) (h : CursorInv g scale c) :
    ∃ c', fbConPutCharWithFactor g scale fuel c call = some c' ∧ CursorInv g scale c' := by
  apply loop_total (fun st : Bool × Console => CursorInv g scale st.2) (repaints g)
  · exact paintPass_spec hfits hsmall call.ch call.type
  · exact h
  · rw [repaints]
    split <;> omega

theorem putChars_spec (hfits : Fits g scale)
    (hsmall : g.gWidth * g.gHeight * g.gBpp < 4294967296) {fuel : ℕ} (enough : 2 ≤ fuel)
    (calls : List Call) (h : CursorInv g scale c) :
    ∃ c', putChars g scale fuel calls c = some c' ∧ CursorInv g scale c' := by
  induction calls generalizing c with
  | nil => exact ⟨c, rfl, h⟩
  | cons call calls ih =>
      obtain ⟨c₁, hcall, hinv⟩ := fbConPutCharWithFactor_spec hfits hsmall enough call h
      obtain ⟨c', hcalls, hinv'⟩ := ih hinv
      refine ⟨c', ?_, hinv'⟩
      rw [putChars, List.foldlM_cons, hcall]
      exact hcalls

theorem serialPortWrite_spec (hfits : Fits g scaleFactor)
    (hsmall : g.gWidth * g.gHeight * g.gBpp < 4294967296) {fuel : ℕ} (enough : 2 ≤ fuel)
    (buffer : List (UInt8 × Bool)) (h : CursorInv g scaleFactor c) :
    (∃ c', serialPortWrite g fuel buffer c = some c' ∧ CursorInv g scaleFactor c') ∧
      ∃ c', serialPortWriteCritical g fuel buffer c = some c' ∧ CursorInv g scaleFactor c' := by
  constructor
  · have hstart : CursorInv g scaleFactor (disableInterrupts c.interrupts c) := by
      apply h.congr <;> simp
    obtain ⟨c₁, hrun, hinv⟩ := putChars_spec hfits hsmall enough (bufferCalls buffer) hstart
    refine ⟨restoreInterrupts c.interrupts c₁, ?_, hinv.restore⟩
    rw [serialPortWrite, hrun]
    rfl
  · have hstart : CursorInv g scaleFactor
        { disableInterrupts c.interrupts c with foreground := fbBgra8888Yellow } := by
      apply h.congr <;> simp
    obtain ⟨c₁, hrun, hinv⟩ := putChars_spec hfits hsmall enough (bufferCalls buffer) hstart
    have hend : CursorInv g scaleFactor { c₁ with foreground := c.foreground } := by
      apply hinv.congr <;> rfl
    refine ⟨restoreInterrupts c.interrupts { c₁ with foreground := c.foreground }, ?_, hend.restore⟩
    rw [serialPortWriteCritical, hrun]
    rfl

theorem AtOrigin.maxX_eq (h : AtOrigin g c) : c.maxX = g.gWidth / 6 := h.maxX

theorem AtOrigin.maxY_eq (hfits : Fits g scale) (h : AtOrigin g c) :
    c.maxY = (g.gHeight - 1) / 12 := by
  have hlines := hfits.lines
  have hmax : c.maxY = subUint32 g.gHeight 1 / 12 := h.maxY
  rw [hmax, subUint32_of_le (by omega) g.gHeight_lt]

theorem AtOrigin.cursorInv (hfits : Fits g scale) (h : AtOrigin g c) : CursorInv g scale c := by
  have hlines := hfits.lines
  refine ⟨⟨h.maxX_eq, h.maxY_eq hfits, ?_, ?_⟩, ?_⟩
  · rw [h.y]
    omega
  · rw [h.stores]
    intro a ha
    cases ha
  · rw [h.x]
    exact hfits.cells_pos

theorem CursorInv.sound (hsmall : g.gWidth * g.gHeight * g.gBpp < 4294967296)
    (h : CursorInv g scale c) : Sound g scale c := by
  have hwidth := g.gWidth_lt
  have hheight := g.gHeight_lt
  have hcells : g.gWidth / 6 / scale ≤ g.gWidth / 6 := Nat.div_le_self _ _
  have hx := h.x_lt
  have hy := h.y_lt
  have hxint : intn (c.x g) = c.x g := intn_of_lt (by omega)
  have hyint : intn (c.y g) = c.y g := intn_of_lt (by omega)
  refine ⟨by omega, by omega, by omega, by omega, h.inFrame, ?_⟩
  intro a ha
  exact (h.inFrame a ha).offCell hsmall

end Steps

section Overflow

variable {g : Geometry} {scale : ℕ} {c c' : Console}

theorem putChars_concat {fuel : ℕ} {calls : List Call} {call : Call}
    (h : putChars g scale fuel calls c = some c') :
    putChars g scale fuel (calls ++ [call]) c = fbConPutCharWithFactor g scale fuel c' call := by
  rw [putChars] at h
  rw [putChars, List.foldlM_append, h, Option.bind_eq_bind, Option.bind_some, List.foldlM_cons]
  exact Option.bind_fun_some _

def newline : Call := ⟨0x0a, .commonMsg, false⟩

theorem paintPass_newline (junk : Bool) :
    paintPass g scale newline.ch newline.type (junk, c) = some (newline2 g scale junk c) := by
  rw [paintPass, if_neg (by decide), if_pos (by decide), if_pos (by decide)]

theorem newlines_run (hfits : Fits g scale) (h : AtOrigin g c) {fuel : ℕ} (enough : 1 ≤ fuel)
    (k : ℕ) (hk : k * scale < (g.gHeight - 1) / 12 - scale) :
    ∃ c', putChars g scale fuel (List.replicate k newline) c = some c' ∧
      c'.maxY = (g.gHeight - 1) / 12 ∧ c'.y g = k * scale := by
  induction k with
  | zero => exact ⟨c, rfl, h.maxY_eq hfits, by rw [h.y, Nat.zero_mul]⟩
  | succ k ih =>
      rw [Nat.add_mul, Nat.one_mul] at hk
      obtain ⟨c₁, hrun, hmaxY, hy⟩ := ih (by omega)
      clear ih
      have hheight := g.gHeight_lt
      have hlast : fbConPutCharWithFactor g scale fuel c₁ newline =
          some (restoreInterrupts false (nextLine g scale c₁)) := by
        obtain ⟨fuel, rfl⟩ := Nat.exists_eq_add_of_le' enough
        apply loop_done
        rw [paintPass_newline, newline2_fits (by omega) (by omega) (by omega)]
        rfl
      refine ⟨restoreInterrupts false (nextLine g scale c₁), ?_, ?_, ?_⟩
      · rw [List.replicate_succ', putChars_concat hrun, hlast]
      · exact hmaxY
      · rw [restoreInterrupts_y, nextLine_y (by omega), hy]
        ring

/-- The newline after the last line clears the screen, byte by byte, and then moves down. -/
theorem newline_clears (hfits : Fits g scale) (hmaxY : c.maxY = (g.gHeight - 1) / 12)
    (hy_lt : c.y g < (g.gHeight - 1) / 12 - scale)
    (hy : (g.gHeight - 1) / 12 - scale ≤ c.y g + scale) {fuel : ℕ} (enough : 2 ≤ fuel) :
    ∃ c', fbConPutCharWithFactor g scale fuel c newline = some c' ∧
      ∀ off < frameBytes g, toUint32 (g.displayAddress + off) ∈ c'.canvas.stores := by
  have hlines := hfits.lines
  have hheight := g.gHeight_lt
  obtain ⟨fuel, rfl⟩ : ∃ k, fuel = k + 1 + 1 := ⟨fuel - 2, by omega⟩
  generalize hcleared : (resetFb g (nextLine g scale c)).setY g 0 = cleared
  have hfirst : paintPass g scale newline.ch newline.type (false, c) =
      some (.inl (false, cleared)) := by
    rw [paintPass_newline, newline2_full (by omega) (by omega) (by omega) (by omega), hcleared]
    rfl
  have hcleared_y : cleared.y g = 0 := by
    rw [← hcleared, y_setY]
    rfl
  have hcleared_maxY : cleared.maxY = (g.gHeight - 1) / 12 := by
    rw [← hcleared, ← hmaxY]
    rfl
  have hsecond : paintPass g scale newline.ch newline.type (false, cleared) =
      some (.inr (nextLine g scale cleared)) := by
    rw [paintPass_newline, newline2_fits (by omega) (by omega) (by omega)]
    rfl
  refine ⟨nextLine g scale cleared, ?_, ?_⟩
  · exact (loop_next _ hfirst).trans (loop_done _ hsecond)
  · intro off hoff
    rw [frameBytes_eq hfits] at hoff
    have hplotted := (resetFb_plotted g (nextLine g scale c)).mem_stores hoff
    rw [← hcleared]
    exact hplotted

/-- A size in bits that a word cannot hold puts the cursor inside the frame buffer. -/
theorem cell_inside (hbig : 4294967296 ≤ g.gWidth * g.gHeight * g.gBpp) :
    toUint32 (g.gWidth * g.gHeight * g.gBpp) / 8 < frameBytes g := by
  rw [frameBytes]
  unfold toUint32
  omega

theorem not_keepsToScreen (hfits : Fits g scale) (h : AtOrigin g c)
    (hbig : 4294967296 ≤ g.gWidth * g.gHeight * g.gBpp) : ¬ KeepsToScreen g scale := by
  intro hkeeps
  have hlines := hfits.lines
  have hscale := hfits.scale_pos
  generalize hlast : ((g.gHeight - 1) / 12 - scale - 1) / scale = k
  have hdiv := Nat.div_add_mod ((g.gHeight - 1) / 12 - scale - 1) scale
  have hmod := Nat.mod_lt ((g.gHeight - 1) / 12 - scale - 1) hscale
  rw [hlast, Nat.mul_comm] at hdiv
  obtain ⟨enough, hruns⟩ := hkeeps c h (List.replicate (k + 1) newline)
  obtain ⟨c', hrun, hsound⟩ := hruns (enough + 2) (Nat.le_add_right _ _)
  obtain ⟨c₁, hbefore, hmaxY, hy⟩ :=
    newlines_run hfits h (Nat.le_add_left_of_le (by omega) : 1 ≤ enough + 2) k (by omega)
  obtain ⟨c₂, hclear, hstores⟩ :=
    newline_clears hfits hmaxY (by omega) (by omega) (Nat.le_add_left 2 enough)
  have hsame : c' = c₂ := by
    rw [List.replicate_succ', putChars_concat hbefore] at hrun
    exact Option.some_inj.mp (hrun.symm.trans hclear)
  subst hsame
  exact hsound.offCell _ (hstores _ (cell_inside hbig)) ⟨0, by decide, rfl⟩

end Overflow

/-- The console keeps its cursor and its pixels to the screen, for all it is sent, exactly on
the screens whose size in bits is a 32-bit number. -/
theorem keepsToScreen_iff (g : Geometry) (scale : ℕ) (hfits : Fits g scale) :
    KeepsToScreen g scale ↔ g.gWidth * g.gHeight * g.gBpp < 4294967296 := by
  constructor
  · intro hkeeps
    by_contra hbig
    exact not_keepsToScreen hfits (blankConsole_atOrigin g) (Nat.le_of_not_lt hbig) hkeeps
  · intro hsmall c h calls
    refine ⟨2, fun fuel enough => ?_⟩
    obtain ⟨c', hrun, hinv⟩ := putChars_spec hfits hsmall enough calls (h.cursorInv hfits)
    exact ⟨c', hrun, hinv.sound hsmall⟩

def venusScreen : Geometry :=
  ⟨1366, 768, 32, 0xfc159000, by decide, by decide, by decide⟩

theorem keepsToScreen_iff_venus : KeepsToScreen venusScreen 1 :=
  (keepsToScreen_iff venusScreen 1 ⟨by decide, by decide, by decide, by decide⟩).mpr (by decide)

/-- A screen of 2 ^ 32 bits: its cursor lies on the first pixels. -/
def bigScreen : Geometry :=
  ⟨16384, 8192, 32, 0x80000000, by decide, by decide, by decide⟩

def letterA : Call := ⟨0x41, .commonMsg, false⟩

theorem bigScreen_not_keepsToScreen : Fits bigScreen 1 ∧ ¬ KeepsToScreen bigScreen 1 := by
  refine ⟨⟨by decide, by decide, by decide, by decide⟩, fun hkeeps => ?_⟩
  obtain ⟨enough, hruns⟩ := hkeeps _ (blankConsole_atOrigin bigScreen) [letterA]
  obtain ⟨c', hrun, hsound⟩ := hruns (enough + 1) (Nat.le_add_right _ _)
  have hprinted : ((fbConPutCharWithFactor bigScreen 1 1 (blankConsole bigScreen) letterA).map
      fun c => c.x bigScreen) = some 0xff000001 := by
    decide +kernel
  obtain ⟨c₁, hone, hx⟩ := Option.map_eq_some_iff.mp hprinted
  have hmore : fbConPutCharWithFactor bigScreen 1 (enough + 1) (blankConsole bigScreen) letterA =
      some c₁ := loop_mono hone (Nat.le_add_left 1 enough)
  have hall : putChars bigScreen 1 (enough + 1) ([] ++ [letterA]) (blankConsole bigScreen) =
      some c₁ := (putChars_concat rfl).trans hmore
  obtain rfl := Option.some_inj.mp (hrun.symm.trans hall)
  have hnonneg := hsound.x_nonneg
  rw [hx] at hnonneg
  exact absurd hnonneg (by decide)

end MuTegra.Screen.Cursor
