/- Unit: MuTegra/Screen/TextScreen
   source: NvidiaPkg/Library/FrameBufferSerialPortLib/FrameBufferSerialPortLib.c
   digest: The frame buffer always shows a text terminal that was written to. -/

import MuTegra.Screen.Cursor
import MuTegra.Screen.GlyphPixels

/-!
The terminal is the purpose of the library: cells that hold characters, a cursor, lines that
are filled from the top and a screen that starts afresh when the last line is left. What the
library does to memory, byte by byte, is then compared with what it shows.
-/

set_option autoImplicit false
set_option relaxedAutoImplicit false

namespace MuTegra.Screen.TextScreen

open MuTegra.Foundation.ByteFields
open MuTegra.Foundation.Inking
open MuTegra.Foundation.Loops
open MuTegra.Foundation.MachineWords
open MuTegra.Foundation.Plotting
open MuTegra.Screen.Framebuffer
open MuTegra.Screen.Glyph
open MuTegra.Screen.GlyphPixels
open MuTegra.Screen.Cursor

/-! ## The terminal -/

structure Printed where
  ch : UInt8
  foreground : ℕ
  background : ℕ

structure Terminal where
  x : ℕ
  y : ℕ
  /-- Whether the screen was ever erased; until then it shows what it showed at first. -/
  cleared : Bool
  cells : ℕ → ℕ → Option Printed

def Terminal.fresh : Terminal := ⟨0, 0, false, fun _ _ => none⟩

def Terminal.erased : Terminal := ⟨0, 0, true, fun _ _ => none⟩

def Terminal.put (p : Printed) (t : Terminal) : Terminal :=
  { t with
    x := t.x + 1
    cells := fun row column =>
      if row = t.y ∧ column = t.x then some p else t.cells row column }

/-- On to the next line. Behind the last one the screen is erased, and what happened on the
full screen happens `again`. -/
def Terminal.feed (rows : ℕ) (again : Terminal → Terminal) (t : Terminal) : Terminal :=
  if t.y + 1 < rows then { t with x := 0, y := t.y + 1 } else again erased

/-- A newline, a carriage return, or a character put at the cursor. Other control characters,
those outside ASCII and the spaces that begin a line are left out. -/
def Terminal.type (rows columns : ℕ) (p : Printed) (again : Terminal → Terminal) (t : Terminal) :
    Terminal :=
  if p.ch = 0x0a then t.feed rows again
  else if p.ch = 0x0d then { t with x := 0 }
  else if p.ch.toNat < 32 ∨ 127 < p.ch.toNat ∨ (t.x = 0 ∧ p.ch = 0x20) then t
  else if t.x + 1 < columns then t.put p
  else (t.put p).feed rows again

def Terminal.print (rows columns : ℕ) (t : Terminal) (p : Printed) : Terminal :=
  t.type rows columns p (fun t => t.type rows columns p id)

/-! ## What is seen of it -/

def textRows (g : Geometry) : ℕ := (g.gHeight - 1) / 12 - 1

def textColumns (g : Geometry) : ℕ := g.gWidth / 6

def glyphWord (ch : UInt8) (k : ℕ) : ℕ := (font5x12[(ch.toNat - 32) * 2 + k]?).getD 0

def Printed.color (p : Printed) (r c : ℕ) : ℕ :=
  if glyphBit (glyphWord p.ch 0) (glyphWord p.ch 1) scaleFactor r c then p.foreground
  else p.background

/-- The colour of a pixel of the screen, where the terminal has given it one. A cell is six
pixels wide and its character five. -/
def Terminal.pixel (t : Terminal) (row column : ℕ) : Option ℕ :=
  let blank := if t.cleared then some fbBgra8888Black else none
  if column % 6 < 5 then
    ((t.cells (row / 12) (column / 6)).map fun p => p.color (row % 12) (column % 6)).or blank
  else blank

/-- Where byte `k` of a pixel of the screen lies. -/
def pixelAddress (g : Geometry) (row column k : ℕ) : ℕ :=
  byteAddress g.displayAddress g.gWidth (g.gBpp / 8) row column k

def pixelByte (color : Option ℕ) (under : UInt8) (k : ℕ) : UInt8 :=
  match color with
  | some color => colorByte color k
  | none => under

/-- Memory shows the terminal over what was there at first. Outside the frame buffer only the
cursor is written. -/
structure Shows (g : Geometry) (under : ℕ → UInt8) (t : Terminal) (memory : ℕ → UInt8) : Prop where
  pixels : ∀ row < g.gHeight, ∀ column < g.gWidth, ∀ k < g.gBpp / 8,
    memory (pixelAddress g row column k) =
      pixelByte (t.pixel row column) (under (pixelAddress g row column k)) k
  kept : ∀ a, ¬ InFrame g a → ¬ OnCell g a → memory a = under a

/-- The console shows the terminal and goes on at its cursor in the given colours. -/
structure Renders (g : Geometry) (under : ℕ → UInt8) (foreground background : ℕ) (t : Terminal)
    (c : Console) : Prop where
  cursor : CursorInv g scaleFactor c
  foreground_eq : c.foreground = foreground
  background_eq : c.background = background
  x_eq : c.x g = t.x
  y_eq : c.y g = t.y
  shows : Shows g under t c.canvas.memory

/-! ## Pixels and their addresses -/

variable {g : Geometry} {row column k row' column' k' : ℕ}

theorem pixelAddress_inFrame (hfits : Fits g scaleFactor) (hrow : row < g.gHeight)
    (hcolumn : column < g.gWidth) (hk : k < g.gBpp / 8) :
    InFrame g (pixelAddress g row column k) := by
  refine ⟨(row * g.gWidth + column) * (g.gBpp / 8) + k, ?_, rfl⟩
  have hpixel : row * g.gWidth + column < g.gHeight * g.gWidth :=
    (rows_adjacent _).mp ⟨row, hrow, column, hcolumn, rfl⟩
  rw [frameBytes_eq hfits]
  calc (row * g.gWidth + column) * (g.gBpp / 8) + k < g.gHeight * g.gWidth * (g.gBpp / 8) :=
        (rows_adjacent _).mp ⟨_, hpixel, k, hk, rfl⟩
    _ = g.gWidth * (g.gHeight * (g.gBpp / 8)) := by ring

theorem pixelAddress_inj (hfits : Fits g scaleFactor)
    (hsmall : g.gWidth * g.gHeight * g.gBpp < 4294967296)
    (hrow : row < g.gHeight) (hcolumn : column < g.gWidth) (hk : k < g.gBpp / 8)
    (hrow' : row' < g.gHeight) (hcolumn' : column' < g.gWidth) (hk' : k' < g.gBpp / 8)
    (h : pixelAddress g row' column' k' = pixelAddress g row column k) :
    row' = row ∧ column' = column ∧ k' = k := by
  have hbytes : g.gHeight * g.gWidth * (g.gBpp / 8) < 4294967296 := by
    have heq : g.gHeight * g.gWidth * (g.gBpp / 8) = frameBytes g := by
      rw [frameBytes_eq hfits]
      ring
    rw [heq, frameBytes]
    omega
  have hin : ∀ {row column k}, row < g.gHeight → column < g.gWidth → k < g.gBpp / 8 →
      (row * g.gWidth + column) * (g.gBpp / 8) + k < 4294967296 := by
    intro row column k hrow hcolumn hk
    have hpixel : row * g.gWidth + column < g.gHeight * g.gWidth :=
      (rows_adjacent _).mp ⟨row, hrow, column, hcolumn, rfl⟩
    have hbyte : (row * g.gWidth + column) * (g.gBpp / 8) + k < _ :=
      (rows_adjacent _).mp ⟨_, hpixel, k, hk, rfl⟩
    exact hbyte.trans hbytes
  have hfirst := hin hrow hcolumn hk
  have hsecond := hin hrow' hcolumn' hk'
  apply offset_inj hcolumn hk hcolumn' hk'
  simp only [pixelAddress, byteAddress, toUint32] at h
  omega

/-- Where the character at column `x` of line `y` is drawn. -/
def cellAddress (g : Geometry) (x y : ℕ) : ℕ :=
  g.displayAddress + y * (g.gBpp / 8 * fontHeight * g.gWidth) +
    x * scaleFactor * (g.gBpp / 8 * (fontWidth + 1))

theorem byteAddress_glyph (g : Geometry) (x y r c k : ℕ) :
    byteAddress (cellAddress g x y) g.gWidth (g.gBpp / 8) r c k =
      pixelAddress g (12 * y + r) (6 * x + c) k := by
  rw [pixelAddress, byteAddress, byteAddress, cellAddress, show fontHeight = 12 from rfl,
    show fontWidth + 1 = 6 from rfl, show scaleFactor = 1 from rfl]
  congr 1
  ring

/-- A line of text that is on the screen leaves a pixel's row below the line free. -/
theorem glyph_onScreen {x y r c : ℕ} (hx : x < textColumns g) (hy : y < textRows g) (hr : r < 12)
    (hc : c < 5) : 12 * y + r < g.gHeight ∧ 6 * x + c < g.gWidth := by
  unfold textColumns at hx
  unfold textRows at hy
  omega

/-! ## What drawing and clearing do to the pixels -/

variable {c c' : Console} {x y : ℕ}

theorem glyph_layers (foreground background pixels word0 word1 bpp : ℕ)
    (hcolumns : 5 * scaleFactor ≤ g.gWidth) (canvas : Canvas) :
    ∃ erased shown, Inks canvas erased pixels (rowsInk (fun _ _ => True) background bpp scaleFactor
        (g.gWidth * bpp) (fontHeight * scaleFactor)) ∧
      Inks erased (fbConDrawglyph foreground background pixels g.gWidth bpp word0 word1 scaleFactor
        canvas) pixels (rowsInk shown foreground bpp scaleFactor (g.gWidth * bpp)
          (fontHeight * scaleFactor)) ∧
      ∀ r < fontHeight * scaleFactor, ∀ c,
        shown r (c / scaleFactor) ↔ glyphBit word0 word1 scaleFactor r c = true := by
  have hpitch := pitch_stride bpp scaleFactor g.gWidth_lt hcolumns
  have hheight : fontHeight / 2 * scaleFactor + fontHeight / 2 * scaleFactor =
      fontHeight * scaleFactor := rfl
  generalize hgap : subUint32 g.gWidth (toUint32 (fontWidth * scaleFactor)) = gap at hpitch
  rw [fbConDrawglyph, hgap]
  let start : Pen := { canvas := canvas, pointer := pixels, color := background, data := 0 }
  have herased := ((eraseHalf_inked background gap bpp scaleFactor start).trans
    (eraseHalf_inked background gap bpp scaleFactor _)).inks.congr
      fun d b => rowsInk_then background bpp scaleFactor _ _ _ _ _ d b
  simp only [ite_self] at herased
  rw [hpitch, hheight] at herased
  change Inks canvas _ pixels _ at herased
  generalize eraseHalf background gap bpp scaleFactor _ = erased at herased ⊢
  have hdrawn := ((drawHalf_inked foreground gap bpp scaleFactor le_rfl word0
    { erased with pointer := pixels }).trans
      (drawHalf_inked foreground gap bpp scaleFactor le_rfl word1 _)).inks.congr
        fun d b => rowsInk_then foreground bpp scaleFactor _ _ _ _ _ d b
  rw [hpitch, hheight] at hdrawn
  exact ⟨erased.canvas, _, herased, hdrawn, fun r hr c => halves_bit hr⟩

theorem drawGlyph_pixels (hfits : Fits g scaleFactor)
    (hsmall : g.gWidth * g.gHeight * g.gBpp < 4294967296) (hx : x < textColumns g)
    (hy : y < textRows g) (foreground background word0 word1 : ℕ) (canvas : Canvas) :
    let drawn := fbConDrawglyph foreground background (cellAddress g x y) g.gWidth (g.gBpp / 8)
      word0 word1 scaleFactor canvas
    (∀ row < g.gHeight, ∀ column < g.gWidth, ∀ k < g.gBpp / 8,
      drawn.memory (pixelAddress g row column k) =
        if row / 12 = y ∧ column / 6 = x ∧ column % 6 < 5 then
          colorByte (if glyphBit word0 word1 scaleFactor (row % 12) (column % 6) then foreground
            else background) k
        else canvas.memory (pixelAddress g row column k)) ∧
      ∀ a, ¬ InFrame g a → drawn.memory a = canvas.memory a := by
  intro drawn
  have hcolumns : 5 * scaleFactor ≤ g.gWidth := by
    unfold textColumns at hx
    rw [show scaleFactor = 1 from rfl]
    omega
  obtain ⟨erased, shown, herased, hdrawn, hshown⟩ := glyph_layers foreground background
    (cellAddress g x y) word0 word1 (g.gBpp / 8) hcolumns canvas
  have hglyph := glyphDrawn_of_inks hcolumns herased hdrawn hshown
  have honScreen : ∀ r < fontHeight * scaleFactor, ∀ c < fontWidth * scaleFactor,
      12 * y + r < g.gHeight ∧ 6 * x + c < g.gWidth :=
    fun r hr c hc => glyph_onScreen hx hy hr hc
  constructor
  · intro row hrow column hcolumn k hk
    by_cases hinside : row / 12 = y ∧ column / 6 = x ∧ column % 6 < 5
    · obtain ⟨hline, hcell, hwithin⟩ := hinside
      have hat : pixelAddress g row column k =
          pixelAddress g (12 * y + row % 12) (6 * x + column % 6) k := by
        rw [← hline, ← hcell, Nat.div_add_mod, Nat.div_add_mod]
      have hr : row % 12 < fontHeight * scaleFactor := Nat.mod_lt row (by decide)
      have halone : Alone (cellAddress g x y) g.gWidth (g.gBpp / 8) scaleFactor (row % 12)
          (column % 6) k := by
        intro r' hr' c' hc' k' hk' haddress
        obtain ⟨hrow', hcolumn'⟩ := honScreen r' hr' c' hc'
        rw [byteAddress_glyph, byteAddress_glyph, ← hat] at haddress
        have hsame := pixelAddress_inj hfits hsmall hrow hcolumn hk hrow' hcolumn' hk' haddress
        omega
      rw [if_pos ⟨hline, hcell, hwithin⟩, hat, ← byteAddress_glyph]
      exact hglyph.drawn _ hr _ hwithin k hk halone
    · rw [if_neg hinside]
      apply hglyph.kept
      intro r hr c hc k' hk' haddress
      obtain ⟨hrow', hcolumn'⟩ := honScreen r hr c hc
      rw [byteAddress_glyph] at haddress
      obtain ⟨hrow_eq, hcolumn_eq, -⟩ := pixelAddress_inj hfits hsmall hrow hcolumn hk hrow'
        hcolumn' hk' haddress.symm
      change r < 12 at hr
      change c < 5 at hc
      apply hinside
      omega
  · intro a ha
    apply hglyph.kept
    intro r hr c hc k hk heq
    obtain ⟨hrow, hcolumn⟩ := honScreen r hr c hc
    rw [byteAddress_glyph] at heq
    exact ha (heq ▸ pixelAddress_inFrame hfits hrow hcolumn hk)

theorem resetFb_pixels (hfits : Fits g scaleFactor)
    (hsmall : g.gWidth * g.gHeight * g.gBpp < 4294967296) (c : Console) :
    (∀ row < g.gHeight, ∀ column < g.gWidth, ∀ k < g.gBpp / 8,
      (resetFb g c).canvas.memory (pixelAddress g row column k) = colorByte fbBgra8888Black k) ∧
      ∀ a, ¬ InFrame g a → (resetFb g c).canvas.memory a = c.canvas.memory a := by
  let start : Pen :=
    { canvas := c.canvas, pointer := g.displayAddress, color := fbBgra8888Black, data := 0 }
  have hcolumn (s : Pen) := (Inked.iterate (fun _ _ => True)
    (fun _ s _ => ⟨trivial, (paintPixel_inked fbBgra8888Black (g.gBpp / 8) s).2⟩)
    (s := s) trivial g.gHeight).2
  have hscreen := (Inked.iterate (fun _ _ => True) (fun _ s _ => ⟨trivial, hcolumn s⟩)
    (s := start) trivial g.gWidth).2.inks.congr fun d b => spread_spread _
  change Inks c.canvas (resetFb g c).canvas g.displayAddress _ at hscreen
  constructor
  · intro row hrow column hcolumn k hk
    have hpixel : row * g.gWidth + column < g.gWidth * g.gHeight := by
      rw [Nat.mul_comm g.gWidth]
      exact (rows_adjacent _).mp ⟨row, hrow, column, hcolumn, rfl⟩
    rcases hscreen (pixelAddress g row column k) with ⟨d, hd, ha⟩ | ⟨hnone, -⟩
    · obtain ⟨pixel, hpixel', e, ⟨k', hk', -, ⟨rfl, hb⟩, rfl⟩, rfl⟩ := hd
      rw [Nat.mul_comm g.gWidth] at hpixel'
      obtain ⟨row', hrow', column', hcolumn', rfl⟩ := (rows_adjacent pixel).mpr hpixel'
      have hsame : pixelAddress g row' column' k' = pixelAddress g row column k := by
        rw [ha, pixelAddress, byteAddress, Nat.mul_one, Nat.add_zero]
      obtain ⟨-, -, rfl⟩ :=
        pixelAddress_inj hfits hsmall hrow hcolumn hk hrow' hcolumn' hk' hsame
      exact hb
    · refine absurd rfl (hnone _ (colorByte fbBgra8888Black k)
        ⟨row * g.gWidth + column, hpixel, k, ⟨k, hk, 0, ⟨rfl, rfl⟩, ?_⟩, rfl⟩)
      omega
  · intro a ha
    rcases hscreen a with ⟨d, hd, hat⟩ | ⟨-, hkept⟩
    · obtain ⟨pixel, hpixel, e, ⟨k, hk, -, ⟨rfl, -⟩, rfl⟩, rfl⟩ := hd
      rw [Nat.mul_comm g.gWidth] at hpixel
      obtain ⟨row, hrow, column, hcolumn, rfl⟩ := (rows_adjacent pixel).mpr hpixel
      refine absurd ?_ ha
      rw [hat, Nat.mul_one, Nat.add_zero]
      exact pixelAddress_inFrame hfits hrow hcolumn hk
    · exact hkept

/-! ## One character -/

variable {under : ℕ → UInt8} {foreground background : ℕ} {t : Terminal} {intstate : Bool}

theorem Shows.move (hsmall : g.gWidth * g.gHeight * g.gBpp < 4294967296)
    {memory memory' : ℕ → UInt8}
    (h : Shows g under t memory) (hfits : Fits g scaleFactor)
    (hmoved : ∀ a, ¬ OnCell g a → memory' a = memory a) : Shows g under t memory' := by
  constructor
  · intro row hrow column hcolumn k hk
    rw [hmoved _ ((pixelAddress_inFrame hfits hrow hcolumn hk).offCell hsmall)]
    exact h.pixels row hrow column hcolumn k hk
  · intro a hframe hcell
    rw [hmoved a hcell]
    exact h.kept a hframe hcell

theorem Shows.of_cells {memory : ℕ → UInt8} {t' : Terminal} (h : Shows g under t memory)
    (hcells : t'.cells = t.cells) (hcleared : t'.cleared = t.cleared) :
    Shows g under t' memory := by
  have hpixel : ∀ row column, t'.pixel row column = t.pixel row column := by
    intro row column
    rw [Terminal.pixel, Terminal.pixel, hcells, hcleared]
  refine ⟨fun row hrow column hcolumn k hk => ?_, h.kept⟩
  rw [hpixel]
  exact h.pixels row hrow column hcolumn k hk

theorem storeWord_offCell {memory : ℕ → UInt8} {a w : ℕ} (ha : ¬ OnCell g a) (j : ℕ)
    (hj : j = 0 ∨ j = 4) : storeWord memory (positionCell g + j) w a = memory a := by
  apply storeBytes_off
  intro i hi heq
  rw [encodeLe_length] at hi
  exact ha ⟨j + i, by omega, by rw [heq, Nat.add_assoc]⟩

theorem setX_offCell {a : ℕ} (v : ℕ) (ha : ¬ OnCell g a) :
    (c.setX g v).canvas.memory a = c.canvas.memory a :=
  storeWord_offCell ha 0 (.inl rfl)

theorem setY_offCell {a : ℕ} (v : ℕ) (ha : ¬ OnCell g a) :
    (c.setY g v).canvas.memory a = c.canvas.memory a :=
  storeWord_offCell ha 4 (.inr rfl)

theorem Renders.restore (h : Renders g under foreground background t c) :
    Renders g under foreground background t (restoreInterrupts intstate c) := by
  obtain ⟨hcursor, hforeground, hbackground, hx, hy, hshows⟩ := h
  refine ⟨hcursor.restore, ?_, ?_, ?_, ?_, ?_⟩
  · cases intstate <;> exact hforeground
  · cases intstate <;> exact hbackground
  · rw [restoreInterrupts_x, hx]
  · rw [restoreInterrupts_y, hy]
  · rw [restoreInterrupts_canvas]
    exact hshows

theorem pixel_erased (row column : ℕ) :
    Terminal.erased.pixel row column = some fbBgra8888Black := by
  rw [Terminal.pixel]
  split <;> rfl

/-- A newline on the console is one on the terminal, up to the character being painted again
on the erased screen. -/
theorem newline2_renders (hfits : Fits g scaleFactor)
    (hsmall : g.gWidth * g.gHeight * g.gBpp < 4294967296) (hline : LineInv g scaleFactor c)
    (hforeground : c.foreground = foreground) (hbackground : c.background = background)
    (hy : c.y g = t.y) (hshows : Shows g under t c.canvas.memory) (intstate : Bool) :
    (∃ c', newline2 g scaleFactor intstate c = .inr c' ∧ ∀ again,
      Renders g under foreground background (t.feed (textRows g) again) c') ∨
    ∃ c', newline2 g scaleFactor intstate c = .inl (intstate, c') ∧
      Renders g under foreground background Terminal.erased c' ∧ textRows g ≤ t.y + 1 ∧
      ∀ again, t.feed (textRows g) again = again Terminal.erased := by
  have hlines := hfits.lines
  have hheight := g.gHeight_lt
  have hmaxY := hline.maxY
  have hy_lt := hline.y_lt
  have hscale : scaleFactor = 1 := rfl
  have hnext : ∀ a, ¬ OnCell g a →
      (nextLine g scaleFactor c).canvas.memory a = c.canvas.memory a := by
    intro a ha
    rw [nextLine, setX_offCell _ ha, setY_offCell _ ha]
  by_cases hfull : c.maxY - scaleFactor ≤ c.y g + scaleFactor
  · right
    have hout := @newline2_full g scaleFactor c intstate (by omega) (by omega) (by omega) hfull
    rcases newline2_spec hfits hsmall hline intstate with ⟨c', hc', -⟩ | ⟨c', hc', hinv, hx, hy', -⟩
    · cases hc'.symm.trans hout
    have hlast : textRows g ≤ t.y + 1 := by
      unfold textRows
      omega
    refine ⟨c', hc', ?_, hlast, fun again => ?_⟩
    · cases hout.symm.trans hc'
      obtain ⟨hblack, houtside⟩ := resetFb_pixels hfits hsmall (nextLine g scaleFactor c)
      have hshown : Shows g under Terminal.erased
          (resetFb g (nextLine g scaleFactor c)).canvas.memory := by
        constructor
        · intro row hrow column hcolumn k hk
          rw [hblack row hrow column hcolumn k hk, pixel_erased]
          rfl
        · intro a hframe hcell
          rw [houtside a hframe, hnext a hcell]
          exact hshows.kept a hframe hcell
      refine ⟨hinv, ?_, ?_, hx, hy', ?_⟩
      · cases intstate <;> exact hforeground
      · cases intstate <;> exact hbackground
      · rw [restoreInterrupts_canvas]
        exact hshown.move hsmall hfits fun a ha => setY_offCell 0 ha
    · rw [Terminal.feed, if_neg (Nat.not_lt.mpr hlast)]
  · left
    have hout := @newline2_fits g scaleFactor c intstate (by omega) (by omega)
      (Nat.lt_of_not_le hfull)
    rcases newline2_spec hfits hsmall hline intstate with ⟨c', hc', hinv⟩ | ⟨c', hc', -⟩
    swap
    · cases hc'.symm.trans hout
    refine ⟨c', hc', fun again => ?_⟩
    cases hout.symm.trans hc'
    have hroom : t.y + 1 < textRows g := by
      unfold textRows
      omega
    rw [Terminal.feed, if_pos hroom]
    refine ⟨hinv, ?_, ?_, ?_, ?_, ?_⟩
    · cases intstate <;> exact hforeground
    · cases intstate <;> exact hbackground
    · rw [restoreInterrupts_x, nextLine_x]
    · rw [restoreInterrupts_y, nextLine_y (by omega), hy, hscale]
    · rw [restoreInterrupts_canvas]
      exact (hshows.move hsmall hfits hnext).of_cells rfl rfl

def drawnAt (g : Geometry) (ch : UInt8) (c : Console) : Console :=
  { disableInterrupts c.interrupts c with
    canvas := fbConDrawglyph c.foreground c.background (cellAddress g (c.x g) (c.y g)) g.gWidth
      (g.gBpp / 8) (glyphWord ch 0) (glyphWord ch 1) scaleFactor c.canvas }

theorem drawnAt_lineInv (hfits : Fits g scaleFactor)
    (hsmall : g.gWidth * g.gHeight * g.gBpp < 4294967296) (ch : UInt8)
    (h : CursorInv g scaleFactor c) :
    LineInv g scaleFactor (drawnAt g ch c) ∧ (drawnAt g ch c).x g = c.x g ∧
      (drawnAt g ch c).y g = c.y g := by
  have hplotted := fbConDrawglyph_plotted c.foreground c.background (g.gBpp / 8) scaleFactor
    (cellAddress g (c.x g) (c.y g)) g.gWidth (glyphWord ch 0) (glyphWord ch 1) c.canvas
  have hglyph := fun d hd => glyph_inFrame hfits h.x_lt h.y_lt (d := d) hd
  obtain ⟨hx, hy⟩ := @cursor_of_plotted g c (drawnAt g ch c) hsmall _ _ _ hplotted hglyph
  refine ⟨⟨?_, ?_, ?_, ?_⟩, hx, hy⟩
  · exact (disableInterrupts_maxX c c.interrupts).trans h.maxX
  · exact (disableInterrupts_maxY c c.interrupts).trans h.maxY
  · rw [hy]
    exact h.y_lt
  · exact @stores_of_plotted g c (drawnAt g ch c) _ _ _ hplotted hglyph h.inFrame

theorem paintPass_drawnAt {ch : UInt8} (junk : Bool) (hhigh : ¬ 127 < ch.toNat)
    (hcontrol : ¬ ch.toNat < 32) (hspace : ¬ (c.x g = 0 ∧ ch = 0x20)) :
    paintPass g scaleFactor ch .commonMsg (junk, c) =
      let c₁ := drawnAt g ch c
      if intn (toUint32 (c₁.x g + 1)) ≥ intn (c₁.maxX / scaleFactor) then
        some (newline2 g scaleFactor c.interrupts (c₁.setX g (c₁.x g + 1)))
      else some (.inr (restoreInterrupts c.interrupts (c₁.setX g (c₁.x g + 1)))) := by
  have hspace' : ¬ (c.x g = 0 ∧ ch = 0x20 ∧ FbConMsgType.commonMsg ≠ .subtitleMsg ∧
      FbConMsgType.commonMsg ≠ .titleMsg) := fun h => hspace ⟨h.1, h.2.1⟩
  obtain ⟨word0, hword0⟩ := font5x12_lookup (Nat.le_of_not_lt hhigh) 0 (by decide)
  obtain ⟨word1, hword1⟩ := font5x12_lookup (Nat.le_of_not_lt hhigh) 1 (by decide)
  have hglyph0 : glyphWord ch 0 = word0 := by rw [glyphWord, hword0, Option.getD_some]
  have hglyph1 : glyphWord ch 1 = word1 := by rw [glyphWord, hword1, Option.getD_some]
  rw [paintPass, if_neg hhigh, if_neg hcontrol, if_neg hspace']
  rw [Nat.add_zero] at hword0
  simp only [disableInterrupts_x, disableInterrupts_y, disableInterrupts_canvas,
    disableInterrupts_foreground, disableInterrupts_background, hword0, hword1,
    Option.bind_eq_bind, Option.bind_some, x_setX, drawnAt, hglyph0, hglyph1]
  rfl

theorem drawnAt_shows (hfits : Fits g scaleFactor)
    (hsmall : g.gWidth * g.gHeight * g.gBpp < 4294967296) (ch : UInt8)
    (h : Renders g under foreground background t c) :
    Shows g under (t.put ⟨ch, foreground, background⟩) (drawnAt g ch c).canvas.memory := by
  obtain ⟨hcursor, hforeground, hbackground, hx, hy, hshows⟩ := h
  have hx_lt : t.x < textColumns g := by
    have hlt := hcursor.x_lt
    rw [show scaleFactor = 1 from rfl, Nat.div_one, hx] at hlt
    exact hlt
  have hy_lt : t.y < textRows g := hy ▸ hcursor.y_lt
  obtain ⟨hpixels, houtside⟩ := drawGlyph_pixels hfits hsmall hx_lt hy_lt foreground background
    (glyphWord ch 0) (glyphWord ch 1) c.canvas
  have hmemory : (drawnAt g ch c).canvas = fbConDrawglyph foreground background
      (cellAddress g t.x t.y) g.gWidth (g.gBpp / 8) (glyphWord ch 0) (glyphWord ch 1) scaleFactor
      c.canvas := by
    rw [← hx, ← hy, ← hforeground, ← hbackground]
    rfl
  rw [hmemory]
  constructor
  · intro row hrow column hcolumn k hk
    rw [hpixels row hrow column hcolumn k hk]
    rw [Terminal.pixel, Terminal.put]
    dsimp only
    by_cases hcell : row / 12 = t.y ∧ column / 6 = t.x
    · by_cases hwithin : column % 6 < 5
      · rw [if_pos ⟨hcell.1, hcell.2, hwithin⟩, if_pos hcell, if_pos hwithin]
        rfl
      · rw [if_neg fun hall => hwithin hall.2.2, if_neg hwithin,
          hshows.pixels row hrow column hcolumn k hk, Terminal.pixel, if_neg hwithin]
    · rw [if_neg fun hall => hcell ⟨hall.1, hall.2.1⟩, if_neg hcell,
        hshows.pixels row hrow column hcolumn k hk, Terminal.pixel]
  · intro a hframe hcell
    rw [houtside a hframe]
    exact hshows.kept a hframe hcell

/-- A pass from `paint` on types the character, or leaves it to be typed on the erased screen. -/
theorem paintPass_renders (hfits : Fits g scaleFactor)
    (hsmall : g.gWidth * g.gHeight * g.gBpp < 4294967296) (ch : UInt8) (junk : Bool)
    (h : Renders g under foreground background t c) :
    (∃ c', paintPass g scaleFactor ch .commonMsg (junk, c) = some (.inr c') ∧ ∀ again,
      Renders g under foreground background
        (t.type (textRows g) (textColumns g) ⟨ch, foreground, background⟩ again) c') ∨
    ∃ intstate c', paintPass g scaleFactor ch .commonMsg (junk, c) = some (.inl (intstate, c')) ∧
      Renders g under foreground background Terminal.erased c' ∧ textRows g ≤ t.y + 1 ∧
      ∀ again, t.type (textRows g) (textColumns g) ⟨ch, foreground, background⟩ again =
        again Terminal.erased := by
  obtain ⟨hcursor, hforeground, hbackground, hx, hy, hshows⟩ := h
  by_cases hlf : ch = 0x0a
  · have hpass : paintPass g scaleFactor ch .commonMsg (junk, c) =
        some (newline2 g scaleFactor junk c) := by
      rw [hlf]
      exact paintPass_newline junk
    rcases newline2_renders hfits hsmall hcursor.toLineInv hforeground hbackground hy hshows junk
      with ⟨c', hout, hrenders⟩ | ⟨c', hout, hrenders, hlast, hagain⟩
    · refine .inl ⟨c', hpass.trans (congrArg some hout), fun again => ?_⟩
      rw [Terminal.type, if_pos hlf]
      exact hrenders again
    · refine .inr ⟨junk, c', hpass.trans (congrArg some hout), hrenders, hlast, fun again => ?_⟩
      rw [Terminal.type, if_pos hlf]
      exact hagain again
  by_cases hcr : ch = 0x0d
  · refine .inl ⟨c.setX g 0, ?_, fun again => ?_⟩
    · rw [paintPass, if_neg (by rw [hcr]; decide), if_pos (by rw [hcr]; decide), if_neg hlf,
        if_pos hcr]
    · rw [Terminal.type, if_neg hlf, if_pos hcr]
      refine ⟨hcursor.toLineInv.cursorInv_setX hfits.cells_pos, hforeground, hbackground,
        x_setX g c 0, (y_setX g c 0).trans hy, ?_⟩
      exact (hshows.move hsmall hfits fun a ha => setX_offCell 0 ha).of_cells rfl rfl
  by_cases hskip : ch.toNat < 32 ∨ 127 < ch.toNat ∨ (c.x g = 0 ∧ ch = 0x20)
  · refine .inl ⟨c, ?_, fun again => ?_⟩
    · rcases hskip with hcontrol | hhigh | hspace
      · rw [paintPass, if_neg (by omega), if_pos hcontrol, if_neg hlf, if_neg hcr]
      · rw [paintPass, if_pos hhigh]
      · rw [paintPass, if_neg (by rw [hspace.2]; decide), if_neg (by rw [hspace.2]; decide),
          if_pos ⟨hspace.1, hspace.2, by decide, by decide⟩]
    · rw [Terminal.type, if_neg hlf, if_neg hcr, if_pos (hx ▸ hskip)]
      exact ⟨hcursor, hforeground, hbackground, hx, hy, hshows⟩
  have hshown := drawnAt_shows hfits hsmall ch ⟨hcursor, hforeground, hbackground, hx, hy, hshows⟩
  have htype : ∀ again, t.type (textRows g) (textColumns g) ⟨ch, foreground, background⟩ again =
      if t.x + 1 < textColumns g then t.put ⟨ch, foreground, background⟩
      else (t.put ⟨ch, foreground, background⟩).feed (textRows g) again := by
    intro again
    rw [Terminal.type, if_neg hlf, if_neg hcr, if_neg (hx ▸ hskip)]
  simp only [not_or] at hskip
  have hpass := paintPass_drawnAt (c := c) junk hskip.2.1 hskip.1 hskip.2.2
  obtain ⟨hline, hdrawn_x, hdrawn_y⟩ := drawnAt_lineInv hfits hsmall ch hcursor
  generalize hdrawn : drawnAt g ch c = c₁ at hpass hshown hline hdrawn_x hdrawn_y
  have hink : c₁.foreground = foreground ∧ c₁.background = background := by
    rw [← hdrawn, ← hforeground, ← hbackground]
    exact ⟨disableInterrupts_foreground c c.interrupts, disableInterrupts_background c c.interrupts⟩
  have hwidth := g.gWidth_lt
  have hx_lt : c₁.x g < g.gWidth / 6 / scaleFactor := hdrawn_x ▸ hcursor.x_lt
  have hmoved : Shows g under (t.put ⟨ch, foreground, background⟩)
      (c₁.setX g (c₁.x g + 1)).canvas.memory :=
    hshown.move hsmall hfits fun a ha => setX_offCell _ ha
  have hcolumns : g.gWidth / 6 / scaleFactor = textColumns g := Nat.div_one _
  rw [hcolumns] at hx_lt
  unfold textColumns at hx_lt hcolumns
  dsimp only at hpass
  rw [toUint32_of_lt (by omega), hline.maxX, hcolumns, intn_of_lt (by omega),
    intn_of_lt (by omega)] at hpass
  by_cases hroom : t.x + 1 < textColumns g
  · have hstay : c₁.x g + 1 < g.gWidth / 6 / scaleFactor := by
      rw [hcolumns, hdrawn_x, hx]
      exact hroom
    refine .inl ⟨_, hpass.trans (if_neg ?_), fun again => ?_⟩
    · rw [hcolumns] at hstay
      omega
    · rw [htype, if_pos hroom]
      refine Renders.restore ⟨hline.cursorInv_setX hstay, hink.1, hink.2, ?_, ?_, hmoved⟩
      · rw [x_setX, hdrawn_x, hx, toUint32_of_lt]
        · rfl
        · unfold textColumns at hroom
          omega
      · rw [y_setX, hdrawn_y, hy]
        rfl
  · have hfull : ((c₁.x g + 1 : ℕ) : ℤ) ≥ (g.gWidth / 6 : ℕ) := by
      unfold textColumns at hroom
      omega
    rw [if_pos hfull] at hpass
    have hput_y : (c₁.setX g (c₁.x g + 1)).y g = (t.put ⟨ch, foreground, background⟩).y := by
      rw [y_setX, hdrawn_y, hy]
      rfl
    rcases newline2_renders hfits hsmall (hline.setX _) hink.1 hink.2 hput_y hmoved c.interrupts
      with ⟨c', hout, hrenders⟩ | ⟨c', hout, hrenders, hlast, hagain⟩
    · refine .inl ⟨c', hpass.trans (congrArg some hout), fun again => ?_⟩
      rw [htype, if_neg hroom]
      exact hrenders again
    · refine .inr ⟨_, c', hpass.trans (congrArg some hout), hrenders, hlast, fun again => ?_⟩
      rw [htype, if_neg hroom]
      exact hagain again

theorem fbConPutChar_renders (hfits : Fits g scaleFactor)
    (hsmall : g.gWidth * g.gHeight * g.gBpp < 4294967296) {fuel : ℕ} (enough : 2 ≤ fuel)
    (ch : UInt8)
    (junk : Bool) (h : Renders g under foreground background t c) :
    ∃ c', fbConPutCharWithFactor g scaleFactor fuel c ⟨ch, .commonMsg, junk⟩ = some c' ∧
      Renders g under foreground background
        (t.print (textRows g) (textColumns g) ⟨ch, foreground, background⟩) c' := by
  obtain ⟨fuel, rfl⟩ : ∃ k, fuel = k + 1 + 1 := ⟨fuel - 2, by omega⟩
  rcases paintPass_renders hfits hsmall ch junk h with
    ⟨c', hpass, hrenders⟩ | ⟨intstate, c₁, hpass, herased, -, hagain⟩
  · exact ⟨c', loop_done _ hpass, hrenders _⟩
  · -- the second pass starts on the first line, so it finds a next one
    rcases paintPass_renders hfits hsmall ch intstate herased with
      ⟨c', hsecond, hrenders⟩ | ⟨-, -, -, -, hlast, -⟩
    · refine ⟨c', (loop_next _ hpass).trans (loop_done _ hsecond), ?_⟩
      rw [Terminal.print, hagain]
      exact hrenders id
    · have hlines := hfits.lines
      rw [show scaleFactor = 1 from rfl] at hlines
      unfold textRows at hlast
      change _ ≤ 0 + 1 at hlast
      omega

def Terminal.printAll (g : Geometry) (foreground background : ℕ) (bytes : List UInt8)
    (t : Terminal) : Terminal :=
  bytes.foldl (fun t ch => t.print (textRows g) (textColumns g) ⟨ch, foreground, background⟩) t

theorem putChars_renders (hfits : Fits g scaleFactor)
    (hsmall : g.gWidth * g.gHeight * g.gBpp < 4294967296) {fuel : ℕ} (enough : 2 ≤ fuel)
    (buffer : List (UInt8 × Bool)) (h : Renders g under foreground background t c) :
    ∃ c', putChars g scaleFactor fuel (bufferCalls buffer) c = some c' ∧
      Renders g under foreground background
        (t.printAll g foreground background (buffer.map Prod.fst)) c' := by
  induction buffer generalizing c t with
  | nil => exact ⟨c, rfl, h⟩
  | cons byte buffer ih =>
      obtain ⟨c₁, hcall, hfirst⟩ := fbConPutChar_renders hfits hsmall enough byte.1 byte.2 h
      obtain ⟨c', hcalls, hrest⟩ := ih hfirst
      refine ⟨c', ?_, hrest⟩
      rw [bufferCalls, List.map_cons, putChars, List.foldlM_cons, hcall]
      exact hcalls

/-! ## Runs of writes -/

/-- A call of one of the two write functions, with the bytes of its buffer and what the
uninitialised local holds at each of them. -/
structure Write where
  critical : Bool
  buffer : List (UInt8 × Bool)

def Write.run (g : Geometry) (fuel : ℕ) (w : Write) (c : Console) : Option Console :=
  if w.critical then serialPortWriteCritical g fuel w.buffer c
  else serialPortWrite g fuel w.buffer c

/-- A critical message is typed in yellow, the others as the console was set up. -/
def Terminal.write (g : Geometry) (foreground background : ℕ) (t : Terminal) (w : Write) :
    Terminal :=
  t.printAll g (if w.critical then fbBgra8888Yellow else foreground) background
    (w.buffer.map Prod.fst)

theorem Renders.disable (h : Renders g under foreground background t c) :
    Renders g under foreground background t (disableInterrupts c.interrupts c) := by
  obtain ⟨hcursor, hforeground, hbackground, hx, hy, hshows⟩ := h
  refine ⟨?_, ?_, ?_, ?_, ?_, ?_⟩
  · apply hcursor.congr <;> simp
  · rw [disableInterrupts_foreground, hforeground]
  · rw [disableInterrupts_background, hbackground]
  · rw [disableInterrupts_x, hx]
  · rw [disableInterrupts_y, hy]
  · rw [disableInterrupts_canvas]
    exact hshows

theorem Renders.recolor (h : Renders g under foreground background t c) (color : ℕ) :
    Renders g under color background t { c with foreground := color } :=
  ⟨h.cursor.congr rfl rfl rfl, rfl, h.background_eq, h.x_eq, h.y_eq, h.shows⟩

theorem write_renders (hfits : Fits g scaleFactor)
    (hsmall : g.gWidth * g.gHeight * g.gBpp < 4294967296) {fuel : ℕ} (enough : 2 ≤ fuel) (w : Write)
    (h : Renders g under foreground background t c) :
    ∃ c', w.run g fuel c = some c' ∧
      Renders g under foreground background (t.write g foreground background w) c' := by
  rw [Write.run, Terminal.write]
  by_cases hcritical : w.critical = true
  · rw [if_pos hcritical, if_pos hcritical]
    obtain ⟨c₁, hrun, hrenders⟩ :=
      putChars_renders hfits hsmall enough w.buffer (h.disable.recolor fbBgra8888Yellow)
    refine ⟨restoreInterrupts c.interrupts _, ?_, (hrenders.recolor foreground).restore⟩
    rw [serialPortWriteCritical]
    dsimp only
    rw [hrun, ← h.foreground_eq]
    rfl
  · rw [if_neg hcritical, if_neg hcritical]
    obtain ⟨c₁, hrun, hrenders⟩ := putChars_renders hfits hsmall enough w.buffer h.disable
    refine ⟨restoreInterrupts c.interrupts _, ?_, hrenders.restore⟩
    rw [serialPortWrite]
    rw [hrun]
    rfl

theorem writes_renders (hfits : Fits g scaleFactor)
    (hsmall : g.gWidth * g.gHeight * g.gBpp < 4294967296) {fuel : ℕ} (enough : 2 ≤ fuel)
    (writes : List Write) (h : Renders g under foreground background t c) :
    ∃ c', writes.foldlM (fun c w => w.run g fuel c) c = some c' ∧
      Renders g under foreground background
        (writes.foldl (fun t w => t.write g foreground background w) t) c' := by
  induction writes generalizing c t with
  | nil => exact ⟨c, rfl, h⟩
  | cons w writes ih =>
      obtain ⟨c₁, hwrite, hfirst⟩ := write_renders hfits hsmall enough w h
      obtain ⟨c', hwrites, hrest⟩ := ih hfirst
      refine ⟨c', ?_, hrest⟩
      rw [List.foldlM_cons, hwrite]
      exact hwrites

theorem fresh_renders (hfits : Fits g scaleFactor) (h : AtOrigin g c) :
    Renders g c.canvas.memory c.foreground c.background Terminal.fresh c := by
  refine ⟨h.cursorInv hfits, rfl, rfl, h.x, h.y, ?_, fun _ _ _ => rfl⟩
  intro row hrow column hcolumn k hk
  have hblank : Terminal.fresh.pixel row column = none := by
    rw [Terminal.pixel]
    split <;> rfl
  rw [hblank]
  rfl

end MuTegra.Screen.TextScreen
