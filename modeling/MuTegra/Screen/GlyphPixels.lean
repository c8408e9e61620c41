/- Unit: MuTegra/Screen/GlyphPixels
   source: NvidiaPkg/Library/FrameBufferSerialPortLib/FrameBufferSerialPortLib.c
   digest: Each pixel of a drawn glyph has the colour its bit says, and nothing else changes. -/

import MuTegra.Foundation.Inking
import MuTegra.Screen.Glyph

set_option autoImplicit false
set_option relaxedAutoImplicit false

namespace MuTegra.Screen.GlyphPixels

open MuTegra.Foundation.Inking
open MuTegra.Foundation.MachineWords
open MuTegra.Foundation.Plotting
open MuTegra.Screen.Framebuffer
open MuTegra.Screen.Glyph

def colorByte (color k : ℕ) : UInt8 := UInt8.ofNat (color >>> (8 * k))

/-- The word of a glyph that holds a row of pixels, and the bit for a pixel. -/
def glyphBit (word0 word1 scale r c : ℕ) : Bool :=
  (if r / (6 * scale) = 0 then word0 else word1).testBit (5 * (r / scale % 6) + c / scale)

/-- Where byte `k` of the pixel in row `r` and column `c` lies. -/
def byteAddress (pixels stride bpp r c k : ℕ) : ℕ :=
  toUint32 (pixels + ((r * stride + c) * bpp + k))

/-- No other byte of the glyph's rectangle lies at this one's address. -/
def Alone (pixels stride bpp scale r c k : ℕ) : Prop :=
  ∀ r' < fontHeight * scale, ∀ c' < fontWidth * scale, ∀ k' < bpp,
    byteAddress pixels stride bpp r' c' k' = byteAddress pixels stride bpp r c k →
      r' = r ∧ c' = c ∧ k' = k

structure GlyphDrawn (before after : ℕ → UInt8)
    (foreground background pixels stride bpp word0 word1 scale : ℕ) : Prop where
  /-- An address that several bytes share, which no rectangle that fits has, is left open. -/
  drawn : ∀ r < fontHeight * scale, ∀ c < fontWidth * scale, ∀ k < bpp,
    Alone pixels stride bpp scale r c k →
      after (byteAddress pixels stride bpp r c k) =
        colorByte (if glyphBit word0 word1 scale r c then foreground else background) k
  kept : ∀ a, (∀ r < fontHeight * scale, ∀ c < fontWidth * scale, ∀ k < bpp,
    a ≠ byteAddress pixels stride bpp r c k) → after a = before a
  alone : ((fontHeight * scale - 1) * stride + fontWidth * scale) * bpp ≤ 4294967296 →
    ∀ r < fontHeight * scale, ∀ c < fontWidth * scale, ∀ k < bpp,
      Alone pixels stride bpp scale r c k

def pixelInk (color bpp : ℕ) : Ink := spread bpp 1 fun k e b => e = 0 ∧ b = colorByte color k

/-- A row of pixels, those of the columns in `set`. -/
def rowInk (set : ℕ → Prop) (color bpp scale : ℕ) : Ink :=
  spread (fontWidth * scale) bpp fun c d b => set (c / scale) ∧ pixelInk color bpp d b

/-- The screen rows of a glyph, in each row the pixels of the columns in `set`. -/
def rowsInk (set : ℕ → ℕ → Prop) (color bpp scale width rows : ℕ) : Ink :=
  spread rows width fun r => rowInk (set r) color bpp scale

variable (color stride bpp scale : ℕ)

theorem paintPixel_inked (pen : Pen) :
    (paintPixel color bpp pen).data = pen.data ∧
      Inked pen (paintPixel color bpp pen) bpp (pixelInk color bpp) := by
  let reads (i : ℕ) (s : Pen) : Prop := s.color = color >>> (8 * i) ∧ s.data = pen.data
  have hbyte : ∀ i s, reads i s → reads (i + 1) (paintByte s) ∧
      Inked s (paintByte s) 1 (fun e b => e = 0 ∧ b = colorByte color i) := by
    rintro i s ⟨hcolor, hdata⟩
    refine ⟨⟨?_, hdata⟩, rfl, ?_⟩
    · change s.color >>> 8 = _
      rw [hcolor, ← Nat.shiftRight_add]
      rfl
    · have hput := Inks.put s.canvas s.pointer (UInt8.ofNat s.color)
      rw [hcolor] at hput
      change Inks s.canvas (s.canvas.put s.pointer (UInt8.ofNat s.color)) s.pointer _
      rw [hcolor]
      exact hput
  obtain ⟨⟨-, hdata⟩, hadvance, hinks⟩ :=
    Inked.iterate reads hbyte (s := { pen with color := color }) ⟨rfl, rfl⟩ bpp
  rw [Nat.mul_one] at hadvance
  exact ⟨hdata, hadvance, hinks⟩

theorem paintRun_inked (pen : Pen) :
    ((paintPixel color bpp)^[scale] pen).data = pen.data ∧
      Inked pen ((paintPixel color bpp)^[scale] pen) (scale * bpp)
        (spread scale bpp fun _ => pixelInk color bpp) := by
  apply Inked.iterate (fun _ (s : Pen) => s.data = pen.data)
  · intro i s hdata
    obtain ⟨hkept, hinked⟩ := paintPixel_inked color bpp s
    exact ⟨hkept.trans hdata, hinked⟩
  · rfl

theorem skipRun_advance (pen : Pen) :
    (skipPixel bpp)^[scale] pen = { pen with pointer := pen.pointer + scale * bpp } := by
  induction scale with
  | zero => simp
  | succ scale ih =>
      rw [Function.iterate_succ_apply', ih, skipPixel, Nat.succ_mul, Nat.add_assoc]

theorem columns_row (set : ℕ → Prop) (d : ℕ) (b : UInt8) :
    spread fontWidth (scale * bpp)
        (fun x d b => set x ∧ spread scale bpp (fun _ => pixelInk color bpp) d b) d b ↔
      rowInk set color bpp scale d b := by
  rw [spread_congr fun x _ e => and_spread]
  exact spread_spread fun x _ d b => set x ∧ pixelInk color bpp d b

theorem lines_rows (set : ℕ → ℕ → Prop) (width lines d : ℕ) (b : UInt8) :
    spread lines (scale * width)
        (fun y => spread scale width fun _ => rowInk (set y) color bpp scale) d b ↔
      rowsInk (fun r => set (r / scale)) color bpp scale width (lines * scale) d b :=
  spread_spread fun y _ => rowInk (set y) color bpp scale

theorem eraseRow_inked (pen : Pen) :
    Inked pen (eraseRow color stride bpp scale pen) (pitch stride bpp scale)
      (rowInk (fun _ => True) color bpp scale) := by
  have hcolumns := (Inked.iterate (fun _ _ => True)
    (fun _ s _ => ⟨trivial, (paintRun_inked color bpp scale s).2⟩)
    (s := pen) trivial fontWidth).2
  have hrow := hcolumns.congr fun d b =>
    (spread_congr fun _ _ _ => Iff.symm (and_iff_right trivial)).trans
      (columns_row color bpp scale (fun _ => True) d b)
  exact hrow.skip (m := stride * bpp) rfl rfl

theorem eraseHalf_inked (pen : Pen) :
    Inked pen (eraseHalf color stride bpp scale pen)
      (fontHeight / 2 * scale * pitch stride bpp scale)
      (rowsInk (fun _ _ => True) color bpp scale (pitch stride bpp scale)
        (fontHeight / 2 * scale)) := by
  have hline (s : Pen) : Inked s ((eraseRow color stride bpp scale)^[scale] s)
      (scale * pitch stride bpp scale) (spread scale (pitch stride bpp scale)
        fun _ => rowInk (fun _ => True) color bpp scale) := by
    apply And.right
    apply Inked.iterate (fun _ _ => True)
    · exact fun _ s _ => ⟨trivial, eraseRow_inked color stride bpp scale s⟩
    · trivial
  have hlines := (Inked.iterate (fun _ _ => True) (fun _ s _ => ⟨trivial, hline s⟩)
    (s := pen) trivial (fontHeight / 2)).2
  rw [← Nat.mul_assoc] at hlines
  exact hlines.congr fun d b => lines_rows color bpp scale (fun _ _ => True) _ _ d b

/-- A column is drawn by the low bit of what is left of the row's data. -/
theorem drawColumn_inked (temp x : ℕ) (pen : Pen) (hdata : pen.data = temp >>> x) :
    (drawColumn color bpp scale pen).data = temp >>> (x + 1) ∧
      Inked pen (drawColumn color bpp scale pen) (scale * bpp) (fun d b =>
        temp.testBit x ∧ spread scale bpp (fun _ => pixelInk color bpp) d b) := by
  have hbit : pen.data &&& 1 ≠ 0 ↔ temp.testBit x = true := by
    rw [hdata, Nat.testBit, Nat.and_comm, bne_iff_ne]
  have hshift : pen.data >>> 1 = temp >>> (x + 1) := by
    rw [hdata, Nat.shiftRight_add]
  rw [drawColumn]
  by_cases hset : temp.testBit x = true
  · rw [if_pos (hbit.mpr hset)]
    obtain ⟨hkept, hadvance, hinks⟩ := paintRun_inked color bpp scale pen
    refine ⟨?_, hadvance, hinks.congr fun d b => ?_⟩
    · rw [← hshift, ← hkept]
    · exact ⟨fun h => ⟨hset, h⟩, fun h => h.2⟩
  · rw [if_neg (fun h => hset (hbit.mp h)), skipRun_advance]
    refine ⟨hshift, rfl, (Inks.refl _ _).congr fun d b => ?_⟩
    exact ⟨False.elim, fun h => hset h.1⟩

theorem drawRow_inked (temp : ℕ) (pen : Pen) :
    (drawRow color stride bpp scale temp pen).data = temp >>> fontWidth ∧
      Inked pen (drawRow color stride bpp scale temp pen) (pitch stride bpp scale)
        (rowInk (fun x => temp.testBit x = true) color bpp scale) := by
  obtain ⟨hdata, hcolumns⟩ := Inked.iterate (fun x (s : Pen) => s.data = temp >>> x)
    (fun x s hs => drawColumn_inked color bpp scale temp x s hs)
    (s := { pen with data := temp }) rfl fontWidth
  refine ⟨hdata, ?_⟩
  have hrow := hcolumns.congr fun d b =>
    columns_row color bpp scale (fun x => temp.testBit x = true) d b
  exact Inked.skip (s := pen) ⟨hrow.advance, hrow.inks⟩ rfl rfl

theorem drawLine_inked (hscale : 1 ≤ scale) (temp : ℕ) (pen : Pen) (hdata : pen.data = temp) :
    (drawLine color stride bpp scale pen).data = temp >>> fontWidth ∧
      Inked pen (drawLine color stride bpp scale pen) (scale * pitch stride bpp scale)
        (spread scale (pitch stride bpp scale)
          fun _ => rowInk (fun x => temp.testBit x = true) color bpp scale) := by
  rw [drawLine, hdata]
  obtain ⟨hread, hinked⟩ := Inked.iterate
    (fun i (s : Pen) => 1 ≤ i → s.data = temp >>> fontWidth)
    (fun _ s _ =>
      have hrow := drawRow_inked color stride bpp scale temp s
      ⟨fun _ => hrow.1, hrow.2⟩)
    (s := pen) (fun h => absurd h (Nat.not_lt_zero 0)) scale
  exact ⟨hread hscale, hinked⟩

theorem drawHalf_inked (hscale : 1 ≤ scale) (word : ℕ) (pen : Pen) :
    Inked pen (drawHalf color stride bpp scale word pen)
      (fontHeight / 2 * scale * pitch stride bpp scale)
      (rowsInk (fun r x => word.testBit (fontWidth * (r / scale) + x) = true) color bpp scale
        (pitch stride bpp scale) (fontHeight / 2 * scale)) := by
  obtain ⟨-, hlines⟩ := Inked.iterate (fun y (s : Pen) => s.data = word >>> (fontWidth * y))
    (fun y s hs => drawLine_inked color stride bpp scale hscale _ s hs)
    (s := { pen with data := word }) rfl (fontHeight / 2)
  rw [← Nat.mul_assoc] at hlines
  have hrows := hlines.congr fun d b => lines_rows color bpp scale
    (fun y x => (word >>> (fontWidth * y)).testBit x = true) _ _ d b
  simp only [Nat.testBit_shiftRight] at hrows
  exact ⟨hrows.advance, hrows.inks⟩

theorem rowsInk_then (set set' : ℕ → ℕ → Prop) (width rows rows' d : ℕ) (b : UInt8) :
    (rowsInk set color bpp scale width rows).then (rows * width)
        (rowsInk set' color bpp scale width rows') d b ↔
      rowsInk (fun r => if r < rows then set r else set' (r - rows)) color bpp scale width
        (rows + rows') d b := by
  refine then_spread.trans (spread_congr fun r _ e => ?_)
  by_cases hfirst : r < rows
  · simp only [if_pos hfirst]
  · simp only [if_neg hfirst]

theorem rowsInk_iff (set : ℕ → ℕ → Prop) (rows d : ℕ) (b : UInt8) :
    rowsInk set color bpp scale (stride * bpp) rows d b ↔
      ∃ r < rows, ∃ c < fontWidth * scale, ∃ k < bpp,
        set r (c / scale) ∧ d = (r * stride + c) * bpp + k ∧ b = colorByte color k := by
  constructor
  · rintro ⟨r, hr, -, ⟨c, hc, -, ⟨hset, k, hk, -, ⟨rfl, hb⟩, rfl⟩, rfl⟩, rfl⟩
    exact ⟨r, hr, c, hc, k, hk, hset, by ring, hb⟩
  · rintro ⟨r, hr, c, hc, k, hk, hset, rfl, hb⟩
    exact ⟨r, hr, c * bpp + k, ⟨c, hc, k, ⟨hset, k, hk, 0, ⟨rfl, hb⟩, by ring⟩, rfl⟩, by ring⟩

theorem halves_bit {word0 word1 scale r c : ℕ} (hr : r < fontHeight * scale) :
    (if r < fontHeight / 2 * scale then
        fun x => word0.testBit (fontWidth * (r / scale) + x) = true
      else fun x => word1.testBit (fontWidth * ((r - fontHeight / 2 * scale) / scale) + x) = true)
      (c / scale) ↔ glyphBit word0 word1 scale r c = true := by
  have hheight : fontHeight = 12 := rfl
  have hwidth : fontWidth = 5 := rfl
  rw [hheight] at hr
  rw [hheight, hwidth, glyphBit]
  have hscale : 0 < scale := Nat.pos_of_ne_zero (by rintro rfl; simp at hr)
  by_cases hfirst : r < 6 * scale
  · have hhalf : r / (6 * scale) = 0 := Nat.div_eq_of_lt hfirst
    have hrow : r / scale < 6 := (Nat.div_lt_iff_lt_mul hscale).mpr hfirst
    rw [if_pos hfirst, if_pos hhalf, Nat.mod_eq_of_lt hrow]
  · have hhalf : r / (6 * scale) ≠ 0 :=
      Nat.ne_of_gt (Nat.div_pos (Nat.le_of_not_lt hfirst) (by omega))
    have hrow : (r - 6 * scale) / scale = r / scale % 6 := by
      have hbelow : r / scale < 12 := (Nat.div_lt_iff_lt_mul hscale).mpr hr
      have habove : 6 ≤ r / scale :=
        (Nat.le_div_iff_mul_le hscale).mpr (Nat.le_of_not_lt hfirst)
      rw [Nat.mul_comm, Nat.sub_mul_div]
      omega
    rw [if_neg hfirst, if_neg hhalf, hrow]

section Rectangle

variable {foreground background pixels stride bpp word0 word1 scale r c k : ℕ}
  {before middle after canvas : Canvas}

theorem offset_lt {rows columns : ℕ} (hr : r < rows) (hc : c < columns) (hk : k < bpp) :
    (r * stride + c) * bpp + k < ((rows - 1) * stride + columns) * bpp := by
  have hrow : r * stride ≤ (rows - 1) * stride := Nat.mul_le_mul_right _ (by omega)
  calc (r * stride + c) * bpp + k < (r * stride + c) * bpp + bpp := by omega
    _ = (r * stride + c + 1) * bpp := by ring
    _ ≤ ((rows - 1) * stride + columns) * bpp := Nat.mul_le_mul_right _ (by omega)

theorem digits_inj {m a i a' i' : ℕ} (hi : i < m) (hi' : i' < m)
    (h : a' * m + i' = a * m + i) : a' = a ∧ i' = i := by
  have hmod := congrArg (· % m) h
  simp only [Nat.mul_add_mod', Nat.mod_eq_of_lt hi, Nat.mod_eq_of_lt hi'] at hmod
  rw [hmod] at h
  exact ⟨Nat.eq_of_mul_eq_mul_right (by omega) (Nat.add_right_cancel h), hmod⟩

theorem offset_inj {r' c' k' : ℕ} (hc : c < stride) (hk : k < bpp) (hc' : c' < stride)
    (hk' : k' < bpp) (h : (r' * stride + c') * bpp + k' = (r * stride + c) * bpp + k) :
    r' = r ∧ c' = c ∧ k' = k := by
  obtain ⟨hpixel, hbyte⟩ := digits_inj hk hk' h
  obtain ⟨hrow, hcolumn⟩ := digits_inj hc hc' hpixel
  exact ⟨hrow, hcolumn, hbyte⟩

theorem byteAddress_alone (hcolumns : fontWidth * scale ≤ stride)
    (hfits : ((fontHeight * scale - 1) * stride + fontWidth * scale) * bpp ≤ 4294967296)
    (hr : r < fontHeight * scale) (hc : c < fontWidth * scale) (hk : k < bpp) :
    Alone pixels stride bpp scale r c k := by
  intro r' hr' c' hc' k' hk' haddress
  have hin : (r * stride + c) * bpp + k < 4294967296 := (offset_lt hr hc hk).trans_le hfits
  have hin' : (r' * stride + c') * bpp + k' < 4294967296 := (offset_lt hr' hc' hk').trans_le hfits
  have hoffset : (r' * stride + c') * bpp + k' = (r * stride + c) * bpp + k := by
    simp only [byteAddress, toUint32] at haddress
    omega
  exact offset_inj (by omega) hk (by omega) hk' hoffset

theorem inks_pixel {set : ℕ → ℕ → Prop} {color : ℕ}
    (h : Inks before after pixels
      (rowsInk set color bpp scale (stride * bpp) (fontHeight * scale)))
    (halone : Alone pixels stride bpp scale r c k) (hr : r < fontHeight * scale)
    (hc : c < fontWidth * scale) (hk : k < bpp) :
    (set r (c / scale) → after.memory (byteAddress pixels stride bpp r c k) = colorByte color k) ∧
      (¬ set r (c / scale) → after.memory (byteAddress pixels stride bpp r c k) =
        before.memory (byteAddress pixels stride bpp r c k)) := by
  rcases h (byteAddress pixels stride bpp r c k) with ⟨d, hd, ha⟩ | ⟨hnone, hkept⟩
  · obtain ⟨r', hr', c', hc', k', hk', hset, rfl, hb⟩ :=
      (rowsInk_iff color stride bpp scale set _ _ _).mp hd
    obtain ⟨rfl, rfl, rfl⟩ := halone r' hr' c' hc' k' hk' ha.symm
    exact ⟨fun _ => hb, fun hunset => absurd hset hunset⟩
  · refine ⟨fun hset => ?_, fun _ => hkept⟩
    refine absurd rfl (hnone ((r * stride + c) * bpp + k) (colorByte color k) ?_)
    exact (rowsInk_iff color stride bpp scale set _ _ _).mpr ⟨r, hr, c, hc, k, hk, hset, rfl, rfl⟩

theorem inks_kept {set : ℕ → ℕ → Prop} {color a : ℕ}
    (h : Inks before after pixels
      (rowsInk set color bpp scale (stride * bpp) (fontHeight * scale)))
    (ha : ∀ r < fontHeight * scale, ∀ c < fontWidth * scale, ∀ k < bpp,
      a ≠ byteAddress pixels stride bpp r c k) : after.memory a = before.memory a := by
  rcases h a with ⟨d, hd, haddress⟩ | ⟨-, hkept⟩
  · obtain ⟨r, hr, c, hc, k, hk, -, rfl, -⟩ :=
      (rowsInk_iff color stride bpp scale set _ _ _).mp hd
    exact absurd haddress (ha r hr c hc k hk)
  · exact hkept

theorem glyphDrawn_of_inks (hcolumns : fontWidth * scale ≤ stride) {shown : ℕ → ℕ → Prop}
    (herased : Inks before middle pixels (rowsInk (fun _ _ => True) background bpp scale
      (stride * bpp) (fontHeight * scale)))
    (hdrawn : Inks middle after pixels (rowsInk shown foreground bpp scale
      (stride * bpp) (fontHeight * scale)))
    (hshown : ∀ r < fontHeight * scale, ∀ c,
      shown r (c / scale) ↔ glyphBit word0 word1 scale r c = true) :
    GlyphDrawn before.memory after.memory foreground background pixels stride bpp word0 word1
      scale where
  drawn r hr c hc k hk halone := by
    obtain ⟨hset, hunset⟩ := inks_pixel hdrawn halone hr hc hk
    by_cases hbit : glyphBit word0 word1 scale r c = true
    · rw [if_pos hbit]
      exact hset ((hshown r hr c).mpr hbit)
    · rw [if_neg hbit, hunset (fun h => hbit ((hshown r hr c).mp h))]
      exact (inks_pixel herased halone hr hc hk).1 trivial
  kept a ha := (inks_kept hdrawn ha).trans (inks_kept herased ha)
  alone hfits _ hr _ hc _ hk := byteAddress_alone hcolumns hfits hr hc hk

/-- Both halves of a glyph are drawn where both halves were erased. -/
theorem fbConDrawglyph_drawn (hscale : 1 ≤ scale) (hcolumns : 5 * scale ≤ stride)
    (hstride : stride < 4294967296) (foreground background pixels bpp word0 word1 : ℕ)
    (canvas : Canvas) :
    GlyphDrawn canvas.memory
      (fbConDrawglyph foreground background pixels stride bpp word0 word1 scale canvas).memory
      foreground background pixels stride bpp word0 word1 scale := by
  have hpitch := pitch_stride bpp scale hstride hcolumns
  have hheight : fontHeight / 2 * scale + fontHeight / 2 * scale = fontHeight * scale := by
    rw [← Nat.add_mul]
    rfl
  generalize hgap : subUint32 stride (toUint32 (fontWidth * scale)) = gap at hpitch
  rw [fbConDrawglyph, hgap]
  let start : Pen := { canvas := canvas, pointer := pixels, color := background, data := 0 }
  have herased := ((eraseHalf_inked background gap bpp scale start).trans
    (eraseHalf_inked background gap bpp scale _)).inks.congr
      fun d b => rowsInk_then background bpp scale _ _ _ _ _ d b
  simp only [ite_self] at herased
  rw [hpitch, hheight] at herased
  change Inks canvas _ pixels _ at herased
  generalize eraseHalf background gap bpp scale _ = erased at herased ⊢
  have hdrawn := ((drawHalf_inked foreground gap bpp scale hscale word0
    { erased with pointer := pixels }).trans
      (drawHalf_inked foreground gap bpp scale hscale word1 _)).inks.congr
        fun d b => rowsInk_then foreground bpp scale _ _ _ _ _ d b
  rw [hpitch, hheight] at hdrawn
  exact glyphDrawn_of_inks hcolumns herased hdrawn fun r hr c => halves_bit hr

/-- The letter A at twice its size on a screen 1080 pixels wide. -/
theorem doubleSize_drawn :
    GlyphDrawn (fun _ => 0)
      (fbConDrawglyph fbBgra8888White fbBgra8888Black 0x90000000 1080 4 0x2318a880 0x0008c63f 2
        ⟨fun _ => 0, []⟩).memory
      fbBgra8888White fbBgra8888Black 0x90000000 1080 4 0x2318a880 0x0008c63f 2 :=
  fbConDrawglyph_drawn (by decide) (by decide) (by decide) _ _ _ _ _ _ ⟨fun _ => 0, []⟩

end Rectangle

end MuTegra.Screen.GlyphPixels
