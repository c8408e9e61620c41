/- Unit: MuTegra/Screen/Glyph
   source: NvidiaPkg/Library/FrameBufferSerialPortLib/FrameBufferSerialPortLib.c
   digest: Drawing a glyph plots inside its rectangle, clearing the screen on every byte of it. -/

import MuTegra.Screen.Framebuffer

set_option autoImplicit false
set_option relaxedAutoImplicit false

namespace MuTegra.Screen.Glyph

open MuTegra.Foundation.MachineWords
open MuTegra.Foundation.Plotting
open MuTegra.Screen.Framebuffer

@[simp] theorem plotter_canvas (pen : Pen) : Plotter.canvas pen = pen.canvas := rfl

@[simp] theorem plotter_pointer (pen : Pen) : Plotter.pointer pen = pen.pointer := rfl

variable {full : Prop}

theorem paintByte_footprint : Footprint paintByte 1 (· < 1) (· < 1) := by
  refine ⟨fun pen => rfl, fun pen => ⟨[toUint32 pen.pointer], rfl, ?_, ?_, ?_⟩⟩
  · intro d hd
    obtain rfl : d = 0 := by omega
    exact List.mem_singleton_self _
  · intro a ha
    exact ⟨0, Nat.one_pos, List.mem_singleton.mp ha⟩
  · intro a ha
    exact if_neg fun heq => ha (List.mem_singleton.mpr heq)

theorem paintPixel_footprint (color bpp : ℕ) :
    Footprint (paintPixel color bpp) bpp (fun d => True ∧ d < bpp) (· < bpp) := by
  have hbyte : Footprint paintByte 1 (fun d => True ∧ d < 1) (· < 1) :=
    paintByte_footprint.weaken (fun d hd => hd.2) (fun d hd => hd)
  have hbytes := hbyte.iterate_run bpp
  rw [Nat.mul_one] at hbytes
  exact hbytes.prepare (fun pen => { pen with color := color }) (fun _ => rfl) (fun _ => rfl)

theorem skipPixel_footprint (bpp : ℕ) :
    Footprint (skipPixel bpp) bpp (fun d => False ∧ d < bpp) (· < bpp) := by
  have hskip : Footprint (skipPixel bpp) bpp (fun _ => False) (· < bpp) := by
    apply Footprint.of_skip
    · intro pen
      rfl
    · intro pen
      rfl
  exact hskip.weaken (fun _ hd => hd.1) (fun _ hd => hd)

/-- A row of the glyph, then on to the next one: `full` rows leave no byte out. -/
theorem row_footprint {columns : Pen → Pen} {bpp scale width : ℕ} (stride : ℕ)
    (h : Footprint columns (scale * bpp) (fun d => full ∧ d < scale * bpp) (· < scale * bpp))
    (hwidth : width = fontWidth * (scale * bpp)) :
    Footprint (fun pen => nextRow stride bpp (columns^[fontWidth] pen)) (width + stride * bpp)
      (fun d => full ∧ d < width) (· < width) := by
  have hcolumns := h.iterate_run fontWidth
  rw [← hwidth] at hcolumns
  have hskip : Footprint (nextRow stride bpp) (stride * bpp) (fun _ => False) (fun _ => False) := by
    apply Footprint.of_skip
    · intro pen
      rfl
    · intro pen
      rfl
  refine (hcolumns.comp hskip).weaken (fun d hd => .inl hd) ?_
  rintro d (hd | ⟨e, hfalse, -⟩)
  · exact hd
  · exact hfalse.elim

variable (foreground background stride bpp scale : ℕ)

def glyphWidth : ℕ := fontWidth * (scale * bpp)

def pitch : ℕ := glyphWidth bpp scale + stride * bpp

/-- With the stride given to `FbConDrawglyph` in place of the gap, a row is a stride long. -/
theorem pitch_stride {stride : ℕ} (hstride : stride < 4294967296) (hcolumns : 5 * scale ≤ stride) :
    pitch (subUint32 stride (toUint32 (fontWidth * scale))) bpp scale = stride * bpp := by
  rw [show fontWidth = 5 from rfl, toUint32_of_lt (by omega), subUint32_of_le hcolumns hstride]
  calc pitch (stride - 5 * scale) bpp scale
      = 5 * (scale * bpp) + (stride - 5 * scale) * bpp := rfl
    _ = (5 * scale + (stride - 5 * scale)) * bpp := by ring
    _ = stride * bpp := by rw [Nat.add_sub_cancel' hcolumns]

theorem eraseRow_footprint : Footprint (eraseRow background stride bpp scale)
    (pitch stride bpp scale) (fun d => True ∧ d < glyphWidth bpp scale)
    (· < glyphWidth bpp scale) :=
  row_footprint stride ((paintPixel_footprint background bpp).iterate_run scale) rfl

theorem drawColumn_footprint : Footprint (drawColumn foreground bpp scale) (scale * bpp)
    (fun d => False ∧ d < scale * bpp) (· < scale * bpp) := by
  let paint (set : Bool) (pen : Pen) : Pen :=
    if set then (paintPixel foreground bpp)^[scale] pen else (skipPixel bpp)^[scale] pen
  have hpaint : ∀ set, Footprint (paint set) (scale * bpp) (fun d => False ∧ d < scale * bpp)
      (· < scale * bpp) := by
    intro set
    cases set with
    | true =>
        exact ((paintPixel_footprint foreground bpp).iterate_run scale).weaken
          (fun _ hd => hd.1.elim) (fun _ hd => hd)
    | false => exact (skipPixel_footprint bpp).iterate_run scale
  have hchoose := Footprint.choose hpaint fun pen => decide (pen.data &&& 1 ≠ 0)
  have hcolumn : drawColumn foreground bpp scale = fun pen =>
      { paint (decide (pen.data &&& 1 ≠ 0)) pen with
        data := (paint (decide (pen.data &&& 1 ≠ 0)) pen).data >>> 1 } := by
    funext pen
    simp [drawColumn, paint]
  rw [hcolumn]
  exact hchoose.finish (fun pen => { pen with data := pen.data >>> 1 })
    (fun _ => rfl) (fun _ => rfl)

theorem drawRow_footprint (temp : ℕ) : Footprint (drawRow foreground stride bpp scale temp)
    (pitch stride bpp scale) (fun d => False ∧ d < glyphWidth bpp scale)
    (· < glyphWidth bpp scale) :=
  (row_footprint stride (drawColumn_footprint foreground bpp scale) rfl).prepare
    (fun pen => { pen with data := temp }) (fun _ => rfl) (fun _ => rfl)

/-- The offsets of `rows` rows of the glyph. -/
abbrev GlyphRows (rows : ℕ) : ℕ → Prop :=
  Rows rows (pitch stride bpp scale) (· < glyphWidth bpp scale)

/-- Half a glyph: each of its rows `scale` times. -/
theorem half_footprint {line : Pen → Pen}
    (h : Footprint line (scale * pitch stride bpp scale)
      (Rows scale (pitch stride bpp scale) fun d => full ∧ d < glyphWidth bpp scale)
      (GlyphRows stride bpp scale scale)) :
    Footprint line^[fontHeight / 2] (fontHeight / 2 * scale * pitch stride bpp scale)
      (Rows (fontHeight / 2 * scale) (pitch stride bpp scale)
        fun d => full ∧ d < glyphWidth bpp scale)
      (GlyphRows stride bpp scale (fontHeight / 2 * scale)) := by
  have hlines := h.iterate (fontHeight / 2)
  rw [← Nat.mul_assoc] at hlines
  exact hlines.weaken (fun d => (rows_rows d).mpr) (fun d => (rows_rows d).mp)

theorem eraseHalf_footprint : Footprint (eraseHalf background stride bpp scale)
    (fontHeight / 2 * scale * pitch stride bpp scale)
    (Rows (fontHeight / 2 * scale) (pitch stride bpp scale)
      fun d => True ∧ d < glyphWidth bpp scale)
    (GlyphRows stride bpp scale (fontHeight / 2 * scale)) :=
  half_footprint stride bpp scale ((eraseRow_footprint background stride bpp scale).iterate scale)

theorem drawHalf_footprint (word : ℕ) : Footprint (drawHalf foreground stride bpp scale word)
    (fontHeight / 2 * scale * pitch stride bpp scale)
    (Rows (fontHeight / 2 * scale) (pitch stride bpp scale)
      fun d => False ∧ d < glyphWidth bpp scale)
    (GlyphRows stride bpp scale (fontHeight / 2 * scale)) := by
  have hline : Footprint (drawLine foreground stride bpp scale) _ _ _ :=
    Footprint.choose (fun temp => (drawRow_footprint foreground stride bpp scale temp).iterate scale)
      Pen.data
  exact (half_footprint stride bpp scale hline).prepare (fun pen => { pen with data := word })
    (fun _ => rfl) (fun _ => rfl)

theorem fbConDrawglyph_plotted (pixels stride word0 word1 : ℕ) (canvas : Canvas) :
    Plotted canvas
      (fbConDrawglyph foreground background pixels stride bpp word0 word1 scale canvas) pixels
      (GlyphRows (subUint32 stride (toUint32 (fontWidth * scale))) bpp scale (fontHeight * scale))
      (GlyphRows (subUint32 stride (toUint32 (fontWidth * scale))) bpp scale
        (fontHeight * scale)) := by
  have hheight : fontHeight / 2 * scale + fontHeight / 2 * scale = fontHeight * scale := by
    rw [← Nat.add_mul]
    rfl
  generalize hgap : subUint32 stride (toUint32 (fontWidth * scale)) = gap
  rw [fbConDrawglyph, hgap]
  have hfirst := (eraseHalf_footprint background gap bpp scale).comp_rows_plots
    (eraseHalf_footprint background gap bpp scale)
    { canvas := canvas, pointer := pixels, color := background, data := 0 }
  rw [hheight, plotter_canvas, plotter_canvas, plotter_pointer] at hfirst
  generalize eraseHalf background gap bpp scale _ = erased at hfirst ⊢
  have hsecond := (drawHalf_footprint foreground gap bpp scale word0).comp_rows_plots
    (drawHalf_footprint foreground gap bpp scale word1) { erased with pointer := pixels }
  rw [hheight, plotter_canvas, plotter_canvas, plotter_pointer] at hsecond
  generalize drawHalf foreground gap bpp scale word1 _ = drawn at hsecond ⊢
  refine (hfirst.over hsecond).weaken ?_ fun d hd => hd
  rintro d ⟨r, hr, c, hc, hd⟩
  exact ⟨r, hr, c, ⟨trivial, hc⟩, hd⟩

theorem resetFb_plotted (g : Geometry) (c : Console) :
    Plotted c.canvas (resetFb g c).canvas g.displayAddress
      (· < g.gWidth * (g.gHeight * (g.gBpp / 8))) (· < g.gWidth * (g.gHeight * (g.gBpp / 8))) := by
  have hpixels := ((paintPixel_footprint fbBgra8888Black (g.gBpp / 8)).iterate_run
    g.gHeight).iterate_run g.gWidth
  have hplots := hpixels.plots
    { canvas := c.canvas, pointer := g.displayAddress, color := fbBgra8888Black, data := 0 }
  exact hplots.weaken (fun d hd => ⟨trivial, hd⟩) (fun d hd => hd)

end MuTegra.Screen.Glyph
