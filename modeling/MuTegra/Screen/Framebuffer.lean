/- Unit: MuTegra/Screen/Framebuffer
   source: NvidiaPkg/Library/FrameBufferSerialPortLib/FrameBufferSerialPortLib.c, Include/Resources/font5x12.h
   digest: The framebuffer console: glyph drawing, cursor movement and the serial port writes. -/

import MuTegra.Foundation.Loops
import MuTegra.Foundation.Plotting

/-!
`UINTN`, `unsigned` and pointers are 32 bits wide. The cursor lives in memory, in the two
words that `p_Position` points to, so a pixel plotted there would move it. The delay after
a newline and the cache maintenance of `FbConFlush` have no effect on this state.
-/

set_option autoImplicit false
set_option relaxedAutoImplicit false

namespace MuTegra.Screen.Framebuffer

open MuTegra.Foundation.Loops
open MuTegra.Foundation.MachineWords
open MuTegra.Foundation.Plotting

def fontWidth : ℕ := 5
def fontHeight : ℕ := 12
def scaleFactor : ℕ := 1

def fbBgra8888Black : ℕ := 0xff000000
def fbBgra8888White : ℕ := 0xffffffff
def fbBgra8888Yellow : ℕ := 0xffffff00

def font5x12 : List ℕ :=
  [0x00000000, 0x00000000, 0x08421080, 0x00020084, 0x00052940, 0x00000000, 0x15f52800, 0x0000295f,
    0x1c52f880, 0x00023e94, 0x08855640, 0x0004d542, 0x04528800, 0x000b2725, 0x00021080, 0x00000000,
    0x04211088, 0x00821042, 0x10841082, 0x00221108, 0x09575480, 0x00000000, 0x3e420000, 0x00000084,
    0x00000000, 0x00223000, 0x3e000000, 0x00000000, 0x00000000, 0x00471000, 0x08844200, 0x00008442,
    0x2318a880, 0x00022a31, 0x08429880, 0x000f9084, 0x1108c5c0, 0x000f8444, 0x1c4443e0, 0x00074610,
    0x14a62100, 0x000423e9, 0x26d087e0, 0x00074610, 0x1e10c5c0, 0x00074631, 0x088443e0, 0x00010844,
    0x1d18c5c0, 0x00074631, 0x3d18c5c0, 0x00074610, 0x08e20000, 0x00471000, 0x08e20000, 0x00223000,
    0x02222200, 0x00082082, 0x01f00000, 0x000003e0, 0x20820820, 0x00008888, 0x1108c5c0, 0x00020084,
    0x2b98c5c0, 0x000f05b5, 0x2318a880, 0x0008c63f, 0x1d2949e0, 0x0007ca52, 0x0210c5c0, 0x00074421,
    0x252949e0, 0x0007ca52, 0x1e1087e0, 0x000f8421, 0x1e1087e0, 0x00008421, 0x0210c5c0, 0x00074639,
    0x3f18c620, 0x0008c631, 0x084211c0, 0x00071084, 0x10842380, 0x00032508, 0x0654c620, 0x0008c525,
    0x02108420, 0x000f8421, 0x2b5dc620, 0x0008c631, 0x2b59ce20, 0x0008c739, 0x2318c5c0, 0x00074631,
    0x1f18c5e0, 0x00008421, 0x2318c5c0, 0x01075631, 0x1f18c5e0, 0x0008c525, 0x1c10c5c0, 0x00074610,
    0x084213e0, 0x00021084, 0x2318c620, 0x00074631, 0x1518c620, 0x0002114a, 0x2b18c620, 0x000556b5,
    0x08a54620, 0x0008c54a, 0x08a54620, 0x00021084, 0x088443e0, 0x000f8442, 0x0421084e, 0x00e10842,
    0x08210420, 0x00084108, 0x1084210e, 0x00e42108, 0x0008a880, 0x00000000, 0x00000000, 0x01f00000,
    0x00000104, 0x00000000, 0x20e00000, 0x000b663e, 0x22f08420, 0x0007c631, 0x22e00000, 0x00074421,
    0x23e84200, 0x000f4631, 0x22e00000, 0x0007443f, 0x1e214980, 0x00010842, 0x22e00000, 0x1d187a31,
    0x26d08420, 0x0008c631, 0x08601000, 0x00071084, 0x10c02000, 0x0c94a108, 0x0a908420, 0x0008a4a3,
    0x084210c0, 0x00071084, 0x2ab00000, 0x0008d6b5, 0x26d00000, 0x0008c631, 0x22e00000, 0x00074631,
    0x22f00000, 0x0210be31, 0x23e00000, 0x21087a31, 0x26d00000, 0x00008421, 0x22e00000, 0x00074506,
    0x04f10800, 0x00064842, 0x23100000, 0x000b6631, 0x23100000, 0x00022951, 0x23100000, 0x000556b5,
    0x15100000, 0x0008a884, 0x23100000, 0x1d185b31, 0x11f00000, 0x000f8444, 0x06421098, 0x01821084,
    0x08421080, 0x00021084, 0x30421083, 0x00321084, 0x0004d640, 0x00000000, 0x00000000, 0x00000000]

structure Geometry where
  gWidth : ℕ
  gHeight : ℕ
  gBpp : ℕ
  displayAddress : ℕ
  gWidth_lt : gWidth < 4294967296
  gHeight_lt : gHeight < 4294967296
  gBpp_lt : gBpp < 4294967296

inductive FbConMsgType
  | commonMsg
  | unlockTitleMsg
  | titleMsg
  | subtitleMsg
  | yellowMsg
  | orangeMsg
  | redMsg
  | greenMsg
  | selectMsgBgColor
  deriving DecidableEq, Repr

/-- The drawing loops' locals: where they write next, the colour being written out and the
glyph bits still to draw. -/
structure Pen where
  canvas : Canvas
  pointer : ℕ
  color : ℕ
  data : ℕ

instance : Plotter Pen where
  pointer := Pen.pointer
  canvas := Pen.canvas

/-- A pass of the innermost loops: the low byte of the colour. -/
def paintByte (pen : Pen) : Pen where
  canvas := pen.canvas.put pen.pointer (UInt8.ofNat pen.color)
  pointer := pen.pointer + 1
  color := pen.color >>> 8
  data := pen.data

def paintPixel (color bpp : ℕ) (pen : Pen) : Pen := paintByte^[bpp] { pen with color := color }

def skipPixel (bpp : ℕ) (pen : Pen) : Pen := { pen with pointer := pen.pointer + bpp }

/-- `pixels += (stride * bpp)`. -/
def nextRow (stride bpp : ℕ) (pen : Pen) : Pen := { pen with pointer := pen.pointer + stride * bpp }

def eraseRow (background stride bpp scale : ℕ) (pen : Pen) : Pen :=
  nextRow stride bpp (((paintPixel background bpp)^[scale])^[fontWidth] pen)

def eraseHalf (background stride bpp scale : ℕ) (pen : Pen) : Pen :=
  ((eraseRow background stride bpp scale)^[scale])^[fontHeight / 2] pen

def drawColumn (foreground bpp scale : ℕ) (pen : Pen) : Pen :=
  let drawn :=
    if pen.data &&& 1 ≠ 0 then (paintPixel foreground bpp)^[scale] pen
    else (skipPixel bpp)^[scale] pen
  { drawn with data := drawn.data >>> 1 }

def drawRow (foreground stride bpp scale temp : ℕ) (pen : Pen) : Pen :=
  nextRow stride bpp ((drawColumn foreground bpp scale)^[fontWidth] { pen with data := temp })

def drawLine (foreground stride bpp scale : ℕ) (pen : Pen) : Pen :=
  (drawRow foreground stride bpp scale pen.data)^[scale] pen

def drawHalf (foreground stride bpp scale word : ℕ) (pen : Pen) : Pen :=
  (drawLine foreground stride bpp scale)^[fontHeight / 2] { pen with data := word }

def fbConDrawglyph (foreground background pixels stride bpp word0 word1 scale : ℕ)
    (canvas : Canvas) : Canvas :=
  let stride := subUint32 stride (toUint32 (fontWidth * scale))
  let erased := eraseHalf background stride bpp scale (eraseHalf background stride bpp scale
    { canvas := canvas, pointer := pixels, color := background, data := 0 })
  let drawn := drawHalf foreground stride bpp scale word1
    (drawHalf foreground stride bpp scale word0 { erased with pointer := pixels })
  drawn.canvas

structure Console where
  canvas : Canvas
  maxX : ℕ
  maxY : ℕ
  foreground : ℕ
  background : ℕ
  interrupts : Bool

/-- `p_Position`, as `SerialPortInitialize` computes it. -/
def positionCell (g : Geometry) : ℕ :=
  g.displayAddress + toUint32 (g.gWidth * g.gHeight * g.gBpp) / 8

/-- `p_Position->x`, as an unsigned word. -/
def Console.x (g : Geometry) (c : Console) : ℕ := loadWord c.canvas.memory (positionCell g)

def Console.y (g : Geometry) (c : Console) : ℕ := loadWord c.canvas.memory (positionCell g + 4)

def Console.setX (g : Geometry) (c : Console) (x : ℕ) : Console :=
  { c with canvas := { c.canvas with memory := storeWord c.canvas.memory (positionCell g) x } }

def Console.setY (g : Geometry) (c : Console) (y : ℕ) : Console :=
  { c with canvas := { c.canvas with memory := storeWord c.canvas.memory (positionCell g + 4) y } }

def intn (w : ℕ) : ℤ := if w < 2147483648 then w else (w : ℤ) - 4294967296

def resetFb (g : Geometry) (c : Console) : Console :=
  let start : Pen :=
    { canvas := c.canvas, pointer := g.displayAddress, color := fbBgra8888Black, data := 0 }
  { c with canvas :=
      (((paintPixel fbBgra8888Black (g.gBpp / 8))^[g.gHeight])^[g.gWidth] start).canvas }

def fbConReset (g : Geometry) (c : Console) : Console :=
  { c with
    maxX := g.gWidth / (fontWidth + 1)
    maxY := subUint32 g.gHeight 1 / fontHeight
    foreground := fbBgra8888White
    background := fbBgra8888Black }

/-- `if (intstate) ArmEnableInterrupts ()`. -/
def restoreInterrupts (intstate : Bool) (c : Console) : Console :=
  if intstate then { c with interrupts := true } else c

def disableInterrupts (intstate : Bool) (c : Console) : Console :=
  if intstate then { c with interrupts := false } else c

/-- From the label `newline2` on: the next line, or the screen cleared and the character
painted again. -/
def newline2 (g : Geometry) (scale : ℕ) (intstate : Bool) (c : Console) :
    (Bool × Console) ⊕ Console :=
  let c := c.setY g (c.y g + scale)
  let c := c.setX g 0
  if c.y g ≥ subUint32 c.maxY scale then
    let c := (resetFb g c).setY g 0
    .inl (intstate, restoreInterrupts intstate c)
  else .inr (restoreInterrupts intstate c)

/-- A pass from the label `paint` on. The state carries the local `intstate`. A glyph
outside the font table is a fault. -/
def paintPass (g : Geometry) (scale : ℕ) (ch : UInt8) (type : FbConMsgType)
    (st : Bool × Console) : Option ((Bool × Console) ⊕ Console) :=
  let c := st.2
  if 127 < ch.toNat then some (.inr c)
  else if ch.toNat < 32 then
    if ch = 0x0a then some (newline2 g scale st.1 c)
    else if ch = 0x0d then some (.inr (c.setX g 0))
    else some (.inr c)
  else if c.x g = 0 ∧ ch = 0x20 ∧ type ≠ .subtitleMsg ∧ type ≠ .titleMsg then some (.inr c)
  else do
    let intstate := c.interrupts
    let c := disableInterrupts intstate c
    let pixels := g.displayAddress +
      c.y g * (g.gBpp / 8 * fontHeight * g.gWidth) +
      c.x g * scale * (g.gBpp / 8 * (fontWidth + 1))
    let word0 ← font5x12[(ch.toNat - 32) * 2]?
    let word1 ← font5x12[(ch.toNat - 32) * 2 + 1]?
    let canvas := fbConDrawglyph c.foreground c.background pixels g.gWidth (g.gBpp / 8)
      word0 word1 scale c.canvas
    let c := { c with canvas := canvas }
    let c := c.setX g (c.x g + 1)
    if intn (c.x g) ≥ intn (c.maxX / scale) then some (newline2 g scale intstate c)
    else some (.inr (restoreInterrupts intstate c))

structure Call where
  ch : UInt8
  type : FbConMsgType
  intstate : Bool

def fbConPutCharWithFactor (g : Geometry) (scale fuel : ℕ) (c : Console) (call : Call) :
    Option Console :=
  loop (paintPass g scale call.ch call.type) fuel (call.intstate, c)

def putChars (g : Geometry) (scale fuel : ℕ) (calls : List Call) (c : Console) : Option Console :=
  calls.foldlM (fbConPutCharWithFactor g scale fuel) c

/-- The calls made for a buffer, with what `intstate` holds in each of them. -/
def bufferCalls (buffer : List (UInt8 × Bool)) : List Call :=
  buffer.map fun byte => ⟨byte.1, .commonMsg, byte.2⟩

def serialPortWrite (g : Geometry) (fuel : ℕ) (buffer : List (UInt8 × Bool)) (c : Console) :
    Option Console := do
  let interruptState := c.interrupts
  let c := disableInterrupts interruptState c
  let c ← putChars g scaleFactor fuel (bufferCalls buffer) c
  some (restoreInterrupts interruptState c)

def serialPortWriteCritical (g : Geometry) (fuel : ℕ) (buffer : List (UInt8 × Bool))
    (c : Console) : Option Console := do
  let currentForeground := c.foreground
  let interruptState := c.interrupts
  let c := disableInterrupts interruptState c
  let c := { c with foreground := fbBgra8888Yellow }
  let c ← putChars g scaleFactor fuel (bufferCalls buffer) c
  let c := { c with foreground := currentForeground }
  some (restoreInterrupts interruptState c)

end MuTegra.Screen.Framebuffer
