/- Unit: MuTegra/MemDraw/FrameBufferConfig
   source: NvidiaPkg/Library/FrameBufferMemDrawLib/FrameBufferMemDrawLib.c,
     NvidiaPkg/Library/FrameBufferMemDrawLib/FrameBufferMemDrawLibDxe.c,
     NvidiaPkg/Library/FrameBufferMemDrawLib/FrameBufferMemDrawLibPeim.c
   digest: The drawing library keeps a configuration for the mode it draws in. -/

import MuTegra.Foundation.Loops
import MuTegra.Foundation.Ownership
import MuTegra.Foundation.Runs
import MuTegra.Uefi.Status

/-!
A mode number stands for its frame buffer and its layout. The tail call of `SetupFrameBufferConfig`
is a further pass of a loop.
-/

set_option autoImplicit false
set_option relaxedAutoImplicit false

namespace MuTegra.MemDraw.FrameBufferConfig

open MuTegra.Foundation.Loops
open MuTegra.Foundation.Ownership
open MuTegra.Foundation.Runs
open MuTegra.Uefi.Status

inductive Phase
  | dxe
  | pei
  deriving DecidableEq, Repr

/-- What a call of the library meets: the two steps of the search for the graphics output, the mode
it is in, the outcome of an allocation, and the status of the drawing itself. -/
structure Env where
  firstStatus : EfiStatus
  secondStatus : EfiStatus
  mode : UInt32
  allocated : Bool
  bltStatus : EfiStatus
  deriving DecidableEq

/-- `mGraphicsOutput` or `mInitialized`, and the mode that `Mode->Mode` reads. -/
structure Graphics where
  found : Bool
  mode : UInt32
  deriving DecidableEq

structure Config where
  id : ℕ
  bytes : UInt32
  builtFor : Option UInt32
  deriving DecidableEq

inductive BltOperation
  | efiBltBufferToVideo
  | efiBltVideoFill
  deriving DecidableEq, Repr

structure Drawing where
  operation : BltOperation
  pixels : List UInt32
  topLeftXInPixels : BitVec 32
  topLeftYInPixels : BitVec 32
  widthInPixels : BitVec 32
  heightInPixels : BitVec 32
  deriving DecidableEq

/-- The library's globals, the pool, and the drawings handed to `FrameBufferBlt`, latest first. -/
structure Globals where
  graphics : Graphics
  mFrameBufferConfig : Option Config
  mFrameBufferConfigSize : UInt32
  mModeConfigredFor : UInt32
  pool : Ledger
  blts : List (Config × Drawing)

/-- A result of `FrameBufferBltConfigure`: its status, the size it leaves, and whether it has filled
the buffer. -/
structure Configured where
  status : EfiStatus
  size : UInt32
  filled : Bool

/-- The modes and `FrameBufferBltConfigure`, from a mode, whether there is a buffer, and a size. -/
structure BltLib where
  supported : UInt32 → Bool
  needed : UInt32 → UInt32
  frameBufferBltConfigure : UInt32 → Bool → UInt32 → Configured

/-- A small size is replaced by the size needed; with a size that does, the buffer is filled, and
it is an error when there is none. A mode that is not supported is an error. -/
structure ConfigureSpec (lib : BltLib) : Prop where
  unsupported : ∀ mode hasBuffer size, lib.supported mode = false →
    efiError (lib.frameBufferBltConfigure mode hasBuffer size).status = true ∧
      (lib.frameBufferBltConfigure mode hasBuffer size).status ≠ efiBufferTooSmall ∧
      (lib.frameBufferBltConfigure mode hasBuffer size).size = size
  tooSmall : ∀ mode hasBuffer size, lib.supported mode = true → size < lib.needed mode →
    lib.frameBufferBltConfigure mode hasBuffer size = ⟨efiBufferTooSmall, lib.needed mode, false⟩
  null : ∀ mode size, lib.supported mode = true → ¬ size < lib.needed mode →
    efiError (lib.frameBufferBltConfigure mode false size).status = true ∧
      (lib.frameBufferBltConfigure mode false size).status ≠ efiBufferTooSmall ∧
      (lib.frameBufferBltConfigure mode false size).size = size
  fills : ∀ mode size, lib.supported mode = true → ¬ size < lib.needed mode →
    lib.frameBufferBltConfigure mode true size = ⟨efiSuccess, size, true⟩

def searchStatus (phase : Phase) (env : Env) : EfiStatus :=
  match phase with
  | .dxe => if efiError env.firstStatus then env.secondStatus else env.firstStatus
  | .pei => if efiError env.firstStatus then env.firstStatus else env.secondStatus

/-- The mode read. The driver phase reads it from the output it has found; the early phase reads
the copy that it made when it found the output. -/
def readMode (phase : Phase) (env : Env) (graphics : Graphics) : UInt32 :=
  match phase with
  | .dxe => env.mode
  | .pei => if graphics.found then graphics.mode else env.mode

/-- The status of `GetGraphicsInfo`, which searches only until the output is found. -/
def infoStatus (phase : Phase) (env : Env) (graphics : Graphics) : EfiStatus :=
  if graphics.found then efiSuccess else searchStatus phase env

def getGraphicsInfo (phase : Phase) (env : Env) (graphics : Graphics) : EfiStatus × Graphics :=
  if efiError (infoStatus phase env graphics) then (infoStatus phase env graphics, graphics)
  else (infoStatus phase env graphics, ⟨true, readMode phase env graphics⟩)

def freeFrameBufferConfig (m : Globals) : Globals :=
  match m.mFrameBufferConfig with
  | some config =>
      { m with mFrameBufferConfig := none, pool := m.pool.release (some config.id) }
  | none => m

/-- `mFrameBufferConfig = AllocatePool (mFrameBufferConfigSize)`. -/
def allocateConfig (allocated : Bool) (m : Globals) : Globals :=
  let granted := m.pool.acquire allocated
  { m with
    mFrameBufferConfig := granted.1.map fun id => ⟨id, m.mFrameBufferConfigSize, none⟩
    pool := granted.2 }

/-- What `FrameBufferBltConfigure` leaves in the globals and in the block. -/
def storeConfigured (configured : Configured) (mode : UInt32) (m : Globals) : Globals :=
  { m with
    mFrameBufferConfigSize := configured.size
    mFrameBufferConfig :=
      if configured.filled then
        m.mFrameBufferConfig.map fun config => { config with builtFor := some mode }
      else m.mFrameBufferConfig }

/-- `SetupFrameBufferConfig` up to its return or its call of itself. -/
def setupPass (lib : BltLib) (phase : Phase) (env : Env) (m : Globals) :
    Option (Globals ⊕ EfiStatus × Globals) :=
  let info := getGraphicsInfo phase env m.graphics
  let m := { m with graphics := info.2 }
  if efiError info.1 then some (.inr (info.1, m))
  else
    let mode := m.graphics.mode
    if m.mFrameBufferConfig.isSome ∧ m.mModeConfigredFor = mode then some (.inr (efiSuccess, m))
    else
      let configured :=
        lib.frameBufferBltConfigure mode m.mFrameBufferConfig.isSome m.mFrameBufferConfigSize
      let m := storeConfigured configured mode m
      if configured.status = efiBufferTooSmall then
        some (.inl (allocateConfig env.allocated (freeFrameBufferConfig m)))
      else if efiError configured.status then
        some (.inr (configured.status, freeFrameBufferConfig m))
      else some (.inr (configured.status, { m with mModeConfigredFor := mode }))

def setupFrameBufferConfig (lib : BltLib) (phase : Phase) (fuel : ℕ) (env : Env) (m : Globals) :
    Option (EfiStatus × Globals) :=
  loop (setupPass lib phase env) fuel m

/-- What `MemDrawOnFrameBuffer` and `MemFillOnFrameBuffer` do. -/
def drawWith (lib : BltLib) (phase : Phase) (fuel : ℕ) (env : Env) (drawing : Drawing)
    (m : Globals) : Option (EfiStatus × Globals) := do
  let (status, m) ← setupFrameBufferConfig lib phase fuel env m
  match m.mFrameBufferConfig with
  | none => some (efiNotReady, m)
  | some config =>
      if efiError status then some (status, m)
      else some (env.bltStatus, { m with blts := (config, drawing) :: m.blts })

def memDrawOnFrameBuffer (lib : BltLib) (phase : Phase) (fuel : ℕ) (env : Env)
    (drawDataBuffer : List UInt32) (x y width height : BitVec 32) (m : Globals) :
    Option (EfiStatus × Globals) :=
  drawWith lib phase fuel env ⟨.efiBltBufferToVideo, drawDataBuffer, x, y, width, height⟩ m

def memFillOnFrameBuffer (lib : BltLib) (phase : Phase) (fuel : ℕ) (env : Env) (color : UInt32)
    (x y width height : BitVec 32) (m : Globals) : Option (EfiStatus × Globals) :=
  drawWith lib phase fuel env ⟨.efiBltVideoFill, [color], x, y, width, height⟩ m

def frameBufferMemDrawLibDestructor (m : Globals) : EfiStatus × Globals :=
  (efiSuccess, freeFrameBufferConfig m)

inductive Event
  | memDrawOnFrameBuffer (env : Env) (drawDataBuffer : List UInt32) (x y width height : BitVec 32)
  | memFillOnFrameBuffer (env : Env) (color : UInt32) (x y width height : BitVec 32)
  | destructor
  deriving DecidableEq

def Event.env? : Event → Option Env
  | .memDrawOnFrameBuffer env .. => some env
  | .memFillOnFrameBuffer env .. => some env
  | .destructor => none

/-- The status a call returns; a call that does not return leaves the globals as they are. -/
def step (lib : BltLib) (phase : Phase) (fuel : ℕ) (m : Globals) (event : Event) :
    Option EfiStatus × Globals :=
  let returned :=
    match event with
    | .memDrawOnFrameBuffer env drawDataBuffer x y width height =>
        memDrawOnFrameBuffer lib phase fuel env drawDataBuffer x y width height m
    | .memFillOnFrameBuffer env color x y width height =>
        memFillOnFrameBuffer lib phase fuel env color x y width height m
    | .destructor => some (frameBufferMemDrawLibDestructor m)
  match returned with
  | some (status, m) => (some status, m)
  | none => (none, m)

def start : Globals where
  graphics := ⟨false, 0⟩
  mFrameBufferConfig := none
  mFrameBufferConfigSize := 0
  mModeConfigredFor := 0xfffff
  pool := .empty
  blts := []

variable (lib : BltLib) (phase : Phase) (fuel : ℕ) (env : Env) (m : Globals)

def HasInfo : Prop := efiError (getGraphicsInfo phase env m.graphics).1 = false

def currentMode : UInt32 := (getGraphicsInfo phase env m.graphics).2.mode

structure Serviceable : Prop where
  info : HasInfo phase env m
  supported : lib.supported (currentMode phase env m) = true
  allocated : env.allocated = true

/-- The set-up of a call ends; a success means a configuration for the current mode, and a call
that can be served succeeds. -/
def SetsUp : Prop :=
  ∃ status m', setupFrameBufferConfig lib phase fuel env m = some (status, m') ∧
    (status = efiSuccess → ∃ config, m'.mFrameBufferConfig = some config ∧
      config.builtFor = some (currentMode phase env m)) ∧
    (Serviceable lib phase env m → status = efiSuccess)

def BlockFits : Prop :=
  ∀ config, m.mFrameBufferConfig = some config → m.mFrameBufferConfigSize ≤ config.bytes

/-- If a call that can be served finds no configuration, the size left behind is too small for its
mode, and its mode is not the one last set up. -/
def Recovers : Prop :=
  Serviceable lib phase env m → m.mFrameBufferConfig = none →
    m.mFrameBufferConfigSize < lib.needed (currentMode phase env m) ∧
      m.mModeConfigredFor ≠ currentMode phase env m

/-- Over a run, blocks fit and the set-up of every drawing call does what it should. -/
structure SetsUpAlong (events : List Event) : Prop where
  fits : ∀ before after, events = before ++ after →
    BlockFits (stateAfter (step lib phase fuel) start before)
  calls : AtCalls (step lib phase fuel) start
    (fun m event => ∀ env, event.env? = some env → SetsUp lib phase fuel env m) events

/-- Over a run, every drawing call recovers what earlier ones left. -/
def RecoversAlong (events : List Event) : Prop :=
  AtCalls (step lib phase fuel) start
    (fun m event => ∀ env, event.env? = some env → Recovers lib phase env m) events

end MuTegra.MemDraw.FrameBufferConfig
