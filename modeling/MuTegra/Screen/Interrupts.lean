/- Unit: MuTegra/Screen/Interrupts
   source: NvidiaPkg/Library/FrameBufferSerialPortLib/FrameBufferSerialPortLib.c
   digest: Interrupts stay off through a write exactly when no newline in it is reached. -/

import MuTegra.Screen.Cursor
import Mathlib.Data.List.Induction

/-!
Interrupts are turned on only where `intstate` is tested, and every such test is the last
thing before the function returns or jumps back to the label `paint`. To look at the
console between calls and whenever a pass starts is therefore to see every time at which
they may be on.
-/

set_option autoImplicit false
set_option relaxedAutoImplicit false

namespace MuTegra.Screen.Interrupts

open MuTegra.Foundation.Loops
open MuTegra.Screen.Framebuffer
open MuTegra.Screen.Cursor

/-- The console at some time while the calls are made: between two of them, or at the label
`paint` in one of them. -/
def During (g : Geometry) (calls : List Call) (c c' : Console) : Prop :=
  ∃ before after fuel c₁, calls = before ++ after ∧
    putChars g scaleFactor fuel before c = some c₁ ∧
    (c' = c₁ ∨ ∃ call rest intstate, after = call :: rest ∧
      Visits (paintPass g scaleFactor call.ch call.type) (call.intstate, c₁) (intstate, c'))

/-- Whatever the uninitialised locals hold, interrupts stay off until the write restores
them, and then they are as they were on entry. -/
structure SectionKept (g : Geometry) (bytes : List UInt8) (c entered : Console)
    (write : ℕ → List (UInt8 × Bool) → Console → Option Console) : Prop where
  disabled : ∀ buffer : List (UInt8 × Bool), buffer.map Prod.fst = bytes →
    ∀ c', During g (bufferCalls buffer) entered c' → c'.interrupts = false
  restored : ∀ buffer : List (UInt8 × Bool), buffer.map Prod.fst = bytes →
    ∀ fuel c', write fuel buffer c = some c' → c'.interrupts = c.interrupts

/-- The console that `SerialPortWrite` prints to. -/
def entered (c : Console) : Console := disableInterrupts c.interrupts c

/-- The console that `SerialPortWriteCritical` prints to. -/
def enteredCritical (c : Console) : Console :=
  { disableInterrupts c.interrupts c with foreground := fbBgra8888Yellow }

def zeroLocals (bytes : List UInt8) : List (UInt8 × Bool) := bytes.map fun byte => (byte, false)

/-- The bytes have a newline, and printing what is before it comes to an end. -/
def NewlineReached (g : Geometry) (bytes : List UInt8) (c : Console) : Prop :=
  ∃ before after, bytes = before ++ 0x0a :: after ∧
    ∃ fuel c', putChars g scaleFactor fuel (bufferCalls (zeroLocals before)) c = some c'

variable {g : Geometry} {scale : ℕ} {c : Console} {ch : UInt8} {type : FbConMsgType}

@[simp] theorem setX_interrupts (g : Geometry) (c : Console) (x : ℕ) :
    (c.setX g x).interrupts = c.interrupts := rfl

@[simp] theorem setY_interrupts (g : Geometry) (c : Console) (y : ℕ) :
    (c.setY g y).interrupts = c.interrupts := rfl

@[simp] theorem resetFb_interrupts (g : Geometry) (c : Console) :
    (resetFb g c).interrupts = c.interrupts := rfl

@[simp] theorem restoreInterrupts_interrupts (intstate : Bool) (c : Console) :
    (restoreInterrupts intstate c).interrupts = (intstate || c.interrupts) := by
  cases intstate <;> rfl

@[simp] theorem disableInterrupts_interrupts (c : Console) :
    (disableInterrupts c.interrupts c).interrupts = false := by
  unfold disableInterrupts
  split
  · rfl
  · next hoff => exact Bool.eq_false_iff.mpr hoff

def consoleOf : (Bool × Console) ⊕ Console → Console := Sum.elim Prod.snd id

theorem newline2_interrupts (g : Geometry) (scale : ℕ) (intstate : Bool) (c : Console) :
    (consoleOf (newline2 g scale intstate c)).interrupts = (intstate || c.interrupts) := by
  rw [newline2]
  dsimp only
  split
  · exact restoreInterrupts_interrupts _ _
  · exact restoreInterrupts_interrupts _ _

theorem paintPass_local (hch : ch ≠ 0x0a) (intstate intstate' : Bool) (c : Console) :
    paintPass g scale ch type (intstate, c) = paintPass g scale ch type (intstate', c) := by
  simp only [paintPass, if_neg hch]

theorem paintPass_interrupts (hch : ch ≠ 0x0a) {st : Bool × Console}
    (hoff : st.2.interrupts = false) {out : (Bool × Console) ⊕ Console}
    (h : paintPass g scale ch type st = some out) : (consoleOf out).interrupts = false := by
  have hdrawn : ∀ c₁ : Console, c₁.interrupts = false →
      (consoleOf (newline2 g scale st.2.interrupts c₁)).interrupts = false ∧
        (restoreInterrupts st.2.interrupts c₁).interrupts = false := by
    intro c₁ hc₁
    rw [newline2_interrupts, restoreInterrupts_interrupts, hoff, hc₁]
    exact ⟨rfl, rfl⟩
  simp only [paintPass, if_neg hch] at h
  split at h
  · cases h
    exact hoff
  · split at h
    · split at h
      · cases h
        exact hoff
      · cases h
        exact hoff
    · split at h
      · cases h
        exact hoff
      · -- the character is drawn, with interrupts disabled on the way
        rw [Option.bind_eq_bind, Option.bind_eq_some_iff] at h
        obtain ⟨word0, -, h⟩ := h
        rw [Option.bind_eq_some_iff] at h
        obtain ⟨word1, -, h⟩ := h
        generalize fbConDrawglyph _ _ _ _ _ _ _ _ _ = canvas at h
        split at h
        · rw [← Option.some.inj h]
          apply (hdrawn _ ?_).1
          exact disableInterrupts_interrupts st.2
        · rw [← Option.some.inj h]
          apply (hdrawn _ ?_).2
          exact disableInterrupts_interrupts st.2

variable {fuel : ℕ} {c' : Console} {call : Call}

theorem fbConPutCharWithFactor_local (hch : call.ch ≠ 0x0a) (intstate : Bool) :
    fbConPutCharWithFactor g scale fuel c call =
      fbConPutCharWithFactor g scale fuel c { call with intstate := intstate } := by
  cases fuel with
  | zero => rfl
  | succ fuel =>
      simp only [fbConPutCharWithFactor, loop]
      rw [paintPass_local hch call.intstate intstate]

theorem visits_interrupts (hch : call.ch ≠ 0x0a) (hoff : c.interrupts = false)
    {st : Bool × Console}
    (h : Visits (paintPass g scale call.ch call.type) (call.intstate, c) st) :
    st.2.interrupts = false := by
  apply h.keeps hoff
  intro st st' hst hpass
  exact paintPass_interrupts hch hst hpass

theorem fbConPutCharWithFactor_interrupts (hch : call.ch ≠ 0x0a) (hoff : c.interrupts = false)
    (h : fbConPutCharWithFactor g scale fuel c call = some c') : c'.interrupts = false := by
  obtain ⟨st, hvisits, hlast⟩ := exists_last_pass h
  exact paintPass_interrupts hch (visits_interrupts hch hoff hvisits) hlast

theorem putChars_cons (calls : List Call) :
    putChars g scale fuel (call :: calls) c =
      (fbConPutCharWithFactor g scale fuel c call).bind (putChars g scale fuel calls) := by
  rw [putChars, List.foldlM_cons]
  rfl

theorem putChars_append (before after : List Call) :
    putChars g scale fuel (before ++ after) c =
      (putChars g scale fuel before c).bind (putChars g scale fuel after) := by
  rw [putChars, List.foldlM_append]
  rfl

theorem putChars_mono {fuel' : ℕ} (hle : fuel ≤ fuel') {calls : List Call}
    (h : putChars g scale fuel calls c = some c') :
    putChars g scale fuel' calls c = some c' := by
  induction calls generalizing c with
  | nil => exact h
  | cons call calls ih =>
      rw [putChars_cons, Option.bind_eq_some_iff] at h ⊢
      obtain ⟨c₁, hcall, hcalls⟩ := h
      exact ⟨c₁, loop_mono hcall hle, ih hcalls⟩

theorem putChars_interrupts {calls : List Call} (hcalls : ∀ call ∈ calls, call.ch ≠ 0x0a)
    (hoff : c.interrupts = false) (h : putChars g scale fuel calls c = some c') :
    c'.interrupts = false := by
  induction calls generalizing c with
  | nil =>
      cases h
      exact hoff
  | cons call calls ih =>
      rw [putChars_cons, Option.bind_eq_some_iff] at h
      obtain ⟨c₁, hcall, hrest⟩ := h
      obtain ⟨hch, hcalls⟩ := List.forall_mem_cons.mp hcalls
      exact ih hcalls (fbConPutCharWithFactor_interrupts hch hoff hcall) hrest

variable {c₁ : Console} {before after : List (UInt8 × Bool)}

theorem putChars_zeroLocals (hno : ∀ byte ∈ before, byte.1 ≠ 0x0a) :
    putChars g scale fuel (bufferCalls (zeroLocals (before.map Prod.fst))) c =
      putChars g scale fuel (bufferCalls before) c := by
  induction before generalizing c with
  | nil => rfl
  | cons byte before ih =>
      obtain ⟨hbyte, hno⟩ := List.forall_mem_cons.mp hno
      have hfirst : fbConPutCharWithFactor g scale fuel c ⟨byte.1, .commonMsg, byte.2⟩ =
          fbConPutCharWithFactor g scale fuel c ⟨byte.1, .commonMsg, false⟩ :=
        fbConPutCharWithFactor_local hbyte false
      change putChars g scale fuel (⟨byte.1, .commonMsg, false⟩ :: _) c =
        putChars g scale fuel (⟨byte.1, .commonMsg, byte.2⟩ :: _) c
      rw [putChars_cons, putChars_cons, hfirst]
      exact congrArg _ (funext fun c => ih hno)

theorem newlineReached_of_next (hno : ∀ byte ∈ before, byte.1 ≠ 0x0a)
    (hprinted : putChars g scaleFactor fuel (bufferCalls before) c = some c₁)
    {byte : UInt8 × Bool} (hbyte : byte.1 = 0x0a) :
    NewlineReached g ((before ++ byte :: after).map Prod.fst) c := by
  refine ⟨before.map Prod.fst, after.map Prod.fst, ?_, fuel, c₁, ?_⟩
  · rw [List.map_append, List.map_cons, hbyte]
  · rw [putChars_zeroLocals hno]
    exact hprinted

theorem no_newline_printed (hnone : ¬ NewlineReached g ((before ++ after).map Prod.fst) c)
    (hprinted : putChars g scaleFactor fuel (bufferCalls before) c = some c₁) :
    ∀ byte ∈ before, byte.1 ≠ 0x0a := by
  induction before using List.reverseRecOn generalizing after c₁ with
  | nil => exact fun byte hbyte => absurd hbyte List.not_mem_nil
  | append_singleton before last ih =>
      rw [List.append_assoc, List.singleton_append] at hnone
      rw [bufferCalls, List.map_append, putChars_append, Option.bind_eq_some_iff] at hprinted
      obtain ⟨c₂, hbefore, -⟩ := hprinted
      have hno := ih hnone hbefore
      intro byte hbyte
      rcases List.mem_append.mp hbyte with hold | hlast
      · exact hno byte hold
      · obtain rfl := List.mem_singleton.mp hlast
        exact fun hnewline => hnone (newlineReached_of_next hno hbefore hnewline)

variable {bytes : List UInt8}

theorem during_off (hnone : ¬ NewlineReached g bytes c) (hoff : c.interrupts = false)
    {buffer : List (UInt8 × Bool)} (hbuffer : buffer.map Prod.fst = bytes) {c' : Console}
    (h : During g (bufferCalls buffer) c c') : c'.interrupts = false := by
  obtain ⟨before, after, fuel, c₁, hsplit, hprinted, hnow⟩ := h
  obtain ⟨pre, post, rfl, rfl, hpost⟩ := List.map_eq_append_iff.mp hsplit
  subst hbuffer
  have hno := no_newline_printed hnone hprinted
  have hcalls : ∀ call ∈ bufferCalls pre, call.ch ≠ 0x0a := by
    intro call hcall
    obtain ⟨byte, hbyte, rfl⟩ := List.mem_map.mp hcall
    exact hno byte hbyte
  have hoff₁ := putChars_interrupts hcalls hoff hprinted
  rcases hnow with rfl | ⟨call, rest, intstate, rfl, hvisits⟩
  · exact hoff₁
  · obtain ⟨byte, tail, rfl, rfl, -⟩ := List.map_eq_cons_iff.mp hpost
    have hch : byte.1 ≠ 0x0a := fun hnewline =>
      hnone (newlineReached_of_next hno hprinted hnewline)
    exact visits_interrupts hch hoff₁ hvisits

theorem during_on (h : NewlineReached g bytes c) :
    ∃ buffer : List (UInt8 × Bool), buffer.map Prod.fst = bytes ∧
      ∃ c', During g (bufferCalls buffer) c c' ∧ c'.interrupts = true := by
  obtain ⟨before, after, rfl, fuel, c₁, hprinted⟩ := h
  refine ⟨zeroLocals before ++ (0x0a, true) :: zeroLocals after, ?_, ?_⟩
  · simp [zeroLocals, Function.comp_def]
  · have hsplit : bufferCalls (zeroLocals before ++ (0x0a, true) :: zeroLocals after) =
        bufferCalls (zeroLocals before) ++
          ⟨0x0a, .commonMsg, true⟩ :: bufferCalls (zeroLocals after) := List.map_append
    have hpass : paintPass g scaleFactor 0x0a .commonMsg (true, c₁) =
        some (newline2 g scaleFactor true c₁) := paintPass_newline true
    have hon := newline2_interrupts g scaleFactor true c₁
    rw [Bool.true_or] at hon
    cases hout : newline2 g scaleFactor true c₁ with
    | inl st =>
        rw [hout] at hpass hon
        exact ⟨st.2, ⟨_, _, fuel, c₁, hsplit, hprinted,
          Or.inr ⟨_, _, st.1, rfl, .next .start hpass⟩⟩, hon⟩
    | inr c₂ =>
        rw [hout] at hpass hon
        have hcall : fbConPutCharWithFactor g scaleFactor (fuel + 1) c₁
            ⟨0x0a, .commonMsg, true⟩ = some c₂ := loop_done fuel hpass
        refine ⟨c₂, ⟨bufferCalls (zeroLocals before) ++ [⟨0x0a, .commonMsg, true⟩],
          bufferCalls (zeroLocals after), fuel + 1, c₂, ?_, ?_, Or.inl rfl⟩, hon⟩
        · rw [hsplit, List.append_assoc]
          rfl
        · rw [putChars_concat (putChars_mono (Nat.le_succ fuel) hprinted)]
          exact hcall

/-- A write that restores what it found keeps its section exactly when no newline is reached. -/
theorem sectionKept_iff {entry : Console}
    {write : ℕ → List (UInt8 × Bool) → Console → Option Console} (hoff : entry.interrupts = false)
    (hwrite : ∀ fuel buffer c', write fuel buffer c = some c' →
      ∃ c₁, putChars g scaleFactor fuel (bufferCalls buffer) entry = some c₁ ∧
        c'.interrupts = (c.interrupts || c₁.interrupts)) :
    SectionKept g bytes c entry write ↔ ¬ NewlineReached g bytes entry := by
  constructor
  · intro hkept hreached
    obtain ⟨buffer, hbuffer, c', hduring, hon⟩ := during_on hreached
    rw [hkept.disabled buffer hbuffer c' hduring] at hon
    cases hon
  · intro hnone
    refine ⟨fun buffer hbuffer c' hduring => during_off hnone hoff hbuffer hduring, ?_⟩
    intro buffer hbuffer fuel c' hreturned
    obtain ⟨c₁, hprinted, hrestored⟩ := hwrite fuel buffer c' hreturned
    have hend : During g (bufferCalls buffer) entry c₁ :=
      ⟨_, [], fuel, c₁, (List.append_nil _).symm, hprinted, Or.inl rfl⟩
    rw [hrestored, during_off hnone hoff hbuffer hend, Bool.or_false]

/-- Both writes keep interrupts off and restore them exactly when no newline of the bytes is
reached, whatever the console and the interrupt state on entry. -/
theorem writes_sectionKept_iff (g : Geometry) (bytes : List UInt8) (c : Console) :
    (SectionKept g bytes c (entered c) (serialPortWrite g) ↔
      ¬ NewlineReached g bytes (entered c)) ∧
    (SectionKept g bytes c (enteredCritical c) (serialPortWriteCritical g) ↔
      ¬ NewlineReached g bytes (enteredCritical c)) := by
  constructor
  · apply sectionKept_iff (disableInterrupts_interrupts c)
    intro fuel buffer c' h
    simp only [serialPortWrite, Option.bind_eq_bind, Option.bind_eq_some_iff] at h
    obtain ⟨c₁, hprinted, hreturned⟩ := h
    refine ⟨c₁, hprinted, ?_⟩
    rw [← Option.some.inj hreturned, restoreInterrupts_interrupts]
  · have hoff : (enteredCritical c).interrupts = false := disableInterrupts_interrupts c
    apply sectionKept_iff hoff
    intro fuel buffer c' h
    simp only [serialPortWriteCritical, Option.bind_eq_bind, Option.bind_eq_some_iff] at h
    obtain ⟨c₁, hprinted, hreturned⟩ := h
    refine ⟨c₁, hprinted, ?_⟩
    rw [← Option.some.inj hreturned, restoreInterrupts_interrupts]

/-- On a screen the console is meant for, every newline of the bytes is reached. -/
theorem newlineReached_iff {g : Geometry} {c : Console} (hfits : Fits g scaleFactor)
    (hsmall : g.gWidth * g.gHeight * g.gBpp < 4294967296) (h : CursorInv g scaleFactor c)
    (bytes : List UInt8) : NewlineReached g bytes c ↔ 0x0a ∈ bytes := by
  constructor
  · rintro ⟨before, after, rfl, _⟩
    exact List.mem_append_right _ List.mem_cons_self
  · intro hmem
    obtain ⟨before, after, rfl⟩ := List.append_of_mem hmem
    obtain ⟨c', hprinted, -⟩ :=
      putChars_spec hfits hsmall le_rfl (bufferCalls (zeroLocals before)) h
    exact ⟨before, after, rfl, 2, c', hprinted⟩

def tabletScreen : Geometry :=
  { venusScreen with
    gWidth := 800
    gHeight := 1280
    displayAddress := 0xB0000000
    gWidth_lt := by decide
    gHeight_lt := by decide }

/-- A single newline turns interrupts on when its local happens to hold something else
than 0. -/
theorem newline_not_sectionKept :
    ¬ SectionKept tabletScreen [0x0a] (blankConsole tabletScreen)
      (entered (blankConsole tabletScreen)) (serialPortWrite tabletScreen) := by
  intro hkept
  have hreached : NewlineReached tabletScreen [0x0a] (entered (blankConsole tabletScreen)) :=
    ⟨[], [], rfl, 0, _, rfl⟩
  obtain ⟨buffer, hbuffer, c', hduring, hon⟩ := during_on hreached
  rw [hkept.disabled buffer hbuffer c' hduring] at hon
  cases hon

end MuTegra.Screen.Interrupts
