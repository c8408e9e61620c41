/- Unit: MuTegra/Keyboard/Queue
   source: NvidiaPkg/Drivers/TegraKeyboardDxe/TegraKeyboardTextIn.c
   digest: The keyboard's key queue as a bounded list. -/

import MuTegra.Foundation.RingQueue
import MuTegra.Uefi.Status

set_option autoImplicit false
set_option relaxedAutoImplicit false

namespace MuTegra.Keyboard.Queue

open MuTegra.Foundation.RingQueue
open MuTegra.Uefi.Status

structure EfiKeyData where
  scanCode : UInt16
  unicodeChar : UInt16
  keyShiftState : UInt32
  keyToggleState : UInt8
  deriving DecidableEq, Repr

def keyboardEfiKeyMaxCount : ℕ := 256

/-- `EFI_KEY_QUEUE`; both cursors stay inside the buffer. -/
structure EfiKeyQueue where
  buffer : ℕ → EfiKeyData
  head : ℕ
  tail : ℕ
  head_lt : head < keyboardEfiKeyMaxCount
  tail_lt : tail < keyboardEfiKeyMaxCount

/-- The queue after a reset; the cells keep what they held. -/
def EfiKeyQueue.reset (buffer : ℕ → EfiKeyData) : EfiKeyQueue where
  buffer := buffer
  head := 0
  tail := 0
  head_lt := by decide
  tail_lt := by decide

def isEfikeyBufEmpty (queue : EfiKeyQueue) : Bool := queue.head == queue.tail

theorem advance_lt (i : ℕ) : (i + 1) % keyboardEfiKeyMaxCount < keyboardEfiKeyMaxCount :=
  Nat.mod_lt _ (by decide)

def popEfikeyBufHead (queue : EfiKeyQueue) : EfiStatus × Option EfiKeyData × EfiKeyQueue :=
  if isEfikeyBufEmpty queue then (efiNotReady, none, queue)
  else
    (efiSuccess, some (queue.buffer queue.head),
      { queue with
        head := (queue.head + 1) % keyboardEfiKeyMaxCount
        head_lt := advance_lt _ })

def storeAtTail (queue : EfiKeyQueue) (keyData : EfiKeyData) : EfiKeyQueue :=
  { queue with
    buffer := Function.update queue.buffer queue.tail keyData
    tail := (queue.tail + 1) % keyboardEfiKeyMaxCount
    tail_lt := advance_lt _ }

def pushEfikeyBufTail (queue : EfiKeyQueue) (keyData : EfiKeyData) : EfiKeyQueue :=
  if (queue.tail + 1) % keyboardEfiKeyMaxCount = queue.head then
    storeAtTail (popEfikeyBufHead queue).2.2 keyData
  else storeAtTail queue keyData

def EfiKeyQueue.contents (queue : EfiKeyQueue) : List EfiKeyData :=
  ringContents queue.buffer keyboardEfiKeyMaxCount queue.head
    (ringCount keyboardEfiKeyMaxCount queue.head queue.tail)

variable {queue : EfiKeyQueue}

theorem contents_length_lt (queue : EfiKeyQueue) : queue.contents.length < 256 := by
  rw [EfiKeyQueue.contents, ringContents_length]
  exact ringCount_lt (by decide) _ _

theorem isEfikeyBufEmpty_iff : isEfikeyBufEmpty queue = true ↔ queue.contents = [] := by
  rw [isEfikeyBufEmpty, beq_iff_eq, ← List.length_eq_zero_iff, EfiKeyQueue.contents,
    ringContents_length, ringCount_eq_zero queue.head_lt queue.tail_lt]

@[simp] theorem contents_reset (buffer : ℕ → EfiKeyData) :
    (EfiKeyQueue.reset buffer).contents = [] :=
  isEfikeyBufEmpty_iff.mp rfl

theorem popEfikeyBufHead_cases (queue : EfiKeyQueue) :
    (queue.contents = [] ∧ popEfikeyBufHead queue = (efiNotReady, none, queue)) ∨
      ∃ keyData queue', popEfikeyBufHead queue = (efiSuccess, some keyData, queue') ∧
        queue.contents = keyData :: queue'.contents := by
  by_cases hempty : isEfikeyBufEmpty queue = true
  · exact Or.inl ⟨isEfikeyBufEmpty_iff.mp hempty, if_pos hempty⟩
  · refine Or.inr ⟨_, _, if_neg hempty, ?_⟩
    have hne : queue.head ≠ queue.tail := by
      simpa [isEfikeyBufEmpty] using hempty
    have hcount := ringCount_pop queue.head_lt queue.tail_lt hne
    unfold EfiKeyQueue.contents
    rw [← hcount, ringContents_cons _ queue.head_lt]

theorem contents_eq_cons (hne : isEfikeyBufEmpty queue = false) :
    queue.contents = queue.buffer queue.head :: (popEfikeyBufHead queue).2.2.contents := by
  have hempty : ¬ isEfikeyBufEmpty queue = true := by rw [hne]; decide
  rcases popEfikeyBufHead_cases queue with ⟨hnone, _⟩ | ⟨keyData, queue', hpop, hcons⟩
  · exact absurd (isEfikeyBufEmpty_iff.mpr hnone) hempty
  · have htaken := hpop
    rw [popEfikeyBufHead, if_neg hempty] at htaken
    have hkey : queue.buffer queue.head = keyData :=
      Option.some.inj (congrArg (fun result => result.2.1) htaken)
    rw [hpop, hkey]
    exact hcons

theorem storeAtTail_contents (keyData : EfiKeyData) (hroom : queue.contents.length ≠ 255) :
    (storeAtTail queue keyData).contents = queue.contents ++ [keyData] := by
  rw [EfiKeyQueue.contents, ringContents_length] at hroom
  have hcount := ringCount_push queue.head_lt queue.tail_lt
    (show ringCount keyboardEfiKeyMaxCount queue.head queue.tail + 1 ≠ keyboardEfiKeyMaxCount from
      fun h => hroom (Nat.succ.inj h))
  have hlt := ringCount_lt (show 0 < keyboardEfiKeyMaxCount by decide) queue.head queue.tail
  have htail := ringCount_tail queue.head_lt queue.tail_lt
  simp only [EfiKeyQueue.contents, storeAtTail, hcount]
  have happend := ringContents_append queue.buffer queue.head hlt keyData
  rwa [htail] at happend

theorem pushEfikeyBufTail_contents (queue : EfiKeyQueue) (keyData : EfiKeyData) :
    (pushEfikeyBufTail queue keyData).contents =
      (if queue.contents.length = 255 then queue.contents.tail else queue.contents) ++
        [keyData] := by
  have hfull : (queue.tail + 1) % keyboardEfiKeyMaxCount = queue.head ↔
      queue.contents.length = 255 := by
    rw [ringCount_full queue.head_lt queue.tail_lt, EfiKeyQueue.contents, ringContents_length]
    exact Nat.succ_inj
  unfold pushEfikeyBufTail
  by_cases h : queue.contents.length = 255
  · rw [if_pos (hfull.mpr h), if_pos h]
    rcases popEfikeyBufHead_cases queue with ⟨hempty, _⟩ | ⟨oldest, queue', hpop, hcontents⟩
    · rw [hempty] at h
      cases h
    · rw [hpop, hcontents, List.tail_cons]
      change (storeAtTail queue' keyData).contents = queue'.contents ++ [keyData]
      refine storeAtTail_contents keyData ?_
      rw [hcontents, List.length_cons] at h
      omega
  · rw [if_neg (fun heq => h (hfull.mp heq)), if_neg h]
    exact storeAtTail_contents keyData h

end MuTegra.Keyboard.Queue
