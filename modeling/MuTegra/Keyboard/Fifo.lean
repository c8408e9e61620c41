/- Unit: MuTegra/Keyboard/Fifo
   source: NvidiaPkg/Drivers/TegraKeyboardDxe/TegraKeyboardTextIn.c, TegraKeyboard.h
   digest: Over every run from a reset the ring buffer is a queue of the latest 255 keys. -/

import MuTegra.Foundation.BoundedFifo
import MuTegra.Foundation.Runs
import MuTegra.Keyboard.Queue

set_option autoImplicit false
set_option relaxedAutoImplicit false

namespace MuTegra.Keyboard.Fifo

open MuTegra.Foundation.Runs
open MuTegra.Foundation.BoundedFifo
open MuTegra.Uefi.Status
open MuTegra.Keyboard.Queue

/-- The status and key a call returns; a push returns nothing. -/
abbrev KeyAnswer := Option (EfiStatus × Option EfiKeyData)

def queueStep (queue : EfiKeyQueue) : FifoCall EfiKeyData → KeyAnswer × EfiKeyQueue
  | .push keyData => (none, pushEfikeyBufTail queue keyData)
  | .pop => (some ((popEfikeyBufHead queue).1, (popEfikeyBufHead queue).2.1),
      (popEfikeyBufHead queue).2.2)

/-- `EFI_NOT_READY` exactly when no key is kept. -/
def keyAnswer : FifoAnswer EfiKeyData → KeyAnswer
  | .pushed => none
  | .popped none => some (efiNotReady, none)
  | .popped (some keyData) => some (efiSuccess, some keyData)

theorem queueStep_simulates :
    Simulates queueStep (fifoStep (keyboardEfiKeyMaxCount - 1))
      (fun queue kept => queue.contents = kept) keyAnswer := by
  intro queue kept call hkept
  subst hkept
  cases call with
  | push keyData =>
      refine ⟨rfl, ?_⟩
      have hlt : queue.contents.length < 256 := contents_length_lt queue
      have hcapacity : keyboardEfiKeyMaxCount - 1 = 255 := rfl
      simp only [queueStep, fifoStep, pushEfikeyBufTail_contents, hcapacity]
      by_cases hfull : queue.contents.length = 255
      · rw [if_pos hfull, push_full keyData hfull (by decide)]
      · have hroom : queue.contents.length < 255 := by omega
        rw [if_neg hfull, push_room keyData hroom]
  | pop =>
      rcases popEfikeyBufHead_cases queue with ⟨hempty, hpop⟩ | ⟨keyData, queue', hpop, hcons⟩
      · simp [queueStep, fifoStep, keyAnswer, hpop, hempty]
      · simp [queueStep, fifoStep, keyAnswer, hpop, hcons]

/-- From a reset, whatever the cells held: every answer is that of a queue of the latest
255 keys, its keys are the queued ones, and both cursors stay inside the array. -/
theorem keyQueue_refines_fifo (buffer : ℕ → EfiKeyData) (calls : List (FifoCall EfiKeyData)) :
    answers queueStep (.reset buffer) calls =
        (answers (fifoStep (keyboardEfiKeyMaxCount - 1)) [] calls).map keyAnswer ∧
      (stateAfter queueStep (.reset buffer) calls).contents =
        stateAfter (fifoStep (keyboardEfiKeyMaxCount - 1)) [] calls ∧
      (stateAfter queueStep (.reset buffer) calls).head < keyboardEfiKeyMaxCount ∧
      (stateAfter queueStep (.reset buffer) calls).tail < keyboardEfiKeyMaxCount := by
  obtain ⟨hanswers, hcontents⟩ :=
    queueStep_simulates.run (contents_reset buffer) calls
  exact ⟨hanswers, hcontents, EfiKeyQueue.head_lt _, EfiKeyQueue.tail_lt _⟩

end MuTegra.Keyboard.Fifo
