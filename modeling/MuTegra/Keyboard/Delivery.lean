/- Unit: MuTegra/Keyboard/Delivery
   source: NvidiaPkg/Drivers/TegraKeyboardDxe/TegraKeyboardTextIn.c, TegraKeyboardController.c
   digest: Every keystroke goes to one reader once and in order, however the calls interleave. -/

import MuTegra.Foundation.Conveying
import MuTegra.Keyboard.TextInEx
import Mathlib.Data.List.Forall2

set_option autoImplicit false
set_option relaxedAutoImplicit false

namespace MuTegra.Keyboard.Delivery

open MuTegra.Foundation.Conveying
open MuTegra.Uefi.Status
open MuTegra.Keyboard.Queue
open MuTegra.Keyboard.Notify
open MuTegra.Keyboard.ConsoleIn
open MuTegra.Keyboard.TextIn
open MuTegra.Keyboard.TextInEx

/-- A call of the driver; the loop of `KeyboardReadKeyStroke` polls the device once a pass. -/
inductive Call
  | timer (poll : Poll)
  | waitForKey (poll : Poll)
  | waitForKeyEx (poll : Poll)
  | readKeyStroke (polls : List Poll)
  | readKeyStrokeEx (poll : Poll) (keyData : Bool)
  | setState (keyToggleState : Option UInt8)
  | reset

inductive Delivered
  | plain (key : EfiInputKey)
  | extended (keyData : EfiKeyData)
  deriving DecidableEq

/-- What is delivered and the device behind the call; nothing when the polls given run out. -/
def callStep (consoleIn : ConsoleInDev) : Call → Option (Option Delivered × ConsoleInDev)
  | .timer poll => some (none, keyboardTimerHandler consoleIn poll)
  | .waitForKey poll => some (none, (keyboardWaitForKey consoleIn poll).2)
  | .waitForKeyEx poll => some (none, (keyboardWaitForKeyEx consoleIn poll).2)
  | .readKeyStroke polls =>
      (keyboardReadKeyStroke consoleIn polls).map fun (_, key, consoleIn) =>
        (key.map .plain, consoleIn)
  | .readKeyStrokeEx poll keyData =>
      match keyboardReadKeyStrokeEx consoleIn poll keyData with
      | (_, key, consoleIn) => some (key.map .extended, consoleIn)
  | .setState keyToggleState => some (none, (keyboardSetState consoleIn keyToggleState).2)
  | .reset => some (none, (keyboardEfiReset consoleIn).2)

def runCalls (consoleIn : ConsoleInDev) : List Call → Option (List Delivered × ConsoleInDev)
  | [] => some ([], consoleIn)
  | call :: calls =>
      match callStep consoleIn call with
      | none => none
      | some (delivered, consoleIn) =>
          (runCalls consoleIn calls).map fun (rest, consoleIn) =>
            (delivered.toList ++ rest, consoleIn)

def typed (consoleIn : ConsoleInDev) (poll : Poll) : List EfiKeyData :=
  if consoleIn.keyboardErr then [] else poll.getKeys (deltaCounter consoleIn poll)

def typedReading (consoleIn : ConsoleInDev) : List Poll → List EfiKeyData
  | [] => []
  | poll :: polls =>
      typed consoleIn poll ++
        match keyboardReadKeyStrokeWorker consoleIn poll true with
        | (status, some keyData, consoleIn) =>
            if !efiError status && isPartialKey keyData then typedReading consoleIn polls else []
        | (_, none, _) => []

def typedIn (consoleIn : ConsoleInDev) : Call → List EfiKeyData
  | .timer poll => typed consoleIn poll
  | .waitForKey poll => typed consoleIn poll
  | .waitForKeyEx poll => typed consoleIn poll
  | .readKeyStroke polls => typedReading consoleIn polls
  | .readKeyStrokeEx poll keyData => if keyData then typed consoleIn poll else []
  | .setState _ => []
  | .reset => []

def typedAll (consoleIn : ConsoleInDev) : List Call → List EfiKeyData
  | [] => []
  | call :: calls =>
      typedIn consoleIn call ++
        match callStep consoleIn call with
        | none => []
        | some (_, consoleIn) => typedAll consoleIn calls

def isRealKey (keyData : EfiKeyData) : Bool := !isPartialKey keyData

inductive Shows : Delivered → EfiKeyData → Prop
  | plain {keyData : EfiKeyData} {key : EfiInputKey} (h : ReadsAs keyData key) :
      Shows (.plain key) keyData
  | extended (keyData : EfiKeyData) : Shows (.extended keyData) keyData

/-- There is room for what is typed during the call, and a reset throws no keystroke away. -/
def HasRoom (consoleIn : ConsoleInDev) (call : Call) : Prop :=
  consoleIn.efiKeyQueue.contents.length + (typedIn consoleIn call).length ≤ 255 ∧
    (call = .reset → ∀ keyData ∈ consoleIn.efiKeyQueue.contents, isRealKey keyData = false)

def AlwaysRoom (consoleIn : ConsoleInDev) : List Call → Prop
  | [] => True
  | call :: calls =>
      HasRoom consoleIn call ∧
        ∀ delivered after, callStep consoleIn call = some (delivered, after) →
          AlwaysRoom after calls

variable {consoleIn : ConsoleInDev} {poll : Poll}

theorem press_conveys (consoleIn : KeyboardConsoleInDev) (keyData : EfiKeyData) :
    Conveys isRealKey (consoleIn.efiKeyQueue.contents.length < 255)
      consoleIn.efiKeyQueue.contents [keyData] []
      (keyboardReturnApiPushEfikeyBufTail consoleIn keyData).efiKeyQueue.contents := by
  rw [keyboardReturnApiPushEfikeyBufTail]
  split
  · dsimp only
    rw [queueMatches_efiKeyQueue, pushEfikeyBufTail_contents]
    exact conveys_push isRealKey keyData
  · next hrefused =>
      have unreal : isRealKey keyData = false := by
        rw [isRealKey]
        rw [isAccepted] at hrefused
        cases hkey : isPartialKey keyData with
        | true => rfl
        | false => simp [hkey] at hrefused
      exact (conveys_ignore unreal _).weaken fun _ => trivial

theorem press_length (consoleIn : KeyboardConsoleInDev) (keyData : EfiKeyData) :
    (keyboardReturnApiPushEfikeyBufTail consoleIn keyData).efiKeyQueue.contents.length ≤
      consoleIn.efiKeyQueue.contents.length + 1 := by
  have hlength := (press_conveys consoleIn keyData).order.length_le
  simpa using hlength

theorem presses_convey (keys : List EfiKeyData) (consoleIn : KeyboardConsoleInDev) :
    Conveys isRealKey (consoleIn.efiKeyQueue.contents.length + keys.length ≤ 255)
      consoleIn.efiKeyQueue.contents keys []
      (keys.foldl keyboardReturnApiPushEfikeyBufTail consoleIn).efiKeyQueue.contents := by
  induction keys generalizing consoleIn with
  | nil => exact (Conveys.refl isRealKey _).weaken fun _ => trivial
  | cons keyData keys ih =>
      have hpress := press_conveys consoleIn keyData
      have hlength := press_length consoleIn keyData
      refine (hpress.trans (ih _)).weaken fun hroom => ⟨?_, ?_⟩
      · rw [List.length_cons] at hroom
        omega
      · rw [List.length_cons] at hroom
        omega

theorem timer_conveys (consoleIn : ConsoleInDev) (poll : Poll) :
    Conveys isRealKey
      (consoleIn.efiKeyQueue.contents.length + (typed consoleIn poll).length ≤ 255)
      consoleIn.efiKeyQueue.contents (typed consoleIn poll) []
      (keyboardTimerHandler consoleIn poll).efiKeyQueue.contents := by
  rw [keyboardTimerHandler, typed]
  split
  · exact (Conveys.refl isRealKey _).weaken fun _ => trivial
  · exact presses_convey _ _

theorem skip_conveys (queue : EfiKeyQueue) :
    Conveys isRealKey True queue.contents [] [] (skipPartialKeys queue).2.contents := by
  rw [(skipPartialKeys_spec queue).1, realKeys]
  have hsplit := List.takeWhile_append_dropWhile (p := isPartialKey) (l := queue.contents)
  nth_rewrite 1 [← hsplit]
  apply conveys_drop
  intro keyData hkey
  rw [isRealKey, List.mem_takeWhile_imp hkey]
  rfl

theorem waitForKey_conveys (consoleIn : ConsoleInDev) (poll : Poll) :
    Conveys isRealKey
      (consoleIn.efiKeyQueue.contents.length + (typed consoleIn poll).length ≤ 255)
      consoleIn.efiKeyQueue.contents (typed consoleIn poll) []
      (keyboardWaitForKey consoleIn poll).2.efiKeyQueue.contents := by
  have htimer := timer_conveys consoleIn poll
  rw [keyboardWaitForKey]
  dsimp only
  split
  · have hboth := htimer.trans (skip_conveys (keyboardTimerHandler consoleIn poll).efiKeyQueue)
    rw [List.append_nil] at hboth
    exact hboth.weaken fun hroom => ⟨hroom, trivial⟩
  · exact htimer

theorem worker_conveys {status : EfiStatus} {key : Option EfiKeyData} {after : ConsoleInDev}
    (h : keyboardReadKeyStrokeWorker consoleIn poll true = (status, key, after)) :
    Conveys isRealKey
      (consoleIn.efiKeyQueue.contents.length + (typed consoleIn poll).length ≤ 255)
      consoleIn.efiKeyQueue.contents (typed consoleIn poll) key.toList
      after.efiKeyQueue.contents ∧ (key ≠ none → status = efiSuccess) := by
  have htimer := timer_conveys consoleIn poll
  rw [keyboardReadKeyStrokeWorker, if_neg (by decide)] at h
  dsimp only at h
  split at h
  · cases h
    exact ⟨htimer, fun hnone => absurd rfl hnone⟩
  · rcases popEfikeyBufHead_cases (keyboardTimerHandler consoleIn poll).efiKeyQueue with
      ⟨hempty, hpop⟩ | ⟨keyData, queue, hpop, hcons⟩
    · rw [hpop] at h
      cases h
      exact ⟨htimer, fun hnone => absurd rfl hnone⟩
    · rw [hpop] at h
      cases h
      rw [hcons] at htimer
      have hboth := htimer.trans (conveys_pop isRealKey keyData queue.contents)
      rw [List.append_nil] at hboth
      exact ⟨hboth.weaken fun hroom => ⟨hroom, trivial⟩, fun _ => rfl⟩

variable {after : ConsoleInDev}

theorem readKeyStroke_conveys {polls : List Poll} {status : EfiStatus} {key : Option EfiInputKey}
    (h : keyboardReadKeyStroke consoleIn polls = some (status, key, after)) :
    ∃ keys, List.Forall₂ Shows (key.map .plain).toList keys ∧
      Conveys isRealKey
        (consoleIn.efiKeyQueue.contents.length + (typedReading consoleIn polls).length ≤ 255)
        consoleIn.efiKeyQueue.contents (typedReading consoleIn polls) keys
        after.efiKeyQueue.contents := by
  induction polls generalizing consoleIn with
  | nil => cases h
  | cons poll polls ih =>
      rw [keyboardReadKeyStroke] at h
      rw [typedReading]
      rcases hread : keyboardReadKeyStrokeWorker consoleIn poll true with ⟨answer, found, next⟩
      rw [hread] at h
      obtain ⟨hworker, hanswer⟩ := worker_conveys hread
      cases found with
      | none =>
          cases h
          dsimp only
          rw [List.append_nil]
          exact ⟨[], .nil, hworker⟩
      | some keyData =>
          have hok : efiError answer = false := by
            rw [hanswer (Option.some_ne_none keyData)]
            rfl
          dsimp only at h ⊢
          rw [hok] at h ⊢
          rw [if_neg Bool.false_ne_true] at h
          by_cases unreal : isPartialKey keyData = true
          · rw [if_pos unreal] at h
            rw [unreal, if_pos (by decide)]
            obtain ⟨keys, hshown, hrest⟩ := ih h
            have hdropped : isRealKey keyData = false := by
              rw [isRealKey, unreal]
              rfl
            refine ⟨keys, hshown, ((hworker.discard hdropped).trans hrest).weaken ?_⟩
            intro hroom
            have hlength := hworker.order.length_le
            simp only [List.length_append, Option.toList_some, List.length_singleton]
              at hlength hroom
            constructor <;> omega
          · rw [if_neg unreal] at h
            cases h
            rw [Bool.not_eq_true] at unreal
            rw [unreal, if_neg (by decide), List.append_nil]
            exact ⟨[keyData], .cons (.plain (readsAs_translateKey keyData)) .nil, hworker⟩

theorem setState_contents (consoleIn : ConsoleInDev) (keyToggleState : Option UInt8) :
    (keyboardSetState consoleIn keyToggleState).2.efiKeyQueue = consoleIn.efiKeyQueue := by
  cases keyToggleState with
  | none => rfl
  | some bits =>
      rw [keyboardSetState]
      split
      · rfl
      · split
        · rfl
        · rw [updateStatusLight]
          dsimp only
          split
          · rfl
          · split
            · rfl
            · split
              · rfl
              · split <;> rfl

theorem reset_conveys (consoleIn : ConsoleInDev) :
    Conveys isRealKey (∀ keyData ∈ consoleIn.efiKeyQueue.contents, isRealKey keyData = false)
      consoleIn.efiKeyQueue.contents [] [] (keyboardEfiReset consoleIn).2.efiKeyQueue.contents := by
  rw [keyboardEfiReset]
  split
  · exact (Conveys.refl isRealKey _).weaken fun _ => trivial
  · change Conveys isRealKey _ _ _ _ (EfiKeyQueue.reset consoleIn.efiKeyQueue.buffer).contents
    rw [contents_reset]
    exact conveys_clear isRealKey _

theorem callStep_conveys {call : Call} {delivered : Option Delivered}
    (h : callStep consoleIn call = some (delivered, after)) :
    ∃ keys, List.Forall₂ Shows delivered.toList keys ∧
      Conveys isRealKey (HasRoom consoleIn call) consoleIn.efiKeyQueue.contents
        (typedIn consoleIn call) keys after.efiKeyQueue.contents := by
  cases call with
  | timer poll =>
      cases h
      exact ⟨[], .nil, (timer_conveys consoleIn poll).weaken fun hroom => hroom.1⟩
  | waitForKey poll =>
      cases h
      exact ⟨[], .nil, (waitForKey_conveys consoleIn poll).weaken fun hroom => hroom.1⟩
  | waitForKeyEx poll =>
      cases h
      exact ⟨[], .nil, (waitForKey_conveys consoleIn poll).weaken fun hroom => hroom.1⟩
  | readKeyStroke polls =>
      rw [callStep, Option.map_eq_some_iff] at h
      obtain ⟨⟨status, key, next⟩, hread, heq⟩ := h
      cases heq
      obtain ⟨keys, hshown, hconveys⟩ := readKeyStroke_conveys hread
      exact ⟨keys, hshown, hconveys.weaken fun hroom => hroom.1⟩
  | readKeyStrokeEx poll keyData =>
      cases keyData with
      | false =>
          cases h
          exact ⟨[], .nil, (Conveys.refl isRealKey _).weaken fun _ => trivial⟩
      | true =>
          rcases hread : keyboardReadKeyStrokeWorker consoleIn poll true with ⟨status, key, next⟩
          obtain ⟨hworker, -⟩ := worker_conveys hread
          rw [callStep, keyboardReadKeyStrokeEx, if_neg (by decide), hread] at h
          cases h
          refine ⟨key.toList, ?_, hworker.weaken fun hroom => hroom.1⟩
          cases key with
          | none => exact .nil
          | some keyData => exact .cons (.extended keyData) .nil
  | setState keyToggleState =>
      cases h
      rw [setState_contents]
      exact ⟨[], .nil, (Conveys.refl isRealKey _).weaken fun _ => trivial⟩
  | reset =>
      cases h
      exact ⟨[], .nil, (reset_conveys consoleIn).weaken fun hroom => hroom.2 rfl⟩

/-- However timer ticks, looks at the events, both readers, set-state calls and resets interleave:
the keystrokes returned so far followed by those still queued are among the typed ones, in the order
typed, and with room in the queue throughout none but partial ones are missing. -/
theorem keystrokes_delivered {consoleIn after : ConsoleInDev} {calls : List Call}
    {delivered : List Delivered} (h : runCalls consoleIn calls = some (delivered, after)) :
    ∃ keys, List.Forall₂ Shows delivered keys ∧
      Conveys isRealKey (AlwaysRoom consoleIn calls) consoleIn.efiKeyQueue.contents
        (typedAll consoleIn calls) keys after.efiKeyQueue.contents := by
  induction calls generalizing consoleIn delivered with
  | nil =>
      cases h
      exact ⟨[], .nil, (Conveys.refl isRealKey _).weaken fun _ => trivial⟩
  | cons call calls ih =>
      rw [runCalls] at h
      cases hcall : callStep consoleIn call with
      | none =>
          rw [hcall] at h
          cases h
      | some out =>
          obtain ⟨first, next⟩ := out
          rw [hcall] at h
          dsimp only at h
          rw [Option.map_eq_some_iff] at h
          obtain ⟨⟨rest, last⟩, hrest, heq⟩ := h
          cases heq
          obtain ⟨keys, hshown, hconveys⟩ := callStep_conveys hcall
          obtain ⟨keys', hshown', hconveys'⟩ := ih hrest
          rw [typedAll, hcall]
          refine ⟨keys ++ keys', List.rel_append hshown hshown', ?_⟩
          exact (hconveys.trans hconveys').weaken fun hroom => ⟨hroom.1, hroom.2 _ _ hcall⟩

def typingPoll : Poll where
  currentCounterValue := 0
  getKeys := fun _ => [plainKey, partialKey]

def mixedCalls : List Call :=
  [.timer typingPoll, .setState (some 0xC0), .readKeyStrokeEx typingPoll true,
    .readKeyStroke [quietPoll, quietPoll, quietPoll]]

theorem keystrokes_delivered_mixed :
    ∃ delivered after, runCalls partialFirst mixedCalls = some (delivered, after) ∧
      ∃ keys, List.Forall₂ Shows delivered keys ∧
        Conveys isRealKey (AlwaysRoom partialFirst mixedCalls) partialFirst.efiKeyQueue.contents
          (typedAll partialFirst mixedCalls) keys after.efiKeyQueue.contents := by
  have hrun : ∃ out, runCalls partialFirst mixedCalls = some out :=
    Option.isSome_iff_exists.mp (by decide)
  obtain ⟨⟨delivered, after⟩, hrun⟩ := hrun
  exact ⟨delivered, after, hrun, keystrokes_delivered hrun⟩

end MuTegra.Keyboard.Delivery
