/- Unit: MuTegra/Keyboard/TextIn
   source: NvidiaPkg/Drivers/TegraKeyboardDxe/TegraKeyboardTextIn.c
   digest: The plain text-in interface: its wait event and its reader agree on every queue. -/

import MuTegra.Keyboard.ConsoleIn
import Mathlib.Data.List.TakeWhile

set_option autoImplicit false
set_option relaxedAutoImplicit false

namespace MuTegra.Keyboard.TextIn

open MuTegra.Uefi.Status
open MuTegra.Keyboard.Queue
open MuTegra.Keyboard.Notify
open MuTegra.Keyboard.ConsoleIn

structure EfiInputKey where
  scanCode : UInt16
  unicodeChar : UInt16
  deriving DecidableEq, Repr

/-- `KeyboardReadKeyStrokeWorker`; the flag says that `KeyData` is not NULL. -/
def keyboardReadKeyStrokeWorker (consoleIn : ConsoleInDev) (poll : Poll) (keyData : Bool) :
    EfiStatus × Option EfiKeyData × ConsoleInDev :=
  if !keyData then (efiInvalidParameter, none, consoleIn)
  else
    let consoleIn := keyboardTimerHandler consoleIn poll
    if consoleIn.keyboardErr then (efiDeviceError, none, consoleIn)
    else
      match popEfikeyBufHead consoleIn.efiKeyQueue with
      | (status, key, queue) => (status, key, { consoleIn with efiKeyQueue := queue })

/-- `EFI_LEFT_CONTROL_PRESSED | EFI_RIGHT_CONTROL_PRESSED`. -/
def controlPressed : UInt32 := 0x8 ||| 0x4

/-- The key handed out, with a letter under Control turned into its control value. -/
def translateKey (keyData : EfiKeyData) : EfiInputKey where
  scanCode := keyData.scanCode
  unicodeChar :=
    if keyData.keyShiftState &&& controlPressed ≠ 0 then
      if 0x61 ≤ keyData.unicodeChar ∧ keyData.unicodeChar ≤ 0x7A then
        keyData.unicodeChar - 0x61 + 1
      else if 0x41 ≤ keyData.unicodeChar ∧ keyData.unicodeChar ≤ 0x5A then
        keyData.unicodeChar - 0x41 + 1
      else keyData.unicodeChar
    else keyData.unicodeChar

/-- `KeyboardReadKeyStroke`, one poll for each pass of its loop; nothing when the polls
given run out before it returns. -/
def keyboardReadKeyStroke (consoleIn : ConsoleInDev) :
    List Poll → Option (EfiStatus × Option EfiInputKey × ConsoleInDev)
  | [] => none
  | poll :: polls =>
      match keyboardReadKeyStrokeWorker consoleIn poll true with
      | (status, some keyData, consoleIn) =>
          if efiError status then some (status, none, consoleIn)
          else if isPartialKey keyData then keyboardReadKeyStroke consoleIn polls
          else some (efiSuccess, some (translateKey keyData), consoleIn)
      | (status, none, consoleIn) => some (status, none, consoleIn)

/-- The loop of `KeyboardWaitForKey`: whether it signals, and the queue it leaves. -/
def skipPartialKeys (queue : EfiKeyQueue) : Bool × EfiKeyQueue :=
  if _hempty : isEfikeyBufEmpty queue then (false, queue)
  else if isPartialKey (queue.buffer queue.head) then
    skipPartialKeys (popEfikeyBufHead queue).2.2
  else (true, queue)
termination_by queue.contents.length
decreasing_by
  rw [contents_eq_cons (Bool.eq_false_iff.mpr _hempty), List.length_cons]
  exact Nat.lt_succ_self _

def keyboardWaitForKey (consoleIn : ConsoleInDev) (poll : Poll) : Bool × ConsoleInDev :=
  let consoleIn := keyboardTimerHandler consoleIn poll
  if !consoleIn.keyboardErr then
    match skipPartialKeys consoleIn.efiKeyQueue with
    | (signalled, queue) => (signalled, { consoleIn with efiKeyQueue := queue })
  else (false, consoleIn)

def realKeys (queue : EfiKeyQueue) : List EfiKeyData := queue.contents.dropWhile isPartialKey

/-- The key handed out for a keystroke: under Control a letter is its place in the
alphabet, any other character is itself. -/
structure ReadsAs (keyData : EfiKeyData) (key : EfiInputKey) : Prop where
  scanCode : key.scanCode = keyData.scanCode
  unicodeChar : key.unicodeChar.toNat =
    if keyData.keyShiftState &&& controlPressed ≠ 0 then
      if 97 ≤ keyData.unicodeChar.toNat ∧ keyData.unicodeChar.toNat ≤ 122 then
        keyData.unicodeChar.toNat - 96
      else if 65 ≤ keyData.unicodeChar.toNat ∧ keyData.unicodeChar.toNat ≤ 90 then
        keyData.unicodeChar.toNat - 64
      else keyData.unicodeChar.toNat
    else keyData.unicodeChar.toNat

/-- Nothing but the key queue and the counter of the last poll differs. -/
def OnlyQueue (consoleIn after : ConsoleInDev) : Prop :=
  after = { consoleIn with last := after.last, efiKeyQueue := after.efiKeyQueue }

theorem onlyQueue (consoleIn : ConsoleInDev) (last : BitVec 64) (queue : EfiKeyQueue) :
    OnlyQueue consoleIn { consoleIn with last := last, efiKeyQueue := queue } := rfl

theorem readsAs_translateKey (keyData : EfiKeyData) : ReadsAs keyData (translateKey keyData) := by
  refine ⟨rfl, ?_⟩
  have hbound := keyData.unicodeChar.toNat_lt
  simp only [translateKey, UInt16.le_iff_toNat_le]
  split
  · split
    · rename_i hletter
      have hlow : (0x61 : UInt16).toNat ≤ keyData.unicodeChar.toNat := hletter.1
      simp only [UInt16.reduceToNat] at hletter
      rw [if_pos hletter, UInt16.toNat_add, UInt16.toNat_sub_of_le _ _ hlow]
      simp only [UInt16.reduceToNat]
      omega
    · rename_i hlower
      simp only [UInt16.reduceToNat] at hlower
      rw [if_neg hlower]
      split
      · rename_i hletter
        have hlow : (0x41 : UInt16).toNat ≤ keyData.unicodeChar.toNat := hletter.1
        simp only [UInt16.reduceToNat] at hletter
        rw [if_pos hletter, UInt16.toNat_add, UInt16.toNat_sub_of_le _ _ hlow]
        simp only [UInt16.reduceToNat]
        omega
      · rename_i hupper
        simp only [UInt16.reduceToNat] at hupper
        rw [if_neg hupper]
  · rfl

theorem skipPartialKeys_spec (queue : EfiKeyQueue) :
    (skipPartialKeys queue).2.contents = realKeys queue ∧
      ((skipPartialKeys queue).1 = true ↔ realKeys queue ≠ []) := by
  induction queue using skipPartialKeys.induct with
  | case1 queue hempty =>
      have hnone := isEfikeyBufEmpty_iff.mp hempty
      rw [skipPartialKeys, dif_pos hempty, realKeys, hnone]
      simp
  | case2 queue hempty hpartial ih =>
      have hcons := contents_eq_cons (Bool.eq_false_iff.mpr hempty)
      have hskip : realKeys queue = realKeys (popEfikeyBufHead queue).2.2 := by
        rw [realKeys, hcons, List.dropWhile_cons_of_pos hpartial, realKeys]
      rw [skipPartialKeys, dif_neg hempty, if_pos hpartial, hskip]
      exact ih
  | case3 queue hempty hreal =>
      have hcons := contents_eq_cons (Bool.eq_false_iff.mpr hempty)
      have hkeep : realKeys queue = queue.contents := by
        rw [realKeys, hcons, List.dropWhile_cons_of_neg hreal]
      rw [skipPartialKeys, dif_neg hempty, if_neg hreal, hkeep, hcons]
      simp

variable {consoleIn : ConsoleInDev} {poll : Poll} {polls : List Poll}

/-- A poll of the event leaves the real keys and says whether there are any. -/
theorem keyboardWaitForKey_spec (herr : consoleIn.keyboardErr = false) (hquiet : poll.Quiet) :
    OnlyQueue consoleIn (keyboardWaitForKey consoleIn poll).2 ∧
      (keyboardWaitForKey consoleIn poll).2.efiKeyQueue.contents =
        realKeys consoleIn.efiKeyQueue ∧
      ((keyboardWaitForKey consoleIn poll).1 = true ↔ realKeys consoleIn.efiKeyQueue ≠ []) := by
  obtain ⟨hcontents, hsignal⟩ := skipPartialKeys_spec consoleIn.efiKeyQueue
  have hpass : keyboardWaitForKey consoleIn poll =
      ((skipPartialKeys consoleIn.efiKeyQueue).1,
        { consoleIn with
          last := poll.currentCounterValue
          efiKeyQueue := (skipPartialKeys consoleIn.efiKeyQueue).2 }) := by
    simp [keyboardWaitForKey, keyboardTimerHandler_quiet herr hquiet, herr]
  rw [hpass]
  exact ⟨rfl, hcontents, hsignal⟩

theorem keyboardReadKeyStroke_spec (herr : consoleIn.keyboardErr = false)
    (hquiet : ∀ poll ∈ polls, poll.Quiet)
    (henough : consoleIn.efiKeyQueue.contents.length < polls.length) :
    ∃ after, OnlyQueue consoleIn after ∧
      match realKeys consoleIn.efiKeyQueue with
      | [] => keyboardReadKeyStroke consoleIn polls = some (efiNotReady, none, after) ∧
          after.efiKeyQueue.contents = []
      | keyData :: rest =>
          keyboardReadKeyStroke consoleIn polls =
            some (efiSuccess, some (translateKey keyData), after) ∧
          after.efiKeyQueue.contents = rest := by
  induction polls generalizing consoleIn with
  | nil => exact absurd henough (Nat.not_lt_zero _)
  | cons poll polls ih =>
      have hpoll := keyboardTimerHandler_quiet herr (hquiet poll List.mem_cons_self)
      rcases popEfikeyBufHead_cases consoleIn.efiKeyQueue with
        ⟨hempty, hpop⟩ | ⟨keyData, queue, hpop, hcons⟩
      · have hread : keyboardReadKeyStroke consoleIn (poll :: polls) =
            some (efiNotReady, none, { consoleIn with last := poll.currentCounterValue }) := by
          simp [keyboardReadKeyStroke, keyboardReadKeyStrokeWorker, hpoll, herr, hpop]
        rw [hread, realKeys, hempty]
        exact ⟨_, onlyQueue consoleIn _ consoleIn.efiKeyQueue, rfl, hempty⟩
      · have hread : keyboardReadKeyStroke consoleIn (poll :: polls) =
            if isPartialKey keyData then
              keyboardReadKeyStroke
                { consoleIn with last := poll.currentCounterValue, efiKeyQueue := queue } polls
            else some (efiSuccess, some (translateKey keyData),
              { consoleIn with last := poll.currentCounterValue, efiKeyQueue := queue }) := by
          simp [keyboardReadKeyStroke, keyboardReadKeyStrokeWorker, hpoll, herr, hpop]
        rw [hread]
        by_cases hpartial : isPartialKey keyData = true
        · have hskip : realKeys consoleIn.efiKeyQueue = realKeys queue := by
            rw [realKeys, hcons, List.dropWhile_cons_of_pos hpartial, realKeys]
          rw [if_pos hpartial, hskip]
          rw [hcons, List.length_cons, List.length_cons] at henough
          have herr' : ({ consoleIn with
              last := poll.currentCounterValue, efiKeyQueue := queue } :
                ConsoleInDev).keyboardErr = false := herr
          obtain ⟨after, honly, hresult⟩ := ih herr'
            (fun later hlater => hquiet later (List.mem_cons_of_mem poll hlater))
            (Nat.lt_of_succ_lt_succ henough)
          exact ⟨after, honly, hresult⟩
        · have hkeep : realKeys consoleIn.efiKeyQueue = keyData :: queue.contents := by
            rw [realKeys, hcons, List.dropWhile_cons_of_neg hpartial]
          rw [if_neg hpartial, hkeep]
          exact ⟨_, onlyQueue consoleIn _ queue, rfl, rfl⟩

theorem realKeys_eq_nil_iff (queue : EfiKeyQueue) :
    realKeys queue = [] ↔ ∀ keyData ∈ queue.contents, isPartialKey keyData = true :=
  List.dropWhile_eq_nil_iff

theorem realKeys_of_skipped {queue skipped : EfiKeyQueue}
    (hskipped : skipped.contents = realKeys queue) : realKeys skipped = realKeys queue := by
  rw [realKeys, hskipped, List.dropWhile_eq_self_iff]
  intro hpos
  exact List.dropWhile_get_zero_not isPartialKey queue.contents hpos

theorem realKeys_of_split {queue : EfiKeyQueue} {skipped rest : List EfiKeyData}
    {keyData : EfiKeyData} (hsplit : queue.contents = skipped ++ keyData :: rest)
    (hskipped : ∀ key ∈ skipped, isPartialKey key = true)
    (hreal : ¬ isPartialKey keyData = true) : realKeys queue = keyData :: rest := by
  rw [realKeys, hsplit, List.dropWhile_append_of_pos hskipped, List.dropWhile_cons_of_neg hreal]

theorem readKeyStroke_succeeds_iff (herr : consoleIn.keyboardErr = false)
    (hquiet : ∀ poll ∈ polls, poll.Quiet)
    (henough : consoleIn.efiKeyQueue.contents.length < polls.length) :
    (∃ key after, keyboardReadKeyStroke consoleIn polls = some (efiSuccess, some key, after)) ↔
      realKeys consoleIn.efiKeyQueue ≠ [] := by
  obtain ⟨after, _, hresult⟩ := keyboardReadKeyStroke_spec herr hquiet henough
  cases hreal : realKeys consoleIn.efiKeyQueue with
  | nil =>
      rw [hreal] at hresult
      simp [hresult.1]
  | cons keyData rest =>
      rw [hreal] at hresult
      simp [hresult.1]

theorem readKeyStroke_notReady_iff (herr : consoleIn.keyboardErr = false)
    (hquiet : ∀ poll ∈ polls, poll.Quiet)
    (henough : consoleIn.efiKeyQueue.contents.length < polls.length) :
    (∃ after, keyboardReadKeyStroke consoleIn polls = some (efiNotReady, none, after)) ↔
      realKeys consoleIn.efiKeyQueue = [] := by
  obtain ⟨after, _, hresult⟩ := keyboardReadKeyStroke_spec herr hquiet henough
  cases hreal : realKeys consoleIn.efiKeyQueue with
  | nil =>
      rw [hreal] at hresult
      simp [hresult.1]
  | cons keyData rest =>
      rw [hreal] at hresult
      simp [hresult.1]

/-- A poll leaves the real keys, so the read after it sees what a read before it would. -/
theorem read_after_waitForKey_iff (herr : consoleIn.keyboardErr = false) (hpoll : poll.Quiet)
    (hquiet : ∀ poll ∈ polls, poll.Quiet)
    (henough : consoleIn.efiKeyQueue.contents.length < polls.length) :
    (∃ key after, keyboardReadKeyStroke (keyboardWaitForKey consoleIn poll).2 polls =
      some (efiSuccess, some key, after)) ↔ realKeys consoleIn.efiKeyQueue ≠ [] := by
  obtain ⟨honly, hcontents, _⟩ := keyboardWaitForKey_spec herr hpoll
  have herr' : (keyboardWaitForKey consoleIn poll).2.keyboardErr = false := by
    rw [honly]
    exact herr
  have henough' :
      (keyboardWaitForKey consoleIn poll).2.efiKeyQueue.contents.length < polls.length := by
    rw [hcontents]
    exact ((List.dropWhile_sublist isPartialKey).length_le).trans_lt henough
  rw [readKeyStroke_succeeds_iff herr' hquiet henough', realKeys_of_skipped hcontents]

/-- With no device error and no new input, on every queue: the event is signalled exactly
when the next read succeeds, a poll drops only leading partial keystrokes, and the reader
takes the first real key and reports not ready exactly when there is none. -/
theorem waitForKey_agrees_with_read (consoleIn : ConsoleInDev)
    (herr : consoleIn.keyboardErr = false) (poll : Poll) (hpoll : poll.Quiet)
    (polls : List Poll) (hquiet : ∀ poll ∈ polls, poll.Quiet)
    (henough : consoleIn.efiKeyQueue.contents.length < polls.length) :
    ((keyboardWaitForKey consoleIn poll).1 = true ↔
      ∃ key after, keyboardReadKeyStroke (keyboardWaitForKey consoleIn poll).2 polls =
        some (efiSuccess, some key, after)) ∧
    (OnlyQueue consoleIn (keyboardWaitForKey consoleIn poll).2 ∧
      ∃ dropped, (∀ key ∈ dropped, isPartialKey key = true) ∧
        consoleIn.efiKeyQueue.contents =
          dropped ++ (keyboardWaitForKey consoleIn poll).2.efiKeyQueue.contents) ∧
    (∀ skipped keyData rest,
      consoleIn.efiKeyQueue.contents = skipped ++ keyData :: rest →
      (∀ key ∈ skipped, isPartialKey key = true) → ¬ isPartialKey keyData = true →
      ∃ key after, keyboardReadKeyStroke consoleIn polls = some (efiSuccess, some key, after) ∧
        ReadsAs keyData key ∧ OnlyQueue consoleIn after ∧
        after.efiKeyQueue.contents = rest) ∧
    ((∃ after, keyboardReadKeyStroke consoleIn polls = some (efiNotReady, none, after)) ↔
      ∀ keyData ∈ consoleIn.efiKeyQueue.contents, isPartialKey keyData = true) := by
  obtain ⟨honly, hcontents, hsignal⟩ := keyboardWaitForKey_spec herr hpoll
  refine ⟨?_, ⟨honly, ?_⟩, ?_, ?_⟩
  · rw [hsignal, read_after_waitForKey_iff herr hpoll hquiet henough]
  · refine ⟨consoleIn.efiKeyQueue.contents.takeWhile isPartialKey, ?_, ?_⟩
    · intro key hkey
      exact List.mem_takeWhile_imp hkey
    · rw [hcontents]
      exact (List.takeWhile_append_dropWhile).symm
  · intro skipped keyData rest hsplit hskipped hfirst
    have hread := keyboardReadKeyStroke_spec herr hquiet henough
    rw [realKeys_of_split hsplit hskipped hfirst] at hread
    obtain ⟨after, honly, hresult, hrest⟩ := hread
    exact ⟨_, after, hresult, readsAs_translateKey keyData, honly, hrest⟩
  · rw [← realKeys_eq_nil_iff]
    exact readKeyStroke_notReady_iff herr hquiet henough

def partialKey : EfiKeyData where
  scanCode := 0
  unicodeChar := 0
  keyShiftState := 0
  keyToggleState := 0

def quietPoll : Poll where
  currentCounterValue := 0
  getKeys := fun _ => []

/-- A device whose queue holds a partial keystroke and, behind it, a real key. -/
def partialFirst : ConsoleInDev where
  toKeyboardConsoleInDev :=
    { KeyboardConsoleInDev.start [] true (fun _ => partialKey) fun _ => partialKey with
      efiKeyQueue :=
        pushEfikeyBufTail (pushEfikeyBufTail (.reset fun _ => partialKey) partialKey) plainKey }
  last := 0
  modifiers := {}
  capsLock := false
  numLock := false
  scrollLock := false
  keyboardErr := false

theorem waitForKey_agrees_with_read_partialFirst :
    (keyboardWaitForKey partialFirst quietPoll).1 = true ↔
      ∃ key after, keyboardReadKeyStroke (keyboardWaitForKey partialFirst quietPoll).2
        [quietPoll, quietPoll, quietPoll] = some (efiSuccess, some key, after) :=
  (waitForKey_agrees_with_read partialFirst rfl quietPoll (fun _ => rfl)
    [quietPoll, quietPoll, quietPoll] (by simp [Poll.Quiet, quietPoll]) (by decide)).1

end MuTegra.Keyboard.TextIn
