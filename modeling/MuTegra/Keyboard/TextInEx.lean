/- Unit: MuTegra/Keyboard/TextInEx
   source: NvidiaPkg/Drivers/TegraKeyboardDxe/TegraKeyboardTextIn.c
   digest: The extended interface: when polling its wait event loses keystrokes of its reader. -/

import MuTegra.Foundation.Runs
import MuTegra.Keyboard.TextIn

set_option autoImplicit false
set_option relaxedAutoImplicit false

namespace MuTegra.Keyboard.TextInEx

open MuTegra.Foundation.Runs
open MuTegra.Uefi.Status
open MuTegra.Keyboard.Queue
open MuTegra.Keyboard.Notify
open MuTegra.Keyboard.ConsoleIn
open MuTegra.Keyboard.TextIn

def keyboardWaitForKeyEx (consoleIn : ConsoleInDev) (poll : Poll) : Bool × ConsoleInDev :=
  keyboardWaitForKey consoleIn poll

/-- `KeyboardReadKeyStrokeEx`; the flag says that `KeyData` is not NULL. -/
def keyboardReadKeyStrokeEx (consoleIn : ConsoleInDev) (poll : Poll) (keyData : Bool) :
    EfiStatus × Option EfiKeyData × ConsoleInDev :=
  if !keyData then (efiInvalidParameter, none, consoleIn)
  else keyboardReadKeyStrokeWorker consoleIn poll keyData

/-- The calls that poll the device; the timer also fires between the others. -/
inductive ExCall where
  | waitForKeyEx (poll : Poll)
  | readKeyStrokeEx (poll : Poll)
  | timer (poll : Poll)

inductive ExAnswer where
  | polled (signalled : Bool)
  | read (status : EfiStatus) (keyData : Option EfiKeyData)
  | ticked
  deriving DecidableEq, Repr

def exStep (consoleIn : ConsoleInDev) : ExCall → ExAnswer × ConsoleInDev
  | .waitForKeyEx poll =>
      match keyboardWaitForKeyEx consoleIn poll with
      | (signalled, consoleIn) => (.polled signalled, consoleIn)
  | .readKeyStrokeEx poll =>
      match keyboardReadKeyStrokeEx consoleIn poll true with
      | (status, keyData, consoleIn) => (.read status keyData, consoleIn)
  | .timer poll => (.ticked, keyboardTimerHandler consoleIn poll)

def readAnswer : ExAnswer → Option (EfiStatus × Option EfiKeyData)
  | .read status keyData => some (status, keyData)
  | .polled _ => none
  | .ticked => none

def reads (consoleIn : ConsoleInDev) (calls : List ExCall) :
    List (EfiStatus × Option EfiKeyData) :=
  (answers exStep consoleIn calls).filterMap readAnswer

/-- The same input at the same moments, with nobody looking at the event. -/
def unpolled : ExCall → ExCall
  | .waitForKeyEx poll => .timer poll
  | .readKeyStrokeEx poll => .readKeyStrokeEx poll
  | .timer poll => .timer poll

/-- At every moment of the run, whatever follows, the reader returns what it would
return had the event not been polled. -/
def ReadsUnchanged (consoleIn : ConsoleInDev) (calls : List ExCall) : Prop :=
  ∀ before, before <+: calls → ∀ later,
    reads consoleIn (before ++ later) = reads consoleIn (before.map unpolled ++ later)

def HasKeystroke (consoleIn : ConsoleInDev) (poll : Poll) : Prop :=
  ∃ keyData after, keyboardReadKeyStrokeEx consoleIn poll true = (efiSuccess, some keyData, after)

/-- Every poll of the run signals exactly when the reader has a keystroke. -/
def SignalsExact (consoleIn : ConsoleInDev) (calls : List ExCall) : Prop :=
  ∀ before poll, before ++ [.waitForKeyEx poll] <+: calls →
    ((keyboardWaitForKeyEx (stateAfter exStep consoleIn before) poll).1 = true ↔
      HasKeystroke (stateAfter exStep consoleIn before) poll)

def PartialAtHead (consoleIn : ConsoleInDev) : Prop :=
  consoleIn.keyboardErr = false ∧
    ∃ keyData rest, consoleIn.efiKeyQueue.contents = keyData :: rest ∧
      isPartialKey keyData = true

/-- No poll of the run finds a partial keystroke first, once its input is queued. -/
def NoPartialPolled (consoleIn : ConsoleInDev) (calls : List ExCall) : Prop :=
  ∀ before poll, before ++ [.waitForKeyEx poll] <+: calls →
    ¬ PartialAtHead (keyboardTimerHandler (stateAfter exStep consoleIn before) poll)

variable {consoleIn : ConsoleInDev} {poll : Poll}

theorem waitForKeyEx_of_error (herr : (keyboardTimerHandler consoleIn poll).keyboardErr = true) :
    keyboardWaitForKeyEx consoleIn poll = (false, keyboardTimerHandler consoleIn poll) := by
  simp only [keyboardWaitForKeyEx, keyboardWaitForKey, herr]
  rfl

theorem waitForKeyEx_of_ok (hok : (keyboardTimerHandler consoleIn poll).keyboardErr = false) :
    keyboardWaitForKeyEx consoleIn poll =
      ((skipPartialKeys (keyboardTimerHandler consoleIn poll).efiKeyQueue).1,
        { keyboardTimerHandler consoleIn poll with
          efiKeyQueue := (skipPartialKeys (keyboardTimerHandler consoleIn poll).efiKeyQueue).2 }) := by
  simp only [keyboardWaitForKeyEx, keyboardWaitForKey, hok]
  rfl

theorem skipPartialKeys_of_real {queue : EfiKeyQueue}
    (hreal : ∀ keyData rest, queue.contents = keyData :: rest → ¬ isPartialKey keyData = true) :
    skipPartialKeys queue = (!isEfikeyBufEmpty queue, queue) := by
  by_cases hempty : isEfikeyBufEmpty queue = true
  · rw [skipPartialKeys, dif_pos hempty, hempty]
    rfl
  · have hfirst := hreal _ _ (contents_eq_cons (Bool.eq_false_iff.mpr hempty))
    rw [skipPartialKeys, dif_neg hempty, if_neg hfirst, Bool.eq_false_iff.mpr hempty]
    rfl

theorem waitForKeyEx_state (hhead : ¬ PartialAtHead (keyboardTimerHandler consoleIn poll)) :
    (keyboardWaitForKeyEx consoleIn poll).2 = keyboardTimerHandler consoleIn poll := by
  by_cases herr : (keyboardTimerHandler consoleIn poll).keyboardErr = true
  · rw [waitForKeyEx_of_error herr]
  · have hok := Bool.eq_false_iff.mpr herr
    have hskip : skipPartialKeys (keyboardTimerHandler consoleIn poll).efiKeyQueue = _ :=
      skipPartialKeys_of_real fun keyData rest hcons hpartial =>
        hhead ⟨hok, keyData, rest, hcons, hpartial⟩
    rw [waitForKeyEx_of_ok hok, hskip]

theorem hasKeystroke_iff : HasKeystroke consoleIn poll ↔
    (keyboardTimerHandler consoleIn poll).keyboardErr = false ∧
      (keyboardTimerHandler consoleIn poll).efiKeyQueue.contents ≠ [] := by
  unfold HasKeystroke
  by_cases herr : (keyboardTimerHandler consoleIn poll).keyboardErr = true
  · simp [keyboardReadKeyStrokeEx, keyboardReadKeyStrokeWorker, herr,
      -keyboardTimerHandler_keyboardErr]
  · have hok := Bool.eq_false_iff.mpr herr
    rcases popEfikeyBufHead_cases (keyboardTimerHandler consoleIn poll).efiKeyQueue with
      ⟨hempty, hpop⟩ | ⟨keyData, queue, hpop, hcons⟩
    · simp [keyboardReadKeyStrokeEx, keyboardReadKeyStrokeWorker, hok, hpop, hempty,
        -keyboardTimerHandler_keyboardErr]
    · simp [keyboardReadKeyStrokeEx, keyboardReadKeyStrokeWorker, hok, hpop, hcons,
        -keyboardTimerHandler_keyboardErr]

theorem waitForKeyEx_signal (hhead : ¬ PartialAtHead (keyboardTimerHandler consoleIn poll)) :
    (keyboardWaitForKeyEx consoleIn poll).1 = true ↔ HasKeystroke consoleIn poll := by
  rw [hasKeystroke_iff]
  by_cases herr : (keyboardTimerHandler consoleIn poll).keyboardErr = true
  · rw [waitForKeyEx_of_error herr]
    simp [herr, -keyboardTimerHandler_keyboardErr]
  · have hok := Bool.eq_false_iff.mpr herr
    have hskip : skipPartialKeys (keyboardTimerHandler consoleIn poll).efiKeyQueue = _ :=
      skipPartialKeys_of_real fun keyData rest hcons hpartial =>
        hhead ⟨hok, keyData, rest, hcons, hpartial⟩
    rw [waitForKeyEx_of_ok hok, hskip, ← not_iff_not]
    simp [hok, isEfikeyBufEmpty_iff, -keyboardTimerHandler_keyboardErr]

theorem waitForKeyEx_drops (hhead : PartialAtHead (keyboardTimerHandler consoleIn poll)) :
    (keyboardWaitForKeyEx consoleIn poll).2.keyboardErr = false ∧
      (keyboardWaitForKeyEx consoleIn poll).2.efiKeyQueue.contents ≠
        (keyboardTimerHandler consoleIn poll).efiKeyQueue.contents := by
  obtain ⟨hok, keyData, rest, hcons, hpartial⟩ := hhead
  rw [waitForKeyEx_of_ok hok]
  refine ⟨hok, ?_⟩
  intro hsame
  have hskip := (skipPartialKeys_spec (keyboardTimerHandler consoleIn poll).efiKeyQueue).1
  rw [realKeys, hcons, List.dropWhile_cons_of_pos hpartial] at hskip
  have hle := List.length_dropWhile_le isPartialKey rest
  have hlength := congrArg List.length (hskip.symm.trans (hsame.trans hcons))
  rw [List.length_cons] at hlength
  omega

variable {calls : List ExCall}

theorem reads_append (consoleIn : ConsoleInDev) (before later : List ExCall) :
    reads consoleIn (before ++ later) =
      reads consoleIn before ++ reads (stateAfter exStep consoleIn before) later := by
  rw [reads, answers_append, List.filterMap_append, reads, reads]

theorem reads_cons (consoleIn : ConsoleInDev) (call : ExCall) (calls : List ExCall) :
    reads consoleIn (call :: calls) =
      (readAnswer (exStep consoleIn call).1).toList ++ reads (exStep consoleIn call).2 calls := by
  rw [reads, answers, List.filterMap_cons, reads]
  cases readAnswer (exStep consoleIn call).1 with
  | none => rfl
  | some answer => rfl

theorem NoPartialPolled.tail {call : ExCall} (h : NoPartialPolled consoleIn (call :: calls)) :
    NoPartialPolled (exStep consoleIn call).2 calls := by
  intro before poll hwithin
  exact h (call :: before) poll (List.cons_prefix_cons.mpr ⟨rfl, hwithin⟩)

theorem NoPartialPolled.of_prefix {before : List ExCall} (h : NoPartialPolled consoleIn calls)
    (hbefore : before <+: calls) : NoPartialPolled consoleIn before := by
  intro earlier poll hwithin
  exact h earlier poll (hwithin.trans hbefore)

theorem exStep_unpolled {call : ExCall} (h : NoPartialPolled consoleIn (call :: calls)) :
    (exStep consoleIn (unpolled call)).2 = (exStep consoleIn call).2 ∧
      readAnswer (exStep consoleIn (unpolled call)).1 =
        readAnswer (exStep consoleIn call).1 := by
  cases call with
  | waitForKeyEx poll =>
      have hhead : ¬ PartialAtHead (keyboardTimerHandler consoleIn poll) :=
        h [] poll (List.cons_prefix_cons.mpr ⟨rfl, List.nil_prefix⟩)
      exact ⟨(waitForKeyEx_state hhead).symm, rfl⟩
  | readKeyStrokeEx poll => exact ⟨rfl, rfl⟩
  | timer poll => exact ⟨rfl, rfl⟩

theorem unpolled_run (h : NoPartialPolled consoleIn calls) :
    stateAfter exStep consoleIn (calls.map unpolled) = stateAfter exStep consoleIn calls ∧
      reads consoleIn (calls.map unpolled) = reads consoleIn calls := by
  induction calls generalizing consoleIn with
  | nil => exact ⟨rfl, rfl⟩
  | cons call calls ih =>
      obtain ⟨hstate, hanswer⟩ := exStep_unpolled h
      obtain ⟨hlast, hreads⟩ := ih h.tail
      constructor
      · rw [List.map_cons, stateAfter, hstate, hlast, stateAfter]
      · rw [List.map_cons, reads_cons, reads_cons, hanswer, hstate, hreads]

def drain : List ExCall := List.replicate 256 (.readKeyStrokeEx quietPoll)

theorem reads_replicate (herr : consoleIn.keyboardErr = false) (count : ℕ) :
    (reads consoleIn (List.replicate count (.readKeyStrokeEx quietPoll))).filterMap Prod.snd =
      consoleIn.efiKeyQueue.contents.take count := by
  induction count generalizing consoleIn with
  | zero => rfl
  | succ count ih =>
      have hquiet := @keyboardTimerHandler_quiet consoleIn quietPoll herr fun _ => rfl
      rw [List.replicate_succ, reads_cons, List.filterMap_append]
      rcases popEfikeyBufHead_cases consoleIn.efiKeyQueue with
        ⟨hempty, hpop⟩ | ⟨keyData, queue, hpop, hcons⟩
      · have hstep : exStep consoleIn (.readKeyStrokeEx quietPoll) = (.read efiNotReady none,
            { consoleIn with last := quietPoll.currentCounterValue }) := by
          simp [exStep, keyboardReadKeyStrokeEx, keyboardReadKeyStrokeWorker, hquiet, herr, hpop]
        have herr' : (exStep consoleIn (.readKeyStrokeEx quietPoll)).2.keyboardErr = false := by
          rw [hstep]
          exact herr
        rw [ih herr', hstep, hempty, List.take_nil, List.take_nil]
        rfl
      · have hstep : exStep consoleIn (.readKeyStrokeEx quietPoll) =
            (.read efiSuccess (some keyData), { consoleIn with
              last := quietPoll.currentCounterValue, efiKeyQueue := queue }) := by
          simp [exStep, keyboardReadKeyStrokeEx, keyboardReadKeyStrokeWorker, hquiet, herr, hpop]
        have herr' : (exStep consoleIn (.readKeyStrokeEx quietPoll)).2.keyboardErr = false := by
          rw [hstep]
          exact herr
        rw [ih herr', hstep, hcons]
        rfl

theorem reads_drain (herr : consoleIn.keyboardErr = false) :
    (reads consoleIn drain).filterMap Prod.snd = consoleIn.efiKeyQueue.contents := by
  rw [drain, reads_replicate herr, List.take_of_length_le]
  exact (contents_length_lt _).le

theorem not_readsUnchanged {before : List ExCall} {poll : Poll}
    (hwithin : before ++ [.waitForKeyEx poll] <+: calls)
    (hbefore : NoPartialPolled consoleIn before)
    (hhead : PartialAtHead (keyboardTimerHandler (stateAfter exStep consoleIn before) poll)) :
    ¬ ReadsUnchanged consoleIn calls := by
  intro hunchanged
  obtain ⟨hstate, hreads⟩ := unpolled_run hbefore
  obtain ⟨herr, hdropped⟩ := waitForKeyEx_drops hhead
  have hsame := hunchanged (before ++ [.waitForKeyEx poll]) hwithin drain
  rw [List.map_append, List.append_assoc, List.append_assoc, reads_append consoleIn before,
    reads_append consoleIn (before.map unpolled), hreads, hstate,
    List.append_cancel_left_eq] at hsame
  have hpolled : reads (keyboardWaitForKeyEx (stateAfter exStep consoleIn before) poll).2 drain =
      reads (keyboardTimerHandler (stateAfter exStep consoleIn before) poll) drain := hsame
  apply hdropped
  rw [← reads_drain herr, hpolled, reads_drain hhead.1]

/-- On every queue, over every run of polls, reads and timer ticks: polling the event
never changes what the reader returns and signals exactly when it has a keystroke if and
only if no poll finds a partial keystroke first. -/
theorem pollsHarmless_iff (consoleIn : ConsoleInDev) (calls : List ExCall) :
    ReadsUnchanged consoleIn calls ∧ SignalsExact consoleIn calls ↔
      NoPartialPolled consoleIn calls := by
  constructor
  · rintro ⟨hunchanged, _⟩ before poll hwithin hhead
    -- The first poll that finds a partial keystroke is the one that shows.
    induction hlength : before.length using Nat.strong_induction_on generalizing before poll with
    | _ length ih =>
        by_cases hbefore : NoPartialPolled consoleIn before
        · exact not_readsUnchanged hwithin hbefore hhead hunchanged
        · simp only [NoPartialPolled, not_forall, not_not] at hbefore
          obtain ⟨earlier, first, hearlier, hfirst⟩ := hbefore
          have hle := hearlier.length_le
          rw [List.length_append, List.length_singleton] at hle
          exact ih earlier.length (by omega) earlier first
            (hearlier.trans ((List.prefix_append _ _).trans hwithin)) hfirst rfl
  · intro hnone
    constructor
    · intro before hbefore later
      obtain ⟨hstate, hreads⟩ := unpolled_run (hnone.of_prefix hbefore)
      rw [reads_append, reads_append, hstate, hreads]
    · intro before poll hwithin
      exact waitForKeyEx_signal (hnone before poll hwithin)

/-- With partial keystrokes enabled, a poll of a queue that starts with one: the reader,
called next, misses it. -/
theorem partialFirst_polled :
    partialFirst.isSupportPartialKey = true ∧
      ¬ (ReadsUnchanged partialFirst [.waitForKeyEx quietPoll, .readKeyStrokeEx quietPoll] ∧
        SignalsExact partialFirst [.waitForKeyEx quietPoll, .readKeyStrokeEx quietPoll]) := by
  refine ⟨rfl, ?_⟩
  rintro ⟨hunchanged, _⟩
  have hsame := hunchanged _ (List.prefix_refl _) []
  have hpolled : reads partialFirst [.waitForKeyEx quietPoll, .readKeyStrokeEx quietPoll] =
      [(efiSuccess, some plainKey)] := by
    decide +kernel
  have hunpolled : reads partialFirst [.timer quietPoll, .readKeyStrokeEx quietPoll] =
      [(efiSuccess, some partialKey)] := by
    decide +kernel
  exact absurd (hpolled.symm.trans (hsame.trans hunpolled)) (by decide)

end MuTegra.Keyboard.TextInEx
