/- Unit: MuTegra/Keyboard/Notify
   source: NvidiaPkg/Drivers/TegraKeyboardDxe/TegraKeyboard.c, TegraKeyboardTextIn.c
   digest: Key notifications are queued on a press and run by a later handler, under any interleaving. -/

import MuTegra.Keyboard.Queue

/-!
A press runs at a higher priority than the handler, so presses may fall between
any two passes of the handler's loop. The position of an entry in the notify list
names its callback in the record of calls.
-/

set_option autoImplicit false
set_option relaxedAutoImplicit false

namespace MuTegra.Keyboard.Notify

open MuTegra.Uefi.Status
open MuTegra.Keyboard.Queue

/-- `KEYBOARD_CONSOLE_IN_EX_NOTIFY`; the function is named by its address. -/
structure KeyNotify where
  keyData : EfiKeyData
  keyNotificationFn : ℕ
  deriving DecidableEq, Repr

/-- A callback run by the handler: the entry's place, its function and the key passed. -/
structure NotifyCall where
  entry : ℕ
  keyNotificationFn : ℕ
  keyData : EfiKeyData
  deriving DecidableEq, Repr

/-- The part of `KEYBOARD_CONSOLE_IN_DEV` that presses and the handler use, with the
`SignalEvent` calls counted and the callbacks recorded. -/
structure KeyboardConsoleInDev where
  isSupportPartialKey : Bool
  efiKeyQueue : EfiKeyQueue
  efiKeyQueueForNotify : EfiKeyQueue
  notifyList : List KeyNotify
  signals : ℕ
  calls : List NotifyCall

def isKeyRegistered (registeredData inputData : EfiKeyData) : Bool :=
  if registeredData.scanCode ≠ inputData.scanCode ∨
      registeredData.unicodeChar ≠ inputData.unicodeChar then false
  else if registeredData.keyShiftState ≠ 0 ∧
      registeredData.keyShiftState ≠ inputData.keyShiftState then false
  else if registeredData.keyToggleState ≠ 0 ∧
      registeredData.keyToggleState ≠ inputData.keyToggleState then false
  else true

def isPartialKey (keyData : EfiKeyData) : Bool :=
  keyData.scanCode == 0 && keyData.unicodeChar == 0

def isAccepted (isSupportPartialKey : Bool) (keyData : EfiKeyData) : Bool :=
  !isPartialKey keyData || isSupportPartialKey

def queueMatches (keyData : EfiKeyData) :
    List KeyNotify → KeyboardConsoleInDev → KeyboardConsoleInDev
  | [], consoleIn => consoleIn
  | currentNotify :: rest, consoleIn =>
      if isKeyRegistered currentNotify.keyData keyData then
        queueMatches keyData rest
          { consoleIn with
            efiKeyQueueForNotify := pushEfikeyBufTail consoleIn.efiKeyQueueForNotify keyData
            signals := consoleIn.signals + 1 }
      else queueMatches keyData rest consoleIn

def keyboardReturnApiPushEfikeyBufTail (consoleIn : KeyboardConsoleInDev)
    (keyData : EfiKeyData) : KeyboardConsoleInDev :=
  if isAccepted consoleIn.isSupportPartialKey keyData then
    let consoleIn := queueMatches keyData consoleIn.notifyList consoleIn
    { consoleIn with efiKeyQueue := pushEfikeyBufTail consoleIn.efiKeyQueue keyData }
  else consoleIn

/-- The callbacks of the entries from place `pos` on that a key matches. -/
def matchingCalls (keyData : EfiKeyData) : ℕ → List KeyNotify → List NotifyCall
  | _, [] => []
  | pos, currentNotify :: rest =>
      if isKeyRegistered currentNotify.keyData keyData then
        { entry := pos, keyNotificationFn := currentNotify.keyNotificationFn,
          keyData := keyData } :: matchingCalls keyData (pos + 1) rest
      else matchingCalls keyData (pos + 1) rest

/-- A pass of the handler's loop; nothing when the queue is empty and the loop ends. -/
def keyNotifyProcessPass (consoleIn : KeyboardConsoleInDev) : Option KeyboardConsoleInDev :=
  match popEfikeyBufHead consoleIn.efiKeyQueueForNotify with
  | (_, none, _) => none
  | (_, some keyData, queue) =>
      some { consoleIn with
        efiKeyQueueForNotify := queue
        calls := consoleIn.calls ++ matchingCalls keyData 0 consoleIn.notifyList }

inductive Action where
  | press (keyData : EfiKeyData)
  | handlerPass
  | setPartialKeys (isSupportPartialKey : Bool)
  deriving DecidableEq, Repr

def step (consoleIn : KeyboardConsoleInDev) : Action → KeyboardConsoleInDev
  | .press keyData => keyboardReturnApiPushEfikeyBufTail consoleIn keyData
  | .handlerPass => (keyNotifyProcessPass consoleIn).getD consoleIn
  | .setPartialKeys b => { consoleIn with isSupportPartialKey := b }

def run (consoleIn : KeyboardConsoleInDev) (actions : List Action) : KeyboardConsoleInDev :=
  actions.foldl step consoleIn

def KeyboardConsoleInDev.start (notifyList : List KeyNotify) (isSupportPartialKey : Bool)
    (keys notifyKeys : ℕ → EfiKeyData) : KeyboardConsoleInDev where
  isSupportPartialKey := isSupportPartialKey
  efiKeyQueue := .reset keys
  efiKeyQueueForNotify := .reset notifyKeys
  notifyList := notifyList
  signals := 0
  calls := []

def acceptedKeys : Bool → List Action → List EfiKeyData
  | _, [] => []
  | b, .press keyData :: actions =>
      if isAccepted b keyData then keyData :: acceptedKeys b actions else acceptedKeys b actions
  | b, .handlerPass :: actions => acceptedKeys b actions
  | _, .setPartialKeys b :: actions => acceptedKeys b actions

def matchCount (notifyList : List KeyNotify) (keyData : EfiKeyData) : ℕ :=
  notifyList.countP fun entry => isKeyRegistered entry.keyData keyData

def ActionFits (consoleIn : KeyboardConsoleInDev) : Action → Prop
  | .press keyData => isAccepted consoleIn.isSupportPartialKey keyData = true →
      consoleIn.efiKeyQueueForNotify.contents.length +
        matchCount consoleIn.notifyList keyData ≤ 255
  | .handlerPass => True
  | .setPartialKeys _ => True

instance (consoleIn : KeyboardConsoleInDev) :
    (action : Action) → Decidable (ActionFits consoleIn action)
  | .press _ => inferInstanceAs (Decidable (_ → _ ≤ 255))
  | .handlerPass => .isTrue trivial
  | .setPartialKeys _ => .isTrue trivial

def PendingFits : KeyboardConsoleInDev → List Action → Prop
  | _, [] => True
  | consoleIn, action :: actions =>
      ActionFits consoleIn action ∧ PendingFits (step consoleIn action) actions

instance instDecidablePendingFits : (consoleIn : KeyboardConsoleInDev) →
    (actions : List Action) → Decidable (PendingFits consoleIn actions)
  | _, [] => .isTrue trivial
  | consoleIn, action :: actions =>
      have := instDecidablePendingFits (step consoleIn action) actions
      inferInstanceAs (Decidable (_ ∧ _))

/-- Each entry's callback was called once for each accepted keystroke it matches, in
order and with that keystroke, and nothing else was called. -/
structure NotifiedOnce (notifyList : List KeyNotify) (accepted : List EfiKeyData)
    (calls : List NotifyCall) : Prop where
  each : ∀ i entry, notifyList[i]? = some entry →
    calls.filter (fun call => call.entry == i) =
      (accepted.filter fun keyData => isKeyRegistered entry.keyData keyData).map
        fun keyData => ⟨i, entry.keyNotificationFn, keyData⟩
  registered : ∀ call ∈ calls, call.entry < notifyList.length

variable {consoleIn : KeyboardConsoleInDev} {keyData : EfiKeyData}

theorem queueMatches_contents (entries : List KeyNotify)
    (hfits : consoleIn.efiKeyQueueForNotify.contents.length + matchCount entries keyData ≤ 255) :
    (queueMatches keyData entries consoleIn).efiKeyQueueForNotify.contents =
      consoleIn.efiKeyQueueForNotify.contents ++
        List.replicate (matchCount entries keyData) keyData := by
  induction entries generalizing consoleIn with
  | nil => simp [queueMatches, matchCount]
  | cons entry entries ih =>
      rw [queueMatches]
      by_cases hmatch : isKeyRegistered entry.keyData keyData = true
      · have hcount : matchCount (entry :: entries) keyData = matchCount entries keyData + 1 :=
          List.countP_cons_of_pos hmatch
        have hpush : (pushEfikeyBufTail consoleIn.efiKeyQueueForNotify keyData).contents =
            consoleIn.efiKeyQueueForNotify.contents ++ [keyData] := by
          rw [pushEfikeyBufTail_contents, if_neg (by omega)]
        rw [if_pos hmatch, ih (by simp only [hpush, List.length_append, List.length_singleton]
                                  omega), hpush, hcount, List.replicate_succ, List.append_assoc]
        rfl
      · have hcount : matchCount (entry :: entries) keyData = matchCount entries keyData :=
          List.countP_cons_of_neg hmatch
        rw [if_neg hmatch, ih (by omega), hcount]

theorem queueMatches_efiKeyQueue (keyData : EfiKeyData) (entries : List KeyNotify)
    (consoleIn : KeyboardConsoleInDev) :
    (queueMatches keyData entries consoleIn).efiKeyQueue = consoleIn.efiKeyQueue := by
  induction entries generalizing consoleIn with
  | nil => rfl
  | cons entry entries ih =>
      rw [queueMatches]
      split
      · exact ih _
      · exact ih _

theorem queueMatches_frame (keyData : EfiKeyData) (entries : List KeyNotify)
    (consoleIn : KeyboardConsoleInDev) :
    (queueMatches keyData entries consoleIn).calls = consoleIn.calls ∧
      (queueMatches keyData entries consoleIn).notifyList = consoleIn.notifyList ∧
      (queueMatches keyData entries consoleIn).isSupportPartialKey =
        consoleIn.isSupportPartialKey := by
  induction entries generalizing consoleIn with
  | nil => exact ⟨rfl, rfl, rfl⟩
  | cons entry entries ih =>
      rw [queueMatches]
      by_cases hmatch : isKeyRegistered entry.keyData keyData = true
      · rw [if_pos hmatch]
        exact ih _
      · rw [if_neg hmatch]
        exact ih _

def workload (consoleIn : KeyboardConsoleInDev) : List NotifyCall :=
  consoleIn.calls ++ consoleIn.efiKeyQueueForNotify.contents.flatMap
    fun keyData => matchingCalls keyData 0 consoleIn.notifyList

def keyCalls (notifyList : List KeyNotify) (keyData : EfiKeyData) : List NotifyCall :=
  (List.replicate (matchCount notifyList keyData) keyData).flatMap
    fun keyData => matchingCalls keyData 0 notifyList

theorem workload_pass (consoleIn : KeyboardConsoleInDev) :
    workload (step consoleIn .handlerPass) = workload consoleIn ∧
      (step consoleIn .handlerPass).notifyList = consoleIn.notifyList ∧
      (step consoleIn .handlerPass).isSupportPartialKey = consoleIn.isSupportPartialKey := by
  rw [step, keyNotifyProcessPass]
  rcases popEfikeyBufHead_cases consoleIn.efiKeyQueueForNotify with
    ⟨_, hpop⟩ | ⟨keyData, queue, hpop, hcontents⟩
  · rw [hpop]
    exact ⟨rfl, rfl, rfl⟩
  · rw [hpop]
    refine ⟨?_, rfl, rfl⟩
    simp [workload, hcontents]

theorem workload_press {consoleIn : KeyboardConsoleInDev} {keyData : EfiKeyData}
    (haccepted : isAccepted consoleIn.isSupportPartialKey keyData = true)
    (hfits : consoleIn.efiKeyQueueForNotify.contents.length +
      matchCount consoleIn.notifyList keyData ≤ 255) :
    workload (step consoleIn (.press keyData)) =
        workload consoleIn ++ keyCalls consoleIn.notifyList keyData ∧
      (step consoleIn (.press keyData)).notifyList = consoleIn.notifyList ∧
      (step consoleIn (.press keyData)).isSupportPartialKey = consoleIn.isSupportPartialKey := by
  obtain ⟨hcalls, hlist, hpartial⟩ :=
    queueMatches_frame keyData consoleIn.notifyList consoleIn
  have hcontents := queueMatches_contents consoleIn.notifyList hfits
  simp only [step, keyboardReturnApiPushEfikeyBufTail, if_pos haccepted]
  refine ⟨?_, hlist, hpartial⟩
  simp only [workload, hcalls, hlist, hcontents, List.flatMap_append, keyCalls,
    List.append_assoc]

theorem workload_run (consoleIn : KeyboardConsoleInDev) (actions : List Action)
    (hfits : PendingFits consoleIn actions) :
    workload (run consoleIn actions) = workload consoleIn ++
      (acceptedKeys consoleIn.isSupportPartialKey actions).flatMap
        (keyCalls consoleIn.notifyList) ∧
      (run consoleIn actions).notifyList = consoleIn.notifyList := by
  induction actions generalizing consoleIn with
  | nil => exact ⟨(List.append_nil _).symm, rfl⟩
  | cons action actions ih =>
      obtain ⟨hpress, hrest⟩ := hfits
      obtain ⟨hload, hlist⟩ := ih _ hrest
      change workload (run (step consoleIn action) actions) = _ ∧
        (run (step consoleIn action) actions).notifyList = _
      rw [hload, hlist]
      cases action with
      | press keyData =>
          by_cases haccepted : isAccepted consoleIn.isSupportPartialKey keyData = true
          · obtain ⟨hstep, hlist', hpartial⟩ :=
              workload_press haccepted (hpress haccepted)
            rw [hstep, hlist', hpartial, acceptedKeys, if_pos haccepted, List.flatMap_cons,
              List.append_assoc]
            exact ⟨rfl, rfl⟩
          · have hsame : step consoleIn (.press keyData) = consoleIn := if_neg haccepted
            rw [hsame, acceptedKeys, if_neg haccepted]
            exact ⟨rfl, rfl⟩
      | handlerPass =>
          obtain ⟨hstep, hlist', hpartial⟩ := workload_pass consoleIn
          rw [hstep, hlist', hpartial]
          exact ⟨rfl, rfl⟩
      | setPartialKeys b => exact ⟨rfl, rfl⟩

variable {notifyList : List KeyNotify}

theorem matchingCalls_entry (keyData : EfiKeyData) (pos : ℕ) (entries : List KeyNotify)
    {call : NotifyCall} (h : call ∈ matchingCalls keyData pos entries) :
    pos ≤ call.entry ∧ call.entry < pos + entries.length := by
  induction entries generalizing pos with
  | nil => cases h
  | cons entry entries ih =>
      unfold matchingCalls at h
      rw [List.length_cons]
      split at h
      · rcases List.mem_cons.mp h with rfl | hrest
        · exact ⟨Nat.le_refl pos, Nat.lt_add_of_pos_right (Nat.succ_pos _)⟩
        · have := ih (pos + 1) hrest
          omega
      · have := ih (pos + 1) h
        omega

/-- One pass over the notify list calls an entry once if the key matches it. -/
theorem matchingCalls_filter (keyData : EfiKeyData) (pos : ℕ) (entries : List KeyNotify)
    {i : ℕ} {entry : KeyNotify} (hentry : entries[i]? = some entry) :
    (matchingCalls keyData pos entries).filter (fun call => call.entry == pos + i) =
      if isKeyRegistered entry.keyData keyData then
        [⟨pos + i, entry.keyNotificationFn, keyData⟩] else [] := by
  induction entries generalizing pos i with
  | nil => cases hentry
  | cons first entries ih =>
      have hafter : (matchingCalls keyData (pos + 1) entries).filter
          (fun call => call.entry == pos) = [] := by
        refine List.filter_eq_nil_iff.mpr fun call hcall => ?_
        have := (matchingCalls_entry keyData (pos + 1) entries hcall).1
        simp only [beq_iff_eq]
        omega
      cases i with
      | zero =>
          rw [List.getElem?_cons_zero, Option.some_inj] at hentry
          subst hentry
          rw [matchingCalls, Nat.add_zero]
          split
          · simp [hafter]
          · exact hafter
      | succ i =>
          rw [List.getElem?_cons_succ] at hentry
          have hrest := ih (pos + 1) hentry
          have hplace : pos + 1 + i = pos + (i + 1) := by omega
          rw [hplace] at hrest
          rw [matchingCalls]
          split
          · rw [List.filter_cons_of_neg (by simp), hrest]
          · exact hrest

theorem keyCalls_filter (keyData : EfiKeyData) {i : ℕ} {entry : KeyNotify}
    (hentry : notifyList[i]? = some entry) :
    (keyCalls notifyList keyData).filter (fun call => call.entry == i) =
      if isKeyRegistered entry.keyData keyData then
        List.replicate (matchCount notifyList keyData)
          ⟨i, entry.keyNotificationFn, keyData⟩ else [] := by
  have hpass := matchingCalls_filter keyData 0 notifyList hentry
  rw [Nat.zero_add] at hpass
  rw [keyCalls]
  generalize matchCount notifyList keyData = count
  induction count with
  | zero => simp
  | succ count ih =>
      rw [List.replicate_succ, List.flatMap_cons, List.filter_append, hpass, ih]
      split
      · rfl
      · rfl

theorem matchCount_pos {keyData : EfiKeyData} {i : ℕ} {entry : KeyNotify}
    (hentry : notifyList[i]? = some entry)
    (hmatch : isKeyRegistered entry.keyData keyData = true) :
    0 < matchCount notifyList keyData :=
  List.countP_pos_iff.mpr ⟨entry, List.mem_of_getElem? hentry, hmatch⟩

/-- If every matched keystroke counts at least once, the calls can only be as many as
the matched keystrokes when each counts exactly once. -/
private theorem count_eq_one {α : Type} {p : α → Bool} {count : α → ℕ} (keys : List α)
    (hpos : ∀ x ∈ keys, p x = true → 0 < count x)
    (hlength : (keys.flatMap fun x => if p x then List.replicate (count x) x else []).length ≤
      (keys.filter p).length) :
    ∀ x ∈ keys, p x = true → count x = 1 := by
  have hge (l : List α) (hpos : ∀ x ∈ l, p x = true → 0 < count x) : (l.filter p).length ≤
      (l.flatMap fun x => if p x then List.replicate (count x) x else []).length := by
    induction l with
    | nil => exact Nat.le_refl _
    | cons x l ih =>
        have hrest := ih fun y hy => hpos y (List.mem_cons_of_mem x hy)
        by_cases hx : p x = true
        · have := hpos x List.mem_cons_self hx
          simp only [List.filter_cons, hx, if_true, List.length_cons, List.flatMap_cons,
            List.length_append, List.length_replicate]
          omega
        · simpa [List.filter_cons, hx] using hrest
  induction keys with
  | nil => exact fun x hx => by cases hx
  | cons y keys ih =>
      have hpos' : ∀ x ∈ keys, p x = true → 0 < count x :=
        fun x hx => hpos x (List.mem_cons_of_mem y hx)
      have hrest := hge keys hpos'
      by_cases hy : p y = true
      · have hycount := hpos y List.mem_cons_self hy
        simp only [List.filter_cons, hy, if_true, List.length_cons, List.flatMap_cons,
          List.length_append, List.length_replicate] at hlength
        intro x hx hpx
        rcases List.mem_cons.mp hx with rfl | hmem
        · omega
        · exact ih hpos' (by omega) x hmem hpx
      · have hlength' : (keys.flatMap
            fun x => if p x then List.replicate (count x) x else []).length ≤
            (keys.filter p).length := by simpa [List.filter_cons, hy] using hlength
        intro x hx hpx
        rcases List.mem_cons.mp hx with rfl | hmem
        · exact (hy hpx).elim
        · exact ih hpos' hlength' x hmem hpx

private theorem flatMap_count_one {α : Type} {p : α → Bool} {count : α → ℕ} (keys : List α)
    (hone : ∀ x ∈ keys, p x = true → count x = 1) :
    (keys.flatMap fun x => if p x then List.replicate (count x) x else []) = keys.filter p := by
  induction keys with
  | nil => rfl
  | cons x keys ih =>
      rw [List.flatMap_cons, ih fun y hy => hone y (List.mem_cons_of_mem x hy)]
      by_cases hx : p x = true
      · rw [if_pos hx, hone x List.mem_cons_self hx, List.filter_cons_of_pos hx]
        rfl
      · rw [if_neg hx, List.filter_cons_of_neg hx, List.nil_append]

/-- The calls of a list of keystrokes satisfy the contract exactly when no keystroke
matches two entries. -/
theorem notifiedOnce_keyCalls_iff (notifyList : List KeyNotify) (keys : List EfiKeyData) :
    NotifiedOnce notifyList keys (keys.flatMap (keyCalls notifyList)) ↔
      ∀ keyData ∈ keys, matchCount notifyList keyData ≤ 1 := by
  have hfilter (i : ℕ) (entry : KeyNotify) (hentry : notifyList[i]? = some entry) :
      (keys.flatMap (keyCalls notifyList)).filter (fun call => call.entry == i) =
        (keys.flatMap fun keyData => if isKeyRegistered entry.keyData keyData then
          List.replicate (matchCount notifyList keyData) keyData else []).map
          fun keyData => ⟨i, entry.keyNotificationFn, keyData⟩ := by
    rw [List.filter_flatMap, List.map_flatMap]
    congr 1
    funext keyData
    rw [keyCalls_filter keyData hentry]
    split
    · rw [List.map_replicate]
    · rfl
  constructor
  · rintro ⟨heach, _⟩ keyData hkey
    by_contra hmany
    have hpos : 0 < matchCount notifyList keyData := by omega
    obtain ⟨entry, hmem, hmatch⟩ := List.countP_pos_iff.mp hpos
    obtain ⟨i, hentry⟩ := List.mem_iff_getElem?.mp hmem
    have hcalls := heach i entry hentry
    rw [hfilter i entry hentry] at hcalls
    have hlength := congrArg List.length hcalls
    rw [List.length_map, List.length_map] at hlength
    have hone := count_eq_one (p := fun keyData => isKeyRegistered entry.keyData keyData) keys
      (fun x _ hx => matchCount_pos hentry hx) hlength.le keyData hkey hmatch
    omega
  · intro hone
    refine ⟨fun i entry hentry => ?_, fun call hcall => ?_⟩
    · rw [hfilter i entry hentry]
      congr 1
      refine flatMap_count_one keys fun x hx hmatch => ?_
      have hpos := matchCount_pos hentry hmatch
      have hle := hone x hx
      omega
    · obtain ⟨keyData, _, hcall⟩ := List.mem_flatMap.mp hcall
      obtain ⟨key, _, hcall⟩ := List.mem_flatMap.mp hcall
      have := (matchingCalls_entry key 0 notifyList hcall).2
      omega

/-- Over every run that keeps at most 255 notifications pending and ends drained, each
callback is called once for each accepted keystroke it matches exactly when no accepted
keystroke matches two registrations. -/
theorem notifiedOnce_iff (notifyList : List KeyNotify) (isSupportPartialKey : Bool)
    (keys notifyKeys : ℕ → EfiKeyData) (actions : List Action)
    (hfits : PendingFits (.start notifyList isSupportPartialKey keys notifyKeys) actions)
    (hdrained : isEfikeyBufEmpty (run (.start notifyList isSupportPartialKey keys notifyKeys)
      actions).efiKeyQueueForNotify = true) :
    NotifiedOnce notifyList (acceptedKeys isSupportPartialKey actions)
        (run (.start notifyList isSupportPartialKey keys notifyKeys) actions).calls ↔
      ∀ keyData ∈ acceptedKeys isSupportPartialKey actions,
        matchCount notifyList keyData ≤ 1 := by
  obtain ⟨hload, _⟩ := workload_run _ actions hfits
  unfold workload at hload
  rw [isEfikeyBufEmpty_iff.mp hdrained] at hload
  have hcalls : (run (.start notifyList isSupportPartialKey keys notifyKeys) actions).calls =
      (acceptedKeys isSupportPartialKey actions).flatMap (keyCalls notifyList) := by
    simpa [KeyboardConsoleInDev.start] using hload
  rw [hcalls]
  exact notifiedOnce_keyCalls_iff notifyList _

def plainKey : EfiKeyData where
  scanCode := 0
  unicodeChar := 0x61
  keyShiftState := 0
  keyToggleState := 0

def sharedKey : List KeyNotify := [⟨plainKey, 1⟩, ⟨plainKey, 2⟩]

def shiftedKey : EfiKeyData := { plainKey with unicodeChar := 0x42, keyShiftState := 0x80000001 }

def ownKeys : List KeyNotify :=
  [⟨plainKey, 1⟩, ⟨shiftedKey, 2⟩, ⟨{ plainKey with scanCode := 0x17, unicodeChar := 0 }, 3⟩]

/-- Four presses, one of a key that nobody waits for, with the passes of the handler between. -/
def samplePresses : List Action :=
  [.press plainKey, .press shiftedKey, .handlerPass, .press { plainKey with unicodeChar := 0x63 },
    .press plainKey, .handlerPass, .handlerPass, .handlerPass]

theorem notifiedOnce_iff_ownKeys :
    NotifiedOnce ownKeys (acceptedKeys false samplePresses)
        (run (.start ownKeys false (fun _ => plainKey) fun _ => plainKey) samplePresses).calls ↔
      ∀ keyData ∈ acceptedKeys false samplePresses, matchCount ownKeys keyData ≤ 1 :=
  notifiedOnce_iff ownKeys false (fun _ => plainKey) (fun _ => plainKey) samplePresses
    (by decide) (by decide)

/-- One press of a shared key calls each of the two callbacks twice. -/
theorem sharedKey_not_notifiedOnce :
    PendingFits (.start sharedKey false (fun _ => plainKey) fun _ => plainKey)
        [.press plainKey, .handlerPass, .handlerPass] ∧
      isEfikeyBufEmpty (run (.start sharedKey false (fun _ => plainKey) fun _ => plainKey)
        [.press plainKey, .handlerPass, .handlerPass]).efiKeyQueueForNotify = true ∧
      ¬ NotifiedOnce sharedKey
        (acceptedKeys false [.press plainKey, .handlerPass, .handlerPass])
        (run (.start sharedKey false (fun _ => plainKey) fun _ => plainKey)
          [.press plainKey, .handlerPass, .handlerPass]).calls := by
  refine ⟨by decide, by decide, fun h => ?_⟩
  have hcalls := h.each 0 ⟨plainKey, 1⟩ rfl
  exact absurd hcalls (by decide)

end MuTegra.Keyboard.Notify
