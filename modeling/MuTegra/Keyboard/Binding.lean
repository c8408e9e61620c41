/- Unit: MuTegra/Keyboard/Binding
   source: NvidiaPkg/Drivers/TegraKeyboardDxe/TegraKeyboard.c, TegraKeyboard.h
   digest: What Start and Stop of the keyboard driver acquire, and what they leave behind. -/

import MuTegra.Foundation.Tallies
import MuTegra.Keyboard.NotifyPool
import Mathlib.Tactic.Abel

/-!
Events and pool blocks are numbered by whoever grants them. The exit path of Start closes at
most one event, whichever of four it finds first, and Stop closes at most two, so the number
of events a device has is what decides whether all of them are closed.
-/

set_option autoImplicit false
set_option relaxedAutoImplicit false

namespace MuTegra.Keyboard.Binding

open MuTegra.Foundation.Ownership
open MuTegra.Foundation.Tallies
open MuTegra.Uefi.Status
open MuTegra.Keyboard.Registry
open MuTegra.Keyboard.NotifyPool

/-! ## The device and what it holds -/

/-- The opens of the device protocol that have not been closed, the events, the pool, and how
often a field of a console structure was read that is NULL or freed. -/
structure Machine where
  deviceOpens : ℤ
  events : Ledger
  pool : Ledger
  badReads : ℕ

/-- `KEYBOARD_CONSOLE_IN_DEV`, in its pool block; `controllerNameTable` lists the blocks of
the table and is empty for NULL. -/
structure ConsoleIn where
  block : ℕ
  waitForKey : Option ℕ
  waitForKeyEx : Option ℕ
  timerEvent : Option ℕ
  keyNotifyProcessEvent : Option ℕ
  controllerNameTable : List ℕ
  notifyList : NotifyList

/-- The structure as `AllocateZeroPool` and `InitializeListHead` leave it. -/
def ConsoleIn.zeroed (block : ℕ) : ConsoleIn := ⟨block, none, none, none, none, [], .empty⟩

/-- `AddUnicodeString2` for the first or second name, and `FreeUnicodeStringTable`: a table
holds what it has allocated, and freeing it gives that back. -/
structure NameTables where
  add : (first : Bool) → List ℕ → Ledger → List ℕ × Ledger
  free : List ℕ → Ledger → Ledger
  add_owns : ∀ {base : Ledger} {rest : Multiset ℕ} {pool : Ledger} (first : Bool)
    (table : List ℕ), Owns base ((table : Multiset ℕ) + rest) pool →
      Owns base (((add first table pool).1 : Multiset ℕ) + rest) (add first table pool).2
  free_owns : ∀ {base : Ledger} {rest : Multiset ℕ} {pool : Ledger} (table : List ℕ),
    Owns base ((table : Multiset ℕ) + rest) pool → Owns base rest (free table pool)

def Machine.reads (m : Machine) : Option ConsoleIn → Machine
  | none => { m with badReads := m.badReads + 1 }
  | some consoleIn =>
      if consoleIn.block ∈ m.pool.live then m else { m with badReads := m.badReads + 1 }

def Machine.closeProtocol (m : Machine) : Machine := { m with deviceOpens := m.deviceOpens - 1 }

def Machine.closeIfAny (m : Machine) (event : Option ℕ) : Machine :=
  { m with events := m.events.releaseIfAny event }

/-- `KbdFreeNotifyList` of the list in the structure; the address of that list is not NULL
even where the structure is. -/
def kbdFreeNotifyList (consoleIn : Option ConsoleIn) (m : Machine) : Machine :=
  let m := m.reads consoleIn
  match consoleIn with
  | none => m
  | some consoleIn =>
      { m with pool := m.pool.releaseAll (consoleIn.notifyList.handles.map some) }

/-! ## Start -/

/-- The outcomes of the calls Start makes; `consoleIn` tells whether the structure can be
allocated. -/
structure StartOutcomes where
  openProtocol : EfiStatus := efiSuccess
  consoleIn : Bool := true
  waitForKey : EfiStatus := efiSuccess
  waitForKeyEx : EfiStatus := efiSuccess
  timerEvent : EfiStatus := efiSuccess
  setTimer : EfiStatus := efiSuccess
  keyNotifyProcessEvent : EfiStatus := efiSuccess
  reset : EfiStatus := efiSuccess
  install : EfiStatus := efiSuccess
  deriving DecidableEq

def StartOutcomes.failure (o : StartOutcomes) : Option EfiStatus :=
  [o.openProtocol, if o.consoleIn then efiSuccess else efiOutOfResources, o.waitForKey,
    o.waitForKeyEx, o.timerEvent, o.setTimer, o.keyNotifyProcessEvent, o.reset,
    o.install].find? fun status => efiError status

/-- The structure and the machine, or the status with which the setup jumps to `exit`. -/
abbrev Setup := Except (EfiStatus × ConsoleIn × Machine) (ConsoleIn × Machine)

def createEvent (outcome : EfiStatus) (store : ConsoleIn → Option ℕ → ConsoleIn)
    (s : ConsoleIn × Machine) : Setup :=
  if efiError outcome then .error (efiOutOfResources, s)
  else .ok (store s.1 (some s.2.events.next), { s.2 with events := s.2.events.grant })

/-- A step that acquires nothing and is reported as `status` when it fails. -/
def checked (outcome status : EfiStatus) (s : ConsoleIn × Machine) : Setup :=
  if efiError outcome then .error (status, s) else .ok s

def addNames (names : NameTables) (s : ConsoleIn × Machine) : ConsoleIn × Machine :=
  let eng := names.add true [] s.2.pool
  let en := names.add false eng.1 eng.2
  ({ s.1 with controllerNameTable := en.1 }, { s.2 with pool := en.2 })

def createWaits (o : StartOutcomes) (s : ConsoleIn × Machine) : Setup := do
  let s ← createEvent o.waitForKey (fun c event => { c with waitForKey := event }) s
  createEvent o.waitForKeyEx (fun c event => { c with waitForKeyEx := event }) s

def finishSetup (names : NameTables) (o : StartOutcomes) (s : ConsoleIn × Machine) : Setup := do
  let s ← createEvent o.timerEvent (fun c event => { c with timerEvent := event }) s
  let s ← checked o.setTimer efiOutOfResources s
  let s ← createEvent o.keyNotifyProcessEvent
    (fun c event => { c with keyNotifyProcessEvent := event }) s
  let s ← checked o.reset efiDeviceError s
  checked o.install o.install (addNames names s)

def setUp (names : NameTables) (o : StartOutcomes) (s : ConsoleIn × Machine) : Setup := do
  let s ← createWaits o s
  finishSetup names o s

/-- The exit path of Start; its closes are chained by `else if`. -/
def exit (names : NameTables) (consoleIn : Option ConsoleIn) (m : Machine) : Machine :=
  let m := match consoleIn with
    | none => m
    | some c => (m.reads consoleIn).closeIfAny
        (c.waitForKey <|> c.timerEvent <|> c.waitForKeyEx <|> c.keyNotifyProcessEvent)
  let m := kbdFreeNotifyList consoleIn m
  let m := match consoleIn with
    | none => m
    | some c =>
        if c.controllerNameTable ≠ [] then
          { m with pool := names.free c.controllerNameTable m.pool }
        else { m with pool := m.pool.release (some c.block) }
  m.closeProtocol

def keyboardControllerDriverStart (names : NameTables) (o : StartOutcomes) (m : Machine) :
    EfiStatus × Option ConsoleIn × Machine :=
  if efiError o.openProtocol then (o.openProtocol, none, m)
  else
    let m := { m with deviceOpens := m.deviceOpens + 1 }
    if o.consoleIn then
      match setUp names o (.zeroed m.pool.next, { m with pool := m.pool.grant }) with
      | .error (status, consoleIn, m) => (status, none, exit names (some consoleIn) m)
      | .ok (consoleIn, m) => (o.install, some consoleIn, m)
    else (efiOutOfResources, none, exit names none m)

/-! ## Stop -/

structure StopOutcomes where
  openConIn : EfiStatus := efiSuccess
  testConInEx : EfiStatus := efiSuccess
  uninstall : EfiStatus := efiSuccess
  deriving DecidableEq

def keyboardControllerDriverStop (names : NameTables) (o : StopOutcomes) (c : ConsoleIn)
    (m : Machine) : EfiStatus × Machine :=
  if efiError o.openConIn then (o.openConIn, m)
  else if efiError o.testConInEx then (o.testConInEx, m)
  else
    let m := (m.reads (some c)).closeIfAny c.timerEvent
    if efiError o.uninstall then (o.uninstall, m)
    else
      let m := m.closeProtocol.reads (some c)
      let m := m.closeIfAny (c.waitForKey <|> c.waitForKeyEx <|> c.keyNotifyProcessEvent)
      let m := kbdFreeNotifyList (some c) m
      let pool := names.free c.controllerNameTable m.pool
      (efiSuccess, { m with pool := pool.release (some c.block) })

/-! ## Lives of a device -/

structure Life where
  start : StartOutcomes
  calls : List ClientCall
  stop : StopOutcomes

def served (calls : List ClientCall) (c : ConsoleIn) (m : Machine) : ConsoleIn × Machine :=
  let n := Notifications.serve ⟨c.notifyList, m.pool⟩ calls
  ({ c with notifyList := n.list }, { m with pool := n.pool })

/-- Everything acquired since has been released exactly once, and no field of a structure that
is not there has been read. -/
structure Released (before after : Machine) : Prop where
  device : after.deviceOpens = before.deviceOpens
  events : Owns before.events 0 after.events
  pool : Owns before.pool 0 after.pool
  reads : after.badReads = before.badReads

/-- A Start that fails returns the error of the step that failed and has released everything,
and so has a Stop that succeeds after a Start that did. -/
structure Life.Correct (names : NameTables) (life : Life) (m : Machine) : Prop where
  failed : ∀ error, life.start.failure = some error →
    (keyboardControllerDriverStart names life.start m).1 = error ∧
      Released m (keyboardControllerDriverStart names life.start m).2.2
  stopped : ∀ status c m', keyboardControllerDriverStart names life.start m =
      (status, some c, m') →
    let s := served life.calls c m'
    efiError (keyboardControllerDriverStop names life.stop s.1 s.2).1 = false →
      Released m (keyboardControllerDriverStop names life.stop s.1 s.2).2

def StartOutcomes.FailsEarly (o : StartOutcomes) : Prop :=
  efiError o.openProtocol = true ∨
    (o.consoleIn = true ∧ (o.waitForKey = efiOutOfResources ∨
      (efiError o.waitForKey = false ∧ o.waitForKeyEx = efiOutOfResources)))

def StopOutcomes.fails (o : StopOutcomes) : Bool :=
  efiError o.openConIn || efiError o.testConInEx || efiError o.uninstall

/-! ## The failing steps -/

variable {names : NameTables} {o : StartOutcomes} {m : Machine} {c : ConsoleIn}
    {s : ConsoleIn × Machine}

@[simp] theorem createEvent_error {outcome : EfiStatus}
    {store : ConsoleIn → Option ℕ → ConsoleIn} (h : efiError outcome = true) :
    createEvent outcome store s = .error (efiOutOfResources, s) := if_pos h

@[simp] theorem createEvent_ok {outcome : EfiStatus} {store : ConsoleIn → Option ℕ → ConsoleIn}
    (h : efiError outcome = false) : createEvent outcome store s =
      .ok (store s.1 (some s.2.events.next), { s.2 with events := s.2.events.grant }) :=
  if_neg (by simp [h])

@[simp] theorem checked_error {outcome status : EfiStatus} (h : efiError outcome = true) :
    checked outcome status s = .error (status, s) := if_pos h

@[simp] theorem checked_ok {outcome status : EfiStatus} (h : efiError outcome = false) :
    checked outcome status s = .ok s := if_neg (by simp [h])

theorem reads_live (h : c.block ∈ m.pool.live) : m.reads (some c) = m := if_pos h

/-- The fields and events of the waits stay as they are, and no event is closed. -/
structure KeepsWaits (s s' : ConsoleIn × Machine) : Prop where
  waitForKey : s'.1.waitForKey = s.1.waitForKey
  waitForKeyEx : s'.1.waitForKeyEx = s.1.waitForKeyEx
  events : s.2.events.live ≤ s'.2.events.live

def ended : Setup → ConsoleIn × Machine
  | .ok s => s
  | .error (_, s) => s

theorem KeepsWaits.refl (s : ConsoleIn × Machine) : KeepsWaits s s := ⟨rfl, rfl, le_rfl⟩

theorem KeepsWaits.bind {x : Setup} {f : ConsoleIn × Machine → Setup} (hx : KeepsWaits s (ended x))
    (hf : ∀ s', KeepsWaits s' (ended (f s'))) : KeepsWaits s (ended (x >>= f)) := by
  cases x with
  | error failed => exact hx
  | ok s' =>
      have hf' := hf s'
      exact ⟨hf'.waitForKey.trans hx.waitForKey, hf'.waitForKeyEx.trans hx.waitForKeyEx,
        hx.events.trans hf'.events⟩

theorem keepsWaits_createEvent (outcome : EfiStatus) {store : ConsoleIn → Option ℕ → ConsoleIn}
    (hkey : ∀ c event, (store c event).waitForKey = c.waitForKey)
    (hkeyEx : ∀ c event, (store c event).waitForKeyEx = c.waitForKeyEx)
    (s : ConsoleIn × Machine) : KeepsWaits s (ended (createEvent outcome store s)) := by
  rw [createEvent]
  split
  · exact .refl s
  · exact ⟨hkey _ _, hkeyEx _ _, Multiset.le_cons_self _ _⟩

theorem keepsWaits_checked (outcome status : EfiStatus) (s : ConsoleIn × Machine) :
    KeepsWaits s (ended (checked outcome status s)) := by
  rw [checked]
  split
  · exact .refl s
  · exact .refl s

theorem keepsWaits_finishSetup (names : NameTables) (o : StartOutcomes)
    (s : ConsoleIn × Machine) : KeepsWaits s (ended (finishSetup names o s)) := by
  rw [finishSetup]
  apply KeepsWaits.bind (keepsWaits_createEvent _ (by intros; rfl) (by intros; rfl) s)
  intro s
  apply KeepsWaits.bind (keepsWaits_checked _ _ s)
  intro s
  apply KeepsWaits.bind (keepsWaits_createEvent _ (by intros; rfl) (by intros; rfl) s)
  intro s
  apply KeepsWaits.bind (keepsWaits_checked _ _ s)
  intro s
  have hinstall := keepsWaits_checked o.install o.install (addNames names s)
  exact ⟨hinstall.waitForKey, hinstall.waitForKeyEx, hinstall.events⟩

theorem bind_eq_ok {x : Setup} {f : ConsoleIn × Machine → Setup} {s' : ConsoleIn × Machine}
    (h : (x >>= f) = .ok s') : ∃ s, x = .ok s ∧ f s = .ok s' := by
  cases x with
  | error failed => cases h
  | ok s => exact ⟨s, rfl, h⟩

theorem createEvent_eq_ok {outcome : EfiStatus} {store : ConsoleIn → Option ℕ → ConsoleIn}
    {s' : ConsoleIn × Machine} (h : createEvent outcome store s = .ok s') :
    efiError outcome = false := by
  cases herror : efiError outcome with
  | false => rfl
  | true =>
      rw [createEvent_error herror] at h
      cases h

theorem checked_eq_ok {outcome status : EfiStatus} {s' : ConsoleIn × Machine}
    (h : checked outcome status s = .ok s') : efiError outcome = false := by
  cases herror : efiError outcome with
  | false => rfl
  | true =>
      rw [checked_error herror] at h
      cases h

def StartOutcomes.lateFailure (o : StartOutcomes) : Option EfiStatus :=
  [o.timerEvent, o.setTimer, o.keyNotifyProcessEvent, o.reset, o.install].find?
    fun status => efiError status

theorem lateFailure_of_finishSetup {s' : ConsoleIn × Machine}
    (h : finishSetup names o s = .ok s') : o.lateFailure = none := by
  obtain ⟨_, htimer, h⟩ := bind_eq_ok h
  obtain ⟨_, hset, h⟩ := bind_eq_ok h
  obtain ⟨_, hnotify, h⟩ := bind_eq_ok h
  obtain ⟨_, hreset, h⟩ := bind_eq_ok h
  simp [StartOutcomes.lateFailure, createEvent_eq_ok htimer, checked_eq_ok hset,
    createEvent_eq_ok hnotify, checked_eq_ok hreset, checked_eq_ok h]

theorem finishSetup_of_lateFailure (h : o.lateFailure = none) :
    finishSetup names o s = .ok (addNames names
      ({ s.1 with
          timerEvent := some s.2.events.next
          keyNotifyProcessEvent := some (s.2.events.next + 1) },
        { s.2 with events := s.2.events.grant.grant })) := by
  simp only [StartOutcomes.lateFailure, List.find?_eq_none, List.mem_cons, List.not_mem_nil,
    or_false, forall_eq_or_imp, forall_eq, Bool.not_eq_true] at h
  obtain ⟨htimer, hset, hnotify, hreset, hinstall⟩ := h
  rw [finishSetup, createEvent_ok htimer]
  change (checked o.setTimer _ _ >>= _) = _
  rw [checked_ok hset]
  change (createEvent o.keyNotifyProcessEvent _ _ >>= _) = _
  rw [createEvent_ok hnotify]
  change (checked o.reset _ _ >>= _) = _
  rw [checked_ok hreset]
  change checked o.install _ _ = _
  rw [checked_ok hinstall]
  rfl

/-! ## The exit path -/

variable {base : Machine}

theorem reads_events (m : Machine) (consoleIn : Option ConsoleIn) :
    (m.reads consoleIn).events = m.events := by
  unfold Machine.reads
  split
  · rfl
  · split
    · rfl
    · rfl

theorem kbdFreeNotifyList_events (m : Machine) (consoleIn : Option ConsoleIn) :
    (kbdFreeNotifyList consoleIn m).events = m.events := by
  unfold kbdFreeNotifyList
  cases consoleIn with
  | none => exact reads_events m none
  | some c => exact reads_events m (some c)

theorem exit_events : (exit names (some c) m).events = m.events.releaseIfAny
    (c.waitForKey <|> c.timerEvent <|> c.waitForKeyEx <|> c.keyNotifyProcessEvent) := by
  unfold exit
  dsimp only
  split
  · change (kbdFreeNotifyList _ _).events = _
    rw [kbdFreeNotifyList_events, Machine.closeIfAny, reads_events]
  · change (kbdFreeNotifyList _ _).events = _
    rw [kbdFreeNotifyList_events, Machine.closeIfAny, reads_events]

theorem exit_leaks (hkey : c.waitForKey = some base.events.next)
    (hlive : base.events.next + 1 ∈ m.events.live) :
    Leaks base.events (exit names (some c) m).events := by
  have hfirst : (c.waitForKey <|> c.timerEvent <|> c.waitForKeyEx <|>
      c.keyNotifyProcessEvent) = some base.events.next := by rw [hkey]; rfl
  rw [exit_events, hfirst, releaseIfAny_some]
  refine ⟨base.events.next + 1, Nat.le_succ _, ?_⟩
  rw [Ledger.release]
  split
  · exact (Multiset.mem_erase_of_ne (Nat.succ_ne_self _)).mpr hlive
  · exact hlive

theorem exit_early {block : ℕ} {event : Option ℕ} (hlive : block ∈ m.pool.live) :
    exit names (some { ConsoleIn.zeroed block with waitForKey := event }) m =
      ⟨m.deviceOpens - 1, m.events.releaseIfAny event, m.pool.release (some block),
        m.badReads⟩ := by
  have hfirst : (event <|> (none : Option ℕ) <|> none <|> none) = event := by cases event <;> rfl
  have hreads : ∀ m' : Machine, m'.pool = m.pool →
      m'.reads (some { ConsoleIn.zeroed block with waitForKey := event }) = m' :=
    fun m' hpool => reads_live (hpool ▸ hlive)
  rw [exit, kbdFreeNotifyList]
  dsimp only
  rw [hreads m rfl]
  dsimp only [ConsoleIn.zeroed] at hreads ⊢
  rw [hfirst, hreads (m.closeIfAny event) rfl]
  rfl

/-! ## Start, by the first failing step -/

def entered (m : Machine) : Machine :=
  { m with deviceOpens := m.deviceOpens + 1, pool := m.pool.grant }

theorem start_notOpened (h : efiError o.openProtocol = true) :
    keyboardControllerDriverStart names o m = (o.openProtocol, none, m) := if_pos h

theorem start_notAllocated (hopen : efiError o.openProtocol = false)
    (halloc : o.consoleIn = false) :
    ∃ m', keyboardControllerDriverStart names o m = (efiOutOfResources, none, m') ∧
      m'.badReads = m.badReads + 1 := by
  refine ⟨exit names none { m with deviceOpens := m.deviceOpens + 1 }, ?_, rfl⟩
  simp [keyboardControllerDriverStart, hopen, halloc]

theorem start_allocated (hopen : efiError o.openProtocol = false) (halloc : o.consoleIn = true) :
    keyboardControllerDriverStart names o m =
      match setUp names o (.zeroed m.pool.next, entered m) with
      | .error (status, consoleIn, m) => (status, none, exit names (some consoleIn) m)
      | .ok (consoleIn, m) => (o.install, some consoleIn, m) := by
  rw [keyboardControllerDriverStart, if_neg (by simp [hopen])]
  exact if_pos halloc

/-- After at most one event the exit path gives back all that Start has acquired. -/
theorem entered_released {event : Option ℕ} {m' : Machine} (hdevice : m'.deviceOpens =
      (entered m).deviceOpens) (hevents : Owns m.events (held event) m'.events)
    (hpool : m'.pool = (entered m).pool) (hreads : m'.badReads = m.badReads) :
    Released m (exit names (some { ConsoleIn.zeroed m.pool.next with waitForKey := event })
      m') := by
  have hgranted : Owns m.pool ({m.pool.next} + 0) m.pool.grant := (Owns.refl m.pool).grant
  rw [exit_early (hpool ▸ Multiset.mem_cons_self _ _)]
  constructor
  · change m'.deviceOpens - 1 = m.deviceOpens
    rw [hdevice]
    exact add_sub_cancel_right _ _
  · exact Owns.releaseIfAny (by rwa [add_zero])
  · rw [hpool]
    exact hgranted.release
  · exact hreads

theorem start_noWaitForKey (hopen : efiError o.openProtocol = false) (halloc : o.consoleIn = true)
    (hkey : efiError o.waitForKey = true) :
    ∃ m', keyboardControllerDriverStart names o m = (efiOutOfResources, none, m') ∧
      Released m m' := by
  have hsetup : setUp names o (.zeroed m.pool.next, entered m) =
      .error (efiOutOfResources, .zeroed m.pool.next, entered m) := by
    rw [setUp, createWaits, createEvent_error hkey]
    rfl
  rw [start_allocated hopen halloc, hsetup]
  exact ⟨_, rfl, @entered_released names m none _ rfl (Owns.refl m.events) rfl rfl⟩

theorem createWaits_second {s : ConsoleIn × Machine} (hkey : efiError o.waitForKey = false) :
    createWaits o s = createEvent o.waitForKeyEx
      (fun c event => { c with waitForKeyEx := event })
      ({ s.1 with waitForKey := some s.2.events.next },
        { s.2 with events := s.2.events.grant }) := by
  rw [createWaits, createEvent_ok hkey]
  rfl

theorem start_noWaitForKeyEx (hopen : efiError o.openProtocol = false)
    (halloc : o.consoleIn = true) (hkey : efiError o.waitForKey = false)
    (hkeyEx : efiError o.waitForKeyEx = true) :
    ∃ m', keyboardControllerDriverStart names o m = (efiOutOfResources, none, m') ∧
      Released m m' := by
  have hsetup : setUp names o (.zeroed m.pool.next, entered m) =
      .error (efiOutOfResources,
        { ConsoleIn.zeroed m.pool.next with waitForKey := some m.events.next },
        { entered m with events := m.events.grant }) := by
    rw [setUp, createWaits_second hkey, createEvent_error hkeyEx]
    rfl
  rw [start_allocated hopen halloc, hsetup]
  have hevent : Owns m.events ({m.events.next} + 0) m.events.grant := (Owns.refl m.events).grant
  exact ⟨_, rfl, @entered_released names m (some m.events.next) _ rfl (by rwa [add_zero] at hevent)
    rfl rfl⟩

def waiting (m : Machine) : ConsoleIn × Machine :=
  ({ ConsoleIn.zeroed m.pool.next with
      waitForKey := some m.events.next
      waitForKeyEx := some (m.events.next + 1) },
    { entered m with events := m.events.grant.grant })

theorem setUp_waiting (hkey : efiError o.waitForKey = false)
    (hkeyEx : efiError o.waitForKeyEx = false) :
    setUp names o (.zeroed m.pool.next, entered m) = finishSetup names o (waiting m) := by
  rw [setUp, createWaits_second hkey, createEvent_ok hkeyEx]
  rfl

theorem start_failsLate {error : EfiStatus} (hopen : efiError o.openProtocol = false)
    (halloc : o.consoleIn = true) (hkey : efiError o.waitForKey = false)
    (hkeyEx : efiError o.waitForKeyEx = false) (hlate : o.lateFailure = some error) :
    ∃ status m', keyboardControllerDriverStart names o m = (status, none, m') ∧
      Leaks m.events m'.events := by
  rw [start_allocated hopen halloc, setUp_waiting hkey hkeyEx]
  have hkeeps := keepsWaits_finishSetup names o (waiting m)
  cases hsetup : finishSetup names o (waiting m) with
  | ok s' =>
      rw [lateFailure_of_finishSetup hsetup] at hlate
      cases hlate
  | error failed =>
      rw [hsetup] at hkeeps
      refine ⟨failed.1, _, rfl, exit_leaks hkeeps.waitForKey ?_⟩
      exact Multiset.mem_of_le hkeeps.events (Multiset.mem_cons_self _ _)

theorem start_succeeds (hopen : efiError o.openProtocol = false) (halloc : o.consoleIn = true)
    (hkey : efiError o.waitForKey = false) (hkeyEx : efiError o.waitForKeyEx = false)
    (hlate : o.lateFailure = none) :
    ∃ s, keyboardControllerDriverStart names o m = (o.install, some s.1, s.2) ∧
      s = addNames names
        ({ (waiting m).1 with
            timerEvent := some (m.events.next + 2)
            keyNotifyProcessEvent := some (m.events.next + 3) },
          { entered m with events := m.events.grant.grant.grant.grant }) := by
  refine ⟨_, ?_, rfl⟩
  rw [start_allocated hopen halloc, setUp_waiting hkey hkeyEx, finishSetup_of_lateFailure hlate]
  rfl

/-! ## Stop -/

def leftOpen (base : Machine) : Multiset ℕ :=
  {base.events.next + 1} + {base.events.next + 3}

/-- A device that was started on a machine: its four events are open, and it has its structure,
its names and its entries in the pool. -/
structure Started (base : Machine) (c : ConsoleIn) (m : Machine) : Prop where
  waitForKey : c.waitForKey = some base.events.next
  timerEvent : c.timerEvent = some (base.events.next + 2)
  device : m.deviceOpens = base.deviceOpens + 1
  events : Owns base.events ({base.events.next + 2} + ({base.events.next} + leftOpen base))
    m.events
  pool : Owns base.pool (blocks c.notifyList + ((c.controllerNameTable : Multiset ℕ) +
    {c.block})) m.pool
  reads : m.badReads = base.badReads

theorem started_addNames (names : NameTables) (m : Machine) (c : ConsoleIn) (m' : Machine)
    (h : (c, m') = addNames names
        ({ (waiting m).1 with
            timerEvent := some (m.events.next + 2)
            keyNotifyProcessEvent := some (m.events.next + 3) },
          { entered m with events := m.events.grant.grant.grant.grant })) :
    Started m c m' := by
  obtain ⟨rfl, rfl⟩ := Prod.mk.inj h
  refine ⟨rfl, rfl, rfl, ?_, ?_, rfl⟩
  · have hevents := ((((Owns.refl m.events).grant).grant).grant).grant
    convert hevents using 1
    change {m.events.next + 2} + ({m.events.next} + ({m.events.next + 1} +
      {m.events.next + 3})) = ({m.events.next + 3} + ({m.events.next + 2} +
        ({m.events.next + 1} + ({m.events.next} + 0))) : Multiset ℕ)
    abel
  · have hblock : Owns m.pool ((([] : List ℕ) : Multiset ℕ) + {m.pool.next}) m.pool.grant := by
      have hgranted := (Owns.refl m.pool).grant
      rw [Multiset.coe_nil, zero_add]
      rwa [add_zero] at hgranted
    have hempty : blocks NotifyList.empty = 0 := rfl
    change Owns m.pool (blocks NotifyList.empty + _) _
    rw [hempty, zero_add]
    exact names.add_owns false _ (names.add_owns true [] hblock)

theorem Started.served (h : Started base c m) (calls : List ClientCall) :
    Started base (Binding.served calls c m).1 (Binding.served calls c m).2 where
  waitForKey := h.waitForKey
  timerEvent := h.timerEvent
  device := h.device
  events := h.events
  pool := @serve_owns ⟨c.notifyList, m.pool⟩ base.pool _ calls h.pool
  reads := h.reads

theorem Started.stop (h : Started base c m) {o : StopOutcomes} (hstop : o.fails = false) :
    let m' := (keyboardControllerDriverStop names o c m).2
    m'.deviceOpens = base.deviceOpens ∧ Owns base.events (leftOpen base) m'.events ∧
      Owns base.pool 0 m'.pool ∧ m'.badReads = base.badReads := by
  simp only [StopOutcomes.fails, Bool.or_eq_false_iff] at hstop
  obtain ⟨⟨hopen, htest⟩, hinstall⟩ := hstop
  have hlive : c.block ∈ m.pool.live := h.pool.mem (by simp)
  have hreads : ∀ m' : Machine, m'.pool = m.pool → m'.reads (some c) = m' :=
    fun m' hpool => reads_live (hpool ▸ hlive)
  have hlist : Owns base.pool ((c.controllerNameTable : Multiset ℕ) + {c.block})
      (m.pool.releaseAll (c.notifyList.handles.map some)) :=
    Owns.releaseAll _ (by rw [heldAll_map_some]; exact h.pool)
  have hpool := (names.free_owns c.controllerNameTable hlist)
  have hfirst : (c.waitForKey <|> c.waitForKeyEx <|> c.keyNotifyProcessEvent) =
      some base.events.next := by rw [h.waitForKey]; rfl
  have hdevice : m.deviceOpens - 1 = base.deviceOpens := by
    rw [h.device]
    exact add_sub_cancel_right _ _
  have hmachine : (keyboardControllerDriverStop names o c m).2 =
      ⟨m.deviceOpens - 1, (m.events.release c.timerEvent).release (some base.events.next),
        (names.free c.controllerNameTable
          (m.pool.releaseAll (c.notifyList.handles.map some))).release (some c.block),
        m.badReads⟩ := by
    unfold keyboardControllerDriverStop kbdFreeNotifyList
    rw [if_neg (by simp [hopen]), if_neg (by simp [htest]), if_neg (by simp [hinstall])]
    have hclosed := hreads (m.closeIfAny c.timerEvent).closeProtocol rfl
    have hagain := hreads ((m.closeIfAny c.timerEvent).closeProtocol.closeIfAny
      (some base.events.next)) rfl
    dsimp only
    rw [hreads m rfl, hclosed, hfirst, hagain, h.timerEvent]
    rfl
  rw [hmachine]
  refine ⟨hdevice, ?_, ?_, h.reads⟩
  · rw [h.timerEvent]
    exact h.events.release.release
  · refine Owns.release ?_
    rwa [add_zero]

theorem stop_status (names : NameTables) (o : StopOutcomes) (c : ConsoleIn) (m : Machine) :
    efiError (keyboardControllerDriverStop names o c m).1 = o.fails := by
  rw [keyboardControllerDriverStop, StopOutcomes.fails]
  cases hopen : efiError o.openConIn with
  | true => simp [hopen]
  | false =>
      cases htest : efiError o.testConInEx with
      | true => simp [htest]
      | false =>
          cases huninstall : efiError o.uninstall with
          | true => simp [huninstall]
          | false => simp

theorem Released.not_leaks (h : Released base m) : ¬ Leaks base.events m.events :=
  MuTegra.Foundation.Tallies.not_leaks (by rw [h.events.live, zero_add])

/-! ## Which lives release everything -/

variable {life : Life}

theorem failure_none_iff {o : StartOutcomes} : o.failure = none ↔
    efiError o.openProtocol = false ∧ o.consoleIn = true ∧ efiError o.waitForKey = false ∧
      efiError o.waitForKeyEx = false ∧ o.lateFailure = none := by
  have halloc : efiError (if o.consoleIn then efiSuccess else efiOutOfResources) = false ↔
      o.consoleIn = true := by
    cases o.consoleIn <;> simp [efiOutOfResources]
  simp only [StartOutcomes.failure, StartOutcomes.lateFailure, List.find?_eq_none, List.mem_cons,
    List.not_mem_nil, or_false, forall_eq_or_imp, forall_eq, Bool.not_eq_true, halloc]

theorem correct_iff_of_started (hstart : life.start.failure = none) :
    life.Correct names m ↔ life.stop.fails = true := by
  obtain ⟨hopen, halloc, hkey, hkeyEx, hlate⟩ := failure_none_iff.mp hstart
  obtain ⟨⟨c, m'⟩, hresult, hs⟩ :=
    @start_succeeds names life.start m hopen halloc hkey hkeyEx hlate
  have hstarted := (started_addNames names m c m' hs).served life.calls
  constructor
  · intro hcorrect
    by_contra hstop
    rw [Bool.not_eq_true] at hstop
    have hreleased := hcorrect.stopped _ c m' hresult (by rw [stop_status, hstop])
    have hleft := (@Started.stop names _ _ m hstarted life.stop hstop).2.1
    have hlive := hreleased.events.live.symm.trans hleft.live
    have hcard := congrArg Multiset.card hlive
    simp only [leftOpen, Multiset.card_add, Multiset.card_singleton, Multiset.card_zero] at hcard
    omega
  · intro hstop
    refine ⟨fun error herror => ?_, fun status c' m'' _ => ?_⟩
    · rw [hstart] at herror
      cases herror
    · intro s hok
      rw [stop_status, hstop] at hok
      cases hok

/-- A life whose Start fails is correct when it returns the error and has released all. -/
theorem correct_iff_of_failed {error status : EfiStatus} {m' : Machine}
    (hstart : life.start.failure = some error)
    (hresult : keyboardControllerDriverStart names life.start m = (status, none, m')) :
    life.Correct names m ↔ status = error ∧ Released m m' := by
  constructor
  · intro hcorrect
    have hfailed := hcorrect.failed error hstart
    rwa [hresult] at hfailed
  · intro hreleased
    refine ⟨fun error' herror => ?_, fun status' c' m'' hc => ?_⟩
    · rw [hstart] at herror
      obtain rfl := Option.some.inj herror
      rwa [hresult]
    · rw [hresult] at hc
      cases hc

theorem failure_allocated {o : StartOutcomes} (hopen : efiError o.openProtocol = false)
    (halloc : o.consoleIn = true) : o.failure =
      (if efiError o.waitForKey then some o.waitForKey
      else if efiError o.waitForKeyEx then some o.waitForKeyEx else o.lateFailure) := by
  rw [StartOutcomes.failure, StartOutcomes.lateFailure]
  rw [List.find?_cons_of_neg (by simp [hopen]), List.find?_cons_of_neg (by simp [halloc]),
    List.find?_cons, List.find?_cons]
  cases efiError o.waitForKey <;> cases efiError o.waitForKeyEx <;> rfl

theorem correct_iff_of_allocated {error : EfiStatus}
    (hopen : efiError life.start.openProtocol = false) (halloc : life.start.consoleIn = true)
    (hfails : life.start.failure = some error) :
    life.Correct names m ↔ life.start.waitForKey = efiOutOfResources ∨
      (efiError life.start.waitForKey = false ∧ life.start.waitForKeyEx = efiOutOfResources) := by
  have herror : efiError efiOutOfResources = true := efiError_encodeError _
  have hfailure := (failure_allocated hopen halloc).symm.trans hfails
  cases hkey : efiError life.start.waitForKey with
  | true =>
      obtain ⟨m', hresult, hreleased⟩ :=
        @start_noWaitForKey names life.start m hopen halloc hkey
      rw [correct_iff_of_failed hfails hresult]
      rw [if_pos hkey, Option.some_inj] at hfailure
      simp [hreleased, hfailure, eq_comm]
  | false =>
      have hne : life.start.waitForKey ≠ efiOutOfResources := fun h => by simp [h, herror] at hkey
      rw [if_neg (by simp [hkey])] at hfailure
      cases hkeyEx : efiError life.start.waitForKeyEx with
      | true =>
          obtain ⟨m', hresult, hreleased⟩ :=
            @start_noWaitForKeyEx names life.start m hopen halloc hkey hkeyEx
          rw [correct_iff_of_failed hfails hresult]
          rw [if_pos hkeyEx, Option.some_inj] at hfailure
          simp [hreleased, hfailure, hne, eq_comm]
      | false =>
          have hneEx : life.start.waitForKeyEx ≠ efiOutOfResources :=
            fun h => by simp [h, herror] at hkeyEx
          rw [if_neg (by simp [hkeyEx])] at hfailure
          obtain ⟨status, m', hresult, hleaks⟩ :=
            @start_failsLate names life.start m error hopen halloc hkey hkeyEx hfailure
          rw [correct_iff_of_failed hfails hresult]
          have hnot : ¬ Released m m' := fun h => h.not_leaks hleaks
          simp [hnot, hne, hneEx]

/-- A life is correct exactly when its Start fails at the device protocol or, for lack of
resources, at one of the first two events, or when neither a failed Start nor a successful
Stop is part of it. -/
theorem lives_correct_iff (names : NameTables) (life : Life) (m : Machine) :
    life.Correct names m ↔
      life.start.FailsEarly ∨ (life.start.failure = none ∧ life.stop.fails = true) := by
  rw [StartOutcomes.FailsEarly]
  cases hopen : efiError life.start.openProtocol with
  | true =>
      have hfails : life.start.failure = some life.start.openProtocol :=
        List.find?_cons_of_pos hopen
      rw [correct_iff_of_failed hfails (start_notOpened hopen)]
      have hreleased : Released m m := ⟨rfl, Owns.refl _, Owns.refl _, rfl⟩
      simp [hreleased]
  | false =>
      cases halloc : life.start.consoleIn with
      | false =>
          have hfails : life.start.failure = some efiOutOfResources := by
            rw [StartOutcomes.failure, List.find?_cons_of_neg (by simp [hopen]), halloc]
            rfl
          obtain ⟨m', hresult, hread⟩ := @start_notAllocated names life.start m hopen halloc
          rw [correct_iff_of_failed hfails hresult]
          have hnot : ¬ Released m m' := fun h => by
            have := h.reads
            omega
          simp [hnot, hfails]
      | true =>
          cases hfails : life.start.failure with
          | none =>
              obtain ⟨-, -, hkey, hkeyEx, -⟩ := failure_none_iff.mp hfails
              have hne : life.start.waitForKey ≠ efiOutOfResources :=
                fun h => by simp [h, efiOutOfResources] at hkey
              have hneEx : life.start.waitForKeyEx ≠ efiOutOfResources :=
                fun h => by simp [h, efiOutOfResources] at hkeyEx
              rw [correct_iff_of_started hfails]
              simp [hne, hneEx]
          | some error =>
              rw [correct_iff_of_allocated hopen halloc hfails]
              simp

/-! ## A device that is started and stopped -/

/-- A table in the pool: its own block, then a language and a name for each entry; adding an
entry allocates all anew except the strings there are. -/
def addToTable (table : List ℕ) (pool : Ledger) : List ℕ × Ledger :=
  ([pool.next, pool.next + 1, pool.next + 2] ++ table.tail,
    pool.grant.grant.grant.releaseIfAny table.head?)

theorem addToTable_owns {base pool : Ledger} {rest : Multiset ℕ} (table : List ℕ)
    (h : Owns base ((table : Multiset ℕ) + rest) pool) :
    Owns base (((addToTable table pool).1 : Multiset ℕ) + rest) (addToTable table pool).2 := by
  have hsplit : (table : Multiset ℕ) = held table.head? + (table.tail : Multiset ℕ) := by
    cases table with
    | nil => rfl
    | cons old strings => exact (Multiset.singleton_add old (strings : Multiset ℕ)).symm
  have hadded := h.grant.grant.grant
  rw [hsplit] at hadded
  refine Owns.releaseIfAny ?_
  convert hadded using 1
  change held table.head? + (({pool.next} + ({pool.next + 1} + ({pool.next + 2} +
    (table.tail : Multiset ℕ)))) + rest) = {pool.next + 2} + ({pool.next + 1} + ({pool.next} +
      (held table.head? + (table.tail : Multiset ℕ) + rest)))
  abel

def pooledNames : NameTables where
  add := fun _ => addToTable
  free := fun table pool => pool.releaseAll (table.map some)
  add_owns := fun _ => addToTable_owns
  free_owns := fun table h => Owns.releaseAll _ (by rwa [heldAll_map_some])

def idle : Machine := ⟨0, .empty, .empty, 0⟩

/-- Every call succeeds, and yet two events stay open. -/
theorem allSucceed_not_correct : ¬ Life.Correct pooledNames ⟨{}, [], {}⟩ idle := by
  rw [correct_iff_of_started rfl]
  decide

end MuTegra.Keyboard.Binding
