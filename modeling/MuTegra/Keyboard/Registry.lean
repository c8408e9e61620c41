/- Unit: MuTegra/Keyboard/Registry
   source: NvidiaPkg/Drivers/TegraKeyboardDxe/TegraKeyboardTextIn.c
   digest: A registration gets a handle of its own unless an earlier one matches its key. -/

import MuTegra.Foundation.Runs
import MuTegra.Keyboard.Notify
import Mathlib.Data.List.Induction
import Mathlib.Data.List.Nodup

/-!
An entry of the notify list is its own handle, named here by the address it was allocated
at. Beside the list the model carries what the clients have been told: each registration
with the handle returned for it, until that handle is unregistered.
-/

set_option autoImplicit false
set_option relaxedAutoImplicit false

namespace MuTegra.Keyboard.Registry

open MuTegra.Foundation.Runs
open MuTegra.Uefi.Status
open MuTegra.Keyboard.Queue
open MuTegra.Keyboard.Notify

structure Registration where
  handle : ℕ
  notify : KeyNotify
  deriving DecidableEq, Repr

structure NotifyList where
  entries : List Registration
  nodup : (entries.map Registration.handle).Nodup

def NotifyList.handles (list : NotifyList) : List ℕ := list.entries.map Registration.handle

/-- `AllocateZeroPool`: NULL, or an address at which none of the entries lies. -/
abbrev Allocation := (live : List ℕ) → Option { address : ℕ // address ≠ 0 ∧ address ∉ live }

def NotifyList.empty : NotifyList := ⟨[], List.nodup_nil⟩

theorem nodup_insertTail (list : NotifyList) {entry : Registration}
    (hfresh : entry.handle ∉ list.handles) :
    ((list.entries ++ [entry]).map Registration.handle).Nodup := by
  rw [List.map_append]
  refine List.nodup_append.mpr ⟨list.nodup, List.nodup_singleton _, ?_⟩
  intro handle hold new hnew heq
  obtain rfl := List.mem_singleton.mp hnew
  exact hfresh (heq ▸ hold)

def NotifyList.insertTail (list : NotifyList) (entry : Registration)
    (hfresh : entry.handle ∉ list.handles) : NotifyList :=
  ⟨list.entries ++ [entry], nodup_insertTail list hfresh⟩

theorem nodup_remove (list : NotifyList) (handle : ℕ) :
    ((list.entries.eraseP fun entry => entry.handle == handle).map
      Registration.handle).Nodup :=
  (List.eraseP_sublist.map Registration.handle).nodup list.nodup

def NotifyList.remove (list : NotifyList) (handle : ℕ) : NotifyList :=
  ⟨list.entries.eraseP fun entry => entry.handle == handle, nodup_remove list handle⟩

def NotifyList.registered (list : NotifyList) (notify : KeyNotify) : Option Registration :=
  list.entries.find? fun entry =>
    isKeyRegistered entry.notify.keyData notify.keyData &&
      entry.notify.keyNotificationFn == notify.keyNotificationFn

/-- `KeyboardRegisterKeyNotify`: the status, what is stored in `NotifyHandle` and the list;
`notifyHandle` tells whether that pointer is not NULL. -/
def keyboardRegisterKeyNotify (list : NotifyList) (keyData : Option EfiKeyData)
    (keyNotificationFunction : Option ℕ) (notifyHandle : Bool) (allocation : Allocation) :
    EfiStatus × Option ℕ × NotifyList :=
  match keyData, keyNotificationFunction, notifyHandle with
  | some keyData, some keyNotificationFunction, true =>
      let notify : KeyNotify := ⟨keyData, keyNotificationFunction⟩
      match list.registered notify with
      | some currentNotify => (efiSuccess, some currentNotify.handle, list)
      | none =>
          match allocation list.handles with
          | none => (efiOutOfResources, none, list)
          | some address =>
              (efiSuccess, some address.1, list.insertTail ⟨address.1, notify⟩ address.2.2)
  | _, _, _ => (efiInvalidParameter, none, list)

def keyboardUnregisterKeyNotify (list : NotifyList) (notificationHandle : Option ℕ) :
    EfiStatus × NotifyList :=
  match notificationHandle with
  | none => (efiInvalidParameter, list)
  | some handle =>
      if list.entries.any fun entry => entry.handle == handle then
        (efiSuccess, list.remove handle)
      else (efiInvalidParameter, list)

inductive Call where
  | register (keyData : Option EfiKeyData) (keyNotificationFunction : Option ℕ)
      (notifyHandle : Bool) (allocation : Allocation)
  | unregister (notificationHandle : Option ℕ)

structure Session where
  list : NotifyList
  registrations : List Registration

def Session.start : Session := ⟨.empty, []⟩

def learned (keyData : Option EfiKeyData) (keyNotificationFunction : Option ℕ)
    (stored : Option ℕ) : List Registration :=
  match keyData, keyNotificationFunction, stored with
  | some keyData, some keyNotificationFunction, some handle =>
      [⟨handle, ⟨keyData, keyNotificationFunction⟩⟩]
  | _, _, _ => []

def Session.step (s : Session) : Call → EfiStatus × Session
  | .register keyData keyNotificationFunction notifyHandle allocation =>
      let outcome := keyboardRegisterKeyNotify s.list keyData keyNotificationFunction
        notifyHandle allocation
      (outcome.1, ⟨outcome.2.2,
        s.registrations ++ learned keyData keyNotificationFunction outcome.2.1⟩)
  | .unregister notificationHandle =>
      let outcome := keyboardUnregisterKeyNotify s.list notificationHandle
      (outcome.1, ⟨outcome.2, s.registrations.filter fun registration =>
        efiError outcome.1 || some registration.handle ≠ notificationHandle⟩)

/-- What clients may rely on: different registrations have different handles, one made again
has the handle it had and adds nothing, a handle takes its own registration out of the list
and nothing else, and an unknown handle is refused. -/
structure Session.Correct (s : Session) : Prop where
  distinct : ∀ r ∈ s.registrations, ∀ r' ∈ s.registrations, r.notify ≠ r'.notify →
    r.handle ≠ r'.handle
  again : ∀ r ∈ s.registrations, ∀ allocation,
    keyboardRegisterKeyNotify s.list (some r.notify.keyData) (some r.notify.keyNotificationFn)
      true allocation = (efiSuccess, some r.handle, s.list)
  removed : ∀ r ∈ s.registrations, ∃ before after, s.list.entries = before ++ r :: after ∧
    (keyboardUnregisterKeyNotify s.list (some r.handle)).1 = efiSuccess ∧
    (keyboardUnregisterKeyNotify s.list (some r.handle)).2.entries = before ++ after
  unknown : ∀ handle, (∀ r ∈ s.registrations, handle ≠ some r.handle) →
    keyboardUnregisterKeyNotify s.list handle = (efiInvalidParameter, s.list)

def RunCorrect (calls : List Call) : Prop :=
  ∀ before after, calls = before ++ after →
    (stateAfter Session.step Session.start before).Correct

/-- The first entry that matches a key with its function is for exactly that key. -/
def Call.Exact (list : NotifyList) : Call → Prop
  | .register (some keyData) (some keyNotificationFunction) true _ =>
      ∀ entry, list.registered ⟨keyData, keyNotificationFunction⟩ = some entry →
        entry.notify.keyData = keyData
  | _ => True

def RunExact (calls : List Call) : Prop :=
  ∀ before call after, calls = before ++ call :: after →
    call.Exact (stateAfter Session.step Session.start before).list

/-! ## The list -/

/-- An earlier entry with the same function does not match a later entry's key. -/
def Unmatched (earlier later : Registration) : Prop :=
  earlier.notify.keyNotificationFn = later.notify.keyNotificationFn →
    isKeyRegistered earlier.notify.keyData later.notify.keyData = false

theorem isKeyRegistered_self (keyData : EfiKeyData) : isKeyRegistered keyData keyData = true := by
  simp [isKeyRegistered]

variable {list : NotifyList} {notify : KeyNotify} {entry : Registration}

theorem registered_some (h : list.registered notify = some entry) :
    entry ∈ list.entries ∧
      entry.notify.keyNotificationFn = notify.keyNotificationFn := by
  refine ⟨List.mem_of_find?_eq_some h, ?_⟩
  have hmatch := List.find?_some h
  simp only [Bool.and_eq_true, beq_iff_eq] at hmatch
  exact hmatch.2

theorem registered_none (h : list.registered notify = none) {handle : ℕ} :
    ∀ entry ∈ list.entries, Unmatched entry ⟨handle, notify⟩ := by
  intro entry hentry hfunction
  have hmatch := List.find?_eq_none.mp h entry hentry
  simp only [Bool.and_eq_true, beq_iff_eq, not_and] at hmatch
  by_contra hmatched
  exact hmatch (Bool.eq_true_of_not_eq_false hmatched) hfunction

theorem registered_self (hunmatched : list.entries.Pairwise Unmatched)
    (hentry : entry ∈ list.entries) : list.registered entry.notify = some entry := by
  obtain ⟨before, after, hsplit⟩ := List.append_of_mem hentry
  rw [hsplit, List.pairwise_append] at hunmatched
  refine List.find?_eq_some_iff_append.mpr ⟨?_, before, after, hsplit, ?_⟩
  · simp [isKeyRegistered_self]
  · intro earlier hearlier
    have hun := hunmatched.2.2 earlier hearlier entry List.mem_cons_self
    by_cases hfunction : earlier.notify.keyNotificationFn = entry.notify.keyNotificationFn
    · simp [hun hfunction]
    · simp [hfunction]

theorem eq_of_handle_eq {entry' : Registration} (hentry : entry ∈ list.entries)
    (hentry' : entry' ∈ list.entries) (h : entry.handle = entry'.handle) : entry = entry' :=
  List.inj_on_of_nodup_map list.nodup hentry hentry' h

theorem remove_entries (hentry : entry ∈ list.entries) :
    ∃ before after, list.entries = before ++ entry :: after ∧
      (list.remove entry.handle).entries = before ++ after := by
  obtain ⟨found, before, after, -, hfound, hsplit, hremoved⟩ :=
    List.exists_of_eraseP hentry (p := fun e => e.handle == entry.handle) (beq_self_eq_true _)
  have hmem : found ∈ list.entries := by
    rw [hsplit]
    exact List.mem_append_right _ List.mem_cons_self
  obtain rfl := eq_of_handle_eq hmem hentry (beq_iff_eq.mp hfound)
  exact ⟨before, after, hsplit, hremoved⟩

theorem mem_remove (hentry : entry ∈ list.entries) {other : Registration} :
    other ∈ (list.remove entry.handle).entries ↔
      other ∈ list.entries ∧ other.handle ≠ entry.handle := by
  obtain ⟨before, after, hsplit, hremoved⟩ := remove_entries hentry
  have hnodup : (entry :: (before ++ after)).Nodup := by
    rw [← List.nodup_middle, ← hsplit]
    exact List.Nodup.of_map _ list.nodup
  have hmem : other ∈ list.entries ↔ other = entry ∨ other ∈ before ++ after := by
    rw [hsplit, List.mem_append, List.mem_cons, List.mem_append]
    tauto
  rw [hremoved]
  constructor
  · intro hother
    refine ⟨hmem.mpr (Or.inr hother), fun heq => ?_⟩
    obtain rfl := eq_of_handle_eq (hmem.mpr (Or.inr hother)) hentry heq
    exact (List.nodup_cons.mp hnodup).1 hother
  · rintro ⟨hother, hne⟩
    rcases hmem.mp hother with rfl | hrest
    · exact absurd rfl hne
    · exact hrest

theorem any_handle {handle : ℕ} :
    (list.entries.any fun entry => entry.handle == handle) = true ↔
      ∃ entry ∈ list.entries, entry.handle = handle := by
  simp

variable {keyData : EfiKeyData} {keyNotificationFunction : ℕ} {allocation : Allocation}

theorem register_found {entry : Registration}
    (h : list.registered ⟨keyData, keyNotificationFunction⟩ = some entry) :
    keyboardRegisterKeyNotify list (some keyData) (some keyNotificationFunction) true allocation =
      (efiSuccess, some entry.handle, list) := by
  simp only [keyboardRegisterKeyNotify, h]

theorem register_refused (h : list.registered ⟨keyData, keyNotificationFunction⟩ = none)
    (hallocation : allocation list.handles = none) :
    keyboardRegisterKeyNotify list (some keyData) (some keyNotificationFunction) true allocation =
      (efiOutOfResources, none, list) := by
  simp only [keyboardRegisterKeyNotify, h, hallocation]

theorem register_added {address : { address : ℕ // address ≠ 0 ∧ address ∉ list.handles }}
    (h : list.registered ⟨keyData, keyNotificationFunction⟩ = none)
    (hallocation : allocation list.handles = some address) :
    keyboardRegisterKeyNotify list (some keyData) (some keyNotificationFunction) true allocation =
      (efiSuccess, some address.1,
        list.insertTail ⟨address.1, ⟨keyData, keyNotificationFunction⟩⟩ address.2.2) := by
  simp only [keyboardRegisterKeyNotify, h, hallocation]

theorem unregister_known {list : NotifyList} {entry : Registration}
    (hentry : entry ∈ list.entries) :
    keyboardUnregisterKeyNotify list (some entry.handle) =
      (efiSuccess, list.remove entry.handle) :=
  if_pos (any_handle.mpr ⟨entry, hentry, rfl⟩)

theorem unregister_unknown {list : NotifyList} {handle : Option ℕ}
    (hunknown : ∀ entry ∈ list.entries, handle ≠ some entry.handle) :
    keyboardUnregisterKeyNotify list handle = (efiInvalidParameter, list) := by
  cases handle with
  | none => rfl
  | some handle =>
      refine if_neg fun hany => ?_
      obtain ⟨entry, hentry, rfl⟩ := any_handle.mp hany
      exact hunknown entry hentry rfl

/-! ## One call -/

inductive Effect (s : Session) (call : Call) : Session → Prop
  | none : Effect s call s
  /-- An entry that matches is taken for the registration. -/
  | found (notify : KeyNotify) (allocation : Allocation) (entry : Registration)
      (hcall : call = .register (some notify.keyData) (some notify.keyNotificationFn) true
        allocation)
      (hfound : s.list.registered notify = some entry) :
      Effect s call ⟨s.list, s.registrations ++ [⟨entry.handle, notify⟩]⟩
  | added (entry : Registration) (hnone : s.list.registered entry.notify = none)
      (hfresh : entry.handle ∉ s.list.handles) :
      Effect s call ⟨s.list.insertTail entry hfresh, s.registrations ++ [entry]⟩
  | removed (entry : Registration) (hentry : entry ∈ s.list.entries) :
      Effect s call ⟨s.list.remove entry.handle,
        s.registrations.filter fun registration => registration.handle ≠ entry.handle⟩

variable {s : Session}

theorem refused_register (keyData : Option EfiKeyData) (keyNotificationFunction : Option ℕ)
    (s : Session) : (⟨s.list, s.registrations ++ learned keyData keyNotificationFunction none⟩ :
      Session) = s := by
  have hnothing : learned keyData keyNotificationFunction none = [] := by
    unfold learned
    split
    · next hnone => cases hnone
    · rfl
  rw [hnothing, List.append_nil]

theorem effect_register (keyData : Option EfiKeyData) (keyNotificationFunction : Option ℕ)
    (notifyHandle : Bool) (allocation : Allocation) :
    Effect s (.register keyData keyNotificationFunction notifyHandle allocation)
      (s.step (.register keyData keyNotificationFunction notifyHandle allocation)).2 := by
  have hinvalid : keyboardRegisterKeyNotify s.list keyData keyNotificationFunction notifyHandle
      allocation = (efiInvalidParameter, none, s.list) → Effect s (.register keyData
        keyNotificationFunction notifyHandle allocation)
      (s.step (.register keyData keyNotificationFunction notifyHandle allocation)).2 := by
    intro hrefused
    rw [Session.step, hrefused, refused_register]
    exact .none
  cases keyData with
  | none => exact hinvalid rfl
  | some keyData =>
      cases keyNotificationFunction with
      | none => exact hinvalid rfl
      | some keyNotificationFunction =>
          cases notifyHandle with
          | false => exact hinvalid rfl
          | true =>
              rw [Session.step]
              cases hfound : s.list.registered ⟨keyData, keyNotificationFunction⟩ with
              | some entry =>
                  rw [register_found hfound]
                  exact .found ⟨keyData, keyNotificationFunction⟩ allocation entry rfl hfound
              | none =>
                  cases hallocation : allocation s.list.handles with
                  | none =>
                      rw [register_refused hfound hallocation, refused_register]
                      exact .none
                  | some address =>
                      rw [register_added hfound hallocation]
                      exact .added ⟨address.1, ⟨keyData, keyNotificationFunction⟩⟩ hfound
                        address.2.2

theorem refused_unregister (notificationHandle : Option ℕ) (s : Session) :
    (⟨s.list, s.registrations.filter fun registration =>
      efiError efiInvalidParameter || some registration.handle ≠ notificationHandle⟩ : Session) =
      s := by
  have herror : efiError efiInvalidParameter = true := efiError_encodeError _
  simp [herror]

theorem effect_unregister (notificationHandle : Option ℕ) :
    Effect s (.unregister notificationHandle) (s.step (.unregister notificationHandle)).2 := by
  simp only [Session.step]
  cases notificationHandle with
  | none =>
      unfold keyboardUnregisterKeyNotify
      rw [refused_unregister]
      exact .none
  | some handle =>
      unfold keyboardUnregisterKeyNotify
      simp only
      split
      · next hany =>
          obtain ⟨entry, hentry, rfl⟩ := any_handle.mp hany
          have heffect := @Effect.removed s (.unregister (some entry.handle)) entry hentry
          simpa using heffect
      · rw [refused_unregister]
        exact .none

theorem effect_step (s : Session) (call : Call) : Effect s call (s.step call).2 := by
  cases call with
  | register keyData keyNotificationFunction notifyHandle allocation =>
      exact effect_register _ _ _ _
  | unregister notificationHandle => exact effect_unregister _

theorem notify_ext {notify notify' : KeyNotify} (hkey : notify.keyData = notify'.keyData)
    (hfunction : notify.keyNotificationFn = notify'.keyNotificationFn) : notify = notify' := by
  cases notify
  cases notify'
  exact KeyNotify.mk.injEq _ _ _ _ ▸ ⟨hkey, hfunction⟩

/-- What every call keeps: each entry is some client's registration, and none matches the
key of a later one. -/
structure Recorded (s : Session) : Prop where
  known : ∀ entry ∈ s.list.entries, entry ∈ s.registrations
  unmatched : s.list.entries.Pairwise Unmatched

def Listed (s : Session) : Prop := ∀ r ∈ s.registrations, r ∈ s.list.entries

theorem Recorded.start : Recorded .start := ⟨nofun, List.Pairwise.nil⟩

theorem Listed.start : Listed .start := nofun

variable {s' : Session} {call : Call}

theorem Recorded.next (h : Recorded s) (heffect : Effect s call s') : Recorded s' := by
  cases heffect with
  | none => exact h
  | found notify allocation entry hcall hfound =>
      exact ⟨fun entry' hentry' => List.mem_append_left _ (h.known entry' hentry'), h.unmatched⟩
  | added entry hnone hfresh =>
      constructor
      · intro entry' hentry'
        rcases List.mem_append.mp hentry' with hold | hnew
        · exact List.mem_append_left _ (h.known entry' hold)
        · exact List.mem_append_right _ hnew
      · refine List.pairwise_append.mpr ⟨h.unmatched, List.pairwise_singleton _ _, ?_⟩
        intro earlier hearlier later hlater
        obtain rfl := List.mem_singleton.mp hlater
        exact registered_none hnone earlier hearlier
  | removed entry hentry =>
      constructor
      · intro entry' hentry'
        obtain ⟨hold, hne⟩ := (mem_remove hentry).mp hentry'
        exact List.mem_filter.mpr ⟨h.known entry' hold, by simpa using hne⟩
      · exact h.unmatched.sublist List.eraseP_sublist

theorem Listed.next (h : Listed s) (hexact : call.Exact s.list) (heffect : Effect s call s') :
    Listed s' := by
  cases heffect with
  | none => exact h
  | found notify allocation entry hcall hfound =>
      intro r hr
      rcases List.mem_append.mp hr with hold | hnew
      · exact h r hold
      · obtain rfl := List.mem_singleton.mp hnew
        subst hcall
        have hkey : entry.notify.keyData = notify.keyData := hexact entry hfound
        obtain ⟨hentry, hfunction⟩ := registered_some hfound
        have hsame : entry = ⟨entry.handle, notify⟩ :=
          congrArg (Registration.mk entry.handle) (notify_ext hkey hfunction)
        exact hsame ▸ hentry
  | added entry hnone hfresh =>
      intro r hr
      rcases List.mem_append.mp hr with hold | hnew
      · exact List.mem_append_left _ (h r hold)
      · exact List.mem_append_right _ hnew
  | removed entry hentry =>
      intro r hr
      obtain ⟨hold, hne⟩ := List.mem_filter.mp hr
      exact (mem_remove hentry).mpr ⟨h r hold, by simpa using hne⟩

theorem Recorded.correct (h : Recorded s) (hlisted : Listed s) : s.Correct where
  distinct r hr r' hr' hne heq :=
    hne (congrArg Registration.notify (eq_of_handle_eq (hlisted r hr) (hlisted r' hr') heq))
  again r hr _ := register_found (registered_self h.unmatched (hlisted r hr))
  removed r hr := by
    obtain ⟨before, after, hsplit, hremoved⟩ := remove_entries (hlisted r hr)
    rw [unregister_known (hlisted r hr)]
    exact ⟨before, after, hsplit, rfl, hremoved⟩
  unknown handle hunknown :=
    unregister_unknown fun entry hentry => hunknown entry (h.known entry hentry)

theorem Recorded.exact_of_correct (h : Recorded s) (hcorrect : (s.step call).2.Correct) :
    call.Exact s.list := by
  unfold Call.Exact
  split
  · next keyData keyNotificationFunction allocation =>
      intro entry hfound
      by_contra hkey
      rw [Session.step, register_found hfound] at hcorrect
      have hold : entry ∈ s.registrations ++
          [⟨entry.handle, ⟨keyData, keyNotificationFunction⟩⟩] :=
        List.mem_append_left _ (h.known entry (registered_some hfound).1)
      have hnew : (⟨entry.handle, ⟨keyData, keyNotificationFunction⟩⟩ : Registration) ∈
          s.registrations ++ [⟨entry.handle, ⟨keyData, keyNotificationFunction⟩⟩] :=
        List.mem_append_right _ (List.mem_singleton_self _)
      refine hcorrect.distinct entry hold _ hnew ?_ rfl
      rintro hsame
      exact hkey (congrArg KeyNotify.keyData hsame)
  · trivial

/-! ## Runs -/

theorem recorded_stateAfter (calls : List Call) :
    Recorded (stateAfter Session.step Session.start calls) :=
  stateAfter_keeps (fun s call h => h.next (effect_step s call)) calls Recorded.start

theorem listed_stateAfter {calls : List Call} (h : RunExact calls) :
    Listed (stateAfter Session.step Session.start calls) := by
  induction calls using List.reverseRecOn with
  | nil => exact Listed.start
  | append_singleton calls call ih =>
      have hbefore : RunExact calls := by
        intro before call' after hsplit
        exact h before call' (after ++ [call]) (by rw [hsplit]; simp)
      have hlast := h calls call [] rfl
      rw [stateAfter_append]
      exact (ih hbefore).next hlast (effect_step _ call)

/-- Clients may rely on the registrations throughout a run exactly when every call finds
no entry that matches its key and function, or first the one for exactly that key. -/
theorem registrations_correct_iff (calls : List Call) : RunCorrect calls ↔ RunExact calls := by
  constructor
  · intro hcorrect before call after hsplit
    have hnext := hcorrect (before ++ [call]) after (by rw [hsplit]; simp)
    rw [stateAfter_append] at hnext
    exact (recorded_stateAfter before).exact_of_correct hnext
  · intro hexact before after hsplit
    have hbefore : RunExact before := by
      intro before' call after' hsplit'
      exact hexact before' call (after' ++ after) (by rw [hsplit, hsplit']; simp)
    exact (recorded_stateAfter before).correct (listed_stateAfter hbefore)

/-- `F1` without and with the left shift key, for one function. -/
def anyShift : EfiKeyData := ⟨0x0B, 0, 0, 0⟩

def leftShift : EfiKeyData := ⟨0x0B, 0, 0x80000002, 0⟩

def firstAddress : Allocation := fun live =>
  if h : 1 ∉ live then some ⟨1, by decide, h⟩ else none

/-- A key with a shift state is given the handle of the entry for any shift state. -/
theorem shiftStates_not_runCorrect :
    ¬ RunCorrect [.register (some anyShift) (some 7) true firstAddress,
      .register (some leftShift) (some 7) true firstAddress] := by
  intro hcorrect
  have hlast := hcorrect _ [] (List.append_nil _).symm
  exact hlast.distinct ⟨1, ⟨anyShift, 7⟩⟩ (by decide) ⟨1, ⟨leftShift, 7⟩⟩ (by decide)
    (by decide) rfl

end MuTegra.Keyboard.Registry
