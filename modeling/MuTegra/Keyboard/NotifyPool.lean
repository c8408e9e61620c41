/- Unit: MuTegra/Keyboard/NotifyPool
   source: NvidiaPkg/Drivers/TegraKeyboardDxe/TegraKeyboardTextIn.c
   digest: The entries of the notify list are the blocks that registrations keep in the pool. -/

import MuTegra.Foundation.ListWalks
import MuTegra.Foundation.Ownership
import MuTegra.Keyboard.Registry

/-!
An entry lies in the pool block that was allocated for it, and its handle is the number of
that block. The pool never grants a number again, so an entry that has been freed cannot be
mistaken for one made later.
-/

set_option autoImplicit false
set_option relaxedAutoImplicit false

namespace MuTegra.Keyboard.NotifyPool

open MuTegra.Foundation.ListWalks
open MuTegra.Foundation.Ownership
open MuTegra.Uefi.Status
open MuTegra.Keyboard.Queue
open MuTegra.Keyboard.Notify
open MuTegra.Keyboard.Registry

/-- `NotifyList` and the pool its entries are allocated in. -/
structure Notifications where
  list : NotifyList
  pool : Ledger

/-- `AllocateZeroPool`; block 0 would be NULL and is not granted. -/
def poolAllocation (pool : Ledger) (granted : Bool) : Allocation := fun live =>
  if h : granted = true ∧ pool.next ≠ 0 ∧ pool.next ∉ live then some ⟨pool.next, h.2⟩ else none

/-- The calls clients make; `granted` tells whether the pool has room for an entry. -/
inductive ClientCall where
  | register (keyData : Option EfiKeyData) (keyNotificationFunction : Option ℕ)
      (notifyHandle : Bool) (granted : Bool)
  | unregister (notificationHandle : Option ℕ)
  deriving DecidableEq, Repr

/-- `KeyboardRegisterKeyNotify` with the pool: a new entry takes its block. -/
def Notifications.register (n : Notifications) (keyData : Option EfiKeyData)
    (keyNotificationFunction : Option ℕ) (notifyHandle granted : Bool) :
    EfiStatus × Notifications :=
  let outcome := keyboardRegisterKeyNotify n.list keyData keyNotificationFunction notifyHandle
    (poolAllocation n.pool granted)
  (outcome.1, ⟨outcome.2.2,
    if outcome.2.2.handles = n.list.handles then n.pool else n.pool.grant⟩)

/-- `KeyboardUnregisterKeyNotify` with the pool: an entry that is taken out gives its block
back. -/
def Notifications.unregister (n : Notifications) (notificationHandle : Option ℕ) :
    EfiStatus × Notifications :=
  let outcome := keyboardUnregisterKeyNotify n.list notificationHandle
  (outcome.1, ⟨outcome.2,
    if efiError outcome.1 then n.pool else n.pool.release notificationHandle⟩)

def Notifications.call (n : Notifications) : ClientCall → EfiStatus × Notifications
  | .register keyData keyNotificationFunction notifyHandle granted =>
      n.register keyData keyNotificationFunction notifyHandle granted
  | .unregister notificationHandle => n.unregister notificationHandle

def Notifications.serve (n : Notifications) (calls : List ClientCall) : Notifications :=
  calls.foldl (fun n call => (n.call call).2) n

inductive Served (n : Notifications) (call : ClientCall) : Notifications → Prop
  | none (hcall : ∀ entry ∈ n.list.entries, call ≠ .unregister (some entry.handle)) :
      Served n call n
  | added (entry : Registration) (hhandle : entry.handle = n.pool.next)
      (hfresh : entry.handle ∉ n.list.handles) (hcall : ∀ handle, call ≠ .unregister handle) :
      Served n call ⟨n.list.insertTail entry hfresh, n.pool.grant⟩
  | removed (entry : Registration) (hentry : entry ∈ n.list.entries)
      (hcall : call = .unregister (some entry.handle)) :
      Served n call ⟨n.list.remove entry.handle, n.pool.release (some entry.handle)⟩

variable {n : Notifications}

theorem poolAllocation_some {pool : Ledger} {granted : Bool} {live : List ℕ}
    {address : { address : ℕ // address ≠ 0 ∧ address ∉ live }}
    (h : poolAllocation pool granted live = some address) : address.1 = pool.next := by
  unfold poolAllocation at h
  split at h
  · exact congrArg Subtype.val (Option.some.inj h).symm
  · cases h

theorem register_list (list : NotifyList) (keyData : Option EfiKeyData)
    (keyNotificationFunction : Option ℕ) (notifyHandle : Bool) (allocation : Allocation) :
    (keyboardRegisterKeyNotify list keyData keyNotificationFunction notifyHandle
        allocation).2.2 = list ∨
      ∃ address notify, allocation list.handles = some address ∧
        (keyboardRegisterKeyNotify list keyData keyNotificationFunction notifyHandle
          allocation).2.2 = list.insertTail ⟨address.1, notify⟩ address.2.2 := by
  unfold keyboardRegisterKeyNotify
  split
  · next keyData keyNotificationFunction =>
      dsimp only
      split
      · exact Or.inl rfl
      · split
        · exact Or.inl rfl
        · next address hallocation =>
            exact Or.inr ⟨address, ⟨keyData, keyNotificationFunction⟩, hallocation, rfl⟩
  · exact Or.inl rfl

theorem served_register (keyData : Option EfiKeyData) (keyNotificationFunction : Option ℕ)
    (notifyHandle granted : Bool) :
    Served n (.register keyData keyNotificationFunction notifyHandle granted)
      (n.register keyData keyNotificationFunction notifyHandle granted).2 := by
  rw [Notifications.register]
  dsimp only
  rcases register_list n.list keyData keyNotificationFunction notifyHandle
      (poolAllocation n.pool granted) with hlist | ⟨address, notify, hallocation, hlist⟩
  · rw [hlist, if_pos rfl]
    exact .none nofun
  · have hne : (n.list.insertTail ⟨address.1, notify⟩ address.2.2).handles ≠
        n.list.handles := by
      simp [NotifyList.insertTail, NotifyList.handles]
    rw [hlist, if_neg hne]
    exact .added _ (poolAllocation_some hallocation) _ nofun

theorem served_unregister (notificationHandle : Option ℕ) :
    Served n (.unregister notificationHandle) (n.unregister notificationHandle).2 := by
  rw [Notifications.unregister]
  by_cases hknown : ∃ entry ∈ n.list.entries, notificationHandle = some entry.handle
  · obtain ⟨entry, hentry, rfl⟩ := hknown
    rw [unregister_known hentry]
    simpa using Served.removed entry hentry rfl
  · push Not at hknown
    rw [unregister_unknown hknown]
    have hcall : ∀ entry ∈ n.list.entries,
        ClientCall.unregister notificationHandle ≠ .unregister (some entry.handle) :=
      fun entry hentry heq => hknown entry hentry (ClientCall.unregister.inj heq)
    simpa [efiInvalidParameter] using Served.none hcall

theorem served_call (n : Notifications) (call : ClientCall) :
    Served n call (n.call call).2 := by
  cases call with
  | register keyData keyNotificationFunction notifyHandle granted =>
      exact served_register keyData keyNotificationFunction notifyHandle granted
  | unregister notificationHandle => exact served_unregister notificationHandle

theorem handles_insertTail (list : NotifyList) {entry : Registration}
    (hfresh : entry.handle ∉ list.handles) :
    (list.insertTail entry hfresh).handles = list.handles ++ [entry.handle] := by
  simp [NotifyList.insertTail, NotifyList.handles]

theorem handles_remove {list : NotifyList} {entry : Registration}
    (hentry : entry ∈ list.entries) :
    (list.remove entry.handle).handles = list.handles.erase entry.handle := by
  obtain ⟨before, after, hsplit, hremoved⟩ := remove_entries hentry
  have hhandles : list.handles =
      before.map Registration.handle ++ entry.handle :: after.map Registration.handle := by
    simp [NotifyList.handles, hsplit]
  have hnodup : (before.map Registration.handle ++
      entry.handle :: after.map Registration.handle).Nodup := hhandles ▸ list.nodup
  have hbefore : entry.handle ∉ before.map Registration.handle := fun hmem =>
    (List.nodup_append.mp hnodup).2.2 _ hmem _ List.mem_cons_self rfl
  rw [hhandles, List.erase_append_right _ hbefore, List.erase_cons_head]
  simp [NotifyList.handles, hremoved]

def blocks (list : NotifyList) : Multiset ℕ := (list.handles : Multiset ℕ)

theorem blocks_insertTail (list : NotifyList) {entry : Registration}
    (hfresh : entry.handle ∉ list.handles) :
    blocks (list.insertTail entry hfresh) = {entry.handle} + blocks list := by
  rw [blocks, handles_insertTail, ← Multiset.coe_add, add_comm]
  rfl

theorem blocks_remove {list : NotifyList} {entry : Registration} (hentry : entry ∈ list.entries) :
    blocks list = {entry.handle} + blocks (list.remove entry.handle) := by
  have hmem : entry.handle ∈ blocks list := List.mem_map_of_mem hentry
  rw [blocks, blocks, handles_remove hentry, ← Multiset.coe_erase, Multiset.singleton_add]
  exact (Multiset.cons_erase hmem).symm

variable {base : Ledger} {rest : Multiset ℕ} {n' : Notifications} {call : ClientCall}

theorem Served.owns (h : Served n call n') (howns : Owns base (blocks n.list + rest) n.pool) :
    Owns base (blocks n'.list + rest) n'.pool := by
  cases h with
  | none => exact howns
  | added entry hhandle hfresh hcall =>
      rw [blocks_insertTail, hhandle, add_assoc]
      exact howns.grant
  | removed entry hentry hcall =>
      rw [blocks_remove hentry, add_assoc] at howns
      exact howns.release

/-- Whatever clients call, the entries of the list are what the calls leave in the pool. -/
theorem serve_owns (calls : List ClientCall) (howns : Owns base (blocks n.list + rest) n.pool) :
    Owns base (blocks (n.serve calls).list + rest) (n.serve calls).pool := by
  induction calls generalizing n with
  | nil => exact howns
  | cons call calls ih => exact ih ((served_call n call).owns howns)

theorem Served.mem_handles (h : Served n call n') {handle : ℕ}
    (hcall : call ≠ .unregister (some handle)) (hmem : handle ∈ n.list.handles) :
    handle ∈ n'.list.handles := by
  cases h with
  | none => exact hmem
  | added entry hhandle hfresh =>
      rw [handles_insertTail]
      exact List.mem_append_left _ hmem
  | removed entry hentry hremoved =>
      rw [handles_remove hentry]
      refine (List.mem_erase_of_ne ?_).mpr hmem
      rintro rfl
      exact hcall hremoved

theorem Served.behind (h : Served n call n') {a b : ℕ} (ha : call ≠ .unregister (some a))
    (hb : call ≠ .unregister (some b)) (hbehind : Behind n.list.handles a b) :
    Behind n'.list.handles a b := by
  cases h with
  | none => exact hbehind
  | added entry hhandle hfresh =>
      rw [handles_insertTail]
      exact hbehind.append _
  | removed entry hentry hremoved =>
      rw [handles_remove hentry]
      refine hbehind.erase ?_ ?_
      · rintro rfl
        exact ha hremoved
      · rintro rfl
        exact hb hremoved

/-- A block that has been granted once and is not in use any more. -/
def Retired (pool : Ledger) (id : ℕ) : Prop := id ∉ pool.live ∧ id < pool.next

theorem Served.retired (h : Served n call n') {id : ℕ} (hretired : Retired n.pool id) :
    Retired n'.pool id := by
  obtain ⟨hdead, hlt⟩ := hretired
  cases h with
  | none => exact ⟨hdead, hlt⟩
  | added entry =>
      refine ⟨fun hmem => ?_, Nat.lt_succ_of_lt hlt⟩
      rcases Multiset.mem_cons.mp hmem with rfl | hmem
      · exact lt_irrefl _ hlt
      · exact hdead hmem
  | removed entry =>
      refine ⟨fun hmem => hdead (Multiset.mem_of_le (release_live_le _ _) hmem), ?_⟩
      change id < (n.pool.release (some entry.handle)).next
      rwa [release_next]

theorem retired_unregister (hlive : blocks n.list ≤ n.pool.live) {handle : ℕ}
    (hmem : handle ∈ n.list.handles) :
    Retired (n.call (.unregister (some handle))).2.pool handle := by
  obtain ⟨entry, hentry, rfl⟩ := List.mem_map.mp hmem
  have hpool : (n.call (.unregister (some entry.handle))).2.pool =
      n.pool.release (some entry.handle) := by
    simp [Notifications.call, Notifications.unregister, unregister_known hentry]
  have hgranted : entry.handle ∈ n.pool.live := Multiset.mem_of_le hlive hmem
  rw [hpool]
  refine ⟨not_mem_release _ _, ?_⟩
  rw [Ledger.release, if_pos hgranted]
  exact n.pool.bounded _ hgranted

end MuTegra.Keyboard.NotifyPool
