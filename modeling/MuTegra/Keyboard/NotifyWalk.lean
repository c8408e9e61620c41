/- Unit: MuTegra/Keyboard/NotifyWalk
   source: NvidiaPkg/Drivers/TegraKeyboardDxe/TegraKeyboardTextIn.c
   digest: The notify handler's walk over a list that its callbacks change. -/

import MuTegra.Foundation.ListWalks
import MuTegra.Keyboard.NotifyPool

/-!
The handler keeps a link to the entry whose callback it runs and reads the next link from
that entry when the callback has returned. A callback is any function of what has happened
so far; it may register and unregister notifications, and keystrokes may be queued meanwhile.
The keystroke passed to it is an input only.
-/

set_option autoImplicit false
set_option relaxedAutoImplicit false

namespace MuTegra.Keyboard.NotifyWalk

open MuTegra.Foundation.ListWalks
open MuTegra.Foundation.Ownership
open MuTegra.Uefi.Status
open MuTegra.Keyboard.Queue
open MuTegra.Keyboard.Notify
open MuTegra.Keyboard.Registry
open MuTegra.Keyboard.NotifyPool

inductive Action where
  | call (call : ClientCall)
  | queue (keyData : EfiKeyData)
  deriving DecidableEq, Repr

structure Visit where
  handle : ℕ
  keyNotificationFn : ℕ
  keyData : EfiKeyData
  deriving DecidableEq, Repr

def visitOf (entry : Registration) (keyData : EfiKeyData) : Visit :=
  ⟨entry.handle, entry.notify.keyNotificationFn, keyData⟩

inductive Place where
  /-- Before `PopEfikeyBufHead`. -/
  | pop
  /-- At the test of the inner loop; `Link` is an entry or, as `none`, the list head. -/
  | walk (keyData : EfiKeyData) (link : Option ℕ)
  | returned
  /-- Behind a link that was read from a freed entry. -/
  | lost
  deriving DecidableEq, Repr

/-- The handler with the part of the device it uses, the keystrokes it has taken from the
queue and the callbacks it has run. -/
structure Handler extends Notifications where
  efiKeyQueueForNotify : EfiKeyQueue
  place : Place
  popped : List EfiKeyData
  visits : List Visit

def Handler.act (h : Handler) : Action → Handler
  | .call call => { h with toNotifications := (h.call call).2 }
  | .queue keyData =>
      { h with efiKeyQueueForNotify := pushEfikeyBufTail h.efiKeyQueueForNotify keyData }

def Handler.perform (h : Handler) (actions : List Action) : Handler :=
  actions.foldl Handler.act h

def Handler.entryAt (h : Handler) (link : ℕ) : Option Registration :=
  h.list.entries.find? fun entry => entry.handle == link

def Handler.visit (behaviour : Handler → List Action) (h : Handler)
    (currentNotify : Registration) (keyData : EfiKeyData) : Handler :=
  if isKeyRegistered currentNotify.notify.keyData keyData then
    let h := { h with visits := h.visits ++ [visitOf currentNotify keyData] }
    h.perform (behaviour h)
  else h

/-- One step of `KeyNotifyProcessHandler`: taking a keystroke, or a pass of the inner loop
together with `GetNextNode`. -/
def Handler.step (behaviour : Handler → List Action) (h : Handler) : Handler :=
  match h.place with
  | .pop =>
      match popEfikeyBufHead h.efiKeyQueueForNotify with
      | (_, none, _) => { h with place := .returned }
      | (_, some keyData, queue) =>
          { h with
            efiKeyQueueForNotify := queue
            popped := h.popped ++ [keyData]
            place := .walk keyData h.list.handles.head? }
  | .walk _ none => { h with place := .pop }
  | .walk keyData (some link) =>
      match h.entryAt link with
      | none => { h with place := .lost }
      | some currentNotify =>
          let h := h.visit behaviour currentNotify keyData
          if link ∈ h.pool.live then
            { h with place := .walk keyData (follower h.list.handles link) }
          else { h with place := .lost }
  | .returned => h
  | .lost => h

def Handler.start (pool : Ledger) (calls : List ClientCall) (queue : EfiKeyQueue) : Handler where
  toNotifications := Notifications.serve ⟨.empty, pool⟩ calls
  efiKeyQueueForNotify := queue
  place := .pop
  popped := []
  visits := []

def Handler.after (behaviour : Handler → List Action) (h : Handler) (n : ℕ) : Handler :=
  (Handler.step behaviour)^[n] h

def dueVisits (entry : Registration) (keys : List EfiKeyData) : List Visit :=
  (keys.filter fun keyData => isKeyRegistered entry.notify.keyData keyData).map (visitOf entry)

def Handler.visitsOf (h : Handler) (entry : Registration) : List Visit :=
  h.visits.filter fun visit => visit.handle == entry.handle

def Place.isBetween : Place → Bool
  | .pop => true
  | .returned => true
  | .walk _ link => link.isNone
  | .lost => false

/-- After so many steps no link has been read from a freed entry, and an entry that was there
all along has been visited once for each keystroke it matches, between two walks. -/
structure SoundAt (behaviour : Handler → List Action) (h : Handler) (n : ℕ) : Prop where
  safe : (h.after behaviour n).place ≠ .lost
  visited : ∀ entry, (∀ k ≤ n, entry ∈ (h.after behaviour k).list.entries) →
    (h.after behaviour n).place.isBetween = true →
      (h.after behaviour n).visitsOf entry = dueVisits entry (h.after behaviour n).popped

/-- The callback about to be run does not unregister the entry it belongs to. -/
def Handler.KeepsOwn (behaviour : Handler → List Action) (h : Handler) : Prop :=
  ∀ keyData link currentNotify, h.place = .walk keyData (some link) →
    h.entryAt link = some currentNotify →
      isKeyRegistered currentNotify.notify.keyData keyData = true →
        .call (.unregister (some link)) ∉
          behaviour { h with visits := h.visits ++ [visitOf currentNotify keyData] }

/-! ## While a callback runs -/

variable {pool : Ledger} {h : Handler} {actions : List Action} {handle : ℕ}

/-- The entries of the list are what is in the pool on top of what was there. -/
def Handler.Lists (h : Handler) (pool : Ledger) : Prop := Owns pool (blocks h.list + 0) h.pool

theorem Handler.Lists.live (hlists : h.Lists pool) : blocks h.list ≤ h.pool.live := by
  have hlive := Owns.live hlists
  rw [hlive, add_zero]
  exact Multiset.le_add_right _ _

theorem Handler.Lists.act (hlists : h.Lists pool) (action : Action) :
    (h.act action).Lists pool := by
  cases action with
  | call call => exact (served_call h.toNotifications call).owns hlists
  | queue keyData => exact hlists

theorem Handler.Lists.perform (hlists : h.Lists pool) : (h.perform actions).Lists pool := by
  induction actions generalizing h with
  | nil => exact hlists
  | cons action actions ih => exact ih (hlists.act action)

@[simp] theorem perform_place : (h.perform actions).place = h.place := by
  induction actions generalizing h with
  | nil => rfl
  | cons action actions ih => exact ih.trans (by cases action <;> rfl)

@[simp] theorem perform_popped : (h.perform actions).popped = h.popped := by
  induction actions generalizing h with
  | nil => rfl
  | cons action actions ih => exact ih.trans (by cases action <;> rfl)

@[simp] theorem perform_visits : (h.perform actions).visits = h.visits := by
  induction actions generalizing h with
  | nil => rfl
  | cons action actions ih => exact ih.trans (by cases action <;> rfl)

theorem act_mem {action : Action} (haction : action ≠ .call (.unregister (some handle)))
    (hmem : handle ∈ h.list.handles) : handle ∈ (h.act action).list.handles := by
  cases action with
  | call call =>
      refine (served_call h.toNotifications call).mem_handles ?_ hmem
      rintro rfl
      exact haction rfl
  | queue keyData => exact hmem

theorem perform_mem (hkept : .call (.unregister (some handle)) ∉ actions)
    (hmem : handle ∈ h.list.handles) : handle ∈ (h.perform actions).list.handles := by
  induction actions generalizing h with
  | nil => exact hmem
  | cons action actions ih =>
      rw [List.mem_cons, not_or] at hkept
      exact ih hkept.2 (act_mem (Ne.symm hkept.1) hmem)

theorem perform_behind {a b : ℕ} (ha : .call (.unregister (some a)) ∉ actions)
    (hb : .call (.unregister (some b)) ∉ actions) (hbehind : Behind h.list.handles a b) :
    Behind (h.perform actions).list.handles a b := by
  induction actions generalizing h with
  | nil => exact hbehind
  | cons action actions ih =>
      rw [List.mem_cons, not_or] at ha hb
      apply ih ha.2 hb.2
      cases action with
      | call call =>
          refine (served_call h.toNotifications call).behind ?_ ?_ hbehind
          · rintro rfl
            exact ha.1 rfl
          · rintro rfl
            exact hb.1 rfl
      | queue keyData => exact hbehind

theorem act_retired {action : Action} (hretired : Retired h.pool handle) :
    Retired (h.act action).pool handle := by
  cases action with
  | call call => exact (served_call h.toNotifications call).retired hretired
  | queue keyData => exact hretired

theorem perform_retired (hretired : Retired h.pool handle) :
    Retired (h.perform actions).pool handle := by
  induction actions generalizing h with
  | nil => exact hretired
  | cons action actions ih => exact ih (act_retired hretired)

theorem perform_freed (hlists : h.Lists pool) (hmem : handle ∈ h.list.handles)
    (hfreed : .call (.unregister (some handle)) ∈ actions) :
    handle ∉ (h.perform actions).pool.live := by
  induction actions generalizing h with
  | nil => cases hfreed
  | cons action actions ih =>
      by_cases haction : action = .call (.unregister (some handle))
      · subst haction
        have hretired : Retired (h.act (.call (.unregister (some handle)))).pool handle :=
          retired_unregister hlists.live hmem
        exact (perform_retired hretired).1
      · have hrest := (List.mem_cons.mp hfreed).resolve_left (Ne.symm haction)
        exact ih (hlists.act action) (act_mem haction hmem) hrest

/-- The entry's block is live when the callback returns exactly when it has not been
unregistered. -/
theorem perform_live_iff (hlists : h.Lists pool) (hmem : handle ∈ h.list.handles) :
    handle ∈ (h.perform actions).pool.live ↔
      .call (.unregister (some handle)) ∉ actions := by
  constructor
  · exact fun hlive hfreed => perform_freed hlists hmem hfreed hlive
  · intro hkept
    exact Multiset.mem_of_le hlists.perform.live (perform_mem hkept hmem)

theorem not_unregistered (hlists : h.Lists pool) (hmem : handle ∈ h.list.handles)
    (hstays : handle ∈ (h.perform actions).list.handles) :
    .call (.unregister (some handle)) ∉ actions :=
  (perform_live_iff hlists hmem).mp (Multiset.mem_of_le hlists.perform.live hstays)

/-! ## One step -/

variable {behaviour : Handler → List Action} {link : ℕ} {keyData : EfiKeyData}
    {entry currentNotify : Registration}

def Handler.reaction (behaviour : Handler → List Action) (h : Handler)
    (currentNotify : Registration) (keyData : EfiKeyData) : List Action :=
  if isKeyRegistered currentNotify.notify.keyData keyData then
    behaviour { h with visits := h.visits ++ [visitOf currentNotify keyData] }
  else []

def Handler.noted (h : Handler) (currentNotify : Registration) (keyData : EfiKeyData) : Handler :=
  { h with
    visits := h.visits ++
      if isKeyRegistered currentNotify.notify.keyData keyData then [visitOf currentNotify keyData]
      else [] }

theorem visit_eq : h.visit behaviour currentNotify keyData =
    (h.noted currentNotify keyData).perform (h.reaction behaviour currentNotify keyData) := by
  rw [Handler.visit, Handler.noted, Handler.reaction]
  split
  · rfl
  · rw [List.append_nil]
    rfl

theorem entryAt_of_mem (hentry : entry ∈ h.list.entries) : h.entryAt entry.handle = some entry := by
  rw [Handler.entryAt]
  cases hfound : h.list.entries.find? fun other => other.handle == entry.handle with
  | none =>
      have := List.find?_eq_none.mp hfound entry hentry
      simp at this
  | some other =>
      have hhandle := List.find?_some hfound
      exact congrArg some (eq_of_handle_eq (List.mem_of_find?_eq_some hfound) hentry
        (beq_iff_eq.mp hhandle))

/-- The handler's link, when it is in the list, is an entry of it. -/
structure Walking (pool : Ledger) (h : Handler) : Prop where
  lists : h.Lists pool
  linked : ∀ keyData link, h.place = .walk keyData (some link) → link ∈ h.list.handles

/-- A pass of the inner loop goes on to the entry behind unless the callback has unregistered
its own. -/
theorem step_visit (hwalking : Walking pool h) (hentry : currentNotify ∈ h.list.entries)
    (hplace : h.place = .walk keyData (some currentNotify.handle)) :
    h.step behaviour = { h.visit behaviour currentNotify keyData with
      place :=
        if .call (.unregister (some currentNotify.handle)) ∈
            h.reaction behaviour currentNotify keyData then .lost
        else .walk keyData (follower (h.visit behaviour currentNotify keyData).list.handles
          currentNotify.handle) } := by
  have hlists : (h.noted currentNotify keyData).Lists pool := hwalking.lists
  have hmem : currentNotify.handle ∈ (h.noted currentNotify keyData).list.handles :=
    List.mem_map_of_mem hentry
  have hlive := @perform_live_iff pool _ (h.reaction behaviour currentNotify keyData) _ hlists hmem
  rw [← visit_eq] at hlive
  rw [Handler.step, hplace]
  dsimp only
  rw [entryAt_of_mem hentry]
  dsimp only
  by_cases hfreed : .call (.unregister (some currentNotify.handle)) ∈
      h.reaction behaviour currentNotify keyData
  · rw [if_pos hfreed, if_neg (fun h => hlive.mp h hfreed)]
  · rw [if_neg hfreed, if_pos (hlive.mpr hfreed)]

theorem keepsOwn_iff (hentry : currentNotify ∈ h.list.entries)
    (hplace : h.place = .walk keyData (some currentNotify.handle)) :
    h.KeepsOwn behaviour ↔ .call (.unregister (some currentNotify.handle)) ∉
      h.reaction behaviour currentNotify keyData := by
  rw [Handler.KeepsOwn, Handler.reaction, hplace]
  constructor
  · intro hkeeps
    split
    · next hmatch => exact hkeeps _ _ _ rfl (entryAt_of_mem hentry) hmatch
    · exact List.not_mem_nil
  · intro hkept keyData' link' other heq hother hmatch
    cases heq
    rw [entryAt_of_mem hentry] at hother
    obtain rfl := Option.some.inj hother
    rwa [if_pos hmatch] at hkept

/-- What a step can do while no callback unregisters its own entry. -/
inductive Stepped (behaviour : Handler → List Action) (h : Handler) : Handler → Prop
  | returns (hplace : h.place = .pop) : Stepped behaviour h { h with place := .returned }
  | takes (keyData : EfiKeyData) (queue : EfiKeyQueue) (hplace : h.place = .pop) :
      Stepped behaviour h { h with
        efiKeyQueueForNotify := queue
        popped := h.popped ++ [keyData]
        place := .walk keyData h.list.handles.head? }
  | ends (keyData : EfiKeyData) (hplace : h.place = .walk keyData none) :
      Stepped behaviour h { h with place := .pop }
  | visits (keyData : EfiKeyData) (currentNotify : Registration)
      (hentry : currentNotify ∈ h.list.entries)
      (hplace : h.place = .walk keyData (some currentNotify.handle))
      (hkept : .call (.unregister (some currentNotify.handle)) ∉
        h.reaction behaviour currentNotify keyData) :
      Stepped behaviour h { h.visit behaviour currentNotify keyData with
        place := .walk keyData (follower (h.visit behaviour currentNotify keyData).list.handles
          currentNotify.handle) }
  | stays (hplace : h.place = .returned) : Stepped behaviour h h

theorem stepped (hwalking : Walking pool h) (hkeeps : h.KeepsOwn behaviour)
    (hsafe : h.place ≠ .lost) : Stepped behaviour h (h.step behaviour) := by
  cases hplace : h.place with
  | pop =>
      rw [Handler.step, hplace]
      rcases popEfikeyBufHead_cases h.efiKeyQueueForNotify with
        ⟨-, hpop⟩ | ⟨keyData, queue, hpop, -⟩
      · rw [hpop]
        exact .returns hplace
      · rw [hpop]
        exact .takes keyData queue hplace
  | walk keyData link =>
      cases link with
      | none =>
          rw [Handler.step, hplace]
          exact .ends keyData hplace
      | some link =>
          obtain ⟨currentNotify, hentry, rfl⟩ :=
            List.mem_map.mp (hwalking.linked keyData link hplace)
          have hkept := (keepsOwn_iff hentry hplace).mp hkeeps
          rw [step_visit hwalking hentry hplace, if_neg hkept]
          exact .visits keyData currentNotify hentry hplace hkept
  | returned =>
      rw [Handler.step, hplace]
      exact .stays hplace
  | lost => exact absurd hplace hsafe

theorem step_lost (hwalking : Walking pool h) (hkeeps : ¬ h.KeepsOwn behaviour) :
    (h.step behaviour).place = .lost := by
  have hplaced : ∃ keyData link, h.place = .walk keyData (some link) := by
    unfold Handler.KeepsOwn at hkeeps
    push Not at hkeeps
    obtain ⟨keyData, link, -, hplace, -⟩ := hkeeps
    exact ⟨keyData, link, hplace⟩
  obtain ⟨keyData, link, hplace⟩ := hplaced
  obtain ⟨currentNotify, hentry, rfl⟩ := List.mem_map.mp (hwalking.linked keyData link hplace)
  have hfreed := not_not.mp (fun hkept => hkeeps ((keepsOwn_iff hentry hplace).mpr hkept))
  rw [step_visit hwalking hentry hplace, if_pos hfreed]

theorem visit_lists (hlists : h.Lists pool) :
    (h.visit behaviour currentNotify keyData).Lists pool := by
  have hnoted : (h.noted currentNotify keyData).Lists pool := hlists
  rw [visit_eq]
  exact hnoted.perform

theorem visit_mem {handle : ℕ} (hmem : handle ∈ h.list.handles)
    (hkept : .call (.unregister (some handle)) ∉ h.reaction behaviour currentNotify keyData) :
    handle ∈ (h.visit behaviour currentNotify keyData).list.handles := by
  rw [visit_eq]
  exact perform_mem hkept hmem

theorem Stepped.walking {h' : Handler} (hstep : Stepped behaviour h h')
    (hwalking : Walking pool h) : Walking pool h' := by
  have hlists := hwalking.lists
  cases hstep with
  | returns hplace => exact ⟨hlists, nofun⟩
  | takes keyData queue hplace =>
      refine ⟨hlists, fun keyData' link hlink => ?_⟩
      simp only [Place.walk.injEq] at hlink
      exact List.mem_of_head? hlink.2
  | ends keyData hplace => exact ⟨hlists, nofun⟩
  | visits keyData currentNotify hentry hplace hkept =>
      have hmem := visit_mem (List.mem_map_of_mem hentry) hkept
      refine ⟨visit_lists hlists, fun keyData' link hlink => ?_⟩
      simp only [Place.walk.injEq] at hlink
      obtain ⟨before, after, hsplit, hbehind⟩ :=
        behind_follower (NotifyList.nodup _) hmem hlink.2
      have hsplit' : (h.visit behaviour currentNotify keyData).list.handles =
          before ++ currentNotify.handle :: after := hsplit
      rw [hsplit']
      exact List.mem_append_right _ (List.mem_cons_of_mem _ hbehind)
  | stays hplace => exact hwalking

theorem Stepped.safe {h' : Handler} (hstep : Stepped behaviour h h') : h'.place ≠ .lost := by
  cases hstep with
  | returns hplace => exact nofun
  | takes keyData queue hplace => exact nofun
  | ends keyData hplace => exact nofun
  | visits keyData currentNotify hentry hplace hkept => exact nofun
  | stays hplace =>
      rw [hplace]
      exact nofun

/-! ## An entry that stays -/

/-- The callbacks of an entry have been run for the keystrokes taken, with the last of them
only once the walk has passed the entry. -/
def Tracks (entry : Registration) (h : Handler) : Prop :=
  match h.place with
  | .walk keyData (some link) => ∃ earlier, h.popped = earlier ++ [keyData] ∧
      ((entry.handle = link ∨ Behind h.list.handles link entry.handle) ∧
          h.visitsOf entry = dueVisits entry earlier ∨
        Behind h.list.handles entry.handle link ∧ h.visitsOf entry = dueVisits entry h.popped)
  | _ => h.visitsOf entry = dueVisits entry h.popped

theorem dueVisits_append (keys : List EfiKeyData) (keyData : EfiKeyData) :
    dueVisits entry (keys ++ [keyData]) = dueVisits entry keys ++
      if isKeyRegistered entry.notify.keyData keyData then [visitOf entry keyData] else [] := by
  unfold dueVisits
  rw [List.filter_append, List.map_append]
  by_cases hmatch : isKeyRegistered entry.notify.keyData keyData = true
  · simp [hmatch]
  · simp [hmatch]

theorem visit_visitsOf_other (hne : entry.handle ≠ currentNotify.handle) :
    (h.visit behaviour currentNotify keyData).visitsOf entry = h.visitsOf entry := by
  rw [visit_eq, Handler.visitsOf, perform_visits, Handler.noted, List.filter_append]
  split
  · rw [List.filter_cons_of_neg (by simpa [visitOf] using hne.symm), List.filter_nil,
      List.append_nil]
    rfl
  · rw [List.filter_nil, List.append_nil]
    rfl

theorem visit_visitsOf_self :
    (h.visit behaviour entry keyData).visitsOf entry = h.visitsOf entry ++
      if isKeyRegistered entry.notify.keyData keyData then [visitOf entry keyData] else [] := by
  rw [visit_eq, Handler.visitsOf, perform_visits, Handler.noted, List.filter_append]
  split
  · rw [List.filter_cons_of_pos (by simp [visitOf]), List.filter_nil]
    rfl
  · rfl

theorem visit_popped : (h.visit behaviour currentNotify keyData).popped = h.popped := by
  rw [visit_eq, perform_popped]
  rfl

theorem visit_not_unregistered {handle : ℕ} (hlists : h.Lists pool)
    (hmem : handle ∈ h.list.handles)
    (hstays : handle ∈ (h.visit behaviour currentNotify keyData).list.handles) :
    .call (.unregister (some handle)) ∉ h.reaction behaviour currentNotify keyData := by
  have hnoted : (h.noted currentNotify keyData).Lists pool := hlists
  rw [visit_eq] at hstays
  exact not_unregistered hnoted hmem hstays

theorem visit_behind {a b : ℕ}
    (ha : .call (.unregister (some a)) ∉ h.reaction behaviour currentNotify keyData)
    (hb : .call (.unregister (some b)) ∉ h.reaction behaviour currentNotify keyData)
    (hbehind : Behind h.list.handles a b) :
    Behind (h.visit behaviour currentNotify keyData).list.handles a b := by
  rw [visit_eq]
  exact perform_behind ha hb hbehind

/-- Once the pass over an entry is over, the entries up to it have had their callbacks and the
ones behind it have not. -/
theorem visit_tracks (hlists : h.Lists pool) (hcurrent : currentNotify ∈ h.list.entries)
    (hplace : h.place = .walk keyData (some currentNotify.handle))
    (hkept : .call (.unregister (some currentNotify.handle)) ∉
      h.reaction behaviour currentNotify keyData)
    (hentry : entry ∈ h.list.entries)
    (hstays : entry ∈ (h.visit behaviour currentNotify keyData).list.entries)
    (htracks : Tracks entry h) :
    let h' := h.visit behaviour currentNotify keyData
    ∃ earlier, h'.popped = earlier ++ [keyData] ∧
      ((entry.handle = currentNotify.handle ∨
            Behind h'.list.handles entry.handle currentNotify.handle) ∧
          h'.visitsOf entry = dueVisits entry h'.popped ∨
        Behind h'.list.handles currentNotify.handle entry.handle ∧
          h'.visitsOf entry = dueVisits entry earlier) := by
  intro h'
  have hpopped' : h'.popped = h.popped := visit_popped
  have hentryKept := visit_not_unregistered hlists (List.mem_map_of_mem hentry)
    (List.mem_map_of_mem hstays)
  unfold Tracks at htracks
  rw [hplace] at htracks
  obtain ⟨earlier, hpopped, hside⟩ := htracks
  refine ⟨earlier, hpopped'.trans hpopped, ?_⟩
  rw [hpopped']
  rcases hside with ⟨hself | hbehind, hvisits⟩ | ⟨hbehind, hvisits⟩
  · obtain rfl := eq_of_handle_eq hentry hcurrent hself
    refine Or.inl ⟨Or.inl rfl, ?_⟩
    rw [hpopped, dueVisits_append, ← hvisits]
    exact visit_visitsOf_self
  · have hne : entry.handle ≠ currentNotify.handle := by
      intro heq
      rw [heq] at hbehind
      exact not_behind_self (NotifyList.nodup _) hbehind
    refine Or.inr ⟨visit_behind hkept hentryKept hbehind, ?_⟩
    exact (visit_visitsOf_other hne).trans hvisits
  · have hne : entry.handle ≠ currentNotify.handle := by
      intro heq
      rw [heq] at hbehind
      exact not_behind_self (NotifyList.nodup _) hbehind
    refine Or.inl ⟨Or.inr (visit_behind hentryKept hkept hbehind), ?_⟩
    exact (visit_visitsOf_other hne).trans hvisits

theorem Stepped.tracks {h' : Handler} (hstep : Stepped behaviour h h')
    (hwalking : Walking pool h) (hentry : entry ∈ h.list.entries)
    (hstays : entry ∈ h'.list.entries) (htracks : Tracks entry h) : Tracks entry h' := by
  cases hstep with
  | returns hplace =>
      unfold Tracks at htracks
      rw [hplace] at htracks
      exact htracks
  | takes keyData queue hplace =>
      unfold Tracks at htracks ⊢
      rw [hplace] at htracks
      have hmem : entry.handle ∈ h.list.handles := List.mem_map_of_mem hentry
      cases hhead : h.list.handles.head? with
      | none =>
          rw [List.head?_eq_none_iff.mp hhead] at hmem
          cases hmem
      | some first => exact ⟨h.popped, rfl, Or.inl ⟨behind_head hhead hmem, htracks⟩⟩
  | ends keyData hplace =>
      unfold Tracks at htracks
      rw [hplace] at htracks
      exact htracks
  | visits keyData currentNotify hcurrent hplace hkept =>
      have hmem := visit_mem (List.mem_map_of_mem hcurrent) hkept
      obtain ⟨earlier, hpopped, hside⟩ :=
        visit_tracks hwalking.lists hcurrent hplace hkept hentry hstays htracks
      rw [Tracks]
      cases hfollower : follower (h.visit behaviour currentNotify keyData).list.handles
          currentNotify.handle with
      | none =>
          rcases hside with ⟨-, hvisits⟩ | ⟨hbehind, -⟩
          · exact hvisits
          · exact absurd hbehind (follower_none (NotifyList.nodup _) hmem hfollower)
      | some next =>
          refine ⟨earlier, hpopped, ?_⟩
          rcases hside with ⟨hself | hbehind, hvisits⟩ | ⟨hbehind, hvisits⟩
          · refine Or.inr ⟨?_, hvisits⟩
            rw [hself]
            exact behind_follower (NotifyList.nodup _) hmem hfollower
          · exact Or.inr ⟨hbehind.then_follower (NotifyList.nodup _) hfollower, hvisits⟩
          · exact Or.inl ⟨hbehind.follower (NotifyList.nodup _) hfollower, hvisits⟩
  | stays hplace => exact htracks

/-! ## Whole runs -/

variable {calls : List ClientCall} {queue : EfiKeyQueue}

theorem walking_start : Walking pool (.start pool calls queue) := by
  refine ⟨?_, nofun⟩
  have hempty : Owns pool (blocks NotifyList.empty + 0) pool := Owns.refl pool
  exact serve_owns calls hempty

theorem after_succ (h : Handler) (n : ℕ) :
    h.after behaviour (n + 1) = (h.after behaviour n).step behaviour :=
  Function.iterate_succ_apply' _ _ _

theorem run_walking {h : Handler} (hwalking : Walking pool h) (hsafe : h.place ≠ .lost) {n : ℕ}
    (hkeeps : ∀ k < n, (h.after behaviour k).KeepsOwn behaviour) :
    Walking pool (h.after behaviour n) ∧ (h.after behaviour n).place ≠ .lost := by
  induction n with
  | zero => exact ⟨hwalking, hsafe⟩
  | succ n ih =>
      obtain ⟨hbefore, hsafe⟩ := ih fun k hk => hkeeps k (Nat.lt_succ_of_lt hk)
      have hstep := stepped hbefore (hkeeps n (Nat.lt_succ_self n)) hsafe
      rw [after_succ]
      exact ⟨hstep.walking hbefore, hstep.safe⟩

theorem run_tracks {h : Handler} (hwalking : Walking pool h) (hsafe : h.place ≠ .lost) {n : ℕ}
    (hkeeps : ∀ k < n, (h.after behaviour k).KeepsOwn behaviour)
    (hstays : ∀ k ≤ n, entry ∈ (h.after behaviour k).list.entries) (htracks : Tracks entry h) :
    Tracks entry (h.after behaviour n) := by
  induction n with
  | zero => exact htracks
  | succ n ih =>
      have hbefore : ∀ k < n, (h.after behaviour k).KeepsOwn behaviour :=
        fun k hk => hkeeps k (Nat.lt_succ_of_lt hk)
      obtain ⟨hwalking', hsafe'⟩ := run_walking hwalking hsafe hbefore
      have hstep := stepped hwalking' (hkeeps n (Nat.lt_succ_self n)) hsafe'
      have hlast := hstays (n + 1) le_rfl
      rw [after_succ] at hlast ⊢
      exact hstep.tracks hwalking' (hstays n (Nat.le_succ n)) hlast
        (ih hbefore fun k hk => hstays k (Nat.le_succ_of_le hk))

theorem Tracks.between {h : Handler} (htracks : Tracks entry h)
    (hbetween : h.place.isBetween = true) : h.visitsOf entry = dueVisits entry h.popped := by
  unfold Tracks at htracks
  cases hplace : h.place with
  | pop => rwa [hplace] at htracks
  | walk keyData link =>
      rw [hplace] at htracks hbetween
      cases link with
      | none => exact htracks
      | some link => cases hbetween
  | returned => rwa [hplace] at htracks
  | lost => rwa [hplace] at htracks

/-- Over every number of steps the walk is sound exactly when no callback that has been run
unregistered the entry it belongs to. -/
theorem walks_sound_iff (pool : Ledger) (calls : List ClientCall) (queue : EfiKeyQueue)
    (behaviour : Handler → List Action) (n : ℕ) :
    (∀ k ≤ n, SoundAt behaviour (.start pool calls queue) k) ↔
      ∀ k < n, ((Handler.start pool calls queue).after behaviour k).KeepsOwn behaviour := by
  have hstart : (Handler.start pool calls queue).place ≠ .lost := nofun
  constructor
  · intro hsound k hk
    induction k using Nat.strong_induction_on with
    | h k ih =>
        by_contra hkeeps
        obtain ⟨hwalking, -⟩ := run_walking (@walking_start pool calls queue) hstart
          fun j hj => ih j hj (hj.trans hk)
        apply (hsound (k + 1) hk).safe
        rw [after_succ]
        exact step_lost hwalking hkeeps
  · intro hkeeps k hk
    have hbefore : ∀ j < k, ((Handler.start pool calls queue).after behaviour j).KeepsOwn
        behaviour := fun j hj => hkeeps j (hj.trans_le hk)
    refine ⟨(run_walking walking_start hstart hbefore).2, fun entry hstays hbetween => ?_⟩
    have hnothing : Tracks entry (Handler.start pool calls queue) := rfl
    exact (run_tracks walking_start hstart hbefore hstays hnothing).between hbetween

/-- The key `a` is registered once, in block 1, and has been pressed. -/
def oneRegistration : Handler :=
  .start Ledger.empty.grant [.register (some plainKey) (some 7) true true]
    (pushEfikeyBufTail (.reset fun _ => plainKey) plainKey)

/-- The callback unregisters itself, and the second step follows the link of its entry. -/
theorem unregistersItself_not_sound :
    ¬ ∀ k ≤ 2, SoundAt (fun _ => [.call (.unregister (some 1))]) oneRegistration k := by
  intro hsound
  have hlost :
      (oneRegistration.after (fun _ => [.call (.unregister (some 1))]) 2).place = .lost := by
    decide
  exact (hsound 2 le_rfl).safe hlost

end MuTegra.Keyboard.NotifyWalk
