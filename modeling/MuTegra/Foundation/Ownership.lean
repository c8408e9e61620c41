/- Unit: MuTegra/Foundation/Ownership
   scope: general library
   digest: Acquire and release discipline for numbered resources. -/

import Mathlib.Algebra.Order.Group.Multiset
import Mathlib.Data.Multiset.AddSub

/-!
A provider numbers the resources it grants and never reuses a number. A release of
nothing, or of a resource that is not live, is counted as a fault. Code that keeps the
resources it still has to release within the live ones commits none.
-/

set_option autoImplicit false
set_option relaxedAutoImplicit false

namespace MuTegra.Foundation.Ownership

/-- The live resources, the next number to be granted and the wrong releases so far. -/
structure Ledger where
  live : Multiset ℕ
  next : ℕ
  faults : ℕ
  bounded : ∀ id ∈ live, id < next
  nodup : live.Nodup

def Ledger.empty : Ledger where
  live := 0
  next := 0
  faults := 0
  bounded := nofun
  nodup := Multiset.nodup_zero

def Ledger.fault (l : Ledger) : Ledger := { l with faults := l.faults + 1 }

def Ledger.grant (l : Ledger) : Ledger where
  live := l.next ::ₘ l.live
  next := l.next + 1
  faults := l.faults
  bounded := by
    intro id hid
    rcases Multiset.mem_cons.mp hid with rfl | hid
    · exact Nat.lt_succ_self _
    · exact Nat.lt_succ_of_lt (l.bounded id hid)
  nodup := Multiset.nodup_cons.mpr ⟨fun h => lt_irrefl _ (l.bounded _ h), l.nodup⟩

def Ledger.retire (l : Ledger) (id : ℕ) : Ledger where
  live := l.live.erase id
  next := l.next
  faults := l.faults
  bounded := fun j hj => l.bounded j (Multiset.mem_of_mem_erase hj)
  nodup := l.nodup.erase id

def Ledger.acquire (l : Ledger) (granted : Bool) : Option ℕ × Ledger :=
  if granted then (some l.next, l.grant) else (none, l)

/-- A release; nothing, and what is not live, cannot be released. -/
def Ledger.release (l : Ledger) : Option ℕ → Ledger
  | none => l.fault
  | some id => if id ∈ l.live then l.retire id else l.fault

def Ledger.releaseIfAny (l : Ledger) : Option ℕ → Ledger
  | none => l
  | some id => l.release (some id)

def Ledger.releaseAll (l : Ledger) (handles : List (Option ℕ)) : Ledger :=
  handles.foldl Ledger.releaseIfAny l

def held : Option ℕ → Multiset ℕ
  | none => 0
  | some id => {id}

def heldAll (handles : List (Option ℕ)) : Multiset ℕ := (handles.map held).sum

variable (l : Ledger) (id : ℕ) (handle : Option ℕ) (handles : List (Option ℕ))

@[simp] theorem held_none : held none = 0 := rfl

@[simp] theorem held_some : held (some id) = {id} := rfl

@[simp] theorem heldAll_nil : heldAll [] = 0 := rfl

@[simp] theorem heldAll_cons : heldAll (handle :: handles) = held handle + heldAll handles := by
  simp [heldAll]

@[simp] theorem heldAll_map_some (ids : List ℕ) : heldAll (ids.map some) = (ids : Multiset ℕ) := by
  induction ids with
  | nil => rfl
  | cons id ids ih => simp [ih, Multiset.singleton_add]

@[simp] theorem acquire_refused : l.acquire false = (none, l) := rfl

@[simp] theorem acquire_granted : l.acquire true = (some l.next, l.grant) := rfl

@[simp] theorem grant_live : l.grant.live = l.next ::ₘ l.live := rfl

@[simp] theorem grant_faults : l.grant.faults = l.faults := rfl

@[simp] theorem releaseIfAny_none : l.releaseIfAny none = l := rfl

@[simp] theorem releaseIfAny_some : l.releaseIfAny (some id) = l.release (some id) := rfl

@[simp] theorem releaseAll_nil : l.releaseAll [] = l := rfl

@[simp] theorem releaseAll_cons :
    l.releaseAll (handle :: handles) = (l.releaseIfAny handle).releaseAll handles := rfl

@[simp] theorem release_grant_live : (l.grant.release (some l.next)).live = l.live := by
  rw [Ledger.release, if_pos (by simp)]
  exact Multiset.erase_cons_head l.next l.live

@[simp] theorem release_grant_faults : (l.grant.release (some l.next)).faults = l.faults := by
  rw [Ledger.release, if_pos (by simp)]
  rfl

theorem release_next : (l.release handle).next = l.next := by
  cases handle with
  | none => rfl
  | some id =>
      rw [Ledger.release]
      split <;> rfl

/-- The number of faults is as given, and everything still to be released is live. -/
structure Keeps (faults : ℕ) (owned : Multiset ℕ) (l : Ledger) : Prop where
  clean : l.faults = faults
  live : owned ≤ l.live

section rules

variable {n : ℕ} {owned owned' : Multiset ℕ} {l : Ledger}

theorem Keeps.mono (h : Keeps n owned l) (hle : owned' ≤ owned) : Keeps n owned' l :=
  ⟨h.clean, hle.trans h.live⟩

theorem Keeps.acquire (h : Keeps n owned l) (granted : Bool) :
    Keeps n (held (l.acquire granted).1 + owned) (l.acquire granted).2 := by
  cases granted with
  | false => simpa using h
  | true =>
      constructor
      · exact h.clean
      · simpa using h.live

theorem Keeps.grant (h : Keeps n owned l) : Keeps n ({l.next} + owned) l.grant :=
  h.acquire true

theorem Keeps.release {id : ℕ} (h : Keeps n ({id} + owned) l) :
    Keeps n owned (l.release (some id)) := by
  have hle : id ::ₘ owned ≤ l.live := by simpa using h.live
  have hmem : id ∈ l.live := Multiset.mem_of_le hle (Multiset.mem_cons_self id owned)
  rw [Ledger.release, if_pos hmem]
  constructor
  · exact h.clean
  · change owned ≤ l.live.erase id
    rw [← Multiset.erase_cons_head id owned]
    exact Multiset.erase_le_erase id hle

theorem Keeps.releaseIfAny {handle : Option ℕ} (h : Keeps n (held handle + owned) l) :
    Keeps n owned (l.releaseIfAny handle) := by
  cases handle with
  | none => simpa using h
  | some id => exact Keeps.release h

theorem Keeps.releaseAll (handles : List (Option ℕ)) :
    ∀ {l : Ledger}, Keeps n (heldAll handles + owned) l → Keeps n owned (l.releaseAll handles) := by
  induction handles with
  | nil => intro l h; simpa using h
  | cons handle handles ih =>
      intro l h
      apply ih
      apply Keeps.releaseIfAny
      simpa [add_assoc] using h

end rules

/-- Since `base` there has been no wrong release, and what has become live and still is
is exactly `owned`. -/
structure Owns (base : Ledger) (owned : Multiset ℕ) (l : Ledger) : Prop where
  clean : l.faults = base.faults
  live : l.live = owned + base.live

section balances

variable {base : Ledger} {owned : Multiset ℕ} {l : Ledger}

theorem Owns.refl (base : Ledger) : Owns base 0 base := ⟨rfl, (Multiset.zero_add _).symm⟩

theorem Owns.grant (h : Owns base owned l) : Owns base ({l.next} + owned) l.grant where
  clean := h.clean
  live := by
    rw [grant_live, h.live, Multiset.singleton_add, Multiset.cons_add]

theorem Owns.acquire (h : Owns base owned l) (granted : Bool) :
    Owns base (held (l.acquire granted).1 + owned) (l.acquire granted).2 := by
  cases granted with
  | false => simpa using h
  | true => exact h.grant

theorem Owns.release {id : ℕ} (h : Owns base ({id} + owned) l) :
    Owns base owned (l.release (some id)) := by
  have hlive : l.live = id ::ₘ (owned + base.live) := by
    rw [h.live, Multiset.singleton_add, Multiset.cons_add]
  rw [Ledger.release, if_pos (hlive ▸ Multiset.mem_cons_self _ _)]
  constructor
  · exact h.clean
  · change l.live.erase id = _
    rw [hlive, Multiset.erase_cons_head]

theorem Owns.releaseIfAny {handle : Option ℕ} (h : Owns base (held handle + owned) l) :
    Owns base owned (l.releaseIfAny handle) := by
  cases handle with
  | none => simpa using h
  | some id => exact h.release

theorem Owns.releaseAll (handles : List (Option ℕ)) :
    ∀ {l : Ledger}, Owns base (heldAll handles + owned) l →
      Owns base owned (l.releaseAll handles) := by
  induction handles with
  | nil => intro l h; simpa using h
  | cons handle handles ih =>
      intro l h
      apply ih
      apply Owns.releaseIfAny
      simpa [add_assoc] using h

theorem Owns.mem {id : ℕ} (h : Owns base owned l) (hid : id ∈ owned) : id ∈ l.live := by
  rw [h.live]
  exact Multiset.mem_add.mpr (Or.inl hid)

end balances

theorem faults_le_release (l : Ledger) (handle : Option ℕ) :
    l.faults ≤ (l.release handle).faults := by
  cases handle with
  | none => exact Nat.le_succ _
  | some id =>
      rw [Ledger.release]
      split
      · exact le_rfl
      · exact Nat.le_succ _

theorem faults_le_releaseIfAny (l : Ledger) (handle : Option ℕ) :
    l.faults ≤ (l.releaseIfAny handle).faults := by
  cases handle with
  | none => exact le_rfl
  | some id => exact faults_le_release l (some id)

theorem faults_le_releaseAll (handles : List (Option ℕ)) :
    ∀ l : Ledger, l.faults ≤ (l.releaseAll handles).faults := by
  induction handles with
  | nil => exact fun l => le_rfl
  | cons handle handles ih =>
      exact fun l => (faults_le_releaseIfAny l handle).trans (ih _)

theorem faults_lt_release {l : Ledger} {id : ℕ} (h : id ∉ l.live) :
    l.faults < (l.release (some id)).faults := by
  rw [Ledger.release, if_neg h]
  exact Nat.lt_succ_self _

theorem not_mem_release (l : Ledger) (id : ℕ) : id ∉ (l.release (some id)).live := by
  rw [Ledger.release]
  split
  · exact Multiset.Nodup.notMem_erase l.nodup
  · assumption

theorem release_live_le (l : Ledger) (handle : Option ℕ) :
    (l.release handle).live ≤ l.live := by
  cases handle with
  | none => exact le_rfl
  | some id =>
      rw [Ledger.release]
      split
      · exact Multiset.erase_le id l.live
      · exact le_rfl

theorem releaseIfAny_live_le (l : Ledger) (handle : Option ℕ) :
    (l.releaseIfAny handle).live ≤ l.live := by
  cases handle with
  | none => exact le_rfl
  | some id => exact release_live_le l (some id)

theorem releaseAll_live_le (handles : List (Option ℕ)) :
    ∀ l : Ledger, (l.releaseAll handles).live ≤ l.live := by
  induction handles with
  | nil => exact fun l => le_rfl
  | cons handle handles ih => exact fun l => (ih _).trans (releaseIfAny_live_le l handle)

theorem not_mem_releaseAll {id : ℕ} (handles : List (Option ℕ)) :
    ∀ l : Ledger, id ∈ heldAll handles → id ∉ (l.releaseAll handles).live := by
  induction handles with
  | nil => exact fun l h => absurd h (Multiset.notMem_zero id)
  | cons handle handles ih =>
      intro l h hlive
      rw [heldAll_cons, Multiset.mem_add] at h
      rcases h with h | h
      · cases handle with
        | none => exact Multiset.notMem_zero id h
        | some other =>
            rw [held_some, Multiset.mem_singleton] at h
            subst h
            exact not_mem_release l id (Multiset.mem_of_le (releaseAll_live_le handles _) hlive)
      · exact ih _ h hlive

end MuTegra.Foundation.Ownership
