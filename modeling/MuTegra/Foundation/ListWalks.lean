/- Unit: MuTegra/Foundation/ListWalks
   scope: general library
   digest: Walking a list from element to element while others are put in and taken out. -/

import Mathlib.Data.List.Basic
import Mathlib.Data.List.Nodup

/-!
A walk holds an element and moves on to the one behind it. What lies behind an element stays
behind it when other elements are appended or removed, so such changes make a walk neither
miss an element that stays nor come to it again.
-/

set_option autoImplicit false
set_option relaxedAutoImplicit false

namespace MuTegra.Foundation.ListWalks

variable {α : Type}

def Behind (l : List α) (a b : α) : Prop := ∃ before after, l = before ++ a :: after ∧ b ∈ after

theorem Behind.append {l : List α} {a b : α} (h : Behind l a b) (added : List α) :
    Behind (l ++ added) a b := by
  obtain ⟨before, after, rfl, hb⟩ := h
  exact ⟨before, after ++ added, by simp, List.mem_append_left added hb⟩

theorem behind_head {l : List α} {a b : α} (h : l.head? = some a) (hb : b ∈ l) :
    b = a ∨ Behind l a b := by
  cases l with
  | nil => cases h
  | cons d l =>
      obtain rfl := Option.some.inj h
      exact (List.mem_cons.mp hb).imp_right fun hmem => ⟨[], l, rfl, hmem⟩

variable {l before after : List α} {a b : α}

theorem split_eq {before' after' : List α} (hnodup : (before ++ a :: after).Nodup)
    (h : before ++ a :: after = before' ++ a :: after') : before = before' ∧ after = after' := by
  obtain ⟨-, htail, hapart⟩ := List.nodup_append.mp hnodup
  have hbefore : a ∉ before := fun hmem => hapart a hmem a List.mem_cons_self rfl
  have hafter : a ∉ after := (List.nodup_cons.mp htail).1
  obtain ⟨heq, -, heq'⟩ := (List.append_cons_inj_of_notMem hbefore hafter).mp h
  exact ⟨heq, heq'⟩

theorem behind_split (hnodup : (before ++ a :: after).Nodup) :
    Behind (before ++ a :: after) a b ↔ b ∈ after := by
  constructor
  · rintro ⟨before', after', h, hb⟩
    rwa [(split_eq hnodup h).2]
  · exact fun hb => ⟨before, after, rfl, hb⟩

theorem not_behind_self (hnodup : l.Nodup) : ¬ Behind l a a := by
  rintro ⟨before, after, rfl, ha⟩
  exact (List.nodup_cons.mp (List.nodup_append.mp hnodup).2.1).1 ha

variable [DecidableEq α]

theorem Behind.erase {l : List α} {a b c : α} (h : Behind l a b) (ha : a ≠ c) (hb : b ≠ c) :
    Behind (l.erase c) a b := by
  obtain ⟨before, after, rfl, hmem⟩ := h
  by_cases hc : c ∈ before
  · exact ⟨before.erase c, after, List.erase_append_left _ hc, hmem⟩
  · refine ⟨before, after.erase c, ?_, (List.mem_erase_of_ne hb).mpr hmem⟩
    rw [List.erase_append_right _ hc, List.erase_cons_tail (by simpa using ha)]

def follower (l : List α) (a : α) : Option α := (l.dropWhile fun x => decide (x ≠ a)).tail.head?

variable {c : α}

theorem follower_split (hnodup : (before ++ a :: after).Nodup) :
    follower (before ++ a :: after) a = after.head? := by
  have hnot : ∀ x ∈ before, decide (x ≠ a) = true := by
    intro x hx
    have hne := (List.nodup_append.mp hnodup).2.2 x hx a List.mem_cons_self
    simpa using hne
  rw [follower, List.dropWhile_append_of_pos hnot, List.dropWhile_cons_of_neg (by simp)]
  rfl

theorem follower_none (hnodup : l.Nodup) (ha : a ∈ l) (h : follower l a = none) :
    ¬ Behind l a b := by
  obtain ⟨before, after, rfl⟩ := List.append_of_mem ha
  rw [follower_split hnodup, List.head?_eq_none_iff] at h
  rw [behind_split hnodup, h]
  exact List.not_mem_nil

theorem behind_follower (hnodup : l.Nodup) (ha : a ∈ l) (h : follower l a = some c) :
    Behind l a c := by
  obtain ⟨before, after, rfl⟩ := List.append_of_mem ha
  rw [follower_split hnodup] at h
  exact ⟨before, after, rfl, List.mem_of_head? h⟩

theorem Behind.follower (hnodup : l.Nodup) (h : follower l a = some c) (hb : Behind l a b) :
    b = c ∨ Behind l c b := by
  obtain ⟨before, after, rfl, hmem⟩ := hb
  rw [follower_split hnodup] at h
  cases after with
  | nil => cases hmem
  | cons d after =>
      obtain rfl := Option.some.inj h
      refine (List.mem_cons.mp hmem).imp_right fun hmem => ?_
      exact ⟨before ++ [a], after, by simp, hmem⟩

theorem Behind.then_follower (hnodup : l.Nodup) (h : ListWalks.follower l a = some c)
    (hb : Behind l b a) : Behind l b c := by
  obtain ⟨before, after, rfl, hmem⟩ := hb
  obtain ⟨first, second, rfl⟩ := List.append_of_mem hmem
  have hsplit : before ++ b :: (first ++ a :: second) =
      (before ++ b :: first) ++ a :: second := by simp
  rw [hsplit] at hnodup h
  rw [follower_split hnodup] at h
  exact ⟨before, _, rfl, List.mem_append_right first
    (List.mem_cons_of_mem a (List.mem_of_head? h))⟩

end MuTegra.Foundation.ListWalks
